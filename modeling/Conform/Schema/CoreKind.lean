/-
The sixteen kinds of schemas that every registry may start with.
-/
namespace Conform

/-- What every URI of a core kind begins with. -/
def coreNamespace : String := "tag:codesimply.com,2008:rx/core/"

/-- What every URI of a type for schemas of schemas begins with. -/
def metaNamespace : String := "tag:codesimply.com,2008:rx/meta/"

inductive CoreKind where
  | all
  | any
  | array
  | boolean
  | date
  | defined
  | fail
  | integer
  | map
  | nil
  | number
  | scalar
  | record
  | sequence
  | string
  | time
  deriving DecidableEq

namespace CoreKind

def list : List CoreKind :=
  [all, any, array, boolean, date, defined, fail, integer, map, nil, number, scalar, record,
    sequence, string, time]

/-- The name of a kind in the namespace of kinds. -/
def name : CoreKind → String
  | all => "all"
  | any => "any"
  | array => "arr"
  | boolean => "bool"
  | date => "date"
  | defined => "def"
  | fail => "fail"
  | integer => "int"
  | map => "map"
  | nil => "nil"
  | number => "num"
  | scalar => "one"
  | record => "rec"
  | sequence => "seq"
  | string => "str"
  | time => "time"

def uri (k : CoreKind) : String := coreNamespace ++ k.name

/-- The segment that a kind has in the path of a rejection. -/
def path (k : CoreKind) : String := "/" ++ k.name

/-- The parameters that a kind knows. -/
def parameters : CoreKind → List String
  | all | any => ["of"]
  | array => ["contents", "length"]
  | map => ["values"]
  | integer | number => ["range", "value"]
  | record => ["required", "optional", "rest"]
  | sequence => ["contents", "tail"]
  | string => ["value", "length", "regex"]
  | boolean | date | defined | fail | nil | scalar | time => []

end CoreKind

end Conform
