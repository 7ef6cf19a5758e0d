/-
JSON data: what a document holds when spelling no longer counts. Members are in
key order, and a key that a document gives twice has the value given last.
-/
import Conform.Table
import Conform.Json.Reading

namespace Conform

/-- JSON data. A number is a whole number or a floating point number. -/
inductive Json where
  | null
  | bool (b : Bool)
  | integer (n : Int)
  | float (x : Binary64)
  | string (s : String)
  | array (items : List Json)
  | object (members : Table.From Json none)

namespace Json

/-- The numbers kept as whole numbers: those of 64 bits, with or without a sign. -/
def isWord (n : Int) : Bool := -0x8000000000000000 ≤ n && n < 0x10000000000000000

section

variable (convert : Conversion)

/-- The number that a numeral stands for, unless it is too great. -/
def ofNumeral? (n : Numeral) : Option Json :=
  match n.integer?.filter isWord with
  | some i => some (integer i)
  | none => (n.round? convert).map float

mutual

/-- The data of a document, unless it holds a numeral that is too great. -/
def ofDocument? : Document → Option Json
  | .null => some null
  | .bool b => some (bool b)
  | .numeral n => ofNumeral? convert n
  | .string s => some (string s)
  | .array items => array <$> ofItems? items
  | .object members => (fun ms => object (Table.ofList ms)) <$> ofMembers? members

def ofItems? : List Document → Option (List Json)
  | [] => some []
  | d :: ds => do
    let j ← ofDocument? d
    let js ← ofItems? ds
    some (j :: js)

def ofMembers? : List (String × Document) → Option (List (String × Json))
  | [] => some []
  | (k, d) :: ds => do
    let j ← ofDocument? d
    let js ← ofMembers? ds
    some ((k, j) :: js)

end

/-- The data that a text holds, if it is a document, by a conversion of numerals. -/
def parseBy? (text : String) : Option Json := do
  let d ← Document.parse? text
  ofDocument? convert d

end

/-- The data that a text holds, with every number the nearest. -/
def parse? (text : String) : Option Json := parseBy? Numeral.binary64? text

/-- The fields of a record with these names. They are the members of an object, if it has no others,
or the items of an array, which stand for the first of the fields in their order. -/
def fields? (names : List String) : Json → Option (Table Json)
  | object ms => if ms.keys.all names.contains then some ms else none
  | array items =>
    if items.length ≤ names.length then some (Table.ofList (names.zip items)) else none
  | _ => none

end Json

end Conform
