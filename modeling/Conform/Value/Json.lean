/-
Values as JSON and back.

There are two ways from a document to a value. The direct one
(`Value.ofDocument?`) tries the shapes of values in their order and takes the
first that fits; the other goes through JSON data (`Value.ofJson`). Neither
yields a date or a time: their texts are strings, and a string fits first.
-/
import Conform.Value.Basic
import Conform.Json.Text

namespace Conform

/-- Has a whole number a place among the numbers of 64 bits with a sign? -/
def fitsInt64 (n : Int) : Bool := -0x8000000000000000 ≤ n && n < 0x8000000000000000

namespace Number

/-- The number of a numeral: whole if it is spelt as a whole number that fits,
and else a floating point number, unless it is too great for one. -/
def ofNumeral? (convert : Json.Conversion) (n : Json.Numeral) : Option Number :=
  match n.integer?.filter fitsInt64 with
  | some i => some (int (Int64.ofInt i))
  | none => (n.round? convert).map float

/-- The number of a whole number: whole itself if it fits, and else rounded. -/
def ofInt (n : Int) : Number :=
  if fitsInt64 n then int (Int64.ofInt n) else float (.ofInt n)

end Number

namespace Value

section

variable (convert : Json.Conversion)

mutual

/-- The value of a document, unless it holds a numeral that is too great. -/
def ofDocument? : Json.Document → Option Value
  | .null => some null
  | .bool b => some (bool b)
  | .numeral n => number <$> Number.ofNumeral? convert n
  | .string s => some (string s)
  | .array items => seq <$> ofItems? items
  | .object members => (fun ms => map (Table.ofList ms)) <$> ofMembers? members

def ofItems? : List Json.Document → Option (List Value)
  | [] => some []
  | d :: ds => do
    let v ← ofDocument? d
    let vs ← ofItems? ds
    some (v :: vs)

def ofMembers? : List (String × Json.Document) → Option (List (String × Value))
  | [] => some []
  | (k, d) :: ds => do
    let v ← ofDocument? d
    let vs ← ofMembers? ds
    some ((k, v) :: vs)

end

/-- The value that a text holds, if it is a document, by a conversion of numerals. -/
def parseBy? (text : String) : Option Value := do
  let d ← Json.Document.parse? text
  ofDocument? convert d

end

/-- The value that a text holds, with every number the nearest. -/
def parse? (text : String) : Option Value := parseBy? Json.Numeral.binary64? text

mutual

def ofJson : Json → Value
  | .null => null
  | .bool b => bool b
  | .integer n => number (.ofInt n)
  | .float x => number (.float x)
  | .string s => string s
  | .array items => seq (ofJsonItems items)
  | .object members => map (ofJsonMembers members)

def ofJsonItems : List Json → List Value
  | [] => []
  | j :: js => ofJson j :: ofJsonItems js

def ofJsonMembers {b : Option String} : Table.From Json b → Table.From Value b
  | .nil => .nil
  | .cons k h j rest => .cons k h (ofJson j) (ofJsonMembers rest)

end

mutual

/-- The JSON data of a value. Dates and times become strings. -/
def toJson : Value → Json
  | null => .null
  | bool b => .bool b
  | number (.int n) => .integer n.toInt
  | number (.float x) => .float x
  | string s => .string s
  | seq items => .array (itemsToJson items)
  | map members => .object (membersToJson members)
  | date d => .string d.text
  | time t => .string t.text

def itemsToJson : List Value → List Json
  | [] => []
  | v :: vs => v.toJson :: itemsToJson vs

def membersToJson {b : Option String} : Table.From Value b → Table.From Json b
  | .nil => .nil
  | .cons k h v rest => .cons k h v.toJson (membersToJson rest)

end

def jsonText (v : Value) : String := v.toJson.text

end Value

end Conform
