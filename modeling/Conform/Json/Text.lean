/-
JSON text without blanks. Numbers that are not finite have no JSON form and are
written as null.
-/
import Conform.Json.Basic
import Conform.Number.Layout

namespace Conform

/-- In JSON text, exponents from -5 to 15 are written positionally, and an
exponent bears its sign. Of two equally near decimals the even one counts. -/
def Layout.json : Layout := ⟨.even, -5, 15, "+"⟩

namespace Json

/-- A character as it stands in a JSON string. -/
def escape (c : Char) : List Char :=
  if c = '"' then ['\\', '"']
  else if c = '\\' then ['\\', '\\']
  else if c = '\x08' then ['\\', 'b']
  else if c = '\x0c' then ['\\', 'f']
  else if c = '\n' then ['\\', 'n']
  else if c = '\r' then ['\\', 'r']
  else if c = '\t' then ['\\', 't']
  else if c.toNat < 0x10 then ['\\', 'u', '0', '0', '0'] ++ Nat.toDigits 16 c.toNat
  else if c.toNat < 0x20 then ['\\', 'u', '0', '0'] ++ Nat.toDigits 16 c.toNat
  else [c]

def stringText (s : String) : String :=
  String.ofList ('"' :: s.toList.flatMap escape ++ ['"'])

/-- A JSON array of items whose texts are given. -/
def arrayText (items : List String) : String := "[" ++ ",".intercalate items ++ "]"

def memberText (key value : String) : String := stringText key ++ ":" ++ value

/-- A JSON object of members whose texts are given, in their order. -/
def objectText (members : List String) : String := "\x7b" ++ ",".intercalate members ++ "\x7d"

/-- A binary number, or null. -/
def floatText : Binary64 → String
  | .nan => "null"
  | .infinite _ => "null"
  | .finite negative m q h => Layout.json.finite negative m q h

mutual

def text : Json → String
  | null => "null"
  | bool b => if b then "true" else "false"
  | integer n => Text.whole n
  | float x => floatText x
  | string s => stringText s
  | array items => arrayText (itemTexts items)
  | object members => objectText (memberTexts members)

def itemTexts : List Json → List String
  | [] => []
  | j :: js => j.text :: itemTexts js

def memberTexts {b : Option String} : Table.From Json b → List String
  | .nil => []
  | .cons k _ j rest => memberText k j.text :: memberTexts rest

end

end Json

end Conform
