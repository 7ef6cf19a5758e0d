/-
The text of a value in a message: strings and keys in quotes, items in brackets,
members in braces. Nothing else is in quotes, so a string never looks like
another value.
-/
import Conform.Value.Basic
import Conform.Text.Quoted

namespace Conform.Value

mutual

/-- A value in a message. -/
def text : Value → String
  | null => "nil"
  | bool b => if b then "true" else "false"
  | number n => n.text
  | string s => Text.quote s
  | seq items => "[" ++ ", ".intercalate (itemTexts items) ++ "]"
  | map members => "\x7b" ++ ", ".intercalate (memberTexts members) ++ "\x7d"
  | date d => d.text
  | time t => t.text

def itemTexts : List Value → List String
  | [] => []
  | v :: vs => v.text :: itemTexts vs

/-- The text of each member, its key in front. -/
def memberTexts {b : Option String} : Table.From Value b → List String
  | .nil => []
  | .cons k _ v rest => (Text.quote k ++ ": " ++ v.text) :: memberTexts rest

end

/-! ## The text that names every shape -/

/-- A number with the name of its kind around it. -/
def detailedNumber : Number → String
  | .int n => "Int(" ++ Text.whole n.toInt ++ ")"
  | .float x => "Float(" ++ x.text ++ ")"

mutual

/-- A value with the name of its shape around every part. -/
def detailed : Value → String
  | null => "Null"
  | bool b => "Bool(" ++ (if b then "true" else "false") ++ ")"
  | number n => "Number(" ++ detailedNumber n ++ ")"
  | string s => "String(" ++ Text.quote s ++ ")"
  | seq items => "Seq([" ++ ", ".intercalate (detailedItems items) ++ "])"
  | map members => "Map(\x7b" ++ ", ".intercalate (detailedMembers members) ++ "\x7d)"
  | date d => "Date(" ++ d.text ++ ")"
  | time t => "Time(" ++ t.text ++ ")"

def detailedItems : List Value → List String
  | [] => []
  | v :: vs => v.detailed :: detailedItems vs

/-- The detailed text of each member, its key in front. -/
def detailedMembers {b : Option String} : Table.From Value b → List String
  | .nil => []
  | .cons k _ v rest => (Text.quote k ++ ": " ++ v.detailed) :: detailedMembers rest

end

end Conform.Value
