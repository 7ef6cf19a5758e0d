/-
Quoted text. Between double quotes, a quote and a backslash are written after a
backslash, and so are four control characters that have letters of their own;
every other hidden character is written by its code point.
-/
import Conform.Text.Digits
import Conform.Text.Hidden

namespace Conform.Text

/-- A character as it stands between quotes. -/
def escape (c : Char) : List Char :=
  if c = '\x00' then ['\\', '0']
  else if c = '\t' then ['\\', 't']
  else if c = '\n' then ['\\', 'n']
  else if c = '\r' then ['\\', 'r']
  else if c = '"' then ['\\', '"']
  else if c = '\\' then ['\\', '\\']
  else if isHidden c then ['\\', 'u', '\x7b'] ++ Nat.toDigits 16 c.toNat ++ ['\x7d']
  else [c]

/-- Text in double quotes, with what would not show escaped. -/
def quote (s : String) : String :=
  String.ofList ('"' :: s.toList.flatMap escape ++ ['"'])

/-- A name in single quotes, with nothing escaped. -/
def mention (name : String) : String := "'" ++ name ++ "'"

/-- Names in single quotes, between commas. -/
def mentions (names : List String) : String := ", ".intercalate (names.map mention)

/-- Each name stands as it is between single quotes, and a comma and a space stand between two. -/
theorem mentions_eq (names : List String) :
    mentions names = ", ".intercalate (names.map fun name => "'" ++ name ++ "'") :=
  rfl

example : mentions ["a", "b, c"] = "'a', 'b, c'" := by decide

end Conform.Text
