/-
Numerals: natural numbers and whole numbers in positional notation.
-/
namespace Conform.Text

/-- The decimal digits of a natural number, first digit first. -/
def digits (n : Nat) : List Char := Nat.toDigits 10 n

/-- A natural number in decimal. -/
def natural (n : Nat) : String := String.ofList (digits n)

/-- A whole number in decimal, with a minus sign if it is negative. -/
def whole (n : Int) : String := if n < 0 then "-" ++ natural n.natAbs else natural n.natAbs

/-- A natural number in hexadecimal, in small letters and without padding. -/
def hexadecimal (n : Nat) : String := String.ofList (Nat.toDigits 16 n)

/-- Decimal digits, filled up with zeros to at least the given width. -/
def paddedDigits (width n : Nat) : List Char :=
  List.replicate (width - (digits n).length) '0' ++ digits n

/-- A natural number in decimal, filled up with zeros to at least the given width. -/
def padded (width n : Nat) : String := String.ofList (paddedDigits width n)

end Conform.Text
