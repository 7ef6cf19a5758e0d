/-
Layouts of binary numbers as text. A layout says which numbers are written
positionally and what the others look like; the digits are always the shortest
ones that read back.
-/
import Conform.Number.Shortest
import Conform.Text.Digits

namespace Conform

/-- How a finite number is written. -/
structure Layout where
  /-- The decimal to take of two equally near ones. -/
  tie : Tie
  /-- The least decimal exponent written positionally. -/
  plainFrom : Int
  /-- The greatest decimal exponent written positionally. -/
  plainUpTo : Int
  /-- The sign of an exponent that is not negative. -/
  exponentSign : String

namespace Layout

/-- Digits with a decimal point after the first `point` of them. At least one
digit stands on either side of it. -/
def positional (digits : List Char) (point : Int) : String :=
  if point ≤ 0 then
    "0." ++ String.ofList (List.replicate (-point).toNat '0' ++ digits)
  else
    let before := digits.take point.toNat
    let after := digits.drop point.toNat
    String.ofList (before ++ List.replicate (point.toNat - digits.length) '0') ++ "." ++
      (if after.isEmpty then "0" else String.ofList after)

/-- Digits with a decimal point after the first, unless it is the only one, and
a decimal exponent. -/
def scientific (l : Layout) (digits : List Char) (exponent : Int) : String :=
  String.ofList (digits.take 1) ++
    (if digits.length ≤ 1 then "" else "." ++ String.ofList (digits.drop 1)) ++
    "e" ++ (if exponent < 0 then "" else l.exponentSign) ++ Text.whole exponent

def decimal (l : Layout) (d : Decimal) : String :=
  let digits := Text.digits d.digits
  let point : Int := digits.length + d.exponent
  if l.plainFrom ≤ point - 1 ∧ point - 1 ≤ l.plainUpTo then positional digits point
  else l.scientific digits (point - 1)

/-- The magnitude `m * 2 ^ q`. -/
def magnitude (l : Layout) (m : Nat) (q : Int) (h : Canonical m q) : String :=
  if m = 0 then "0.0" else l.decimal (Decimal.shortest l.tie m q h)

def finite (l : Layout) (negative : Bool) (m : Nat) (q : Int) (h : Canonical m q) : String :=
  (if negative then "-" else "") ++ l.magnitude m q h

end Layout

end Conform
