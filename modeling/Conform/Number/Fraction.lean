/-
Fractions of natural numbers, as used in rounding: not reduced, so that scaling
by a power of a base only multiplies, above or below the line.
-/
namespace Conform

/-- The fraction `num / den`. -/
structure Fraction where
  num : Nat
  den : Nat

namespace Fraction

/-- A whole number as a fraction. -/
def ofNat (n : Nat) : Fraction := ⟨n, 1⟩

/-- The fraction times `base ^ e`. -/
def scale (x : Fraction) (base : Nat) (e : Int) : Fraction :=
  if 0 ≤ e then ⟨x.num * Nat.pow base e.toNat, x.den⟩
  else ⟨x.num, x.den * Nat.pow base (-e).toNat⟩

/-- The greatest whole number that is not above the fraction. -/
def floor (x : Fraction) : Nat := x.num / x.den

/-- How the fraction lies to the middle between its floor and the next whole number. -/
def compareHalf (x : Fraction) : Ordering := compare (2 * (x.num % x.den)) x.den

/-- The nearest whole number; halfway between two, the even one. -/
def roundHalfEven (x : Fraction) : Nat :=
  match x.compareHalf with
  | .lt => x.floor
  | .gt => x.floor + 1
  | .eq => if x.floor % 2 = 0 then x.floor else x.floor + 1

end Fraction

end Conform
