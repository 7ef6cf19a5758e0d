/-
The order of binary floating point numbers, and how they are cut off at the
point.

No exact value is computed. A magnitude has one form, in which the exponent is
as small as it can be, so of two magnitudes the one with the greater exponent is
the greater one, and the significands decide between equal exponents.
-/
import Conform.Number.Binary64

namespace Conform.Binary64

/-! ## Order -/

def compareMagnitudes (m : Nat) (q : Int) (m' : Nat) (q' : Int) : Ordering :=
  (compare q q').then (compare m m')

/-- The order of two numbers. NaN is in no order, and the two zeros are equal. -/
def compare? : Binary64 → Binary64 → Option Ordering
  | nan, _ => none
  | _, nan => none
  | infinite true, infinite true => some .eq
  | infinite false, infinite false => some .eq
  | infinite negative, _ => some (if negative then .lt else .gt)
  | _, infinite negative => some (if negative then .gt else .lt)
  | finite negative m q _, finite negative' m' q' _ =>
    some (if m = 0 ∧ m' = 0 then .eq
      else
        match negative, negative' with
        | false, false => compareMagnitudes m q m' q'
        | true, true => compareMagnitudes m' q' m q
        | true, false => .lt
        | false, true => .gt)

/-! ## The part before the point -/

/-- The part of the magnitude `m * 2 ^ q` before the point. -/
def wholeMagnitude (m : Nat) (q : Int) : Nat :=
  if 0 ≤ q then m * Nat.pow 2 q.toNat else m / Nat.pow 2 (-q).toNat

/-- The number without what is behind the point. -/
def truncate : Binary64 → Binary64
  | finite negative m q _ => nearest negative (Fraction.ofNat (wholeMagnitude m q))
  | x => x

/-- The whole number that is left when what is behind the point is cut off. What
is out of range goes to the end of the range, and NaN to zero. -/
def toInt64 : Binary64 → Int64
  | nan => 0
  | infinite negative => if negative then Int64.minValue else Int64.maxValue
  | finite negative m q _ =>
    let n : Int := if negative then -(wholeMagnitude m q : Int) else wholeMagnitude m q
    .ofInt (max (-0x8000000000000000) (min n 0x7fffffffffffffff))

/-- The binary number 2^63, which is above all whole numbers of 64 bits, or the
least of them, which is -2^63. -/
def edge (negative : Bool) : Binary64 := finite negative 0x10000000000000 11 (by decide)

end Conform.Binary64
