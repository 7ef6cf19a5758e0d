/-
Binary floating point numbers of 64 bits, as data rather than as bit patterns.

A finite number is a sign and a magnitude `significand * 2 ^ exponent`, and each
number has one such form: a significand below 2^52 goes only with the least
exponent. So two numbers are equal as data exactly when they are the same
number, the two zeros being different numbers of the same value. There is one
NaN.
-/
import Conform.Number.Extended
import Conform.Number.Fraction

namespace Conform

/-- The pairs that stand for a magnitude: the significand has at most 53 bits,
which is to be below 2^53; the first of them is set, which is to be at least
2^52, unless the exponent is the least one; and the exponent is in range. -/
def Canonical (significand : Nat) (exponent : Int) : Prop :=
  significand < 0x20000000000000 ∧ -1074 ≤ exponent ∧ exponent ≤ 971 ∧
    (0x10000000000000 ≤ significand ∨ exponent = -1074)

instance (m : Nat) (q : Int) : Decidable (Canonical m q) :=
  inferInstanceAs (Decidable (_ ∧ _ ∧ _ ∧ _))

/-- A binary floating point number of 64 bits. -/
inductive Binary64 where
  | nan
  | infinite (negative : Bool)
  | finite (negative : Bool) (significand : Nat) (exponent : Int)
      (canonical : Canonical significand exponent)
  deriving DecidableEq

namespace Binary64

def zero (negative : Bool) : Binary64 := finite negative 0 (-1074) (by decide)

/-- The exact value of a number; NaN has none. -/
def extended : Binary64 → Option Extended
  | nan => none
  | infinite true => some .minusInfinity
  | infinite false => some .plusInfinity
  | finite negative m q _ =>
    some (.exact (Dyadic.ofIntWithPrec (if negative then -(m : Int) else m) (-q)))

def isIntegral : Binary64 → Bool
  | nan => false
  | infinite _ => false
  | finite _ m q _ => 0 ≤ q || m % Nat.pow 2 (-q).toNat == 0

def isInfinite : Binary64 → Bool
  | infinite _ => true
  | _ => false

/-! ## Rounding -/

/-- The number with a rounded magnitude `m * 2 ^ q`. Rounding may have carried
into a 54th bit, and what lies beyond the greatest exponent is infinite. -/
def assemble (negative : Bool) (m : Nat) (q : Int) : Binary64 :=
  if h : Canonical m q then finite negative m q h
  else if h : m = 0x20000000000000 ∧ Canonical 0x10000000000000 (q + 1) then
    finite negative 0x10000000000000 (q + 1) h.2
  else infinite negative

/-- The exponent at which a nonzero fraction has 53 bits before the point, or
the least exponent if that is greater. -/
def exponentOf (x : Fraction) : Int :=
  let q : Int := (x.num.log2 : Int) - x.den.log2 - 52
  let q := if (x.scale 2 (-q)).floor < 0x10000000000000 then q - 1 else q
  max q (-1074)

/-- The number nearest to a fraction of the given sign. Halfway between two, it
is the one with the even significand. -/
def nearest (negative : Bool) (x : Fraction) : Binary64 :=
  if x.num = 0 then zero negative
  else
    let q := exponentOf x
    assemble negative (x.scale 2 (-q)).roundHalfEven q

/-- The number nearest to `digits * 10 ^ exponent` with the given sign.
What is far outside the range of finite numbers is settled without computing the
power: beyond 10^310 everything is infinite, and since 10 is more than 2^3,
everything that the second test finds is below a half of the least number. -/
def ofDecimal (negative : Bool) (digits : Nat) (exponent : Int) : Binary64 :=
  if digits = 0 then zero negative
  else if 310 < exponent then infinite negative
  else if exponent < 0 ∧ (digits.log2 : Int) + 3 * exponent < -1100 then zero negative
  else nearest negative ((Fraction.ofNat digits).scale 10 exponent)

/-- The number nearest to a whole number. -/
def ofInt (n : Int) : Binary64 := nearest (n < 0) (Fraction.ofNat n.natAbs)

end Binary64

end Conform
