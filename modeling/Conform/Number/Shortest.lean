/-
The shortest decimal that stands for a binary number.

On the grid of the multiples of a power of ten, the only points that can be
nearest to a number are its two neighbours. Going from coarse grids to fine
ones, the first grid on which a neighbour reads back as the number gives the
decimal with the fewest digits. If both neighbours read back, the nearer one is
taken; how an exact tie is resolved is left to whoever writes the number.
-/
import Conform.Number.Binary64

namespace Conform

/-- The decimal `digits * 10 ^ exponent`. -/
structure Decimal where
  digits : Nat
  exponent : Int
  deriving DecidableEq

/-- Which of two equally near decimals is taken. -/
inductive Tie where
  /-- The greater one. -/
  | up
  /-- The one whose last digit is even. -/
  | even
  deriving DecidableEq

namespace Decimal

/-- The number of the given sign that a decimal stands for. -/
def toBinary64 (d : Decimal) (negative : Bool) : Binary64 :=
  Binary64.ofDecimal negative d.digits d.exponent

/-- The neighbour of the fraction `y` among the whole numbers that is taken when
both would do. -/
def nearer (tie : Tie) (y : Fraction) : Nat :=
  match y.compareHalf, tie with
  | .lt, _ => y.floor
  | .gt, _ => y.floor + 1
  | .eq, .up => y.floor + 1
  | .eq, .even => if y.floor % 2 = 0 then y.floor else y.floor + 1

/-- The decimal on the grid of `10 ^ g` that reads back as the number `x`, which
is positive and has the exact value `exact`. -/
def onGrid? (tie : Tie) (x : Binary64) (exact : Fraction) (g : Int) : Option Decimal :=
  let y := exact.scale 10 (-g)
  let below : Decimal := ⟨y.floor, g⟩
  let above : Decimal := ⟨y.floor + 1, g⟩
  if below.toBinary64 false = x then
    if above.toBinary64 false = x then some ⟨nearer tie y, g⟩ else some below
  else if above.toBinary64 false = x then some above
  else none

/-- All digits of the magnitude `m * 2 ^ q`. -/
def exactly (m : Nat) (q : Int) : Decimal :=
  if 0 ≤ q then ⟨m * Nat.pow 2 q.toNat, 0⟩ else ⟨m * Nat.pow 5 (-q).toNat, q⟩

/-- A grid on which the magnitude `m * 2 ^ q` lies near the first points: the
binary logarithm is turned into a decimal one. -/
def coarsest (m : Nat) (q : Int) : Int := (m.log2 + q + 1) * 30103 / 100000 + 1

/-- The shortest decimal that reads back as a nonzero magnitude. Seventeen
digits always do, so the search over grids is bounded. -/
def shortest (tie : Tie) (m : Nat) (q : Int) (h : Canonical m q) : Decimal :=
  let exact := (Fraction.ofNat m).scale 2 q
  let grids := (List.range 24).map fun (i : Nat) => coarsest m q - i
  (grids.findSome? (onGrid? tie (.finite false m q h) exact)).getD (exactly m q)

end Decimal

end Conform
