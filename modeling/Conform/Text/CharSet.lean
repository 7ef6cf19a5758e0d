/-
Sets of characters, given as ranges of code points.
-/
namespace Conform.Text

/-- The characters whose code points lie in one of some ranges, ends included. -/
structure CharSet where
  ranges : List (Nat × Nat)

/-- Is a character in the set? -/
def CharSet.contains (s : CharSet) (c : Char) : Bool :=
  s.ranges.any fun r => r.1 ≤ c.toNat && c.toNat ≤ r.2

end Conform.Text
