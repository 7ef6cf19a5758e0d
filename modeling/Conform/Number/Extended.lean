/-
The extended number line: the dyadic rationals, which are the exact values of
finite binary numbers and of whole numbers alike, between two infinities.
-/
namespace Conform

/-- A value on the extended number line. -/
inductive Extended where
  | minusInfinity
  | exact (value : Dyadic)
  | plusInfinity
  deriving DecidableEq

end Conform
