/-
The numbers that numerals stand for. A numeral without point and exponent, other than `-0`, stands
for a whole number, if that has a place among the numbers of 64 bits with a sign; every other one
stands for a binary number (`Numeral.Denotes`). Up to 64 bits a whole number is rounded to the
number that is nearest to it; whether that holds of the other numerals is for the conversion to
say (`Conversion.Correct`, `Numeral.nearest_of_roundsTo`).
-/
import Conform.Proofs.Json.Document
import Conform.Proofs.Json.Layout
import Conform.Proofs.Number.Nearest

namespace Conform

theorem Binary64.IsNearest.isInfinite {negative : Bool} {t : ℚ} {x : Binary64}
    (h : Binary64.IsNearest negative t x) : x.isInfinite = false := by
  cases h with
  | finite => rfl

/-- Whole numbers of 64 bits are not too great. -/
theorem Binary64.two_pow_le_limit : (2 : ℚ) ^ 64 ≤ Binary64.limit := by
  rw [Binary64.limit, ← one_mul (2 ^ 64)]
  gcongr
  · norm_num
  · exact one_le_two
  · decide

/-- Whole numbers of 64 bits are rounded to the nearest number. -/
theorem Binary64.isNearest_of_word (negative : Bool) {m : ℕ} (h : m < 2 ^ 64) :
    IsNearest negative m (nearest negative (.ofNat m)) := by
  have rounded := nearest_cases negative (x := Fraction.ofNat m) Nat.one_ne_zero
  rw [Fraction.toRat_ofNat] at rounded
  obtain ⟨_, nearest⟩ | ⟨beyond, _⟩ := rounded
  · exact nearest
  · have word : (m : ℚ) < 2 ^ 64 := by exact_mod_cast h
    exact absurd (word.trans_le two_pow_le_limit) (not_lt.2 beyond)

theorem fitsInt64_iff {i : Int} : fitsInt64 i = true ↔ ∃ n : Int64, n.toInt = i := by
  constructor
  · intro h
    obtain ⟨lower, upper⟩ := fitsInt64_eq_true_iff.1 h
    exact ⟨Int64.ofInt i, Int64.toInt_ofInt_of_le lower upper⟩
  · rintro ⟨n, rfl⟩
    exact fitsInt64_toInt n

namespace Json.Numeral

open Binary64 (IsNearest limit signed)

variable {n : Numeral}

/-- A numeral has a place among binary numbers if its value is not too great. -/
theorem binary64?_cases (n : Numeral) :
    (n.magnitude < limit ∧ ∃ x, n.binary64? = some x ∧ IsNearest n.negative n.magnitude x) ∨
      (limit ≤ n.magnitude ∧ n.binary64? = none) := by
  have rounded := Binary64.nearest_cases n.negative (Binary64.den_decimal n.digits n.exponent)
  rw [Binary64.toRat_decimal, ← Binary64.ofDecimal_eq] at rounded
  rw [binary64?]
  rcases rounded with ⟨below, nearest⟩ | ⟨beyond, infinite⟩
  · exact .inl ⟨below, _, by simp [nearest.isInfinite], nearest⟩
  · exact .inr ⟨beyond, by simp [infinite, Binary64.isInfinite]⟩

/-- A numeral without point and exponent is the whole number that it has as its value, but `-0` is
none. -/
def IsWhole (n : Numeral) (i : Int) : Prop :=
  n.integral = true ∧ ¬ (n.negative = true ∧ n.digits = 0) ∧ (i : ℚ) = signed n.negative n.magnitude

theorem magnitude_of_integral (proper : n.Proper) (h : n.integral = true) :
    n.magnitude = n.digits := by
  rw [magnitude, proper h, zpow_zero, mul_one]

theorem signed_magnitude (proper : n.Proper) (h : n.integral = true) :
    signed n.negative n.magnitude = ((if n.negative then -(n.digits : Int) else n.digits : Int) : ℚ) := by
  rw [magnitude_of_integral proper h, signed]
  split <;> push_cast <;> rfl

theorem integer?_eq_some_iff (proper : n.Proper) {i : Int} :
    n.integer? = some i ↔ n.IsWhole i := by
  have other : (n.integral && !(n.negative && n.digits == 0)) = true ↔
      n.integral = true ∧ ¬ (n.negative = true ∧ n.digits = 0) := by
    cases n.negative <;> simp
  unfold integer?
  constructor
  · intro h
    split at h
    · next whole =>
      cases h
      obtain ⟨integral, nonzero⟩ := other.1 whole
      exact ⟨integral, nonzero, (signed_magnitude proper integral).symm⟩
    · cases h
  · rintro ⟨integral, nonzero, value⟩
    rw [if_pos (other.2 ⟨integral, nonzero⟩)]
    rw [signed_magnitude proper integral] at value
    exact congrArg some (by exact_mod_cast value.symm)

/-- A binary number is the nearest to the value of a numeral. -/
def Nearest (n : Numeral) (x : Binary64) : Prop := IsNearest n.negative n.magnitude x

end Json.Numeral

/-! ## Conversions -/

/-- A conversion is correctly rounded: what it makes of a numeral is the nearest number, and it
makes something of every numeral that is not too great. -/
structure Json.Conversion.Correct (convert : Json.Conversion) : Prop where
  nearest : ∀ {n x}, convert n = some x → n.Nearest x
  taken : ∀ {n : Json.Numeral}, n.magnitude < Binary64.limit → ∃ x, convert n = some x

namespace Json.Numeral

open Binary64 (limit signed)

variable {n : Numeral} {convert : Conversion}

theorem binary64?_correct : Conversion.Correct binary64? where
  nearest {n x} h := by
    obtain ⟨_, y, read, nearest⟩ | ⟨_, none⟩ := binary64?_cases n
    · cases h.symm.trans read
      exact nearest
    · cases h.symm.trans none
  taken {n} below := by
    obtain ⟨_, y, read, _⟩ | ⟨beyond, _⟩ := binary64?_cases n
    · exact ⟨y, read⟩
    · exact absurd below (not_lt.2 beyond)

/-- A binary number is what a numeral is rounded to. -/
def RoundsTo (convert : Conversion) (n : Numeral) (x : Binary64) : Prop :=
  n.round? convert = some x

/-- A numeral is not too great for a conversion. -/
def Taken (convert : Conversion) (n : Numeral) : Prop := ∃ x, n.RoundsTo convert x

/-- By a correctly rounded conversion a numeral is rounded to the number that is nearest to some
value, which is its own. -/
theorem exists_nearest_of_roundsTo (correct : convert.Correct) {x : Binary64}
    (h : n.RoundsTo convert x) :
    ∃ t, Binary64.IsNearest n.negative t x ∧ (n.Proper → t = n.magnitude) := by
  unfold RoundsTo round? at h
  split at h
  · next word =>
    simp only [Bool.and_eq_true, decide_eq_true_eq] at word
    cases h
    exact ⟨n.digits, Binary64.isNearest_of_word n.negative word.2,
      fun proper => (magnitude_of_integral proper word.1).symm⟩
  · exact ⟨n.magnitude, correct.nearest h, fun _ => rfl⟩

/-- A numeral that is a whole number of 64 bits is rounded like the whole number. -/
theorem round?_of_whole {i : Int} (h : n.integer? = some i) (small : i.natAbs < 2 ^ 64) :
    n.round? convert = some (.ofInt i) := by
  unfold integer? at h
  split at h
  · next whole =>
    simp only [Bool.and_eq_true, Bool.not_eq_true', Bool.and_eq_false_iff, beq_eq_false_iff_ne]
      at whole
    obtain ⟨integral, nonzero⟩ := whole
    cases h
    have digits : (if n.negative then -(n.digits : Int) else n.digits).natAbs = n.digits := by
      split <;> omega
    have sign : decide ((if n.negative then -(n.digits : Int) else n.digits) < 0) = n.negative := by
      cases hs : n.negative with
      | false => exact decide_eq_false (by simp)
      | true =>
        have nonzero := nonzero.resolve_left (by simp [hs])
        exact decide_eq_true (by rw [if_pos rfl]; omega)
    rw [digits] at small
    rw [round?, integral, Binary64.ofInt, sign, digits, if_pos (by simpa using small)]
  · cases h

/-! ## Numbers -/

/-- The numbers that a numeral may be kept as: whole if it has a place among the numbers of 64 bits
with a sign, and else a binary number that stands for it. -/
inductive Denotes (stands : Numeral → Binary64 → Prop) (n : Numeral) : Number → Prop
  | int {i : Int64} (h : n.IsWhole i.toInt) : Denotes stands n (.int i)
  | float {x : Binary64} (h : ∀ i : Int64, ¬ n.IsWhole i.toInt) (hx : stands n x) :
    Denotes stands n (.float x)

theorem exists_denotes {stands : Numeral → Binary64 → Prop} (proper : n.Proper)
    (taken : n.Taken convert) (means : ∀ x, n.RoundsTo convert x → stands n x) :
    ∃ a, Number.ofNumeral? convert n = some a ∧ n.Denotes stands a := by
  cases filtered : n.integer?.filter fitsInt64 with
  | none =>
    obtain ⟨x, rounded⟩ := taken
    have read : Number.ofNumeral? convert n = some (.float x) := by
      rw [RoundsTo] at rounded
      rw [Number.ofNumeral?, filtered, rounded]
      rfl
    refine ⟨.float x, read, .float (fun i whole => ?_) (means x rounded)⟩
    rw [(integer?_eq_some_iff proper).2 whole, Option.filter_some,
      if_pos (fitsInt64_iff.2 ⟨i, rfl⟩)] at filtered
    cases filtered
  | some i =>
    obtain ⟨whole, fits⟩ := Option.filter_eq_some_iff.1 filtered
    obtain ⟨j, rfl⟩ := fitsInt64_iff.1 fits
    refine ⟨.int j, ?_, .int ((integer?_eq_some_iff proper).1 whole)⟩
    rw [Number.ofNumeral?, filtered]
    simp

/-- A numeral that is a whole number of 64 bits is read as its whole number, rounded if it does not
fit. -/
theorem ofNumeral?_of_whole {i : Int} (h : n.integer? = some i) (small : i.natAbs < 2 ^ 64) :
    Number.ofNumeral? convert n = some (.ofInt i) := by
  rw [Number.ofNumeral?, h, Option.filter_some, Number.ofInt]
  by_cases fits : fitsInt64 i = true
  · rw [if_pos fits, if_pos fits]
  · rw [if_neg fits, if_neg fits, round?_of_whole h small]
    rfl

/-- A numeral that is no whole number of 64 bits is rounded. -/
theorem ofNumeral?_of_not_fits (h : ∀ i, n.integer? = some i → fitsInt64 i = false) :
    Number.ofNumeral? convert n = (n.round? convert).map .float := by
  have none : n.integer?.filter fitsInt64 = none :=
    Option.filter_eq_none_iff.2 fun i hi => by simp [h i hi]
  rw [Number.ofNumeral?, none]

end Json.Numeral

end Conform
