/-
Rounding to binary numbers. What is rounded counts by its value alone, in
whatever fraction it comes (`Binary64.nearest_congr`), and a value that a binary
number has exactly is rounded to that number (`Binary64.nearest_of_exact`).
Whole numbers below 2^53 are such values (`Binary64.exists_nearest_eq`).
-/
import Conform.Number.Binary64
import Mathlib.Algebra.Order.Field.Power
import Mathlib.Algebra.Order.Floor.Semifield
import Mathlib.Data.Int.Log
import Mathlib.Data.Rat.Floor
import Mathlib.Tactic.Linarith
import Mathlib.Tactic.Positivity

namespace Conform

namespace Fraction

/-- The rational number that a fraction is. -/
def toRat (x : Fraction) : ℚ := x.num / x.den

@[simp] theorem toRat_ofNat (n : Nat) : (ofNat n).toRat = n := by
  simp [toRat, ofNat]

theorem num_eq_zero_iff {x : Fraction} (hd : x.den ≠ 0) : x.num = 0 ↔ x.toRat = 0 := by
  simp [toRat, hd]

theorem toRat_pos {x : Fraction} (hn : x.num ≠ 0) (hd : x.den ≠ 0) : 0 < x.toRat := by
  unfold toRat
  positivity

theorem toRat_scale (x : Fraction) {base : Nat} (hb : base ≠ 0) (e : Int) :
    (x.scale base e).toRat = x.toRat * (base : ℚ) ^ e := by
  have hb : (base : ℚ) ≠ 0 := Nat.cast_ne_zero.2 hb
  by_cases h : 0 ≤ e
  · obtain ⟨k, rfl⟩ := Int.eq_ofNat_of_zero_le h
    simp only [scale, if_pos h, toRat, Int.toNat_natCast, Nat.pow_eq, zpow_natCast]
    push_cast
    ring
  · obtain ⟨k, hk⟩ := Int.eq_ofNat_of_zero_le (show 0 ≤ -e by omega)
    obtain rfl : e = -(k : Int) := by omega
    simp only [scale, if_neg h, toRat, Int.neg_neg, Int.toNat_natCast, Nat.pow_eq, zpow_neg,
      zpow_natCast]
    push_cast
    field_simp

theorem den_scale {x : Fraction} (hd : x.den ≠ 0) {base : Nat} (hb : base ≠ 0) (e : Int) :
    (x.scale base e).den ≠ 0 := by
  unfold scale
  split
  · exact hd
  · exact Nat.mul_ne_zero hd (pow_ne_zero _ hb)

theorem floor_eq (x : Fraction) : x.floor = ⌊x.toRat⌋₊ := (Nat.floor_div_eq_div _ _).symm

/-- How a fraction lies to the middle of two whole numbers, told by its value. -/
theorem compareHalf_eq {x : Fraction} (hd : x.den ≠ 0) :
    x.compareHalf = cmp (2 * (x.toRat - ⌊x.toRat⌋₊)) 1 := by
  have pos : (0 : ℚ) < x.den := by positivity
  have rest : ((x.num % x.den : Nat) : ℚ) = (x.toRat - ⌊x.toRat⌋₊) * x.den := by
    have whole : ((x.den * (x.num / x.den) + x.num % x.den : Nat) : ℚ) = x.num := by
      rw [Nat.div_add_mod]
    push_cast at whole
    rw [← floor_eq, floor, toRat, sub_mul, div_mul_cancel₀ _ pos.ne', ← whole]
    ring
  have cast : compare (2 * (x.num % x.den)) x.den =
      cmp ((2 * (x.num % x.den) : Nat) : ℚ) (x.den : ℚ) := by
    rw [← cmp_eq_compare]
    exact (Nat.strictMono_cast.cmp_map_eq _ _).symm
  have scaled := cmp_mul_pos_right pos (2 * (x.toRat - ⌊x.toRat⌋₊)) 1
  rw [compareHalf, cast, ← scaled, Nat.cast_mul, rest, one_mul, mul_assoc]
  rfl

/-- Rounding depends on the value alone. -/
theorem roundHalfEven_congr {x y : Fraction} (hx : x.den ≠ 0) (hy : y.den ≠ 0)
    (h : x.toRat = y.toRat) : x.roundHalfEven = y.roundHalfEven := by
  unfold roundHalfEven
  rw [compareHalf_eq hx, compareHalf_eq hy, floor_eq, floor_eq, h]

/-- A whole number is its own rounding. -/
theorem roundHalfEven_of_whole {x : Fraction} {n : Nat} (hd : x.den ≠ 0) (h : x.toRat = n) :
    x.roundHalfEven = n := by
  have half : (ofNat n).compareHalf = .lt := by
    simp [compareHalf, ofNat, Nat.compare_eq_lt, Nat.mod_one]
  rw [roundHalfEven_congr hd (y := ofNat n) Nat.one_ne_zero (by simpa using h), roundHalfEven, half]
  simp [floor, ofNat]

theorem roundHalfEven_of_lt_half {x : Fraction} (hd : x.den ≠ 0) (h : x.toRat < 1 / 2) :
    x.roundHalfEven = 0 := by
  have floor : ⌊x.toRat⌋₊ = 0 := Nat.floor_eq_zero.2 (by linarith)
  have half : x.compareHalf = .lt := by
    rw [compareHalf_eq hd, floor, cmp_eq_lt_iff, Nat.cast_zero]
    linarith
  rw [roundHalfEven, half, floor_eq, floor]

end Fraction

namespace Binary64

open Fraction

/-! ## The exponent -/

/-- The exponent is told by the binary logarithm of the value. -/
theorem exponentOf_eq {x : Fraction} (hn : x.num ≠ 0) (hd : x.den ≠ 0) :
    exponentOf x = max (Int.log 2 x.toRat - 52) (-1074) := by
  have pos := toRat_pos hn hd
  -- the logarithms of numerator and denominator leave two possibilities
  have upper : x.toRat < (2 : ℕ) ^ ((x.num.log2 : Int) - x.den.log2 + 1) := by
    have hlt : (x.num : ℚ) < 2 ^ (x.num.log2 + 1) := by exact_mod_cast Nat.lt_log2_self
    have hle : (2 : ℚ) ^ x.den.log2 ≤ x.den := by exact_mod_cast Nat.log2_self_le hd
    have hlog : (2 : ℚ) ^ ((x.num.log2 : Int) - x.den.log2 + 1) =
        2 ^ (x.num.log2 + 1) / 2 ^ x.den.log2 := by
      rw [← zpow_natCast, ← zpow_natCast, ← zpow_sub₀ two_ne_zero]
      congr 1
      push_cast
      ring
    push_cast
    rw [hlog, toRat]
    exact div_lt_div₀ hlt hle (by positivity) (by positivity)
  have lower : ((2 : ℕ) : ℚ) ^ ((x.num.log2 : Int) - x.den.log2 - 1) ≤ x.toRat := by
    have hle : (2 : ℚ) ^ x.num.log2 ≤ x.num := by exact_mod_cast Nat.log2_self_le hn
    have hlt : (x.den : ℚ) ≤ 2 ^ (x.den.log2 + 1) := by exact_mod_cast Nat.lt_log2_self.le
    have hlog : (2 : ℚ) ^ ((x.num.log2 : Int) - x.den.log2 - 1) =
        2 ^ x.num.log2 / 2 ^ (x.den.log2 + 1) := by
      rw [← zpow_natCast, ← zpow_natCast, ← zpow_sub₀ two_ne_zero]
      congr 1
      push_cast
      ring
    push_cast
    rw [hlog, toRat]
    exact div_le_div₀ (by positivity) hle (by positivity) hlt
  rw [Int.lt_zpow_iff_log_lt Nat.one_lt_two pos] at upper
  rw [Int.zpow_le_iff_le_log Nat.one_lt_two pos] at lower
  -- and the test tells them apart
  have test : (x.scale 2 (-((x.num.log2 : Int) - x.den.log2 - 52))).floor < 0x10000000000000 ↔
      Int.log 2 x.toRat < (x.num.log2 : Int) - x.den.log2 := by
    generalize (x.num.log2 : Int) - x.den.log2 = l
    rw [floor_eq, toRat_scale _ two_ne_zero, Nat.floor_lt (by positivity),
      ← Int.lt_zpow_iff_log_lt Nat.one_lt_two pos, zpow_neg, ← div_eq_mul_inv,
      div_lt_iff₀ (by positivity)]
    have hlog : ((0x10000000000000 : ℕ) : ℚ) * (2 : ℕ) ^ (l - 52) = (2 : ℕ) ^ l := by
      push_cast
      rw [show (4503599627370496 : ℚ) = 2 ^ (52 : ℤ) by norm_num, ← zpow_add₀ two_ne_zero]
      congr 1
      ring
    rw [hlog]
  unfold exponentOf
  simp only [test]
  split <;> omega

/-- Rounding depends on the value alone. -/
theorem nearest_congr {x y : Fraction} (negative : Bool) (hx : x.den ≠ 0) (hy : y.den ≠ 0)
    (h : x.toRat = y.toRat) : nearest negative x = nearest negative y := by
  have same : x.num = 0 ↔ y.num = 0 := by rw [num_eq_zero_iff hx, num_eq_zero_iff hy, h]
  by_cases hn : x.num = 0
  · rw [nearest, nearest, if_pos hn, if_pos (same.1 hn)]
  · have hn' : y.num ≠ 0 := fun h0 => hn (same.2 h0)
    have exponents : exponentOf x = exponentOf y := by
      rw [exponentOf_eq hn hx, exponentOf_eq hn' hy, h]
    have rounded : (x.scale 2 (-exponentOf y)).roundHalfEven =
        (y.scale 2 (-exponentOf y)).roundHalfEven := by
      refine roundHalfEven_congr (den_scale hx two_ne_zero _) (den_scale hy two_ne_zero _) ?_
      rw [toRat_scale _ two_ne_zero, toRat_scale _ two_ne_zero, h]
    simp only [nearest, if_neg hn, if_neg hn', exponents, rounded]

/-! ## Exact values -/

variable {m : Nat} {q : Int}

/-- There is one zero of each sign. -/
theorem finite_zero_eq {negative : Bool} (h : Canonical 0 q) :
    finite negative 0 q h = zero negative := by
  obtain rfl : q = -1074 := by
    have := h.2.2.2
    omega
  rfl

theorem log_magnitude (hm : m ≠ 0) : Int.log 2 ((m : ℚ) * 2 ^ q) = m.log2 + q := by
  have pos : (0 : ℚ) < m * 2 ^ q := by positivity
  have hle : (2 : ℚ) ^ m.log2 ≤ m := by exact_mod_cast Nat.log2_self_le hm
  have hlt : (m : ℚ) < 2 ^ (m.log2 + 1) := by exact_mod_cast Nat.lt_log2_self
  have lower : (m.log2 : Int) + q ≤ Int.log 2 ((m : ℚ) * 2 ^ q) := by
    rw [← Int.zpow_le_iff_le_log Nat.one_lt_two pos]
    push_cast
    rw [zpow_add₀ two_ne_zero, zpow_natCast]
    exact mul_le_mul_of_nonneg_right hle (by positivity)
  have upper : Int.log 2 ((m : ℚ) * 2 ^ q) < m.log2 + 1 + q := by
    rw [← Int.lt_zpow_iff_log_lt Nat.one_lt_two pos]
    push_cast
    rw [zpow_add₀ two_ne_zero, ← Nat.cast_add_one, zpow_natCast]
    exact mul_lt_mul_of_pos_right hlt (by positivity)
  omega

/-- What a number has as its value is rounded to the number. -/
theorem nearest_of_exact {x : Fraction} (negative : Bool) (hm : m ≠ 0) (h : Canonical m q)
    (hd : x.den ≠ 0) (hx : x.toRat = m * 2 ^ q) : nearest negative x = finite negative m q h := by
  have hn : x.num ≠ 0 := by
    rw [Ne, num_eq_zero_iff hd, hx]
    positivity
  have exponent : exponentOf x = q := by
    rw [exponentOf_eq hn hd, hx, log_magnitude hm]
    obtain ⟨small, least, _, normal⟩ := h
    have upper : m.log2 < 53 := (Nat.log2_lt hm).2 small
    rcases normal with normal | rfl
    · have lower : 52 ≤ m.log2 := (Nat.le_log2 hm).2 normal
      omega
    · omega
  have significand : (x.scale 2 (-q)).roundHalfEven = m := by
    refine roundHalfEven_of_whole (den_scale hd two_ne_zero _) ?_
    rw [toRat_scale _ two_ne_zero, hx, mul_assoc]
    push_cast
    rw [← zpow_add₀ two_ne_zero, add_neg_cancel, zpow_zero, mul_one]
  simp only [nearest, if_neg hn, exponent, significand, assemble, dif_pos h]

/-- A whole number of at most 53 bits is the value of a binary number. -/
theorem exists_nearest_eq (negative : Bool) {n : Nat} (hn : n < 0x20000000000000) :
    ∃ m q h, nearest negative (ofNat n) = finite negative m q h ∧ (m : ℚ) * 2 ^ q = n := by
  by_cases h0 : n = 0
  · exact ⟨0, -1074, by decide, by simp [nearest, ofNat, h0, zero], by simp [h0]⟩
  · have upper : n.log2 < 53 := (Nat.log2_lt h0).2 hn
    obtain ⟨d, hd⟩ := Nat.exists_eq_add_of_le (show n.log2 ≤ 52 by omega)
    have canonical : Canonical (n * 2 ^ d) (-(d : Int)) := by
      have hle := Nat.mul_le_mul_right (2 ^ d) (Nat.log2_self_le h0)
      have hlt := Nat.mul_lt_mul_of_pos_right (Nat.lt_log2_self (n := n)) (Nat.two_pow_pos d)
      rw [← Nat.pow_add] at hle hlt
      rw [show n.log2 + d = 52 by omega] at hle
      rw [show n.log2 + 1 + d = 53 by omega] at hlt
      exact ⟨hlt, by omega, by omega, .inl hle⟩
    have value : ((n * 2 ^ d : Nat) : ℚ) * 2 ^ (-(d : Int)) = n := by
      push_cast
      rw [zpow_neg, zpow_natCast, mul_assoc, mul_inv_cancel₀ (by positivity), mul_one]
    refine ⟨_, _, canonical, nearest_of_exact negative ?_ canonical Nat.one_ne_zero ?_, value⟩
    · positivity
    · rw [value, toRat_ofNat]

end Binary64

end Conform
