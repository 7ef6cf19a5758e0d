/-
Rounding gives the nearest number. Of all finite binary numbers, none is nearer to a value than the
one that it is rounded to, and if another one is as near, the significand of the one that is taken
is even; only from the middle between the greatest finite number and 2^1024 on are values rounded to
infinities (`Binary64.nearest_cases`).
-/
import Conform.Proofs.Number.Rounding

namespace Conform

namespace Fraction

/-- Rounding goes at most one half far, and so far only to even numbers. -/
theorem roundHalfEven_error {x : Fraction} (hd : x.den ≠ 0) :
    |(x.roundHalfEven : ℚ) - x.toRat| ≤ 1 / 2 ∧
      (|(x.roundHalfEven : ℚ) - x.toRat| = 1 / 2 → x.roundHalfEven % 2 = 0) := by
  have nonneg : 0 ≤ x.toRat := by
    unfold toRat
    positivity
  have lower := Nat.floor_le nonneg
  have upper := Nat.lt_floor_add_one x.toRat
  rw [roundHalfEven, compareHalf_eq hd, floor_eq]
  generalize x.toRat = t at *
  generalize ⌊t⌋₊ = f at *
  have down : |(f : ℚ) - t| = t - f := by
    rw [abs_sub_comm]
    exact abs_of_nonneg (by linarith)
  have up : |((f + 1 : Nat) : ℚ) - t| = f + 1 - t := by
    push_cast
    exact abs_of_nonneg (by linarith)
  rcases lt_trichotomy (2 * (t - f)) 1 with lt | eq | gt
  · rw [(cmp_eq_lt_iff _ _).2 lt, down]
    exact ⟨by linarith, fun h => by linarith⟩
  · rw [(cmp_eq_eq_iff _ _).2 eq]
    dsimp only
    split
    · next even => exact ⟨by linarith, fun _ => even⟩
    · exact ⟨by linarith, fun _ => by omega⟩
  · rw [(cmp_eq_gt_iff _ _).2 gt, up]
    exact ⟨by linarith, fun h => by linarith⟩

/-- No whole number is nearer to a fraction than the one that it is rounded to, and if another
one is as near, this one is even. -/
theorem roundHalfEven_nearest {x : Fraction} (hd : x.den ≠ 0) (k : Nat) :
    |(x.roundHalfEven : ℚ) - x.toRat| ≤ |(k : ℚ) - x.toRat| ∧
      (|(x.roundHalfEven : ℚ) - x.toRat| = |(k : ℚ) - x.toRat| →
        k = x.roundHalfEven ∨ x.roundHalfEven % 2 = 0) := by
  obtain ⟨error, even⟩ := roundHalfEven_error hd
  by_cases hk : k = x.roundHalfEven
  · exact ⟨by rw [hk], fun _ => .inl hk⟩
  · have apart : (1 : ℚ) ≤ |(k : ℚ) - x.roundHalfEven| := by
      have : (1 : ℤ) ≤ |(k : ℤ) - x.roundHalfEven| := Int.one_le_abs (by omega)
      exact_mod_cast this
    have around := abs_sub_le (k : ℚ) x.toRat x.roundHalfEven
    rw [abs_sub_comm x.toRat] at around
    exact ⟨by linarith, fun h => .inr (even (by linarith))⟩

/-- Below an even number, what is rounded to less is what is not within one half of it. -/
theorem roundHalfEven_lt_iff {x : Fraction} (hd : x.den ≠ 0) {k : Nat} (hk : k % 2 = 0) :
    x.roundHalfEven < k ↔ x.toRat < k - 1 / 2 := by
  obtain ⟨error, even⟩ := roundHalfEven_error hd
  have bounds := abs_le.1 error
  constructor
  · intro lt
    have below : (x.roundHalfEven : ℚ) + 1 ≤ k := by exact_mod_cast lt
    refine lt_of_le_of_ne (by linarith) fun half => ?_
    -- one half below an even number is one half above an odd one
    have odd : x.roundHalfEven + 1 = k := by
      have : (x.roundHalfEven : ℚ) + 1 = k := by linarith
      exact_mod_cast this
    have tie : |(x.roundHalfEven : ℚ) - x.toRat| = 1 / 2 := by
      rw [half, ← odd, abs_of_nonpos] <;>
        push_cast <;> linarith
    have := even tie
    omega
  · intro below
    have : (x.roundHalfEven : ℚ) < k := by linarith
    exact_mod_cast this

end Fraction

namespace Binary64

open Fraction

variable {x : Fraction} {m m' : Nat} {q q' : Int}

/-- The value of a fraction, in units of the last of 53 bits, if it has so many. -/
theorem scaled_bounds (hn : x.num ≠ 0) (hd : x.den ≠ 0) :
    (x.scale 2 (-exponentOf x)).toRat * 2 ^ exponentOf x = x.toRat ∧
      x.toRat < 2 ^ (53 : Int) * 2 ^ exponentOf x ∧
      (exponentOf x = -1074 ∨ 2 ^ (52 : Int) * 2 ^ exponentOf x ≤ x.toRat) ∧
      -1074 ≤ exponentOf x := by
  have pos := toRat_pos hn hd
  have exponent := exponentOf_eq hn hd
  have upper : x.toRat < (2 : ℕ) ^ (Int.log 2 x.toRat + 1) := Int.lt_zpow_succ_log_self (by decide) _
  have lower : (2 : ℕ) ^ Int.log 2 x.toRat ≤ x.toRat := Int.zpow_log_le_self (by decide) pos
  push_cast at upper lower
  refine ⟨?_, ?_, ?_, by omega⟩
  · rw [toRat_scale _ two_ne_zero, mul_assoc]
    push_cast
    rw [← zpow_add₀ two_ne_zero, neg_add_cancel, zpow_zero, mul_one]
  · rw [← zpow_add₀ two_ne_zero]
    exact upper.trans_le (zpow_le_zpow_right₀ one_le_two (by omega))
  · by_cases least : exponentOf x = -1074
    · exact .inl least
    · rw [← zpow_add₀ two_ne_zero, show 52 + exponentOf x = Int.log 2 x.toRat by omega]
      exact .inr lower

/-- Magnitudes are whole multiples of the unit, or so small that they have a smaller unit. -/
theorem magnitude_grid (h : Canonical m q) (q' : Int) :
    (∃ k : Nat, (m : ℚ) * 2 ^ q = k * 2 ^ q') ∨
      (q < q' ∧ (m : ℚ) * 2 ^ q < 2 ^ (52 : Int) * 2 ^ q') := by
  rcases le_or_gt q' q with le | lt
  · obtain ⟨d, hd⟩ := Int.eq_ofNat_of_zero_le (show 0 ≤ q - q' by omega)
    refine .inl ⟨m * 2 ^ d, ?_⟩
    rw [show q = d + q' by omega, zpow_add₀ two_ne_zero, zpow_natCast]
    push_cast
    ring
  · have small : (m : ℚ) < 2 ^ (53 : Int) := by
      have := h.1
      norm_cast
    refine .inr ⟨lt, ?_⟩
    calc (m : ℚ) * 2 ^ q
        < 2 ^ (53 : Int) * 2 ^ q := by gcongr
      _ = 2 ^ (53 + q) := (zpow_add₀ two_ne_zero _ _).symm
      _ ≤ 2 ^ (52 + q') := zpow_le_zpow_right₀ one_le_two (by omega)
      _ = 2 ^ (52 : Int) * 2 ^ q' := zpow_add₀ two_ne_zero _ _

/-- No magnitude is nearer to a value than the multiple of its unit to which it is rounded. -/
theorem rounded_nearest (hn : x.num ≠ 0) (hd : x.den ≠ 0) (h : Canonical m q) {r : Nat}
    (hr : (x.scale 2 (-exponentOf x)).roundHalfEven = r) :
    |(r : ℚ) * 2 ^ exponentOf x - x.toRat| ≤ |(m : ℚ) * 2 ^ q - x.toRat| ∧
      (|(r : ℚ) * 2 ^ exponentOf x - x.toRat| = |(m : ℚ) * 2 ^ q - x.toRat| →
        (m : ℚ) * 2 ^ q = r * 2 ^ exponentOf x ∨ r % 2 = 0) := by
  obtain ⟨unit, _, normal, _⟩ := scaled_bounds hn hd
  have pos : (0 : ℚ) < 2 ^ exponentOf x := by positivity
  have least := h.2.1
  -- distances from the value are those from the scaled value, times the unit
  have scaled (k : Nat) : |(k : ℚ) * 2 ^ exponentOf x - x.toRat| =
      |(k : ℚ) - (x.scale 2 (-exponentOf x)).toRat| * 2 ^ exponentOf x := by
    rw [← abs_of_pos pos, ← abs_mul, sub_mul, abs_of_pos pos, unit]
  have rounded (k : Nat) := roundHalfEven_nearest (den_scale hd two_ne_zero (-exponentOf x)) k
  simp only [hr] at rounded
  rcases magnitude_grid h (exponentOf x) with ⟨k, hk⟩ | ⟨lt, small⟩
  · rw [hk, scaled, scaled]
    refine ⟨mul_le_mul_of_nonneg_right (rounded k).1 pos.le, fun tie => ?_⟩
    exact ((rounded k).2 (mul_right_cancel₀ pos.ne' tie)).imp_left fun h => by rw [h]
  · -- what has a smaller unit is below the least multiple that has all bits, and that is below
    -- the value
    have full : 2 ^ (52 : Int) * 2 ^ exponentOf x ≤ x.toRat := normal.resolve_left (by omega)
    have between := mul_le_mul_of_nonneg_right (rounded (2 ^ 52)).1 pos.le
    rw [← scaled, ← scaled, abs_of_nonpos (a := ((2 ^ 52 : Nat) : ℚ) * _ - _)] at between
    · have strict : |(r : ℚ) * 2 ^ exponentOf x - x.toRat| < |(m : ℚ) * 2 ^ q - x.toRat| := by
        rw [abs_of_nonpos (a := (m : ℚ) * 2 ^ q - x.toRat) (by linarith)]
        push_cast at between
        norm_num at between small
        linarith
      exact ⟨strict.le, fun tie => absurd tie strict.ne⟩
    · push_cast
      norm_num at full ⊢
      linarith

/-- Rounding leaves 53 bits, or carries into a 54th. -/
theorem rounded_bounds (hn : x.num ≠ 0) (hd : x.den ≠ 0) {r : Nat}
    (hr : (x.scale 2 (-exponentOf x)).roundHalfEven = r) :
    r ≤ 2 ^ 53 ∧ (exponentOf x = -1074 ∨ 2 ^ 52 ≤ r) := by
  obtain ⟨unit, upper, normal, _⟩ := scaled_bounds hn hd
  have pos : (0 : ℚ) < 2 ^ exponentOf x := by positivity
  have error := (roundHalfEven_error (den_scale hd two_ne_zero (-exponentOf x))).1
  rw [hr, abs_le] at error
  rw [← unit] at upper normal
  have below := lt_of_mul_lt_mul_right upper pos.le
  rw [show (2 : ℚ) ^ (53 : Int) = 9007199254740992 by norm_num] at below
  refine ⟨?_, normal.imp_right fun h => ?_⟩
  · have : (r : ℚ) < 9007199254740993 := by linarith
    have : r < 9007199254740993 := by exact_mod_cast this
    omega
  · have above := le_of_mul_le_mul_right h pos
    rw [show (2 : ℚ) ^ (52 : Int) = 4503599627370496 by norm_num] at above
    have : (4503599627370495 : ℚ) < r := by linarith
    have : 4503599627370495 < r := by exact_mod_cast this
    omega

/-- A rounded magnitude is that of a finite number, or it is beyond all of them. -/
theorem assemble_cases (negative : Bool) {r : Nat} {e : Int} (upper : r ≤ 2 ^ 53)
    (lower : e = -1074 ∨ 2 ^ 52 ≤ r) (least : -1074 ≤ e) :
    (e < 971 ∨ e = 971 ∧ r < 2 ^ 53) ∧ (∃ m q h, assemble negative r e = finite negative m q h ∧
        (m : ℚ) * 2 ^ q = r * 2 ^ e ∧ (r % 2 = 0 → m % 2 = 0)) ∨
      (971 < e ∨ e = 971 ∧ r = 2 ^ 53) ∧ assemble negative r e = infinite negative := by
  unfold assemble
  split
  · next h =>
    have small := h.1
    have greatest := h.2.2.1
    exact .inl ⟨by omega, r, e, h, rfl, rfl, id⟩
  next uncanonical =>
  split
  · next h =>
    obtain ⟨rfl, carried⟩ := h
    have := carried.2.2.1
    refine .inl ⟨by omega, _, _, carried, rfl, ?_, fun _ => by decide⟩
    rw [zpow_add₀ two_ne_zero]
    push_cast
    ring
  · next uncarried =>
    refine .inr ⟨?_, rfl⟩
    by_contra fits
    by_cases small : r < 2 ^ 53
    · exact uncanonical ⟨small, least, by omega, by omega⟩
    · exact uncarried ⟨by omega, by decide, by omega, by omega, .inl (by decide)⟩

/-- The middle between the greatest finite number and 2^1024. -/
def limit : ℚ := (2 ^ 54 - 1) * 2 ^ 970

/-- Values below the limit are those that are rounded to finite magnitudes. -/
theorem lt_limit_iff (hn : x.num ≠ 0) (hd : x.den ≠ 0) {r : Nat}
    (hr : (x.scale 2 (-exponentOf x)).roundHalfEven = r) :
    x.toRat < limit ↔ exponentOf x < 971 ∨ exponentOf x = 971 ∧ r < 2 ^ 53 := by
  obtain ⟨unit, upper, normal, _⟩ := scaled_bounds hn hd
  have limit_eq : limit = (2 ^ 53 - 1 / 2) * 2 ^ (971 : Int) := by
    rw [limit, zpow_ofNat, pow_succ _ 970]
    generalize (2 : ℚ) ^ 970 = power
    ring
  rcases lt_trichotomy (exponentOf x) 971 with lt | eq | gt
  · refine iff_of_true (upper.trans_le ?_) (.inl lt)
    calc (2 : ℚ) ^ (53 : Int) * 2 ^ exponentOf x
        = 2 ^ (53 + exponentOf x) := (zpow_add₀ two_ne_zero _ _).symm
      _ ≤ 2 ^ (52 + 971 : Int) := zpow_le_zpow_right₀ one_le_two (by omega)
      _ = 2 ^ (52 : Int) * 2 ^ (971 : Int) := zpow_add₀ two_ne_zero _ _
      _ ≤ limit := by
          rw [limit_eq]
          gcongr
          norm_num
  · -- on the greatest unit, it is a matter of its last half
    have pos : (0 : ℚ) < 2 ^ (971 : Int) := by positivity
    have last := roundHalfEven_lt_iff (den_scale hd two_ne_zero (-exponentOf x))
      (k := 2 ^ 53) (by decide)
    rw [hr, Nat.cast_pow, Nat.cast_ofNat] at last
    rw [← unit, limit_eq, eq, mul_lt_mul_iff_left₀ pos, ← eq, ← last]
    omega
  · refine iff_of_false (not_lt.2 (le_trans ?_ (normal.resolve_left (by omega)))) (by omega)
    calc limit ≤ 2 ^ (53 : Int) * 2 ^ (971 : Int) := by
          rw [limit_eq]
          gcongr
          norm_num
      _ = 2 ^ (52 + 972 : Int) := (zpow_add₀ two_ne_zero _ _).symm
      _ ≤ 2 ^ (52 + exponentOf x) := zpow_le_zpow_right₀ one_le_two (by omega)
      _ = 2 ^ (52 : Int) * 2 ^ exponentOf x := zpow_add₀ two_ne_zero _ _

/-! ## Nearest numbers -/

/-- A value with a sign in front. -/
def signed (negative : Bool) (t : ℚ) : ℚ := if negative then -t else t

/-- A finite number of the sign of a value such that no finite number is nearer to the value, and
if another one is as near, the significand of this one is even. -/
inductive IsNearest (negative : Bool) (t : ℚ) : Binary64 → Prop
  | finite {m : Nat} {q : Int} (h : Canonical m q)
    (least : ∀ negative' m' q', Canonical m' q' →
      |signed negative (m * 2 ^ q) - signed negative t| ≤
        |signed negative' (m' * 2 ^ q') - signed negative t|)
    (even : ∀ negative' m' q', Canonical m' q' →
      |signed negative (m * 2 ^ q) - signed negative t| =
        |signed negative' (m' * 2 ^ q') - signed negative t| →
      signed negative' (m' * 2 ^ q') = signed negative (m * 2 ^ q) ∨ m % 2 = 0) :
    IsNearest negative t (.finite negative m q h)

theorem abs_signed_sub (negative : Bool) (a t : ℚ) :
    |signed negative a - signed negative t| = |a - t| := by
  cases negative with
  | false => rfl
  | true => rw [signed, signed, if_pos rfl, if_pos rfl, neg_sub_neg, abs_sub_comm]

theorem abs_signed_sub_not (negative : Bool) {a t : ℚ} (ha : 0 ≤ a) (ht : 0 ≤ t) :
    |signed (!negative) a - signed negative t| = a + t := by
  cases negative with
  | false =>
    rw [Bool.not_false, signed, signed, if_pos rfl, if_neg Bool.false_ne_true,
      abs_of_nonpos (by linarith)]
    ring
  | true =>
    rw [Bool.not_true, signed, signed, if_neg Bool.false_ne_true, if_pos rfl,
      abs_of_nonneg (by linarith)]
    ring

/-- It is enough to look at magnitudes: what is of the other sign is not nearer than zero. -/
theorem IsNearest.of_magnitudes {negative : Bool} {t : ℚ} (ht : 0 ≤ t) (h : Canonical m q)
    (nearest : ∀ m' q', Canonical m' q' →
      |(m : ℚ) * 2 ^ q - t| ≤ |(m' : ℚ) * 2 ^ q' - t| ∧
        (|(m : ℚ) * 2 ^ q - t| = |(m' : ℚ) * 2 ^ q' - t| →
          (m' : ℚ) * 2 ^ q' = m * 2 ^ q ∨ m % 2 = 0)) :
    IsNearest negative t (.finite negative m q h) := by
  obtain ⟨zero, tie⟩ := nearest 0 (-1074) (by decide)
  rw [Nat.cast_zero, zero_mul, zero_sub, abs_neg, abs_of_nonneg ht] at zero tie
  have other (negative' : Bool) (hs : negative' ≠ negative) (m' : Nat) (q' : Int) :
      |signed negative' (m' * 2 ^ q') - signed negative t| = m' * 2 ^ q' + t ∧
        (0 : ℚ) ≤ m' * 2 ^ q' := by
    have nonneg : (0 : ℚ) ≤ m' * 2 ^ q' := by positivity
    rw [Bool.eq_not_of_ne hs]
    exact ⟨abs_signed_sub_not negative nonneg ht, nonneg⟩
  constructor
  · intro negative' m' q' h'
    rw [abs_signed_sub]
    by_cases hs : negative' = negative
    · rw [hs, abs_signed_sub]
      exact (nearest m' q' h').1
    · obtain ⟨dist, nonneg⟩ := other negative' hs m' q'
      rw [dist]
      linarith
  · intro negative' m' q' h' same
    rw [abs_signed_sub] at same
    by_cases hs : negative' = negative
    · rw [hs, abs_signed_sub] at same
      exact ((nearest m' q' h').2 same).imp_left fun eq => by rw [hs, eq]
    · obtain ⟨dist, nonneg⟩ := other negative' hs m' q'
      rw [dist] at same
      have none : (m' : ℚ) * 2 ^ q' = 0 := by linarith
      refine (tie (by linarith)).imp_left fun eq => ?_
      rw [none, ← eq]
      cases negative' <;> cases negative <;> simp [signed]

/-- Values below the limit are rounded to the number that is nearest to them, all others to an
infinity. -/
theorem nearest_cases (negative : Bool) (hd : x.den ≠ 0) :
    (x.toRat < limit ∧ IsNearest negative x.toRat (nearest negative x)) ∨
      (limit ≤ x.toRat ∧ nearest negative x = infinite negative) := by
  have nonneg : 0 ≤ x.toRat := by
    unfold toRat
    positivity
  by_cases hn : x.num = 0
  · have value := (num_eq_zero_iff hd).1 hn
    rw [nearest, if_pos hn, value, zero]
    refine .inl ⟨?_, .of_magnitudes (le_refl 0) _ fun m' q' _ => ?_⟩
    · rw [limit]
      positivity
    · have positive : (0 : ℚ) ≤ m' * 2 ^ q' := by positivity
      simpa using positive
  · obtain ⟨upper, lower⟩ := rounded_bounds hn hd rfl
    have below := lt_limit_iff hn hd rfl
    have least := (scaled_bounds hn hd).2.2.2
    rw [nearest, if_neg hn]
    rcases assemble_cases negative upper lower least with ⟨small, m, q, h, eq, value, even⟩ |
      ⟨great, eq⟩
    · refine .inl ⟨below.2 small, ?_⟩
      rw [eq]
      refine .of_magnitudes nonneg h fun m' q' h' => ?_
      rw [value]
      have rounded := rounded_nearest hn hd h' rfl
      exact ⟨rounded.1, fun tie => (rounded.2 tie).imp_right even⟩
    · exact .inr ⟨not_lt.1 fun h => by have := below.1 h; omega, eq⟩

end Binary64

end Conform
