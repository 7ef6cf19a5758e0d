/-
Decimals and the binary numbers they stand for. A decimal is read by rounding its value: the tests
for decimals that are far out of range only spare the power of ten (`Binary64.ofDecimal_eq`), so
that decimals of one value are read as one number (`Binary64.ofDecimal_congr`). The shortest
decimal of a magnitude reads back as the magnitude (`Decimal.ofDecimal_shortest`).
-/
import Conform.Number.Shortest
import Conform.Proofs.Number.Rounding

namespace Conform

open Fraction

namespace Binary64

/-! ## Values out of range -/

theorem nearest_of_great {x : Fraction} (negative : Bool) (hn : x.num ≠ 0) (hd : x.den ≠ 0)
    (h : 2 ^ (1024 : Int) ≤ x.toRat) : nearest negative x = infinite negative := by
  have log : 1024 ≤ Int.log 2 x.toRat :=
    (Int.zpow_le_iff_le_log Nat.one_lt_two (toRat_pos hn hd)).1 (by exact_mod_cast h)
  have exponent : 971 < exponentOf x := by
    rw [exponentOf_eq hn hd]
    omega
  simp only [nearest, if_neg hn, assemble]
  rw [dif_neg fun h => absurd h.2.2.1 (by omega),
    dif_neg fun h => absurd h.2.2.2.1 (by omega)]

theorem nearest_of_tiny {x : Fraction} (negative : Bool) (hd : x.den ≠ 0)
    (h : x.toRat < 2 ^ (-1075 : Int)) : nearest negative x = zero negative := by
  by_cases hn : x.num = 0
  · rw [nearest, if_pos hn]
  · have log : Int.log 2 x.toRat < -1075 :=
      (Int.lt_zpow_iff_log_lt Nat.one_lt_two (toRat_pos hn hd)).1 (by exact_mod_cast h)
    have exponent : exponentOf x = -1074 := by
      rw [exponentOf_eq hn hd]
      omega
    have significand : (x.scale 2 (-(-1074))).roundHalfEven = 0 := by
      refine roundHalfEven_of_lt_half (den_scale hd two_ne_zero _) ?_
      rw [toRat_scale _ two_ne_zero]
      calc x.toRat * (2 : ℕ) ^ (-(-1074) : Int)
          < 2 ^ (-1075 : Int) * (2 : ℕ) ^ (-(-1074) : Int) :=
            mul_lt_mul_of_pos_right h (by positivity)
        _ = 1 / 2 := by
            rw [Nat.cast_ofNat, ← zpow_add₀ two_ne_zero,
              show (-1075 : Int) + -(-1074) = -1 by decide]
            norm_num
    simp only [nearest, if_neg hn, exponent, significand]
    rfl

/-! ## Decimals by value -/

theorem den_decimal (digits : Nat) (exponent : Int) :
    ((Fraction.ofNat digits).scale 10 exponent).den ≠ 0 :=
  den_scale Nat.one_ne_zero (by decide) _

theorem toRat_decimal (digits : Nat) (exponent : Int) :
    ((Fraction.ofNat digits).scale 10 exponent).toRat = digits * 10 ^ exponent := by
  rw [toRat_scale _ (by decide), toRat_ofNat]
  push_cast
  rfl

/-- What is beyond 10^310 is beyond 2^1024. -/
theorem two_zpow_le_decimal {digits : Nat} {exponent : Int} (hd : digits ≠ 0)
    (great : 310 < exponent) : (2 : ℚ) ^ (1024 : Int) ≤ digits * 10 ^ exponent := by
  have one_le : (1 : ℚ) ≤ digits := by exact_mod_cast Nat.one_le_iff_ne_zero.2 hd
  calc (2 : ℚ) ^ (1024 : Int) ≤ (2 ^ 205) ^ 5 := by
        rw [← pow_mul]
        exact_mod_cast pow_le_pow_right₀ one_le_two (by decide : 1024 ≤ 205 * 5)
    _ ≤ (10 ^ 62) ^ 5 := by gcongr; norm_num
    _ = 10 ^ (310 : Int) := (pow_mul 10 62 5).symm
    _ ≤ 10 ^ exponent := zpow_le_zpow_right₀ (by norm_num) great.le
    _ ≤ digits * 10 ^ exponent := le_mul_of_one_le_left (by positivity) one_le

/-- A negative power of ten is at most the same power of eight. -/
theorem decimal_lt_two_zpow {digits : Nat} {exponent : Int} (negative : exponent < 0)
    (tiny : (digits.log2 : Int) + 3 * exponent < -1100) :
    (digits : ℚ) * 10 ^ exponent < 2 ^ (-1075 : Int) := by
  have hlt : (digits : ℚ) < 2 ^ ((digits.log2 : Int) + 1) := by
    exact_mod_cast Nat.lt_log2_self (n := digits)
  have power : (10 : ℚ) ^ exponent ≤ 2 ^ (3 * exponent) := by
    obtain ⟨k, hk⟩ := Int.eq_ofNat_of_zero_le (show 0 ≤ -exponent by omega)
    obtain rfl : exponent = -(k : Int) := by omega
    rw [zpow_mul, zpow_neg, zpow_neg, zpow_natCast, zpow_natCast]
    exact inv_anti₀ (by positivity) (by gcongr; norm_num)
  calc (digits : ℚ) * 10 ^ exponent
      < 2 ^ ((digits.log2 : Int) + 1) * 2 ^ (3 * exponent) :=
        mul_lt_mul hlt power (by positivity) (by positivity)
    _ = 2 ^ ((digits.log2 : Int) + 1 + 3 * exponent) := (zpow_add₀ two_ne_zero _ _).symm
    _ ≤ 2 ^ (-1075 : Int) := zpow_le_zpow_right₀ (by norm_num) (by omega)

/-- A decimal stands for the number that is nearest to its value. -/
theorem ofDecimal_eq (negative : Bool) (digits : Nat) (exponent : Int) :
    ofDecimal negative digits exponent =
      nearest negative ((Fraction.ofNat digits).scale 10 exponent) := by
  have hd := den_decimal digits exponent
  have value := toRat_decimal digits exponent
  unfold ofDecimal
  split
  · next zero =>
    have tiny : ((Fraction.ofNat digits).scale 10 exponent).toRat < 2 ^ (-1075 : Int) := by
      rw [value, zero]
      norm_num
    exact (nearest_of_tiny negative hd tiny).symm
  next nonzero =>
  split
  · next great =>
    have num : ((Fraction.ofNat digits).scale 10 exponent).num ≠ 0 := by
      rw [Ne, num_eq_zero_iff hd, value]
      positivity
    exact (nearest_of_great negative num hd (value ▸ two_zpow_le_decimal nonzero great)).symm
  split
  · next tiny =>
    exact (nearest_of_tiny negative hd (value ▸ decimal_lt_two_zpow tiny.1 tiny.2)).symm
  · rfl

/-- Decimals of one value stand for one number. -/
theorem ofDecimal_congr (negative : Bool) {digits digits' : Nat} {exponent exponent' : Int}
    (h : (digits : ℚ) * 10 ^ exponent = digits' * 10 ^ exponent') :
    ofDecimal negative digits exponent = ofDecimal negative digits' exponent' := by
  rw [ofDecimal_eq, ofDecimal_eq]
  exact nearest_congr negative (den_decimal _ _) (den_decimal _ _) (by
    rw [toRat_decimal, toRat_decimal, h])

/-! ## The sign -/

variable {m : Nat} {q : Int} {h : Canonical m q}

theorem assemble_sign {m' : Nat} {q' : Int} (negative : Bool)
    (read : assemble false m' q' = finite false m q h) :
    assemble negative m' q' = finite negative m q h := by
  unfold assemble at read ⊢
  split at read
  · cases read; rw [dif_pos]
  · split at read
    · cases read; rw [dif_neg, dif_pos] <;> assumption
    · cases read

/-- The sign of a decimal is the sign of the number. -/
theorem ofDecimal_sign {digits : Nat} {exponent : Int} (negative : Bool)
    (read : ofDecimal false digits exponent = finite false m q h) :
    ofDecimal negative digits exponent = finite negative m q h := by
  rw [ofDecimal_eq] at read ⊢
  unfold nearest at read ⊢
  split at read
  · cases read; rw [if_pos] <;> first | rfl | assumption
  · rw [if_neg]
    · exact assemble_sign negative read
    · assumption

end Binary64

/-! ## The shortest decimal -/

namespace Decimal

open Binary64

theorem nearer_eq (tie : Tie) (y : Fraction) :
    nearer tie y = y.floor ∨ nearer tie y = y.floor + 1 := by
  unfold nearer
  split
  · exact .inl rfl
  · exact .inr rfl
  · exact .inr rfl
  · split
    · exact .inl rfl
    · exact .inr rfl

/-- What is found on a grid reads back. -/
theorem toBinary64_of_onGrid? {tie : Tie} {x : Binary64} {exact : Fraction} {g : Int} {d : Decimal}
    (h : onGrid? tie x exact g = some d) : d.toBinary64 false = x := by
  simp only [onGrid?] at h
  split at h
  · next below =>
    split at h
    · next above =>
      cases h
      rcases nearer_eq tie (exact.scale 10 (-g)) with eq | eq
      · rw [eq]; exact below
      · rw [eq]; exact above
    · cases h; exact below
  · split at h
    · next above => cases h; exact above
    · cases h

variable {m : Nat} {q : Int}

/-- All digits of a magnitude have its value. -/
theorem value_exactly (m : Nat) (q : Int) :
    ((exactly m q).digits : ℚ) * 10 ^ (exactly m q).exponent = m * 2 ^ q := by
  by_cases h : 0 ≤ q
  · obtain ⟨k, rfl⟩ := Int.eq_ofNat_of_zero_le h
    simp [exactly]
  · obtain ⟨k, hk⟩ := Int.eq_ofNat_of_zero_le (show 0 ≤ -q by omega)
    obtain rfl : q = -(k : Int) := by omega
    simp only [exactly, if_neg h, Int.neg_neg, Int.toNat_natCast, Nat.pow_eq, zpow_neg,
      zpow_natCast]
    push_cast
    rw [show (10 : ℚ) = 5 * 2 by norm_num, mul_pow]
    field_simp

/-- All digits of a magnitude read back. -/
theorem toBinary64_exactly (hm : m ≠ 0) (h : Canonical m q) :
    (exactly m q).toBinary64 false = finite false m q h := by
  rw [toBinary64, ofDecimal_eq]
  exact nearest_of_exact false hm h (den_decimal _ _) (by rw [toRat_decimal, value_exactly])

/-- The shortest decimal of a magnitude reads back with either sign. -/
theorem ofDecimal_shortest (tie : Tie) (negative : Bool) (hm : m ≠ 0) (h : Canonical m q) :
    ofDecimal negative (shortest tie m q h).digits (shortest tie m q h).exponent =
      finite negative m q h := by
  refine ofDecimal_sign negative ?_
  change (shortest tie m q h).toBinary64 false = _
  simp only [shortest]
  generalize hfound : List.findSome? _ _ = found
  cases found with
  | none => exact toBinary64_exactly hm h
  | some d =>
    obtain ⟨g, -, hg⟩ := List.exists_of_findSome?_eq_some hfound
    exact toBinary64_of_onGrid? hg

theorem digits_shortest_ne_zero (tie : Tie) (hm : m ≠ 0) (h : Canonical m q) :
    (shortest tie m q h).digits ≠ 0 := by
  intro zero
  have read := ofDecimal_shortest tie false hm h
  rw [zero, ofDecimal, if_pos rfl] at read
  cases read
  exact hm rfl

end Decimal

end Conform
