/-
Numbers and their exact values. The exact value of a number says the same as its
place on the extended real line (`Number.real?_eq`). So two numbers are equal if
they have the same exact value (`Number.equals_iff`), however they are written,
and a number is without fractional part if its exact value is a whole number
(`Number.isIntegral_iff`).
-/
import Conform.Proofs.Number.Order
import Mathlib.Algebra.Order.Field.Rat

namespace Conform

/-- The place of a value on the extended real line. -/
noncomputable def Extended.place : Extended → EReal
  | minusInfinity => ⊥
  | exact x => ((x.toRat : ℝ) : EReal)
  | plusInfinity => ⊤

theorem Extended.place_injective : Function.Injective Extended.place := by
  intro x y h
  cases x <;> cases y <;> simp [place] at h ⊢
  exact Dyadic.toRat_inj.1 h

namespace Number

theorem real?_eq (a : Number) : a.real? = a.extended.map Extended.place := by
  cases a with
  | int n =>
    have whole : (Dyadic.ofInt n.toInt).toRat = n.toInt := Dyadic.toRat_intCast _
    simp [real?, extended, Extended.place, whole]
  | float x =>
    cases x with
    | nan => rfl
    | infinite negative => cases negative <;> rfl
    | finite negative m q h =>
      simp only [real?, Binary64.real?, extended, Binary64.extended, Option.map_some,
        Extended.place, Dyadic.toRat_ofIntWithPrec_eq_mul_two_pow, Int.neg_neg]
      cases negative <;> simp [Binary64.realOf]

theorem extended_eq_iff {a b : Number} : a.extended = b.extended ↔ a.real? = b.real? := by
  rw [real?_eq, real?_eq, (Option.map_injective Extended.place_injective).eq_iff]

/-- The order of two numbers depends on their exact values alone. -/
theorem compare?_congr {a a' b b' : Number} (ha : a.extended = a'.extended)
    (hb : b.extended = b'.extended) : a.compare? b = a'.compare? b' := by
  rw [compare?_eq, compare?_eq, extended_eq_iff.1 ha, extended_eq_iff.1 hb]

theorem extended_eq_none_iff {a : Number} : a.extended = none ↔ a = .float .nan := by
  cases a with
  | int n => simp [extended]
  | float x =>
    cases x with
    | infinite negative => cases negative <;> simp [extended, Binary64.extended]
    | _ => simp [extended, Binary64.extended]

/-- Numbers are equal if they have one exact value; NaN has none. -/
theorem equals_iff {a b : Number} :
    a.equals b = true ↔ a.extended = b.extended ∧ a ≠ .float .nan := by
  rw [equals_iff_related, extended_eq_iff, Ne, ← real?_eq_none_iff]
  constructor
  · rintro ⟨x, y, hx, hy, rfl⟩
    exact ⟨hx.trans hy.symm, by simp [hx]⟩
  · rintro ⟨same, number⟩
    obtain ⟨x, hx⟩ := Option.ne_none_iff_exists'.1 number
    exact ⟨x, x, hx, same ▸ hx, rfl⟩

/-- The exact value of a number is a whole number. -/
def IsWhole (n : Number) : Prop := ∃ i : Int, n.extended = some (.exact (Dyadic.ofInt i))

theorem dyadic_eq_whole_iff {m q i : Int} :
    Dyadic.ofIntWithPrec m (-q) = Dyadic.ofInt i ↔ (m : Rat) * 2 ^ q = i := by
  have whole : (Dyadic.ofInt i).toRat = i := Dyadic.toRat_intCast i
  rw [← Dyadic.toRat_inj, whole, Dyadic.toRat_ofIntWithPrec_eq_mul_two_pow, Int.neg_neg]

/-- Moving the point of a whole number to the left by `d` places leaves a whole number if
the places behind the point are all zero. -/
theorem exists_whole_iff {m : Int} {d : Nat} :
    (∃ i : Int, (m : Rat) * 2 ^ (-(d : Int)) = i) ↔ (2 ^ d : Int) ∣ m := by
  have pos : (2 ^ d : Rat) ≠ 0 := pow_ne_zero d two_ne_zero
  refine ⟨fun h => ?_, fun h => ?_⟩
  · obtain ⟨i, hi⟩ := h
    rw [zpow_neg, zpow_natCast, mul_inv_eq_iff_eq_mul₀ pos] at hi
    exact ⟨i, by rw [Int.mul_comm]; exact_mod_cast hi⟩
  · obtain ⟨i, rfl⟩ := h
    refine ⟨i, ?_⟩
    rw [zpow_neg, zpow_natCast, mul_inv_eq_iff_eq_mul₀ pos]
    push_cast
    exact mul_comm _ _

theorem isIntegral_iff {n : Number} : n.isIntegral = true ↔ n.IsWhole := by
  cases n with
  | int n => simp [isIntegral, IsWhole, extended]
  | float x =>
    cases x with
    | nan => simp [isIntegral, Binary64.isIntegral, IsWhole, extended, Binary64.extended]
    | infinite negative =>
      cases negative <;>
        simp [isIntegral, Binary64.isIntegral, IsWhole, extended, Binary64.extended]
    | finite negative m q h =>
      simp only [isIntegral, Binary64.isIntegral, IsWhole, extended, Binary64.extended,
        Option.some.injEq, Extended.exact.injEq, dyadic_eq_whole_iff, Bool.or_eq_true,
        decide_eq_true_eq, beq_iff_eq]
      generalize hs : (if negative then -(m : Int) else m) = s
      have divides (d : Nat) : (2 ^ d : Int) ∣ s ↔ m % 2 ^ d = 0 := by
        rw [← Nat.dvd_iff_mod_eq_zero, ← Int.natCast_dvd_natCast, ← hs]
        split <;> simp
      rcases Int.lt_or_le q 0 with hq | hq
      · obtain ⟨d, hd⟩ := Int.eq_ofNat_of_zero_le (Int.neg_nonneg_of_nonpos (Int.le_of_lt hq))
        obtain rfl : q = -(d : Int) := by omega
        rw [exists_whole_iff, divides]
        simp only [Int.neg_neg, Int.toNat_natCast, Nat.pow_eq]
        exact ⟨fun h => h.resolve_left (by omega), .inr⟩
      · refine ⟨fun _ => ?_, fun _ => .inl hq⟩
        obtain ⟨d, rfl⟩ := Int.eq_ofNat_of_zero_le hq
        exact ⟨s * 2 ^ d, by push_cast; rfl⟩

theorem isIntegral_congr {n n' : Number} (h : n.extended = n'.extended) :
    n.isIntegral = n'.isIntegral := by
  rw [Bool.eq_iff_iff, isIntegral_iff, isIntegral_iff, IsWhole, IsWhole, h]

end Number

end Conform
