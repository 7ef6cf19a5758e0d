/-
Counts and ranges. A count beyond the greatest whole number of 64 bits is taken
for that number. This makes no difference to a bound unless the bound lies
between the two, at the end that decides for it (`Bound.relation_stable_iff`).
So what is said of a count is exact up to the greatest, and beyond it if no
bound lies there; and the counts that a range contains are all those between any
two of them (`Range.counts_exact`).
-/
import Conform.Proofs.Range.Bounds
import Mathlib.Order.Interval.Set.OrdConnected

namespace Conform

namespace Bound

/-- Where a bound lies if it tells a place `x` from a greater one: one that may be reached does so
behind `x`, and one that may not does so from `x` on. For upper bounds it is the other way round. -/
def separating : Bound → EReal → EReal → Set EReal
  | min, x, y => Set.Ioc x y
  | minExclusive, x, y => Set.Ico x y
  | maxExclusive, x, y => Set.Ioc x y
  | max, x, y => Set.Ico x y

theorem separating_subset (b : Bound) (x y : EReal) : b.separating x y ⊆ Set.Icc x y := by
  cases b with
  | min | maxExclusive => exact Set.Ioc_subset_Icc_self
  | minExclusive | max => exact Set.Ico_subset_Icc_self

/-- Two places lie alike to a bound exactly if the bound does not come between them. -/
theorem relation_stable_iff (b : Bound) {limit x y : EReal} (h : x ≤ y) :
    (b.Relation limit x ↔ b.Relation limit y) ↔ limit ∉ b.separating x y := by
  cases b with
  | min =>
    have up : limit ≤ x → limit ≤ y := fun below => below.trans h
    rw [separating, Set.mem_Ioc, ← not_le]
    simp only [Relation]
    tauto
  | minExclusive =>
    have up : limit < x → limit < y := fun below => below.trans_le h
    rw [separating, Set.mem_Ico, ← not_lt]
    simp only [Relation]
    tauto
  | maxExclusive =>
    have down : y < limit → x < limit := fun above => h.trans_lt above
    rw [separating, Set.mem_Ioc, ← not_lt (a := y)]
    simp only [Relation]
    tauto
  | max =>
    have down : y ≤ limit → x ≤ limit := fun above => h.trans above
    rw [separating, Set.mem_Ico, ← not_le (a := y)]
    simp only [Relation]
    tauto

/-- The places that keep to a bound are those on one side of it. -/
theorem ordConnected_relation (b : Bound) (limit : EReal) :
    Set.OrdConnected {x | b.Relation limit x} := by
  cases b with
  | min => exact Set.ordConnected_Ici
  | minExclusive => exact Set.ordConnected_Ioi
  | maxExclusive => exact Set.ordConnected_Iio
  | max => exact Set.ordConnected_Iic

end Bound

namespace Range

variable {entries : Table Value} {r : Range}

/-- A map gives a bound at a number, in one of its spellings. -/
def Gives (entries : Table Value) (b : Bound) (limit : Number) : Prop :=
  ∃ key ∈ b.spellings, entries.get? key = some (.number limit)

/-- A place keeps to every bound that a map gives: the bound has an exact value, to which the place
lies as the bound has it. -/
def KeptAt (entries : Table Value) (x : EReal) : Prop :=
  ∀ b limit, Gives entries b limit → ∃ y, limit.real? = some y ∧ b.Relation y x

theorem kept_iff_keptAt {x : Number} {place : EReal} (h : x.real? = some place) :
    Kept entries x ↔ KeptAt entries place := by
  have related {b : Bound} {limit : Number} :
      Number.Related b.Relation limit x ↔ ∃ y, limit.real? = some y ∧ b.Relation y place := by
    simp [Number.Related, h]
  simp only [Kept, KeptAt, Gives, related]
  constructor
  · rintro kept b limit ⟨key, hkey, given⟩
    exact kept b key hkey limit given
  · intro kept b key hkey limit given
    exact kept b limit ⟨key, hkey, given⟩

/-- What keeps to the bounds of a map is not interrupted. -/
theorem KeptAt.between {x y z : EReal} (hx : KeptAt entries x) (hz : KeptAt entries z)
    (hxy : x ≤ y) (hyz : y ≤ z) : KeptAt entries y := by
  intro b limit given
  obtain ⟨place, hp, fromBelow⟩ := hx b limit given
  obtain ⟨place', hp', fromAbove⟩ := hz b limit given
  cases hp.symm.trans hp'
  exact ⟨place, hp, (b.ordConnected_relation place).out fromBelow fromAbove ⟨hxy, hyz⟩⟩

/-- Two places keep to the bounds of a map alike if none of these comes between them. -/
theorem keptAt_congr {x y : EReal} (h : x ≤ y)
    (clear : ∀ b limit place, Gives entries b limit → limit.real? = some place →
      place ∉ b.separating x y) : KeptAt entries x ↔ KeptAt entries y := by
  refine forall_congr' fun b => forall_congr' fun limit => forall_congr' fun given =>
    exists_congr fun place => and_congr_right fun hp => ?_
  exact (b.relation_stable_iff h).2 (clear b limit place given hp)

/-! ## Counts -/

theorem greatestCount_eq : greatestCount = 2 ^ 63 - 1 := rfl

/-- The number as which a count is checked. -/
theorem real?_count (n : ℕ) :
    (Number.int (Int64.ofNat (Nat.min n greatestCount))).real? =
      some ((Min.min n greatestCount : ℕ) : EReal) := by
  have small : Nat.min n greatestCount < 2 ^ 63 :=
    (Nat.min_le_right n greatestCount).trans_lt (by decide)
  rw [Number.real?, Int64.toInt_ofNat_of_lt small]
  norm_cast

theorem containsCount_iff (h : ofValue (.map entries) = .ok r) (n : ℕ) :
    r.containsCount n = true ↔ KeptAt entries (Min.min n greatestCount : ℕ) :=
  (contains_iff_kept h).trans (kept_iff_keptAt (real?_count n))

/-- Counts are checked exactly up to the greatest whole number of 64 bits, and beyond it if no
bound lies between that number and the count. No count keeps to a bound that is NaN. The counts
that are contained make up an interval. -/
theorem counts_exact (h : ofValue (.map entries) = .ok r) :
    (∀ n ≤ 2 ^ 63 - 1, r.containsCount n = true ↔ KeptAt entries (n : ℕ)) ∧
    (∀ n > 2 ^ 63 - 1,
      (∀ b limit place, Gives entries b limit → limit.real? = some place →
        place ∉ Set.Icc ((2 ^ 63 - 1 : ℕ) : EReal) (n : ℕ)) →
      (r.containsCount n = true ↔ KeptAt entries (n : ℕ))) ∧
    (∀ b, Gives entries b (.float .nan) → ∀ n, r.containsCount n = false) ∧
    ∀ a b c, a ≤ b → b ≤ c → r.containsCount a = true → r.containsCount c = true →
      r.containsCount b = true := by
  refine ⟨fun n hn => ?upTo, fun n hn clear => ?beyond, fun b given n => ?nan,
    fun a b c hab hbc ha hc => ?interval⟩
  case upTo =>
    rw [containsCount_iff h, greatestCount_eq, Nat.min_eq_left hn]
  case beyond =>
    rw [containsCount_iff h, greatestCount_eq, Nat.min_eq_right (le_of_lt hn)]
    refine keptAt_congr (by exact_mod_cast le_of_lt hn) fun b limit place given hp inside => ?_
    exact clear b limit place given hp (b.separating_subset _ _ inside)
  case nan =>
    obtain ⟨key, _, given⟩ := given
    exact not_contains_of_nan h given (.inr rfl)
  case interval =>
    rw [containsCount_iff h] at ha hc ⊢
    refine ha.between hc ?_ ?_
    · exact_mod_cast min_le_min_right greatestCount hab
    · exact_mod_cast min_le_min_right greatestCount hbc

/-- With bounds on both sides of the greatest number, at 2 and 2^64, a count beyond it is checked
exactly, and so are all counts between. -/
theorem counts_exact_beyond :
    ∃ entries r r', entries = .cons "max" trivial
        (.number (.float (.finite false 0x10000000000000 12 (by decide))))
        (.cons "min" (by decide) (.number (.int 2)) .nil) ∧
      ofValue (.map entries) = .ok r ∧ KeptAt entries (2 ^ 63 - 1 : ℕ) ∧
      KeptAt entries (2 ^ 63 + 5 : ℕ) ∧ r.containsCount (2 ^ 62) = true ∧
      ofValue (.map (.cons "min" trivial (.number (.float .nan)) .nil)) = .ok r' ∧
      r'.containsCount 3 = false := by
  obtain ⟨entries, he⟩ : ∃ entries : Table Value, entries = .cons "max" trivial
    (.number (.float (.finite false 0x10000000000000 12 (by decide))))
    (.cons "min" (by decide) (.number (.int 2)) .nil) := ⟨_, rfl⟩
  obtain ⟨r, hr⟩ : ∃ r : Range, r = ⟨some (.int 2), none, none,
    some (.float (.finite false 0x10000000000000 12 (by decide)))⟩ := ⟨_, rfl⟩
  have read : ofValue (.map entries) = .ok r := by
    subst he hr
    rfl
  have clear (b : Bound) (limit : Number) (place : EReal) (given : Gives entries b limit)
      (hp : limit.real? = some place) :
      place ∉ Set.Icc ((2 ^ 63 - 1 : ℕ) : EReal) (2 ^ 63 + 5 : ℕ) := by
    have given := (get?_of_ofValue read b limit).2 given
    subst hr
    rintro ⟨above, below⟩
    cases b with
    | min =>
      cases given
      cases hp
      have two : (2 : Int64).toInt = 2 := rfl
      rw [← EReal.coe_coe_eq_natCast, EReal.coe_le_coe_iff, two] at above
      norm_num at above
    | max =>
      cases given
      cases hp
      rw [← EReal.coe_coe_eq_natCast, EReal.coe_le_coe_iff, Binary64.realOf_false] at below
      norm_num at below
    | minExclusive | maxExclusive => cases given
  obtain ⟨upTo, beyond, -, interval⟩ := counts_exact read
  have readNaN : ofValue (.map (.cons "min" trivial (.number (.float .nan)) .nil)) =
      .ok ⟨some (.float .nan), none, none, none⟩ := rfl
  obtain ⟨-, -, nan, -⟩ := counts_exact readNaN
  have holds (n : ℕ) (h : n ∈ [2, 2 ^ 63 - 1, 2 ^ 63 + 5]) : r.containsCount n = true := by
    subst hr
    revert n
    decide
  exact ⟨entries, r, _, he, read, (upTo _ le_rfl).1 (holds _ (by simp)),
    (beyond _ (by decide) clear).1 (holds _ (by simp)),
    interval 2 _ (2 ^ 63 + 5) (by decide) (by decide) (holds _ (by simp)) (holds _ (by simp)),
    readNaN, nan .min ⟨"min", by decide, rfl⟩ 3⟩

end Range

end Conform
