/-
The order of numbers. Every number but NaN has a place on the extended real line
(`Number.real?`): a whole number is the real number that it is, a finite binary
number is its significand times a power of two, and the infinities are the ends
of the line. Numbers are compared by their places (`Number.compare?_eq`), though
no comparison computes them.
-/
import Conform.Number.Basic
import Conform.Proofs.Number.Rounding
import Mathlib.Data.EReal.Basic
import Mathlib.Data.Option.NAry

namespace Conform

namespace Binary64

/-- The real number of a sign and a magnitude. -/
noncomputable def realOf (negative : Bool) (m : Nat) (q : Int) : ℝ :=
  (if negative then -1 else 1) * (m * 2 ^ q)

/-- The place of a binary number on the extended real line; NaN has none. -/
noncomputable def real? : Binary64 → Option EReal
  | nan => none
  | infinite negative => some (if negative then ⊥ else ⊤)
  | finite negative m q _ => some (realOf negative m q)

variable {m m' : Nat} {q q' : Int}

theorem realOf_true : realOf true m q = -(m * 2 ^ q) := by
  simp [realOf]

theorem realOf_false : realOf false m q = m * 2 ^ q := by
  simp [realOf]

/-! ## Binary numbers -/

/-- A magnitude of lesser exponent is below `2 ^ 53 * 2 ^ q`, and one of greater exponent has its
53rd bit set. -/
theorem magnitude_lt (h : Canonical m q) (h' : Canonical m' q') (lt : q < q') :
    (m : ℝ) * 2 ^ q < m' * 2 ^ q' := by
  have upper : (m : ℝ) < 2 ^ (53 : ℤ) := by
    have := h.1
    norm_cast
  have lower : (2 : ℝ) ^ (52 : ℤ) ≤ m' := by
    have : 0x10000000000000 ≤ m' := h'.2.2.2.resolve_right (by have := h.2.1; omega)
    norm_cast
  calc (m : ℝ) * 2 ^ q
      < 2 ^ (53 : ℤ) * 2 ^ q := by gcongr
    _ = 2 ^ (52 + (q + 1)) := by rw [← zpow_add₀ two_ne_zero]; congr 1; ring
    _ ≤ 2 ^ (52 + q') := zpow_le_zpow_right₀ one_le_two (by omega)
    _ = 2 ^ (52 : ℤ) * 2 ^ q' := zpow_add₀ two_ne_zero _ _
    _ ≤ m' * 2 ^ q' := by gcongr

theorem compareMagnitudes_eq (h : Canonical m q) (h' : Canonical m' q') :
    compareMagnitudes m q m' q' = cmp ((m : ℝ) * 2 ^ q) (m' * 2 ^ q') := by
  unfold compareMagnitudes
  rcases lt_trichotomy q q' with lt | rfl | gt
  · rw [compare_lt_iff_lt.2 lt, (cmp_eq_lt_iff _ _).2 (magnitude_lt h h' lt)]
    rfl
  · have pos : (0 : ℝ) < 2 ^ q := by positivity
    rw [compare_eq_iff_eq.2 rfl, cmp_mul_pos_right pos, Nat.strictMono_cast.cmp_map_eq,
      cmp_eq_compare]
    rfl
  · rw [compare_gt_iff_gt.2 gt, (cmp_eq_gt_iff _ _).2 (magnitude_lt h' h gt)]
    rfl

theorem cmp_realOf (negative negative' : Bool) (h : Canonical m q) (h' : Canonical m' q') :
    (finite negative m q h).compare? (finite negative' m' q' h') =
      some (cmp (realOf negative m q) (realOf negative' m' q')) := by
  refine congrArg some ?_
  by_cases zeros : m = 0 ∧ m' = 0
  · rw [if_pos zeros, eq_comm, cmp_eq_eq_iff, realOf, realOf, zeros.1, zeros.2]
    simp
  · rw [if_neg zeros]
    have nonneg : (0 : ℝ) ≤ m * 2 ^ q := by positivity
    have nonneg' : (0 : ℝ) ≤ m' * 2 ^ q' := by positivity
    -- numbers of different signs are not both zero
    have apart : 0 < (m : ℝ) * 2 ^ q + m' * 2 ^ q' := by
      by_cases hm : m = 0
      · have hm' : m' ≠ 0 := fun h0 => zeros ⟨hm, h0⟩
        positivity
      · positivity
    cases negative <;> cases negative'
    case false.false =>
      rw [realOf_false, realOf_false]
      exact compareMagnitudes_eq h h'
    case true.true =>
      rw [realOf_true, realOf_true]
      exact (compareMagnitudes_eq h' h).trans
        (StrictAnti.cmp_map_eq (fun _ _ => neg_lt_neg) _ _).symm
    case true.false =>
      rw [realOf_true, realOf_false]
      exact ((cmp_eq_lt_iff _ _).2 (by linarith)).symm
    case false.true =>
      rw [realOf_false, realOf_true]
      exact ((cmp_eq_gt_iff _ _).2 (by linarith)).symm

/-- Binary numbers are compared by their places. -/
theorem compare?_eq (x y : Binary64) : x.compare? y = Option.map₂ cmp x.real? y.real? := by
  have lt {r s : EReal} (h : r < s) : some Ordering.lt = some (cmp r s) :=
    congrArg some ((cmp_eq_lt_iff r s).2 h).symm
  have eq (r : EReal) : some Ordering.eq = some (cmp r r) := congrArg some (cmp_self_eq_eq r).symm
  have gt {r s : EReal} (h : s < r) : some Ordering.gt = some (cmp r s) :=
    congrArg some ((cmp_eq_gt_iff r s).2 h).symm
  cases x with
  | nan => cases y <;> rfl
  | infinite negative =>
    cases y with
    | nan => cases negative <;> rfl
    | infinite negative' =>
      cases negative <;> cases negative'
      · exact eq ⊤
      · exact gt bot_lt_top
      · exact lt bot_lt_top
      · exact eq ⊥
    | finite negative' m' q' h' =>
      cases negative
      · exact gt (EReal.coe_lt_top _)
      · exact lt (EReal.bot_lt_coe _)
  | finite negative m q h =>
    cases y with
    | nan => rfl
    | infinite negative' =>
      cases negative'
      · exact lt (EReal.coe_lt_top _)
      · exact gt (EReal.bot_lt_coe _)
    | finite negative' m' q' h' =>
      rw [cmp_realOf, real?, real?, Option.map₂_some_some, EReal.coe_strictMono.cmp_map_eq]

/-! ## The part before the point -/

theorem wholeMagnitude_eq (m : Nat) (q : Int) : wholeMagnitude m q = ⌊(m : ℝ) * 2 ^ q⌋₊ := by
  unfold wholeMagnitude
  by_cases h : 0 ≤ q
  · obtain ⟨k, rfl⟩ := Int.eq_ofNat_of_zero_le h
    have whole : (m : ℝ) * 2 ^ (k : ℤ) = ((m * 2 ^ k : ℕ) : ℝ) := by
      rw [zpow_natCast]
      norm_cast
    rw [if_pos h, whole, Nat.floor_natCast]
    rfl
  · obtain ⟨k, hk⟩ := Int.eq_ofNat_of_zero_le (show 0 ≤ -q by omega)
    obtain rfl : q = -(k : Int) := by omega
    have quotient : (m : ℝ) * 2 ^ (-(k : ℤ)) = (m : ℝ) / ((2 ^ k : ℕ) : ℝ) := by
      rw [zpow_neg, zpow_natCast, div_eq_mul_inv]
      norm_cast
    rw [if_neg h, quotient, Nat.floor_div_eq_div, Int.neg_neg]
    rfl

/-- The whole number that a finite binary number is cut off to. -/
def whole (negative : Bool) (m : Nat) (q : Int) : Int :=
  if negative then -(wholeMagnitude m q : Int) else wholeMagnitude m q

/-- A number without what is behind its point is the whole number that is left. -/
theorem exists_truncate_eq (negative : Bool) (h : Canonical m q) :
    ∃ m' q' h', (finite negative m q h).truncate = finite negative m' q' h' ∧
      realOf negative m' q' = whole negative m q := by
  have signed {m' : Nat} {q' : Int} (he : (m' : ℚ) * 2 ^ q' = wholeMagnitude m q) :
      realOf negative m' q' = whole negative m q := by
    have he := congrArg (Rat.cast : ℚ → ℝ) he
    push_cast at he
    rw [realOf, he, whole]
    cases negative <;> simp
  rw [truncate]
  by_cases small : wholeMagnitude m q < 0x20000000000000
  · obtain ⟨m', q', h', hn, he⟩ := exists_nearest_eq negative small
    exact ⟨m', q', h', hn, signed he⟩
  · -- there is nothing behind the point
    have hq : 0 ≤ q := by
      by_contra neg
      have := Nat.div_le_self m (Nat.pow 2 (-q).toNat)
      have := h.1
      rw [wholeMagnitude, if_neg neg] at small
      omega
    obtain ⟨k, rfl⟩ := Int.eq_ofNat_of_zero_le hq
    have hw : wholeMagnitude m k = m * 2 ^ k := by
      rw [wholeMagnitude, if_pos hq]
      rfl
    have he : (m : ℚ) * 2 ^ (k : ℤ) = wholeMagnitude m k := by
      rw [hw, zpow_natCast]
      norm_cast
    have hm : m ≠ 0 := by
      rintro rfl
      rw [hw] at small
      omega
    refine ⟨m, k, h, nearest_of_exact negative hm h Nat.one_ne_zero ?_, signed he⟩
    rw [Fraction.toRat_ofNat, he]

/-- Cutting off moves a number by less than one. -/
theorem whole_near (negative : Bool) (m : Nat) (q : Int) :
    (whole negative m q : ℝ) - 1 < realOf negative m q ∧
      realOf negative m q < whole negative m q + 1 := by
  have nonneg : (0 : ℝ) ≤ m * 2 ^ q := by positivity
  have hle := Nat.floor_le nonneg
  have hlt := Nat.lt_floor_add_one ((m : ℝ) * 2 ^ q)
  rw [← wholeMagnitude_eq] at hle hlt
  cases negative
  · simp only [realOf_false, whole, Bool.false_eq_true, if_false]
    push_cast
    constructor <;> linarith
  · simp only [realOf_true, whole, if_true]
    push_cast
    constructor <;> linarith

/-- A binary number that is a whole number of 64 bits is taken for that number. -/
theorem toInt64_of_whole {negative : Bool} {k : Int} (h : Canonical m q)
    (value : realOf negative m q = k) (upper : k < 2 ^ 63) (lower : -2 ^ 63 ≤ k) :
    (finite negative m q h).toInt64.toInt = k := by
  obtain ⟨above, below⟩ := whole_near negative m q
  have same : whole negative m q = k := by
    rw [value] at above below
    have above : whole negative m q < k + 1 := by exact_mod_cast (by linarith : (whole negative m q : ℝ) < k + 1)
    have below : k < whole negative m q + 1 := by exact_mod_cast below
    omega
  rw [toInt64]
  show (Int64.ofInt (max _ (min (whole negative m q) _))).toInt = _
  rw [same, min_eq_left (by omega), max_eq_right (by omega), Int64.toInt_ofInt_of_le lower upper]

/-- Between the edges, what is left of a number is a whole number of 64 bits. -/
theorem whole_bounds {negative : Bool} (upper : realOf negative m q < 2 ^ 63)
    (lower : -2 ^ 63 ≤ realOf negative m q) :
    whole negative m q < 2 ^ 63 ∧ -2 ^ 63 ≤ whole negative m q := by
  have nonneg : (0 : ℝ) ≤ m * 2 ^ q := by positivity
  have hle := Nat.floor_le nonneg
  rw [← wholeMagnitude_eq] at hle
  cases negative
  · rw [realOf_false] at upper
    have : (wholeMagnitude m q : ℝ) < 2 ^ 63 := lt_of_le_of_lt hle upper
    have : wholeMagnitude m q < 2 ^ 63 := by exact_mod_cast this
    simp only [whole, Bool.false_eq_true, if_false]
    omega
  · rw [realOf_true] at lower
    have : (wholeMagnitude m q : ℝ) ≤ 2 ^ 63 := by linarith
    have : wholeMagnitude m q ≤ 2 ^ 63 := by exact_mod_cast this
    simp only [whole, if_true]
    omega

end Binary64

namespace Number

open Binary64

/-- The place of a number on the extended real line; NaN has none. -/
noncomputable def real? : Number → Option EReal
  | int n => some ((n.toInt : ℝ) : EReal)
  | float x => x.real?

theorem compare_int64 (n k : Int64) : compare n k = cmp (n.toInt : ℝ) k.toInt := by
  have cast : cmp (n.toInt : ℝ) k.toInt = cmp n.toInt k.toInt := Int.cast_strictMono.cmp_map_eq _ _
  rw [cast]
  show compareOfLessAndEq n k = cmp n.toInt k.toInt
  unfold compareOfLessAndEq cmp cmpUsing
  simp only [Int64.lt_iff_toInt_lt, ← Int64.toInt_inj]
  split
  · rfl
  · split <;> split <;> first | rfl | omega

/-- A real number that is cut off to `k` lies to other whole numbers as `k` does. -/
theorem cmp_of_near {n k : Int} {x : ℝ} (near : (k : ℝ) - 1 < x ∧ x < k + 1) (ne : n ≠ k) :
    cmp (n : ℝ) k = cmp (n : ℝ) x := by
  rcases Int.lt_or_gt_of_ne ne with lt | gt
  · have hn : (n : ℝ) ≤ k - 1 := by exact_mod_cast Int.le_sub_one_of_lt lt
    rw [(cmp_eq_lt_iff _ _).2 (by exact_mod_cast lt), (cmp_eq_lt_iff _ _).2 (by linarith)]
  · have hn : (k : ℝ) + 1 ≤ n := by exact_mod_cast Int.add_one_le_of_lt gt
    rw [(cmp_eq_gt_iff _ _).2 (by exact_mod_cast gt), (cmp_eq_gt_iff _ _).2 (by linarith)]

theorem toInt_real_bounds (n : Int64) : (-2 ^ 63 : ℝ) ≤ n.toInt ∧ (n.toInt : ℝ) < 2 ^ 63 := by
  have lower := n.le_toInt
  have upper := n.toInt_lt
  exact ⟨by exact_mod_cast lower, by exact_mod_cast upper⟩

theorem realOf_edge (negative : Bool) :
    realOf negative 0x10000000000000 11 = if negative then -2 ^ 63 else 2 ^ 63 := by
  have value : ((0x10000000000000 : ℕ) : ℝ) * 2 ^ (11 : ℤ) = 2 ^ 63 := by norm_num
  cases negative
  · rw [realOf_false, value]
    rfl
  · rw [realOf_true, value]
    rfl

section

variable (negative : Bool) {m : Nat} {q : Int} (h : Canonical m q)

theorem beyond_edge_iff :
    ((finite negative m q h).compare? (.edge false)).any Ordering.isGE = true ↔
      2 ^ 63 ≤ realOf negative m q := by
  rw [edge, cmp_realOf, realOf_edge, Option.any_some, Ordering.isGE_iff_ne_lt, cmp_eq_lt_iff]
  simp

theorem below_edge_iff :
    (finite negative m q h).compare? (.edge true) = some .lt ↔ realOf negative m q < -2 ^ 63 := by
  rw [edge, cmp_realOf, realOf_edge, Option.some.injEq, cmp_eq_lt_iff]
  simp

/-- Between the edges, a number without what is behind its point is the whole number of 64 bits
that it is taken for. -/
theorem truncate_between (upper : realOf negative m q < 2 ^ 63)
    (lower : -2 ^ 63 ≤ realOf negative m q) :
    (finite negative m q h).truncate.toInt64.toInt = whole negative m q ∧
      (finite negative m q h).truncate.real? = some ((whole negative m q : ℝ) : EReal) := by
  obtain ⟨hlt, hge⟩ := whole_bounds upper lower
  obtain ⟨m', q', h', ht, value⟩ := exists_truncate_eq negative h
  rw [ht]
  exact ⟨toInt64_of_whole h' value hlt hge, by rw [Binary64.real?, value]⟩

end

/-- A whole number and a binary number are compared by their places. -/
theorem compareMixed?_eq (n : Int64) (x : Binary64) :
    compareMixed? n x = Option.map₂ cmp (some ((n.toInt : ℝ) : EReal)) x.real? := by
  cases x with
  | nan => rfl
  | infinite negative =>
    cases negative
    · have above : ((n.toInt : ℝ) : EReal) < ⊤ := EReal.coe_lt_top _
      exact congrArg some ((cmp_eq_lt_iff _ _).2 above).symm
    · have below : (⊥ : EReal) < ((n.toInt : ℝ) : EReal) := EReal.bot_lt_coe _
      exact congrArg some ((cmp_eq_gt_iff _ _).2 below).symm
  | finite negative m q h =>
    obtain ⟨least, greatest⟩ := toInt_real_bounds n
    rw [compareMixed?, if_neg (by simp), Binary64.real?, Option.map₂_some_some,
      EReal.coe_strictMono.cmp_map_eq]
    by_cases beyond : 2 ^ 63 ≤ realOf negative m q
    · rw [if_pos ((beyond_edge_iff negative h).2 beyond),
        (cmp_eq_lt_iff _ _).2 (lt_of_lt_of_le greatest beyond)]
    rw [if_neg (mt (beyond_edge_iff negative h).1 beyond)]
    by_cases below : realOf negative m q < -2 ^ 63
    · rw [if_pos ((below_edge_iff negative h).2 below),
        (cmp_eq_gt_iff _ _).2 (lt_of_lt_of_le below least)]
    rw [if_neg (mt (below_edge_iff negative h).1 below)]
    -- between the edges the whole numbers decide, if they differ
    obtain ⟨converted, place⟩ := truncate_between negative h (not_le.1 beyond) (not_lt.1 below)
    rw [compare_int64, converted, Binary64.compare?_eq, place, Binary64.real?,
      Option.map₂_some_some, EReal.coe_strictMono.cmp_map_eq]
    by_cases same : n.toInt = whole negative m q
    · rw [same, cmp_self_eq_eq]
    · have unequal : cmp (n.toInt : ℝ) (whole negative m q) ≠ .eq := by
        rw [Ne, cmp_eq_eq_iff]
        exact_mod_cast same
      rw [← cmp_of_near (whole_near negative m q) same]
      generalize cmp (n.toInt : ℝ) (whole negative m q) = order at unequal ⊢
      cases order with
      | eq => exact absurd rfl unequal
      | lt | gt => rfl

/-- Numbers are compared by their places. -/
theorem compare?_eq (a b : Number) : a.compare? b = Option.map₂ cmp a.real? b.real? := by
  cases a with
  | int n =>
    cases b with
    | int k =>
      rw [compare?, compare_int64, real?, real?, Option.map₂_some_some,
        EReal.coe_strictMono.cmp_map_eq]
    | float y => exact compareMixed?_eq n y
  | float x =>
    cases b with
    | int k =>
      rw [compare?, compareMixed?_eq, real?, real?]
      cases x.real? with
      | none => rfl
      | some r => exact congrArg some (cmp_swap _ _)
    | float y => exact Binary64.compare?_eq x y

theorem real?_eq_none_iff {a : Number} : a.real? = none ↔ a = .float .nan := by
  cases a with
  | int n => simp [real?]
  | float x => cases x <;> simp [real?, Binary64.real?]

/-! ## What the tests tell -/

/-- Two numbers have places, and these are related. -/
def Related (R : EReal → EReal → Prop) (a b : Number) : Prop :=
  ∃ x y, a.real? = some x ∧ b.real? = some y ∧ R x y

theorem Related.congr {R S : EReal → EReal → Prop} {a b : Number} (h : ∀ x y, R x y ↔ S x y) :
    Related R a b ↔ Related S a b := by
  simp only [Related, h]

theorem compare?_eq_some_iff {a b : Number} {o : Ordering} :
    a.compare? b = some o ↔ Related (fun x y => cmp x y = o) a b := by
  rw [compare?_eq, Option.map₂_eq_some_iff]
  rfl

variable {a b c : Number}

theorem equals_iff_related : a.equals b = true ↔ Related (· = ·) a b := by
  rw [equals, beq_iff_eq, compare?_eq_some_iff]
  exact Related.congr cmp_eq_eq_iff

theorem less_iff_related : a.less b = true ↔ Related (· < ·) a b := by
  rw [less, beq_iff_eq, compare?_eq_some_iff]
  exact Related.congr cmp_eq_lt_iff

theorem atMost_iff_related : a.atMost b = true ↔ Related (· ≤ ·) a b := by
  rw [atMost, Bool.or_eq_true, less_iff_related, equals_iff_related]
  unfold Related
  simp only [le_iff_lt_or_eq, and_or_left, exists_or]

theorem compare?_swap : b.compare? a = (a.compare? b).map Ordering.swap := by
  rw [compare?_eq, compare?_eq]
  cases a.real? with
  | none => rw [Option.map₂_none_left, Option.map₂_none_right, Option.map_none]
  | some x =>
    cases b.real? with
    | none => rfl
    | some y => exact congrArg some (cmp_swap x y).symm

theorem Related.flip {R : EReal → EReal → Prop} :
    Related R b a ↔ Related (fun x y => R y x) a b :=
  ⟨fun ⟨x, y, hx, hy, h⟩ => ⟨y, x, hy, hx, h⟩, fun ⟨x, y, hx, hy, h⟩ => ⟨y, x, hy, hx, h⟩⟩

theorem atMost_total (ha : a ≠ .float .nan) (hb : b ≠ .float .nan) :
    a.atMost b = true ∨ b.atMost a = true := by
  obtain ⟨x, hx⟩ := Option.ne_none_iff_exists'.1 (mt real?_eq_none_iff.1 ha)
  obtain ⟨y, hy⟩ := Option.ne_none_iff_exists'.1 (mt real?_eq_none_iff.1 hb)
  rw [atMost_iff_related, atMost_iff_related]
  rcases le_total x y with h | h
  · exact .inl ⟨x, y, hx, hy, h⟩
  · exact .inr ⟨y, x, hy, hx, h⟩

theorem atMost_trans (hab : a.atMost b = true) (hbc : b.atMost c = true) : a.atMost c = true := by
  rw [atMost_iff_related] at hab hbc ⊢
  obtain ⟨x, y, hx, hy, hxy⟩ := hab
  obtain ⟨y', z, hy', hz, hyz⟩ := hbc
  cases hy.symm.trans hy'
  exact ⟨x, z, hx, hz, le_trans hxy hyz⟩

theorem atMost_antisymm (hab : a.atMost b = true) (hba : b.atMost a = true) :
    a.equals b = true := by
  rw [atMost_iff_related] at hab hba
  obtain ⟨x, y, hx, hy, hxy⟩ := hab
  obtain ⟨y', x', hy', hx', hyx⟩ := hba
  cases hx.symm.trans hx'
  cases hy.symm.trans hy'
  exact equals_iff_related.2 ⟨x, y, hx, hy, le_antisymm hxy hyx⟩

/-- A binary number between the edges is converted without loss. -/
theorem conversion_exact {x : Binary64} (upper : x.compare? (.edge false) = some .lt)
    (lower : x.compare? (.edge true) ≠ some .lt) :
    x.truncate.real? = some ((x.truncate.toInt64.toInt : ℝ) : EReal) := by
  cases x with
  | nan => cases upper
  | infinite negative =>
    cases negative
    · cases upper
    · exact absurd rfl lower
  | finite negative m q h =>
    have upper : realOf negative m q < 2 ^ 63 := by
      rw [← not_le, ← beyond_edge_iff negative h, upper]
      decide
    have lower := mt (below_edge_iff negative h).2 lower
    obtain ⟨converted, place⟩ := truncate_between negative h upper (not_lt.1 lower)
    rw [converted, place]

/-- The comparison of numbers is the order of their places on the extended real line. There is no
order with NaN. All tests tell this order, which is total, transitive and antisymmetric up to
equality on numbers other than NaN and reversed when the numbers change places. Where a binary
number is converted for it, the conversion is exact. -/
theorem comparison_exact (a b c : Number) (x : Binary64) :
    a.compare? b = Option.map₂ cmp a.real? b.real? ∧
    (a.compare? b = none ↔ a = .float .nan ∨ b = .float .nan) ∧
    ((a.equals b = true ↔ Related (· = ·) a b) ∧ (a.less b = true ↔ Related (· < ·) a b) ∧
      (a.atMost b = true ↔ Related (· ≤ ·) a b) ∧ (b.less a = true ↔ Related (· > ·) a b) ∧
      (b.atMost a = true ↔ Related (· ≥ ·) a b)) ∧
    b.compare? a = (a.compare? b).map Ordering.swap ∧
    (a ≠ .float .nan → b ≠ .float .nan → a.atMost b = true ∨ b.atMost a = true) ∧
    (a.atMost b = true → b.atMost c = true → a.atMost c = true) ∧
    (a.atMost b = true → b.atMost a = true → a.equals b = true) ∧
    (x.compare? (.edge false) = some .lt → x.compare? (.edge true) ≠ some .lt →
      x.truncate.real? = some ((x.truncate.toInt64.toInt : ℝ) : EReal)) := by
  have none_iff : a.compare? b = none ↔ a = .float .nan ∨ b = .float .nan := by
    rw [compare?_eq, Option.map₂_eq_none_iff, real?_eq_none_iff, real?_eq_none_iff]
  exact ⟨compare?_eq a b, none_iff, ⟨equals_iff_related, less_iff_related, atMost_iff_related,
    less_iff_related.trans Related.flip, atMost_iff_related.trans Related.flip⟩, compare?_swap,
    atMost_total, atMost_trans, atMost_antisymm, conversion_exact⟩

/-- 2^53 + 1 lies between two binary numbers and is rounded to neither of them; -2^63 is one number
in both spellings, and is converted. -/
theorem comparison_exact_at_edges :
    (float (.finite false 0x10000000000000 1 (by decide))).atMost (float (.infinite false)) = true ∧
    ((int (-0x8000000000000000)).atMost (float (.edge true)) = true ∨
      (float (.edge true)).atMost (int (-0x8000000000000000)) = true) ∧
    (int (-0x8000000000000000)).equals (float (.edge true)) = true ∧
    (Binary64.edge true).truncate.real? =
      some (((Binary64.edge true).truncate.toInt64.toInt : ℝ) : EReal) := by
  obtain ⟨_, _, _, _, _, trans, _⟩ := comparison_exact
    (float (.finite false 0x10000000000000 1 (by decide))) (int 0x20000000000001)
    (float (.infinite false)) .nan
  obtain ⟨_, _, _, _, total, _, antisymm, conversion⟩ := comparison_exact
    (int (-0x8000000000000000)) (float (.edge true)) (int 0) (.edge true)
  exact ⟨trans (by decide) (by decide), total (by decide) (by decide),
    antisymm (by decide) (by decide), conversion (by decide) (by decide)⟩

end Number

end Conform
