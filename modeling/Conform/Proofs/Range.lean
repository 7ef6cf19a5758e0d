/-
How ranges are written: as maps from the names of bounds to numbers, where an
exclusive bound may be named in either of its two ways but not in both
(`Range.Written`). Everything that is written so is read, and nothing else is
(`Range.exists_ofValue_iff`).

It makes no difference how the numbers are written: ranges with bounds of the
same exact values contain the same numbers (`Range.Same.contains_eq`).
-/
import Conform.Proofs.Number.Exact
import Conform.Proofs.Table
import Conform.Range
import Mathlib.Data.List.Pairwise

namespace Conform

namespace Bound

/-- The keys that name a bound. -/
def spellings : Bound → List String
  | min => ["min"]
  | minExclusive => ["min-ex", "min_exclusive"]
  | maxExclusive => ["max-ex", "max_exclusive"]
  | max => ["max"]

theorem ofKey?_eq_some_iff {key : String} {b : Bound} :
    ofKey? key = some b ↔ key ∈ b.spellings := by
  constructor
  · intro h
    unfold ofKey? at h
    split at h
    · next hk => cases h; simp [spellings, hk]
    split at h
    · next hk => cases h; simpa [spellings] using hk
    split at h
    · next hk => cases h; simp [spellings, hk]
    split at h
    · next hk => cases h; simpa [spellings] using hk
    · cases h
  · intro h
    cases b <;> simp only [spellings, List.mem_cons, List.not_mem_nil, or_false] at h
    · subst h; decide
    · rcases h with rfl | rfl <;> decide
    · rcases h with rfl | rfl <;> decide
    · subst h; decide

/-- Two keys that name one bound are the two spellings of an exclusive one. -/
theorem two_spellings {b : Bound} {j k : String} (hj : j ∈ b.spellings) (hk : k ∈ b.spellings)
    (lt : j < k) :
    (j = "min-ex" ∧ k = "min_exclusive") ∨ (j = "max-ex" ∧ k = "max_exclusive") := by
  cases b <;> simp only [spellings, List.mem_cons, List.not_mem_nil, or_false] at hj hk
  · exact absurd lt (hj ▸ hk ▸ String.lt_irrefl _)
  · rcases hj with rfl | rfl <;> rcases hk with rfl | rfl <;> revert lt <;> decide
  · rcases hj with rfl | rfl <;> rcases hk with rfl | rfl <;> revert lt <;> decide
  · exact absurd lt (hj ▸ hk ▸ String.lt_irrefl _)

end Bound

namespace Range

/-- The keys that a map of bounds may have. -/
def keys : List String := ["min", "min-ex", "min_exclusive", "max-ex", "max_exclusive", "max"]

/-- A range is written in a map: its keys name bounds, its values are numbers, and no
exclusive bound is given in both spellings. -/
structure WrittenIn (entries : Table Value) : Prop where
  known : ∀ key, entries.contains key = true → key ∈ keys
  number : ∀ key v, entries.get? key = some v → ∃ n, v = .number n
  oneMin : ¬ (entries.contains "min-ex" = true ∧ entries.contains "min_exclusive" = true)
  oneMax : ¬ (entries.contains "max-ex" = true ∧ entries.contains "max_exclusive" = true)

/-- A value is a range as it is to be written. -/
def Written (v : Value) : Prop := ∃ entries, v = .map entries ∧ WrittenIn entries

theorem mem_keys_iff {key : String} : key ∈ keys ↔ ∃ b, Bound.ofKey? key = some b := by
  have all (b : Bound) : b ∈ Bound.all := by
    cases b <;> decide
  have spelled : keys = Bound.all.flatMap Bound.spellings := rfl
  simp only [spelled, List.mem_flatMap, all, true_and, Bound.ofKey?_eq_some_iff]

/-! ## Reading entry by entry -/

theorem get?_set (r : Range) (b : Bound) (n : Number) (b' : Bound) :
    (r.set b n).get? b' = if b' = b then some n else r.get? b' := by
  cases b <;> cases b' <;> rfl

/-- An entry can be taken by a range: it gives a number for a bound that is not set. -/
def Takes (r : Range) (e : String × Value) : Prop :=
  ∃ b n, Bound.ofKey? e.1 = some b ∧ e.2 = .number n ∧ r.get? b = none

theorem addEntry_ok_iff {r r' : Range} {key : String} {v : Value} :
    r.addEntry key v = .ok r' ↔
      ∃ b n, Bound.ofKey? key = some b ∧ v = .number n ∧ r.get? b = none ∧ r.set b n = r' := by
  unfold addEntry
  constructor
  · intro h
    split at h
    · cases h
    next b hb =>
    split at h
    · next n =>
      split at h
      · cases h
      · next free =>
        rw [Option.not_isSome_iff_eq_none] at free
        cases h
        exact ⟨b, n, hb, rfl, free, rfl⟩
    · cases h
  · rintro ⟨b, n, hb, rfl, free, rfl⟩
    simp [hb, free]

/-- Entries can be taken one after another if each can be taken by itself, and no two of
them are for one bound. -/
theorem exists_foldlM_iff {l : List (String × Value)} {r : Range} :
    (∃ r', l.foldlM (fun r e => r.addEntry e.1 e.2) r = .ok r') ↔
      (∀ e ∈ l, r.Takes e) ∧ l.Pairwise fun e e' => Bound.ofKey? e.1 ≠ Bound.ofKey? e'.1 := by
  induction l generalizing r with
  | nil => exact ⟨fun _ => ⟨fun _ he => (nomatch he), .nil⟩, fun _ => ⟨r, rfl⟩⟩
  | cons e l ih =>
    have step : (∃ r', (e :: l).foldlM (fun r e => r.addEntry e.1 e.2) r = .ok r') ↔
        ∃ b n, Bound.ofKey? e.1 = some b ∧ e.2 = .number n ∧ r.get? b = none ∧
          ∃ r', l.foldlM (fun r e => r.addEntry e.1 e.2) (r.set b n) = .ok r' := by
      rw [List.foldlM_cons]
      constructor
      · rintro ⟨r', h⟩
        cases hr : r.addEntry e.1 e.2 with
        | error e => rw [hr] at h; cases h
        | ok r₁ =>
          rw [hr] at h
          obtain ⟨b, n, hb, hn, free, rfl⟩ := addEntry_ok_iff.1 hr
          exact ⟨b, n, hb, hn, free, r', h⟩
      · rintro ⟨b, n, hb, hn, free, r', h⟩
        refine ⟨r', ?_⟩
        rw [addEntry_ok_iff.2 ⟨b, n, hb, hn, free, rfl⟩]
        exact h
    -- what is left can be taken once the bound is set if it could before and is for others
    have later {b : Bound} {n : Number} {e' : String × Value} :
        (r.set b n).Takes e' ↔ r.Takes e' ∧ some b ≠ Bound.ofKey? e'.1 := by
      simp only [Takes, get?_set]
      constructor
      · rintro ⟨b', n', hb', hn', free⟩
        split at free
        · cases free
        · next ne => exact ⟨⟨b', n', hb', hn', free⟩, fun h => ne (by simpa [hb'] using h.symm)⟩
      · rintro ⟨⟨b', n', hb', hn', free⟩, ne⟩
        refine ⟨b', n', hb', hn', ?_⟩
        rw [if_neg (fun h => ne (by rw [hb', h]))]
        exact free
    rw [step, List.forall_mem_cons, List.pairwise_cons]
    constructor
    · rintro ⟨b, n, hb, hn, free, h⟩
      obtain ⟨each, others⟩ := ih.1 h
      refine ⟨⟨⟨b, n, hb, hn, free⟩, fun e' he' => (later.1 (each e' he')).1⟩, ?_, others⟩
      intro e' he'
      rw [hb]
      exact (later.1 (each e' he')).2
    · rintro ⟨⟨⟨b, n, hb, hn, free⟩, each⟩, first, others⟩
      refine ⟨b, n, hb, hn, free, ih.2 ⟨fun e' he' => later.2 ⟨each e' he', ?_⟩, others⟩⟩
      rw [← hb]
      exact first e' he'

/-! ## Reading a map of bounds -/

theorem unbounded_get? (b : Bound) : unbounded.get? b = none := by
  cases b <;> rfl

/-- Two keys of a map name one bound only if they are its two spellings. -/
theorem pairwise_ofKey?_iff {entries : Table Value}
    (known : ∀ key, entries.contains key = true → key ∈ keys) :
    (entries.toList.Pairwise fun e e' => Bound.ofKey? e.1 ≠ Bound.ofKey? e'.1) ↔
      ¬ (entries.contains "min-ex" = true ∧ entries.contains "min_exclusive" = true) ∧
        ¬ (entries.contains "max-ex" = true ∧ entries.contains "max_exclusive" = true) := by
  constructor
  · intro h
    have apart {j k : String} (hne : j ≠ k) (same : Bound.ofKey? j = Bound.ofKey? k) :
        ¬ (entries.contains j = true ∧ entries.contains k = true) := by
      rintro ⟨hj, hk⟩
      obtain ⟨v, hv⟩ := Option.isSome_iff_exists.1 hj
      obtain ⟨w, hw⟩ := Option.isSome_iff_exists.1 hk
      have symmetric : Std.Symm fun e e' : String × Value =>
          Bound.ofKey? e.1 ≠ Bound.ofKey? e'.1 := ⟨fun _ _ h => h.symm⟩
      refine h.forall ((Table.From.get?_eq_some_iff _).1 hv) ((Table.From.get?_eq_some_iff _).1 hw)
        (fun he => hne (congrArg Prod.fst he)) same
    exact ⟨apart (by decide) (by decide), apart (by decide) (by decide)⟩
  · rintro ⟨oneMin, oneMax⟩
    refine entries.pairwise_toList.imp_of_mem fun {e e'} he he' lt same => ?_
    have there {e : String × Value} (he : e ∈ entries.toList) : entries.contains e.1 = true :=
      Table.From.contains_iff_mem_keys.2 (List.mem_map_of_mem he)
    obtain ⟨b, hb⟩ := mem_keys_iff.1 (known _ (there he))
    have hb' := same ▸ hb
    rw [Bound.ofKey?_eq_some_iff] at hb hb'
    rcases Bound.two_spellings hb hb' lt with ⟨hj, hk⟩ | ⟨hj, hk⟩
    · exact oneMin ⟨hj ▸ there he, hk ▸ there he'⟩
    · exact oneMax ⟨hj ▸ there he, hk ▸ there he'⟩

/-- A value is read as a range if it is a range as it is to be written. -/
theorem exists_ofValue_iff {v : Value} : (∃ range, ofValue v = .ok range) ↔ Written v := by
  cases v with
  | map entries =>
    have each : (∀ e ∈ entries.toList, unbounded.Takes e) ↔
        (∀ key, entries.contains key = true → key ∈ keys) ∧
          ∀ key v, entries.get? key = some v → ∃ n, v = .number n := by
      simp only [Takes, unbounded_get?, and_true]
      constructor
      · intro h
        have entry {key : String} {v : Value} (hv : entries.get? key = some v) :=
          h (key, v) ((Table.From.get?_eq_some_iff _).1 hv)
        refine ⟨fun key hk => ?_, fun key v hv => ?_⟩
        · obtain ⟨v, hv⟩ := Option.isSome_iff_exists.1 hk
          obtain ⟨b, _, hb, _⟩ := entry hv
          exact mem_keys_iff.2 ⟨b, hb⟩
        · obtain ⟨_, n, _, hn⟩ := entry hv
          exact ⟨n, hn⟩
      · rintro ⟨known, number⟩ e he
        have hv := (Table.From.get?_eq_some_iff _).2 he
        obtain ⟨b, hb⟩ := mem_keys_iff.1 (known e.1 (Table.From.contains_of_get? hv))
        obtain ⟨n, hn⟩ := number e.1 e.2 hv
        exact ⟨b, n, hb, hn⟩
    simp only [ofValue, exists_foldlM_iff, each]
    constructor
    · rintro ⟨⟨known, number⟩, apart⟩
      obtain ⟨oneMin, oneMax⟩ := (pairwise_ofKey?_iff known).1 apart
      exact ⟨entries, rfl, known, number, oneMin, oneMax⟩
    · rintro ⟨_, he, written⟩
      cases he
      exact ⟨⟨written.known, written.number⟩,
        (pairwise_ofKey?_iff written.known).2 ⟨written.oneMin, written.oneMax⟩⟩
  | _ =>
    refine ⟨fun h => ?_, fun h => ?_⟩
    · obtain ⟨_, h⟩ := h
      cases h
    · obtain ⟨_, h, _⟩ := h
      cases h

/-! ## Bounds of the same exact values -/

/-- The same bounds are set, at numbers of the same exact values. -/
def Same (r r' : Range) : Prop :=
  ∀ b, Option.Rel (fun n m => n.extended = m.extended) (r.get? b) (r'.get? b)

theorem Same.refl (r : Range) : r.Same r := by
  intro b
  cases r.get? b with
  | none => exact .none
  | some n => exact .some rfl

theorem Same.set {r r' : Range} (h : r.Same r') (b : Bound) {n n' : Number}
    (hn : n.extended = n'.extended) : (r.set b n).Same (r'.set b n') := by
  intro b'
  rw [get?_set, get?_set]
  split
  · exact .some hn
  · exact h b'

theorem admits_congr {b : Bound} {n n' x x' : Number} (hn : n.extended = n'.extended)
    (hx : x.extended = x'.extended) : b.admits n x = b.admits n' x' := by
  have same := Number.compare?_congr hn hx
  have same' := Number.compare?_congr hx hn
  cases b <;> simp only [Bound.admits, Number.atMost, Number.less, Number.equals, same, same']

theorem Same.contains_eq {r r' : Range} (h : r.Same r') {x x' : Number}
    (hx : x.extended = x'.extended) : r.contains x = r'.contains x' := by
  refine congrArg Bound.all.all (funext fun b => ?_)
  have hb := h b
  generalize r.get? b = n, r'.get? b = n' at hb
  cases hb with
  | none => rfl
  | some hn => exact admits_congr hn hx

theorem Same.containsCount_eq {r r' : Range} (h : r.Same r') (n : Nat) :
    r.containsCount n = r'.containsCount n :=
  h.contains_eq rfl

end Range

end Conform
