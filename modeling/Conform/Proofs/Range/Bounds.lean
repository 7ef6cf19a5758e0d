/-
Ranges, from the map they are written in to the numbers they contain. If a map
is not a range as it is to be written, the least key at which reading fails is
the one that is told (`Range.ofValue_map_error_iff`). It comes first in the list
of all that is wrong with the map (`Range.head?_faults`). A range that is read has
exactly the bounds of its map (`Range.get?_of_ofValue`), in whichever spelling,
and contains the numbers whose exact values keep to each of them
(`Range.contains_iff_kept`).
-/
import Conform.Proofs.Range

namespace Conform

namespace Bound

/-- How the place of a number is to lie to that of a limit. -/
def Relation : Bound → EReal → EReal → Prop
  | min, limit, x => limit ≤ x
  | minExclusive, limit, x => limit < x
  | maxExclusive, limit, x => x < limit
  | max, limit, x => x ≤ limit

theorem admits_iff {b : Bound} {limit x : Number} :
    b.admits limit x = true ↔ Number.Related b.Relation limit x := by
  cases b with
  | min => exact Number.atMost_iff_related
  | minExclusive => exact Number.less_iff_related
  | maxExclusive => exact Number.less_iff_related.trans Number.Related.flip
  | max => exact Number.atMost_iff_related.trans Number.Related.flip

theorem mem_all (b : Bound) : b ∈ all := by
  cases b <;> decide

end Bound

namespace Range

theorem contains_iff {r : Range} {x : Number} :
    r.contains x = true ↔ ∀ b limit, r.get? b = some limit → Number.Related b.Relation limit x := by
  simp only [contains, List.all_eq_true, Bound.mem_all, true_implies, ← Bound.admits_iff]
  refine forall_congr' fun b => ?_
  cases r.get? b <;> simp

theorem ext_get? {r r' : Range} (h : ∀ b, r.get? b = r'.get? b) : r = r' := by
  have hmin := h .min
  have hminEx := h .minExclusive
  have hmaxEx := h .maxExclusive
  have hmax := h .max
  cases r
  cases r'
  simp_all [get?]

/-! ## The bounds that are read -/

/-- What a bound is set at after some entries: at what it was set before, or at the number that
an entry gives for it. -/
theorem get?_of_foldlM {l : List (String × Value)} {r r' : Range}
    (h : l.foldlM (fun r e => r.addEntry e.1 e.2) r = .ok r') (b : Bound) (n : Number) :
    r'.get? b = some n ↔
      r.get? b = some n ∨ ∃ e ∈ l, Bound.ofKey? e.1 = some b ∧ e.2 = .number n := by
  induction l generalizing r with
  | nil => cases h; simp
  | cons e l ih =>
    rw [List.foldlM_cons] at h
    cases hr : r.addEntry e.1 e.2 with
    | error e => rw [hr] at h; cases h
    | ok r₁ =>
      rw [hr] at h
      obtain ⟨b', n', hb, hn, free, rfl⟩ := addEntry_ok_iff.1 hr
      rw [ih h, get?_set]
      by_cases same : b = b'
      · subst same
        simp [free, hb, hn, eq_comm]
      · have other : Bound.ofKey? e.1 ≠ some b := by
          rw [hb]
          simpa using Ne.symm same
        simp [same, other]

variable {entries : Table Value} {r : Range}

/-- A range has the bounds that its map gives, in either spelling. -/
theorem get?_of_ofValue (h : ofValue (.map entries) = .ok r) (b : Bound) (n : Number) :
    r.get? b = some n ↔ ∃ key ∈ b.spellings, entries.get? key = some (.number n) := by
  rw [get?_of_foldlM h, unbounded_get?]
  simp only [reduceCtorEq, false_or, Bound.ofKey?_eq_some_iff]
  constructor
  · rintro ⟨e, he, hb, hn⟩
    exact ⟨e.1, hb, hn ▸ (Table.From.get?_eq_some_iff _).2 he⟩
  · rintro ⟨key, hb, hn⟩
    exact ⟨(key, .number n), (Table.From.get?_eq_some_iff _).1 hn, hb, rfl⟩

/-! ## The key that is blamed -/

/-- Reading a map of bounds fails at a key, with an error: the key names no bound, or there is no
number for it, or else the bound has been given already. The hyphen comes before the underscore,
so it is the spelling with the underscore that repeats a bound. -/
inductive Fault (entries : Table Value) (key : String) : SchemaError → Prop
  | unknown (there : entries.contains key = true) (h : key ∉ keys) :
      Fault entries key (.unknownRangeBound key)
  | notNumber {v : Value} (there : entries.get? key = some v) (known : key ∈ keys)
      (h : ∀ n, v ≠ .number n) : Fault entries key (.invalidRangeBound key (.notNumber v))
  | repeated {n : Number} {other : String} (there : entries.get? key = some (.number n))
      (spellings : (other = "min-ex" ∧ key = "min_exclusive") ∨
        (other = "max-ex" ∧ key = "max_exclusive"))
      (given : entries.contains other = true) :
      Fault entries key (.invalidRangeBound key .repeated)

theorem mem_keys_of_spellings {other key : String}
    (spellings : (other = "min-ex" ∧ key = "min_exclusive") ∨
      (other = "max-ex" ∧ key = "max_exclusive")) : key ∈ keys := by
  rcases spellings with ⟨-, rfl⟩ | ⟨-, rfl⟩ <;> decide

theorem Fault.unique {key : String} {e e' : SchemaError} (h : Fault entries key e)
    (h' : Fault entries key e') : e = e' := by
  cases h with
  | unknown there unknown =>
    cases h' with
    | unknown => rfl
    | notNumber _ known => exact absurd known unknown
    | repeated _ spellings => exact absurd (mem_keys_of_spellings spellings) unknown
  | notNumber there known notNumber =>
    cases h' with
    | unknown _ unknown => exact absurd known unknown
    | notNumber there' =>
      cases there.symm.trans there'
      rfl
    | repeated there' =>
      cases there.symm.trans there'
      exact absurd rfl (notNumber _)
  | repeated there spellings =>
    cases h' with
    | unknown _ unknown => exact absurd (mem_keys_of_spellings spellings) unknown
    | notNumber there' _ notNumber =>
      cases there.symm.trans there'
      exact absurd rfl (notNumber _)
    | repeated => rfl

theorem Fault.not_written {key : String} {e : SchemaError} (h : Fault entries key e) :
    ¬ WrittenIn entries := by
  intro written
  cases h with
  | unknown there unknown => exact unknown (written.known _ there)
  | notNumber there _ notNumber =>
    obtain ⟨n, hn⟩ := written.number _ _ there
    exact notNumber n hn
  | repeated there spellings given =>
    have there := Table.From.contains_of_get? there
    rcases spellings with ⟨rfl, rfl⟩ | ⟨rfl, rfl⟩
    · exact written.oneMin ⟨given, there⟩
    · exact written.oneMax ⟨given, there⟩

/-- The first entry that cannot be taken. -/
theorem exists_of_foldlM_error {l : List (String × Value)} {r : Range} {e : SchemaError}
    (h : l.foldlM (fun r e => r.addEntry e.1 e.2) r = .error e) :
    ∃ before key v after r', l = before ++ (key, v) :: after ∧
      before.foldlM (fun r e => r.addEntry e.1 e.2) r = .ok r' ∧ r'.addEntry key v = .error e := by
  induction l generalizing r with
  | nil => cases h
  | cons a l ih =>
    rw [List.foldlM_cons] at h
    cases hr : r.addEntry a.1 a.2 with
    | error e' =>
      rw [hr] at h
      cases h
      exact ⟨[], a.1, a.2, l, r, rfl, rfl, hr⟩
    | ok r₁ =>
      rw [hr] at h
      obtain ⟨before, key, v, after, r', rfl, taken, stops⟩ := ih h
      refine ⟨a :: before, key, v, after, r', rfl, ?_, stops⟩
      rw [List.foldlM_cons, hr]
      exact taken

section

variable {before after : List (String × Value)} {key : String} {v : Value}

/-- An entry that cannot be taken after those in front of it is at fault. -/
theorem fault_of_addEntry {e : SchemaError} (split : entries.toList = before ++ (key, v) :: after)
    (taken : before.foldlM (fun r e => r.addEntry e.1 e.2) unbounded = .ok r)
    (stops : r.addEntry key v = .error e) : Fault entries key e := by
  have there : entries.get? key = some v := by
    rw [Table.From.get?_eq_some_iff, split]
    simp
  unfold addEntry at stops
  split at stops
  · next unnamed =>
    cases stops
    refine .unknown (Table.From.contains_of_get? there) fun known => ?_
    obtain ⟨b, hb⟩ := mem_keys_iff.1 known
    rw [unnamed] at hb
    cases hb
  next b hb =>
  have known : key ∈ keys := mem_keys_iff.2 ⟨b, hb⟩
  split at stops
  · next n =>
    split at stops
    · next isSet =>
      cases stops
      obtain ⟨n', hn'⟩ := Option.isSome_iff_exists.1 isSet
      rw [get?_of_foldlM taken, unbounded_get?] at hn'
      obtain ⟨e, he, hb', -⟩ := hn'.resolve_left (by simp)
      have sorted := entries.pairwise_toList
      rw [split, List.pairwise_append] at sorted
      have lt := sorted.2.2 e he (key, _) List.mem_cons_self
      rw [Bound.ofKey?_eq_some_iff] at hb hb'
      refine .repeated there (Bound.two_spellings hb' hb lt) ?_
      refine Table.From.contains_of_get? (v := e.2) ?_
      rw [Table.From.get?_eq_some_iff, split]
      exact List.mem_append_left _ he
    · cases stops
  · next notNumber =>
    cases stops
    exact .notNumber there known notNumber

/-- Where entries have been taken there is no fault. -/
theorem no_fault_of_foldlM (split : entries.toList = before ++ (key, v) :: after)
    (taken : before.foldlM (fun r e => r.addEntry e.1 e.2) unbounded = .ok r) {j : String}
    (lt : j < key) (e : SchemaError) : ¬ Fault entries j e := by
  obtain ⟨each, apart⟩ := exists_foldlM_iff.1 ⟨r, taken⟩
  -- what stands at a lesser key has been taken
  have early {i : String} {w : Value} (lt : i < key) (hw : entries.get? i = some w) :
      (i, w) ∈ before := Table.From.mem_of_lt split lt hw
  intro h
  cases h with
  | unknown there unknown =>
    obtain ⟨w, hw⟩ := Option.isSome_iff_exists.1 there
    obtain ⟨b, n, hb, _⟩ := each _ (early lt hw)
    exact unknown (mem_keys_iff.2 ⟨b, hb⟩)
  | notNumber there _ notNumber =>
    obtain ⟨b, n, _, hn, _⟩ := each _ (early lt there)
    exact notNumber n hn
  | @repeated n other there spellings given =>
    obtain ⟨w, hw⟩ := Option.isSome_iff_exists.1 given
    have before : other < j := by
      rcases spellings with ⟨rfl, rfl⟩ | ⟨rfl, rfl⟩ <;> decide
    have same : Bound.ofKey? other = Bound.ofKey? j := by
      rcases spellings with ⟨rfl, rfl⟩ | ⟨rfl, rfl⟩ <;> rfl
    have symmetric : Std.Symm fun e e' : String × Value =>
        Bound.ofKey? e.1 ≠ Bound.ofKey? e'.1 := ⟨fun _ _ h => h.symm⟩
    refine apart.forall (early (String.lt_trans before lt) hw) (early lt there) ?_ same
    intro equal
    cases equal
    exact String.lt_irrefl _ before

end

/-- The least key at which reading a map of bounds fails, with its error. -/
def FirstFault (entries : Table Value) (key : String) (e : SchemaError) : Prop :=
  Fault entries key e ∧ ∀ j < key, ∀ e', ¬ Fault entries j e'

theorem exists_firstFault {e : SchemaError} (h : ofValue (.map entries) = .error e) :
    ∃ key, FirstFault entries key e := by
  obtain ⟨before, key, v, after, r, split, taken, stops⟩ := exists_of_foldlM_error h
  exact ⟨key, fault_of_addEntry split taken stops, fun j lt => no_fault_of_foldlM split taken lt⟩

theorem FirstFault.unique {key key' : String} {e e' : SchemaError} (h : FirstFault entries key e)
    (h' : FirstFault entries key' e') : e = e' := by
  rcases Std.lt_trichotomy key key' with lt | rfl | gt
  · exact absurd h.1 (h'.2 key lt e)
  · exact h.1.unique h'.1
  · exact absurd h'.1 (h.2 key' gt e')

theorem ofValue_map_error_iff {e : SchemaError} :
    ofValue (.map entries) = .error e ↔ ∃ key, FirstFault entries key e := by
  refine ⟨exists_firstFault, fun ⟨key, first⟩ => ?_⟩
  cases h : ofValue (.map entries) with
  | ok r =>
    obtain ⟨_, he, written⟩ := exists_ofValue_iff.1 ⟨r, h⟩
    cases he
    exact absurd written first.1.not_written
  | error e' =>
    obtain ⟨key', first'⟩ := exists_firstFault h
    rw [first.unique first']

/-- A value that is no map is at fault as a whole. -/
theorem ofValue_not_map {v : Value} (h : ∀ entries, v ≠ .map entries) :
    ofValue v = .error (.invalidRangeBound "range" (.notBounds v)) := by
  cases v with
  | map entries => exact absurd rfl (h entries)
  | _ => rfl

/-! ## All that can be blamed -/

/-- Has the bound that a key names been given under a lesser key? -/
def repeats (entries : Table Value) (key : String) : Bool :=
  (key == "min_exclusive" && entries.contains "min-ex") ||
    (key == "max_exclusive" && entries.contains "max-ex")

/-- What is wrong with an entry of a map of bounds. -/
def fault? (entries : Table Value) (key : String) (v : Value) : Option SchemaError :=
  if key ∈ keys then
    match v with
    | .number _ => if repeats entries key then some (.invalidRangeBound key .repeated) else none
    | v => some (.invalidRangeBound key (.notNumber v))
  else some (.unknownRangeBound key)

/-- Everything that is wrong with a value in the place of a range, by key. -/
def faults : Value → List SchemaError
  | .map entries => entries.toList.filterMap fun e => fault? entries e.1 e.2
  | v => [.invalidRangeBound "range" (.notBounds v)]

theorem repeats_iff {key : String} :
    repeats entries key = true ↔
      ∃ other, ((other = "min-ex" ∧ key = "min_exclusive") ∨
        (other = "max-ex" ∧ key = "max_exclusive")) ∧ entries.contains other = true := by
  simp only [repeats, Bool.or_eq_true, Bool.and_eq_true, beq_iff_eq]
  constructor
  · rintro (⟨hk, given⟩ | ⟨hk, given⟩)
    · exact ⟨"min-ex", .inl ⟨rfl, hk⟩, given⟩
    · exact ⟨"max-ex", .inr ⟨rfl, hk⟩, given⟩
  · rintro ⟨_, ⟨rfl, hk⟩ | ⟨rfl, hk⟩, given⟩
    · exact .inl ⟨hk, given⟩
    · exact .inr ⟨hk, given⟩

theorem fault?_eq_some_iff {key : String} {v : Value} {e : SchemaError}
    (there : entries.get? key = some v) : fault? entries key v = some e ↔ Fault entries key e := by
  constructor
  · intro h
    unfold fault? at h
    split at h
    · next known =>
      split at h
      · split at h
        · next again =>
          cases h
          obtain ⟨_, spellings, given⟩ := repeats_iff.1 again
          exact .repeated there spellings given
        · cases h
      · next notNumber =>
        cases h
        exact .notNumber there known notNumber
    · next unknown =>
      cases h
      exact .unknown (Table.From.contains_of_get? there) unknown
  · intro h
    unfold fault?
    cases h with
    | unknown _ unknown => rw [if_neg unknown]
    | notNumber there' known notNumber =>
      cases there.symm.trans there'
      rw [if_pos known]
      cases v with
      | number n => exact absurd rfl (notNumber n)
      | _ => rfl
    | repeated there' spellings given =>
      cases there.symm.trans there'
      rw [if_pos (mem_keys_of_spellings spellings)]
      exact if_pos (repeats_iff.2 ⟨_, spellings, given⟩)

theorem Fault.there {key : String} {e : SchemaError} (h : Fault entries key e) :
    ∃ v, entries.get? key = some v := by
  cases h with
  | unknown there _ => exact Option.isSome_iff_exists.1 there
  | notNumber there _ _ | repeated there _ _ => exact ⟨_, there⟩

/-- Reading a range fails for the first of all that is wrong with it. -/
theorem head?_faults {v : Value} {e : SchemaError} :
    (faults v).head? = some e ↔ ofValue v = .error e := by
  cases v with
  | map entries =>
    rw [ofValue_map_error_iff, faults, List.head?_filterMap, List.findSome?_eq_some_iff]
    constructor
    · rintro ⟨before, ⟨key, v⟩, after, split, found, none⟩
      have there : entries.get? key = some v := by
        rw [Table.From.get?_eq_some_iff, split]
        simp
      refine ⟨key, (fault?_eq_some_iff there).1 found, fun j lt e' fault => ?_⟩
      obtain ⟨w, hw⟩ := fault.there
      have found' := (fault?_eq_some_iff hw).2 fault
      rw [none (j, w) (Table.From.mem_of_lt split lt hw)] at found'
      cases found'
    · rintro ⟨key, fault, least⟩
      obtain ⟨v, hv⟩ := fault.there
      obtain ⟨before, after, split, lt⟩ := Table.From.exists_split hv
      refine ⟨before, (key, v), after, split, (fault?_eq_some_iff hv).2 fault, ?_⟩
      rintro ⟨j, w⟩ hj
      have hw : entries.get? j = some w := by
        rw [Table.From.get?_eq_some_iff, split]
        exact List.mem_append_left _ hj
      cases found : fault? entries j w with
      | none => rfl
      | some e' => exact absurd ((fault?_eq_some_iff hw).1 found) (least j (lt _ hj) e')
  | _ => simp [faults, ofValue]

/-! ## Spellings -/

/-- The map with what stands at one key put at another. -/
def moved (entries : Table Value) (j k : String) : Table Value :=
  match entries.get? j with
  | none => entries
  | some v => Table.insert (entries.filterKeys fun i => i != j) k v

theorem get?_moved {j k : String} {v : Value} (h : entries.get? j = some v) (i : String) :
    (moved entries j k).get? i = if i = k then some v else if i = j then none else entries.get? i := by
  rw [moved, h]
  simp only [Table.get?_insert, Table.From.get?_filterKeys]
  split
  · rfl
  · by_cases hi : i = j <;> simp [hi]

/-- No bound is given in two spellings. -/
theorem WrittenIn.same_spelling (written : WrittenIn entries) {b : Bound} {j k : String}
    (hj : j ∈ b.spellings) (hk : k ∈ b.spellings) (there : entries.contains j = true)
    (other : entries.contains k = true) : j = k := by
  rcases Std.lt_trichotomy j k with lt | same | gt
  · rcases Bound.two_spellings hj hk lt with ⟨rfl, rfl⟩ | ⟨rfl, rfl⟩
    · exact absurd ⟨there, other⟩ written.oneMin
    · exact absurd ⟨there, other⟩ written.oneMax
  · exact same
  · rcases Bound.two_spellings hk hj gt with ⟨rfl, rfl⟩ | ⟨rfl, rfl⟩
    · exact absurd ⟨other, there⟩ written.oneMin
    · exact absurd ⟨other, there⟩ written.oneMax

section

variable {b : Bound} {j k : String} (hj : j ∈ b.spellings) (hk : k ∈ b.spellings) {v : Value}
  (there : entries.get? j = some v)

include hj hk there

/-- A bound is given the same after its key has been replaced. -/
theorem WrittenIn.given_moved_iff (written : WrittenIn entries) (b' : Bound) (w : Value) :
    (∃ key ∈ b'.spellings, (moved entries j k).get? key = some w) ↔
      ∃ key ∈ b'.spellings, entries.get? key = some w := by
  have one {key : String} (h : key ∈ b.spellings) (h' : key ∈ b'.spellings) : b = b' := by
    rw [← Bound.ofKey?_eq_some_iff] at h h'
    exact Option.some.inj (h.symm.trans h')
  simp only [get?_moved there]
  constructor
  · rintro ⟨key, hkey, h⟩
    by_cases isNew : key = k
    · subst isNew
      rw [if_pos rfl] at h
      exact ⟨j, one hk hkey ▸ hj, there.trans h⟩
    · rw [if_neg isNew] at h
      by_cases isOld : key = j
      · rw [if_pos isOld] at h
        cases h
      · rw [if_neg isOld] at h
        exact ⟨key, hkey, h⟩
  · rintro ⟨key, hkey, h⟩
    by_cases isOld : key = j
    · subst isOld
      exact ⟨k, one hj hkey ▸ hk, by rw [if_pos rfl, ← there, h]⟩
    · by_cases isNew : key = k
      · subst isNew
        have same := written.same_spelling hj hk (Table.From.contains_of_get? there)
          (Table.From.contains_of_get? h)
        exact absurd same.symm isOld
      · exact ⟨key, hkey, by rw [if_neg isNew, if_neg isOld, h]⟩

theorem WrittenIn.moved (written : WrittenIn entries) : WrittenIn (moved entries j k) := by
  -- what stands in the new map is the entry that has been put there, or an old one
  have cases_of {i : String} {w : Value} (h : (Range.moved entries j k).get? i = some w) :
      (i = k ∧ w = v) ∨ (i ≠ j ∧ entries.get? i = some w) := by
    rw [get?_moved there] at h
    split at h
    · next isNew => cases h; exact .inl ⟨isNew, rfl⟩
    · split at h
      · cases h
      · next ne => exact .inr ⟨ne, h⟩
  have present {i : String} (h : (Range.moved entries j k).contains i = true) :
      i = k ∨ (i ≠ j ∧ entries.contains i = true) := by
    obtain ⟨w, hw⟩ := Option.isSome_iff_exists.1 h
    rcases cases_of hw with ⟨isNew, -⟩ | ⟨ne, old⟩
    · exact .inl isNew
    · exact .inr ⟨ne, Table.From.contains_of_get? old⟩
  have known {i : String} {b : Bound} (h : i ∈ b.spellings) : i ∈ keys :=
    mem_keys_iff.2 ⟨b, Bound.ofKey?_eq_some_iff.2 h⟩
  have there' : entries.contains j = true := Table.From.contains_of_get? there
  -- the new key and an old one would be two spellings of one bound in the old map
  have fresh {p : String} {b' : Bound} (hk' : k ∈ b'.spellings) (hp : p ∈ b'.spellings)
      (old : p ≠ j ∧ entries.contains p = true) : False := by
    rw [← Bound.ofKey?_eq_some_iff] at hk hk'
    obtain rfl : b = b' := Option.some.inj (hk.symm.trans hk')
    exact old.1 (written.same_spelling hp hj old.2 there')
  have apart (b' : Bound) {p q : String} (hp : p ∈ b'.spellings) (hq : q ∈ b'.spellings)
      (ne : p ≠ q) : ¬ ((Range.moved entries j k).contains p = true ∧
        (Range.moved entries j k).contains q = true) := by
    rintro ⟨hp', hq'⟩
    rcases present hp' with rfl | oldP <;> rcases present hq' with rfl | oldQ
    · exact ne rfl
    · exact fresh hp hq oldQ
    · exact fresh hq hp oldP
    · exact ne (written.same_spelling hp hq oldP.2 oldQ.2)
  constructor
  · intro i h
    rcases present h with rfl | ⟨-, old⟩
    · exact known hk
    · exact written.known i old
  · intro i w h
    rcases cases_of h with ⟨-, rfl⟩ | ⟨-, old⟩
    · exact written.number j w there
    · exact written.number i w old
  · exact apart .minExclusive (by decide) (by decide) (by decide)
  · exact apart .maxExclusive (by decide) (by decide) (by decide)

end

/-- It makes no difference to a range how its bounds are spelt. -/
theorem ofValue_moved {b : Bound} {j k : String} (hj : j ∈ b.spellings) (hk : k ∈ b.spellings)
    (h : ofValue (.map entries) = .ok r) : ofValue (.map (moved entries j k)) = .ok r := by
  cases there : entries.get? j with
  | none => rw [moved, there, h]
  | some v =>
    obtain ⟨_, he, written⟩ := exists_ofValue_iff.1 ⟨r, h⟩
    cases he
    obtain ⟨r', h'⟩ := exists_ofValue_iff.2 ⟨_, rfl, written.moved hj hk there⟩
    have same : r' = r := by
      refine ext_get? fun b' => Option.ext fun n => ?_
      rw [get?_of_ofValue h', get?_of_ofValue h, written.given_moved_iff hj hk there]
    rw [h', same]

/-! ## What a range contains -/

/-- A number keeps to every bound that a map gives: the exact values of both lie as the bound
has it. -/
def Kept (entries : Table Value) (x : Number) : Prop :=
  ∀ b : Bound, ∀ key ∈ b.spellings, ∀ limit, entries.get? key = some (.number limit) →
    Number.Related b.Relation limit x

theorem contains_iff_kept (h : ofValue (.map entries) = .ok r) {x : Number} :
    r.contains x = true ↔ Kept entries x := by
  simp only [contains_iff, get?_of_ofValue h]
  constructor
  · intro all b key hkey limit given
    exact all b limit ⟨key, hkey, given⟩
  · rintro all b limit ⟨key, hkey, given⟩
    exact all b key hkey limit given

/-- NaN keeps to no bound, and nothing keeps to a bound that is NaN. -/
theorem not_contains_of_nan (h : ofValue (.map entries) = .ok r) {key : String} {limit x : Number}
    (given : entries.get? key = some (.number limit))
    (nan : x = .float .nan ∨ limit = .float .nan) : r.contains x = false := by
  refine eq_false_of_ne_true fun inside => ?_
  obtain ⟨_, he, written⟩ := exists_ofValue_iff.1 ⟨r, h⟩
  cases he
  obtain ⟨b, hb⟩ := mem_keys_iff.1 (written.known key (Table.From.contains_of_get? given))
  obtain ⟨N, X, hN, hX, -⟩ :=
    (contains_iff_kept h).1 inside b key (Bound.ofKey?_eq_some_iff.1 hb) limit given
  rcases nan with rfl | rfl
  · cases hX
  · cases hN

/-- Ranges are read and applied exactly. A value is read as a range if it is written as one; if it
is a map, the least key at which reading fails is told. A range that is read contains the numbers
whose exact values keep to each bound that is given, and none where NaN is compared; and it is the
same range if a bound is spelt in its other way. -/
theorem read_and_applied_exactly (v : Value) :
    ((∃ r, ofValue v = .ok r) ↔ Written v) ∧
    (∀ e, ofValue v = .error e ↔
      ((∀ entries, v ≠ .map entries) ∧ e = .invalidRangeBound "range" (.notBounds v)) ∨
        ∃ entries key, v = .map entries ∧ FirstFault entries key e) ∧
    ∀ entries r, v = .map entries → ofValue v = .ok r →
      (∀ x, r.contains x = true ↔ Kept entries x) ∧
      (∀ key limit x, entries.get? key = some (.number limit) →
        x = .float .nan ∨ limit = .float .nan → r.contains x = false) ∧
      ∀ b : Bound, ∀ j ∈ b.spellings, ∀ k ∈ b.spellings,
        ofValue (.map (moved entries j k)) = .ok r := by
  refine ⟨exists_ofValue_iff, fun e => ?fault, ?applied⟩
  case fault =>
    by_cases h : ∃ entries, v = .map entries
    · obtain ⟨entries, rfl⟩ := h
      rw [ofValue_map_error_iff]
      simp
    · have h := not_exists.1 h
      rw [ofValue_not_map h]
      simp [h, eq_comm]
  case applied =>
    rintro entries r rfl h
    exact ⟨fun x => contains_iff_kept h, fun key limit x given nan => not_contains_of_nan h given nan,
      fun b j hj k hk => ofValue_moved hj hk h⟩

/-- A range with a bound at NaN contains nothing, though it is read, in either spelling. -/
theorem read_and_applied_exactly_at_nan :
    ∃ r, ofValue (.map (.cons "max_exclusive" trivial (.number (.float .nan))
        (.cons "min-ex" (by decide) (.number (.int 0)) .nil))) = .ok r ∧
      r.contains (.int 1) = false ∧
      ofValue (.map (moved (.cons "max_exclusive" trivial (.number (.float .nan))
        (.cons "min-ex" (by decide) (.number (.int 0)) .nil)) "max_exclusive" "max-ex")) = .ok r := by
  obtain ⟨_, _, applied⟩ := read_and_applied_exactly (.map (.cons "max_exclusive" trivial
    (.number (.float .nan)) (.cons "min-ex" (by decide) (.number (.int 0)) .nil)))
  obtain ⟨_, nan, moved⟩ := applied _ ⟨none, some (.int 0), some (.float .nan), none⟩ rfl rfl
  exact ⟨_, rfl, nan "max_exclusive" (.float .nan) (.int 1) rfl (.inr rfl),
    moved .maxExclusive "max_exclusive" (by decide) "max-ex" (by decide)⟩

end Range

end Conform
