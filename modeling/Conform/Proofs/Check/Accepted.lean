/-
What checkers accept. Each way of making a checker has a condition under which
the checker accepts a value, told in terms of what the checkers it is made of
accept. How the others are rejected is left out here.
-/
import Conform.Check.Node
import Conform.Proofs.Table

namespace Conform.Checker

/-! ## Tests, one after another -/

variable {r : Except Rejection Unit} {v : Value}

theorem accepts_iff {c : Checker} : c.accepts v = true ↔ c v = .ok () := by
  unfold accepts
  cases c v with
  | ok u => exact ⟨fun _ => rfl, fun _ => rfl⟩
  | error e => exact ⟨fun h => absurd h Bool.false_ne_true, fun h => by cases h⟩

@[simp] theorem accept_eq : accept = .ok () := rfl

@[simp] theorem reject_ne (k : CoreKind) (message : String) : reject k message ≠ .ok () :=
  fun h => by cases h

@[simp] theorem rejectUnexpected_ne (k : CoreKind) (expected : String) :
    rejectUnexpected k expected v ≠ .ok () := reject_ne k _

/-- A test is passed if its condition is met. -/
theorem guard_ok_iff {c : Prop} [Decidable c] {k : CoreKind} {message : String} :
    (if c then accept else reject k message) = .ok () ↔ c := by
  by_cases h : c
  · simp [h]
  · simp [h]

theorem then_ok_iff {next : Unit → Except Rejection Unit} :
    (r >>= next) = .ok () ↔ r = .ok () ∧ next () = .ok () := by
  cases r with
  | ok u => exact ⟨fun h => ⟨rfl, h⟩, fun h => h.2⟩
  | error e => exact ⟨fun h => (nomatch h), fun h => (nomatch h.1)⟩

theorem mapError_ok_iff (f : Rejection → Rejection) : r.mapError f = .ok () ↔ r = .ok () := by
  cases r with
  | ok u => exact Iff.rfl
  | error e => exact ⟨fun h => (nomatch h), fun h => (nomatch h)⟩

@[simp] theorem inside_ok_iff (k : CoreKind) : inside k r = .ok () ↔ r = .ok () :=
  mapError_ok_iff _

@[simp] theorem replacing_ok_iff (path : String) : replacing path r = .ok () ↔ r = .ok () :=
  mapError_ok_iff _

theorem optionally_ok_iff {α : Type} {test : Option α} {f : α → Except Rejection Unit} :
    optionally test f = .ok () ↔ ∀ a, test = some a → f a = .ok () := by
  cases test <;> simp [optionally]

/-- A test of every item is passed if no item fails it. -/
theorem forM_ok_iff {α : Type} {l : List α} {f : α → Except Rejection Unit} :
    l.forM f = .ok () ↔ ∀ a ∈ l, f a = .ok () := by
  induction l with
  | nil => simp [List.forM, pure, Except.pure]
  | cons a l ih =>
    have h : (a :: l).forM f = (f a >>= fun _ => l.forM f) := rfl
    rw [h, then_ok_iff, ih, List.forall_mem_cons]

/-- What is left over of a value is accepted if there is nothing left over, or if there
is a checker for it and this one accepts it. -/
theorem remainder_ok_iff {nothing : Prop} [Decidable nothing] {rest : Option Checker} {k : CoreKind}
    {message : String} {wrap : Except Rejection Unit → Except Rejection Unit}
    (hw : ∀ {r}, wrap r = .ok () ↔ r = .ok ()) :
    (if nothing then accept
      else
        match rest with
        | none => reject k message
        | some c => wrap (c v)) = .ok () ↔
      (¬ nothing → ∃ c, rest = some c ∧ c v = .ok ()) := by
  by_cases h : nothing
  · simp [h]
  · cases rest with
    | none => simp [h]
    | some c => simp [h, hw]

/-! ## Kinds that look at the value itself -/

theorem boolean_ok_iff : boolean v = .ok () ↔ ∃ b, v = .bool b := by
  cases v <;> simp [boolean]

theorem date_ok_iff : date v = .ok () ↔ ∃ d, v = .date d := by
  cases v <;> simp [date]

theorem time_ok_iff : time v = .ok () ↔ ∃ t, v = .time t := by
  cases v <;> simp [time]

theorem defined_ok_iff : defined v = .ok () ↔ v ≠ .null := by
  cases v <;> simp [defined]

theorem nil_ok_iff : nil v = .ok () ↔ v = .null := by
  cases v <;> simp [nil]

theorem scalar_ok_iff :
    scalar v = .ok () ↔ (∃ n, v = .number n) ∨ (∃ s, v = .string s) ∨ ∃ b, v = .bool b := by
  cases v <;> simp [scalar]

/-- A number keeps to what is asked of it. -/
structure NumberTest.Met (test : NumberTest) (n : Number) : Prop where
  range : ∀ range, test.range = some range → range.contains n = true
  value : ∀ want, test.value = some want → want.equals n = true

/-- A string keeps to what is asked of it. -/
structure StringTest.Met (test : StringTest) (s : String) : Prop where
  length : ∀ range, test.length = some range → range.containsCount s.length = true
  value : ∀ want, test.value = some want → want = s

theorem numberFor_ok_iff {k : CoreKind} {test : NumberTest} :
    numberFor k test v = .ok () ↔ ∃ n, v = .number n ∧ test.Met n := by
  cases v with
  | number n =>
    simp only [numberFor, rejectUnexpected, then_ok_iff, optionally_ok_iff, guard_ok_iff]
    refine ⟨fun h => ⟨n, rfl, h.1, h.2⟩, fun h => ?_⟩
    obtain ⟨_, hn, met⟩ := h
    cases hn
    exact ⟨met.range, met.value⟩
  | _ => simp [numberFor]

theorem number_ok_iff {test : NumberTest} :
    number test v = .ok () ↔ ∃ n, v = .number n ∧ test.Met n := numberFor_ok_iff

theorem integer_ok_iff {test : NumberTest} :
    integer test v = .ok () ↔ ∃ n, v = .number n ∧ test.Met n ∧ n.isIntegral = true := by
  simp only [integer, rejectUnexpected, then_ok_iff, numberFor_ok_iff, guard_ok_iff]
  refine ⟨fun h => ?_, fun h => ?_⟩
  · obtain ⟨⟨n, rfl, met⟩, integral⟩ := h
    exact ⟨n, rfl, met, integral⟩
  · obtain ⟨n, rfl, met, integral⟩ := h
    exact ⟨⟨n, rfl, met⟩, integral⟩

theorem string_ok_iff {test : StringTest} :
    string test v = .ok () ↔ ∃ s, v = .string s ∧ test.Met s := by
  cases v with
  | string s =>
    simp only [string, rejectUnexpected, then_ok_iff, optionally_ok_iff, guard_ok_iff]
    refine ⟨fun h => ⟨s, rfl, h.1, h.2⟩, fun h => ?_⟩
    obtain ⟨_, hs, met⟩ := h
    cases hs
    exact ⟨met.length, met.value⟩
  | _ => simp [string]

/-! ## Kinds that combine checkers -/

theorem all_ok_iff {parts : List Checker} :
    all parts v = .ok () ↔ ∀ c ∈ parts, c v = .ok () := by
  simp only [all, forM_ok_iff, inside_ok_iff]

theorem any_ok_iff {choices : List Checker} :
    any choices v = .ok () ↔ ∃ c ∈ choices, c v = .ok () := by
  simp only [any, guard_ok_iff, List.any_eq_true, accepts_iff]

theorem array_ok_iff {contents : Checker} {length : Option Range} :
    array contents length v = .ok () ↔
      ∃ items, v = .seq items ∧
        (∀ range, length = some range → range.containsCount items.length = true) ∧
          ∀ item ∈ items, contents item = .ok () := by
  cases v with
  | seq items =>
    simp only [array, then_ok_iff, optionally_ok_iff, guard_ok_iff, forM_ok_iff, inside_ok_iff]
    refine ⟨fun h => ⟨items, rfl, h.1, h.2⟩, fun h => ?_⟩
    obtain ⟨_, hs, length, accepted⟩ := h
    cases hs
    exact ⟨length, accepted⟩
  | _ => simp [array]

theorem map_ok_iff {values : Checker} :
    map values v = .ok () ↔
      ∃ given, v = .map given ∧ ∀ name w, given.get? name = some w → values w = .ok () := by
  cases v with
  | map given =>
    simp only [map, forM_ok_iff, inside_ok_iff]
    refine ⟨fun h => ⟨given, rfl, ?_⟩, fun h => ?_⟩
    · intro name w hw
      exact h (name, w) ((Table.From.get?_eq_some_iff given).1 hw)
    · obtain ⟨_, hm, h⟩ := h
      cases hm
      intro e he
      exact h e.1 e.2 ((Table.From.get?_eq_some_iff given).2 he)
  | _ => simp [map]

theorem sequence_ok_iff {contents : List Checker} {tail : Option Checker} :
    sequence contents tail v = .ok () ↔
      ∃ items, v = .seq items ∧ contents.length ≤ items.length ∧
        (∀ p ∈ contents.zip items, p.1 p.2 = .ok ()) ∧
          (contents.length < items.length →
            ∃ c, tail = some c ∧ c (.seq (items.drop contents.length)) = .ok ()) := by
  cases v with
  | seq items =>
    simp only [sequence]
    split
    · next short =>
      refine ⟨fun h => absurd h (reject_ne _ _), fun h => ?_⟩
      obtain ⟨_, hs, enough, _⟩ := h
      cases hs
      omega
    · next enough =>
      simp only [then_ok_iff, forM_ok_iff, inside_ok_iff]
      refine ⟨fun h => ⟨items, rfl, by omega, h.1, fun more => ?_⟩, fun h => ?_⟩
      · exact (remainder_ok_iff (inside_ok_iff _)).1 h.2 (by omega)
      · obtain ⟨_, hs, _, positions, beyond⟩ := h
        cases hs
        exact ⟨positions, (remainder_ok_iff (inside_ok_iff _)).2 fun more => beyond (by omega)⟩
  | _ => simp [sequence]

/-- The members of a map that a record does not declare. -/
def undeclared (required optional : Table Checker) (given : Table Value) : Table Value :=
  given.filterKeys fun name => (field? required optional name).isNone

theorem record_map_ok_iff {required optional : Table Checker} {rest : Option Checker}
    {given : Table Value} :
    record required optional rest (.map given) = .ok () ↔
      (∀ name w c, given.get? name = some w → field? required optional name = some c →
        c w = .ok ()) ∧
      (∀ name, required.contains name = true → given.contains name = true) ∧
      ((undeclared required optional given).isEmpty = false →
        ∃ c, rest = some c ∧ c (.map (undeclared required optional given)) = .ok ()) := by
  have declared : (given.toList.forM fun e =>
        match field? required optional e.1 with
        | none => accept
        | some c => replacing (fieldPath e.1) (c e.2)) = .ok () ↔
      ∀ name w c, given.get? name = some w → field? required optional name = some c →
        c w = .ok () := by
    rw [forM_ok_iff]
    refine ⟨fun h => ?_, fun h => ?_⟩
    · intro name w c hw hc
      have he := h (name, w) ((Table.From.get?_eq_some_iff given).1 hw)
      simpa [hc] using he
    · intro e he
      have hw := (Table.From.get?_eq_some_iff given).2 he
      split
      · rfl
      · next c hc => exact (replacing_ok_iff _).2 (h e.1 e.2 c hw hc)
  have present : (required.keys.find? fun name => !given.contains name) = none ↔
      ∀ name, required.contains name = true → given.contains name = true := by
    simp only [List.find?_eq_none, Bool.not_eq_true', Bool.not_eq_false,
      Table.From.contains_iff_mem_keys]
  simp only [record, then_ok_iff]
  refine ⟨fun h => ?_, fun h => ?_⟩
  · obtain ⟨fields, h⟩ := h
    refine ⟨declared.1 fields, ?_⟩
    split at h
    · exact absurd h (reject_ne _ _)
    · next found =>
      refine ⟨present.1 found, fun more => ?_⟩
      exact (remainder_ok_iff (replacing_ok_iff _)).1 h (ne_true_of_eq_false more)
  · obtain ⟨fields, all, beyond⟩ := h
    refine ⟨declared.2 fields, ?_⟩
    rw [present.2 all]
    exact (remainder_ok_iff (replacing_ok_iff _)).2 fun more => beyond (eq_false_of_ne_true more)

theorem record_ok_iff {required optional : Table Checker} {rest : Option Checker} :
    record required optional rest v = .ok () ↔
      ∃ given, v = .map given ∧ record required optional rest (.map given) = .ok () := by
  cases v <;> simp [record]

end Conform.Checker
