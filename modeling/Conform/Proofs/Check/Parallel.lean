/-
Nodes that are put together in the same way, of parts that are related
(`Node.Parallel`). What is asked of numbers and strings may be spelled
differently in the two, but has to come to the same.

If the parts of one accept no less than those of the other, then so does the
node (`Node.Looser.of_parallel`): a part that accepts more never makes the whole
accept less.
-/
import Conform.Proofs.Check.Accepted
import Conform.Proofs.Range

namespace Conform

/-- Something holds of what there is in two related options, or of what there would be. -/
theorem forall_some_iff {α β : Type} {R : α → β → Prop} {P : α → Prop} {Q : β → Prop} {o : Option α}
    {o' : Option β} (h : Option.Rel R o o') (hR : ∀ a b, R a b → (P a ↔ Q b)) :
    (∀ a, o = some a → P a) ↔ ∀ b, o' = some b → Q b := by
  cases h with
  | none => simp
  | some h => simp [hR _ _ h]

/-! ## Tests that ask the same -/

namespace Checker

/-- Two tests of numbers ask the same. -/
structure NumberTest.Same (test test' : NumberTest) : Prop where
  range : Option.Rel Range.Same test.range test'.range
  value : Option.Rel (fun n m => n.extended = m.extended) test.value test'.value

/-- Two tests of strings ask the same. -/
structure StringTest.Same (test test' : StringTest) : Prop where
  value : test.value = test'.value
  length : Option.Rel Range.Same test.length test'.length

theorem NumberTest.Same.met_iff {test test' : NumberTest} (h : test.Same test') {n n' : Number}
    (hn : n.extended = n'.extended) : test.Met n ↔ test'.Met n' := by
  have range : (∀ range, test.range = some range → range.contains n = true) ↔
      ∀ range, test'.range = some range → range.contains n' = true :=
    forall_some_iff h.range fun _ _ same => by rw [same.contains_eq hn]
  have value : (∀ want, test.value = some want → want.equals n = true) ↔
      ∀ want, test'.value = some want → want.equals n' = true :=
    forall_some_iff h.value fun _ _ same => by
      rw [Number.equals, Number.equals, Number.compare?_congr same hn]
  exact ⟨fun met => ⟨range.1 met.range, value.1 met.value⟩,
    fun met => ⟨range.2 met.range, value.2 met.value⟩⟩

theorem length_iff {length length' : Option Range} (h : Option.Rel Range.Same length length')
    {n : Nat} :
    (∀ range, length = some range → range.containsCount n = true) ↔
      ∀ range, length' = some range → range.containsCount n = true :=
  forall_some_iff h fun _ _ same => by rw [same.containsCount_eq]

theorem StringTest.Same.met_iff {test test' : StringTest} (h : test.Same test') {s : String} :
    test.Met s ↔ test'.Met s := by
  have value := h.value
  exact ⟨fun met => ⟨(length_iff h.length).1 met.length, value ▸ met.value⟩,
    fun met => ⟨(length_iff h.length).2 met.length, value ▸ met.value⟩⟩

end Checker

/-! ## Nodes put together in the same way -/

namespace Node

/-- Nodes of one kind that ask the same of the value itself, with nodes inside that are related. -/
inductive Parallel (R : Node → Node → Prop) : Node → Node → Prop
  | all {parts parts' : List Node} (h : List.Forall₂ R parts parts') :
      Parallel R (.all parts) (.all parts')
  | any {choices choices' : List Node} (h : List.Forall₂ R choices choices') :
      Parallel R (.any choices) (.any choices')
  | anything : Parallel R .anything .anything
  | array {contents contents' : Node} {length length' : Option Range} (h : R contents contents')
      (same : Option.Rel Range.Same length length') :
      Parallel R (.array contents length) (.array contents' length')
  | boolean : Parallel R .boolean .boolean
  | date : Parallel R .date .date
  | defined : Parallel R .defined .defined
  | fail : Parallel R .fail .fail
  | integer {test test' : Checker.NumberTest} (same : test.Same test') :
      Parallel R (.integer test) (.integer test')
  | map {values values' : Node} (h : R values values') : Parallel R (.map values) (.map values')
  | nil : Parallel R .nil .nil
  | number {test test' : Checker.NumberTest} (same : test.Same test') :
      Parallel R (.number test) (.number test')
  | scalar : Parallel R .scalar .scalar
  | record {required required' optional optional' : Table Node} {rest rest' : Option Node}
      (hr : required.Rel (fun _ => R) required') (ho : optional.Rel (fun _ => R) optional')
      (h : Option.Rel R rest rest') :
      Parallel R (.record required optional rest) (.record required' optional' rest')
  | sequence {contents contents' : List Node} {tail tail' : Option Node}
      (h : List.Forall₂ R contents contents') (ht : Option.Rel R tail tail') :
      Parallel R (.sequence contents tail) (.sequence contents' tail')
  | string {test test' : Checker.StringTest} (same : test.Same test') :
      Parallel R (.string test) (.string test')
  | time : Parallel R .time .time

variable {S : Checker → Checker → Prop}

theorem forall₂_checkers {ns ns' : List Node}
    (h : List.Forall₂ (fun n n' => S n.checker n'.checker) ns ns') :
    List.Forall₂ S (checkers ns) (checkers ns') := by
  rwa [checkers_eq, checkers_eq, List.forall₂_map_left_iff, List.forall₂_map_right_iff]

theorem rel_fieldCheckers {t t' : Table Node}
    (h : t.Rel (fun _ n n' => S n.checker n'.checker) t') :
    (fieldCheckers t).Rel (fun _ => S) (fieldCheckers t') := by
  rw [fieldCheckers_eq, fieldCheckers_eq]
  exact h.map

theorem rel_checker? {n n' : Option Node}
    (h : Option.Rel (fun n n' => S n.checker n'.checker) n n') :
    Option.Rel S (checker? n) (checker? n') := by
  cases h with
  | none => exact .none
  | some h => exact .some h

end Node

namespace Checker

variable {S : Checker → Checker → Prop} {required required' optional optional' : Table Checker}

theorem rel_field? (hr : required.Rel (fun _ => S) required')
    (ho : optional.Rel (fun _ => S) optional') (name : String) :
    Option.Rel S (field? required optional name) (field? required' optional' name) := by
  unfold field?
  have h := hr.get? name
  generalize required.get? name = c, required'.get? name = c' at h
  cases h with
  | none => exact ho.get? name
  | some h => exact .some h

/-- The same fields are declared. -/
theorem isNone_field?_eq (hr : required.Rel (fun _ => S) required')
    (ho : optional.Rel (fun _ => S) optional') :
    (fun name => (field? required optional name).isNone) =
      fun name => (field? required' optional' name).isNone := by
  funext name
  have h := rel_field? hr ho name
  generalize field? required optional name = c, field? required' optional' name = c' at h
  cases h <;> rfl

/-! ## Accepting no less -/

/-- A checker accepts whatever another one accepts. -/
def Looser (c c' : Checker) : Prop := ∀ v, c v = .ok () → c' v = .ok ()

namespace Looser

theorem all {parts parts' : List Checker} (h : List.Forall₂ Looser parts parts') :
    Looser (all parts) (all parts') := by
  intro v accepted
  rw [all_ok_iff] at accepted ⊢
  intro c' hc'
  obtain ⟨c, hc, looser⟩ := h.exists_of_mem_right hc'
  exact looser v (accepted c hc)

theorem any {choices choices' : List Checker} (h : List.Forall₂ Looser choices choices') :
    Looser (any choices) (any choices') := by
  intro v accepted
  rw [any_ok_iff] at accepted ⊢
  obtain ⟨c, hc, accepted⟩ := accepted
  obtain ⟨c', hc', looser⟩ := h.exists_of_mem hc
  exact ⟨c', hc', looser v accepted⟩

theorem array {contents contents' : Checker} {length length' : Option Range}
    (h : Looser contents contents') (same : Option.Rel Range.Same length length') :
    Looser (array contents length) (array contents' length') := by
  intro v accepted
  rw [array_ok_iff] at accepted ⊢
  obtain ⟨items, rfl, within, accepted⟩ := accepted
  exact ⟨items, rfl, (length_iff same).1 within, fun item hi => h item (accepted item hi)⟩

theorem map {values values' : Checker} (h : Looser values values') :
    Looser (map values) (map values') := by
  intro v accepted
  rw [map_ok_iff] at accepted ⊢
  obtain ⟨given, rfl, accepted⟩ := accepted
  exact ⟨given, rfl, fun name w hw => h w (accepted name w hw)⟩

theorem positions {contents contents' : List Checker} (h : List.Forall₂ Looser contents contents')
    {items : List Value} (accepted : ∀ p ∈ contents.zip items, p.1 p.2 = .ok ()) :
    ∀ p ∈ contents'.zip items, p.1 p.2 = .ok () := by
  induction h generalizing items with
  | nil => exact accepted
  | cons head _ ih =>
    cases items with
    | nil => exact accepted
    | cons item items =>
      rw [List.zip_cons_cons, List.forall_mem_cons] at accepted ⊢
      exact ⟨head item accepted.1, ih accepted.2⟩

/-- What is left over of a value is accepted by what is there for it. -/
theorem remainder {rest rest' : Option Checker} (h : Option.Rel Looser rest rest') {v : Value}
    (accepted : ∃ c, rest = some c ∧ c v = .ok ()) : ∃ c, rest' = some c ∧ c v = .ok () := by
  obtain ⟨c, rfl, accepted⟩ := accepted
  cases h with
  | some looser => exact ⟨_, rfl, looser v accepted⟩

theorem sequence {contents contents' : List Checker} {tail tail' : Option Checker}
    (h : List.Forall₂ Looser contents contents') (ht : Option.Rel Looser tail tail') :
    Looser (sequence contents tail) (sequence contents' tail') := by
  intro v accepted
  rw [sequence_ok_iff] at accepted ⊢
  obtain ⟨items, rfl, enough, accepted, beyond⟩ := accepted
  rw [h.length_eq] at enough beyond
  exact ⟨items, rfl, enough, positions h accepted, fun more => remainder ht (beyond more)⟩

theorem record {rest rest' : Option Checker} (hr : required.Rel (fun _ => Looser) required')
    (ho : optional.Rel (fun _ => Looser) optional') (h : Option.Rel Looser rest rest') :
    Looser (record required optional rest) (record required' optional' rest') := by
  intro v accepted
  rw [record_ok_iff] at accepted ⊢
  obtain ⟨given, rfl, accepted⟩ := accepted
  refine ⟨given, rfl, ?_⟩
  have others : undeclared required' optional' given = undeclared required optional given :=
    congrArg given.filterKeys (isNone_field?_eq hr ho).symm
  rw [record_map_ok_iff] at accepted ⊢
  obtain ⟨fields, present, beyond⟩ := accepted
  refine ⟨fun name w c' hw hc' => ?_, fun name asked => ?_, fun more => ?_⟩
  · have declared := rel_field? hr ho name
    rw [hc'] at declared
    generalize hc : field? required optional name = c at declared
    cases declared with
    | some looser => exact looser w (fields name w _ hw hc)
  · exact present name (hr.contains_eq name ▸ asked)
  · rw [others] at more ⊢
    exact remainder h (beyond more)

end Looser

end Checker

namespace Node

/-- A node accepts whatever another one accepts. -/
def Looser (n n' : Node) : Prop := n.checker.Looser n'.checker

theorem Looser.refl (n : Node) : n.Looser n := fun _ accepted => accepted

theorem Looser.accepts {n n' : Node} (h : n.Looser n') {v : Value} (accepted : n.accepts v = true) :
    n'.accepts v = true :=
  Checker.accepts_iff.2 (h v (Checker.accepts_iff.1 accepted))

theorem Looser.of_accepts {n n' : Node} (h : ∀ v, n.accepts v = true → n'.accepts v = true) :
    n.Looser n' :=
  fun v accepted => Checker.accepts_iff.1 (h v (Checker.accepts_iff.2 accepted))

theorem Looser.of_parallel {n n' : Node} (h : Parallel Looser n n') : n.Looser n' := by
  cases h with
  | all h => exact Checker.Looser.all (forall₂_checkers h)
  | any h => exact Checker.Looser.any (forall₂_checkers h)
  | array h same => exact Checker.Looser.array h same
  | map h => exact Checker.Looser.map h
  | record hr ho h =>
    exact Checker.Looser.record (rel_fieldCheckers hr) (rel_fieldCheckers ho) (rel_checker? h)
  | sequence h ht => exact Checker.Looser.sequence (forall₂_checkers h) (rel_checker? ht)
  | number same =>
    intro v accepted
    obtain ⟨n, rfl, met⟩ := Checker.number_ok_iff.1 accepted
    exact Checker.number_ok_iff.2 ⟨n, rfl, (same.met_iff rfl).1 met⟩
  | integer same =>
    intro v accepted
    obtain ⟨n, rfl, met, integral⟩ := Checker.integer_ok_iff.1 accepted
    exact Checker.integer_ok_iff.2 ⟨n, rfl, (same.met_iff rfl).1 met, integral⟩
  | string same =>
    intro v accepted
    obtain ⟨s, rfl, met⟩ := Checker.string_ok_iff.1 accepted
    exact Checker.string_ok_iff.2 ⟨s, rfl, same.met_iff.1 met⟩
  | anything | boolean | date | defined | fail | nil | scalar | time => exact fun _ h => h

end Node

end Conform
