/-
Checkers do not look at how numbers are written. A node answers alike to two
values of the same content: it accepts both, or it rejects both with the same
path (`Node.Blind.of_parallel`). The wording of a rejection may differ, for it
tells the value as it is written.

It makes no difference either how the numbers in a test are written. So the
statement is about two nodes that are put together in the same way.
-/
import Conform.Proofs.Check.Parallel
import Conform.Proofs.Check.Rejected
import Conform.Proofs.Value.Content

namespace Conform

namespace Checker

/-! ## Answers that agree -/

/-- Two answers that differ in their wording at most: a value is accepted by both, or
rejected by both with the same path. -/
inductive Agree : Except Rejection Unit → Except Rejection Unit → Prop
  | accepted : Agree (.ok ()) (.ok ())
  | rejected {message message' path : String} :
      Agree (.error ⟨message, path⟩) (.error ⟨message', path⟩)

namespace Agree

variable {r r' : Except Rejection Unit} {k : CoreKind}

theorem ok_iff (h : Agree r r') : r = .ok () ↔ r' = .ok () := by
  cases h with
  | accepted => exact Iff.rfl
  | rejected => exact ⟨fun h => (nomatch h), fun h => (nomatch h)⟩

/-- Answers that are reported at one path agree if one accepts whenever the other does. -/
theorem of_reports {path : String} (hr : Reports path r) (hr' : Reports path r')
    (h : r = .ok () ↔ r' = .ok ()) : Agree r r' := by
  by_cases accepted : r = .ok ()
  · rw [accepted, h.1 accepted]
    exact .accepted
  · obtain ⟨message, rfl⟩ := hr.exists_message accepted
    obtain ⟨message', rfl⟩ := hr'.exists_message fun accepted' => accepted (h.2 accepted')
    exact .rejected

theorem bind {next next' : Unit → Except Rejection Unit} (h : Agree r r')
    (hn : Agree (next ()) (next' ())) : Agree (r >>= next) (r' >>= next') := by
  cases h with
  | accepted => exact hn
  | rejected => exact .rejected

theorem inside (h : Agree r r') : Agree (inside k r) (inside k r') := by
  cases h with
  | accepted => exact .accepted
  | rejected => exact .rejected

theorem replacing {path : String} (h : Agree r r') :
    Agree (replacing path r) (replacing path r') := by
  cases h with
  | accepted => exact .accepted
  | rejected => exact .rejected

theorem ite {c c' : Prop} [Decidable c] [Decidable c'] (hc : c ↔ c')
    {s s' : Except Rejection Unit} (h : Agree r r') (hs : Agree s s') :
    Agree (if c then r else s) (if c' then r' else s') := by
  by_cases holds : c
  · rwa [if_pos holds, if_pos (hc.1 holds)]
  · rwa [if_neg holds, if_neg fun holds' => holds (hc.2 holds')]

theorem forM {α β : Type} {f : α → Except Rejection Unit} {g : β → Except Rejection Unit}
    {l : List α} {l' : List β} (h : List.Forall₂ (fun a b => Agree (f a) (g b)) l l') :
    Agree (l.forM f) (l'.forM g) := by
  induction h with
  | nil => exact .accepted
  | @cons a b l l' head _ ih =>
    show Agree (f a >>= fun _ => l.forM f) (g b >>= fun _ => l'.forM g)
    exact head.bind ih

end Agree

/-! ## Checkers that answer alike -/

/-- Two checkers answer alike to values of the same content. -/
def Blind (c c' : Checker) : Prop := ∀ v w, v.content = w.content → Agree (c v) (c' w)

namespace Blind

/-- Checkers that report all at one path answer alike if they accept alike. -/
theorem of_reports {c c' : Checker} {path : String} (hr : ∀ v, Reports path (c v))
    (hr' : ∀ v, Reports path (c' v))
    (h : ∀ {v w : Value}, v.Respelled w → (c v = .ok () ↔ c' w = .ok ())) : Blind c c' :=
  fun v w same => .of_reports (hr v) (hr' w) (h (Value.respelled_iff.2 same))

theorem boolean : Blind boolean boolean :=
  of_reports (fun _ => reports_boolean) (fun _ => reports_boolean) fun h => by
    cases h <;> simp [boolean_ok_iff]

theorem date : Blind date date :=
  of_reports (fun _ => reports_date) (fun _ => reports_date) fun h => by
    cases h <;> simp [date_ok_iff]

theorem time : Blind time time :=
  of_reports (fun _ => reports_time) (fun _ => reports_time) fun h => by
    cases h <;> simp [time_ok_iff]

theorem defined : Blind defined defined :=
  of_reports (fun _ => reports_defined) (fun _ => reports_defined) fun h => by
    cases h <;> simp [defined_ok_iff]

theorem nil : Blind nil nil :=
  of_reports (fun _ => reports_nil) (fun _ => reports_nil) fun h => by
    cases h <;> simp [nil_ok_iff]

theorem scalar : Blind scalar scalar :=
  of_reports (fun _ => reports_scalar) (fun _ => reports_scalar) fun h => by
    cases h <;> simp [scalar_ok_iff]

theorem number {test test' : NumberTest} (same : test.Same test') :
    Blind (number test) (number test') :=
  of_reports (fun _ => reports_numberFor) (fun _ => reports_numberFor) fun h => by
    rw [number_ok_iff, number_ok_iff]
    cases h with
    | number hn => simp [same.met_iff hn]
    | _ => simp

theorem integer {test test' : NumberTest} (same : test.Same test') :
    Blind (integer test) (integer test') :=
  of_reports (fun _ => reports_integer) (fun _ => reports_integer) fun h => by
    rw [integer_ok_iff, integer_ok_iff]
    cases h with
    | number hn => simp [same.met_iff hn, Number.isIntegral_congr hn]
    | _ => simp

theorem string {test test' : StringTest} (same : test.Same test') :
    Blind (string test) (string test') :=
  of_reports (fun _ => reports_string) (fun _ => reports_string) fun h => by
    rw [string_ok_iff, string_ok_iff]
    cases h with
    | string s => simp [same.met_iff]
    | _ => simp

theorem all {parts parts' : List Checker} (h : List.Forall₂ Blind parts parts') :
    Blind (all parts) (all parts') :=
  fun v w same => .forM (h.imp fun _ _ blind => (blind v w same).inside)

theorem any {choices choices' : List Checker} (h : List.Forall₂ Blind choices choices') :
    Blind (any choices) (any choices') := by
  intro v w same
  refine .of_reports (.ite reports_accept reports_reject) (.ite reports_accept reports_reject) ?_
  rw [any_ok_iff, any_ok_iff]
  refine ⟨fun accepted => ?_, fun accepted => ?_⟩
  · obtain ⟨c, hc, accepted⟩ := accepted
    obtain ⟨c', hc', blind⟩ := h.exists_of_mem hc
    exact ⟨c', hc', (blind v w same).ok_iff.1 accepted⟩
  · obtain ⟨c', hc', accepted⟩ := accepted
    obtain ⟨c, hc, blind⟩ := h.exists_of_mem_right hc'
    exact ⟨c, hc, (blind v w same).ok_iff.2 accepted⟩

theorem array {contents contents' : Checker} {length length' : Option Range}
    (h : Blind contents contents') (same : Option.Rel Range.Same length length') :
    Blind (array contents length) (array contents' length') := by
  intro v w hvw
  cases Value.respelled_iff.2 hvw with
  | seq items =>
    refine .bind ?_ (.forM (items.imp fun v w hvw => (h v w hvw).inside))
    cases same with
    | none => exact .accepted
    | some same => exact .ite (by rw [same.containsCount_eq, items.length_eq]) .accepted .rejected
  | _ => exact .rejected

theorem map {values values' : Checker} (h : Blind values values') :
    Blind (map values) (map values') := by
  intro v w same
  cases Value.respelled_iff.2 same with
  | map members => exact .forM (members.toList.imp fun e e' hw => (h e.2 e'.2 hw.2).inside)
  | _ => exact .rejected

theorem positions {contents contents' : List Checker} (h : List.Forall₂ Blind contents contents')
    {vs ws : List Value} (items : List.Forall₂ (fun v w => v.content = w.content) vs ws) :
    List.Forall₂ (fun p p' => Agree (p.1 p.2) (p'.1 p'.2)) (contents.zip vs)
      (contents'.zip ws) := by
  induction h generalizing vs ws with
  | nil => exact .nil
  | cons head _ ih =>
    cases items with
    | nil => exact .nil
    | cons item items => exact .cons (head _ _ item) (ih items)

theorem sequence {contents contents' : List Checker} {tail tail' : Option Checker}
    (h : List.Forall₂ Blind contents contents') (ht : Option.Rel Blind tail tail') :
    Blind (sequence contents tail) (sequence contents' tail') := by
  intro v w same
  cases Value.respelled_iff.2 same with
  | seq items =>
    refine .ite (by rw [items.length_eq, h.length_eq]) .rejected ?_
    refine .bind (.forM ((positions h items).imp fun _ _ agree => agree.inside)) ?_
    refine .ite (by rw [items.length_eq, h.length_eq]) .accepted ?_
    cases ht with
    | none => exact .rejected
    | some blind =>
      refine (blind _ _ (Value.respelled_iff.1 (.seq ?_))).inside
      rw [h.length_eq]
      exact List.forall₂_drop _ items
  | _ => exact .rejected

theorem record {required required' optional optional' : Table Checker} {rest rest' : Option Checker}
    (hr : required.Rel (fun _ => Blind) required') (ho : optional.Rel (fun _ => Blind) optional')
    (h : Option.Rel Blind rest rest') :
    Blind (record required optional rest) (record required' optional' rest') := by
  intro v w same
  cases Value.respelled_iff.2 same with
  | @map given given' members =>
    rw [record_map_eq, record_map_eq]
    refine .bind (.forM (members.toList.imp fun e e' he => ?_)) ?_
    · obtain ⟨name, w⟩ := e
      obtain ⟨_, w'⟩ := e'
      obtain ⟨rfl, hw⟩ := he
      have declared := rel_field? hr ho name
      unfold recordMember
      generalize field? required optional name = c, field? required' optional' name = c' at declared
      cases declared with
      | none => exact .accepted
      | some blind => exact (blind w w' hw).replacing
    have absent : (fun name => !given.contains name) = fun name => !given'.contains name := by
      funext name
      rw [members.contains_eq]
    -- what the record does not declare is the same in both maps, up to spelling
    have others : (undeclared required optional given).Rel (fun _ v w => v.content = w.content)
        (undeclared required' optional' given') := by
      rw [undeclared, undeclared, isNone_field?_eq hr ho]
      exact members.filterKeys _
    unfold recordRemainder
    rw [absent, hr.keys_eq]
    split
    · exact .rejected
    · refine .ite (by rw [others.isEmpty_eq]) .accepted ?_
      cases h with
      | none => exact .rejected
      | some blind => exact (blind _ _ (Value.respelled_iff.1 (.map others))).replacing
  | _ => exact .rejected

end Blind

end Checker

namespace Node

/-- Two nodes answer alike to values of the same content. -/
def Blind (n n' : Node) : Prop := n.checker.Blind n'.checker

theorem Blind.of_parallel {n n' : Node} (h : Parallel Blind n n') : n.Blind n' := by
  cases h with
  | all h => exact Checker.Blind.all (forall₂_checkers h)
  | any h => exact Checker.Blind.any (forall₂_checkers h)
  | anything => exact fun _ _ _ => .accepted
  | array h same => exact Checker.Blind.array h same
  | boolean => exact Checker.Blind.boolean
  | date => exact Checker.Blind.date
  | defined => exact Checker.Blind.defined
  | fail => exact fun _ _ _ => .rejected
  | integer same => exact Checker.Blind.integer same
  | map h => exact Checker.Blind.map h
  | nil => exact Checker.Blind.nil
  | number same => exact Checker.Blind.number same
  | scalar => exact Checker.Blind.scalar
  | record hr ho h =>
    exact Checker.Blind.record (rel_fieldCheckers hr) (rel_fieldCheckers ho) (rel_checker? h)
  | sequence h ht => exact Checker.Blind.sequence (forall₂_checkers h) (rel_checker? ht)
  | string same => exact Checker.Blind.string same
  | time => exact Checker.Blind.time

end Node

end Conform
