/-
Registries without kinds of a user's own. What compiles in them is made of core
kinds through and through (`Registry.Sound.isCore_of_compile_ok`), and so it is
known of every rejection where it comes from (`Registry.rejected_at_first_fault`).
-/
import Conform.Proofs.Check.Descent
import Conform.Proofs.Meaning.Faithful

namespace Conform

namespace CoreKind

variable {sub : Value → Logged Node} {members : Table Value}

theorem mem_inner_of_declares {k : CoreKind} {p name : String} {fields : Table Value} {part : Value}
    (hs : (p, .fields) ∈ k.signature) (h : Declares members p fields)
    (hp : fields.get? name = some part) : part ∈ k.inner members :=
  mem_inner_of_declared hs (h.declared_eq ▸ hp)

/-- The nodes inside the node that a kind makes are those of the schemas inside. -/
theorem Makes.exists_of_mem_parts {k : CoreKind} {n m : Node} (h : Makes sub members k n)
    (hm : m ∈ n.parts) : ∃ part ∈ k.inner members, (sub part).result = .ok m := by
  have single {k' : CoreKind} {p : String} {o : Option Node} (hs : (p, .schema) ∈ k'.signature)
      (h : Option.Rel (fun v n => (sub v).result = .ok n) (members.get? p) o)
      (hm : m ∈ o.toList) : ∃ part ∈ k'.inner members, (sub part).result = .ok m := by
    rw [Option.mem_toList] at hm
    subst hm
    generalize hv : members.get? p = given at h
    cases h with
    | @some v _ h => exact ⟨v, mem_inner_of_schema hs hv, h⟩
  cases h with
  | all of _ h | any of _ h =>
    obtain ⟨part, hp, ok⟩ := h.exists_of_mem_right hm
    exact ⟨part, mem_inner_of_schemas (by decide) of hp, ok⟩
  | array contents h _ =>
    rw [List.mem_singleton.1 hm]
    exact ⟨_, mem_inner_of_schema (by decide) contents, h⟩
  | map values h =>
    rw [List.mem_singleton.1 hm]
    exact ⟨_, mem_inner_of_schema (by decide) values, h⟩
  | record hd hr hd' ho h =>
    simp only [Node.parts, List.mem_append, List.mem_map, Prod.exists, exists_eq_right] at hm
    rcases hm with (⟨name, hm⟩ | ⟨name, hm⟩) | hm
    · obtain ⟨part, hp, ok⟩ := hr.get?_right ((Table.From.get?_eq_some_iff _).2 hm)
      exact ⟨part, mem_inner_of_declares (by decide) hd hp, ok⟩
    · obtain ⟨part, hp, _, ok⟩ := ho.get?_right ((Table.From.get?_eq_some_iff _).2 hm)
      exact ⟨part, mem_inner_of_declares (by decide) hd' hp, ok⟩
    · exact single (by decide) h hm
  | sequence contents _ h ht =>
    rcases List.mem_append.1 hm with hm | hm
    · obtain ⟨part, hp, ok⟩ := h.exists_of_mem_right hm
      exact ⟨part, mem_inner_of_schemas (by decide) contents hp, ok⟩
    · exact single (by decide) ht hm
  | anything | boolean | date | defined | fail | integer | nil | number | scalar | string | time =>
    cases hm

/-- A node that a core kind makes of nodes of core kinds is of core kinds. -/
theorem Makes.isCore {k : CoreKind} {n : Node} (h : Makes sub members k n)
    (inside : ∀ part ∈ k.inner members, ∀ m, (sub part).result = .ok m → m.IsCore) : n.IsCore := by
  refine ⟨fun uri checker hn => ?_, fun m hm => ?_⟩
  · subst hn
    cases h
  · obtain ⟨part, hp, ok⟩ := h.exists_of_mem_parts hm
    exact inside part hp m ok

end CoreKind

namespace Registry

variable {r : Registry}

/-- No kind of a user's own is registered. -/
def CoreOnly (r : Registry) : Prop := ∀ uri k, r.entry? uri ≠ some (.kind (.custom k))

theorem coreOnly_core : core.CoreOnly := by
  intro uri k h
  obtain ⟨before, after, types, _⟩ := List.lookup_eq_some_iff.1 h
  have there : (uri, Entry.kind (.custom k)) ∈ core.types := types ▸ by simp
  obtain ⟨kind, _, he⟩ := List.mem_map.1 there
  cases he

theorem Sound.isCore_of_compile_ok (sound : r.Sound) (only : r.CoreOnly) {schema : Value} {n : Node}
    (hn : (r.compile schema).result = .ok n) : n.IsCore := by
  induction schema using sound.calls_wellFounded.induction generalizing n with
  | _ schema ih =>
    obtain ⟨⟨uri, members, e⟩, hs⟩ := sound.resolve_of_compile_ok hn
    obtain ⟨_, _, _, _, he⟩ := resolve_ok_iff.1 hs
    cases e with
    | learned stored =>
      rw [sound.compile_learned hs] at hn
      split at hn
      · cases hn
      · exact ih stored (.learned hs) hn
    | kind k =>
      rw [sound.compile_kind hs] at hn
      cases k with
      | custom k => exact absurd he (only uri k)
      | core k =>
        refine (CoreKind.construct_ok_iff.1 hn).2.isCore fun part hp m hm => ?_
        exact ih part (.inside (k := .core k) hs hp) hm

theorem isCore_of_reachable (h : r.Reachable) (only : r.CoreOnly) {schema : Value} {n : Node}
    (hn : (r.compile schema).result = .ok n) : n.IsCore :=
  h.sound.isCore_of_compile_ok only hn

/-- A node of core kinds rejects a value at the first fault that is found on the way down,
with a path that tells this location and no other. Whatever compiles where there are only
core kinds is such a node. -/
theorem rejected_at_first_fault :
    (∀ n : Node, n.IsCore → ∀ v,
      (∀ rejection, n.validate v = .error rejection →
        ∃ l, n.RejectsAt v l ∧ rejection.path = l.path ∧ ∀ l', rejection.path = l'.path → l' = l) ∧
      ∀ l, n.RejectsAt v l → ∃ message, n.validate v = .error ⟨message, l.path⟩) ∧
    ∀ r : Registry, r.Reachable → r.CoreOnly → ∀ schema n, (r.compile schema).result = .ok n →
      n.IsCore := by
  refine ⟨fun n core v => ⟨fun rejection h => ?_, fun l hl => hl.validate_eq⟩, ?_⟩
  · obtain ⟨l, hl⟩ := core.located v (by rw [h]; exact fun h => (nomatch h))
    obtain ⟨message, hm⟩ := hl.validate_eq
    cases h.symm.trans hm
    exact ⟨l, hl, rfl, fun l' same => Location.path_injective same.symm⟩
  · exact fun r h only schema n hn => isCore_of_reachable h only hn

/-- The second schema of two rejects, in it the first item of a sequence, which is a record
with a bad field. What the field has against its value is not told. -/
theorem rejected_at_field :
    let schema (kind parameter : String) (v : Value) : Value :=
      .map (Table.ofList [("type", .string kind), (parameter, v)])
    let field := schema "//arr" "contents" (.string "//int")
    let item := schema "//rec" "required" (.map (Table.ofList [("x", field)]))
    let items := schema "//seq" "contents" (.seq [item])
    let whole := schema "//all" "of" (.seq [.string "//def", items])
    let numbers : Node := .array (.integer ⟨none, none⟩) none
    let n : Node :=
      .all [.defined, .sequence [.record (Table.ofList [("x", numbers)]) .nil none] none]
    let v : Value := .seq [.map (Table.ofList [("x", .seq [.string "one"])])]
    core.Reachable ∧ core.CoreOnly ∧ (core.compile whole).result = .ok n ∧ n.IsCore ∧
      (n.validate v = .error ⟨"expected number got \"one\"", "/all/seq/rec:'x'"⟩) ∧
      n.RejectsAt v (.inside .all (.inside .sequence (.field "x"))) := by
  intro schema field item items whole numbers n v
  have hn : (core.compile whole).result = .ok n := by
    unfold whole items item field schema n numbers
    rfl
  have hv : n.validate v = .error ⟨"expected number got \"one\"", "/all/seq/rec:'x'"⟩ := by
    unfold n v numbers
    rfl
  have isCore := rejected_at_first_fault.2 core .core coreOnly_core whole n hn
  obtain ⟨l, hl, _, unique⟩ := (rejected_at_first_fault.1 n isCore v).1 _ hv
  rw [← unique (.inside .all (.inside .sequence (.field "x"))) rfl] at hl
  exact ⟨.core, coreOnly_core, hn, isCore, hv, hl⟩

end Registry

end Conform
