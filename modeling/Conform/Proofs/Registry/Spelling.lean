/-
How a number is written never matters to validation, `4` or `4.0`, neither in
the values that are checked nor in schemas. Values that are equal are accepted
or rejected alike by all that compiles, and schemas that are equal compile
alike, to nodes that accept and reject alike (`Registry.spelling_immaterial`).

Equal values have the same content, and that is all that is used: schemas are
followed part by part, and through learned types, along the way on which they
are compiled. The one thing that can tell two spellings apart is a kind of a
user's own, so there must not be any.
-/
import Conform.Proofs.Check.Spelling
import Conform.Proofs.Compile.Parallel
import Conform.Proofs.Registry.Context
import Conform.Proofs.Registry.CoreOnly

namespace Conform

/-- Values of the same content correspond, if parts of the same content do. -/
theorem Shape.Corresponds.of_content {C : Value → Value → Prop} {s : Shape} {v w : Value}
    (h : v.content = w.content)
    (parts : ∀ part ∈ s.parts v, ∀ part', part.content = part'.content → C part part') :
    s.Corresponds C v w := by
  have same := Value.respelled_iff.2 h
  cases s with
  | schema => exact .schema (parts v (List.mem_singleton_self v) w h)
  | schemas =>
    cases same with
    | seq items =>
      refine .schemas (((List.forall₂_and_left _ _).2 ⟨parts, items⟩).imp fun v w hvw => ?_)
      exact hvw.1 w hvw.2
    | _ => exact .notSchemas rfl rfl
  | fields =>
    cases same with
    | map members =>
      refine .fields (members.imp_of_mem fun name v w hv hvw => parts v ?_ w hvw)
      exact List.mem_map.2 ⟨(name, v), hv, rfl⟩
    | _ => exact .notFields rfl rfl
  | data => exact .data h

theorem typeName?_eq_of_content {members members' : Table Value}
    (h : members.Rel (fun _ v w => v.content = w.content) members') :
    typeName? members = typeName? members' := by
  unfold typeName?
  have ht := h.get? "type"
  generalize members.get? "type" = v, members'.get? "type" = w at ht
  cases ht with
  | none => rfl
  | some same => cases Value.respelled_iff.2 same <;> rfl

namespace Registry

variable {r : Registry}

/-- Two referents that differ in the spelling of parameters at most. -/
structure Referent.Respelled (a b : Referent) : Prop where
  uri : a.uri = b.uri
  members : a.members.Rel (fun _ v w => v.content = w.content) b.members
  entry : a.entry = b.entry

theorem resolve_respelled {s t : Value} (h : s.content = t.content) :
    SameOutcome Referent.Respelled (r.resolve s) (r.resolve t) := by
  have refl (a : Referent) : Referent.Respelled a a := ⟨rfl, .of_mem fun _ _ _ => rfl, rfl⟩
  cases Value.respelled_iff.2 h with
  | string name => exact .refl refl _
  | @map members members' same =>
    simp only [resolve, schemaMembers?, typeName?_eq_of_content same]
    split
    · exact .error rfl
    split
    · exact .error rfl
    split
    · exact .error rfl
    · exact .ok ⟨rfl, same, rfl⟩
  | _ => exact .error rfl

/-- Schemas of the same content compile to nodes that do not tell values of the same
content apart, or they fail alike. -/
theorem Sound.compile_respelled (sound : r.Sound) (only : r.CoreOnly) {s t : Value}
    (h : s.content = t.content) : CoreKind.CompileAlike Node.Blind r.compile s t := by
  -- induction on the schemas that are compiled on the way of compiling the first one; what
  -- the second one calls for has the same content, and a learned schema is the very same
  induction s using sound.calls_wellFounded.induction generalizing t with
  | _ s ih =>
    have same := r.resolve_respelled h
    generalize hs : r.resolve s = x, ht : r.resolve t = y at same
    cases same with
    | error alike =>
      rw [CoreKind.CompileAlike, sound.compile_of_resolve_error hs,
        sound.compile_of_resolve_error ht]
      exact .error alike
    | @ok a b same =>
      obtain ⟨uri, members, e⟩ := a
      obtain ⟨_, members', _⟩ := b
      obtain ⟨rfl, parameters, rfl⟩ := same
      cases e with
      | learned stored =>
        rw [CoreKind.CompileAlike, sound.compile_learned hs, sound.compile_learned ht,
          parameters.keys_eq]
        split
        · exact .error rfl
        · exact ih stored (.learned hs) rfl
      | kind k =>
        cases k with
        | custom k =>
          obtain ⟨_, _, _, _, he⟩ := resolve_ok_iff.1 hs
          exact absurd he (only uri k)
        | core k =>
          rw [CoreKind.CompileAlike, sound.compile_kind hs, sound.compile_kind ht]
          refine (CoreKind.construct_parallel ⟨parameters.keys_eq, fun p s hp => ?_⟩).imp
            fun _ _ => Node.Blind.of_parallel
          have hv := parameters.get? p
          generalize hg : members.get? p = v, members'.get? p = w at hv
          cases hv with
          | none => exact .none
          | some hv =>
            refine .some (.of_content hv fun part hpart part' same => ?_)
            exact ih part (.inside hs (CoreKind.mem_inner_iff.2 ⟨p, s, _, hp, hg, hpart⟩)) same

/-- Equality of values compares numbers by their exact values; it is symmetric and
transitive, and a value is equal to itself unless a NaN is in it. Where there are only core
kinds, equal values are accepted by the same compiled schemas and rejected with the same
paths, and equal schemas compile alike. -/
theorem spelling_immaterial :
    (∀ a b : Number, (Value.number a).equals (.number b) = true ↔
      ∃ x, a.extended = some x ∧ b.extended = some x) ∧
    (∀ v w : Value, v.equals w = true → w.equals v = true) ∧
    (∀ v w x : Value, v.equals w = true → w.equals x = true → v.equals x = true) ∧
    (∀ v : Value, v.equals v = true ↔ ¬ (Value.number (.float .nan)).Occurs v) ∧
    ∀ r : Registry, r.Reachable → r.CoreOnly →
      (∀ schema n, (r.compile schema).result = .ok n → ∀ v w : Value, v.equals w = true →
        Checker.Agree (n.validate v) (n.validate w)) ∧
      ∀ s t : Value, s.equals t = true →
        SameOutcome (fun n m => ∀ v, Checker.Agree (n.validate v) (m.validate v))
          (r.compile s).result (r.compile t).result := by
  refine ⟨fun a b => ?_, fun _ _ => Value.equals_symm, fun _ _ _ => Value.equals_trans,
    fun _ => Value.equals_self_iff, fun r h only => ⟨fun schema n hn v w hvw => ?_, ?_⟩⟩
  · show a.equals b = true ↔ _
    rw [Number.equals_iff, Ne, ← Number.extended_eq_none_iff]
    cases a.extended <;> simp [eq_comm]
  · have itself : schema.content = schema.content := rfl
    have blind := (h.sound.compile_respelled only itself).related hn hn
    exact blind v w ((Value.equals_iff v w).1 hvw).1
  · intro s t hst
    refine (h.sound.compile_respelled only ((Value.equals_iff s t).1 hst).1).imp ?_
    exact fun n m blind v => blind v v rfl

/-- A bound at 2^53, and a value just below, in both spellings; the value is rejected. -/
theorem spelling_immaterial_at_bound :
    let bound : Binary64 := .finite false 0x10000000000000 1 (by decide)
    let below : Binary64 := .finite false 0x1fffffffffffff 0 (by decide)
    let schema (least : Number) : Value :=
      let range := .map (Table.ofList [("min", .number least)])
      let field := .map (Table.ofList [("type", .string "//int"), ("range", range)])
      let fields := .map (Table.ofList [("x", field)])
      .map (Table.ofList [("type", .string "//rec"), ("required", fields)])
    let value (x : Number) : Value := .map (Table.ofList [("x", .number x)])
    let range : Range := ⟨some (.int 9007199254740992), none, none, none⟩
    let n : Node := .record (Table.ofList [("x", .integer ⟨some range, none⟩)]) .nil none
    core.Reachable ∧ core.CoreOnly ∧
      (schema (.int 9007199254740992)).equals (schema (.float bound)) = true ∧
      (value (.int 9007199254740991)).equals (value (.float below)) = true ∧
      (core.compile (schema (.int 9007199254740992))).result = .ok n ∧
      (∃ message, n.validate (value (.int 9007199254740991)) = .error ⟨message, "/rec:'x'"⟩) ∧
      Checker.Agree (n.validate (value (.int 9007199254740991)))
        (n.validate (value (.float below))) ∧
      SameOutcome (fun n m => ∀ v, Checker.Agree (n.validate v) (m.validate v))
        (core.compile (schema (.int 9007199254740992))).result
        (core.compile (schema (.float bound))).result := by
  intro bound below schema value range n
  have hs : (schema (.int 9007199254740992)).equals (schema (.float bound)) = true := by
    unfold schema bound
    rfl
  have hv : (value (.int 9007199254740991)).equals (value (.float below)) = true := by
    unfold value below
    rfl
  have hn : (core.compile (schema (.int 9007199254740992))).result = .ok n := by
    unfold schema n range
    rfl
  have rejected : ∃ message,
      n.validate (value (.int 9007199254740991)) = .error ⟨message, "/rec:'x'"⟩ := by
    unfold n range value
    exact ⟨_, rfl⟩
  obtain ⟨_, _, _, _, validation⟩ := spelling_immaterial
  obtain ⟨values, schemas⟩ := validation core .core coreOnly_core
  exact ⟨.core, coreOnly_core, hs, hv, hn, rejected, values _ n hn _ _ hv, schemas _ _ hs⟩

end Registry

end Conform
