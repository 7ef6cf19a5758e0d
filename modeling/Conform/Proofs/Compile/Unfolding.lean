/-
The equation of compiling, without a bound on depth: a schema compiles to what
its kind makes of it, with the schemas inside compiled in the same scope
(`Scope.compile_eq`).

It holds because a kind compiles nothing but the schemas inside, and those are
less deep. The equation in turn gives what a larger scope changes: nothing but
the schemas that failed for want of a name (`Scope.compile_of_extends`). What
becomes of these is left open here, and may be compared with what they were in
any way that suits them (`Scope.compile_holds_of_extends`).
-/
import Conform.Proofs.Compile.Comparison

namespace Conform

namespace Scope

/-! ## The equation -/

theorem compileMembers_holds {c : Logged.Comparison} {scope : Scope}
    {sub sub' : Value → Logged Node} {uri : String} {members : Table Value}
    (h : ∀ k : Kind, ∀ part ∈ k.inner members, c.Holds (sub part) (sub' part)) :
    c.Holds (scope.compileMembers sub uri members) (scope.compileMembers sub' uri members) := by
  unfold compileMembers
  split
  · exact c.refl _
  · refine c.bind_right _ fun _ => ?_
    split
    · exact Kind.construct_holds (h _)
    · exact c.refl _

theorem compileWith_holds {c : Logged.Comparison} {scope : Scope} {sub sub' : Value → Logged Node}
    {schema : Value} (h : ∀ w : Value, w.depth < schema.depth → c.Holds (sub w) (sub' w)) :
    c.Holds (scope.compileWith sub schema) (scope.compileWith sub' schema) := by
  unfold compileWith
  split
  · exact c.refl _
  · next members hm =>
    split
    · exact c.refl _
    · refine c.bind_right _ fun uri => ?_
      exact compileMembers_holds fun k part hp => h part (depth_lt_of_mem_inner hm hp)

/-- A bound that is not below the depth of a schema makes no difference to it. -/
theorem compileTo_eq {scope : Scope} {bound : Nat} :
    ∀ {schema : Value}, schema.depth ≤ bound →
      scope.compileTo bound schema = scope.compile schema := by
  induction bound using Nat.strongRecOn with
  | ind bound ih =>
    intro schema h
    obtain ⟨d, hd⟩ := Nat.exists_eq_succ_of_ne_zero (Nat.ne_of_gt schema.depth_pos)
    obtain ⟨n, rfl⟩ := Nat.exists_eq_succ_of_ne_zero
      (Nat.ne_of_gt (Nat.lt_of_lt_of_le schema.depth_pos h))
    rw [compile, hd]
    refine compileWith_holds (c := .identity) fun w hw => ?_
    exact (ih n (by omega) (by omega)).trans (ih d (by omega) (by omega)).symm

/-- A schema is compiled by its kind, which compiles what is inside in the same scope. -/
theorem compile_eq (scope : Scope) (schema : Value) :
    scope.compile schema = scope.compileWith scope.compile schema := by
  obtain ⟨d, hd⟩ := Nat.exists_eq_succ_of_ne_zero (Nat.ne_of_gt schema.depth_pos)
  rw [compile, hd]
  exact compileWith_holds (c := .identity) fun w hw => compileTo_eq (by omega)

/-- Without a type name there is no schema. -/
theorem compile_of_no_name (scope : Scope) {schema : Value}
    (h : (schemaMembers? schema).bind typeName? = none) :
    scope.compile schema = .fail (.invalidType schema) := by
  rw [compile_eq, compileWith]
  split
  · rfl
  next members hm =>
  rw [hm, Option.bind_some] at h
  rw [h]

/-- A schema with a type name is compiled as what the name means. -/
theorem compile_of_name (scope : Scope) {schema : Value} {members : Table Value} {name : String}
    (hm : schemaMembers? schema = some members) (hn : typeName? members = some name) :
    scope.compile schema = .ofExcept (TypeName.expand .unicode scope.prefixes name) >>= fun uri =>
      scope.compileMembers scope.compile uri members := by
  rw [compile_eq, compileWith, hm]
  dsimp only
  rw [hn]

/-! ## Larger scopes -/

/-- Everything that has a meaning in a scope has the same meaning in another. -/
structure Extends (scope' scope : Scope) : Prop where
  prefixes : ∀ {name base}, scope.prefixes.get? name = some base →
    scope'.prefixes.get? name = some base
  meaning : ∀ {uri m}, scope.meaning uri = some m → scope'.meaning uri = some m

theorem Extends.trans {scope scope' scope'' : Scope} (h' : scope''.Extends scope')
    (h : scope'.Extends scope) : scope''.Extends scope :=
  ⟨fun hb => h'.prefixes (h.prefixes hb), fun hm => h'.meaning (h.meaning hm)⟩

theorem expand_of_extends {scope scope' : Scope} (h : scope'.Extends scope) (name : String) :
    TypeName.expand .unicode scope'.prefixes name = TypeName.expand .unicode scope.prefixes name ∨
      ∃ p, TypeName.expand .unicode scope.prefixes name = .error (.unknownPrefix p name) := by
  unfold TypeName.expand
  split
  · exact .inl rfl
  split
  · exact .inl rfl
  next p rest hp =>
  cases hb : scope.prefixes.get? p with
  | none => exact .inr ⟨p, rfl⟩
  | some base => exact .inl (by rw [h.prefixes hb])

/-- What a schema compiles to in a scope compares with what it compiles to in a larger one, if
everything does that fails for a name that was not known. -/
theorem compile_holds_of_extends {c : Logged.Comparison} {scope scope' : Scope}
    (h : scope'.Extends scope)
    (unknown : ∀ {e schema}, e.isUnknownName = true → c.Holds (.fail e) (scope'.compile schema))
    (schema : Value) : c.Holds (scope.compile schema) (scope'.compile schema) := by
  -- by induction on depth: only what a name means is looked up in the scope, all
  -- else is compiling what is less deep
  induction hd : schema.depth using Nat.strongRecOn generalizing schema with
  | ind d ih =>
    subst hd
    cases hm : schemaMembers? schema with
    | none =>
      rw [compile_of_no_name scope (by simp [hm]), compile_of_no_name scope' (by simp [hm])]
      exact c.refl _
    | some members =>
    cases hn : typeName? members with
    | none =>
      rw [compile_of_no_name scope (by simp [hm, hn]), compile_of_no_name scope' (by simp [hm, hn])]
      exact c.refl _
    | some name =>
    rw [compile_of_name scope hm hn]
    rcases expand_of_extends h name with same | ⟨p, hp⟩
    · cases hx : TypeName.expand .unicode scope.prefixes name with
      | error e =>
        rw [compile_of_name scope' hm hn, same, hx, Logged.bind_of_error (e := e) rfl,
          Logged.bind_of_error (e := e) rfl]
        exact c.refl _
      | ok uri =>
        rw [Logged.ofExcept_ok, pure_bind, compileMembers]
        cases hu : scope.meaning uri with
        | none => exact unknown rfl
        | some m =>
          rw [compile_of_name scope' hm hn, same, hx, Logged.ofExcept_ok, pure_bind, compileMembers,
            h.meaning hu]
          dsimp only
          refine c.bind_right _ fun _ => ?_
          cases m with
          | kind k =>
            refine Kind.construct_holds fun part hpart => ?_
            exact ih _ (depth_lt_of_mem_inner hm hpart) part rfl
          | learned node => exact c.refl _
    · rw [hp]
      exact unknown rfl

/-- In a larger scope a schema compiles as before, unless it failed for a name
that was not known. -/
theorem compile_of_extends {scope scope' : Scope} (h : scope'.Extends scope) (schema : Value) :
    Logged.Comparison.settled.Holds (scope.compile schema) (scope'.compile schema) := by
  refine compile_holds_of_extends h (fun {e _} unknown settled => ?_) schema
  have known : e.isUnknownName = false := settled e rfl
  rw [unknown] at known
  cases known

/-- What compiles in a scope compiles to the same in a larger one. -/
theorem compile_eq_of_ok {scope scope' : Scope} (h : scope'.Extends scope) {schema : Value}
    {n : Node} (hn : (scope.compile schema).result = .ok n) :
    scope'.compile schema = scope.compile schema :=
  compile_of_extends h schema (Logged.settled_of_ok hn)

end Scope

end Conform
