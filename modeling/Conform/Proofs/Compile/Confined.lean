/-
What compiling can do besides making a node. It logs nothing but the schemas that
it compiles, and no error of its own is that of a configuration
(`Logged.Confined`). The errors of a user's own kinds are the user's affair: they
are told apart by a predicate, and so is what must be known of the scope.
-/
import Conform.Proofs.Registry.Sound
import Conform.Proofs.Schema.TypeName

namespace Conform

/-- Is the error that of an entry of a configuration? -/
def SchemaError.isConfig : SchemaError → Bool
  | config .. => true
  | _ => false

/-- Nothing is logged but schemas that are compiled, and an error is that of no configuration,
if it is not one of the user's. -/
structure Logged.Confined (user : SchemaError → Prop) {α : Type} (x : Logged α) : Prop where
  events : ∀ e ∈ x.events, ∃ uri, e = .compiling uri
  error : ∀ e, x.result = .error e → e.isConfig = false ∨ user e

/-- What a URI means can be relied on to be confined. -/
def Meaning.Confined (user : SchemaError → Prop) : Meaning → Prop
  | .kind (.core _) => True
  | .kind (.custom k) => ∀ members e, k.construct members = .error e → user e
  | .learned node => node.Confined user

/-! ## Computations -/

namespace Logged.Confined

variable {user : SchemaError → Prop} {α β : Type}

theorem pure (a : α) : (Pure.pure a : Logged α).Confined user where
  events _ h := (nomatch h)
  error _ h := (nomatch h)

theorem fail {e : SchemaError} (h : e.isConfig = false) : (fail e : Logged α).Confined user where
  events _ h := (nomatch h)
  error e' he := by cases he; exact .inl h

theorem compiling (uri : String) : (log (.compiling uri)).Confined user where
  events _ h := ⟨uri, List.mem_singleton.1 h⟩
  error _ h := (nomatch h)

theorem ofExcept {r : Except SchemaError α} (h : ∀ e, r = .error e → e.isConfig = false) :
    (ofExcept r).Confined user where
  events _ h := (nomatch h)
  error e he := .inl (h e he)

theorem bind {x : Logged α} {f : α → Logged β} (hx : x.Confined user)
    (hf : ∀ a, (f a).Confined user) : (x >>= f).Confined user := by
  cases h : x.result with
  | ok a =>
    rw [bind_of_ok h]
    refine ⟨fun e he => ?_, (hf a).error⟩
    rcases List.mem_append.1 he with he | he
    · exact hx.events e he
    · exact (hf a).events e he
  | error e =>
    rw [bind_of_error h]
    refine ⟨hx.events, fun e' he' => ?_⟩
    cases he'
    exact hx.error e h

theorem map {x : Logged α} (f : α → β) (h : x.Confined user) : (f <$> x).Confined user := by
  rw [map_eq_pure_bind]
  exact h.bind fun a => pure _

theorem traverse {f : String → α → Logged β} (h : ∀ k v, (f k v).Confined user) {b : Option String}
    (t : Table.From α b) : (t.traverse f).Confined user := by
  induction t with
  | nil => exact pure _
  | cons k _ v _ ih => exact (h k v).bind fun _ => ih.bind fun _ => pure _

end Logged.Confined

/-! ## Reading names and data -/

theorem TypeName.isConfig_of_expand {words : Text.WordClass} {prefixes : Table String}
    {name : String} {e : SchemaError} (h : expand words prefixes name = .error e) :
    e.isConfig = false := by
  rcases expand_error h with rfl | ⟨p, rfl⟩ <;> rfl

theorem isConfig_of_checkParameters {members : Table Value} {uri : String} {allowed : List String}
    {e : SchemaError} (h : checkParameters members uri allowed = .error e) : e.isConfig = false := by
  unfold checkParameters at h
  split at h
  · cases h; rfl
  · cases h

theorem Range.isConfig_of_addEntry {r : Range} {key : String} {v : Value} {e : SchemaError}
    (h : r.addEntry key v = .error e) : e.isConfig = false := by
  unfold addEntry at h
  split at h
  · cases h; rfl
  split at h
  · split at h
    · cases h; rfl
    · cases h
  · cases h; rfl

theorem Range.isConfig_of_ofValue {v : Value} {e : SchemaError} (h : ofValue v = .error e) :
    e.isConfig = false := by
  unfold ofValue at h
  split at h
  · next entries =>
    generalize entries.toList = l, unbounded = r at h
    induction l generalizing r with
    | nil => cases h
    | cons entry l ih =>
      rw [List.foldlM_cons] at h
      cases ha : r.addEntry entry.1 entry.2 with
      | error e' =>
        rw [ha] at h
        cases h
        exact isConfig_of_addEntry ha
      | ok r' =>
        rw [ha] at h
        exact ih r' h
  · cases h; rfl

/-! ## Kinds -/

namespace CoreKind

open Logged

variable {user : SchemaError → Prop} {sub : Value → Logged Node} {members : Table Value}
  {parameter : String} {α : Type}

theorem required_confined {k : CoreKind} : (required k members parameter).Confined user := by
  unfold required
  split
  · exact .pure _
  · exact .fail rfl

theorem optional_confined {read : Value → Logged α} (h : ∀ v, (read v).Confined user) :
    (optional members parameter read).Confined user := by
  unfold optional
  split
  · exact (h _).map _
  · exact .pure _

theorem compileList_confined (h : ∀ v, (sub v).Confined user) (vs : List Value) :
    (compileList sub vs).Confined user := by
  induction vs with
  | nil => exact .pure _
  | cons v vs ih => exact (h v).bind fun _ => ih.bind fun _ => .pure _

theorem schemas_confined {k : CoreKind} (h : ∀ v, (sub v).Confined user) (v : Value) :
    (schemas k sub parameter v).Confined user := by
  unfold schemas
  split
  · exact compileList_confined h _
  · exact .fail rfl

theorem range_confined (v : Value) : (range v).Confined user :=
  .ofExcept fun _ => Range.isConfig_of_ofValue

theorem numberTest_confined {k : CoreKind} : (numberTest k members).Confined user := by
  refine (optional_confined fun v => ?_).bind fun _ =>
    (optional_confined range_confined).bind fun _ => .pure _
  unfold numberValue
  split
  · exact .pure _
  · exact .fail rfl

theorem integerTest_confined : (integerTest members).Confined user := by
  refine numberTest_confined.bind fun test => ?_
  split
  · exact .pure _
  · split
    · exact .pure _
    · exact .fail rfl

theorem stringTest_confined : (stringTest members).Confined user := by
  refine (optional_confined fun v => ?_).bind fun _ =>
    (optional_confined range_confined).bind fun _ => .pure _
  unfold stringValue
  split
  · exact .pure _
  · exact .fail rfl

theorem fields_confined : (fields members parameter).Confined user := by
  unfold fields
  split
  · exact .pure _
  · exact .pure _
  · exact .fail rfl

theorem constructRecord_confined (h : ∀ v, (sub v).Confined user) :
    (constructRecord sub members).Confined user := by
  refine fields_confined.bind fun _ => (Confined.traverse (fun _ => h) _).bind fun required => ?_
  refine fields_confined.bind fun _ => (Confined.traverse (fun name v => ?_) _).bind fun _ => ?_
  · split
    · exact .fail rfl
    · exact h v
  · exact (optional_confined h).bind fun _ => .pure _

theorem constructNode_confined (h : ∀ v, (sub v).Confined user) (k : CoreKind) :
    (constructNode sub members k).Confined user := by
  cases k with
  | all => exact required_confined.bind fun _ => (schemas_confined h _).bind fun _ => .pure _
  | any => exact (optional_confined (schemas_confined h)).bind fun _ => .pure _
  | array =>
    refine required_confined.bind fun _ => (h _).bind fun _ => ?_
    exact (optional_confined range_confined).bind fun _ => .pure _
  | map => exact required_confined.bind fun _ => (h _).bind fun _ => .pure _
  | record => exact constructRecord_confined h
  | sequence =>
    refine required_confined.bind fun _ => (schemas_confined h _).bind fun _ => ?_
    exact (optional_confined h).bind fun _ => .pure _
  | integer => exact integerTest_confined.bind fun _ => .pure _
  | number => exact numberTest_confined.bind fun _ => .pure _
  | string => exact stringTest_confined.bind fun _ => .pure _
  | boolean | date | defined | fail | nil | scalar | time => exact .pure _

end CoreKind

theorem Kind.construct_confined {user : SchemaError → Prop} {sub : Value → Logged Node} {k : Kind}
    (hk : (Meaning.kind k).Confined user) (h : ∀ v, (sub v).Confined user) (members : Table Value) :
    (k.construct sub members).Confined user := by
  cases k with
  | core k =>
    refine (Logged.Confined.ofExcept fun _ => isConfig_of_checkParameters).bind fun _ => ?_
    exact CoreKind.constructNode_confined h k
  | custom k =>
    exact ⟨fun _ h => (nomatch h), fun e he => .inr (hk members e he)⟩

/-! ## Compiling -/

namespace Scope

variable {user : SchemaError → Prop} {scope : Scope} {sub : Value → Logged Node}

theorem compileMembers_confined (hm : ∀ uri m, scope.meaning uri = some m → m.Confined user)
    (h : ∀ v, (sub v).Confined user) (uri : String) (members : Table Value) :
    (scope.compileMembers sub uri members).Confined user := by
  unfold compileMembers
  split
  · exact .fail rfl
  next m hu =>
  have hm := hm uri m hu
  refine (Logged.Confined.compiling uri).bind fun _ => ?_
  cases m with
  | kind k => exact Kind.construct_confined hm h members
  | learned node =>
    dsimp only
    split
    · exact .fail rfl
    · exact hm

theorem compileWith_confined (hm : ∀ uri m, scope.meaning uri = some m → m.Confined user)
    (h : ∀ v, (sub v).Confined user) (schema : Value) :
    (scope.compileWith sub schema).Confined user := by
  unfold compileWith
  split
  · exact .fail rfl
  split
  · exact .fail rfl
  · refine (Logged.Confined.ofExcept fun _ => TypeName.isConfig_of_expand).bind fun uri => ?_
    exact compileMembers_confined hm h uri _

theorem compile_confined (hm : ∀ uri m, scope.meaning uri = some m → m.Confined user)
    (schema : Value) : (scope.compile schema).Confined user := by
  unfold compile
  generalize schema.depth = bound
  induction bound generalizing schema with
  | zero => exact .fail rfl
  | succ bound ih => exact compileWith_confined hm ih schema

end Scope

namespace Registry

variable {user : SchemaError → Prop}

/-- Whatever errors the kinds in a list of types may fail with, they are the user's. -/
def UserErrors (user : SchemaError → Prop) (types : List (String × Entry)) : Prop :=
  ∀ uri k, (uri, .kind (.custom k)) ∈ types → ∀ members e, k.construct members = .error e → user e

theorem meaningIn_confined {prefixes : Table String} {types : List (String × Entry)}
    (h : UserErrors user types) {uri : String} {m : Meaning}
    (hm : meaningIn prefixes types uri = some m) : m.Confined user := by
  induction types generalizing uri m with
  | nil => cases hm
  | cons t older ih =>
    have inside : ∀ uri m, meaningIn prefixes older uri = some m → m.Confined user :=
      fun _ _ => ih fun u k hk => h u k (List.mem_cons_of_mem _ hk)
    obtain ⟨u, e⟩ := t
    cases e with
    | kind k =>
      rw [meaningIn_kind] at hm
      split at hm
      · cases hm
        cases k with
        | core k => trivial
        | custom k => exact h u k List.mem_cons_self
      · exact inside uri m hm
    | learned schema =>
      rw [meaningIn_learned] at hm
      split at hm
      · cases hm
        exact Scope.compile_confined inside schema
      · exact inside uri m hm

theorem compile_confined {r : Registry} (h : UserErrors user r.types) (schema : Value) :
    (r.compile schema).Confined user :=
  Scope.compile_confined (fun _ _ => meaningIn_confined h) schema

/-- Compiling logs the schemas that it compiles, and changes nothing worth being logged. -/
theorem compile_logs (r : Registry) (schema : Value) :
    ∀ e ∈ (r.compile schema).events, ∃ uri, e = .compiling uri := by
  have any : UserErrors (fun _ => True) r.types := fun _ _ _ _ _ _ => trivial
  exact (compile_confined any schema).events

end Registry

end Conform
