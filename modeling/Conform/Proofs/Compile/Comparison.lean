/-
Comparing what is compiled from two schemas, or from one schema in two ways. A
comparison of computations that is kept by doing one thing after another
(`Logged.Comparison`) is kept by every core kind: if the schemas inside two
schemas compare part by part, and all else in them is the same, then so do the
two schemas (`CoreKind.construct_holds`).

Equality is such a comparison, and so are equality of results, and equality of
what is not left open by an unknown name.
-/
import Conform.Proofs.Compile.Inside
import Conform.Proofs.Table
import Mathlib.Data.List.Forall2

namespace Conform

/-- Is a name the fault, which the registry does not hold as yet? -/
def SchemaError.isUnknownName : SchemaError → Bool
  | unknownType _ | unknownPrefix .. => true
  | _ => false

/-- The computation does not fail for an unknown name. -/
def Logged.Settled {α : Type} (x : Logged α) : Prop :=
  ∀ e, x.result = .error e → e.isUnknownName = false

theorem Logged.settled_of_ok {α : Type} {x : Logged α} {a : α} (h : x.result = .ok a) :
    x.Settled := by
  intro e he
  rw [h] at he
  cases he

/-- A comparison of computations that sequencing keeps. -/
structure Logged.Comparison where
  Holds : {α : Type} → Logged α → Logged α → Prop
  refl : ∀ {α} (x : Logged α), Holds x x
  bind : ∀ {α β} {x y : Logged α} {f g : α → Logged β},
    Holds x y → (∀ a, Holds (f a) (g a)) → Holds (x >>= f) (y >>= g)

namespace Logged.Comparison

variable (c : Logged.Comparison) {α β : Type}

theorem bind_right (x : Logged α) {f g : α → Logged β} (h : ∀ a, c.Holds (f a) (g a)) :
    c.Holds (x >>= f) (x >>= g) :=
  c.bind (c.refl x) h

theorem map {x y : Logged α} (f : α → β) (h : c.Holds x y) : c.Holds (f <$> x) (f <$> y) := by
  rw [map_eq_pure_bind, map_eq_pure_bind]
  exact c.bind h fun a => c.refl _

/-! ## The comparisons in use -/

/-- They are the same computation. -/
def identity : Logged.Comparison where
  Holds x y := x = y
  refl _ := rfl
  bind {_ _ x y f g} hx hf := by rw [hx, funext hf]

/-- They have the same result, whatever they log. -/
def result : Logged.Comparison where
  Holds x y := x.result = y.result
  refl _ := rfl
  bind {_ _ x y f g} hx hf := by
    cases h : x.result with
    | ok a => rw [bind_of_ok h, bind_of_ok (hx ▸ h), hf a]
    | error e => rw [bind_of_error h, bind_of_error (hx ▸ h)]

/-- They are the same computation, unless the first fails for an unknown name. -/
def settled : Logged.Comparison where
  Holds x y := x.Settled → y = x
  refl _ _ := rfl
  bind {_ _ x y f g} hx hf hs := by
    cases h : x.result with
    | ok a =>
      have hxy : y = x := hx (settled_of_ok h)
      rw [hxy, bind_of_ok h, bind_of_ok h, hf a]
      rwa [bind_of_ok h] at hs
    | error e =>
      have hxy : y = x := hx fun e' he => by
        rw [h] at he
        cases he
        exact hs e (by rw [bind_of_error h])
      rw [hxy, bind_of_error h, bind_of_error h]

end Logged.Comparison

theorem Table.From.traverse_holds {α β : Type} (c : Logged.Comparison)
    {f g : String → α → Logged β} {b : Option String} {t u : Table.From α b}
    (h : t.Rel (fun k v w => c.Holds (f k v) (g k w)) u) :
    c.Holds (t.traverse f) (u.traverse g) := by
  induction h with
  | nil => exact c.refl _
  | cons head _ ih => exact c.bind head fun _ => c.bind ih fun _ => c.refl _

/-! ## Schemas whose parts compare -/

/-- Two values in a parameter of a shape. They are the same value and compare in
its parts, or values of the shape that compare part by part. -/
inductive Shape.Alike (c : Logged.Comparison) (sub sub' : Value → Logged Node) :
    Shape → Value → Value → Prop
  | same {s : Shape} (v : Value) (h : ∀ part ∈ s.parts v, c.Holds (sub part) (sub' part)) :
      Alike c sub sub' s v v
  | schema {v w : Value} (h : c.Holds (sub v) (sub' w)) : Alike c sub sub' .schema v w
  | schemas {vs ws : List Value} (h : List.Forall₂ (fun v w => c.Holds (sub v) (sub' w)) vs ws) :
      Alike c sub sub' .schemas (.seq vs) (.seq ws)
  | fields {t u : Table Value} (h : t.Rel (fun _ v w => c.Holds (sub v) (sub' w)) u) :
      Alike c sub sub' .fields (.map t) (.map u)

/-- Members of two schemas of a kind that compare parameter by parameter. -/
structure CoreKind.Alike (c : Logged.Comparison) (sub sub' : Value → Logged Node) (k : CoreKind)
    (members members' : Table Value) : Prop where
  keys : members.keys = members'.keys
  parameter : ∀ p s, (p, s) ∈ k.signature →
    Option.Rel (s.Alike c sub sub') (members.get? p) (members'.get? p)

namespace CoreKind

variable {c : Logged.Comparison} {sub sub' : Value → Logged Node} {members members' : Table Value}

/-- A schema is alike to itself if its parts compare. -/
theorem Alike.of_inner {k : CoreKind}
    (h : ∀ part ∈ k.inner members, c.Holds (sub part) (sub' part)) :
    k.Alike c sub sub' members members where
  keys := rfl
  parameter p s hp := by
    cases hv : members.get? p with
    | none => exact .none
    | some v =>
      refine .some (.same v fun part hpart => h part ?_)
      exact mem_inner_iff.2 ⟨p, s, v, hp, hv, hpart⟩

theorem required_bind_holds {α : Type} {k : CoreKind} {p : String} {R : Value → Value → Prop}
    {f g : Value → Logged α} (h : Option.Rel R (members.get? p) (members'.get? p))
    (hf : ∀ v w, R v w → c.Holds (f v) (g w)) :
    c.Holds (required k members p >>= f) (required k members' p >>= g) := by
  unfold required
  generalize members.get? p = v, members'.get? p = w at h
  cases h with
  | none => exact c.refl _
  | some h => simpa only [pure_bind] using hf _ _ h

theorem optional_holds {α : Type} {p : String} {R : Value → Value → Prop}
    {read read' : Value → Logged α} (h : Option.Rel R (members.get? p) (members'.get? p))
    (hr : ∀ v w, R v w → c.Holds (read v) (read' w)) :
    c.Holds (optional members p read) (optional members' p read') := by
  unfold optional
  generalize members.get? p = v, members'.get? p = w at h
  cases h with
  | none => exact c.refl _
  | some h => exact c.map _ (hr _ _ h)

theorem compileList_holds {vs ws : List Value}
    (h : List.Forall₂ (fun v w => c.Holds (sub v) (sub' w)) vs ws) :
    c.Holds (compileList sub vs) (compileList sub' ws) := by
  induction h with
  | nil => exact c.refl _
  | cons head _ ih => exact c.bind head fun _ => c.bind ih fun _ => c.refl _

theorem schemas_holds {k : CoreKind} {p : String} {v w : Value}
    (h : Shape.schemas.Alike c sub sub' v w) :
    c.Holds (schemas k sub p v) (schemas k sub' p w) := by
  cases h with
  | same _ h =>
    unfold schemas
    split
    · exact compileList_holds (List.forall₂_same.2 h)
    · exact c.refl _
  | schemas h =>
    cases h with
    | nil => exact c.refl _
    | cons head tail => exact compileList_holds (.cons head tail)

theorem schema_holds {v w : Value} (h : Shape.schema.Alike c sub sub' v w) :
    c.Holds (sub v) (sub' w) := by
  cases h with
  | same _ h => exact h v (List.mem_singleton.2 rfl)
  | schema h => exact h

theorem fields_bind_holds {α : Type} {p : String} {f g : Table Value → Logged α}
    (h : Option.Rel (Shape.fields.Alike c sub sub') (members.get? p) (members'.get? p))
    (hf : ∀ t u : Table Value, t.Rel (fun _ v w => c.Holds (sub v) (sub' w)) u →
      c.Holds (f t) (g u)) :
    c.Holds (fields members p >>= f) (fields members' p >>= g) := by
  unfold fields
  generalize members.get? p = v, members'.get? p = w at h
  cases h with
  | none => simpa only [pure_bind] using hf Table.empty Table.empty .nil
  | @some v _ h =>
    cases h with
    | fields h => simpa only [pure_bind] using hf _ _ h
    | same _ h =>
      cases v with
      | map declared =>
        simp only [pure_bind]
        refine hf _ _ (Table.From.Rel.of_mem fun k w hw => h w ?_)
        exact List.mem_map.2 ⟨(k, w), hw, rfl⟩
      | _ => exact c.refl _

/-- Data is the same in schemas that are alike. -/
theorem Alike.data_eq {k : CoreKind} (h : k.Alike c sub sub' members members') (p : String)
    (hp : (p, Shape.data) ∈ k.signature) : members.get? p = members'.get? p := by
  have hr := h.parameter p .data hp
  generalize members.get? p = v, members'.get? p = w at hr
  cases hr with
  | none => rfl
  | some hs => cases hs; rfl

theorem constructRecord_holds (h : record.Alike c sub sub' members members') :
    c.Holds (constructRecord sub members) (constructRecord sub' members') := by
  refine fields_bind_holds (h.parameter "required" .fields (by simp [signature])) fun _ _ hr => ?_
  refine c.bind (Table.From.traverse_holds c hr) fun required => ?_
  refine fields_bind_holds (h.parameter "optional" .fields (by simp [signature])) fun _ _ ho => ?_
  refine c.bind (Table.From.traverse_holds c (ho.imp fun _ _ _ h => ?_)) fun optional => ?_
  · split
    · exact c.refl _
    · exact h
  refine c.bind (optional_holds (h.parameter "rest" .schema (by simp [signature]))
    fun _ _ => schema_holds) fun _ => c.refl _

theorem constructNode_holds {k : CoreKind} (h : k.Alike c sub sub' members members') :
    c.Holds (constructNode sub members k) (constructNode sub' members' k) := by
  cases k with
  | all =>
    refine required_bind_holds (h.parameter "of" .schemas (by simp [signature])) fun _ _ hv => ?_
    exact c.bind (schemas_holds hv) fun _ => c.refl _
  | any =>
    have ho := h.parameter "of" .schemas (by simp [signature])
    exact c.bind (optional_holds ho fun _ _ => schemas_holds) fun _ => c.refl _
  | array =>
    have hc := h.parameter "contents" .schema (by simp [signature])
    refine required_bind_holds hc fun _ _ hv => ?_
    refine c.bind (schema_holds hv) fun _ => ?_
    rw [optional, h.data_eq "length" (by simp [signature]), ← optional]
    exact c.refl _
  | map =>
    have hv := h.parameter "values" .schema (by simp [signature])
    refine required_bind_holds hv fun _ _ hv => ?_
    exact c.bind (schema_holds hv) fun _ => c.refl _
  | record => exact constructRecord_holds h
  | sequence =>
    have hc := h.parameter "contents" .schemas (by simp [signature])
    have ht := h.parameter "tail" .schema (by simp [signature])
    refine required_bind_holds hc fun _ _ hv => ?_
    refine c.bind (schemas_holds hv) fun _ => ?_
    exact c.bind (optional_holds ht fun _ _ => schema_holds) fun _ => c.refl _
  | integer | number =>
    have hr := h.data_eq "range" (by simp [signature])
    have hv := h.data_eq "value" (by simp [signature])
    simp only [constructNode, integerTest, numberTest, optional, hr, hv]
    exact c.refl _
  | string =>
    have hv := h.data_eq "value" (by simp [signature])
    have hl := h.data_eq "length" (by simp [signature])
    simp only [constructNode, stringTest, optional, hv, hl]
    exact c.refl _
  | boolean | date | defined | fail | nil | scalar | time => exact c.refl _

/-- A kind makes comparable nodes of schemas that are alike. -/
theorem construct_holds {k : CoreKind} (h : k.Alike c sub sub' members members') :
    c.Holds (k.construct sub members) (k.construct sub' members') := by
  rw [construct, checkParameters, h.keys, ← checkParameters, construct]
  exact c.bind_right _ fun _ => constructNode_holds h

end CoreKind

/-- A kind makes comparable nodes of one schema, if the schemas inside it compare. -/
theorem Kind.construct_holds {c : Logged.Comparison} {k : Kind} {sub sub' : Value → Logged Node}
    {members : Table Value} (h : ∀ part ∈ k.inner members, c.Holds (sub part) (sub' part)) :
    c.Holds (k.construct sub members) (k.construct sub' members) := by
  cases k with
  | core k => exact CoreKind.construct_holds (.of_inner h)
  | custom k => exact c.refl _

end Conform
