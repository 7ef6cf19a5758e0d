/-
What becomes of two schemas of a kind that correspond parameter by parameter.
If the schemas inside compile to related nodes, or fail alike, then so do the
two: to nodes that are put together in the same way of related nodes, or with
errors of one variant (`CoreKind.construct_parallel`).

This is for comparing nodes by what they accept. Where they are to be the same
nodes, `CoreKind.construct_holds` tells also that the errors are the same.
-/
import Conform.Proofs.Check.Parallel
import Conform.Proofs.Compile.Inside
import Conform.Proofs.Value.Content

namespace Conform

/-- Two errors of one variant. What they say of the fault may differ. -/
def SchemaError.SameVariant (e e' : SchemaError) : Prop := e.ctorIdx = e'.ctorIdx

/-- Two outcomes are related: both results, or both errors of one variant. -/
inductive SameOutcome {α β : Type} (R : α → β → Prop) :
    Except SchemaError α → Except SchemaError β → Prop
  | ok {a : α} {b : β} (h : R a b) : SameOutcome R (.ok a) (.ok b)
  | error {e e' : SchemaError} (h : e.SameVariant e') : SameOutcome R (.error e) (.error e')

namespace SameOutcome

variable {α β γ δ : Type} {R : α → β → Prop} {S : γ → δ → Prop}

theorem refl {R : α → α → Prop} (h : ∀ a, R a a) (x : Except SchemaError α) :
    SameOutcome R x x := by
  cases x with
  | ok a => exact .ok (h a)
  | error e => exact .error rfl

theorem imp {R' : α → β → Prop} (h : ∀ a b, R a b → R' a b) {x : Except SchemaError α}
    {y : Except SchemaError β} (hxy : SameOutcome R x y) : SameOutcome R' x y := by
  cases hxy with
  | ok hR => exact .ok (h _ _ hR)
  | error he => exact .error he

theorem exists_ok_iff {x : Except SchemaError α} {y : Except SchemaError β}
    (h : SameOutcome R x y) : (∃ a, x = .ok a) ↔ ∃ b, y = .ok b := by
  cases h with
  | ok _ => exact ⟨fun _ => ⟨_, rfl⟩, fun _ => ⟨_, rfl⟩⟩
  | error _ => exact ⟨fun h => (nomatch h), fun h => (nomatch h)⟩

theorem related {x : Except SchemaError α} {y : Except SchemaError β} (h : SameOutcome R x y)
    {a : α} {b : β} (hx : x = .ok a) (hy : y = .ok b) : R a b := by
  subst hx hy
  cases h with
  | ok hR => exact hR

theorem bind {x : Except SchemaError α} {y : Except SchemaError β} {f : α → Except SchemaError γ}
    {g : β → Except SchemaError δ} (h : SameOutcome R x y)
    (hf : ∀ a b, R a b → SameOutcome S (f a) (g b)) : SameOutcome S (x >>= f) (y >>= g) := by
  cases h with
  | ok hR => exact hf _ _ hR
  | error he => exact .error he

/-- Steps of related outcomes, one after another, have related outcomes. -/
theorem andThen {x : Logged α} {y : Logged β} {f : α → Logged γ} {g : β → Logged δ}
    (h : SameOutcome R x.result y.result)
    (hf : ∀ a b, R a b → SameOutcome S (f a).result (g b).result) :
    SameOutcome S (x >>= f).result (y >>= g).result := by
  generalize hx : x.result = a, hy : y.result = b at h
  cases h with
  | ok hR =>
    rw [Logged.bind_of_ok hx, Logged.bind_of_ok hy]
    exact hf _ _ hR
  | error he =>
    rw [Logged.bind_of_error hx, Logged.bind_of_error hy]
    exact .error he

theorem foldlM {x : α} {y : β} {f : α → γ → Except SchemaError α}
    {g : β → δ → Except SchemaError β} {l : List γ} {l' : List δ} (h : List.Forall₂ S l l')
    (hxy : R x y) (hf : ∀ x y a b, R x y → S a b → SameOutcome R (f x a) (g y b)) :
    SameOutcome R (l.foldlM f x) (l'.foldlM g y) := by
  induction h generalizing x y with
  | nil => exact .ok hxy
  | cons head _ ih =>
    rw [List.foldlM_cons, List.foldlM_cons]
    exact (hf x y _ _ hxy head).bind fun x y hxy => ih hxy

theorem traverse {f : String → γ → Logged α} {g : String → δ → Logged β} {b : Option String}
    {t : Table.From γ b} {u : Table.From δ b}
    (h : t.Rel (fun k v w => SameOutcome R (f k v).result (g k w).result) u) :
    SameOutcome (fun t' u' => Table.From.Rel (fun _ => R) t' u') (t.traverse f).result
      (u.traverse g).result := by
  induction h with
  | nil => exact .ok .nil
  | cons head _ ih => exact head.andThen fun _ _ hv => ih.andThen fun _ _ hvs => .ok (.cons hv hvs)

end SameOutcome

/-! ## Data -/

namespace Range

theorem addEntry_parallel {r r' : Range} (hr : r.Same r') (key : String) {v w : Value}
    (h : v.content = w.content) : SameOutcome Same (r.addEntry key v) (r'.addEntry key w) := by
  unfold addEntry
  cases Bound.ofKey? key with
  | none => exact .error rfl
  | some b =>
    cases Value.respelled_iff.2 h with
    | number hn =>
      have hb := hr b
      have taken : (r.get? b).isSome = (r'.get? b).isSome := by
        generalize r.get? b = l, r'.get? b = l' at hb
        cases hb <;> rfl
      dsimp only
      rw [taken]
      split
      · exact .error rfl
      · exact .ok (hr.set b hn)
    | _ => exact .error rfl

/-- Ranges that are written with the same exact values have the same bounds. -/
theorem ofValue_parallel {v w : Value} (h : v.content = w.content) :
    SameOutcome Same (ofValue v) (ofValue w) := by
  cases Value.respelled_iff.2 h with
  | map entries =>
    refine .foldlM entries.toList (.refl _) fun r r' e e' hr he => ?_
    rw [he.1]
    exact addEntry_parallel hr e'.1 he.2
  | _ => exact .error rfl

end Range

/-! ## Schemas that correspond part by part -/

/-- Two values in a parameter of a shape. Their parts are related one by one, or both have
not the shape; data has the same content. -/
inductive Shape.Corresponds (C : Value → Value → Prop) : Shape → Value → Value → Prop
  | schema {v w : Value} (h : C v w) : Corresponds C .schema v w
  | schemas {vs ws : List Value} (h : List.Forall₂ C vs ws) :
      Corresponds C .schemas (.seq vs) (.seq ws)
  | notSchemas {v w : Value} (hv : v.seq? = none) (hw : w.seq? = none) : Corresponds C .schemas v w
  | fields {t u : Table Value} (h : t.Rel (fun _ => C) u) : Corresponds C .fields (.map t) (.map u)
  | notFields {v w : Value} (hv : v.map? = none) (hw : w.map? = none) : Corresponds C .fields v w
  | data {v w : Value} (h : v.content = w.content) : Corresponds C .data v w

/-- Members of two schemas of a kind that correspond parameter by parameter. -/
structure CoreKind.Corresponds (C : Value → Value → Prop) (k : CoreKind)
    (members members' : Table Value) : Prop where
  keys : members.keys = members'.keys
  parameter : ∀ p s, (p, s) ∈ k.signature →
    Option.Rel (s.Corresponds C) (members.get? p) (members'.get? p)

namespace CoreKind

variable {α β γ δ : Type} {S : α → β → Prop} {C : Value → Value → Prop} {k : CoreKind}
  {members members' : Table Value} {p : String}

theorem required_parallel (h : Option.Rel C (members.get? p) (members'.get? p)) :
    SameOutcome C (required k members p).result (required k members' p).result := by
  unfold required
  generalize members.get? p = v, members'.get? p = w at h
  cases h with
  | none => exact .error rfl
  | some h => exact .ok h

theorem optional_parallel {read : Value → Logged α} {read' : Value → Logged β}
    (h : Option.Rel C (members.get? p) (members'.get? p))
    (hr : ∀ v w, C v w → SameOutcome S (read v).result (read' w).result) :
    SameOutcome (Option.Rel S) (optional members p read).result
      (optional members' p read').result := by
  unfold optional
  generalize members.get? p = v, members'.get? p = w at h
  cases h with
  | none => exact .ok .none
  | some h =>
    simp only [map_eq_pure_bind]
    exact (hr _ _ h).andThen fun _ _ hS => .ok (.some hS)

/-! ## Reading parameters -/

/-- Data in a parameter that may be there. -/
theorem data_parallel {read : Value → Logged α} {read' : Value → Logged β}
    (h : k.Corresponds C members members') (hp : (p, .data) ∈ k.signature)
    (hr : ∀ v w, v.content = w.content → SameOutcome S (read v).result (read' w).result) :
    SameOutcome (Option.Rel S) (optional members p read).result
      (optional members' p read').result := by
  refine optional_parallel (h.parameter p .data hp) fun v w hvw => ?_
  cases hvw with
  | data same => exact hr v w same

theorem numberValue_parallel {v w : Value} (h : v.content = w.content) :
    SameOutcome (fun n m => n.extended = m.extended) (k.numberValue v).result
      (k.numberValue w).result := by
  cases Value.respelled_iff.2 h with
  | number hn => exact .ok hn
  | _ => exact .error rfl

theorem stringValue_parallel {v w : Value} (h : v.content = w.content) :
    SameOutcome Eq (stringValue v).result (stringValue w).result := by
  cases Value.respelled_iff.2 h with
  | string s => exact .ok rfl
  | _ => exact .error rfl

theorem numberTest_parallel (h : k.Corresponds C members members')
    (hv : ("value", .data) ∈ k.signature) (hr : ("range", .data) ∈ k.signature) :
    SameOutcome Checker.NumberTest.Same (numberTest k members).result
      (numberTest k members').result := by
  refine (data_parallel h hv fun _ _ => numberValue_parallel).andThen fun _ _ value => ?_
  refine (data_parallel h hr fun _ _ => Range.ofValue_parallel).andThen fun _ _ range => ?_
  exact .ok ⟨range, value⟩

theorem integerTest_parallel (h : integer.Corresponds C members members') :
    SameOutcome Checker.NumberTest.Same (integerTest members).result
      (integerTest members').result := by
  refine (numberTest_parallel h (by simp [signature]) (by simp [signature])).andThen
    fun test test' same => ?_
  have value := same.value
  generalize hv : test.value = n, hv' : test'.value = n' at value
  cases value with
  | none => exact .ok same
  | some hn =>
    dsimp only
    rw [Number.isIntegral_congr hn]
    split
    · exact .ok same
    · exact .error rfl

theorem stringTest_parallel (h : string.Corresponds C members members') :
    SameOutcome Checker.StringTest.Same (stringTest members).result
      (stringTest members').result := by
  refine (data_parallel h (by simp [signature]) fun _ _ => stringValue_parallel).andThen
    fun value value' hv => ?_
  refine (data_parallel h (by simp [signature]) fun _ _ => Range.ofValue_parallel).andThen
    fun _ _ length => ?_
  refine .ok ⟨?_, length⟩
  cases hv with
  | none => rfl
  | some hv => rw [hv]

/-! ## Compiling the parts -/

/-- Two schemas compile to related nodes, or fail with errors of one variant. -/
abbrev CompileAlike (R : Node → Node → Prop) (sub : Value → Logged Node) (v w : Value) : Prop :=
  SameOutcome R (sub v).result (sub w).result

variable {R : Node → Node → Prop} {sub : Value → Logged Node}

theorem compileList_parallel {vs ws : List Value} (h : List.Forall₂ (CompileAlike R sub) vs ws) :
    SameOutcome (List.Forall₂ R) (compileList sub vs).result (compileList sub ws).result := by
  induction h with
  | nil => exact .ok .nil
  | cons head _ ih => exact head.andThen fun _ _ hn => ih.andThen fun _ _ hns => .ok (.cons hn hns)

theorem schemas_notSchemas {v : Value} (h : v.seq? = none) :
    schemas k sub p v = .fail (.invalidParameter p k.uri (.notSchemas v)) := by
  cases v with
  | seq vs => cases h
  | _ => rfl

theorem schemas_parallel {v w : Value} (h : Shape.schemas.Corresponds (CompileAlike R sub) v w) :
    SameOutcome (List.Forall₂ R) (schemas k sub p v).result (schemas k sub p w).result := by
  cases h with
  | schemas h =>
    cases h with
    | nil => exact .error rfl
    | cons head tail => exact compileList_parallel (.cons head tail)
  | notSchemas hv hw =>
    rw [schemas_notSchemas hv, schemas_notSchemas hw]
    exact .error rfl

theorem schema_parallel {v w : Value} (h : Shape.schema.Corresponds (CompileAlike R sub) v w) :
    CompileAlike R sub v w := by
  cases h with
  | schema h => exact h

theorem fields_parallel
    (h : Option.Rel (Shape.fields.Corresponds C) (members.get? p) (members'.get? p)) :
    SameOutcome (fun t u : Table Value => t.Rel (fun _ => C) u) (fields members p).result
      (fields members' p).result := by
  unfold fields
  generalize members.get? p = v, members'.get? p = w at h
  cases h with
  | none => exact .ok .nil
  | @some v w h =>
    cases h with
    | fields h => exact .ok h
    | notFields hv hw =>
      cases v with
      | map t => cases hv
      | _ =>
        cases w with
        | map u => cases hw
        | _ => exact .error rfl

/-! ## The node of a schema -/

theorem constructRecord_parallel
    (h : record.Corresponds (CompileAlike R sub) members members') :
    SameOutcome (Node.Parallel R) (constructRecord sub members).result
      (constructRecord sub members').result := by
  refine (fields_parallel (h.parameter "required" .fields (by simp [signature]))).andThen
    fun _ _ required => ?_
  refine (SameOutcome.traverse required).andThen fun nodes nodes' hr => ?_
  refine (fields_parallel (h.parameter "optional" .fields (by simp [signature]))).andThen
    fun _ _ optional => ?_
  -- of the required fields only the names matter here, and these are the same
  refine (SameOutcome.traverse (R := R) (optional.imp fun name v w h => ?_)).andThen
    fun _ _ ho => ?_
  · rw [hr.contains_eq]
    split
    · exact .error rfl
    · exact h
  refine (optional_parallel (h.parameter "rest" .schema (by simp [signature]))
    fun _ _ => schema_parallel).andThen fun _ _ rest => ?_
  exact .ok (.record hr ho rest)

theorem constructNode_parallel (h : k.Corresponds (CompileAlike R sub) members members') :
    SameOutcome (Node.Parallel R) (constructNode sub members k).result
      (constructNode sub members' k).result := by
  cases k with
  | all =>
    refine (required_parallel (h.parameter "of" .schemas (by simp [signature]))).andThen
      fun _ _ of => ?_
    exact (schemas_parallel of).andThen fun _ _ parts => .ok (.all parts)
  | any =>
    refine (optional_parallel (h.parameter "of" .schemas (by simp [signature]))
      fun _ _ => schemas_parallel).andThen fun _ _ choices => ?_
    cases choices with
    | none => exact .ok .anything
    | some choices => exact .ok (.any choices)
  | array =>
    refine (required_parallel (h.parameter "contents" .schema (by simp [signature]))).andThen
      fun _ _ contents => ?_
    refine (schema_parallel contents).andThen fun _ _ contents => ?_
    refine (data_parallel h (p := "length") (by simp [signature])
      fun _ _ => Range.ofValue_parallel).andThen fun _ _ length => ?_
    exact .ok (.array contents length)
  | integer => exact (integerTest_parallel h).andThen fun _ _ same => .ok (.integer same)
  | map =>
    refine (required_parallel (h.parameter "values" .schema (by simp [signature]))).andThen
      fun _ _ values => ?_
    exact (schema_parallel values).andThen fun _ _ values => .ok (.map values)
  | number =>
    refine (numberTest_parallel h (by simp [signature]) (by simp [signature])).andThen
      fun _ _ same => ?_
    exact .ok (.number same)
  | record => exact constructRecord_parallel h
  | sequence =>
    refine (required_parallel (h.parameter "contents" .schemas (by simp [signature]))).andThen
      fun _ _ contents => ?_
    refine (schemas_parallel contents).andThen fun _ _ contents => ?_
    refine (optional_parallel (h.parameter "tail" .schema (by simp [signature]))
      fun _ _ => schema_parallel).andThen fun _ _ tail => ?_
    exact .ok (.sequence contents tail)
  | string => exact (stringTest_parallel h).andThen fun _ _ same => .ok (.string same)
  | boolean => exact .ok .boolean
  | date => exact .ok .date
  | defined => exact .ok .defined
  | fail => exact .ok .fail
  | nil => exact .ok .nil
  | scalar => exact .ok .scalar
  | time => exact .ok .time

/-- Schemas of a kind that correspond compile to nodes that are put together in the same
way, or fail alike. -/
theorem construct_parallel (h : k.Corresponds (CompileAlike R sub) members members') :
    SameOutcome (Node.Parallel R) (k.construct sub members).result
      (k.construct sub members').result := by
  rw [construct, checkParameters, h.keys, ← checkParameters, construct]
  refine .andThen (R := Eq) (.refl (fun _ => rfl) _) fun _ _ _ => ?_
  exact constructNode_parallel h

end CoreKind

end Conform
