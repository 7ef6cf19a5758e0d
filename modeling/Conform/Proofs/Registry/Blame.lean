/-
Which fault is blamed where there are several. The faults of a schema can be
listed to the end, depth first: each point in its turn, and at a schema inside
all the faults of that schema (`Registry.Faults`). Each schema has one such list,
since learned types do not go in circles.

A schema compiles if its list is empty, and otherwise fails for the first fault
in the list (`Registry.compile_blames_first`).
-/
import Conform.Proofs.Compile.Points
import Conform.Proofs.Registry.Context

namespace Conform

namespace Logged

variable {α β : Type} {x : Logged α} {e : SchemaError}

/-- The error that a computation fails with, if it does. -/
def error? (x : Logged α) : Option SchemaError :=
  match x.result with
  | .ok _ => none
  | .error e => some e

theorem error?_eq_some_iff : x.error? = some e ↔ x.result = .error e := by
  unfold error?
  cases x.result <;> simp

theorem error?_eq_none_iff : x.error? = none ↔ ∃ a, x.result = .ok a := by
  unfold error?
  cases x.result <;> simp

theorem error?_bind (x : Logged α) (y : Logged β) :
    (x >>= fun _ => y).error? = x.error?.or y.error? := by
  cases h : x.result with
  | ok a => rw [bind_of_ok h, error?_eq_none_iff.2 ⟨a, h⟩]; rfl
  | error e => rw [bind_of_error h, error?_eq_some_iff.2 h]; rfl

theorem error?_forget (x : Logged α) : ((fun _ => ()) <$> x).error? = x.error? := by
  rw [map_eq_pure_bind, error?_bind]
  exact Option.or_none

end Logged

namespace Registry

variable {r : Registry} {schema : Value}

/-- The points of a schema. If nothing is known that it could refer to, there is one fault; and
a learned type leads to its own schema. -/
def points (r : Registry) (schema : Value) : List Point :=
  match r.resolve schema with
  | .error e => [.fault e]
  | .ok t =>
    match t.entry with
    | .kind k => k.points t.members
    | .learned stored =>
      if t.members.keys.any (· != "type") then
        [.fault (.composedTypeArguments t.uri), .schema stored]
      else [.schema stored]

/-- All faults at points, depth first. -/
inductive Faults (r : Registry) : List Point → List SchemaError → Prop
  | nil : Faults r [] []
  | fault {e : SchemaError} {ps : List Point} {es : List SchemaError} (h : Faults r ps es) :
      Faults r (.fault e :: ps) (e :: es)
  | schema {v : Value} {ps : List Point} {es es' : List SchemaError}
      (inside : Faults r (r.points v) es) (h : Faults r ps es') :
      Faults r (.schema v :: ps) (es ++ es')

/-! ## Schemas among the points -/

/-- The schemas that are compiled on the way: those inside, and for a learned type its own. -/
def Referent.inside (t : Referent) : List Value :=
  match t.entry with
  | .kind k => k.inner t.members
  | .learned stored => [stored]

theorem filterMap_points {t : Referent} (h : r.resolve schema = .ok t) :
    (r.points schema).filterMap Point.schema? = t.inside := by
  obtain ⟨uri, members, entry⟩ := t
  rw [points, h]
  cases entry with
  | kind k => exact k.filterMap_points members
  | learned stored =>
    dsimp only
    split <;> rfl

theorem calls_of_mem_inside {t : Referent} (h : r.resolve schema = .ok t) {v : Value}
    (hv : v ∈ t.inside) : r.Calls v schema := by
  obtain ⟨uri, members, entry⟩ := t
  cases entry with
  | kind k => exact .inside h hv
  | learned stored => exact List.mem_singleton.1 hv ▸ .learned h

/-- A schema that stands at a point of another is called by it. -/
theorem calls_of_mem_points {v : Value} (hv : Point.schema v ∈ r.points schema) :
    r.Calls v schema := by
  cases h : r.resolve schema with
  | error e =>
    rw [points, h] at hv
    cases List.mem_singleton.1 hv
  | ok t =>
    refine calls_of_mem_inside h ?_
    rw [← filterMap_points h]
    exact List.mem_filterMap.2 ⟨_, hv, rfl⟩

/-! ## There is one list of faults -/

theorem Faults.unique {ps : List Point} {es es' : List SchemaError} (h : r.Faults ps es)
    (h' : r.Faults ps es') : es' = es := by
  induction h generalizing es' with
  | nil => cases h'; rfl
  | fault _ ih =>
    cases h' with
    | fault h' => rw [ih h']
  | schema _ _ inside ih =>
    cases h' with
    | schema inside' h' => rw [inside inside', ih h']

theorem exists_faults_of_schemas {ps : List Point}
    (h : ∀ v, Point.schema v ∈ ps → ∃ es, r.Faults (r.points v) es) : ∃ es, r.Faults ps es := by
  induction ps with
  | nil => exact ⟨[], .nil⟩
  | cons p ps ih =>
    obtain ⟨es', later⟩ := ih fun v hv => h v (List.mem_cons_of_mem _ hv)
    cases p with
    | fault e => exact ⟨e :: es', .fault later⟩
    | schema v =>
      obtain ⟨es, inside⟩ := h v List.mem_cons_self
      exact ⟨es ++ es', .schema inside later⟩

/-- Listing the faults of a schema comes to an end. -/
theorem Sound.exists_faults (sound : r.Sound) (schema : Value) :
    ∃ es, r.Faults (r.points schema) es := by
  induction schema using sound.calls_wellFounded.induction with
  | _ schema ih => exact exists_faults_of_schemas fun v hv => ih v (calls_of_mem_points hv)

/-! ## Compiling visits the points -/

/-- A schema that refers to something is logged, and then its points are visited. -/
theorem Sound.compile_visits (sound : r.Sound) {t : Referent} (h : r.resolve schema = .ok t) :
    (fun _ => ()) <$> r.compile schema =
      .log (.compiling t.uri) >>= fun _ => Point.visitAll r.compile (r.points schema) := by
  rw [sound.compile_eq_unfold, unfold, points, h, Logged.ofExcept_ok, pure_bind, map_bind]
  obtain ⟨uri, members, entry⟩ := t
  refine congrArg _ (funext fun _ => ?_)
  cases entry with
  | kind k => exact k.construct_visits
  | learned stored =>
    dsimp only
    split
    · exact Logged.Visits.fail
    · exact Logged.Visits.schema stored

theorem Sound.error?_compile (sound : r.Sound) (schema : Value) :
    (r.compile schema).error? = (Point.visitAll r.compile (r.points schema)).error? := by
  cases h : r.resolve schema with
  | error e =>
    rw [Logged.error?_eq_some_iff.2 (sound.compile_of_resolve_error h), points, h]
    rfl
  | ok t =>
    rw [← Logged.error?_forget, sound.compile_visits h, Logged.error?_bind]
    rfl

/-- Visiting points fails for the first of all their faults. -/
theorem Faults.error?_visitAll (sound : r.Sound) {ps : List Point} {es : List SchemaError}
    (h : r.Faults ps es) : (Point.visitAll r.compile ps).error? = es.head? := by
  induction h with
  | nil => rfl
  | fault _ _ =>
    rw [Point.visitAll_cons, Logged.error?_bind]
    rfl
  | @schema v _ _ _ _ _ inside ih =>
    have first : (Point.visit r.compile (.schema v)).error? = (r.compile v).error? :=
      Logged.error?_forget _
    rw [Point.visitAll_cons, Logged.error?_bind, first, sound.error?_compile, inside, ih,
      List.head?_append]

/-- A compilation blames the first fault. The faults of a schema, all of them and depth first,
make one list. A schema fails to compile for the first fault in the list, with none before it,
and compiles if there is none. -/
theorem compile_blames_first (h : r.Reachable) (schema : Value) :
    ∃ faults, r.Faults (r.points schema) faults ∧
      (∀ others, r.Faults (r.points schema) others → others = faults) ∧
      (∀ e, (r.compile schema).result = .error e ↔ faults.head? = some e) ∧
      ((∃ n, (r.compile schema).result = .ok n) ↔ faults = []) := by
  obtain ⟨faults, listed⟩ := h.sound.exists_faults schema
  have first : (r.compile schema).error? = faults.head? := by
    rw [h.sound.error?_compile, listed.error?_visitAll h.sound]
  refine ⟨faults, listed, fun _ => listed.unique, fun e => ?_, ?_⟩
  · rw [← Logged.error?_eq_some_iff, first]
  · rw [← Logged.error?_eq_none_iff, first, List.head?_eq_none_iff]

/-- A sequence of a record with two faults and of a learned type that is given a parameter. The
record's own fault is blamed. -/
theorem blames_record_of_three_faults :
    let r := core.run [.learn "tag:a" (.string "//int")]
    let record : Value := .map (Table.ofList [("type", .string "//rec"), ("required", .bool true),
      ("optional", .map (Table.ofList [("x", .string "//nope")]))])
    let named : Value := .map (Table.ofList [("type", .string "tag:a"), ("range", .null)])
    let schema : Value := .map (Table.ofList [("type", .string "//seq"),
      ("contents", .seq [record, .string "tag:a"]), ("tail", named)])
    let notFields : SchemaError :=
      .invalidParameter "required" CoreKind.record.uri (.notFields (.bool true))
    r.Reachable ∧
      r.Faults (r.points schema)
        [notFields, .unknownType (coreNamespace ++ "nope"), .composedTypeArguments "tag:a"] ∧
      (r.compile schema).result = .error notFields := by
  intro r record named schema notFields
  have h : r.Reachable := .run .core _
  have integer : r.Faults (r.points (.string "//int")) [] := .nil
  have learned : r.Faults (r.points (.string "tag:a")) [] := .schema integer .nil
  have unknown : r.Faults (r.points (.string "//nope")) [.unknownType (coreNamespace ++ "nope")] :=
    .fault .nil
  have inRecord : r.Faults (r.points record)
      [notFields, .unknownType (coreNamespace ++ "nope")] := .fault (.schema unknown .nil)
  have inNamed : r.Faults (r.points named) [.composedTypeArguments "tag:a"] :=
    .fault (.schema integer .nil)
  have listed : r.Faults (r.points schema)
      [notFields, .unknownType (coreNamespace ++ "nope"), .composedTypeArguments "tag:a"] := by
    have inSchema : r.points schema =
        [.schema record, .schema (.string "tag:a"), .schema named] := by
      unfold schema record named r
      rfl
    rw [inSchema]
    exact .schema inRecord (.schema learned (.schema inNamed .nil))
  obtain ⟨faults, _, unique, blamed, _⟩ := compile_blames_first h schema
  have same := unique _ listed
  refine ⟨h, listed, (blamed notFields).2 ?_⟩
  rw [← same]
  rfl

end Registry

end Conform
