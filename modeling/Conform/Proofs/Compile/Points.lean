/-
The points of a schema: the faults in it and the schemas inside it, in the order
in which compiling comes to them (`Kind.points`). They are listed to the end, so
also behind the first fault, and nothing is said of compiling.

A kind does nothing else than visit its points in their order
(`Kind.construct_visits`): at a fault it fails, and a schema it compiles. So what
compiling a schema logs, and the error it fails with, can be read off the points.
-/
import Conform.Proofs.Meaning.Faithful
import Conform.Proofs.Range.Bounds

namespace Conform

inductive Point where
  /-- Something is wrong. -/
  | fault (e : SchemaError)
  /-- There is a schema, with points of its own. -/
  | schema (v : Value)

namespace Point

def schema? : Point → Option Value
  | fault _ => none
  | schema v => some v

/-- Fails at a fault, and compiles a schema. -/
def visit (sub : Value → Logged Node) : Point → Logged Unit
  | fault e => .fail e
  | schema v => (fun _ => ()) <$> sub v

def visitAll (sub : Value → Logged Node) (ps : List Point) : Logged Unit := forM ps (visit sub)

theorem visitAll_append (sub : Value → Logged Node) (ps qs : List Point) :
    visitAll sub (ps ++ qs) = visitAll sub ps >>= fun _ => visitAll sub qs :=
  List.forM_append

theorem visitAll_cons (sub : Value → Logged Node) (p : Point) (ps : List Point) :
    visitAll sub (p :: ps) = visit sub p >>= fun _ => visitAll sub ps :=
  List.forM_cons

theorem visitAll_singleton (sub : Value → Logged Node) (p : Point) :
    visitAll sub [p] = visit sub p := by
  rw [visitAll_cons]
  exact bind_pure_unit

theorem filterMap_schema?_faults (es : List SchemaError) :
    (es.map fault).filterMap schema? = [] := by
  simp [schema?, List.filterMap_map, Function.comp_def]

theorem filterMap_schema?_schemas (vs : List Value) : (vs.map schema).filterMap schema? = vs := by
  simp [schema?, List.filterMap_map, Function.comp_def]

end Point

/-! ## The points of a kind -/

namespace CoreKind

open Point

variable {members : Table Value} {parameter : String}

/-- The points of a parameter that the kind cannot do without. -/
def requiredPoints (k : CoreKind) (members : Table Value) (parameter : String)
    (inside : Value → List Point) : List Point :=
  match members.get? parameter with
  | none => [.fault (.missingParameter parameter k.uri)]
  | some v => inside v

/-- The points of a parameter that may be there. -/
def optionalPoints (members : Table Value) (parameter : String) (inside : Value → List Point) :
    List Point :=
  match members.get? parameter with
  | none => []
  | some v => inside v

/-- The members of a sequence of schemas, which is not to be empty. -/
def schemasPoints (k : CoreKind) (parameter : String) : Value → List Point
  | .seq (v :: vs) => (v :: vs).map .schema
  | v => [.fault (.invalidParameter parameter k.uri (.notSchemas v))]

/-- The points of a parameter that declares fields, field by field in the order of their names. -/
def fieldsPoints (members : Table Value) (parameter : String)
    (inside : String → Value → List Point) : List Point :=
  match members.get? parameter with
  | none => []
  | some (.map fields) => fields.toList.flatMap fun field => inside field.1 field.2
  | some v => [.fault (.invalidParameter parameter CoreKind.record.uri (.notFields v))]

/-- An optional field is not to be required as well. -/
def optionalFieldPoints (members : Table Value) (name : String) (v : Value) : List Point :=
  if (declared members "required").contains name then [.fault (.duplicateField name), .schema v]
  else [.schema v]

def rangePoints (v : Value) : List Point := (Range.faults v).map .fault

def numberPoints (k : CoreKind) : Value → List Point
  | .number _ => []
  | v => [.fault (.invalidParameter "value" k.uri (.notNumber v))]

/-- A number is to be a whole one. -/
def wholePoints : Value → List Point
  | .number n =>
    if n.isIntegral then []
    else [.fault (.invalidParameter "value" CoreKind.integer.uri (.notInteger n))]
  | _ => []

def stringPoints : Value → List Point
  | .string _ => []
  | v => [.fault (.invalidParameter "value" CoreKind.string.uri (.notString v))]

/-- The parameters that a kind does not know, in the order of their names. -/
def unknownFaults (k : CoreKind) (members : Table Value) : List SchemaError :=
  (members.keys.filter fun key => key != "type" && !k.parameters.contains key).map fun key =>
    .unknownParameter key k.uri

/-- The points of the parameters that a kind knows. The kind `any` can do without its `of`, which
`all` cannot. -/
def parameterPoints (members : Table Value) : CoreKind → List Point
  | all => requiredPoints all members "of" (schemasPoints all "of")
  | any => optionalPoints members "of" (schemasPoints any "of")
  | array =>
    requiredPoints array members "contents" (fun v => [.schema v]) ++
      optionalPoints members "length" rangePoints
  | integer =>
    optionalPoints members "value" (numberPoints integer) ++
      optionalPoints members "range" rangePoints ++ optionalPoints members "value" wholePoints
  | map => requiredPoints map members "values" fun v => [.schema v]
  | number =>
    optionalPoints members "value" (numberPoints number) ++
      optionalPoints members "range" rangePoints
  | record =>
    fieldsPoints members "required" (fun _ v => [.schema v]) ++
      fieldsPoints members "optional" (optionalFieldPoints members) ++
      optionalPoints members "rest" fun v => [.schema v]
  | sequence =>
    requiredPoints sequence members "contents" (schemasPoints sequence "contents") ++
      optionalPoints members "tail" fun v => [.schema v]
  | string =>
    optionalPoints members "value" stringPoints ++ optionalPoints members "length" rangePoints
  | boolean | date | defined | fail | nil | scalar | time => []

/-- The points of a schema of the kind. Parameters that the kind does not know come before
those that it knows. -/
def points (k : CoreKind) (members : Table Value) : List Point :=
  (k.unknownFaults members).map .fault ++ k.parameterPoints members

end CoreKind

/-- The points of a schema of a kind. A user's own kind finds one fault at most. -/
def Kind.points : Kind → Table Value → List Point
  | core k, members => k.points members
  | custom k, members =>
    match k.construct members with
    | .ok _ => []
    | .error e => [.fault e]

/-! ## Visiting points -/

/-- What the computation logs, and the error it fails with, are those of visiting the points. -/
def Logged.Visits {α : Type} (sub : Value → Logged Node) (x : Logged α) (ps : List Point) : Prop :=
  (fun _ => ()) <$> x = Point.visitAll sub ps

namespace Logged.Visits

variable {α β : Type} {sub : Value → Logged Node} {x : Logged α} {ps qs : List Point}

theorem bind {f : α → Logged β} (hx : x.Visits sub ps)
    (hf : ∀ a, x.result = .ok a → (f a).Visits sub qs) : (x >>= f).Visits sub (ps ++ qs) := by
  rw [Visits, Point.visitAll_append, ← show _ = _ from hx, map_bind, bind_map_left]
  cases h : x.result with
  | ok a => rw [bind_of_ok h, bind_of_ok h, hf a h]
  | error e => rw [bind_of_error h, bind_of_error h]

theorem pure (a : α) : (Pure.pure a : Logged α).Visits sub [] :=
  map_pure ..

theorem map (h : x.Visits sub ps) (f : α → β) : (f <$> x).Visits sub ps := by
  rw [Visits, ← comp_map]
  exact h

theorem fail {e : SchemaError} : (fail e : Logged α).Visits sub (.fault e :: ps) := by
  rw [Visits, Point.visitAll_cons]
  rfl

theorem schema (v : Value) : (sub v).Visits sub [.schema v] := by
  rw [Visits, Point.visitAll_singleton]
  rfl

/-- A computation that logs nothing fails for the first of the faults, if there are any. -/
theorem ofExcept {r : Except SchemaError α} {es : List SchemaError}
    (h : ∀ e, es.head? = some e ↔ r = .error e) : (ofExcept r).Visits sub (es.map .fault) := by
  cases r with
  | ok a =>
    have none : es = [] := List.head?_eq_none_iff.1 (Option.eq_none_iff_forall_ne_some.2 fun e he =>
      nomatch (h e).1 he)
    rw [none]
    exact pure a
  | error e =>
    obtain ⟨es', rfl⟩ := List.head?_eq_some_iff.1 ((h e).2 rfl)
    exact fail

/-- A table is visited entry by entry. -/
theorem traverse {γ : Type} {f : String → γ → Logged β} {inside : String → γ → List Point}
    {b : Option String} {t : Table.From γ b}
    (h : ∀ k v, (f k v).Visits sub (inside k v)) :
    (t.traverse f).Visits sub (t.toList.flatMap fun e => inside e.1 e.2) := by
  induction t with
  | nil => exact pure _
  | cons k _ v rest ih =>
    rw [Table.From.toList, List.flatMap_cons]
    exact (h k v).bind fun _ _ => ih.map _

end Logged.Visits

/-! ## What a kind visits -/

namespace CoreKind

open Logged

variable {sub : Value → Logged Node} {members : Table Value} {parameter : String}

theorem required_visits {α : Type} {k : CoreKind} {read : Value → Logged α}
    {inside : Value → List Point} (h : ∀ v, (read v).Visits sub (inside v)) :
    (required k members parameter >>= read).Visits sub
      (requiredPoints k members parameter inside) := by
  unfold required requiredPoints
  cases members.get? parameter with
  | none => exact Visits.fail
  | some v => exact h v

theorem optional_visits {α : Type} {read : Value → Logged α} {inside : Value → List Point}
    (h : ∀ v, (read v).Visits sub (inside v)) :
    (optional members parameter read).Visits sub (optionalPoints members parameter inside) := by
  unfold optional optionalPoints
  cases members.get? parameter with
  | none => exact .pure _
  | some v => exact (h v).map _

theorem compileList_visits (vs : List Value) :
    (compileList sub vs).Visits sub (vs.map .schema) := by
  induction vs with
  | nil => exact .pure _
  | cons v vs ih => exact (Visits.schema v).bind fun _ _ => ih.map _

theorem schemas_visits {k : CoreKind} (v : Value) :
    (schemas k sub parameter v).Visits sub (schemasPoints k parameter v) := by
  cases v with
  | seq vs =>
    cases vs with
    | nil => exact .fail
    | cons v vs => exact compileList_visits (v :: vs)
  | _ => exact .fail

theorem fields_visits {α : Type} {read : String → Value → Logged α}
    {inside : String → Value → List Point}
    (h : ∀ name v, (read name v).Visits sub (inside name v)) :
    (fields members parameter >>= fun declared => declared.traverse read).Visits sub
      (fieldsPoints members parameter inside) := by
  unfold fields fieldsPoints
  cases members.get? parameter with
  | none => exact .pure _
  | some v =>
    cases v with
    | map declared => exact .traverse h
    | _ => exact .fail

theorem range_visits (v : Value) : (range v).Visits sub (rangePoints v) :=
  .ofExcept fun _ => Range.head?_faults

theorem numberValue_visits {k : CoreKind} (v : Value) :
    (k.numberValue v).Visits sub (k.numberPoints v) := by
  cases v with
  | number n => exact .pure n
  | _ => exact .fail

theorem stringValue_visits (v : Value) : (stringValue v).Visits sub (stringPoints v) := by
  cases v with
  | string s => exact .pure s
  | _ => exact .fail

theorem numberTest_visits {k : CoreKind} :
    (numberTest k members).Visits sub
      (optionalPoints members "value" k.numberPoints ++
        optionalPoints members "range" rangePoints) :=
  (optional_visits numberValue_visits).bind fun _ _ => (optional_visits range_visits).map _

/-- Whether a value is a whole number is looked at last. -/
theorem integerTest_visits :
    (integerTest members).Visits sub
      (optionalPoints members "value" integer.numberPoints ++
        optionalPoints members "range" rangePoints ++
        optionalPoints members "value" wholePoints) := by
  refine numberTest_visits.bind fun test ok => ?_
  have asks := (numberTest_ok_iff.1 ok).value
  unfold optionalPoints
  generalize members.get? "value" = v, test.value = value at asks
  cases asks with
  | none => exact .pure _
  | @some _ n h =>
    subst h
    dsimp only [wholePoints]
    split
    · exact .pure _
    · exact .fail

theorem stringTest_visits :
    (stringTest members).Visits sub
      (optionalPoints members "value" stringPoints ++
        optionalPoints members "length" rangePoints) :=
  (optional_visits stringValue_visits).bind fun _ _ => (optional_visits range_visits).map _

/-- The optional fields are visited once it is known which are required. -/
theorem constructRecord_visits :
    (constructRecord sub members).Visits sub (record.parameterPoints members) := by
  rw [constructRecord, ← Logged.bind_assoc, parameterPoints, List.append_assoc]
  refine (fields_visits fun _ => Visits.schema).bind fun required ok => ?_
  obtain ⟨fields, given, compiled⟩ := bind_ok_iff.1 ok
  have same (name : String) :
      required.contains name = (declared members "required").contains name := by
    rw [(fields_ok_iff.1 given).declared_eq]
    exact ((Table.From.traverse_ok_iff.1 compiled).contains_eq name).symm
  rw [← Logged.bind_assoc]
  refine (fields_visits fun name v => ?_).bind fun _ _ => (optional_visits Visits.schema).map _
  rw [same, optionalFieldPoints]
  split
  · exact .fail
  · exact .schema v

theorem constructNode_visits (k : CoreKind) :
    (constructNode sub members k).Visits sub (k.parameterPoints members) := by
  cases k with
  | all => exact required_visits fun v => (schemas_visits v).map _
  | any => exact (optional_visits schemas_visits).map _
  | array =>
    rw [constructNode, ← Logged.bind_assoc]
    exact (required_visits Visits.schema).bind fun _ _ => (optional_visits range_visits).map _
  | integer => exact integerTest_visits.map _
  | map => exact required_visits fun v => (Visits.schema v).map _
  | number => exact numberTest_visits.map _
  | record => exact constructRecord_visits
  | sequence =>
    rw [constructNode, ← Logged.bind_assoc]
    exact (required_visits schemas_visits).bind fun _ _ => (optional_visits Visits.schema).map _
  | string => exact stringTest_visits.map _
  | boolean | date | defined | fail | nil | scalar | time => exact .pure _

theorem checkParameters_visits (k : CoreKind) :
    (Logged.ofExcept (checkParameters members k.uri k.parameters)).Visits sub
      ((k.unknownFaults members).map .fault) := by
  refine .ofExcept fun e => ?_
  rw [unknownFaults, List.head?_map, List.head?_filter, checkParameters]
  cases members.keys.find? fun key => key != "type" && !k.parameters.contains key with
  | none => simp
  | some key => simp

theorem construct_visits (k : CoreKind) :
    (k.construct sub members).Visits sub (k.points members) :=
  (checkParameters_visits k).bind fun _ _ => constructNode_visits k

end CoreKind

/-- A kind visits the points of a schema. -/
theorem Kind.construct_visits {sub : Value → Logged Node} {members : Table Value} (k : Kind) :
    (k.construct sub members).Visits sub (k.points members) := by
  cases k with
  | core k => exact CoreKind.construct_visits k
  | custom k =>
    dsimp only [construct, points]
    cases k.construct members with
    | ok n => exact .pure n
    | error e => exact .fail

/-! ## The schemas among the points -/

namespace CoreKind

open Point

variable {members : Table Value} {parameter : String}

theorem filterMap_requiredPoints {k : CoreKind} {s : Shape} {inside : Value → List Point}
    (h : ∀ v, (inside v).filterMap schema? = s.parts v) :
    (requiredPoints k members parameter inside).filterMap schema? =
      (members.get? parameter).elim [] s.parts := by
  unfold requiredPoints
  cases members.get? parameter with
  | none => rfl
  | some v => exact h v

theorem filterMap_optionalPoints {s : Shape} {inside : Value → List Point}
    (h : ∀ v, (inside v).filterMap schema? = s.parts v) :
    (optionalPoints members parameter inside).filterMap schema? =
      (members.get? parameter).elim [] s.parts := by
  unfold optionalPoints
  cases members.get? parameter with
  | none => rfl
  | some v => exact h v

theorem filterMap_schemasPoints {k : CoreKind} (v : Value) :
    (schemasPoints k parameter v).filterMap schema? = Shape.schemas.parts v := by
  unfold schemasPoints
  split
  · exact filterMap_schema?_schemas _
  · next h =>
    cases v with
    | seq vs =>
      cases vs with
      | nil => rfl
      | cons v vs => exact absurd rfl (h v vs)
    | _ => rfl

theorem filterMap_fieldsPoints {inside : String → Value → List Point}
    (h : ∀ name v, (inside name v).filterMap schema? = [v]) :
    (fieldsPoints members parameter inside).filterMap schema? =
      (members.get? parameter).elim [] Shape.fields.parts := by
  unfold fieldsPoints
  split
  · next hv => rw [hv]; rfl
  · next fields hv =>
    rw [hv, List.filterMap_flatMap]
    simp only [h]
    exact List.flatMap_pure_eq_map ..
  · next v hne hv =>
    rw [hv]
    cases v with
    | map fields => exact absurd rfl (hne fields)
    | _ => rfl

theorem filterMap_optionalFieldPoints (name : String) (v : Value) :
    (optionalFieldPoints members name v).filterMap schema? = [v] := by
  unfold optionalFieldPoints
  split <;> rfl

theorem filterMap_numberPoints (k : CoreKind) (v : Value) :
    (k.numberPoints v).filterMap schema? = [] := by
  cases v <;> rfl

theorem filterMap_wholePoints (v : Value) : (wholePoints v).filterMap schema? = [] := by
  unfold wholePoints
  split
  · split <;> rfl
  · rfl

theorem filterMap_stringPoints (v : Value) : (stringPoints v).filterMap schema? = [] := by
  cases v <;> rfl

/-- In data there are no schemas. -/
theorem filterMap_dataPoints {inside : Value → List Point}
    (h : ∀ v, (inside v).filterMap schema? = []) :
    (optionalPoints members parameter inside).filterMap schema? = [] := by
  unfold optionalPoints
  cases members.get? parameter with
  | none => rfl
  | some v => exact h v

/-- The schemas among the points of a kind are those inside, in their order. -/
theorem filterMap_points (k : CoreKind) (members : Table Value) :
    (k.points members).filterMap schema? = k.inner members := by
  have data (p : String) : (members.get? p).elim [] Shape.data.parts = [] := by
    cases members.get? p <;> rfl
  have range (v : Value) : (rangePoints v).filterMap schema? = [] := filterMap_schema?_faults _
  have schema (v : Value) : [Point.schema v].filterMap schema? = Shape.schema.parts v := rfl
  rw [points, List.filterMap_append, filterMap_schema?_faults, List.nil_append]
  cases k with
  | all | any | array | map | record | sequence =>
    simp only [parameterPoints, inner, signature, List.filterMap_append, List.flatMap_cons,
      List.flatMap_nil, List.append_nil, List.append_assoc, data,
      filterMap_requiredPoints filterMap_schemasPoints,
      filterMap_optionalPoints filterMap_schemasPoints, filterMap_requiredPoints schema,
      filterMap_optionalPoints schema, filterMap_dataPoints range,
      filterMap_fieldsPoints fun _ v => schema v,
      filterMap_fieldsPoints filterMap_optionalFieldPoints]
  | integer | number | string =>
    simp only [parameterPoints, inner, signature, List.filterMap_append, List.flatMap_cons,
      List.flatMap_nil, List.append_nil, data, filterMap_dataPoints range,
      filterMap_dataPoints (filterMap_numberPoints _), filterMap_dataPoints filterMap_wholePoints,
      filterMap_dataPoints filterMap_stringPoints]
  | boolean | date | defined | fail | nil | scalar | time => rfl

end CoreKind

theorem Kind.filterMap_points (k : Kind) (members : Table Value) :
    (k.points members).filterMap Point.schema? = k.inner members := by
  cases k with
  | core k => exact k.filterMap_points members
  | custom k =>
    dsimp only [points, inner]
    cases k.construct members <;> rfl

end Conform
