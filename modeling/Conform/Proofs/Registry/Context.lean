/-
Schemas with a hole, and what may be put into it. Schemas that compile to the
same put into the same hole make schemas that compile to the same
(`Registry.Sound.compile_fill`), whatever stands around the hole. In particular
it makes no difference whether a learned type is named or its schema written out.

The hole has to stand where its surroundings expect a schema: of the kinds only
the one of sequences and the one of arrays have a parameter of one name,
`contents`, in which they do not expect the same. And no user's own kind may be
around it, for such a kind can tell one schema from another as data.
-/
import Conform.Proofs.Registry.Sound

namespace Conform

/-- Where a schema may stand directly inside another, and what stands beside it there. -/
inductive Place where
  /-- Among the schemas of `of`. -/
  | of (before after : List Value)
  /-- Among the schemas in the `contents` of a sequence. -/
  | item (before after : List Value)
  /-- The `contents` of an array. -/
  | contents
  | values
  | tail
  | required (name : String) (others : Table Value)
  | optional (name : String) (others : Table Value)
  | rest

namespace Place

def parameter : Place → String
  | of .. => "of"
  | item .. | contents => "contents"
  | values => "values"
  | tail => "tail"
  | required .. => "required"
  | optional .. => "optional"
  | rest => "rest"

/-- What is expected in a parameter that has such a place. -/
def shape : Place → Shape
  | of .. | item .. => .schemas
  | contents | values | tail | rest => .schema
  | required .. | optional .. => .fields

/-- The value of the parameter when a schema stands in the place. -/
def fill (hole : Value) : Place → Value
  | of before after | item before after => .seq (before ++ hole :: after)
  | required name others | optional name others => .map (others.insert name hole)
  | contents | values | tail | rest => hole

theorem parameter_ne_type (p : Place) : p.parameter ≠ "type" := by
  cases p <;> simp [parameter]

section

variable {C : Value → Value → Prop} (refl : ∀ v, C v v) {hole hole' : Value} (h : C hole hole')

include refl h

theorem forall₂_items (before after : List Value) :
    List.Forall₂ C (before ++ hole :: after) (before ++ hole' :: after) := by
  have same (vs : List Value) : List.Forall₂ C vs vs := List.forall₂_same.2 fun v _ => refl v
  exact List.rel_append (same before) (.cons h (same after))

theorem rel_fields (name : String) (others : Table Value) :
    (others.insert name hole).Rel (fun _ => C) (others.insert name hole') := by
  have same : others.Rel (fun _ => C) others := .of_mem fun _ v _ => refl v
  exact same.insertAbove h

end

/-- A place alike with one schema and with another, if these compile to comparable nodes. -/
theorem alike {c : Logged.Comparison} {sub : Value → Logged Node} {hole hole' : Value}
    (h : c.Holds (sub hole) (sub hole')) (p : Place) :
    p.shape.Alike c sub sub (p.fill hole) (p.fill hole') := by
  have refl (v : Value) : c.Holds (sub v) (sub v) := c.refl _
  cases p with
  | of before after | item before after =>
    exact .schemas (forall₂_items (C := fun v w => c.Holds (sub v) (sub w)) refl h before after)
  | required name others | optional name others =>
    exact .fields (rel_fields (C := fun v w => c.Holds (sub v) (sub w)) refl h name others)
  | contents | values | tail | rest => exact .schema h

end Place

/-- A schema that is a map with a type name, and a place in it. -/
structure Frame where
  place : Place
  /-- The members, apart from the parameter that the place is in. -/
  members : Table Value
  name : String
  typeName : typeName? members = some name

/-- A schema with a hole at any depth: the schemas around the hole, from the outermost in. -/
abbrev Context : Type := List Frame

namespace Frame

/-- The members of the schema when a schema stands in the place. -/
def fillMembers (f : Frame) (hole : Value) : Table Value :=
  f.members.insert f.place.parameter (f.place.fill hole)

def fill (f : Frame) (hole : Value) : Value := .map (f.fillMembers hole)

/-- The schema is not of a user's own kind, and if its kind knows the parameter of the
place, then it expects there what the place is made for. -/
structure Fits (f : Frame) (r : Registry) : Prop where
  core : ∀ {uri k}, r.expand f.name = .ok uri → r.entry? uri ≠ some (.kind (.custom k))
  shape : ∀ {uri k s}, r.expand f.name = .ok uri → r.entry? uri = some (.kind (.core k)) →
    (f.place.parameter, s) ∈ k.signature → s = f.place.shape

/-- A schema of one of the core kinds fits if its kind expects a schema in the place. -/
theorem Fits.of_core {f : Frame} {r : Registry} {uri : String} {k : CoreKind}
    (hu : r.expand f.name = .ok uri) (he : r.entry? uri = some (.kind (.core k)))
    (hs : (f.place.parameter, f.place.shape) ∈ k.signature) : f.Fits r where
  core hu' he' := by
    cases hu.symm.trans hu'
    cases he.symm.trans he'
  shape hu' he' hs' := by
    cases hu.symm.trans hu'
    cases he.symm.trans he'
    exact CoreKind.shape_unique hs' hs

end Frame

namespace Context

/-- The schema with a schema in its hole. -/
def fill (context : Context) (hole : Value) : Value := context.foldr Frame.fill hole

def Fits (context : Context) (r : Registry) : Prop := ∀ f ∈ context, f.Fits r

end Context

/-! ## Filling a hole -/

namespace Frame

variable (f : Frame) (hole hole' : Value)

theorem typeName?_fillMembers : typeName? (f.fillMembers hole) = some f.name := by
  rw [typeName?, fillMembers, Table.get?_insert, if_neg f.place.parameter_ne_type.symm]
  exact f.typeName

theorem keys_fillMembers : (f.fillMembers hole).keys = (f.fillMembers hole').keys := by
  have h : f.members.Rel (fun _ _ _ => True) f.members := .of_mem fun _ _ _ => trivial
  exact (h.insertAbove trivial).keys_eq

/-- The members of the two schemas are the same, apart from the parameter of the place. -/
theorem rel_parameter {Q : Value → Value → Prop} (refl : ∀ v, Q v v) {p : String}
    (atPlace : p = f.place.parameter → Q (f.place.fill hole) (f.place.fill hole')) :
    Option.Rel Q ((f.fillMembers hole).get? p) ((f.fillMembers hole').get? p) := by
  rw [fillMembers, fillMembers, Table.get?_insert, Table.get?_insert]
  split
  · next hp => exact .some (atPlace hp)
  · cases f.members.get? p with
    | none => exact .none
    | some v => exact .some (refl v)

end Frame

namespace Registry

variable {r : Registry}

section

variable {schema : Value} {members : Table Value} {name uri : String}
  (hm : schemaMembers? schema = some members) (hn : typeName? members = some name)

include hm hn

theorem resolve_of_bad_name {e : SchemaError} (hu : r.expand name = .error e) :
    r.resolve schema = .error e := by
  simp only [resolve, hm, hn, hu]

theorem resolve_of_unknown (hu : r.expand name = .ok uri) (he : r.entry? uri = none) :
    r.resolve schema = .error (.unknownType uri) := by
  simp only [resolve, hm, hn, hu, he]

theorem resolve_of_known (hu : r.expand name = .ok uri) {e : Entry} (he : r.entry? uri = some e) :
    r.resolve schema = .ok ⟨uri, members, e⟩ :=
  resolve_ok_iff.2 ⟨name, hm, hn, hu, he⟩

end

theorem Sound.compile_of_resolve_error (sound : r.Sound) {schema : Value} {e : SchemaError}
    (h : r.resolve schema = .error e) : (r.compile schema).result = .error e := by
  rw [sound.compile_eq_unfold, unfold, h]
  rfl

/-- What stands in the place makes no difference at all, or the schema is of a core kind,
which expects in the parameter what the place is made for. -/
theorem Sound.compile_frame_cases (sound : r.Sound) {f : Frame} (fits : f.Fits r) :
    (∃ outcome, ∀ hole, (r.compile (f.fill hole)).result = outcome) ∨
      ∃ k : CoreKind, (∀ s, (f.place.parameter, s) ∈ k.signature → s = f.place.shape) ∧
        ∀ hole, (r.compile (f.fill hole)).result =
          (k.construct r.compile (f.fillMembers hole)).result := by
  have hn (hole : Value) := f.typeName?_fillMembers hole
  have refused {e : SchemaError} (h : ∀ hole, r.resolve (f.fill hole) = .error e) :
      ∃ outcome, ∀ hole, (r.compile (f.fill hole)).result = outcome :=
    ⟨_, fun hole => sound.compile_of_resolve_error (h hole)⟩
  cases hu : r.expand f.name with
  | error e =>
    exact .inl (refused fun hole => resolve_of_bad_name rfl (hn hole) hu)
  | ok uri =>
  cases he : r.entry? uri with
  | none =>
    exact .inl (refused fun hole => resolve_of_unknown rfl (hn hole) hu he)
  | some e =>
  have hs (hole : Value) : r.resolve (f.fill hole) = _ := resolve_of_known rfl (hn hole) hu he
  cases e with
  | learned stored =>
    refine .inl ⟨(r.compile (f.fill .null)).result, fun hole => ?_⟩
    rw [sound.compile_learned (hs hole), sound.compile_learned (hs .null),
      f.keys_fillMembers hole .null]
  | kind k =>
    cases k with
    | custom k => exact absurd he (fits.core hu)
    | core k => exact .inr ⟨k, fun _ => fits.shape hu he, fun hole => sound.compile_kind (hs hole)⟩

theorem Sound.compile_frame (sound : r.Sound) {f : Frame} (fits : f.Fits r) {hole hole' : Value}
    (h : (r.compile hole).result = (r.compile hole').result) :
    (r.compile (f.fill hole)).result = (r.compile (f.fill hole')).result := by
  rcases sound.compile_frame_cases fits with ⟨outcome, same⟩ | ⟨k, shape, made⟩
  · rw [same, same]
  rw [made, made]
  refine CoreKind.construct_holds (c := .result) ⟨f.keys_fillMembers hole hole', fun p s hp => ?_⟩
  refine f.rel_parameter hole hole' (fun v => .same v fun _ _ => rfl) fun here => ?_
  rw [shape s (here ▸ hp)]
  exact f.place.alike h

/-- Schemas that compile to the same do so in every hole that fits. -/
theorem Sound.compile_fill (sound : r.Sound) {context : Context} (fits : context.Fits r)
    {hole hole' : Value} (h : (r.compile hole).result = (r.compile hole').result) :
    (r.compile (context.fill hole)).result = (r.compile (context.fill hole')).result := by
  induction context with
  | nil => exact h
  | cons f context ih =>
    exact sound.compile_frame (fits f List.mem_cons_self)
      (ih fun f hf => fits f (List.mem_cons_of_mem _ hf))

/-! ## Naming a learned type or writing out its schema -/

/-- A type name as a schema of its own, with no parameters. -/
def named (name : String) : Value := .map (Table.empty.insert "type" (.string name))

theorem resolve_named {name uri : String} {e : Entry} (hn : r.expand name = .ok uri)
    (he : r.entry? uri = some e) :
    r.resolve (named name) = .ok ⟨uri, Table.empty.insert "type" (.string name), e⟩ :=
  resolve_of_known rfl rfl hn he

/-- A string is short for a map with a type name. -/
theorem Sound.compile_string (sound : r.Sound) (name : String) :
    r.compile (.string name) = r.compile (named name) := by
  have h : r.resolve (.string name) = r.resolve (named name) := rfl
  rw [sound.compile_eq_unfold, sound.compile_eq_unfold (named name), unfold, unfold, h]

/-- The name of a learned type compiles to what its schema compiles to. -/
theorem Sound.compile_named (sound : r.Sound) {name uri : String} {stored : Value}
    (hn : r.expand name = .ok uri) (hu : r.entry? uri = some (.learned stored)) :
    (r.compile (named name)).result = (r.compile stored).result := by
  rw [sound.compile_learned (resolve_named hn hu)]
  rfl

/-- A learned type may be named, as a string or as a map, or its schema may be written
out: whatever stands around it, one compiles to a node if the others do, and to the
same, and one fails if the others do, for the same fault. -/
theorem learned_interchangeable (h : r.Reachable) {name uri : String} {stored : Value}
    (hu : r.entry? uri = some (.learned stored)) (hn : r.expand name = .ok uri)
    {context : Context} (fits : context.Fits r) :
    (∃ n n' n'', (r.compile (context.fill (.string name))).result = .ok n ∧
      (r.compile (context.fill (named name))).result = .ok n' ∧
      (r.compile (context.fill stored)).result = .ok n'' ∧
      n.uri = n''.uri ∧ n'.uri = n''.uri ∧
      ∀ v, n.validate v = n''.validate v ∧ n'.validate v = n''.validate v) ∨
    ∃ e, (r.compile (context.fill (.string name))).result = .error e ∧
      (r.compile (context.fill (named name))).result = .error e ∧
      (r.compile (context.fill stored)).result = .error e := by
  have sound := h.sound
  have hole := sound.compile_named hn hu
  have hole' : (r.compile (.string name)).result = (r.compile stored).result := by
    rw [sound.compile_string, hole]
  rw [sound.compile_fill fits hole, sound.compile_fill fits hole']
  cases (r.compile (context.fill stored)).result with
  | ok n => exact .inl ⟨n, n, n, rfl, rfl, rfl, rfl, rfl, fun _ => ⟨rfl, rfl⟩⟩
  | error e => exact .inr ⟨e, rfl, rfl, rfl⟩

/-- A learned type that is named by a prefix, as the contents of an array in a record. -/
theorem learned_interchangeable_in_field :
    let r := core.run [.addPrefix "ex" "tag:ex:", .learn "tag:ex:a" (.string "//int")]
    let field : Frame :=
      ⟨.required "points" .empty, Table.empty.insert "type" (.string "//rec"), "//rec", rfl⟩
    let array : Frame := ⟨.contents, Table.empty.insert "type" (.string "//arr"), "//arr", rfl⟩
    let context : Context := [field, array]
    r.Reachable ∧ r.entry? "tag:ex:a" = some (.learned (.string "//int")) ∧
      r.expand "/ex/a" = .ok "tag:ex:a" ∧ context.Fits r ∧
      ((∃ n n' n'', (r.compile (context.fill (.string "/ex/a"))).result = .ok n ∧
        (r.compile (context.fill (named "/ex/a"))).result = .ok n' ∧
        (r.compile (context.fill (.string "//int"))).result = .ok n'' ∧
        n.uri = n''.uri ∧ n'.uri = n''.uri ∧
        ∀ v, n.validate v = n''.validate v ∧ n'.validate v = n''.validate v) ∨
      ∃ e, (r.compile (context.fill (.string "/ex/a"))).result = .error e ∧
        (r.compile (context.fill (named "/ex/a"))).result = .error e ∧
        (r.compile (context.fill (.string "//int"))).result = .error e) := by
  intro r field array context
  have h : r.Reachable := .run .core _
  have hu : r.entry? "tag:ex:a" = some (.learned (.string "//int")) := rfl
  have hn : r.expand "/ex/a" = .ok "tag:ex:a" := rfl
  have fits : context.Fits r := by
    intro f hf
    simp only [context, List.mem_cons, List.not_mem_nil, or_false] at hf
    have hr : r.expand "//rec" = .ok CoreKind.record.uri := rfl
    have ha : r.expand "//arr" = .ok CoreKind.array.uri := rfl
    rcases hf with rfl | rfl
    · exact .of_core (k := .record) hr rfl (by decide)
    · exact .of_core (k := .array) ha rfl (by decide)
  exact ⟨h, hu, hn, fits, learned_interchangeable h hu hn fits⟩

end Registry

end Conform
