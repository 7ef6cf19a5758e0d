/-
Splitting a schema in two. A record may declare some of its fields itself and
leave the others to a record in its `rest`, and a sequence may name its first
positions and leave the others to a sequence in its `tail`. Either way it
accepts what the undivided schema accepts, and more only where nothing is left
over for the inner schema, which is not consulted then
(`Registry.record_splits`, `Registry.sequence_splits`).

Both are shown of what satisfies a schema (`Registry.Satisfies`), and hold of
what is accepted because these are the same.
-/
import Conform.Proofs.Meaning.Grammar

theorem List.forall₂_append_left_iff {α β : Type} {R : α → β → Prop} {as bs : List α}
    {l : List β} :
    List.Forall₂ R (as ++ bs) l ↔
      ∃ xs ys, l = xs ++ ys ∧ List.Forall₂ R as xs ∧ List.Forall₂ R bs ys := by
  constructor
  · intro h
    refine ⟨l.take as.length, l.drop as.length, (List.take_append_drop _ _).symm, ?_, ?_⟩
    · simpa using List.forall₂_take as.length h
    · simpa using List.forall₂_drop as.length h
  · rintro ⟨xs, ys, rfl, front, back⟩
    exact List.rel_append front back

namespace Conform

namespace Table

variable {α : Type} {t u : Table α}

theorem contains_addAll (name : String) :
    (t.addAll u).contains name = (t.contains name || u.contains name) := by
  simp only [From.contains, From.get?_addAll]
  cases t.get? name <;> cases u.get? name <;> rfl

/-- Two tables have no key in common. -/
def Apart (t u : Table α) : Prop :=
  ∀ name, ¬ (t.contains name = true ∧ u.contains name = true)

instance (t u : Table α) : Decidable (t.Apart u) :=
  decidable_of_iff (∀ name ∈ t.keys, u.contains name = false) <| by
    simp only [Apart, From.contains_iff_mem_keys, not_and, Bool.eq_false_iff, ne_eq]

/-- Of tables without a common key, both have their entries in the table of all entries. -/
theorem Apart.get?_addAll (apart : t.Apart u) {name : String} {v : α} :
    (t.addAll u).get? name = some v ↔ t.get? name = some v ∨ u.get? name = some v := by
  rw [Table.From.get?_addAll]
  cases hu : u.get? name with
  | none => simp
  | some w =>
    have absent : t.get? name ≠ some v := fun ht =>
      apart name ⟨Table.From.contains_of_get? ht, Table.From.contains_of_get? hu⟩
    simp [absent]

end Table

/-- What is left over of a value, if anything is, satisfies the schema that there is for it. -/
def TakesUp (sat : Value → Value → Prop) (schema : Option Value) (nothing : Prop)
    (leftOver : Value) : Prop :=
  ¬ nothing → ∃ s, schema = some s ∧ sat s leftOver

/-! ## Fields -/

/-- The fields that a record declares. -/
structure Fields where
  required : Table Value
  optional : Table Value

namespace Fields

/-- All fields of two declarations have different names. -/
def Apart (f g : Fields) : Prop :=
  [f.required, f.optional, g.required, g.optional].Pairwise Table.Apart

instance (f g : Fields) : Decidable (f.Apart g) :=
  inferInstanceAs (Decidable (List.Pairwise _ _))

/-- The fields of both declarations. -/
def addAll (f g : Fields) : Fields :=
  ⟨f.required.addAll g.required, f.optional.addAll g.optional⟩

def declares (f : Fields) (name : String) : Bool :=
  f.required.contains name || f.optional.contains name

/-- The members of a map that are not declared. -/
def leftOver (f : Fields) (given : Table Value) : Table Value :=
  given.filterKeys fun name => !f.declares name

/-- All required fields are present. -/
def Present (f : Fields) (given : Table Value) : Prop :=
  ∀ name, f.required.contains name = true → given.contains name = true

/-- Required fields are present and satisfy their schemas, and so do optional fields that
are present. -/
structure Admit (sat : Value → Value → Prop) (f : Fields) (given : Table Value) : Prop where
  required : ∀ name part, f.required.get? name = some part →
    ∃ v, given.get? name = some v ∧ sat part v
  optional : ∀ name part v, f.optional.get? name = some part → given.get? name = some v →
    sat part v

/-- The fields are as declared, and the other members of the map, if there are any, satisfy a
schema together. -/
def AdmitWith (sat : Value → Value → Prop) (f : Fields) (rest : Option Value)
    (given : Table Value) : Prop :=
  f.Admit sat given ∧
    TakesUp sat rest ((f.leftOver given).isEmpty = true) (.map (f.leftOver given))

variable {f g : Fields} {given : Table Value} {sat : Value → Value → Prop} {name : String}

theorem Admit.present (h : f.Admit sat given) : f.Present given := by
  intro name there
  obtain ⟨part, hp⟩ := Option.isSome_iff_exists.1 there
  obtain ⟨v, hv, _⟩ := h.required name part hp
  exact Table.From.contains_of_get? hv

theorem declares_addAll (name : String) :
    (f.addAll g).declares name = (f.declares name || g.declares name) := by
  simp only [declares, addAll, Table.contains_addAll]
  ac_rfl

theorem get?_leftOver (name : String) :
    (f.leftOver given).get? name = if f.declares name then none else given.get? name := by
  rw [leftOver, Table.From.get?_filterKeys]
  cases f.declares name <;> rfl

/-- What both declarations leave over is what the second leaves over of what the first does. -/
theorem leftOver_addAll : (f.addAll g).leftOver given = g.leftOver (f.leftOver given) := by
  refine Table.From.ext_get? fun name => ?_
  simp only [get?_leftOver, declares_addAll]
  cases f.declares name <;> cases g.declares name <;> rfl

theorem declares_of_required {part : Value} (h : f.required.get? name = some part) :
    f.declares name = true := by
  rw [declares, Table.From.contains_of_get? h, Bool.true_or]

theorem declares_of_optional {part : Value} (h : f.optional.get? name = some part) :
    f.declares name = true := by
  rw [declares, Table.From.contains_of_get? h, Bool.or_true]

section

variable (apart : f.Apart g)

include apart

theorem Apart.parts :
    f.required.Apart f.optional ∧ g.required.Apart g.optional ∧ f.required.Apart g.required ∧
      f.required.Apart g.optional ∧ f.optional.Apart g.required ∧ f.optional.Apart g.optional := by
  simp only [Apart, List.pairwise_cons, List.forall_mem_cons] at apart
  obtain ⟨⟨hf, hrr, hro, _⟩, ⟨hor, hoo, _⟩, ⟨hg, _⟩, _⟩ := apart
  exact ⟨hf, hg, hrr, hro, hor, hoo⟩

theorem Apart.once : (f.addAll g).required.Apart (f.addAll g).optional := by
  obtain ⟨hf, hg, _, hro, hor, _⟩ := apart.parts
  rintro name ⟨there, there'⟩
  simp only [addAll, Table.contains_addAll, Bool.or_eq_true] at there there'
  rcases there with h | h <;> rcases there' with h' | h'
  · exact hf name ⟨h, h'⟩
  · exact hro name ⟨h, h'⟩
  · exact hor name ⟨h', h⟩
  · exact hg name ⟨h, h'⟩

theorem Apart.not_declared (h : g.declares name = true) : f.declares name = false := by
  obtain ⟨_, _, hrr, hro, hor, hoo⟩ := apart.parts
  rw [declares, Bool.or_eq_true] at h
  rw [declares, Bool.or_eq_false_iff, Bool.eq_false_iff, Bool.eq_false_iff]
  rcases h with h | h
  · exact ⟨fun h' => hrr name ⟨h', h⟩, fun h' => hor name ⟨h', h⟩⟩
  · exact ⟨fun h' => hro name ⟨h', h⟩, fun h' => hoo name ⟨h', h⟩⟩

/-- A map is as both declare it if it is as each of them does. -/
theorem admit_addAll_iff : (f.addAll g).Admit sat given ↔ f.Admit sat given ∧ g.Admit sat given := by
  obtain ⟨_, _, required, _, _, optional⟩ := apart.parts
  constructor
  · intro h
    refine ⟨⟨fun name part hp => ?_, fun name part v hp => ?_⟩,
      ⟨fun name part hp => ?_, fun name part v hp => ?_⟩⟩
    · exact h.required name part (required.get?_addAll.2 (.inl hp))
    · exact h.optional name part v (optional.get?_addAll.2 (.inl hp))
    · exact h.required name part (required.get?_addAll.2 (.inr hp))
    · exact h.optional name part v (optional.get?_addAll.2 (.inr hp))
  · rintro ⟨hf, hg⟩
    refine ⟨fun name part hp => ?_, fun name part v hp => ?_⟩
    · rcases required.get?_addAll.1 hp with hp | hp
      · exact hf.required name part hp
      · exact hg.required name part hp
    · rcases optional.get?_addAll.1 hp with hp | hp
      · exact hf.optional name part v hp
      · exact hg.optional name part v hp

/-- What one declaration says of a map it says of what the other leaves over. -/
theorem admit_leftOver_iff : g.Admit sat (f.leftOver given) ↔ g.Admit sat given := by
  have same {name : String} (h : g.declares name = true) :
      (f.leftOver given).get? name = given.get? name := by
    rw [get?_leftOver, apart.not_declared h]
    rfl
  constructor
  · intro h
    refine ⟨fun name part hp => ?_, fun name part v hp => ?_⟩
    · rw [← same (declares_of_required hp)]
      exact h.required name part hp
    · rw [← same (declares_of_optional hp)]
      exact h.optional name part v hp
  · intro h
    refine ⟨fun name part hp => ?_, fun name part v hp => ?_⟩
    · rw [same (declares_of_required hp)]
      exact h.required name part hp
    · rw [same (declares_of_optional hp)]
      exact h.optional name part v hp

/-- Where nothing is left over for it, a declaration only asks for its required fields. -/
theorem admit_of_nothing (nothing : (f.leftOver given).isEmpty = true)
    (present : g.Present given) : g.Admit sat given := by
  have none {name : String} (h : g.declares name = true) : given.get? name = none := by
    have absent := Table.From.isEmpty_eq_true_iff.1 nothing name
    rwa [Table.From.contains, get?_leftOver, apart.not_declared h, if_neg Bool.false_ne_true,
      Option.isSome_eq_false_iff, Option.isNone_iff_eq_none] at absent
  refine ⟨fun name part hp => ?_, fun name part v hp hv => ?_⟩
  · have there := present name (Table.From.contains_of_get? hp)
    rw [Table.From.contains, none (declares_of_required hp)] at there
    cases there
  · cases (none (declares_of_optional hp)).symm.trans hv

variable {inner : Value} {rest : Option Value}
  (hi : ∀ v, sat inner v ↔ ∃ given, v = .map given ∧ g.AdmitWith sat rest given)

include hi

/-- Where something is left over for it, the inner record is consulted, and decides. -/
theorem admitWith_of_more (more : ¬ (f.leftOver given).isEmpty = true) :
    (f.addAll g).AdmitWith sat rest given ↔ f.AdmitWith sat (some inner) given := by
  have consulted : TakesUp sat (some inner) ((f.leftOver given).isEmpty = true)
      (.map (f.leftOver given)) ↔ g.AdmitWith sat rest (f.leftOver given) := by
    simp [TakesUp, more, hi]
  rw [AdmitWith, AdmitWith, consulted, AdmitWith, admit_leftOver_iff apart,
    admit_addAll_iff apart, leftOver_addAll, and_assoc]

/-- A map is as both declarations have it if it is as the first has it with a record for the
rest, and no required field is missing. -/
theorem admitWith_addAll_iff :
    (f.addAll g).AdmitWith sat rest given ↔
      f.AdmitWith sat (some inner) given ∧ g.Present given := by
  by_cases nothing : (f.leftOver given).isEmpty = true
  · have empty : (g.leftOver (f.leftOver given)).isEmpty = true := by
      rw [Table.From.isEmpty_eq_true_iff] at nothing ⊢
      intro name
      have absent := nothing name
      rw [Table.From.contains] at absent ⊢
      rw [get?_leftOver]
      cases g.declares name
      · exact absent
      · rfl
    simp only [AdmitWith, TakesUp, leftOver_addAll, nothing, empty, not_true, false_implies,
      and_true, admit_addAll_iff apart]
    exact and_congr_right fun _ => ⟨Admit.present, admit_of_nothing apart nothing⟩
  · rw [admitWith_of_more apart hi nothing]
    refine ⟨fun h => ⟨h, ?_⟩, fun h => h.1⟩
    have whole := (admitWith_of_more apart hi nothing).2 h
    exact ((admit_addAll_iff apart).1 whole.1).2.present

end

end Fields

/-! ## Positions -/

/-- Items satisfy schemas position by position, and the sequence of further items, if there are
any, satisfies a schema. -/
def AdmitPositions (sat : Value → Value → Prop) (contents : List Value) (tail : Option Value)
    (items : List Value) : Prop :=
  ∃ front more, items = front ++ more ∧ List.Forall₂ sat contents front ∧
    TakesUp sat tail (more = []) (.seq more)

section

variable {sat : Value → Value → Prop} {front back items : List Value} {tail : Option Value}

theorem CoreKind.admitsSequence_iff {members : Table Value} {contents : List Value} :
    AdmitsSequence sat members contents items ↔
      AdmitPositions sat contents (members.get? "tail") items := by
  constructor
  · intro h
    refine ⟨items.take contents.length, items.drop contents.length,
      (List.take_append_drop _ _).symm, ?_, fun more => h.tail ?_⟩
    · rw [List.forall₂_iff_get]
      refine ⟨by simp [h.enough], fun i hp hi => ?_⟩
      have there : i < items.length := by
        have := h.enough
        omega
      refine h.positions i _ _ (List.getElem?_eq_getElem hp) ?_
      simp [there]
    · simpa using more
  · rintro ⟨front, more, rfl, positions, further⟩
    have length := positions.length_eq
    refine ⟨by simp [length], fun i part item hp hi => ?_, fun longer => ?_⟩
    · obtain ⟨hlt, rfl⟩ := List.getElem?_eq_some_iff.1 hp
      rw [List.getElem?_append_left (length ▸ hlt), List.getElem?_eq_getElem (length ▸ hlt)] at hi
      cases hi
      exact (List.forall₂_iff_get.1 positions).2 i hlt (length ▸ hlt)
    · have nonempty : ¬ more = [] := by
        rintro rfl
        simp [length] at longer
      simpa [length] using further nonempty

/-- Without further items the tail is not consulted. -/
theorem admitPositions_of_length (h : items.length = front.length) :
    AdmitPositions sat front tail items ↔ List.Forall₂ sat front items := by
  constructor
  · rintro ⟨xs, more, rfl, positions, _⟩
    have length := positions.length_eq
    obtain rfl : more = [] := by
      rw [List.length_append, ← length] at h
      exact List.length_eq_zero_iff.1 (by omega)
    rwa [List.append_nil]
  · intro positions
    exact ⟨items, [], (List.append_nil _).symm, positions, fun more => absurd rfl more⟩

/-- Each item stands at one position, or after all of them. -/
theorem admitPositions_append_iff :
    AdmitPositions sat (front ++ back) tail items ↔
      ∃ xs ys more, items = xs ++ ys ++ more ∧ List.Forall₂ sat front xs ∧
        List.Forall₂ sat back ys ∧ TakesUp sat tail (more = []) (.seq more) := by
  constructor
  · rintro ⟨_, more, rfl, positions, further⟩
    obtain ⟨xs, ys, rfl, hx, hy⟩ := List.forall₂_append_left_iff.1 positions
    exact ⟨xs, ys, more, rfl, hx, hy, further⟩
  · rintro ⟨xs, ys, more, rfl, hx, hy, further⟩
    exact ⟨xs ++ ys, more, rfl, List.forall₂_append_left_iff.2 ⟨xs, ys, rfl, hx, hy⟩, further⟩

/-- Positions may be left to a sequence in the tail, except where no item would be left for it. -/
theorem admitPositions_split {inner : Value} (hb : back ≠ [])
    (hi : ∀ v, sat inner v ↔ ∃ items, v = .seq items ∧ AdmitPositions sat back tail items) :
    AdmitPositions sat (front ++ back) tail items ↔
      AdmitPositions sat front (some inner) items ∧ items.length ≠ front.length := by
  rw [admitPositions_append_iff]
  constructor
  · rintro ⟨xs, ys, more, rfl, hx, hy, further⟩
    have consulted : sat inner (.seq (ys ++ more)) :=
      (hi _).2 ⟨_, rfl, ys, more, rfl, hy, further⟩
    refine ⟨⟨xs, ys ++ more, List.append_assoc .., hx, fun _ => ⟨inner, rfl, consulted⟩⟩, ?_⟩
    have nonempty : ys ≠ [] := by
      rintro rfl
      exact hb (List.forall₂_nil_right_iff.1 hy)
    have := hx.length_eq
    have := List.length_pos_iff.2 nonempty
    simp only [List.length_append]
    omega
  · rintro ⟨⟨xs, more, rfl, hx, further⟩, longer⟩
    have nonempty : ¬ more = [] := by
      rintro rfl
      simp [hx.length_eq] at longer
    obtain ⟨_, ⟨⟩, consulted⟩ := further nonempty
    obtain ⟨_, ⟨⟩, ys, rest, rfl, hy, further⟩ := (hi _).1 consulted
    exact ⟨xs, ys, rest, (List.append_assoc ..).symm, hx, hy, further⟩

end

namespace Registry

variable {r : Registry} {schema v : Value}

/-! ## Records -/

/-- A schema of records: it declares fields, it has a schema for the rest or none, and it says
nothing else. -/
inductive RecordSchema (r : Registry) (schema : Value) (f : Fields) (rest : Option Value) : Prop
  | of {uri : String} {members : Table Value}
      (hs : r.resolve schema = .ok ⟨uri, members, .kind (.core .record)⟩)
      (known : ∀ key, members.contains key = true → key = "type" ∨ key ∈ CoreKind.record.parameters)
      (required : CoreKind.Declares members "required" f.required)
      (optional : CoreKind.Declares members "optional" f.optional)
      (hr : members.get? "rest" = rest) : RecordSchema r schema f rest

variable {f g : Fields} {rest : Option Value}

theorem RecordSchema.satisfies_iff (h : r.RecordSchema schema f rest) :
    r.Satisfies schema v ↔ ∃ given, v = .map given ∧ f.AdmitWith r.Satisfies rest given := by
  cases h with
  | @of _ members hs _ required optional hr =>
  subst hr
  have declares : CoreKind.declares members = f.declares := by
    funext name
    rw [CoreKind.declares, required.declared_eq, optional.declared_eq]
    rfl
  have others (given : Table Value) : CoreKind.others members given = f.leftOver given := by
    rw [CoreKind.others, declares]
    rfl
  have admits (given : Table Value) : CoreKind.AdmitsRecord r.Satisfies members given ↔
      f.AdmitWith r.Satisfies (members.get? "rest") given := by
    constructor
    · intro h
      refine ⟨⟨required.declared_eq ▸ h.required, optional.declared_eq ▸ h.optional⟩, fun more => ?_⟩
      rw [← others] at more ⊢
      exact h.rest (Bool.eq_false_iff.2 more)
    · rintro ⟨fields, further⟩
      refine ⟨required.declared_eq ▸ fields.required, optional.declared_eq ▸ fields.optional,
        fun more => ?_⟩
      rw [others] at more ⊢
      exact further (Bool.eq_false_iff.1 more)
  simp only [satisfies_core_iff hs, CoreKind.Admits, admits]

/-- The schema of records with these fields and this rest, under any name for their kind. -/
def recordSchema (name : String) (f : Fields) (rest : Option Value) : Value :=
  .map (Table.ofList ([("type", .string name), ("required", .map f.required),
    ("optional", .map f.optional)] ++ rest.toList.map fun s => ("rest", s)))

theorem recordSchema_spec {name : String} (hn : r.expand name = .ok CoreKind.record.uri)
    (he : r.entry? CoreKind.record.uri = some (.kind (.core .record))) (f : Fields)
    (rest : Option Value) : r.RecordSchema (recordSchema name f rest) f rest := by
  have members {members : Table Value} (hm : members.get? "type" = some (.string name)) :
      r.resolve (.map members) = .ok ⟨CoreKind.record.uri, members, .kind (.core .record)⟩ :=
    resolve_ok_iff_names.2 ⟨name, .member hm, hn, he⟩
  refine .of (members ?_) (fun key there => ?_) (.given ?_) (.given ?_) ?_
  · rw [Table.get?_ofList]
    cases rest <;> rfl
  · rw [Table.contains_ofList_iff] at there
    cases rest <;> simp [CoreKind.parameters] at there ⊢ <;> tauto
  · rw [Table.get?_ofList]
    cases rest <;> rfl
  · rw [Table.get?_ofList]
    cases rest <;> rfl
  · rw [Table.get?_ofList]
    cases rest <;> rfl

/-- All schemas of fields compile. -/
def FieldsCompile (r : Registry) (f : Fields) : Prop :=
  ∀ name part, f.required.get? name = some part ∨ f.optional.get? name = some part →
    CoreKind.Compiles r.compile part

theorem FieldsCompile.addAll (apart : f.Apart g) (hf : r.FieldsCompile f) (hg : r.FieldsCompile g) :
    r.FieldsCompile (f.addAll g) := by
  obtain ⟨_, _, required, _, _, optional⟩ := apart.parts
  rintro name part (hp | hp)
  · exact (required.get?_addAll.1 hp).elim (fun h => hf name part (.inl h))
      fun h => hg name part (.inl h)
  · exact (optional.get?_addAll.1 hp).elim (fun h => hf name part (.inr h))
      fun h => hg name part (.inr h)

theorem FieldsCompile.of_lists {required optional : List (String × Value)}
    (h : ∀ e ∈ required ++ optional, ∃ n, (r.compile e.2).result = .ok n) :
    r.FieldsCompile ⟨Table.ofList required, Table.ofList optional⟩ := by
  have listed {l : List (String × Value)} {name : String} {part : Value}
      (hp : (Table.ofList l).get? name = some part) : (name, part) ∈ l := by
    rw [Table.get?_ofList] at hp
    obtain ⟨_, _, hl, _⟩ := List.lookup_eq_some_iff.1 hp
    rw [← List.mem_reverse, hl]
    exact List.mem_append_right _ List.mem_cons_self
  rintro name part (hp | hp)
  · exact h _ (List.mem_append_left _ (listed hp))
  · exact h _ (List.mem_append_right _ (listed hp))

theorem RecordSchema.compiles (sound : r.Sound) (h : r.RecordSchema schema f rest)
    (once : f.required.Apart f.optional) (fields : r.FieldsCompile f)
    (hr : ∀ s, rest = some s → CoreKind.Compiles r.compile s) :
    CoreKind.Compiles r.compile schema := by
  cases h with
  | @of _ members hs known required optional hr' =>
  subst hr'
  have ok {part : Value} : CoreKind.Compiles r.compile part → r.WellFormed part :=
    sound.compiles_iff.1
  rw [sound.compiles_iff, wellFormed_core_iff hs]
  simp only [CoreKind.Takes, CoreKind.mayHold_fields_iff, required.declared_eq,
    optional.declared_eq]
  exact ⟨known, ⟨required, fun name part hp => ok (fields name part (.inl hp))⟩,
    ⟨optional, fun name part hp => ok (fields name part (.inr hp))⟩, once,
    fun s hs => ok (hr s hs)⟩

theorem Sound.accepts_iff (sound : r.Sound) {n : Node} (hn : (r.compile schema).result = .ok n) :
    n.accepts v = true ↔ r.Satisfies schema v :=
  Checker.accepts_iff.trans (sound.validate_iff hn v)

/-- A record of two declarations may be split into a record of the first, with a record of the
second in its rest. This one accepts a map of which a member is left over for the inner record
just if the undivided record does, and every other map just if the undivided record does or
misses nothing but required fields of the second declaration. -/
theorem record_splits (h : r.Reachable) (apart : f.Apart g) (hf : r.FieldsCompile f)
    (hg : r.FieldsCompile g) (hr : ∀ s, rest = some s → ∃ n, (r.compile s).result = .ok n)
    {whole outer inner : Value} (hw : r.RecordSchema whole (f.addAll g) rest)
    (ho : r.RecordSchema outer f (some inner)) (hi : r.RecordSchema inner g rest) :
    ∃ n m, (r.compile whole).result = .ok n ∧ (r.compile outer).result = .ok m ∧
      (∀ v, n.accepts v = true ↔
        m.accepts v = true ∧ ∃ given, v = .map given ∧ g.Present given) ∧
      ∀ given name, given.contains name = true → f.declares name = false →
        n.accepts (.map given) = m.accepts (.map given) := by
  have sound := h.sound
  obtain ⟨once, once', _⟩ := apart.parts
  have inner_ok := hi.compiles sound once' hg hr
  obtain ⟨n, hn⟩ := hw.compiles sound apart.once (hf.addAll apart hg) hr
  obtain ⟨m, hm⟩ := ho.compiles sound once hf fun s hs => Option.some.inj hs ▸ inner_ok
  refine ⟨n, m, hn, hm, fun v => ?_, fun given name there undeclared => ?_⟩
  · rw [sound.accepts_iff hn, sound.accepts_iff hm, hw.satisfies_iff, ho.satisfies_iff]
    constructor
    · rintro ⟨given, rfl, admits⟩
      obtain ⟨outer, present⟩ :=
        (Fields.admitWith_addAll_iff apart fun _ => hi.satisfies_iff).1 admits
      exact ⟨⟨given, rfl, outer⟩, given, rfl, present⟩
    · rintro ⟨⟨given, rfl, outer⟩, _, ⟨⟩, present⟩
      exact ⟨given, rfl,
        (Fields.admitWith_addAll_iff apart fun _ => hi.satisfies_iff).2 ⟨outer, present⟩⟩
  · have more : ¬ (f.leftOver given).isEmpty = true := by
      rw [Table.From.isEmpty_eq_true_iff]
      intro nothing
      have absent := nothing name
      rw [Table.From.contains, Fields.get?_leftOver, undeclared] at absent
      exact absurd there (Bool.eq_false_iff.1 absent)
    rw [Bool.eq_iff_iff, sound.accepts_iff hn, sound.accepts_iff hm, hw.satisfies_iff,
      ho.satisfies_iff]
    simp only [Value.map.injEq, exists_eq_left',
      Fields.admitWith_of_more apart (fun _ => hi.satisfies_iff) more]

/-- A record whose field `x` is of a learned type, split from one with fields `y` and `z`. A map
that has `x` alone is accepted by the outer record, but not by the undivided one. -/
theorem record_splits_of_learned :
    let r := core.run [.learn "tag:a" (.string "//int")]
    let f : Fields := ⟨Table.ofList [("x", .string "tag:a")], Table.ofList []⟩
    let g : Fields := ⟨Table.ofList [("y", .string "//str")], Table.ofList [("z", .string "//bool")]⟩
    let rest : Value := .map (Table.ofList [("type", .string "//map"), ("values", .string "//int")])
    let whole := recordSchema CoreKind.record.uri (f.addAll g) (some rest)
    let inner := recordSchema "//rec" g (some rest)
    let outer := recordSchema "//rec" f (some inner)
    let given : Table Value :=
      Table.ofList [("x", .number (.int 1)), ("y", .string "a"), ("w", .number (.int 2))]
    let alone : Table Value := Table.ofList [("x", .number (.int 1))]
    let split : Node := .record (Table.ofList [("x", .integer ⟨none, none⟩)]) .nil
      (some (.record (Table.ofList [("y", .string ⟨none, none⟩)])
        (Table.ofList [("z", .boolean)]) (some (.map (.integer ⟨none, none⟩)))))
    r.Reachable ∧ f.Apart g ∧ r.FieldsCompile f ∧ r.FieldsCompile g ∧
      (∃ n, (r.compile rest).result = .ok n) ∧ r.RecordSchema whole (f.addAll g) (some rest) ∧
      r.RecordSchema outer f (some inner) ∧ r.RecordSchema inner g (some rest) ∧
      (r.compile outer).result = .ok split ∧ ∃ n, (r.compile whole).result = .ok n ∧
        n.accepts (.map given) = true ∧ split.accepts (.map given) = true ∧
        n.accepts (.map alone) = false ∧ split.accepts (.map alone) = true := by
  intro r f g rest whole inner outer given alone split
  have h : r.Reachable := .run .core _
  have hn : r.expand "//rec" = .ok CoreKind.record.uri := rfl
  have hu : r.expand CoreKind.record.uri = .ok CoreKind.record.uri := rfl
  have he : r.entry? CoreKind.record.uri = some (.kind (.core .record)) := rfl
  have apart : f.Apart g := by decide
  have hf : r.FieldsCompile f := .of_lists <| by
    simp only [List.append_nil, List.forall_mem_cons]
    exact ⟨⟨_, rfl⟩, by simp⟩
  have hg : r.FieldsCompile g := .of_lists <| by
    simp only [List.cons_append, List.nil_append, List.forall_mem_cons]
    exact ⟨⟨_, rfl⟩, ⟨_, rfl⟩, by simp⟩
  have hr : ∃ n, (r.compile rest).result = .ok n := ⟨_, rfl⟩
  have hw : r.RecordSchema whole (f.addAll g) (some rest) := recordSchema_spec hu he _ _
  have ho : r.RecordSchema outer f (some inner) := recordSchema_spec hn he _ _
  have hi : r.RecordSchema inner g (some rest) := recordSchema_spec hn he _ _
  obtain ⟨n, m, hn, hm, parts, same⟩ :=
    record_splits h apart hf hg (fun s hs => Option.some.inj hs ▸ hr) hw ho hi
  have made : (r.compile outer).result = .ok split := by
    unfold split outer inner rest r f g
    rfl
  obtain rfl : m = split := Except.ok.inj (hm.symm.trans made)
  have accepted : split.accepts (.map given) = true := by
    unfold split given
    rfl
  have accepted' : split.accepts (.map alone) = true := by
    unfold split alone
    rfl
  have missing : ¬ n.accepts (.map alone) = true := by
    rw [parts]
    rintro ⟨_, _, ⟨⟩, present⟩
    exact absurd (present "y" rfl) (by decide)
  exact ⟨h, apart, hf, hg, hr, hw, ho, hi, hm, n, hn, (same given "y" rfl rfl).trans accepted,
    accepted, by simpa using missing, accepted'⟩

/-! ## Sequences -/

/-- A schema of sequences: it has a schema for each of its first positions, it has a schema for
the tail or none, and it says nothing else. -/
inductive SequenceSchema (r : Registry) (schema : Value) (contents : List Value)
    (tail : Option Value) : Prop
  | of {uri : String} {members : Table Value}
      (hs : r.resolve schema = .ok ⟨uri, members, .kind (.core .sequence)⟩)
      (known : ∀ key, members.contains key = true →
        key = "type" ∨ key ∈ CoreKind.sequence.parameters)
      (hc : members.get? "contents" = some (.seq contents)) (ht : members.get? "tail" = tail) :
      SequenceSchema r schema contents tail

variable {contents front back : List Value} {tail : Option Value}

theorem SequenceSchema.satisfies_iff (h : r.SequenceSchema schema contents tail) :
    r.Satisfies schema v ↔
      ∃ items, v = .seq items ∧ AdmitPositions r.Satisfies contents tail items := by
  cases h with
  | of hs _ hc ht =>
  subst ht
  rw [satisfies_core_iff hs]
  simp only [CoreKind.Admits, CoreKind.admitsSequence_iff, hc, Option.some.injEq, Value.seq.injEq]
  constructor
  · rintro ⟨items, _, rfl, rfl, admits⟩
    exact ⟨items, rfl, admits⟩
  · rintro ⟨items, rfl, admits⟩
    exact ⟨items, contents, rfl, rfl, admits⟩

/-- The schema of sequences with these positions and this tail, under any name for their kind. -/
def sequenceSchema (name : String) (contents : List Value) (tail : Option Value) : Value :=
  .map (Table.ofList ([("type", .string name), ("contents", .seq contents)] ++
    tail.toList.map fun s => ("tail", s)))

theorem sequenceSchema_spec {name : String} (hn : r.expand name = .ok CoreKind.sequence.uri)
    (he : r.entry? CoreKind.sequence.uri = some (.kind (.core .sequence))) (contents : List Value)
    (tail : Option Value) :
    r.SequenceSchema (sequenceSchema name contents tail) contents tail := by
  have members {members : Table Value} (hm : members.get? "type" = some (.string name)) :
      r.resolve (.map members) = .ok ⟨CoreKind.sequence.uri, members, .kind (.core .sequence)⟩ :=
    resolve_ok_iff_names.2 ⟨name, .member hm, hn, he⟩
  refine .of (members ?_) (fun key there => ?_) ?_ ?_
  · rw [Table.get?_ofList]
    cases tail <;> rfl
  · rw [Table.contains_ofList_iff] at there
    cases tail <;> simp [CoreKind.parameters] at there ⊢ <;> tauto
  · rw [Table.get?_ofList]
    cases tail <;> rfl
  · rw [Table.get?_ofList]
    cases tail <;> rfl

theorem SequenceSchema.compiles (sound : r.Sound) (h : r.SequenceSchema schema contents tail)
    (ne : contents ≠ []) (positions : ∀ part ∈ contents, CoreKind.Compiles r.compile part)
    (ht : ∀ s, tail = some s → CoreKind.Compiles r.compile s) :
    CoreKind.Compiles r.compile schema := by
  cases h with
  | of hs known hc ht' =>
  subst ht'
  rw [sound.compiles_iff, wellFormed_core_iff hs]
  exact ⟨known, ⟨contents, hc, ne, fun part hp => sound.compiles_iff.1 (positions part hp)⟩,
    fun s hs => sound.compiles_iff.1 (ht s hs)⟩

/-- A sequence of two lists of positions may be split into a sequence of the first, with a sequence
of the second in its tail. This one accepts what the undivided sequence accepts, and only of the
sequences of as many items as there are first positions it accepts more. In an accepted sequence
each item stands at one position and satisfies its schema, or is among the further items for which
the tail is asked. -/
theorem sequence_splits (h : r.Reachable) (hf : front ≠ []) (hb : back ≠ [])
    (positions : ∀ part ∈ front ++ back, ∃ n, (r.compile part).result = .ok n)
    (ht : ∀ s, tail = some s → ∃ n, (r.compile s).result = .ok n) {whole outer inner : Value}
    (hw : r.SequenceSchema whole (front ++ back) tail)
    (ho : r.SequenceSchema outer front (some inner)) (hi : r.SequenceSchema inner back tail) :
    ∃ n m, (r.compile whole).result = .ok n ∧ (r.compile outer).result = .ok m ∧
      (∀ v, n.accepts v = true ↔
        m.accepts v = true ∧ ∃ items, v = .seq items ∧ items.length ≠ front.length) ∧
      (∀ items, items.length = front.length →
        (m.accepts (.seq items) = true ↔ List.Forall₂ r.Satisfies front items)) ∧
      ∀ v, n.accepts v = true ↔ ∃ xs ys more, v = .seq (xs ++ ys ++ more) ∧
        List.Forall₂ r.Satisfies front xs ∧ List.Forall₂ r.Satisfies back ys ∧
        TakesUp r.Satisfies tail (more = []) (.seq more) := by
  have sound := h.sound
  rw [List.forall_mem_append] at positions
  have inner_ok := hi.compiles sound hb positions.2 ht
  obtain ⟨n, hn⟩ := hw.compiles sound (by simp [hf]) (List.forall_mem_append.2 positions) ht
  obtain ⟨m, hm⟩ := ho.compiles sound hf positions.1 fun s hs => Option.some.inj hs ▸ inner_ok
  have whole_iff (v : Value) := (sound.accepts_iff hn).trans (hw.satisfies_iff (v := v))
  have outer_iff (v : Value) := (sound.accepts_iff hm).trans (ho.satisfies_iff (v := v))
  have split (items : List Value) :
      AdmitPositions r.Satisfies (front ++ back) tail items ↔
        AdmitPositions r.Satisfies front (some inner) items ∧ items.length ≠ front.length :=
    admitPositions_split hb fun _ => hi.satisfies_iff
  refine ⟨n, m, hn, hm, fun v => ?_, fun items length => ?_, fun v => ?_⟩
  · rw [whole_iff, outer_iff]
    constructor
    · rintro ⟨items, rfl, admits⟩
      obtain ⟨outer, longer⟩ := (split items).1 admits
      exact ⟨⟨items, rfl, outer⟩, items, rfl, longer⟩
    · rintro ⟨⟨items, rfl, outer⟩, _, ⟨⟩, longer⟩
      exact ⟨items, rfl, (split items).2 ⟨outer, longer⟩⟩
  · rw [outer_iff]
    simp only [Value.seq.injEq, exists_eq_left', admitPositions_of_length length]
  · rw [whole_iff]
    simp only [admitPositions_append_iff]
    constructor
    · rintro ⟨_, rfl, xs, ys, more, rfl, admits⟩
      exact ⟨xs, ys, more, rfl, admits⟩
    · rintro ⟨xs, ys, more, rfl, admits⟩
      exact ⟨_, rfl, xs, ys, more, rfl, admits⟩

/-- A sequence of an integer, a value of a learned type and any number of further strings, split
after its first position. A single integer is accepted by the outer sequence, but not by the
undivided one. -/
theorem sequence_splits_of_learned :
    let r := core.run [.learn "tag:a" (.string "//bool")]
    let tail : Value := .map (Table.ofList [("type", .string "//arr"), ("contents", .string "//str")])
    let whole := sequenceSchema CoreKind.sequence.uri [.string "//int", .string "tag:a"] (some tail)
    let inner := sequenceSchema "//seq" [.string "tag:a"] (some tail)
    let outer := sequenceSchema "//seq" [.string "//int"] (some inner)
    let items : List Value := [.number (.int 1), .bool true, .string "a", .string "b"]
    let alone : List Value := [.number (.int 1)]
    let split : Node := .sequence [.integer ⟨none, none⟩]
      (some (.sequence [.boolean] (some (.array (.string ⟨none, none⟩) none))))
    r.Reachable ∧ (∀ part ∈ [.string "//int"] ++ [.string "tag:a"],
        ∃ n, (r.compile part).result = .ok n) ∧ (∃ n, (r.compile tail).result = .ok n) ∧
      r.SequenceSchema whole ([.string "//int"] ++ [.string "tag:a"]) (some tail) ∧
      r.SequenceSchema outer [.string "//int"] (some inner) ∧
      r.SequenceSchema inner [.string "tag:a"] (some tail) ∧
      (r.compile outer).result = .ok split ∧ ∃ n, (r.compile whole).result = .ok n ∧
        n.accepts (.seq items) = true ∧ split.accepts (.seq items) = true ∧
        n.accepts (.seq alone) = false ∧ split.accepts (.seq alone) = true := by
  intro r tail whole inner outer items alone split
  have h : r.Reachable := .run .core _
  have hn : r.expand "//seq" = .ok CoreKind.sequence.uri := rfl
  have hu : r.expand CoreKind.sequence.uri = .ok CoreKind.sequence.uri := rfl
  have he : r.entry? CoreKind.sequence.uri = some (.kind (.core .sequence)) := rfl
  have positions : ∀ part ∈ [.string "//int"] ++ [.string "tag:a"],
      ∃ n, (r.compile part).result = .ok n := by
    simp only [List.cons_append, List.nil_append, List.forall_mem_cons]
    exact ⟨⟨_, rfl⟩, ⟨_, rfl⟩, by simp⟩
  have ht : ∃ n, (r.compile tail).result = .ok n := ⟨_, rfl⟩
  have hw : r.SequenceSchema whole _ (some tail) := sequenceSchema_spec hu he _ _
  have ho : r.SequenceSchema outer [.string "//int"] (some inner) := sequenceSchema_spec hn he _ _
  have hi : r.SequenceSchema inner [.string "tag:a"] (some tail) := sequenceSchema_spec hn he _ _
  obtain ⟨n, m, hn, hm, parts, _⟩ := sequence_splits h (by simp) (by simp) positions
    (fun s hs => Option.some.inj hs ▸ ht) hw ho hi
  have made : (r.compile outer).result = .ok split := by
    unfold split outer inner tail r
    rfl
  obtain rfl : m = split := Except.ok.inj (hm.symm.trans made)
  have accepted : split.accepts (.seq items) = true := by
    unfold split items
    rfl
  have accepted' : split.accepts (.seq alone) = true := by
    unfold split alone
    rfl
  have longer : n.accepts (.seq items) = true := (parts _).2 ⟨accepted, items, rfl, by decide⟩
  have missing : ¬ n.accepts (.seq alone) = true := by
    rw [parts]
    rintro ⟨_, _, ⟨⟩, length⟩
    exact length rfl
  exact ⟨h, positions, ht, hw, ho, hi, hm, n, hn, longer, accepted, by simpa using missing,
    accepted'⟩

end Registry

end Conform
