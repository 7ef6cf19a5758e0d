/-
Which values are schemas, with nothing said of compiling.

A schema of a core kind has parameters that the kind knows, with what the kind
expects in them (`CoreKind.Takes`). One that names a learned type has no
parameters at all, and one of a user's own kind is what the kind can use. The
well-formed schemas of a registry (`Registry.WellFormed`) are those for which
this holds at every depth. They are the schemas that compile, and the only ones
(`Registry.compiles_iff_wellFormed`).
-/
import Conform.Proofs.Meaning.Faithful
import Conform.Proofs.Number.Exact
import Conform.Proofs.Range

namespace Conform

namespace CoreKind

/-! ## What a kind expects in its parameters -/

/-- A parameter holds schemas, of which there is one at least. -/
def HoldsSchemas (wf : Value → Prop) (members : Table Value) (parameter : String) : Prop :=
  ∃ parts, members.get? parameter = some (.seq parts) ∧ parts ≠ [] ∧ ∀ part ∈ parts, wf part

/-- A parameter may hold something of a sort, and holds nothing else. -/
def MayHold (P : Value → Prop) (members : Table Value) (parameter : String) : Prop :=
  ∀ v, members.get? parameter = some v → P v

/-- A value declares fields, each with a schema. -/
def IsFields (wf : Value → Prop) (v : Value) : Prop :=
  ∃ fields : Table Value, v = .map fields ∧ ∀ name part, fields.get? name = some part → wf part

/-- The members of a schema are as its kind expects them, if it is known which of the
schemas inside are well formed. -/
def Takes (wf : Value → Prop) (members : Table Value) : CoreKind → Prop
  | all => HoldsSchemas wf members "of"
  | any => members.get? "of" = none ∨ HoldsSchemas wf members "of"
  | array => (∃ contents, members.get? "contents" = some contents ∧ wf contents) ∧
    MayHold Range.Written members "length"
  | integer => MayHold (fun v => ∃ n, v = .number n ∧ n.IsWhole) members "value" ∧
    MayHold Range.Written members "range"
  | map => ∃ values, members.get? "values" = some values ∧ wf values
  | number => MayHold (fun v => ∃ n, v = .number n) members "value" ∧
    MayHold Range.Written members "range"
  | record => MayHold (IsFields wf) members "required" ∧ MayHold (IsFields wf) members "optional" ∧
    (∀ name, ¬ ((declared members "required").contains name = true ∧
      (declared members "optional").contains name = true)) ∧
    MayHold wf members "rest"
  | sequence => HoldsSchemas wf members "contents" ∧ MayHold wf members "tail"
  | string => MayHold (fun v => ∃ s, v = .string s) members "value" ∧
    MayHold Range.Written members "length"
  | boolean | date | defined | fail | nil | scalar | time => True

variable {sub : Value → Logged Node} {members : Table Value} {parameter : String}
  {wf wf' : Value → Prop}

theorem HoldsSchemas.mono (h : ∀ parts, members.get? parameter = some (.seq parts) →
    ∀ part ∈ parts, wf part → wf' part) (holds : HoldsSchemas wf members parameter) :
    HoldsSchemas wf' members parameter := by
  obtain ⟨parts, hv, ne, ok⟩ := holds
  exact ⟨parts, hv, ne, fun part hp => h parts hv part hp (ok part hp)⟩

theorem MayHold.mono {P P' : Value → Prop} (h : ∀ v, members.get? parameter = some v → P v → P' v)
    (holds : MayHold P members parameter) : MayHold P' members parameter :=
  fun v hv => h v hv (holds v hv)

/-- A kind takes no less if no less of the schemas inside is well formed. -/
theorem Takes.mono {k : CoreKind} (h : ∀ part ∈ k.inner members, wf part → wf' part)
    (takes : k.Takes wf members) : k.Takes wf' members := by
  have list {k' : CoreKind} {p : String} (hk : k' = k) (hs : (p, .schemas) ∈ k'.signature) :
      HoldsSchemas wf members p → HoldsSchemas wf' members p :=
    HoldsSchemas.mono fun parts hv part hp => h part (hk ▸ mem_inner_of_schemas hs hv hp)
  have single {k' : CoreKind} {p : String} {v : Value} (hk : k' = k)
      (hs : (p, .schema) ∈ k'.signature) (hv : members.get? p = some v) : wf v → wf' v :=
    h v (hk ▸ mem_inner_of_schema hs hv)
  cases k with
  | all => exact list rfl (by decide) takes
  | any => exact takes.imp id (list rfl (by decide))
  | array =>
    obtain ⟨⟨contents, hc, ok⟩, length⟩ := takes
    exact ⟨⟨contents, hc, single rfl (by decide) hc ok⟩, length⟩
  | map =>
    obtain ⟨values, hv, ok⟩ := takes
    exact ⟨values, hv, single rfl (by decide) hv ok⟩
  | record =>
    have fields {p : String} (hs : (p, .fields) ∈ record.signature) :
        MayHold (IsFields wf) members p → MayHold (IsFields wf') members p := by
      refine MayHold.mono fun v hv holds => ?_
      obtain ⟨fields, rfl, ok⟩ := holds
      refine ⟨fields, rfl, fun name part hp => h part ?_ (ok name part hp)⟩
      exact mem_inner_of_declared hs (by rw [declared, hv]; exact hp)
    obtain ⟨required, optional, once, rest⟩ := takes
    exact ⟨fields (by decide) required, fields (by decide) optional, once,
      rest.mono fun v hv => single rfl (by decide) hv⟩
  | sequence =>
    obtain ⟨contents, tail⟩ := takes
    exact ⟨list rfl (by decide) contents, tail.mono fun v hv => single rfl (by decide) hv⟩
  | boolean | date | defined | fail | integer | nil | number | scalar | string | time =>
    exact takes

/-! ## What a kind can make a node of -/

/-- A schema compiles by a function. -/
def Compiles (sub : Value → Logged Node) (schema : Value) : Prop :=
  ∃ n, (sub schema).result = .ok n

theorem exists_compiled_iff {vs : List Value} :
    (∃ ns, Compiled sub vs ns) ↔ ∀ v ∈ vs, Compiles sub v := by
  induction vs with
  | nil => exact ⟨fun _ _ hv => (nomatch hv), fun _ => ⟨[], .nil⟩⟩
  | cons v vs ih =>
    rw [List.forall_mem_cons, ← ih]
    constructor
    · intro h
      obtain ⟨_, h⟩ := h
      cases h with
      | cons head tail => exact ⟨⟨_, head⟩, _, tail⟩
    · intro h
      obtain ⟨⟨n, head⟩, ns, tail⟩ := h
      exact ⟨n :: ns, .cons head tail⟩

theorem exists_optional_iff {α : Type} {R : Value → α → Prop} :
    (∃ o, Option.Rel R (members.get? parameter) o) ↔
      MayHold (fun v => ∃ a, R v a) members parameter := by
  unfold MayHold
  cases members.get? parameter with
  | none => exact ⟨fun _ _ hv => (nomatch hv), fun _ => ⟨none, .none⟩⟩
  | some v =>
    constructor
    · intro h w hw
      obtain ⟨_, h⟩ := h
      cases hw
      cases h with
      | some h => exact ⟨_, h⟩
    · intro h
      obtain ⟨a, h⟩ := h v rfl
      exact ⟨some a, .some h⟩

theorem optional_and_iff {α β : Type} {R : α → β → Prop} {P : β → Prop} {x : Option α}
    {o : Option β} :
    Option.Rel (fun v a => R v a ∧ P a) x o ↔ Option.Rel R x o ∧ ∀ a, o = some a → P a := by
  constructor
  · intro h
    cases h with
    | some h => exact ⟨.some h.1, fun a ha => Option.some.inj ha ▸ h.2⟩
    | none => exact ⟨.none, fun a ha => (nomatch ha)⟩
  · intro h
    obtain ⟨h, ok⟩ := h
    cases h with
    | some h => exact .some ⟨h, ok _ rfl⟩
    | none => exact .none

theorem declares_declared_iff {fields : Table Value} :
    Declares members parameter fields ↔
      MayHold (fun v => ∃ fields, v = .map fields) members parameter ∧
        declared members parameter = fields := by
  constructor
  · intro h
    refine ⟨fun v hv => ?_, h.declared_eq⟩
    cases h with
    | given h => exact ⟨_, Option.some.inj (hv.symm.trans h)⟩
    | none h => cases hv.symm.trans h
  · intro h
    obtain ⟨holds, rfl⟩ := h
    cases hv : members.get? parameter with
    | none =>
      rw [declared, hv]
      exact .none hv
    | some v =>
      obtain ⟨fields, rfl⟩ := holds v hv
      rw [declared, hv]
      exact .given hv

theorem mayHold_fields_iff :
    MayHold (IsFields wf) members parameter ↔
      Declares members parameter (declared members parameter) ∧
        ∀ name part, (declared members parameter).get? name = some part → wf part := by
  rw [declares_declared_iff]
  constructor
  · intro h
    refine ⟨⟨h.mono fun v _ ok => ?_, rfl⟩, fun name part hp => ?_⟩
    · obtain ⟨fields, rfl, _⟩ := ok
      exact ⟨fields, rfl⟩
    · unfold declared at hp
      split at hp
      · next fields hv =>
        obtain ⟨_, he, ok⟩ := h _ hv
        cases he
        exact ok name part hp
      · cases hp
  · intro h v hv
    obtain ⟨⟨holds, _⟩, ok⟩ := h
    obtain ⟨fields, rfl⟩ := holds v hv
    rw [declared, hv] at ok
    exact ⟨fields, rfl, ok⟩

theorem exists_makesRecord_iff :
    (∃ n, Makes sub members record n) ↔ record.Takes (Compiles sub) members := by
  simp only [Takes, mayHold_fields_iff]
  constructor
  · intro h
    obtain ⟨_, h⟩ := h
    cases h with
    | record hd hr hd' ho h =>
      rw [hd.declared_eq, hd'.declared_eq]
      refine ⟨⟨hd, Table.From.exists_rel_iff.1 ⟨_, hr⟩⟩, ⟨hd', fun name part hp => ?_⟩, ?_,
        exists_optional_iff.1 ⟨_, h⟩⟩
      · obtain ⟨n, _, _, hn⟩ := ho.get?_left hp
        exact ⟨n, hn⟩
      · intro name both
        obtain ⟨part, hp⟩ := Option.isSome_iff_exists.1 both.2
        obtain ⟨_, _, free, _⟩ := ho.get?_left hp
        rw [← hr.contains_eq, both.1] at free
        cases free
  · intro h
    obtain ⟨⟨hd, required⟩, ⟨hd', optional⟩, once, rest⟩ := h
    obtain ⟨required', hr⟩ := Table.From.exists_rel_iff.2 required
    obtain ⟨rest', h⟩ := exists_optional_iff.2 rest
    obtain ⟨optional', ho⟩ := Table.From.exists_rel_iff (R := fun name v n =>
        required'.contains name = false ∧ (sub v).result = .ok n).2 fun name part hp => by
      obtain ⟨n, hn⟩ := optional name part hp
      refine ⟨n, Bool.eq_false_iff.2 fun taken => once name ⟨?_, ?_⟩, hn⟩
      · rwa [hr.contains_eq]
      · rw [Table.From.contains, hp]
        rfl
    exact ⟨_, .record hd hr hd' ho h⟩

theorem exists_holdsSchemas_iff :
    (∃ vs ns, members.get? parameter = some (.seq vs) ∧ vs ≠ [] ∧ Compiled sub vs ns) ↔
      HoldsSchemas (Compiles sub) members parameter := by
  simp only [HoldsSchemas, ← exists_compiled_iff]
  constructor
  · intro h
    obtain ⟨vs, ns, hv, ne, h⟩ := h
    exact ⟨vs, hv, ne, ns, h⟩
  · intro h
    obtain ⟨vs, hv, ne, ns, h⟩ := h
    exact ⟨vs, ns, hv, ne, h⟩

/-- There is a node of a schema of the kind if its members are as the kind expects them. -/
theorem exists_makes_iff {k : CoreKind} :
    (∃ n, Makes sub members k n) ↔ k.Takes (Compiles sub) members := by
  have ranges {p : String} : (∃ o, Option.Rel IsRange (members.get? p) o) ↔
      MayHold Range.Written members p := by
    simp only [exists_optional_iff, IsRange, Range.exists_ofValue_iff]
  cases k with
  | all =>
    rw [Takes, ← exists_holdsSchemas_iff]
    constructor
    · intro h
      obtain ⟨_, h⟩ := h
      cases h with
      | all of ne h => exact ⟨_, _, of, ne, h⟩
    · intro h
      obtain ⟨_, _, of, ne, h⟩ := h
      exact ⟨_, .all of ne h⟩
  | any =>
    rw [Takes, ← exists_holdsSchemas_iff]
    constructor
    · intro h
      obtain ⟨_, h⟩ := h
      cases h with
      | any of ne h => exact .inr ⟨_, _, of, ne, h⟩
      | anything of => exact .inl of
    · intro h
      rcases h with of | ⟨_, _, of, ne, h⟩
      · exact ⟨_, .anything of⟩
      · exact ⟨_, .any of ne h⟩
  | array =>
    rw [Takes, ← ranges]
    constructor
    · intro h
      obtain ⟨_, h⟩ := h
      cases h with
      | array contents h limits => exact ⟨⟨_, contents, _, h⟩, _, limits⟩
    · intro h
      obtain ⟨⟨_, contents, _, h⟩, _, limits⟩ := h
      exact ⟨_, .array contents h limits⟩
  | integer =>
    rw [Takes, ← ranges, ← exists_optional_iff]
    simp only [← Number.isIntegral_iff, optional_and_iff]
    constructor
    · intro h
      obtain ⟨_, h⟩ := h
      cases h with
      | integer asks integral => exact ⟨⟨_, asks.value, integral⟩, _, asks.range⟩
    · intro h
      obtain ⟨⟨value, hv, integral⟩, limits, hr⟩ := h
      have asks : Asks members ⟨limits, value⟩ := ⟨hv, hr⟩
      exact ⟨_, .integer asks integral⟩
  | map =>
    constructor
    · intro h
      obtain ⟨_, h⟩ := h
      cases h with
      | map values h => exact ⟨_, values, _, h⟩
    · intro h
      obtain ⟨_, values, _, h⟩ := h
      exact ⟨_, .map values h⟩
  | number =>
    rw [Takes, ← ranges, ← exists_optional_iff]
    constructor
    · intro h
      obtain ⟨_, h⟩ := h
      cases h with
      | number asks => exact ⟨⟨_, asks.value⟩, _, asks.range⟩
    · intro h
      obtain ⟨⟨value, hv⟩, limits, hr⟩ := h
      have asks : Asks members ⟨limits, value⟩ := ⟨hv, hr⟩
      exact ⟨_, .number asks⟩
  | record => exact exists_makesRecord_iff
  | sequence =>
    have tail : (∃ o, Option.Rel (fun v n => (sub v).result = .ok n) (members.get? "tail") o) ↔
        MayHold (Compiles sub) members "tail" := exists_optional_iff
    rw [Takes, ← exists_holdsSchemas_iff, ← tail]
    constructor
    · intro h
      obtain ⟨_, h⟩ := h
      cases h with
      | sequence contents ne h tail => exact ⟨⟨_, _, contents, ne, h⟩, _, tail⟩
    · intro h
      obtain ⟨⟨_, _, contents, ne, h⟩, _, tail⟩ := h
      exact ⟨_, .sequence contents ne h tail⟩
  | string =>
    rw [Takes, ← ranges, ← exists_optional_iff]
    constructor
    · intro h
      obtain ⟨_, h⟩ := h
      cases h with
      | string asks => exact ⟨⟨_, asks.value⟩, _, asks.length⟩
    · intro h
      obtain ⟨⟨value, hv⟩, length, hl⟩ := h
      have asks : AsksString members ⟨value, length⟩ := ⟨hv, hl⟩
      exact ⟨_, .string asks⟩
  | boolean => exact ⟨fun _ => trivial, fun _ => ⟨_, .boolean⟩⟩
  | date => exact ⟨fun _ => trivial, fun _ => ⟨_, .date⟩⟩
  | defined => exact ⟨fun _ => trivial, fun _ => ⟨_, .defined⟩⟩
  | fail => exact ⟨fun _ => trivial, fun _ => ⟨_, .fail⟩⟩
  | nil => exact ⟨fun _ => trivial, fun _ => ⟨_, .nil⟩⟩
  | scalar => exact ⟨fun _ => trivial, fun _ => ⟨_, .scalar⟩⟩
  | time => exact ⟨fun _ => trivial, fun _ => ⟨_, .time⟩⟩

end CoreKind

theorem checkParameters_ok_iff {members : Table Value} {uri : String} {allowed : List String} :
    checkParameters members uri allowed = .ok () ↔
      ∀ key, members.contains key = true → key = "type" ∨ key ∈ allowed := by
  have passes (key : String) :
      (key != "type" && !allowed.contains key) = false ↔ key = "type" ∨ key ∈ allowed := by
    by_cases h : key = "type" <;> simp [h]
  unfold checkParameters
  split
  · next key found =>
    constructor
    · intro h
      cases h
    · intro h
      have refused := List.find?_some found
      have there := Table.From.contains_iff_mem_keys.2 (List.mem_of_find?_eq_some found)
      rw [(passes key).2 (h key there)] at refused
      cases refused
  · next found =>
    refine ⟨fun _ key hk => (passes key).1 ?_, fun _ => rfl⟩
    rw [List.find?_eq_none] at found
    exact Bool.eq_false_iff.2 (found key (Table.From.contains_iff_mem_keys.1 hk))

namespace Registry

/-- A value gives a type name, alone or with parameters beside it: it is a string, or a map
that has a string as its `type`. -/
inductive Names : Value → String → Table Value → Prop
  | alone (name : String) :
      Names (.string name) name (Table.empty.insert "type" (.string name))
  | member {name : String} {members : Table Value}
      (h : members.get? "type" = some (.string name)) : Names (.map members) name members

/-- A value is a well-formed schema. -/
inductive WellFormed (r : Registry) : Value → Prop
  /-- A learned type is named, with no parameters. -/
  | learned {schema stored : Value} {name uri : String} {members : Table Value}
      (hs : Names schema name members) (hu : r.expand name = .ok uri)
      (he : r.entry? uri = some (.learned stored))
      (alone : ∀ key, members.contains key = true → key = "type") : WellFormed r schema
  /-- A user's own kind can make a node of the members. -/
  | custom {schema : Value} {name uri : String} {members : Table Value} {k : CustomKind}
      {n : Node} (hs : Names schema name members) (hu : r.expand name = .ok uri)
      (he : r.entry? uri = some (.kind (.custom k))) (hn : k.construct members = .ok n) :
      WellFormed r schema
  /-- A core kind knows all the parameters and can take what is in them, where nothing is
  taken for well formed that is not. -/
  | core {schema : Value} {name uri : String} {members : Table Value} {k : CoreKind}
      {wf : Value → Prop} (hs : Names schema name members) (hu : r.expand name = .ok uri)
      (he : r.entry? uri = some (.kind (.core k)))
      (known : ∀ key, members.contains key = true → key = "type" ∨ key ∈ k.parameters)
      (inside : ∀ part, wf part → WellFormed r part) (takes : k.Takes wf members) :
      WellFormed r schema

theorem names_iff {schema : Value} {name : String} {members : Table Value} :
    Names schema name members ↔
      schemaMembers? schema = some members ∧ typeName? members = some name := by
  constructor
  · intro h
    cases h with
    | alone name => exact ⟨rfl, rfl⟩
    | member h => exact ⟨rfl, by rw [typeName?, h]; rfl⟩
  · intro h
    obtain ⟨hm, hn⟩ := h
    cases schema with
    | string s =>
      cases hm
      cases hn
      exact .alone _
    | map members =>
      cases hm
      obtain ⟨v, hv, hn⟩ := Option.bind_eq_some_iff.1 hn
      cases v with
      | string s => cases hn; exact .member hv
      | _ => cases hn
    | _ => cases hm

theorem resolve_ok_iff_names {r : Registry} {schema : Value} {t : Referent} :
    r.resolve schema = .ok t ↔
      ∃ name, Names schema name t.members ∧ r.expand name = .ok t.uri ∧
        r.entry? t.uri = some t.entry := by
  simp only [resolve_ok_iff, names_iff, and_assoc]

section

variable {r : Registry} {schema : Value} {uri : String} {members : Table Value}

theorem WellFormed.exists_resolve (h : r.WellFormed schema) : ∃ t, r.resolve schema = .ok t := by
  cases h with
  | learned hs hu he _ | custom hs hu he _ | core hs hu he _ _ _ =>
    exact ⟨⟨_, _, _⟩, resolve_ok_iff_names.2 ⟨_, hs, hu, he⟩⟩

theorem wellFormed_learned_iff {stored : Value}
    (hs : r.resolve schema = .ok ⟨uri, members, .learned stored⟩) :
    r.WellFormed schema ↔ ∀ key, members.contains key = true → key = "type" := by
  constructor
  · intro h
    cases h with
    | learned hs' hu he alone =>
      cases hs.symm.trans (resolve_ok_iff_names (t := ⟨_, _, _⟩).2 ⟨_, hs', hu, he⟩)
      exact alone
    | custom hs' hu he _ | core hs' hu he _ _ _ =>
      cases hs.symm.trans (resolve_ok_iff_names (t := ⟨_, _, _⟩).2 ⟨_, hs', hu, he⟩)
  · intro alone
    obtain ⟨name, hs, hu, he⟩ := resolve_ok_iff_names.1 hs
    exact .learned hs hu he alone

theorem wellFormed_custom_iff {k : CustomKind}
    (hs : r.resolve schema = .ok ⟨uri, members, .kind (.custom k)⟩) :
    r.WellFormed schema ↔ ∃ n, k.construct members = .ok n := by
  constructor
  · intro h
    cases h with
    | custom hs' hu he hn =>
      cases hs.symm.trans (resolve_ok_iff_names (t := ⟨_, _, _⟩).2 ⟨_, hs', hu, he⟩)
      exact ⟨_, hn⟩
    | learned hs' hu he _ | core hs' hu he _ _ _ =>
      cases hs.symm.trans (resolve_ok_iff_names (t := ⟨_, _, _⟩).2 ⟨_, hs', hu, he⟩)
  · intro h
    obtain ⟨n, hn⟩ := h
    obtain ⟨name, hs, hu, he⟩ := resolve_ok_iff_names.1 hs
    exact .custom hs hu he hn

theorem wellFormed_core_iff {k : CoreKind}
    (hs : r.resolve schema = .ok ⟨uri, members, .kind (.core k)⟩) :
    r.WellFormed schema ↔
      (∀ key, members.contains key = true → key = "type" ∨ key ∈ k.parameters) ∧
        k.Takes r.WellFormed members := by
  constructor
  · intro h
    cases h with
    | core hs' hu he known inside takes =>
      cases hs.symm.trans (resolve_ok_iff_names (t := ⟨_, _, _⟩).2 ⟨_, hs', hu, he⟩)
      exact ⟨known, takes.mono fun part _ => inside part⟩
    | learned hs' hu he _ | custom hs' hu he _ =>
      cases hs.symm.trans (resolve_ok_iff_names (t := ⟨_, _, _⟩).2 ⟨_, hs', hu, he⟩)
  · intro h
    obtain ⟨name, hs, hu, he⟩ := resolve_ok_iff_names.1 hs
    exact .core hs hu he h.1 (fun _ h => h) h.2

theorem Sound.compiles_iff (sound : r.Sound) :
    CoreKind.Compiles r.compile schema ↔ r.WellFormed schema := by
  induction schema using sound.calls_wellFounded.induction with
  | _ schema ih =>
    cases hs : r.resolve schema with
    | error e =>
      constructor
      · intro h
        obtain ⟨n, hn⟩ := h
        obtain ⟨t, ht⟩ := sound.resolve_of_compile_ok hn
        cases hs.symm.trans ht
      · intro h
        obtain ⟨t, ht⟩ := h.exists_resolve
        cases hs.symm.trans ht
    | ok t =>
      obtain ⟨uri, members, e⟩ := t
      cases e with
      | learned stored =>
        obtain ⟨_, _, _, he⟩ := resolve_ok_iff_names.1 hs
        obtain ⟨n, hn⟩ := SoundTypes.compiles sound he
        have stored_ok : (r.compile stored).result = .ok n := hn
        rw [wellFormed_learned_iff hs, CoreKind.Compiles, sound.compile_learned hs, stored_ok]
        simp only [Table.From.contains_iff_mem_keys]
        constructor
        · intro h key hk
          obtain ⟨m, hm⟩ := h
          split at hm
          · cases hm
          · next alone =>
            by_contra ne
            exact alone (List.any_eq_true.2 ⟨key, hk, by simpa using ne⟩)
        · intro alone
          refine ⟨n, if_neg fun h => ?_⟩
          obtain ⟨key, hk, ne⟩ := List.any_eq_true.1 h
          simp [alone key hk] at ne
      | kind k =>
        rw [CoreKind.Compiles, sound.compile_kind hs]
        cases k with
        | custom k =>
          rw [wellFormed_custom_iff hs]
          simp only [Kind.construct_custom_result]
        | core k =>
          have construct (n : Node) : ((Kind.core k).construct r.compile members).result = .ok n ↔
              checkParameters members k.uri k.parameters = .ok () ∧
                CoreKind.Makes r.compile members k n := CoreKind.construct_ok_iff
          simp only [construct, exists_and_left, CoreKind.exists_makes_iff, checkParameters_ok_iff,
            wellFormed_core_iff hs]
          -- the schemas inside are compiled on the way, so for them the claim is known
          have inside (part : Value) (hp : part ∈ k.inner members) :
              CoreKind.Compiles r.compile part ↔ r.WellFormed part :=
            ih part (.inside (k := .core k) hs hp)
          exact and_congr_right fun _ => ⟨fun h => h.mono fun part hp => (inside part hp).1,
            fun h => h.mono fun part hp => (inside part hp).2⟩

/-- In every registry that can be set up, the schemas that compile are the well-formed ones. -/
theorem compiles_iff_wellFormed (h : r.Reachable) (schema : Value) :
    (∃ n, (r.compile schema).result = .ok n) ↔ r.WellFormed schema :=
  h.sound.compiles_iff

/-- A record of a learned type is well formed, but not if it declares a field twice, nor if
its optional fields are no map. -/
theorem wellFormed_record_of_learned :
    let r := core.run [.learn "tag:a" (.string "//int")]
    let fields (name : String) : Value := .map (Table.ofList [(name, .string "tag:a")])
    let schema (optional : Value) : Value := .map (Table.ofList
      [("type", .string "//rec"), ("required", fields "x"), ("optional", optional)])
    r.Reachable ∧ r.WellFormed (schema (fields "y")) ∧ ¬ r.WellFormed (schema (fields "x")) ∧
      ¬ r.WellFormed (schema (.seq [])) := by
  intro r fields schema
  have h : r.Reachable := .run .core _
  have good : (r.compile (schema (fields "y"))).result.isOk = true := by
    unfold schema fields r
    rfl
  have twice : (r.compile (schema (fields "x"))).result.isOk = false := by
    unfold schema fields r
    rfl
  have noFields : (r.compile (schema (.seq []))).result.isOk = false := by
    unfold schema fields r
    rfl
  have fails {s : Value} (hs : (r.compile s).result.isOk = false) : ¬ r.WellFormed s := by
    intro formed
    obtain ⟨n, hn⟩ := (compiles_iff_wellFormed h s).2 formed
    rw [hn] at hs
    cases hs
  refine ⟨h, (compiles_iff_wellFormed h _).1 ?_, fails twice, fails noFields⟩
  cases hn : (r.compile (schema (fields "y"))).result with
  | ok n => exact ⟨n, rfl⟩
  | error e =>
    rw [hn] at good
    cases good

end

end Registry

end Conform
