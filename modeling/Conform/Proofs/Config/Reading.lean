/-
How configurations are read. JSON data is read as a configuration if it is an
object with no members but the three known ones, where one that is left out
stands for its default, and if each type in it is an object of a URI and a
schema and of nothing else (`Config.ofJson?_eq_some_iff`). In place of such an
object an array may list the fields in their order (`Json.Gives`).

A document can also be read without JSON data between (`Config.ofDocument?`).
Then no member of these objects may be given twice. What is read so is read
through JSON data as the same configuration (`Config.parse?_of_read?`). Either
way, nothing that JSON has no form for occurs in what is read
(`Config.not_lost_of_parse?`).
-/
import Conform.Proofs.Value.Reading
import Conform.Proofs.Value.RoundTrip
import Conform.Registry.Config

namespace Conform

open Json (Conversion Document Numeral)

namespace Json

variable {names : List String} {ms : List (String × Document)}

/-! ## Fields -/

/-- Data gives these fields to a record with these names. -/
inductive Gives (names : List String) : Json → Table Json → Prop where
  | members {ms : Table Json} (known : ∀ k, ms.contains k = true → k ∈ names) :
    Gives names (.object ms) ms
  | items {items : List Json} (fits : items.length ≤ names.length) :
    Gives names (.array items) (Table.ofList (names.zip items))

theorem fields?_eq_some_iff {j : Json} {fields : Table Json} :
    j.fields? names = some fields ↔ j.Gives names fields := by
  constructor
  · intro h
    cases j with
    | object ms =>
      obtain ⟨known, same⟩ := Option.ite_none_right_eq_some.1 h
      cases same
      refine .members fun k hk => ?_
      exact List.contains_iff_mem.1 (List.all_eq_true.1 known k
        (Table.From.contains_iff_mem_keys.1 hk))
    | array items =>
      obtain ⟨fits, same⟩ := Option.ite_none_right_eq_some.1 h
      cases same
      exact .items fits
    | _ => cases h
  · rintro (known | fits)
    · exact if_pos (List.all_eq_true.2 fun k hk =>
        List.contains_iff_mem.2 (known k (Table.From.contains_iff_mem_keys.2 hk)))
    · exact if_pos fits

/-- The value of a field occurs in the value of the data. -/
theorem Gives.occurs {j field : Json} {fields : Table Json} (h : j.Gives names fields) {k : String}
    (found : fields.get? k = some field) : (Value.ofJson field).Occurs (Value.ofJson j) := by
  cases h with
  | members =>
    rw [Value.ofJson, Value.ofJsonMembers_eq]
    exact .member (by rw [Table.From.get?_map, found]; rfl) .here
  | items =>
    rw [Value.ofJson, Value.ofJsonItems_eq]
    have listed := (List.of_mem_zip (Table.mem_of_get?_ofList found)).2
    exact .item (List.mem_map_of_mem listed) .here

/-- The members of an object have known names, and none is given twice. -/
def Document.Named (known : List String) (ms : List (String × Document)) : Prop :=
  (ms.map Prod.fst).Nodup ∧ ∀ k ∈ ms.map Prod.fst, k ∈ known

instance (known : List String) (ms : List (String × Document)) :
    Decidable (Document.Named known ms) :=
  inferInstanceAs (Decidable (_ ∧ _))

/-- The fields of a record with these names, from a document. -/
def Document.fields? (names : List String) : Document → Option (List (String × Document))
  | .object ms => if Named names ms then some ms else none
  | .array items => if items.length ≤ names.length then some (names.zip items) else none
  | _ => none

theorem Document.fields?_object (named : Named names ms) :
    (Document.object ms).fields? names = some ms :=
  if_pos named

/-! ## Data from documents -/

variable {convert : Conversion} {items : List Document}

theorem ofItems?_of_forall₂ {js : List Json}
    (h : List.Forall₂ (fun d j => ofDocument? convert d = some j) items js) :
    ofItems? convert items = some js := by
  induction h with
  | nil => rfl
  | cons head _ ih =>
    rw [ofItems?, head, ih]
    rfl

theorem ofMembers?_of_forall₂ {js : List (String × Json)}
    (h : List.Forall₂ (fun e e' => e.1 = e'.1 ∧ ofDocument? convert e.2 = some e'.2) ms js) :
    ofMembers? convert ms = some js := by
  induction h with
  | nil => rfl
  | @cons e e' _ _ head _ ih =>
    obtain ⟨k, j⟩ := e'
    obtain ⟨rfl, read⟩ := head
    rw [ofMembers?, read, ih]
    rfl

/-- What is found at known names has data. -/
def HaveData (convert : Conversion) (names : List String) (ms : List (String × Document)) : Prop :=
  ∀ k ∈ names, ∀ d, (Table.ofList ms).get? k = some d → ∃ j, ofDocument? convert d = some j

/-- The members of an object, with known names, have data. -/
theorem exists_data_of_members (named : Document.Named names ms) (h : HaveData convert names ms) :
    ∃ t : Table Json, ofDocument? convert (.object ms) = some (.object t) ∧
      (∀ k, t.contains k = true → k ∈ names) ∧
      (Table.ofList ms).Rel (fun _ d j => ofDocument? convert d = some j) t := by
  obtain ⟨js, hjs⟩ : ∃ js : List (String × Json),
      List.Forall₂ (fun e e' => e.1 = e'.1 ∧ ofDocument? convert e.2 = some e'.2) ms js := by
    refine List.exists_forall₂ fun e he => ?_
    obtain ⟨j, read⟩ := h e.1 (named.2 e.1 (List.mem_map_of_mem he)) e.2
      (Table.get?_ofList_of_mem named.1 he)
    exact ⟨(e.1, j), rfl, read⟩
  have rel := Table.From.Rel.ofList (R := fun _ d j => ofDocument? convert d = some j) hjs
  refine ⟨Table.ofList js, by rw [ofDocument?, ofMembers?_of_forall₂ hjs]; rfl, fun k hk => ?_, rel⟩
  rw [← rel.contains_eq, Table.contains_ofList_iff] at hk
  exact named.2 k hk

/-- The items of an array, no more than there are names for, have data. -/
theorem exists_data_of_items (distinct : names.Nodup) (fits : items.length ≤ names.length)
    (h : HaveData convert names (names.zip items)) :
    ∃ js, ofDocument? convert (.array items) = some (.array js) ∧
      List.Forall₂ (fun d j => ofDocument? convert d = some j) items js := by
  have keys : ((names.zip items).map Prod.fst).Nodup :=
    distinct.sublist (List.map_fst_zip_sublist names items)
  obtain ⟨js, hjs⟩ : ∃ js, List.Forall₂ (fun d j => ofDocument? convert d = some j) items js := by
    refine List.exists_forall₂ fun d hd => ?_
    have listed : d ∈ (names.zip items).map Prod.snd := by rwa [List.map_snd_zip fits]
    obtain ⟨⟨k, _⟩, he, rfl⟩ := List.mem_map.1 listed
    exact h k (List.of_mem_zip he).1 _ (Table.get?_ofList_of_mem keys he)
  exact ⟨js, by rw [ofDocument?, ofItems?_of_forall₂ hjs]; rfl, hjs⟩

/-- A document that gives fields has data that gives them, if each of them has data. -/
theorem exists_data_of_fields (distinct : names.Nodup) {d : Document}
    (given : d.fields? names = some ms) (h : HaveData convert names ms) :
    ∃ j fields, ofDocument? convert d = some j ∧ j.Gives names fields ∧
      (Table.ofList ms).Rel (fun _ d j => ofDocument? convert d = some j) fields := by
  cases d with
  | object members =>
    obtain ⟨named, same⟩ := Option.ite_none_right_eq_some.1 given
    cases same
    obtain ⟨t, data, known, rel⟩ := exists_data_of_members named h
    exact ⟨.object t, t, data, .members known, rel⟩
  | array items =>
    obtain ⟨fits, same⟩ := Option.ite_none_right_eq_some.1 given
    cases same
    obtain ⟨js, data, each⟩ := exists_data_of_items distinct fits h
    exact ⟨.array js, Table.ofList (names.zip js), data, .items (each.length_eq ▸ fits),
      .ofList (each.zip_left names)⟩
  | _ => cases given

end Json

namespace LearnedType

/-- These are the fields of a type to be learned, a URI and a schema. -/
structure GivenBy (ms : Table Json) (t : LearnedType) : Prop where
  uri : ms.get? "uri" = some (.string t.uri)
  schema : ∃ j, ms.get? "schema" = some j ∧ Value.ofJson j = t.schema

/-- A type to be learned, from a document. -/
def ofDocument? (d : Document) : Option LearnedType := do
  let ms ← d.fields? fields
  match (Table.ofList ms).get? "uri", (Table.ofList ms).get? "schema" with
  | some (.string uri), some schema => (⟨uri, ·⟩) <$> Value.ofDocument? Numeral.binary64? schema
  | _, _ => none

end LearnedType

namespace Config

variable {c : Config}

/-! ## From JSON data -/

theorem typeOfJson?_eq_some_iff {j : Json} {t : LearnedType} :
    typeOfJson? j = some t ↔ ∃ ms, j.Gives LearnedType.fields ms ∧ t.GivenBy ms := by
  simp only [typeOfJson?, Option.bind_eq_bind, Option.bind_eq_some_iff, Json.fields?_eq_some_iff]
  refine exists_congr fun ms => and_congr_right fun _ => ⟨fun h => ?_, fun h => ?_⟩
  · split at h
    · next uri schema huri hschema =>
      cases h
      exact ⟨huri, schema, hschema, rfl⟩
    · cases h
  · obtain ⟨huri, schema, hschema, value⟩ := h
    rw [huri, hschema]
    simp only [value]

example : typeOfJson? (.array [.string "tag:a:b", .null]) = some ⟨"tag:a:b", .null⟩ := rfl

theorem loadCoreOfJson?_eq_some_iff {member : Option Json} {b : Bool} :
    loadCoreOfJson? member = some b ↔ member.getD (.bool true) = .bool b := by
  cases member with
  | none => simp [loadCoreOfJson?, eq_comm]
  | some j => cases j <;> simp [loadCoreOfJson?]

theorem prefixesOfJson?_eq_some_iff {member : Option Json} {prefixes : Table String} :
    prefixesOfJson? member = some prefixes ↔
      member.getD (.object .nil) = .object (prefixes.map .string) := by
  cases member with
  | none =>
    simp only [prefixesOfJson?, Option.getD_none, Option.some.injEq, Json.object.injEq]
    cases prefixes with
    | nil => simp [Table.empty, Table.From.map]
    | cons => simp [Table.empty, Table.From.map]
  | some j =>
    cases j with
    | object ms =>
      simp only [prefixesOfJson?, Table.From.traverse_eq_some_iff, Option.getD_some,
        Json.object.injEq, Table.From.eq_map_iff]
      refine ⟨fun h => h.imp fun _ j base hj => ?_, fun h => h.imp fun _ j base hj => ?_⟩
      · split at hj
        · cases hj
          rfl
        · cases hj
      · rw [hj]
    | _ => simp [prefixesOfJson?]

theorem typesOfJson?_eq_some_iff {member : Option Json} {types : List LearnedType} :
    typesOfJson? member = some types ↔ ∃ js, member.getD (.array []) = .array js ∧
      List.Forall₂ (fun j t => ∃ ms, j.Gives LearnedType.fields ms ∧ t.GivenBy ms) js types := by
  simp only [← typeOfJson?_eq_some_iff, ← List.mapM_eq_some_iff]
  cases member with
  | none => simp [typesOfJson?, eq_comm]
  | some j => cases j <;> simp [typesOfJson?]

/-- These are the fields of a configuration. One that is left out stands for its default: the core
kinds are there, and there are no prefixes and no types. -/
structure GivenBy (ms : Table Json) (c : Config) : Prop where
  loadCore : (ms.get? "load_core").getD (.bool true) = .bool c.loadCore
  prefixes : (ms.get? "prefixes").getD (.object .nil) = .object (c.prefixes.map .string)
  types : ∃ js, (ms.get? "types").getD (.array []) = .array js ∧
    List.Forall₂ (fun j t => ∃ ms, j.Gives LearnedType.fields ms ∧ LearnedType.GivenBy ms t) js
      c.types

theorem ofJson?_eq_some_iff {j : Json} :
    ofJson? j = some c ↔ ∃ ms, j.Gives fields ms ∧ c.GivenBy ms := by
  simp only [ofJson?, Option.bind_eq_bind, Option.bind_eq_some_iff, Json.fields?_eq_some_iff,
    loadCoreOfJson?_eq_some_iff, prefixesOfJson?_eq_some_iff, typesOfJson?_eq_some_iff]
  refine exists_congr fun ms => and_congr_right fun _ => ⟨fun h => ?_, fun h => ?_⟩
  · obtain ⟨_, loadCore, _, prefixes, _, types, same⟩ := h
    cases same
    exact ⟨loadCore, prefixes, types⟩
  · exact ⟨_, h.loadCore, _, h.prefixes, _, h.types, rfl⟩

theorem parse?_eq_some_iff {text : String} :
    parse? text = some c ↔
      ∃ j ms, Json.parse? text = some j ∧ j.Gives fields ms ∧ c.GivenBy ms := by
  simp only [parse?, Option.bind_eq_bind, Option.bind_eq_some_iff, ofJson?_eq_some_iff,
    exists_and_left]

/-! ## From documents -/

/-- Whether to load the core kinds, from a member that may be left out. -/
def loadCoreOfDocument? : Option Document → Option Bool
  | none => some true
  | some (.bool b) => some b
  | some _ => none

def prefixOfMember? : String × Document → Option (String × String)
  | (name, .string base) => some (name, base)
  | _ => none

/-- Prefixes, from a member that may be left out. Of the bases that are given for a name, the last
one counts. -/
def prefixesOfDocument? : Option Document → Option (Table String)
  | none => some Table.empty
  | some (.object ms) => Table.ofList <$> ms.mapM prefixOfMember?
  | some _ => none

/-- Types, from a member that may be left out. -/
def typesOfDocument? : Option Document → Option (List LearnedType)
  | none => some []
  | some (.array items) => items.mapM LearnedType.ofDocument?
  | some _ => none

/-- A configuration, from a document. -/
def ofDocument? (d : Document) : Option Config := do
  let ms ← d.fields? fields
  let loadCore ← loadCoreOfDocument? ((Table.ofList ms).get? "load_core")
  let prefixes ← prefixesOfDocument? ((Table.ofList ms).get? "prefixes")
  let types ← typesOfDocument? ((Table.ofList ms).get? "types")
  some ⟨loadCore, prefixes, types⟩

/-- The configuration that a text is, read without JSON data between. -/
def read? (text : String) : Option Config := do
  let d ← Document.parse? text
  ofDocument? d

/-! ## Reading through JSON data instead -/

theorem exists_data_of_value {d : Document} {v : Value}
    (h : Value.ofDocument? Numeral.binary64? d = some v) :
    ∃ j, Json.ofDocument? Numeral.binary64? d = some j ∧ Value.ofJson j = v := by
  rw [← Value.map_ofJson_ofDocument? _ d] at h
  exact Option.map_eq_some_iff.1 h

theorem exists_data_of_type {d : Document} {t : LearnedType}
    (h : LearnedType.ofDocument? d = some t) :
    ∃ j, Json.ofDocument? Numeral.binary64? d = some j ∧ typeOfJson? j = some t := by
  obtain ⟨ms, given, h⟩ := Option.bind_eq_some_iff.1 h
  split at h
  · next uri schema huri hschema =>
    obtain ⟨v, read, rfl⟩ := Option.map_eq_some_iff.1 h
    obtain ⟨j, hj, value⟩ := exists_data_of_value read
    obtain ⟨data, fields, hdata, gives, rel⟩ :=
      Json.exists_data_of_fields (by decide) given fun k hk d hd => by
        rcases List.mem_pair.1 hk with rfl | rfl
        · cases huri.symm.trans hd
          exact ⟨.string uri, rfl⟩
        · cases hschema.symm.trans hd
          exact ⟨j, hj⟩
    obtain ⟨_, foundUri, hu⟩ := rel.get?_left huri
    obtain ⟨_, foundSchema, hs⟩ := rel.get?_left hschema
    cases hu
    cases hj.symm.trans hs
    exact ⟨data, hdata,
      typeOfJson?_eq_some_iff.2 ⟨fields, gives, foundUri, j, foundSchema, value⟩⟩
  · cases h

/-- What is read of a member from a document, or of its absence, is read from the data of the
document as well. -/
structure ReadRefines {α : Type} (fromDocument? : Option Document → Option α)
    (fromJson? : Option Json → Option α) : Prop where
  absent : fromDocument? none = fromJson? none
  data {d : Document} {a : α} (h : fromDocument? (some d) = some a) :
    ∃ j, Json.ofDocument? Numeral.binary64? d = some j ∧ fromJson? (some j) = some a

theorem ReadRefines.read {α : Type} {fromDocument? : Option Document → Option α}
    {fromJson? : Option Json → Option α} (refines : ReadRefines fromDocument? fromJson?)
    {ms : List (String × Document)} {data : Table Json}
    (rel : (Table.ofList ms).Rel
      (fun _ d j => Json.ofDocument? Numeral.binary64? d = some j) data) (k : String)
    {a : α} (h : fromDocument? ((Table.ofList ms).get? k) = some a) :
    fromJson? (data.get? k) = some a := by
  have found := rel.get? k
  cases hd : (Table.ofList ms).get? k with
  | none =>
    rw [hd] at found h
    generalize data.get? k = member at found
    cases found
    rw [← refines.absent, h]
  | some d =>
    rw [hd] at h
    obtain ⟨j, hj, read⟩ := refines.data h
    obtain ⟨_, member, hm⟩ := rel.get?_left hd
    cases hj.symm.trans hm
    rw [member, read]

theorem loadCore_refines : ReadRefines loadCoreOfDocument? loadCoreOfJson? where
  absent := rfl
  data {d b} h := by
    cases d with
    | bool =>
      cases h
      exact ⟨.bool b, rfl, rfl⟩
    | _ => cases h

theorem prefixOfMember?_eq_some_iff {e : String × Document} {p : String × String} :
    prefixOfMember? e = some p ↔ e = (p.1, .string p.2) := by
  obtain ⟨name, d⟩ := e
  obtain ⟨name', base⟩ := p
  cases d <;> simp [prefixOfMember?]

theorem prefixes_refines : ReadRefines prefixesOfDocument? prefixesOfJson? where
  absent := rfl
  data {d prefixes} h := by
    cases d with
    | object ms =>
      obtain ⟨ps, read, rfl⟩ := Option.map_eq_some_iff.1 h
      have members : List.Forall₂
          (fun e e' => e.1 = e'.1 ∧ Json.ofDocument? Numeral.binary64? e.2 = some e'.2) ms
          (ps.map fun p => (p.1, Json.string p.2)) := by
        refine List.forall₂_map_right_iff.2 ((List.mapM_eq_some_iff.1 read).imp fun e p he => ?_)
        rw [prefixOfMember?_eq_some_iff.1 he]
        exact ⟨rfl, rfl⟩
      refine ⟨.object ((Table.ofList ps).map .string), ?_, prefixesOfJson?_eq_some_iff.2 rfl⟩
      rw [Json.ofDocument?, Json.ofMembers?_of_forall₂ members, Table.From.map_ofList]
      rfl
    | _ => cases h

theorem exists_data_of_types {items : List Document} {types : List LearnedType}
    (h : List.Forall₂ (fun d t => LearnedType.ofDocument? d = some t) items types) :
    ∃ js, List.Forall₂ (fun d j => Json.ofDocument? Numeral.binary64? d = some j) items js ∧
      List.Forall₂ (fun j t => typeOfJson? j = some t) js types := by
  induction h with
  | nil => exact ⟨[], .nil, .nil⟩
  | cons head _ ih =>
    obtain ⟨j, hj, read⟩ := exists_data_of_type head
    obtain ⟨js, hjs, reads⟩ := ih
    exact ⟨j :: js, .cons hj hjs, .cons read reads⟩

theorem types_refines : ReadRefines typesOfDocument? typesOfJson? where
  absent := rfl
  data {d types} h := by
    cases d with
    | array items =>
      obtain ⟨js, hjs, reads⟩ := exists_data_of_types (List.mapM_eq_some_iff.1 h)
      refine ⟨.array js, ?_, List.mapM_eq_some_iff.2 reads⟩
      rw [Json.ofDocument?, Json.ofItems?_of_forall₂ hjs]
      rfl
    | _ => cases h

/-- What is read from a document without JSON data between is read through the data as well. -/
theorem exists_data_of_ofDocument? {d : Document} (h : ofDocument? d = some c) :
    ∃ j, Json.ofDocument? Numeral.binary64? d = some j ∧ ofJson? j = some c := by
  obtain ⟨ms, given, h⟩ := Option.bind_eq_some_iff.1 h
  obtain ⟨_, loadCore, h⟩ := Option.bind_eq_some_iff.1 h
  obtain ⟨_, prefixes, h⟩ := Option.bind_eq_some_iff.1 h
  obtain ⟨_, types, h⟩ := Option.bind_eq_some_iff.1 h
  cases h
  obtain ⟨j, data, hj, gives, rel⟩ :=
    Json.exists_data_of_fields (by decide) given fun k hk d hd => by
      simp only [fields, List.mem_cons, List.not_mem_nil, or_false] at hk
      rcases hk with rfl | rfl | rfl
      · obtain ⟨j, hj, _⟩ := loadCore_refines.data (hd ▸ loadCore)
        exact ⟨j, hj⟩
      · obtain ⟨j, hj, _⟩ := prefixes_refines.data (hd ▸ prefixes)
        exact ⟨j, hj⟩
      · obtain ⟨j, hj, _⟩ := types_refines.data (hd ▸ types)
        exact ⟨j, hj⟩
  refine ⟨j, hj, ofJson?_eq_some_iff.2 ⟨data, gives, ?_, ?_, ?_⟩⟩
  · exact loadCoreOfJson?_eq_some_iff.1 (loadCore_refines.read rel _ loadCore)
  · exact prefixesOfJson?_eq_some_iff.1 (prefixes_refines.read rel _ prefixes)
  · exact typesOfJson?_eq_some_iff.1 (types_refines.read rel _ types)

theorem parse?_of_read? {text : String} (h : read? text = some c) : parse? text = some c := by
  obtain ⟨d, hd, read⟩ := Option.bind_eq_some_iff.1 h
  obtain ⟨j, hj, through⟩ := exists_data_of_ofDocument? read
  simp [parse?, Json.parse?, Json.parseBy?, hd, hj, through]

/-! ## What is read -/

/-- Each schema of a configuration occurs in the value of the data that it is read from. -/
theorem GivenBy.occurs {j : Json} {ms : Table Json} (gives : j.Gives fields ms) (h : c.GivenBy ms)
    {t : LearnedType} (ht : t ∈ c.types) : t.schema.Occurs (Value.ofJson j) := by
  obtain ⟨js, items, types⟩ := h.types
  obtain ⟨item, hitem, fields, givesType, given⟩ := types.exists_of_mem_right ht
  obtain ⟨schema, hschema, value⟩ := given.schema
  have there : ms.get? "types" = some (.array js) := by
    cases member : ms.get? "types" with
    | none =>
      rw [member] at items
      cases items
      cases hitem
    | some j =>
      rw [member] at items
      exact congrArg some items
  have inType : t.schema.Occurs (Value.ofJson item) := value ▸ givesType.occurs hschema
  have inTypes : t.schema.Occurs (Value.ofJson (.array js)) := by
    rw [Value.ofJson, Value.ofJsonItems_eq]
    exact .item (List.mem_map_of_mem hitem) inType
  exact inTypes.trans (gives.occurs there)

/-- Nothing that JSON has no form for occurs in a configuration that is read. -/
theorem not_lost_of_parse? {text : String} (h : parse? text = some c) {t : LearnedType}
    (ht : t ∈ c.types) {u : Value} (hu : u.Occurs t.schema) : ¬ u.Lost := by
  obtain ⟨j, ms, hj, gives, given⟩ := parse?_eq_some_iff.1 h
  obtain ⟨d, hd, data⟩ := Option.bind_eq_some_iff.1 hj
  have value : Value.ofDocument? Numeral.binary64? d = some (Value.ofJson j) := by
    rw [← Value.map_ofJson_ofDocument? _ d, data]
    rfl
  have occurs : u.Occurs (Value.ofJson j) := hu.trans (given.occurs gives ht)
  exact Value.plain_eq_self_iff.1 (Value.plain_of_ofDocument? d value) u occurs

end Config

end Conform
