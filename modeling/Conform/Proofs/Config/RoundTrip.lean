/-
Configurations as JSON text and back. Reading the text of a configuration gives
the configuration with each schema as JSON keeps it (`Config.parse?_jsonText`).
So a configuration that has been read is read back as itself, down to how its
numbers are written (`Config.read_back`).
-/
import Conform.Proofs.Config.Reading

namespace Conform

open Json (Document Numeral Spells)

namespace LearnedType

/-- A type to be learned with its schema as JSON keeps it. -/
def plain (t : LearnedType) : LearnedType := { t with schema := t.schema.plain }

/-- The document as which a type to be learned is written. -/
def document (t : LearnedType) : Document :=
  .object [("uri", .string t.uri), ("schema", t.schema.toJson.document)]

theorem plain_eq_self_iff {t : LearnedType} : t.plain = t ↔ t.schema.plain = t.schema := by
  cases t
  simp [plain]

theorem typeText_plain (t : LearnedType) : Config.typeText t.plain = Config.typeText t := by
  rw [Config.typeText, Config.typeText, Value.jsonText, Value.jsonText, plain, Value.text_plain]

theorem spells_typeText (t : LearnedType) :
    Spells (Config.typeText t).toList t.document.tokens := by
  refine Json.spells_objectText ?_
  rw [Document.memberTokens_eq]
  exact .cons (Json.spells_memberText "uri" (Json.spells_string t.uri))
    (.cons (Json.spells_memberText "schema" (Json.spells_text t.schema.toJson)) .nil)

theorem ofDocument?_document (t : LearnedType) : ofDocument? t.document = some t.plain := by
  rw [ofDocument?, document, Document.fields?_object (by simp [Document.Named, fields])]
  simp [Table.get?_ofList, List.lookup_cons, plain, Value.ofDocument?_document]

end LearnedType

namespace Config

/-- A configuration with each schema as JSON keeps it. -/
def plain (c : Config) : Config := { c with types := c.types.map LearnedType.plain }

/-- The document as which a configuration is written. -/
def document (c : Config) : Document :=
  .object [("load_core", .bool c.loadCore),
    ("prefixes", .object (c.prefixes.toList.map fun p => (p.1, .string p.2))),
    ("types", .array (c.types.map LearnedType.document))]

theorem spells_prefixes (prefixes : Table String) :
    Spells (Json.objectText
        (prefixes.toList.map fun p => Json.memberText p.1 (Json.stringText p.2))).toList
      (Document.object (prefixes.toList.map fun p => (p.1, .string p.2))).tokens := by
  refine Json.spells_objectText ?_
  rw [Document.memberTokens_eq, List.map_map]
  exact List.forall₂_map_left_iff.2 (List.forall₂_map_right_iff.2 (List.forall₂_same.2 fun p _ =>
    Json.spells_memberText p.1 (Json.spells_string p.2)))

theorem spells_types (types : List LearnedType) :
    Spells (Json.arrayText (types.map typeText)).toList
      (Document.array (types.map LearnedType.document)).tokens := by
  refine Json.spells_arrayText ?_
  rw [Document.itemTokens_eq, List.map_map]
  exact List.forall₂_map_left_iff.2 (List.forall₂_map_right_iff.2 (List.forall₂_same.2 fun t _ =>
    t.spells_typeText))

theorem spells_jsonText (c : Config) : Spells c.jsonText.toList c.document.tokens := by
  refine Json.spells_objectText ?_
  rw [Document.memberTokens_eq]
  exact .cons (Json.spells_memberText "load_core" (Json.spells_bool c.loadCore))
    (.cons (Json.spells_memberText "prefixes" (spells_prefixes c.prefixes))
      (.cons (Json.spells_memberText "types" (spells_types c.types)) .nil))

/-! ## Reading what is written -/

theorem prefixesOfDocument?_document (prefixes : Table String) :
    prefixesOfDocument? (some (.object (prefixes.toList.map fun p => (p.1, .string p.2)))) =
      some prefixes := by
  have read : (prefixes.toList.map fun p => (p.1, Document.string p.2)).mapM prefixOfMember? =
      some prefixes.toList :=
    List.mapM_eq_some_iff.2 (List.forall₂_map_left_iff.2 (List.forall₂_same.2 fun p _ => rfl))
  rw [prefixesOfDocument?, read]
  exact congrArg some (Table.From.ofList_toList prefixes)

theorem typesOfDocument?_document (types : List LearnedType) :
    typesOfDocument? (some (.array (types.map LearnedType.document))) =
      some (types.map LearnedType.plain) :=
  List.mapM_eq_some_iff.2 (List.forall₂_map_left_iff.2 (List.forall₂_map_right_iff.2
    (List.forall₂_same.2 fun t _ => t.ofDocument?_document)))

theorem ofDocument?_document (c : Config) : ofDocument? c.document = some c.plain := by
  rw [ofDocument?, document, Document.fields?_object (by simp [Document.Named, fields])]
  simp [Table.get?_ofList, List.lookup_cons, loadCoreOfDocument?, prefixesOfDocument?_document,
    typesOfDocument?_document, plain]

/-- Without JSON data between, the text of a configuration is read as what JSON keeps of it. -/
theorem read?_jsonText (c : Config) : read? c.jsonText = some c.plain := by
  rw [read?, Document.parse?_of_spells c.spells_jsonText]
  exact c.ofDocument?_document

theorem parse?_jsonText (c : Config) : parse? c.jsonText = some c.plain :=
  parse?_of_read? c.read?_jsonText

theorem plain_eq_self_iff {c : Config} :
    c.plain = c ↔ ∀ t ∈ c.types, ∀ u : Value, u.Occurs t.schema → ¬ u.Lost := by
  have types : c.plain = c ↔ c.types.map LearnedType.plain = c.types.map id := by
    cases c
    simp [plain]
  simp only [types, List.map_inj_left, id, LearnedType.plain_eq_self_iff, Value.plain_eq_self_iff]

theorem jsonText_plain (c : Config) : c.plain.jsonText = c.jsonText := by
  have types : c.plain.types.map typeText = c.types.map typeText := by
    simp [plain, LearnedType.typeText_plain]
  rw [jsonText, types]
  rfl

/-- A configuration survives being written and read. It is read from the members of an object, or
from the items of an array, where one that is left out stands for its default. It is read back from
its text exactly if nothing occurs in its schemas that JSON has no form for, and in any case it is
written the second time as the first. So once it has been read, in either way, it is read back as
itself in both ways, with the same registry to be built, or the same entry to be blamed. -/
theorem survives_writing (c : Config) :
    (∀ text, (parse? text = some c ↔
        ∃ j ms, Json.parse? text = some j ∧ j.Gives fields ms ∧ c.GivenBy ms) ∧
      (read? text = some c → parse? text = some c)) ∧
    (parse? c.jsonText = some c ↔ ∀ t ∈ c.types, ∀ u : Value, u.Occurs t.schema → ¬ u.Lost) ∧
    (∃ c', parse? c.jsonText = some c' ∧ c'.jsonText = c.jsonText) ∧
    ∀ text, parse? text = some c ∨ read? text = some c →
      parse? c.jsonText = some c ∧ read? c.jsonText = some c ∧
        (parse? c.jsonText).map build = some c.build ∧
        (parse? c.jsonText).map jsonText = some c.jsonText := by
  refine ⟨fun text => ⟨parse?_eq_some_iff, parse?_of_read?⟩, ?exactly,
    ⟨c.plain, c.parse?_jsonText, c.jsonText_plain⟩, fun text h => ?survives⟩
  case exactly =>
    rw [parse?_jsonText, Option.some.injEq, plain_eq_self_iff]
  case survives =>
    have read : parse? text = some c := h.elim id parse?_of_read?
    have same : c.plain = c := plain_eq_self_iff.2 fun _ ht _ hu => not_lost_of_parse? read ht hu
    rw [parse?_jsonText, read?_jsonText, same]
    exact ⟨rfl, rfl, rfl, rfl⟩

/-- Two members are left out and come back as their defaults, and two numbers that differ in their
spelling alone remain different. -/
theorem survives_writing_with_defaults :
    ∃ text c, text = "\x7b\"types\":[\x7b\"schema\":[4,4.0],\"uri\":\"tag:a:b\"\x7d]\x7d" ∧
      c = ⟨true, .empty, [⟨"tag:a:b", .seq [.number (.int 4),
        .number (.float (.finite false 0x10000000000000 (-50) (by decide)))]⟩]⟩ ∧
      read? text = some c ∧ parse? c.jsonText = some c ∧ read? c.jsonText = some c := by
  obtain ⟨text, htext⟩ : ∃ text, text =
    "\x7b\"types\":[\x7b\"schema\":[4,4.0],\"uri\":\"tag:a:b\"\x7d]\x7d" := ⟨_, rfl⟩
  obtain ⟨c, hc⟩ : ∃ c : Config, c = ⟨true, .empty, [⟨"tag:a:b", .seq [.number (.int 4),
    .number (.float (.finite false 0x10000000000000 (-50) (by decide)))]⟩]⟩ := ⟨_, rfl⟩
  have document : Document.parse? text =
      some (.object [("types", .array [.object [("schema", .array [.numeral ⟨false, 4, 0, true⟩,
        .numeral ⟨false, 40, -1, false⟩]), ("uri", .string "tag:a:b")]])]) := by
    refine Document.parse?_of_tokens ?_
    subst htext
    decide +kernel
  have whole : Number.ofNumeral? Numeral.binary64? ⟨false, 4, 0, true⟩ = some (.int 4) := by
    decide +kernel
  have float : Number.ofNumeral? Numeral.binary64? ⟨false, 40, -1, false⟩ =
      some (.float (.finite false 0x10000000000000 (-50) (by decide))) := by decide +kernel
  have type : LearnedType.ofDocument? (.object [("schema", .array [.numeral ⟨false, 4, 0, true⟩,
      .numeral ⟨false, 40, -1, false⟩]), ("uri", .string "tag:a:b")]) = c.types.head? := by
    rw [LearnedType.ofDocument?, Document.fields?_object (by decide), hc]
    simp [Table.get?_ofList, List.lookup_cons, Value.ofDocument?, Value.ofItems?, whole, float]
  have read : read? text = some c := by
    rw [read?, document, Option.bind_eq_bind, Option.bind_some, ofDocument?,
      Document.fields?_object (by decide)]
    simp [Table.get?_ofList, List.lookup_cons, loadCoreOfDocument?, prefixesOfDocument?,
      typesOfDocument?, type, hc]
  obtain ⟨-, -, -, survives⟩ := survives_writing c
  obtain ⟨back, back', -⟩ := survives text (.inr read)
  exact ⟨text, c, htext, hc, read, back, back'⟩

end Config

end Conform
