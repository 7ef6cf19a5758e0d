/-
Values as JSON text and back. JSON has no form for dates, times and numbers that are not finite;
reading the text of a value gives the value with these replaced (`Value.plain`). So a value is read
back as itself exactly if none of them occurs in it (`Value.json_round_trip`), and the text of what
is read back is the same again for all values. Nesting has no limit here.
-/
import Conform.Proofs.Json.Number
import Conform.Proofs.Json.Text
import Conform.Proofs.Value.Content

namespace Conform

namespace Value

open Json (Document Numeral)

/-! ## What JSON keeps of a value -/

def plainFloat : Binary64 → Value
  | .nan => null
  | .infinite _ => null
  | .finite negative m q h => number (.float (.finite negative m q h))

mutual

/-- A value with the texts of dates and times in their place, and with null in place of numbers
that are not finite. -/
def plain : Value → Value
  | null => null
  | bool b => bool b
  | number (.int n) => number (.int n)
  | number (.float x) => plainFloat x
  | string s => string s
  | seq items => seq (plainItems items)
  | map members => map (plainMembers members)
  | date d => string d.text
  | time t => string t.text

def plainItems : List Value → List Value
  | [] => []
  | v :: vs => v.plain :: plainItems vs

def plainMembers {b : Option String} : Table.From Value b → Table.From Value b
  | .nil => .nil
  | .cons k h v rest => .cons k h v.plain (plainMembers rest)

end

theorem plainItems_eq : (vs : List Value) → plainItems vs = vs.map plain
  | [] => rfl
  | _ :: vs => congrArg _ (plainItems_eq vs)

theorem plainMembers_eq {b : Option String} :
    (t : Table.From Value b) → plainMembers t = t.map plain
  | .nil => rfl
  | .cons _ _ _ rest => congrArg _ (plainMembers_eq rest)

/-- The values that JSON has no form for. -/
inductive Lost : Value → Prop
  | date (d : Date) : Lost (date d)
  | time (t : Timestamp) : Lost (time t)
  | nan : Lost nan
  | infinite (negative : Bool) : Lost (number (.float (.infinite negative)))

mutual

theorem plain_eq_self : (v : Value) → (∀ u, u.Occurs v → ¬ Lost u) → v.plain = v
  | null, _ => rfl
  | bool _, _ => rfl
  | number (.int _), _ => rfl
  | number (.float .nan), h => absurd .nan (h _ .here)
  | number (.float (.infinite negative)), h => absurd (.infinite negative) (h _ .here)
  | number (.float (.finite ..)), _ => rfl
  | string _, _ => rfl
  | seq items, h => congrArg seq (plainItems_eq_self items fun _ hv u hu => h u (.item hv hu))
  | map members, h => congrArg map (plainMembers_eq_self members fun _ he u hu =>
      h u (.member ((Table.From.get?_eq_some_iff _).2 he) hu))
  | date d, h => absurd (.date d) (h _ .here)
  | time t, h => absurd (.time t) (h _ .here)

theorem plainItems_eq_self : (vs : List Value) →
    (∀ v ∈ vs, ∀ u, u.Occurs v → ¬ Lost u) → plainItems vs = vs
  | [], _ => rfl
  | v :: vs, h => by
    rw [List.forall_mem_cons] at h
    rw [plainItems, plain_eq_self v h.1, plainItems_eq_self vs h.2]

theorem plainMembers_eq_self {b : Option String} : (t : Table.From Value b) →
    (∀ e ∈ t.toList, ∀ u, u.Occurs e.2 → ¬ Lost u) → plainMembers t = t
  | .nil, _ => rfl
  | .cons k above v rest, h => by
    rw [Table.From.toList, List.forall_mem_cons] at h
    rw [plainMembers, plain_eq_self v h.1, plainMembers_eq_self rest h.2]

end

/-- What is lost in a value changes the value. -/
theorem not_lost_of_plain_eq {u v : Value} (hu : u.Occurs v) (h : v.plain = v) : ¬ Lost u := by
  -- induction on the way down to `u`: on it no value has changed
  induction hu with
  | here =>
    intro lost
    cases lost with
    | date | time | nan | infinite => cases h
  | @item v items hv _ ih =>
    simp only [plain, plainItems_eq, seq.injEq] at h
    have same : items.map plain = items.map id := by rw [h, List.map_id]
    exact ih (List.map_inj_left.1 same v hv)
  | @member k v members hv _ ih =>
    simp only [plain, plainMembers_eq, map.injEq] at h
    have there := Table.From.get?_map plain k members
    rw [h, hv] at there
    exact ih (Option.some.inj there).symm

theorem plain_eq_self_iff {v : Value} : v.plain = v ↔ ∀ u, u.Occurs v → ¬ Lost u :=
  ⟨fun h _ hu => not_lost_of_plain_eq hu h, plain_eq_self v⟩

/-! ## What is read -/

theorem plain_of_ofNumeral? {n : Numeral} {a : Number}
    (h : Number.ofNumeral? Numeral.binary64? n = some a) : (number a).plain = number a := by
  unfold Number.ofNumeral? at h
  split at h
  · cases h
    rfl
  · obtain ⟨x, read, rfl⟩ := Option.map_eq_some_iff.1 h
    obtain ⟨_, nearest, -⟩ := Numeral.exists_nearest_of_roundsTo Numeral.binary64?_correct read
    cases nearest
    rfl

mutual

/-- All that is read from a document has a form in JSON. -/
theorem plain_of_ofDocument? : (d : Document) → {v : Value} →
    ofDocument? Numeral.binary64? d = some v → v.plain = v
  | .null, _, h => by
    cases h
    rfl
  | .bool _, _, h => by
    cases h
    rfl
  | .numeral _, _, h => by
    obtain ⟨_, read, rfl⟩ := Option.map_eq_some_iff.1 h
    exact plain_of_ofNumeral? read
  | .string _, _, h => by
    cases h
    rfl
  | .array items, _, h => by
    obtain ⟨_, read, rfl⟩ := Option.map_eq_some_iff.1 h
    rw [plain, plainItems_eq, plain_of_ofItems? items read]
  | .object members, _, h => by
    obtain ⟨_, read, rfl⟩ := Option.map_eq_some_iff.1 h
    rw [plain, plainMembers_eq, Table.From.map_ofList, plain_of_ofMembers? members read]

theorem plain_of_ofItems? : (ds : List Document) → {vs : List Value} →
    ofItems? Numeral.binary64? ds = some vs →
    vs.map plain = vs
  | [], _, h => by
    cases h
    rfl
  | d :: ds, _, h => by
    obtain ⟨v, read, h⟩ := Option.bind_eq_some_iff.1 h
    obtain ⟨vs, reads, h⟩ := Option.bind_eq_some_iff.1 h
    cases h
    rw [List.map_cons, plain_of_ofDocument? d read, plain_of_ofItems? ds reads]

theorem plain_of_ofMembers? : (ms : List (String × Document)) → {vs : List (String × Value)} →
    ofMembers? Numeral.binary64? ms = some vs → vs.map (fun e => (e.1, e.2.plain)) = vs
  | [], _, h => by
    cases h
    rfl
  | (k, d) :: ms, _, h => by
    obtain ⟨v, read, h⟩ := Option.bind_eq_some_iff.1 h
    obtain ⟨vs, reads, h⟩ := Option.bind_eq_some_iff.1 h
    cases h
    rw [List.map_cons, plain_of_ofDocument? d read, plain_of_ofMembers? ms reads]

end

/-! ## Reading what is written -/

mutual

/-- The value of the document that a value is written as. -/
theorem ofDocument?_document : (v : Value) →
    ofDocument? Numeral.binary64? v.toJson.document = some v.plain
  | null => rfl
  | bool _ => rfl
  | number (.int n) => by
    rw [toJson, Json.document, ofDocument?, Json.Spelling.ofNumeral?_ofInt]
    rfl
  | number (.float .nan) => rfl
  | number (.float (.infinite _)) => rfl
  | number (.float (.finite negative m q h)) => by
    rw [toJson, Json.document, Json.floatDocument, ofDocument?,
      Json.Spelling.ofNumeral?_ofFinite Layout.readable_json]
    rfl
  | string _ => rfl
  | seq items => by
    rw [toJson, Json.document, ofDocument?, ofItems?_documents items]
    rfl
  | map members => by
    rw [toJson, Json.document, ofDocument?, ofMembers?_documents members]
    exact congrArg (some ∘ map) (Table.From.ofList_toList (plainMembers members))
  | date _ => rfl
  | time _ => rfl

theorem ofItems?_documents : (vs : List Value) →
    ofItems? Numeral.binary64? (Json.itemDocuments (itemsToJson vs)) = some (plainItems vs)
  | [] => rfl
  | v :: vs => by
    rw [itemsToJson, Json.itemDocuments, ofItems?, ofDocument?_document v, ofItems?_documents vs]
    rfl

theorem ofMembers?_documents {b : Option String} : (t : Table.From Value b) →
    ofMembers? Numeral.binary64? (Json.memberDocuments (membersToJson t)) = some (plainMembers t).toList
  | .nil => rfl
  | .cons k _ v rest => by
    rw [membersToJson, Json.memberDocuments, ofMembers?, ofDocument?_document v,
      ofMembers?_documents rest]
    rfl

end

theorem parse?_jsonText (v : Value) : parse? v.jsonText = some v.plain := by
  rw [parse?, parseBy?, jsonText, Json.Document.parse?_text]
  exact ofDocument?_document v

mutual

/-- What JSON keeps of a value is written like the value. -/
theorem text_plain : (v : Value) → v.plain.toJson.text = v.toJson.text
  | null => rfl
  | bool _ => rfl
  | number (.int _) => rfl
  | number (.float .nan) => rfl
  | number (.float (.infinite _)) => rfl
  | number (.float (.finite ..)) => rfl
  | string _ => rfl
  | seq items => congrArg Json.arrayText (itemTexts_plain items)
  | map members => congrArg Json.objectText (memberTexts_plain members)
  | date _ => rfl
  | time _ => rfl

theorem itemTexts_plain : (vs : List Value) →
    Json.itemTexts (itemsToJson (plainItems vs)) = Json.itemTexts (itemsToJson vs)
  | [] => rfl
  | v :: vs => by
    simp only [plainItems, itemsToJson, Json.itemTexts, text_plain v, itemTexts_plain vs]

theorem memberTexts_plain {b : Option String} : (t : Table.From Value b) →
    Json.memberTexts (membersToJson (plainMembers t)) = Json.memberTexts (membersToJson t)
  | .nil => rfl
  | .cons k _ v rest => by
    simp only [plainMembers, membersToJson, Json.memberTexts, text_plain v, memberTexts_plain rest]

end

/-- A value is read back from its JSON text exactly if nothing occurs in it that JSON has no form
for. Any value is written again as the same text after it has been read back. -/
theorem json_round_trip (v : Value) :
    (parse? v.jsonText = some v ↔ ∀ u, u.Occurs v → ¬ Lost u) ∧
      ∃ w, parse? v.jsonText = some w ∧ w.jsonText = v.jsonText := by
  rw [parse?_jsonText, Option.some.injEq]
  exact ⟨plain_eq_self_iff, v.plain, rfl, text_plain v⟩

-- the two zeros have texts of their own, and NaN has none
example : (seq [number (.float (.zero true)), number (.int 0), nan]).jsonText =
    "[-0.0,0,null]" := by
  decide

end Value

end Conform
