/-
What becomes of a value that is checked by a record, in full. The rules of
`Node.RecordOutcome` say in which order a record looks at a map: at the members
of declared fields by key, then for the required fields, then at what is left
over. Whatever a record answers, a rule has it, and there is no other answer
(`Node.record_outcome`).
-/
import Conform.Proofs.Check.Descent

namespace Conform.Node

variable {required optional : Table Node} {rest : Option Node} {given : Table Value}

/-! ## Texts -/

/-- Keys as they are listed in a message: in their order, each between single quotes. -/
def listed (keys : List String) : String :=
  ", ".intercalate (keys.map fun key => "'" ++ key ++ "'")

theorem fieldPath_eq (key : String) : Checker.fieldPath key = "/rec:'" ++ key ++ "'" := by
  rw [Checker.fieldPath, Text.mention, ← String.append_assoc, ← String.append_assoc]
  rfl

theorem missing_text (key : String) (keys : List String) :
    "expected key " ++ Text.mention key ++ " in [" ++ Text.mentions keys ++ "]" =
      "expected key '" ++ key ++ "' in [" ++ listed keys ++ "]" := by
  have opening : "expected key '" = "expected key " ++ "'" := rfl
  have closing : "' in [" = "'" ++ " in [" := rfl
  rw [Text.mention, Text.mentions_eq, listed, opening, closing]
  simp only [String.append_assoc]

/-! ## Members of a map -/

/-- What stands at a key of a map, if anything does and the key is a declared field, is accepted
by the node of the field. -/
def AcceptedAt (required optional : Table Node) (given : Table Value) (key : String) : Prop :=
  ∀ w n, given.get? key = some w → field? required optional key = some n → n.validate w = .ok ()

theorem memberAccepted_iff {e : String × Value} (he : e ∈ given.toList) :
    MemberAccepted required optional e ↔ AcceptedAt required optional given e.1 := by
  have there := (Table.From.get?_eq_some_iff given).2 he
  constructor
  · intro h w n hw declared
    cases there.symm.trans hw
    exact h n declared
  · exact fun h n declared => h e.2 n there declared

/-- The members of a map that are left over are those of undeclared keys, with their values. -/
theorem get?_others (key : String) :
    (others required optional given).get? key =
      if (field? required optional key).isNone then given.get? key else none :=
  Table.From.get?_filterKeys _ key given

/-- A member of a map is of a declared field or is left over, and not both. -/
theorem declared_xor_left_over {key : String} {w : Value} (h : given.get? key = some w) :
    Xor (∃ n, field? required optional key = some n)
      ((others required optional given).get? key = some w) := by
  rw [get?_others]
  cases field? required optional key with
  | none => exact .inr ⟨h, by simp⟩
  | some n => exact .inl ⟨⟨n, rfl⟩, by simp⟩

/-! ## The outcome -/

/-- The outcome of a record for a value. Of several faults the one with the foremost rule is told,
and of several such the one with the least key. -/
inductive RecordOutcome (required optional : Table Node) :
    Option Node → Value → Except Rejection Unit → Prop
  | shape {rest : Option Node} {v : Value} (shape : ∀ given, v ≠ .map given) :
      RecordOutcome required optional rest v (.error ⟨"expected map got " ++ v.text, "/rec"⟩)
  /-- The message is that of the field, but not the path. -/
  | field {rest : Option Node} {given : Table Value} {key : String} {w : Value} {n : Node}
      {e : Rejection} (there : given.get? key = some w)
      (declared : field? required optional key = some n) (rejected : n.validate w = .error e)
      (earlier : ∀ j < key, AcceptedAt required optional given j) :
      RecordOutcome required optional rest (.map given)
        (.error ⟨e.message, "/rec:'" ++ key ++ "'"⟩)
  | missing {rest : Option Node} {given : Table Value} {key : String}
      (fields : ∀ j, AcceptedAt required optional given j)
      (asked : required.contains key = true) (absent : given.contains key = false)
      (earlier : ∀ j < key, required.contains j = true → given.contains j = true) :
      RecordOutcome required optional rest (.map given)
        (.error ⟨"expected key '" ++ key ++ "' in [" ++ listed given.keys ++ "]", "/rec"⟩)
  | complete {rest : Option Node} {given : Table Value}
      (fields : ∀ j, AcceptedAt required optional given j)
      (present : ∀ j, required.contains j = true → given.contains j = true)
      (nothing : ∀ j, (others required optional given).contains j = false) :
      RecordOutcome required optional rest (.map given) (.ok ())
  | unexpected {given : Table Value} {key : String}
      (fields : ∀ j, AcceptedAt required optional given j)
      (present : ∀ j, required.contains j = true → given.contains j = true)
      (more : (others required optional given).contains key = true) :
      RecordOutcome required optional none (.map given)
        (.error ⟨"unexpected keys: [" ++ listed (others required optional given).keys ++ "]",
          "/rec"⟩)
  | restAccepted {n : Node} {given : Table Value} {key : String}
      (fields : ∀ j, AcceptedAt required optional given j)
      (present : ∀ j, required.contains j = true → given.contains j = true)
      (more : (others required optional given).contains key = true)
      (accepted : n.validate (.map (others required optional given)) = .ok ()) :
      RecordOutcome required optional (some n) (.map given) (.ok ())
  | restRejected {n : Node} {given : Table Value} {key : String} {e : Rejection}
      (fields : ∀ j, AcceptedAt required optional given j)
      (present : ∀ j, required.contains j = true → given.contains j = true)
      (more : (others required optional given).contains key = true)
      (rejected : n.validate (.map (others required optional given)) = .error e) :
      RecordOutcome required optional (some n) (.map given) (.error ⟨e.message, "/rec"⟩)

theorem validate_record :
    (record required optional rest).validate (.map given) =
      given.toList.forM (Checker.recordMember (fieldCheckers required) (fieldCheckers optional)) >>=
        fun _ => Checker.recordRemainder (fieldCheckers required) (fieldCheckers optional)
          (checker? rest) given :=
  Checker.record_map_eq

/-- A record that rejects no field answers as to the rest of the map. -/
theorem validate_record_of_accepted (fields : ∀ j, AcceptedAt required optional given j) :
    (record required optional rest).validate (.map given) =
      Checker.recordRemainder (fieldCheckers required) (fieldCheckers optional) (checker? rest)
        given := by
  rw [validate_record, Checker.then_of_ok]
  rw [Checker.forM_ok_iff]
  exact fun e he => recordMember_ok_iff.2 ((memberAccepted_iff he).2 (fields e.1))

theorem fieldCheckers_keys (t : Table Node) : (fieldCheckers t).keys = t.keys := by
  simp only [fieldCheckers_eq, Table.From.keys, Table.From.toList_map, List.map_map]
  rfl

/-- What a record makes of what is left over, when nothing is missing. -/
theorem recordRemainder_of_present
    (present : ∀ j, required.contains j = true → given.contains j = true) :
    Checker.recordRemainder (fieldCheckers required) (fieldCheckers optional) (checker? rest)
        given =
      if (others required optional given).isEmpty then .ok ()
      else
        match rest with
        | none => .error
            ⟨"unexpected keys: [" ++ listed (others required optional given).keys ++ "]", "/rec"⟩
        | some n => Checker.replacing "/rec"
            (n.validate (.map (others required optional given))) := by
  have none : (fieldCheckers required).keys.find? (fun name => !given.contains name) = none := by
    rw [fieldCheckers_keys, Table.From.find?_keys_eq_none_iff]
    exact fun j hj => by rw [present j hj]; rfl
  simp only [Checker.recordRemainder, none, undeclared_eq, Text.mentions_eq]
  cases rest <;> rfl

/-- Every rule tells what a record answers. -/
theorem RecordOutcome.validate_eq {v : Value} {r : Except Rejection Unit}
    (h : RecordOutcome required optional rest v r) :
    (record required optional rest).validate v = r := by
  cases h with
  | shape shape =>
    cases v with
    | map given => exact absurd rfl (shape given)
    | _ => rfl
  | @field _ given key w n e there declared rejected earlier =>
    obtain ⟨before, after, split, less⟩ := Table.From.exists_split there
    have first : Checker.recordMember (fieldCheckers required) (fieldCheckers optional) (key, w) =
        .error ⟨e.message, "/rec:'" ++ key ++ "'"⟩ := by
      rw [Checker.recordMember, checkerField?_eq, declared, ← fieldPath_eq]
      exact Checker.replacing_of_error rejected
    rw [validate_record, split, Checker.forM_of_first _ first]
    · rfl
    · intro b hb
      have hb' : b ∈ given.toList := by simp [split, hb]
      exact recordMember_ok_iff.2 ((memberAccepted_iff hb').2 (earlier b.1 (less b hb)))
  | @missing _ given key fields asked absent earlier =>
    have found : (fieldCheckers required).keys.find? (fun name => !given.contains name) =
        some key := by
      rw [fieldCheckers_keys, Table.From.find?_keys_eq_some_iff]
      exact ⟨asked, by simp [absent], fun j lt hj => by simp [earlier j lt hj]⟩
    simp only [validate_record_of_accepted fields, Checker.recordRemainder, found, missing_text]
    rfl
  | complete fields present nothing =>
    rw [validate_record_of_accepted fields, recordRemainder_of_present present,
      Table.From.isEmpty_eq_true_iff.2 nothing]
    rfl
  | unexpected fields present more =>
    rw [validate_record_of_accepted fields, recordRemainder_of_present present,
      Table.From.isEmpty_eq_false_iff.2 ⟨_, more⟩]
    rfl
  | restAccepted fields present more accepted =>
    rw [validate_record_of_accepted fields, recordRemainder_of_present present,
      Table.From.isEmpty_eq_false_iff.2 ⟨_, more⟩]
    exact (Checker.replacing_ok_iff _).2 accepted
  | restRejected fields present more rejected =>
    rw [validate_record_of_accepted fields, recordRemainder_of_present present,
      Table.From.isEmpty_eq_false_iff.2 ⟨_, more⟩]
    exact Checker.replacing_of_error rejected

/-- When no field is rejected and nothing is missing, a rule tells the outcome. -/
theorem exists_outcome_of_present (fields : ∀ j, AcceptedAt required optional given j)
    (present : ∀ j, required.contains j = true → given.contains j = true) :
    ∃ r, RecordOutcome required optional rest (.map given) r := by
  cases empty : (others required optional given).isEmpty with
  | true => exact ⟨_, .complete fields present (Table.From.isEmpty_eq_true_iff.1 empty)⟩
  | false =>
    obtain ⟨key, more⟩ := Table.From.isEmpty_eq_false_iff.1 empty
    cases rest with
    | none => exact ⟨_, .unexpected fields present more⟩
    | some n =>
      cases result : n.validate (.map (others required optional given)) with
      | ok u => exact ⟨_, .restAccepted fields present more result⟩
      | error e => exact ⟨_, .restRejected fields present more result⟩

/-- Some rule tells the outcome. -/
theorem exists_outcome (required optional : Table Node) (rest : Option Node) (v : Value) :
    ∃ r, RecordOutcome required optional rest v r := by
  cases v with
  | map given =>
    by_cases fields : ∀ e ∈ given.toList, MemberAccepted required optional e
    · have fields (j : String) : AcceptedAt required optional given j := by
        intro w n hw declared
        exact fields (j, w) ((Table.From.get?_eq_some_iff given).1 hw) n declared
      cases found : required.keys.find? (fun name => !given.contains name) with
      | none =>
        rw [Table.From.find?_keys_eq_none_iff] at found
        exact exists_outcome_of_present fields fun j hj => by simpa using found j hj
      | some key =>
        obtain ⟨asked, absent, earlier⟩ := Table.From.find?_keys_eq_some_iff.1 found
        refine ⟨_, .missing fields asked (by simpa using absent) fun j lt hj => ?_⟩
        simpa using earlier j lt hj
    · obtain ⟨before, ⟨key, w⟩, after, split, earlier, hw⟩ := exists_first fields
      have there : given.get? key = some w := by
        rw [Table.From.get?_eq_some_iff, split]
        simp
      have earlier (j : String) (lt : j < key) : AcceptedAt required optional given j := by
        intro u n hu declared
        exact earlier (j, u) (Table.From.mem_of_lt split lt hu) n declared
      have hw : ∃ n, field? required optional key = some n ∧ n.validate w ≠ .ok () := by
        simpa [MemberAccepted] using hw
      obtain ⟨n, declared, rejected⟩ := hw
      cases result : n.validate w with
      | ok u => exact absurd result rejected
      | error e => exact ⟨_, .field there declared result earlier⟩
  | _ => exact ⟨_, .shape fun _ => Value.noConfusion⟩

/-- The outcome of a record is fixed in full: it is the one that the rules give. The keys of a map
are listed in order, all of them and each once. What is left over of a map is what stands at
undeclared keys, so that a member is either of a declared field or left over. -/
theorem record_outcome (required optional : Table Node) (rest : Option Node) :
    (∀ v r, (record required optional rest).validate v = r ↔
      RecordOutcome required optional rest v r) ∧
    (∀ given : Table Value, given.keys.Pairwise (· < ·) ∧
      ∀ key, key ∈ given.keys ↔ given.contains key = true) ∧
    (∀ given key, (others required optional given).get? key =
      if (field? required optional key).isNone then given.get? key else none) ∧
    ∀ given key w, Table.From.get? key given = some w →
      Xor (∃ n, field? required optional key = some n)
        ((others required optional given).get? key = some w) := by
  refine ⟨fun v r => ⟨?_, RecordOutcome.validate_eq⟩,
    fun given => ⟨given.pairwise_keys, fun key => Table.From.contains_iff_mem_keys.symm⟩,
    fun given key => get?_others key, fun given key w h => declared_xor_left_over h⟩
  rintro rfl
  obtain ⟨r, outcome⟩ := exists_outcome required optional rest v
  rwa [outcome.validate_eq]

/-- A record with a required field `id`. If it is missing, the keys that are there are listed; if
others are left over and the record has no rest, these are. With a rest of booleans it is the rest
that rejects the member `note`. -/
theorem record_outcome_of_left_over :
    let id : Table Node := Table.ofList [("id", defined)]
    let noted : Table Value := Table.ofList [("id", .string "a"), ("note", .string "b")]
    RecordOutcome id .nil none (.map (Table.ofList [("size", .null), ("note", .string "b")]))
        (.error ⟨"expected key 'id' in ['note', 'size']", "/rec"⟩) ∧
      RecordOutcome id .nil none
        (.map (Table.ofList [("size", .null), ("note", .string "b"), ("id", .string "a")]))
        (.error ⟨"unexpected keys: ['note', 'size']", "/rec"⟩) ∧
      RecordOutcome id .nil (some (map boolean)) (.map noted)
        (.error ⟨"expected bool got \"b\"", "/rec"⟩) ∧
      Xor (∃ n, field? id .nil "note" = some n)
        ((others id .nil noted).get? "note" = some (.string "b")) := by
  intro id noted
  obtain ⟨outcome, -⟩ := record_outcome id .nil none
  obtain ⟨outcome', -, -, parted⟩ := record_outcome id .nil (some (map boolean))
  exact ⟨(outcome _ _).1 (by decide), (outcome _ _).1 (by decide), (outcome' _ _).1 (by decide),
    parted noted "note" _ rfl⟩

end Conform.Node
