/-
Where a node rejects a value. The parts of a node are asked in a fixed order,
and the first that rejects settles the location: a node that holds others goes
down to it, and a record stops there (`Node.RejectsAt`). A value that is
rejected is rejected at one such location (`Node.IsCore.located`), and the path
of the rejection is that of the location (`Node.RejectsAt.validate_eq`).
-/
import Conform.Proofs.Check.Location
import Conform.Proofs.Check.Rejected

namespace Conform

namespace Node

/-! ## Nodes of core kinds -/

/-- The nodes directly inside a node. -/
def parts : Node → List Node
  | all parts => parts
  | any choices => choices
  | array contents _ => [contents]
  | map values => [values]
  | record required optional rest =>
    required.toList.map Prod.snd ++ optional.toList.map Prod.snd ++ rest.toList
  | sequence contents tail => contents ++ tail.toList
  | _ => []

/-- All nodes in a node are of core kinds, and so is the node. -/
inductive IsCore : Node → Prop
  | intro {n : Node} (own : ∀ uri checker, n ≠ .custom uri checker)
      (parts : ∀ m ∈ n.parts, IsCore m) : IsCore n

/-- A node of a kind that has no nodes inside. -/
inductive Leaf : Node → CoreKind → Prop
  | boolean : Leaf .boolean .boolean
  | date : Leaf .date .date
  | defined : Leaf .defined .defined
  | fail : Leaf .fail .fail
  | integer (test : Checker.NumberTest) : Leaf (.integer test) .integer
  | nil : Leaf .nil .nil
  | number (test : Checker.NumberTest) : Leaf (.number test) .number
  | scalar : Leaf .scalar .scalar
  | string (test : Checker.StringTest) : Leaf (.string test) .string
  | time : Leaf .time .time

/-- The node of a declared field. -/
def field? (required optional : Table Node) (name : String) : Option Node :=
  (required.get? name).orElse fun _ => optional.get? name

/-- The members of a map that are not of a declared field. -/
def others (required optional : Table Node) (given : Table Value) : Table Value :=
  given.filterKeys fun name => (field? required optional name).isNone

/-- A member of a map is not of a declared field, or its field accepts it. -/
def MemberAccepted (required optional : Table Node) (e : String × Value) : Prop :=
  ∀ n, field? required optional e.1 = some n → n.validate e.2 = .ok ()

/-- What a record has against a map of which it rejects no field. -/
inductive RecordFault (required optional : Table Node) (given : Table Value) :
    Option Node → Prop
  /-- A required field is not there. -/
  | missing {rest : Option Node} {name : String} (asked : required.contains name = true)
      (absent : given.contains name = false) : RecordFault required optional given rest
  /-- There are further members, and no schema for them. -/
  | unexpected (more : (others required optional given).isEmpty = false) :
      RecordFault required optional given none
  /-- There are further members, and the schema for them rejects them. -/
  | rest {n : Node} (more : (others required optional given).isEmpty = false)
      (rejected : n.validate (.map (others required optional given)) ≠ .ok ()) :
      RecordFault required optional given (some n)

/-! ## The first fault -/

/-- A node rejects a value at a location. Where there is a choice of faults, the first
counts: whatever is asked earlier accepts. -/
inductive RejectsAt : Node → Value → Location → Prop
  | leaf {n : Node} {k : CoreKind} {v : Value} (kind : Leaf n k)
      (rejected : n.validate v ≠ .ok ()) : RejectsAt n v (.own k)
  /-- Nothing is told of the choices. -/
  | any {choices : List Node} {v : Value} (rejected : ∀ n ∈ choices, n.validate v ≠ .ok ()) :
      RejectsAt (.any choices) v (.own .any)
  | all {before after : List Node} {part : Node} {v : Value} {l : Location}
      (earlier : ∀ n ∈ before, n.validate v = .ok ()) (h : RejectsAt part v l) :
      RejectsAt (.all (before ++ part :: after)) v (.inside .all l)
  | arrayShape {contents : Node} {length : Option Range} {v : Value}
      (shape : ∀ items, v ≠ .seq items) : RejectsAt (.array contents length) v (.own .array)
  | arrayLength {contents : Node} {range : Range} {items : List Value}
      (outside : range.containsCount items.length = false) :
      RejectsAt (.array contents (some range)) (.seq items) (.own .array)
  | arrayItem {contents : Node} {length : Option Range} {before after : List Value} {item : Value}
      {l : Location}
      (within : ∀ range, length = some range →
        range.containsCount (before ++ item :: after).length = true)
      (earlier : ∀ w ∈ before, contents.validate w = .ok ()) (h : RejectsAt contents item l) :
      RejectsAt (.array contents length) (.seq (before ++ item :: after)) (.inside .array l)
  | mapShape {values : Node} {v : Value} (shape : ∀ given, v ≠ .map given) :
      RejectsAt (.map values) v (.own .map)
  | mapMember {values : Node} {given : Table Value} {before after : List (String × Value)}
      {name : String} {w : Value} {l : Location}
      (members : given.toList = before ++ (name, w) :: after)
      (earlier : ∀ e ∈ before, values.validate e.2 = .ok ()) (h : RejectsAt values w l) :
      RejectsAt (.map values) (.map given) (.inside .map l)
  | sequenceShape {contents : List Node} {tail : Option Node} {v : Value}
      (shape : ∀ items, v ≠ .seq items) : RejectsAt (.sequence contents tail) v (.own .sequence)
  | sequenceShort {contents : List Node} {tail : Option Node} {items : List Value}
      (short : items.length < contents.length) :
      RejectsAt (.sequence contents tail) (.seq items) (.own .sequence)
  | sequenceItem {contents : List Node} {tail : Option Node} {items : List Value}
      {before after : List (Node × Value)} {n : Node} {item : Value} {l : Location}
      (enough : contents.length ≤ items.length)
      (positions : contents.zip items = before ++ (n, item) :: after)
      (earlier : ∀ p ∈ before, p.1.validate p.2 = .ok ()) (h : RejectsAt n item l) :
      RejectsAt (.sequence contents tail) (.seq items) (.inside .sequence l)
  | sequenceLong {contents : List Node} {items : List Value}
      (more : contents.length < items.length)
      (positions : ∀ p ∈ contents.zip items, p.1.validate p.2 = .ok ()) :
      RejectsAt (.sequence contents none) (.seq items) (.own .sequence)
  | sequenceTail {contents : List Node} {tail : Node} {items : List Value} {l : Location}
      (more : contents.length < items.length)
      (positions : ∀ p ∈ contents.zip items, p.1.validate p.2 = .ok ())
      (h : RejectsAt tail (.seq (items.drop contents.length)) l) :
      RejectsAt (.sequence contents (some tail)) (.seq items) (.inside .sequence l)
  /-- Nothing is told of where the field is rejected. -/
  | recordField {required optional : Table Node} {rest : Option Node} {given : Table Value}
      {before after : List (String × Value)} {name : String} {w : Value} {n : Node}
      (members : given.toList = before ++ (name, w) :: after)
      (earlier : ∀ e ∈ before, MemberAccepted required optional e)
      (declared : field? required optional name = some n) (rejected : n.validate w ≠ .ok ()) :
      RejectsAt (.record required optional rest) (.map given) (.field name)
  | recordShape {required optional : Table Node} {rest : Option Node} {v : Value}
      (shape : ∀ given, v ≠ .map given) :
      RejectsAt (.record required optional rest) v (.own .record)
  /-- Nothing is told of where further members are rejected. -/
  | record {required optional : Table Node} {rest : Option Node} {given : Table Value}
      (fields : ∀ e ∈ given.toList, MemberAccepted required optional e)
      (fault : RecordFault required optional given rest) :
      RejectsAt (.record required optional rest) (.map given) (.own .record)

/-! ## Fields of records -/

section

variable {required optional : Table Node} {rest : Option Node} {given : Table Value} {name : String}

theorem checkerField?_eq :
    Checker.field? (fieldCheckers required) (fieldCheckers optional) name =
      (field? required optional name).map checker := by
  rw [Checker.field?, field?, fieldCheckers_eq, fieldCheckers_eq, Table.From.get?_map,
    Table.From.get?_map]
  cases required.get? name <;> rfl

theorem undeclared_eq :
    Checker.undeclared (fieldCheckers required) (fieldCheckers optional) given =
      others required optional given := by
  have same : (fun name => (Checker.field? (fieldCheckers required) (fieldCheckers optional)
      name).isNone) = fun name => (field? required optional name).isNone := by
    funext name
    rw [checkerField?_eq, Option.isNone_map]
  rw [Checker.undeclared, others, same]

theorem recordMember_ok_iff {e : String × Value} :
    Checker.recordMember (fieldCheckers required) (fieldCheckers optional) e = .ok () ↔
      MemberAccepted required optional e := by
  rw [Checker.recordMember, checkerField?_eq, MemberAccepted]
  cases field? required optional e.1 with
  | none => simp
  | some n => simp [validate]

theorem recordRemainder_ok_iff :
    Checker.recordRemainder (fieldCheckers required) (fieldCheckers optional) (checker? rest) given
      = .ok () ↔ ¬ RecordFault required optional given rest := by
  have keys : (fieldCheckers required).keys = required.keys := by
    simp only [fieldCheckers_eq, Table.From.keys, Table.From.toList_map, List.map_map]
    rfl
  unfold Checker.recordRemainder
  rw [keys, undeclared_eq]
  split
  · next name found =>
    have asked := Table.From.contains_iff_mem_keys.2 (List.mem_of_find?_eq_some found)
    have absent : given.contains name = false := by simpa using List.find?_some found
    exact ⟨fun h => absurd h (Checker.reject_ne _ _), fun h => absurd (.missing asked absent) h⟩
  · next found =>
    rw [List.find?_eq_none] at found
    refine (Checker.remainder_ok_iff (Checker.replacing_ok_iff _)).trans ?_
    refine ⟨fun h fault => ?_, fun h more => ?_⟩
    · cases fault with
      | missing asked absent =>
        have there := found _ (Table.From.contains_iff_mem_keys.1 asked)
        simp [absent] at there
      | unexpected more =>
        obtain ⟨c, hc, _⟩ := h (by simp [more])
        cases hc
      | rest more rejected =>
        obtain ⟨c, hc, accepted⟩ := h (by simp [more])
        cases hc
        exact rejected accepted
    · have more := eq_false_of_ne_true more
      cases rest with
      | none => exact absurd (.unexpected more) h
      | some n =>
        refine ⟨n.checker, rfl, Classical.byContradiction fun rejected => ?_⟩
        exact h (.rest more rejected)

end

/-! ## What is rejected at a location is rejected with its path -/

theorem Leaf.reports {n : Node} {k : CoreKind} (h : Leaf n k) (v : Value) :
    Checker.Reports k.path (n.validate v) := by
  cases h with
  | boolean => exact Checker.reports_boolean
  | date => exact Checker.reports_date
  | defined => exact Checker.reports_defined
  | fail => exact Checker.reports_reject
  | integer test => exact Checker.reports_integer
  | nil => exact Checker.reports_nil
  | number test => exact Checker.reports_numberFor
  | scalar => exact Checker.reports_scalar
  | string test => exact Checker.reports_string
  | time => exact Checker.reports_time

/-- The items of a sequence, with the checkers of their positions. -/
theorem zip_checkers (contents : List Node) (items : List Value) :
    (checkers contents).zip items = (contents.zip items).map fun p => (p.1.checker, p.2) := by
  rw [checkers_eq, List.zip_map_left]
  rfl

theorem length_checkers (ns : List Node) : (checkers ns).length = ns.length := by
  rw [checkers_eq, List.length_map]

theorem sequence_ok_iff {contents : List Node} {tail : Option Node} {items : List Value} :
    (Node.sequence contents tail).validate (.seq items) = .ok () ↔
      contents.length ≤ items.length ∧ (∀ p ∈ contents.zip items, p.1.validate p.2 = .ok ()) ∧
        (contents.length < items.length →
          ∃ n, tail = some n ∧ n.validate (.seq (items.drop contents.length)) = .ok ()) := by
  show Checker.sequence (checkers contents) (checker? tail) (.seq items) = .ok () ↔ _
  have tail_iff (w : Value) : (∃ c, checker? tail = some c ∧ c w = .ok ()) ↔
      ∃ n, tail = some n ∧ n.validate w = .ok () := by
    cases tail <;> simp [checker?, validate]
  simp only [Checker.sequence_ok_iff, length_checkers, zip_checkers, List.forall_mem_map, tail_iff,
    Value.seq.injEq, exists_eq_left', validate]

theorem positions_ok {contents : List Node} {items : List Value}
    (h : ∀ p ∈ contents.zip items, p.1.validate p.2 = .ok ()) :
    ∀ p ∈ (checkers contents).zip items, p.1 p.2 = .ok () := by
  rw [zip_checkers, List.forall_mem_map]
  exact h

theorem RejectsAt.validate_eq {n : Node} {v : Value} {l : Location} (h : n.RejectsAt v l) :
    ∃ message, n.validate v = .error ⟨message, l.path⟩ := by
  induction h with
  | leaf kind rejected => exact (kind.reports _).exists_message rejected
  | @any choices v rejected =>
    refine Checker.Reports.exists_message ?_ fun accepted => ?_
    · exact .ite Checker.reports_accept Checker.reports_reject
    · have accepted : Checker.any (checkers choices) v = .ok () := accepted
      rw [checkers_eq, Checker.any_ok_iff] at accepted
      obtain ⟨c, hc, accepted⟩ := accepted
      obtain ⟨n, hn, rfl⟩ := List.mem_map.1 hc
      exact rejected n hn accepted
  | @all before after part v l earlier _ ih =>
    obtain ⟨message, hm⟩ := ih
    refine ⟨message, ?_⟩
    show Checker.all (checkers (before ++ part :: after)) v = _
    rw [checkers_eq, List.map_append, List.map_cons]
    exact Checker.all_of_first (List.forall_mem_map.2 earlier) hm
  | @arrayShape contents length v shape =>
    cases v with
    | seq items => exact absurd rfl (shape items)
    | _ => exact ⟨_, rfl⟩
  | @arrayLength contents range items outside =>
    refine ⟨"expected array with length in range " ++ range.text ++ " got " ++
      Text.natural items.length, ?_⟩
    show Checker.array contents.checker (some range) (.seq items) = _
    simp only [Checker.array, Checker.optionally, outside]
    rfl
  | arrayItem within earlier _ ih =>
    obtain ⟨message, hm⟩ := ih
    exact ⟨message, Checker.array_of_first within earlier hm⟩
  | @mapShape values v shape =>
    cases v with
    | map given => exact absurd rfl (shape given)
    | _ => exact ⟨_, rfl⟩
  | mapMember members earlier _ ih =>
    obtain ⟨message, hm⟩ := ih
    exact ⟨message, Checker.map_of_first members earlier hm⟩
  | @sequenceShape contents tail v shape =>
    cases v with
    | seq items => exact absurd rfl (shape items)
    | _ => exact ⟨_, rfl⟩
  | @sequenceShort contents tail items short =>
    refine ⟨"expected at least " ++ Text.natural contents.length ++ " elements got " ++
      Text.natural items.length, ?_⟩
    show Checker.sequence (checkers contents) (checker? tail) (.seq items) = _
    simp only [Checker.sequence, length_checkers, if_pos short]
    rfl
  | @sequenceItem contents tail items before after n item l enough positions earlier _ ih =>
    obtain ⟨message, hm⟩ := ih
    have positions : (checkers contents).zip items =
        before.map (fun p => (p.1.checker, p.2)) ++
          (n.checker, item) :: after.map (fun p => (p.1.checker, p.2)) := by
      rw [zip_checkers, positions, List.map_append, List.map_cons]
    refine ⟨message, Checker.sequence_of_first ?_ positions (List.forall_mem_map.2 earlier) hm⟩
    rwa [length_checkers]
  | @sequenceLong contents items more positions =>
    refine ⟨"expected no more than " ++ Text.natural contents.length ++ " elements got " ++
      Text.natural items.length, ?_⟩
    show Checker.sequence (checkers contents) none (.seq items) = _
    rw [Checker.sequence_of_remainder (by rwa [length_checkers]) (positions_ok positions)]
    unfold Checker.sequenceRemainder
    rw [length_checkers, if_neg (by omega)]
    rfl
  | @sequenceTail contents tail items l more positions _ ih =>
    obtain ⟨message, hm⟩ := ih
    refine ⟨message, ?_⟩
    show Checker.sequence (checkers contents) (some tail.checker) (.seq items) = _
    rw [Checker.sequence_of_remainder (by rwa [length_checkers]) (positions_ok positions)]
    unfold Checker.sequenceRemainder
    rw [length_checkers, if_neg (by omega)]
    exact Checker.inside_of_error hm
  | @recordField required optional rest given before after name w n members earlier declared
      rejected =>
    cases hr : n.validate w with
    | ok u => exact absurd hr rejected
    | error e =>
      refine ⟨e.message, ?_⟩
      show Checker.record (fieldCheckers required) (fieldCheckers optional) (checker? rest)
        (.map given) = _
      rw [Checker.record_map_eq, members, Checker.forM_of_first (e := ⟨e.message, _⟩)]
      · rfl
      · exact fun e he => recordMember_ok_iff.2 (earlier e he)
      · rw [Checker.recordMember, checkerField?_eq, declared]
        exact Checker.replacing_of_error hr
  | @recordShape required optional rest v shape =>
    cases v with
    | map given => exact absurd rfl (shape given)
    | _ => exact ⟨_, rfl⟩
  | @record required optional rest given fields fault =>
    show ∃ message, Checker.record (fieldCheckers required) (fieldCheckers optional)
      (checker? rest) (.map given) = .error ⟨message, _⟩
    rw [Checker.record_map_eq, Checker.then_of_ok]
    · refine Checker.reports_recordRemainder.exists_message fun accepted => ?_
      exact recordRemainder_ok_iff.1 accepted fault
    · exact Checker.forM_ok_iff.2 fun e he => recordMember_ok_iff.2 (fields e he)

/-! ## What is rejected is rejected at a location -/

/-- In a list that has not a property throughout there is a first item without it. -/
theorem exists_first {α : Type} {P : α → Prop} {l : List α} (h : ¬ ∀ a ∈ l, P a) :
    ∃ before a after, l = before ++ a :: after ∧ (∀ b ∈ before, P b) ∧ ¬ P a := by
  induction l with
  | nil => exact absurd (fun _ ha => (nomatch ha)) h
  | cons b l ih =>
    by_cases hb : P b
    · obtain ⟨before, a, after, rfl, earlier, ha⟩ := ih fun all =>
        h (List.forall_mem_cons.2 ⟨hb, all⟩)
      exact ⟨b :: before, a, after, rfl, List.forall_mem_cons.2 ⟨hb, earlier⟩, ha⟩
    · exact ⟨[], b, l, rfl, fun _ hm => (nomatch hm), hb⟩

/-- Whatever the node rejects it rejects at a location. -/
def Located (n : Node) : Prop := ∀ v, n.validate v ≠ .ok () → ∃ l, n.RejectsAt v l

namespace Located

theorem leaf {n : Node} {k : CoreKind} (kind : Leaf n k) : Located n :=
  fun _ rejected => ⟨_, .leaf kind rejected⟩

theorem all {parts : List Node} (h : ∀ n ∈ parts, Located n) : Located (.all parts) := by
  intro v rejected
  have rejected : ¬ ∀ n ∈ parts, n.validate v = .ok () := by
    intro accepted
    refine rejected (Checker.all_ok_iff.2 ?_)
    rw [checkers_eq, List.forall_mem_map]
    exact accepted
  obtain ⟨before, part, after, rfl, earlier, hp⟩ := exists_first rejected
  obtain ⟨l, hl⟩ := h part (by simp) _ hp
  exact ⟨_, .all earlier hl⟩

theorem any (choices : List Node) : Located (.any choices) := by
  intro v rejected
  refine ⟨_, .any fun n hn accepted => rejected (Checker.any_ok_iff.2 ?_)⟩
  rw [checkers_eq]
  exact ⟨n.checker, List.mem_map_of_mem hn, accepted⟩

theorem array {contents : Node} (h : Located contents) (length : Option Range) :
    Located (.array contents length) := by
  intro v rejected
  cases v with
  | seq items =>
    by_cases within : ∀ range, length = some range → range.containsCount items.length = true
    · have rejected : ¬ ∀ item ∈ items, contents.validate item = .ok () := fun accepted =>
        rejected (Checker.array_ok_iff.2 ⟨items, rfl, within, accepted⟩)
      obtain ⟨before, item, after, rfl, earlier, hi⟩ := exists_first rejected
      obtain ⟨l, hl⟩ := h item hi
      exact ⟨_, .arrayItem within earlier hl⟩
    · cases length with
      | none => exact absurd (fun _ h => (nomatch h)) within
      | some range =>
        refine ⟨_, .arrayLength (eq_false_of_ne_true fun h => within fun range' hr => ?_)⟩
        cases hr
        exact h
  | _ => exact ⟨_, .arrayShape fun _ h => (nomatch h)⟩

theorem map {values : Node} (h : Located values) : Located (.map values) := by
  intro v rejected
  cases v with
  | map given =>
    have rejected : ¬ ∀ e ∈ given.toList, values.validate e.2 = .ok () := by
      intro accepted
      refine rejected (Checker.map_ok_iff.2 ⟨given, rfl, fun name w hw => ?_⟩)
      exact accepted (name, w) ((Table.From.get?_eq_some_iff given).1 hw)
    obtain ⟨before, ⟨name, w⟩, after, members, earlier, hw⟩ := exists_first rejected
    obtain ⟨l, hl⟩ := h w hw
    exact ⟨_, .mapMember members earlier hl⟩
  | _ => exact ⟨_, .mapShape fun _ h => (nomatch h)⟩

/-- A record does not tell where its parts reject, so nothing is asked of them. -/
theorem record (required optional : Table Node) (rest : Option Node) :
    Located (.record required optional rest) := by
  intro v rejected
  cases v with
  | map given =>
    by_cases fields : ∀ e ∈ given.toList, MemberAccepted required optional e
    · have fault : RecordFault required optional given rest := by
        refine Classical.byContradiction fun none => rejected ?_
        show Checker.record (fieldCheckers required) (fieldCheckers optional) (checker? rest)
          (.map given) = _
        rw [Checker.record_map_eq, Checker.then_ok_iff, Checker.forM_ok_iff]
        exact ⟨fun e he => recordMember_ok_iff.2 (fields e he), recordRemainder_ok_iff.2 none⟩
      exact ⟨_, .record fields fault⟩
    · obtain ⟨before, ⟨name, w⟩, after, members, earlier, hw⟩ := exists_first fields
      cases hf : field? required optional name with
      | none => exact absurd (fun n hn => (nomatch hf.symm.trans hn)) hw
      | some n =>
        refine ⟨_, .recordField members earlier hf fun accepted => hw fun n' hn' => ?_⟩
        cases hf.symm.trans hn'
        exact accepted
  | _ => exact ⟨_, .recordShape fun _ h => (nomatch h)⟩

theorem sequence {contents : List Node} {tail : Option Node} (h : ∀ n ∈ contents, Located n)
    (ht : ∀ n, tail = some n → Located n) : Located (.sequence contents tail) := by
  intro v rejected
  cases v with
  | seq items =>
    by_cases short : items.length < contents.length
    · exact ⟨_, .sequenceShort short⟩
    by_cases positions : ∀ p ∈ contents.zip items, p.1.validate p.2 = .ok ()
    · by_cases more : contents.length < items.length
      · cases tail with
        | none => exact ⟨_, .sequenceLong more positions⟩
        | some n =>
          have rejected : n.validate (.seq (items.drop contents.length)) ≠ .ok () :=
            fun accepted => rejected (sequence_ok_iff.2
              ⟨Nat.le_of_lt more, positions, fun _ => ⟨n, rfl, accepted⟩⟩)
          obtain ⟨l, hl⟩ := ht n rfl _ rejected
          exact ⟨_, .sequenceTail more positions hl⟩
      · refine absurd (sequence_ok_iff.2 ⟨?_, positions, fun h => absurd h more⟩) rejected
        omega
    · obtain ⟨before, ⟨n, item⟩, after, hz, earlier, hp⟩ := exists_first positions
      have there : (n, item) ∈ contents.zip items := by simp [hz]
      obtain ⟨l, hl⟩ := h n (List.of_mem_zip there).1 item hp
      exact ⟨_, .sequenceItem (by omega) hz earlier hl⟩
  | _ => exact ⟨_, .sequenceShape fun _ h => (nomatch h)⟩

end Located

theorem IsCore.located {n : Node} (core : n.IsCore) : n.Located := by
  induction core with
  | @intro n own _ ih =>
    cases n with
    | all parts => exact .all ih
    | any choices => exact .any choices
    | anything => exact fun _ rejected => absurd rfl rejected
    | array contents length => exact .array (ih contents (List.mem_singleton_self _)) length
    | map values => exact .map (ih values (List.mem_singleton_self _))
    | record required optional rest => exact .record required optional rest
    | sequence contents tail =>
      refine .sequence (fun n hn => ih n (List.mem_append_left _ hn)) fun n hn => ih n ?_
      exact List.mem_append_right _ (Option.mem_toList.2 hn)
    | boolean => exact .leaf .boolean
    | date => exact .leaf .date
    | defined => exact .leaf .defined
    | fail => exact .leaf .fail
    | integer test => exact .leaf (.integer test)
    | nil => exact .leaf .nil
    | number test => exact .leaf (.number test)
    | scalar => exact .leaf .scalar
    | string test => exact .leaf (.string test)
    | time => exact .leaf .time
    | custom uri checker => exact absurd rfl (own uri checker)

end Node

end Conform
