/-
How checkers reject. The first test that fails is the one that is reported
(`Checker.forM_of_first`), and the tests that a kind makes on its own behalf are
reported at its own path (`Checker.Reports`).
-/
import Conform.Proofs.Check.Accepted

namespace Conform.Checker

variable {r : Except Rejection Unit} {v : Value} {e : Rejection} {path : String} {k : CoreKind}

theorem then_of_ok {next : Unit → Except Rejection Unit} (h : r = .ok ()) :
    (r >>= next) = next () := by
  rw [h]
  rfl

/-- Of tests of every item the first that fails counts. -/
theorem forM_of_first {α : Type} {before after : List α} {a : α} {f : α → Except Rejection Unit}
    (earlier : ∀ b ∈ before, f b = .ok ()) (h : f a = .error e) :
    (before ++ a :: after).forM f = .error e := by
  induction before with
  | nil =>
    show (f a >>= fun _ => after.forM f) = .error e
    rw [h]
    rfl
  | cons b before ih =>
    obtain ⟨first, earlier⟩ := List.forall_mem_cons.1 earlier
    show (f b >>= fun _ => (before ++ a :: after).forM f) = .error e
    rw [then_of_ok first, ih earlier]

theorem inside_of_error {message : String} (h : r = .error ⟨message, path⟩) :
    inside k r = .error ⟨message, k.path ++ path⟩ := by
  rw [h]
  rfl

theorem replacing_of_error (h : r = .error e) :
    replacing path r = .error ⟨e.message, path⟩ := by
  rw [h]
  rfl

/-! ## Tests that are reported at one path -/

/-- A test that fails is reported at the path. -/
def Reports (path : String) (r : Except Rejection Unit) : Prop := ∀ e, r = .error e → e.path = path

theorem reports_accept : Reports path accept := fun _ h => (nomatch h)

theorem reports_reject {message : String} : Reports k.path (reject k message) := by
  intro e h
  cases h
  rfl

theorem reports_rejectUnexpected {expected : String} :
    Reports k.path (rejectUnexpected k expected v) := reports_reject

theorem reports_replacing : Reports path (replacing path r) := by
  intro e h
  cases r with
  | ok u => cases h
  | error e' => cases h; rfl

theorem Reports.then {next : Unit → Except Rejection Unit} (h : Reports path r)
    (hn : Reports path (next ())) : Reports path (r >>= next) := by
  intro e he
  cases r with
  | ok u => exact hn e he
  | error e' => cases he; exact h _ rfl

theorem Reports.ite {c : Prop} [Decidable c] {r' : Except Rejection Unit} (h : Reports path r)
    (h' : Reports path r') : Reports path (if c then r else r') := by
  split
  · exact h
  · exact h'

theorem Reports.optionally {α : Type} {test : Option α} {f : α → Except Rejection Unit}
    (h : ∀ a, Reports path (f a)) : Reports path (optionally test f) := by
  cases test with
  | none => exact reports_accept
  | some a => exact h a

/-- A value that is rejected is rejected with some message. -/
theorem Reports.exists_message (h : Reports path r) (rejected : r ≠ .ok ()) :
    ∃ message, r = .error ⟨message, path⟩ := by
  cases r with
  | ok u => exact absurd rfl rejected
  | error e => exact ⟨e.message, by rw [← h e rfl]⟩

/-! ## Kinds that look at the value itself -/

theorem reports_boolean : Reports CoreKind.boolean.path (boolean v) := by
  unfold boolean
  split
  · exact reports_accept
  · exact reports_rejectUnexpected

theorem reports_date : Reports CoreKind.date.path (date v) := by
  unfold date
  split
  · exact reports_accept
  · exact reports_rejectUnexpected

theorem reports_time : Reports CoreKind.time.path (time v) := by
  unfold time
  split
  · exact reports_accept
  · exact reports_rejectUnexpected

theorem reports_defined : Reports CoreKind.defined.path (defined v) := by
  unfold defined
  split
  · exact reports_rejectUnexpected
  · exact reports_accept

theorem reports_nil : Reports CoreKind.nil.path (nil v) := by
  unfold nil
  split
  · exact reports_accept
  · exact reports_rejectUnexpected

theorem reports_scalar : Reports CoreKind.scalar.path (scalar v) := by
  unfold scalar
  split
  · exact reports_accept
  · exact reports_accept
  · exact reports_accept
  · exact reports_rejectUnexpected

theorem reports_numberFor {test : NumberTest} : Reports k.path (numberFor k test v) := by
  unfold numberFor
  split
  · refine Reports.then (.optionally fun _ => ?_) (.optionally fun _ => ?_)
    · exact .ite reports_accept reports_rejectUnexpected
    · exact .ite reports_accept reports_rejectUnexpected
  · exact reports_rejectUnexpected

theorem reports_integer {test : NumberTest} : Reports CoreKind.integer.path (integer test v) :=
  reports_numberFor.then (.ite reports_accept reports_rejectUnexpected)

theorem reports_string {test : StringTest} : Reports CoreKind.string.path (string test v) := by
  unfold string
  split
  · refine Reports.then (.optionally fun _ => ?_) (.optionally fun _ => ?_)
    · exact .ite reports_accept reports_reject
    · exact .ite reports_accept reports_rejectUnexpected
  · exact reports_rejectUnexpected

/-! ## Kinds that combine checkers, and kinds that look into the value -/

section

variable {message : String}

theorem all_of_first {before after : List Checker} {c : Checker}
    (earlier : ∀ b ∈ before, b v = .ok ()) (h : c v = .error ⟨message, path⟩) :
    all (before ++ c :: after) v = .error ⟨message, CoreKind.all.path ++ path⟩ :=
  forM_of_first (fun b hb => (inside_ok_iff _).2 (earlier b hb)) (inside_of_error h)

theorem array_of_first {contents : Checker} {length : Option Range} {before after : List Value}
    {item : Value}
    (within : ∀ range, length = some range →
      range.containsCount (before ++ item :: after).length = true)
    (earlier : ∀ w ∈ before, contents w = .ok ())
    (h : contents item = .error ⟨message, path⟩) :
    array contents length (.seq (before ++ item :: after)) =
      .error ⟨message, CoreKind.array.path ++ path⟩ := by
  simp only [array]
  rw [then_of_ok]
  · exact forM_of_first (fun w hw => (inside_ok_iff _).2 (earlier w hw)) (inside_of_error h)
  · rw [optionally_ok_iff]
    exact fun range hr => guard_ok_iff.2 (within range hr)

theorem map_of_first {values : Checker} {given : Table Value} {before after : List (String × Value)}
    {name : String} {w : Value} (members : given.toList = before ++ (name, w) :: after)
    (earlier : ∀ m ∈ before, values m.2 = .ok ()) (h : values w = .error ⟨message, path⟩) :
    map values (.map given) = .error ⟨message, CoreKind.map.path ++ path⟩ := by
  rw [map, members]
  exact forM_of_first (fun m hm => (inside_ok_iff _).2 (earlier m hm)) (inside_of_error h)

end

/-! ## Sequences -/

/-- What a sequence makes of the items beyond the last position, when no position has
rejected its item. -/
def sequenceRemainder (contents : List Checker) (tail : Option Checker) (items : List Value) :
    Except Rejection Unit :=
  if items.length = contents.length then accept
  else
    match tail with
    | none =>
      reject .sequence ("expected no more than " ++ Text.natural contents.length ++
        " elements got " ++ Text.natural items.length)
    | some c => inside .sequence (c (.seq (items.drop contents.length)))

theorem sequence_seq_eq {contents : List Checker} {tail : Option Checker} {items : List Value}
    (enough : contents.length ≤ items.length) :
    sequence contents tail (.seq items) =
      (contents.zip items).forM (fun p => inside .sequence (p.1 p.2)) >>= fun _ =>
        sequenceRemainder contents tail items := by
  simp only [sequence]
  rw [if_neg (Nat.not_lt.2 enough)]
  rfl

theorem sequence_of_first {contents : List Checker} {tail : Option Checker} {items : List Value}
    {before after : List (Checker × Value)} {c : Checker} {item : Value} {message : String}
    (enough : contents.length ≤ items.length)
    (positions : contents.zip items = before ++ (c, item) :: after)
    (earlier : ∀ p ∈ before, p.1 p.2 = .ok ()) (h : c item = .error ⟨message, path⟩) :
    sequence contents tail (.seq items) =
      .error ⟨message, CoreKind.sequence.path ++ path⟩ := by
  rw [sequence_seq_eq enough, positions,
    forM_of_first (e := ⟨message, CoreKind.sequence.path ++ path⟩)]
  · rfl
  · exact fun p hp => (inside_ok_iff _).2 (earlier p hp)
  · exact inside_of_error h

/-- When no position has rejected its item, the rest decides. -/
theorem sequence_of_remainder {contents : List Checker} {tail : Option Checker}
    {items : List Value} (more : contents.length < items.length)
    (accepted : ∀ p ∈ contents.zip items, p.1 p.2 = .ok ()) :
    sequence contents tail (.seq items) = sequenceRemainder contents tail items := by
  rw [sequence_seq_eq (Nat.le_of_lt more), then_of_ok]
  rw [forM_ok_iff]
  exact fun p hp => (inside_ok_iff _).2 (accepted p hp)

/-! ## Records -/

/-- The outcome for a member of a map, at the path of the field if it is declared. -/
def recordMember (required optional : Table Checker) (m : String × Value) :
    Except Rejection Unit :=
  match field? required optional m.1 with
  | none => accept
  | some c => replacing (fieldPath m.1) (c m.2)

/-- What a record makes of a map when no field has been rejected. -/
def recordRemainder (required optional : Table Checker) (rest : Option Checker)
    (given : Table Value) : Except Rejection Unit :=
  match required.keys.find? fun name => !given.contains name with
  | some missing =>
    reject .record ("expected key " ++ Text.mention missing ++ " in [" ++
      Text.mentions given.keys ++ "]")
  | none =>
    if (undeclared required optional given).isEmpty then accept
    else
      match rest with
      | none =>
        reject .record ("unexpected keys: [" ++
          Text.mentions (undeclared required optional given).keys ++ "]")
      | some c => replacing CoreKind.record.path (c (.map (undeclared required optional given)))

theorem record_map_eq {required optional : Table Checker} {rest : Option Checker}
    {given : Table Value} :
    record required optional rest (.map given) =
      given.toList.forM (recordMember required optional) >>= fun _ =>
        recordRemainder required optional rest given := rfl

theorem reports_recordRemainder {required optional : Table Checker} {rest : Option Checker}
    {given : Table Value} :
    Reports CoreKind.record.path (recordRemainder required optional rest given) := by
  unfold recordRemainder
  split
  · exact reports_reject
  · refine .ite reports_accept ?_
    split
    · exact reports_reject
    · exact reports_replacing

end Conform.Checker
