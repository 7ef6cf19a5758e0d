/-
The text of a value in a message is unambiguous: values of the same text are the same
(`Value.text_eq_iff`), number by number, character by character and member by member.

The first characters of a text show of which kind the value is (`Value.kindOfText_append`), and a
value can be told from a text that goes on with a comma or a closing bracket, as it does inside of
sequences and maps (`Value.Told`).
-/
import Conform.Proofs.Calendar.Text
import Conform.Proofs.Number.Text
import Conform.Value.Text

namespace Conform.Value

open Text

/-! ## Kinds -/

/-- The characters that may follow a value. -/
def isClosing (c : Char) : Bool := c == ',' || c == ']' || c == '\x7d'

/-- A text that may follow a value. -/
abbrev Closes (rest : List Char) : Prop := Stops (fun c => !isClosing c) rest

/-- The kind of the value at the front of a text, as the characters show it. -/
def kindOfText (cs : List Char) : String :=
  match cs with
  | '"' :: _ => "string"
  | '[' :: _ => "sequence"
  | '\x7b' :: _ => "map"
  | 'n' :: _ => "nil"
  | 't' :: _ => "boolean"
  | 'f' :: _ => "boolean"
  | cs =>
    let front := cs.takeWhile fun c => !isClosing c
    if 'T' ∈ front then "time"
    else if '-' ∈ front.tail ∧ 'e' ∉ front then "date"
    else "number"

/-- The text of a number, a date or a time. -/
structure Plain (cs : List Char) : Prop where
  first : ∃ c rest, cs = c :: rest ∧ (c.isDigit = true ∨ c ∈ ['-', '+', 'N', 'i'])
  characters : ∀ c ∈ cs, isClosing c = false

theorem Plain.kindOfText_append {cs s : List Char} (h : Plain cs) (hs : Closes s) :
    kindOfText (cs ++ s) =
      if 'T' ∈ cs then "time" else if '-' ∈ cs.tail ∧ 'e' ∉ cs then "date" else "number" := by
  have front : (cs ++ s).takeWhile (fun c => !isClosing c) = cs :=
    takeWhile_append (fun c hc => by simp [h.characters c hc]) hs
  obtain ⟨c, rest, rfl, first⟩ := h.first
  unfold kindOfText
  split
  -- no number, date or time begins like a value of another kind
  iterate 6
    · next eq =>
      cases eq
      exact absurd first (by decide)
  · rw [front]

/-! ## Numbers, dates and times -/

theorem not_isClosing_of_isDigit {c : Char} (h : c.isDigit = true) : isClosing c = false := by
  simp only [isClosing, Bool.or_eq_false_iff, beq_eq_false_iff_ne]
  refine ⟨⟨?_, ?_⟩, ?_⟩ <;>
  · rintro rfl
    exact absurd h (by decide)

theorem plain_number (n : Number) : Plain n.text.toList where
  first := by
    obtain ⟨c, rest, text, first⟩ := n.exists_text_eq_cons
    refine ⟨c, rest, text, first.imp_right fun h => ?_⟩
    have known : ['-', 'N', 'i'] ⊆ ['-', '+', 'N', 'i'] := by decide
    exact known h
  characters c hc := by
    have marks : ∀ c ∈ "-+.einfNa".toList, isClosing c = false := by simp [isClosing]
    exact (Number.mem_text hc).elim not_isClosing_of_isDigit (marks c)

theorem kindOfText_number {n : Number} {s : List Char} (hs : Closes s) :
    kindOfText (n.text.toList ++ s) = "number" := by
  have mark : 'T' ∉ n.text.toList := fun h => absurd (Number.mem_text h) (by decide)
  have sign : ¬ ('-' ∈ n.text.toList.tail ∧ 'e' ∉ n.text.toList) := fun h =>
    h.2 (Number.e_mem_of_minus_mem_tail h.1)
  rw [(plain_number n).kindOfText_append hs, if_neg mark, if_neg sign]

theorem plain_date (d : Date) : Plain d.text.toList where
  first := by
    obtain ⟨c, rest, front, _⟩ := d.exists_text_eq_cons
    have there : c ∈ d.text.toList := by
      rw [front]
      exact List.mem_cons_self
    have known : ['-', '+'] ⊆ ['-', '+', 'N', 'i'] := by decide
    exact ⟨c, rest, front, (Date.mem_text there).imp_right fun h => known h⟩
  characters c hc := by
    have marks : ∀ c ∈ ['-', '+'], isClosing c = false := by simp [isClosing]
    exact (Date.mem_text hc).elim not_isClosing_of_isDigit (marks c)

theorem kindOfText_date {d : Date} {s : List Char} (hs : Closes s) :
    kindOfText (d.text.toList ++ s) = "date" := by
  have mark : 'T' ∉ d.text.toList := fun h => absurd (Date.mem_text h) (by decide)
  have power : 'e' ∉ d.text.toList := fun h => absurd (Date.mem_text h) (by decide)
  have hyphen : '-' ∈ d.text.toList.tail := by
    obtain ⟨c, rest, text, hyphen⟩ := d.exists_text_eq_cons
    rwa [text]
  rw [(plain_date d).kindOfText_append hs, if_neg mark, if_pos ⟨hyphen, power⟩]

theorem plain_time (t : Timestamp) : Plain t.text.toList where
  first := by
    obtain ⟨c, rest, text, first⟩ := (plain_date t.date).first
    exact ⟨c, _, by rw [Timestamp.toList_text, text]; rfl, first⟩
  characters c hc := by
    have marks : ∀ c ∈ "-+T:.Z".toList, isClosing c = false := by simp [isClosing]
    exact (Timestamp.mem_text hc).elim not_isClosing_of_isDigit (marks c)

theorem kindOfText_time {t : Timestamp} {s : List Char} (hs : Closes s) :
    kindOfText (t.text.toList ++ s) = "time" := by
  have mark : 'T' ∈ t.text.toList := by simp [Timestamp.toList_text]
  rw [(plain_time t).kindOfText_append hs, if_pos mark]

/-! ## Sequences and maps -/

theorem itemTexts_eq (vs : List Value) : itemTexts vs = vs.map text := by
  induction vs with
  | nil => rfl
  | cons v vs ih => rw [itemTexts, List.map_cons, ih]

/-- A member with its key in front. -/
def memberText (e : String × Value) : String := quote e.1 ++ ": " ++ e.2.text

theorem memberTexts_eq {b : Option String} (t : Table.From Value b) :
    memberTexts t = t.toList.map memberText := by
  induction t with
  | nil => rfl
  | cons k _ v rest ih => rw [memberTexts, Table.From.toList, List.map_cons, ih, memberText]

theorem toList_text_seq (items : List Value) : (seq items).text.toList =
    '[' :: (", ".toList.intercalate (items.map fun v => v.text.toList) ++ [']']) := by
  simp [text, itemTexts_eq, String.toList_intercalate, Function.comp_def]

theorem toList_text_map (members : Table Value) : (map members).text.toList =
    '\x7b' :: (", ".toList.intercalate (members.toList.map fun e => (memberText e).toList) ++
      ['\x7d']) := by
  simp [text, memberTexts_eq, String.toList_intercalate, Function.comp_def]

/-- No value begins with a comma or a closing bracket. -/
theorem text_append_ne (v : Value) {close : Char} (hc : isClosing close = true)
    (cs ds : List Char) : v.text.toList ++ cs ≠ close :: ds := by
  have plain {front : List Char} (h : Plain front) : front ++ cs ≠ close :: ds := by
    obtain ⟨c, rest, rfl, _⟩ := h.first
    rintro ⟨⟩
    exact absurd hc (by simp [h.characters close])
  have other {c : Char} {rest : List Char} (h : isClosing c = false) :
      c :: rest ≠ close :: ds := by
    rintro ⟨⟩
    exact absurd hc (by simp [h])
  cases v with
  | null => exact other rfl
  | bool b => cases b <;> exact other rfl
  | number n => exact plain (plain_number n)
  | string s =>
    rw [text, toList_quote]
    exact other rfl
  | seq items =>
    rw [toList_text_seq]
    exact other rfl
  | map members =>
    rw [toList_text_map]
    exact other rfl
  | date d => exact plain (plain_date d)
  | time t => exact plain (plain_time t)

/-- The kind of a value shows in its text. -/
theorem kindOfText_append {s : List Char} (hs : Closes s) (v : Value) :
    kindOfText (v.text.toList ++ s) = v.kind := by
  cases v with
  | null => rfl
  | bool b => cases b <;> rfl
  | number => exact kindOfText_number hs
  | string =>
    rw [text, toList_quote]
    rfl
  | seq =>
    rw [toList_text_seq]
    rfl
  | map =>
    rw [toList_text_map]
    rfl
  | date => exact kindOfText_date hs
  | time => exact kindOfText_time hs

/-! ## Values -/

/-- A value can be told from a text that goes on with a comma or a closing bracket. -/
abbrev Clear (v : Value) : Prop := Told (fun v : Value => v.text.toList) Closes v

/-- It is enough to tell a value from those of its kind. -/
theorem Clear.of_kind {v : Value} (h : ∀ ⦃w : Value⦄ ⦃s t : List Char⦄, w.kind = v.kind →
    Closes s → Closes t → v.text.toList ++ s = w.text.toList ++ t → v = w ∧ s = t) : Clear v := by
  intro w s t hs ht same
  refine h ?_ hs ht same
  rw [← kindOfText_append hs v, same, kindOfText_append ht w]

theorem Plain.append_inj {cs ds s t : List Char} (hc : Plain cs) (hd : Plain ds) (hs : Closes s)
    (ht : Closes t) (h : cs ++ s = ds ++ t) : cs = ds ∧ s = t :=
  Text.append_inj (fun c h => by simp [hc.characters c h]) (fun c h => by simp [hd.characters c h])
    hs ht h

theorem clear_null : Clear null := by
  refine .of_kind fun w s t kind _ _ h => ?_
  cases w <;> simp only [Value.kind, String.reduceEq] at kind
  exact ⟨rfl, List.append_cancel_left h⟩

theorem clear_bool (b : Bool) : Clear (bool b) := by
  refine .of_kind fun w s t kind _ _ h => ?_
  cases w <;> simp only [Value.kind, String.reduceEq] at kind
  case bool c =>
    cases b <;> cases c <;> simp_all [text]

theorem clear_number (n : Number) : Clear (number n) := by
  refine .of_kind fun w s t kind hs ht h => ?_
  cases w <;> simp only [Value.kind, String.reduceEq] at kind
  case number m =>
    obtain ⟨same, rest⟩ := (plain_number n).append_inj (plain_number m) hs ht h
    exact ⟨congrArg number (Number.text_injective same), rest⟩

theorem clear_date (d : Date) : Clear (date d) := by
  refine .of_kind fun w s t kind hs ht h => ?_
  cases w <;> simp only [Value.kind, String.reduceEq] at kind
  case date d' =>
    obtain ⟨same, rest⟩ := (plain_date d).append_inj (plain_date d') hs ht h
    have same := Date.unambiguous_text stops_nil stops_nil (congrArg (· ++ []) same)
    exact ⟨congrArg date same.1, rest⟩

theorem clear_time (t : Timestamp) : Clear (time t) := by
  refine .of_kind fun w s s' kind hs hs' h => ?_
  cases w <;> simp only [Value.kind, String.reduceEq] at kind
  case time t' =>
    obtain ⟨same, rest⟩ := (plain_time t).append_inj (plain_time t') hs hs' h
    exact ⟨congrArg time (Timestamp.text_injective same), rest⟩

theorem clear_string (x : String) : Clear (string x) := by
  refine .of_kind fun w s t kind _ _ h => ?_
  cases w <;> simp only [Value.kind, String.reduceEq] at kind
  case string y =>
    obtain ⟨rfl, rest⟩ := unambiguous_quote trivial trivial h
    exact ⟨rfl, rest⟩

theorem closes_comma (close : Char) (hc : isClosing close = true) (cs : List Char) :
    Closes (", ".toList ++ cs) ∧ Closes (close :: cs) :=
  ⟨stops_cons rfl _, stops_cons (by simp [hc]) _⟩

theorem clear_seq {items : List Value} (h : ∀ v ∈ items, Clear v) : Clear (seq items) := by
  refine .of_kind fun w s t kind _ _ same => ?_
  cases w <;> simp only [Value.kind, String.reduceEq] at kind
  case seq others =>
    rw [toList_text_seq, toList_text_seq] at same
    have told := told_enclosed h (closes_comma ']' rfl) (by simp) fun v => v.text_append_ne rfl
    obtain ⟨rfl, rest⟩ := told trivial trivial (List.tail_eq_of_cons_eq same)
    exact ⟨rfl, rest⟩

theorem told_memberText {e : String × Value} (h : Clear e.2) :
    Told (fun e => (memberText e).toList) Closes e := by
  intro e' s t hs ht same
  simp only [memberText, String.toList_append, List.append_assoc] at same
  obtain ⟨key, same⟩ := unambiguous_quote trivial trivial same
  obtain ⟨value, rest⟩ := h hs ht (List.append_cancel_left same)
  exact ⟨Prod.ext key value, rest⟩

theorem clear_map {members : Table Value} (h : ∀ e ∈ members.toList, Clear e.2) :
    Clear (map members) := by
  refine .of_kind fun w s t kind _ _ same => ?_
  cases w <;> simp only [Value.kind, String.reduceEq] at kind
  case map others =>
    rw [toList_text_map, toList_text_map] at same
    have told := told_enclosed (fun e he => told_memberText (h e he)) (closes_comma '\x7d' rfl)
      (by simp) fun e cs ds => by simp [memberText, toList_quote]
    obtain ⟨entries, rest⟩ := told trivial trivial (List.tail_eq_of_cons_eq same)
    exact ⟨congrArg map (Table.From.ext entries), rest⟩

mutual

theorem clear : (v : Value) → Clear v
  | null => clear_null
  | bool b => clear_bool b
  | number n => clear_number n
  | string s => clear_string s
  | seq items => clear_seq (clear_items items)
  | map members => clear_map (clear_members members)
  | date d => clear_date d
  | time t => clear_time t

theorem clear_items : (vs : List Value) → ∀ v ∈ vs, Clear v
  | [] => List.forall_mem_nil _
  | v :: vs => List.forall_mem_cons.2 ⟨clear v, clear_items vs⟩

theorem clear_members {b : Option String} : (t : Table.From Value b) → ∀ e ∈ t.toList, Clear e.2
  | .nil => List.forall_mem_nil _
  | .cons _ _ v rest => List.forall_mem_cons.2 ⟨clear v, clear_members rest⟩

end

/-- Values of the same text are the same. -/
theorem text_eq_iff {v w : Value} : v.text = w.text ↔ v = w := by
  refine ⟨fun h => ?_, fun h => h ▸ rfl⟩
  have same : v.text.toList ++ [] = w.text.toList ++ [] := by rw [h]
  exact (clear v stops_nil stops_nil same).1

end Conform.Value
