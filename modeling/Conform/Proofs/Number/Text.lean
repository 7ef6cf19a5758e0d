/-
Numbers can be told from their texts (`Number.text_injective`). A number in a message is a numeral,
without point and exponent if it is a whole number and with one of them if it is a binary one, or
one of three words; so it can be read back (`Number.ofText?_text`).
-/
import Conform.Proofs.Json.Layout

namespace Conform

theorem Layout.readable_message : Layout.message.Readable := .inl rfl

namespace Json.Spelling

theorem mem_fractionText {s : Spelling} {c : Char} (hc : c ∈ fractionText s.fraction) :
    c.isDigit = true ∨ c = '.' := by
  unfold fractionText at hc
  split at hc
  · cases hc
  · rcases List.mem_cons.1 hc with rfl | hc
    · exact .inr rfl
    · exact .inl (s.fraction_digits c hc)

/-- The characters of a numeral. -/
theorem mem_text {s : Spelling} {c : Char} (hc : c ∈ s.text) :
    c.isDigit = true ∨ c ∈ ['-', '+', '.', 'e'] := by
  simp only [text, List.mem_append] at hc
  rcases hc with hc | hc | hc | hc
  · unfold signText at hc
    split at hc <;> simp_all
  · exact .inl (s.whole_digits c hc)
  · exact (mem_fractionText hc).imp_right fun h => by simp [h]
  · unfold exponentText powerSign at hc
    split at hc
    · cases hc
    · simp only [List.mem_cons, List.mem_append] at hc
      rcases hc with rfl | hc | hc
      · simp
      · split at hc
        · simp_all
        · split at hc <;> simp_all
      · exact .inl (digits_isDigit _ c hc)

/-- Behind its first character a numeral has a minus sign only in an exponent. -/
theorem e_mem_of_minus_mem_tail {s : Spelling} (h : '-' ∈ s.text.tail) : 'e' ∈ s.text := by
  cases he : s.exponent with
  | some e => simp [text, he, exponentText]
  | none =>
    have unsigned : '-' ∉ s.whole ++ fractionText s.fraction := by
      intro hc
      rcases List.mem_append.1 hc with hc | hc
      · exact absurd (s.whole_digits _ hc) (by decide)
      · exact absurd (mem_fractionText hc) (by decide)
    simp only [text, he, exponentText, List.append_nil, signText] at h
    split at h
    · exact absurd h unsigned
    · exact absurd (List.mem_of_mem_tail h) unsigned

end Json.Spelling

namespace Number

open Json (Numeral Spelling numeral?)

/-- The number of which a text is the text. -/
def ofText? (cs : List Char) : Option Number :=
  match numeral? cs with
  | some (n, []) => ofNumeral? Numeral.binary64? n
  | _ =>
    if cs = "NaN".toList then some (.float .nan)
    else if cs = "inf".toList then some (.float (.infinite false))
    else if cs = "-inf".toList then some (.float (.infinite true))
    else none

/-- A number in a message is spelt as a numeral that is read back, or it is a word. -/
inductive Written : Number → List Char → Prop
  | numeral {n : Number} (s : Spelling) (h : ofNumeral? Numeral.binary64? s.numeral = some n) :
    Written n s.text
  | nan : Written (.float .nan) "NaN".toList
  | infinite (negative : Bool) :
    Written (.float (.infinite negative)) (if negative then "-inf" else "inf").toList

theorem written_text (n : Number) : n.Written n.text.toList := by
  cases n with
  | int n =>
    rw [text, ← Spelling.text_ofInt]
    exact .numeral _ (Spelling.ofNumeral?_ofInt _ n)
  | float x =>
    cases x with
    | nan => exact .nan
    | infinite negative => cases negative <;> exact .infinite _
    | finite negative m q h =>
      rw [text, Binary64.text, ← Spelling.text_ofFinite Layout.readable_message]
      exact .numeral _ (Spelling.ofNumeral?_ofFinite Layout.readable_message negative h)

theorem Written.ofText? {n : Number} {cs : List Char} (h : n.Written cs) : ofText? cs = some n := by
  cases h with
  | numeral s h =>
    have read : numeral? s.text = some (s.numeral, []) := by
      have ends : Json.EndsNumeral [] := by simp [Json.EndsNumeral]
      simpa using s.numeral?_text ends
    rw [Number.ofText?, read]
    exact h
  | nan => rfl
  | infinite negative => cases negative <;> rfl

/-- The characters of a number. -/
theorem mem_text {n : Number} {c : Char} (hc : c ∈ n.text.toList) :
    c.isDigit = true ∨ c ∈ "-+.einfNa".toList := by
  have marks : ['-', '+', '.', 'e'] ⊆ "-+.einfNa".toList := by decide
  have nan : "NaN".toList ⊆ "-+.einfNa".toList := by decide
  have infinite (negative : Bool) :
      (if negative then "-inf" else "inf").toList ⊆ "-+.einfNa".toList := by
    cases negative <;> decide
  have written := n.written_text
  generalize n.text.toList = cs at written hc
  cases written with
  | numeral => exact (Spelling.mem_text hc).imp_right fun h => marks h
  | nan => exact .inr (nan hc)
  | infinite negative => exact .inr (infinite negative hc)

/-- The first character of a number. -/
theorem exists_text_eq_cons (n : Number) :
    ∃ c cs, n.text.toList = c :: cs ∧ (c.isDigit = true ∨ c ∈ ['-', 'N', 'i']) := by
  have written := n.written_text
  generalize n.text.toList = cs at written
  cases written with
  | numeral s =>
    obtain ⟨c, cs, text, first⟩ := s.exists_text_eq_cons
    exact ⟨c, cs, text, first.symm.imp_right fun h => by simp [h]⟩
  | nan => exact ⟨'N', _, rfl, by decide⟩
  | infinite negative =>
    cases negative
    · exact ⟨'i', _, rfl, by decide⟩
    · exact ⟨'-', _, rfl, by decide⟩

/-- Behind its first character a number has a minus sign only in an exponent. -/
theorem e_mem_of_minus_mem_tail {n : Number} (h : '-' ∈ n.text.toList.tail) :
    'e' ∈ n.text.toList := by
  have written := n.written_text
  generalize n.text.toList = cs at written h
  cases written with
  | numeral => exact Spelling.e_mem_of_minus_mem_tail h
  | nan => exact absurd h (by decide)
  | infinite negative => cases negative <;> exact absurd h (by decide)

theorem text_injective {n m : Number} (h : n.text.toList = m.text.toList) : n = m :=
  Option.some.inj (n.written_text.ofText?.symm.trans (h ▸ m.written_text.ofText?))

end Number

end Conform
