/-
The tokens that a text spells. A spelling is one of tokens whatever follows it, as long as no
numeral at its end goes on (`Spells`), so that spellings can be put one after another
(`Spells.append`).

A string as it is written in JSON is read back as it was (`string?_escape`): a character stands for
itself, or is escaped, by a letter or by its number.
-/
import Conform.Proofs.Json.Numeral

namespace Conform.Json

/-! ## Strings -/

theorem characters?_unit {n : Nat} (h : n < 0x20) (ps : List Piece) :
    characters? (.unit n :: ps) = (Char.ofNat n :: ·) <$> characters? ps := by
  have high : isHighSurrogate n = false := by
    simp only [isHighSurrogate, Bool.and_eq_false_iff, decide_eq_false_iff_not]
    omega
  have low : isLowSurrogate n = false := by
    simp only [isLowSurrogate, Bool.and_eq_false_iff, decide_eq_false_iff_not]
    omega
  cases ps with
  | nil => simp [characters?, high, low]
  | cons p ps => cases p <;> simp [characters?, high, low]

/-- A character is escaped by a letter or, if it is a control character, by its number in four
hexadecimal digits, or stands for itself. -/
theorem escape_cases (c : Char) :
    (∃ d, escape c = ['\\', d] ∧ d ≠ 'u' ∧ escaped? d = some c) ∨
    (∃ a b, escape c = ['\\', 'u', '0', '0', a, b] ∧ c.toNat < 0x20 ∧
      codeUnit? '0' '0' a b = some c.toNat) ∨
    (escape c = [c] ∧ c ≠ '"' ∧ c ≠ '\\' ∧ ¬ c.toNat < 0x20) := by
  have low : ∀ d < 0x10, codeUnit? '0' '0' '0' (Nat.digitChar d) = some d := by decide
  have high : ∀ d < 0x10, codeUnit? '0' '0' '1' (Nat.digitChar d) = some (0x10 + d) := by decide
  by_cases lettered : c ∈ ['"', '\\', '\x08', '\x0c', '\n', '\r', '\t']
  · simp only [List.mem_cons, List.not_mem_nil, or_false] at lettered
    rcases lettered with rfl | rfl | rfl | rfl | rfl | rfl | rfl <;>
      exact .inl ⟨_, rfl, by decide, rfl⟩
  · simp only [List.mem_cons, List.not_mem_nil, or_false, not_or] at lettered
    have ⟨quote, slash, _⟩ := lettered
    simp only [escape, lettered, if_false]
    by_cases first : c.toNat < 0x10
    · rw [if_pos first, Nat.toDigits_of_lt_base first]
      exact .inr (.inl ⟨_, _, rfl, by omega, low _ first⟩)
    · rw [if_neg first]
      by_cases second : c.toNat < 0x20
      · obtain ⟨d, hd⟩ := Nat.exists_eq_add_of_le (Nat.le_of_not_lt first)
        have digits : Nat.toDigits 16 (0x10 + d) = ['1', Nat.digitChar d] := by
          rw [Nat.toDigits_of_base_le (by decide) (by omega), Nat.toDigits_of_lt_base (by omega),
            show (0x10 + d) / 16 = 1 by omega, show (0x10 + d) % 16 = d by omega]
          rfl
        rw [if_pos second, hd, digits]
        exact .inr (.inl ⟨_, _, rfl, by omega, high d (by omega)⟩)
      · rw [if_neg second]
        exact .inr (.inr ⟨rfl, quote, slash, second⟩)

/-- A character is read back from its escape. -/
theorem exists_piece (c : Char) :
    ∃ p, (∀ cs, pieces? (escape c ++ cs) = (pieces? cs).bind fun r => some (p :: r.1, r.2)) ∧
      ∀ ps, characters? (p :: ps) = (c :: ·) <$> characters? ps := by
  rcases escape_cases c with ⟨d, eq, hd, read⟩ | ⟨a, b, eq, control, read⟩ | ⟨eq, quote, slash, plain⟩
  · refine ⟨.char c, fun cs => ?_, fun ps => rfl⟩
    rw [eq]
    simp [pieces?, hd, read]
  · refine ⟨.unit c.toNat, fun cs => ?_, fun ps => ?_⟩
    · rw [eq]
      simp [pieces?, read]
    · rw [characters?_unit control, Char.ofNat_toNat]
  · refine ⟨.char c, fun cs => ?_, fun ps => rfl⟩
    rw [eq]
    simp [pieces?, slash, plain]

/-- A string is read back from its escapes, up to its closing quote. -/
theorem string?_escape (s : String) (rest : List Char) :
    string? (s.toList.flatMap escape ++ '"' :: rest) = some (s, rest) := by
  have pieces (cs : List Char) : ∃ ps,
      pieces? (cs.flatMap escape ++ '"' :: rest) = some (ps, rest) ∧ characters? ps = some cs := by
    induction cs with
    | nil => exact ⟨[], rfl, rfl⟩
    | cons c cs ih =>
      obtain ⟨ps, read, characters⟩ := ih
      obtain ⟨p, read', characters'⟩ := exists_piece c
      refine ⟨p :: ps, ?_, ?_⟩
      · rw [List.flatMap_cons, List.append_assoc, read', read]
        rfl
      · rw [characters', characters]
        rfl
  obtain ⟨ps, read, characters⟩ := pieces s.toList
  simp [string?, read, characters]

/-! ## Tokens -/

deriving instance DecidableEq for Token

/-- A text spells tokens, whatever follows it; but a numeral at its end must not go on. -/
def Spells (text : List Char) (tokens : List Token) : Prop :=
  ∀ rest, EndsNumeral rest → tokens? (text ++ rest) = (tokens ++ ·) <$> tokens? rest

theorem EndsNumeral.append {a b : List Char} (ha : EndsNumeral a) (hb : EndsNumeral b) :
    EndsNumeral (a ++ b) := by
  cases a with
  | nil => exact hb
  | cons => exact ha

theorem Spells.append {a b : List Char} {ts us : List Token} (ha : Spells a ts) (hb : Spells b us)
    (h : EndsNumeral b) : Spells (a ++ b) (ts ++ us) := by
  intro rest ends
  rw [List.append_assoc, ha _ (h.append ends), hb _ ends]
  simp [Function.comp_def]

theorem tokens?_cons {c : Char} {cs rest : List Char} {t : Token} (blank : isBlank c = false)
    (h : Token.next? (c :: cs) = some (t, rest)) :
    tokens? (c :: cs) = (t :: ·) <$> tokens? rest := by
  rw [tokens?, if_neg (by simp [blank])]
  split
  · simp_all
  · next eq =>
    rw [h] at eq
    cases eq
    rfl

theorem spells_nil : Spells [] [] := by
  intro rest _
  simp

/-- A character that is a token can stand in front of anything. -/
theorem Spells.cons {c : Char} {t : Token} {cs : List Char} {ts : List Token}
    (blank : isBlank c = false) (h : punctuation? c = some t) (hcs : Spells cs ts) :
    Spells (c :: cs) (t :: ts) := by
  intro rest ends
  rw [List.cons_append, tokens?_cons blank (by rw [Token.next?, h]), hcs rest ends]
  simp [Function.comp_def]

theorem spells_null : Spells "null".toList [.null] := by
  intro rest _
  exact tokens?_cons rfl rfl

theorem spells_bool (b : Bool) : Spells (if b then "true" else "false").toList [.bool b] := by
  intro rest _
  cases b
  · exact tokens?_cons rfl rfl
  · exact tokens?_cons rfl rfl

theorem spells_string (s : String) : Spells (stringText s).toList [.string s] := by
  intro rest _
  have next : Token.next? ('"' :: (s.toList.flatMap escape ++ '"' :: rest)) =
      some (.string s, rest) := by
    simp [Token.next?, punctuation?, string?_escape]
  simpa [stringText] using tokens?_cons rfl next

theorem spells_numeral (s : Spelling) : Spells s.text [.numeral s.numeral] := by
  intro rest ends
  obtain ⟨c, cs, text, front⟩ := s.exists_text_eq_cons
  have read := s.numeral?_text ends
  rw [text, List.cons_append] at read ⊢
  have apart (d : Char) (minus : d ≠ '-') (digit : d.isDigit = false) : c ≠ d := by
    rintro rfl
    rcases front with h | h
    · exact minus h
    · simp [digit] at h
  have blank : isBlank c = false := by simp (disch := decide) [isBlank, apart]
  have next : Token.next? (c :: (cs ++ rest)) = some (.numeral s.numeral, rest) := by
    simp (disch := decide) [Token.next?, punctuation?, apart, read]
  rw [tokens?_cons blank next]
  rfl

end Conform.Json
