/-
Numerals and how they are spelt. A spelling says which signs and digits a numeral is written with;
every spelling is read as its numeral if what follows does not go on with it
(`Spelling.numeral?_text`).
-/
import Conform.Json.Text

namespace Conform.Json

/-- A text does not go on with a numeral that stands in front of it. -/
def EndsNumeral (rest : List Char) : Prop :=
  ∀ c ∈ rest.head?, c.isDigit = false ∧ c ≠ '.' ∧ c ≠ 'e' ∧ c ≠ 'E'

/-! ## Spellings -/

/-- How a numeral is spelt. Without digits behind the point there is no point either. -/
structure Spelling where
  negative : Bool
  whole : List Char
  fraction : List Char
  exponent : Option Int
  /-- Does an exponent that is not negative bear a plus sign? -/
  plus : Bool := true
  whole_digits : ∀ c ∈ whole, c.isDigit = true
  whole_ne_nil : whole ≠ []
  /-- No zero stands in front of other digits. -/
  whole_head : whole.head? = some '0' → whole.length = 1
  fraction_digits : ∀ c ∈ fraction, c.isDigit = true

namespace Spelling

def signText (negative : Bool) : List Char := if negative then ['-'] else []

def fractionText (fraction : List Char) : List Char :=
  if fraction.isEmpty then [] else '.' :: fraction

/-- The sign of an exponent. -/
def powerSign (plus : Bool) (e : Int) : List Char :=
  if e < 0 then ['-'] else if plus then ['+'] else []

def exponentText (plus : Bool) : Option Int → List Char
  | none => []
  | some e => 'e' :: (powerSign plus e ++ Text.digits e.natAbs)

def text (s : Spelling) : List Char :=
  signText s.negative ++ (s.whole ++ (fractionText s.fraction ++ exponentText s.plus s.exponent))

def numeral (s : Spelling) : Numeral where
  negative := s.negative
  digits := Nat.ofDigitChars 10 (s.whole ++ s.fraction) 0
  exponent := s.exponent.getD 0 - s.fraction.length
  integral := s.fraction.isEmpty && s.exponent.isNone

/-! ## Reading a spelling -/

variable {rest : List Char}

theorem digits_isDigit (n : Nat) : ∀ c ∈ Text.digits n, c.isDigit = true :=
  fun _ hc => Nat.isDigit_of_mem_toDigits (by decide) (by decide) hc

theorem spanDigits_append {ds : List Char} (hd : ∀ c ∈ ds, c.isDigit = true)
    (hr : ∀ c ∈ rest.head?, c.isDigit = false) : spanDigits (ds ++ rest) = (ds, rest) := by
  have front : rest.takeWhile Char.isDigit = [] ∧ rest.dropWhile Char.isDigit = rest := by
    cases rest with
    | nil => exact ⟨rfl, rfl⟩
    | cons c rest => simp [hr c rfl]
  rw [spanDigits, List.takeWhile_append_of_pos hd, List.dropWhile_append_of_pos hd, front.1,
    front.2, List.append_nil]

theorem sign_append {cs : List Char} (negative : Bool) (h : cs.head? ≠ some '-') :
    sign (signText negative ++ cs) = (negative, cs) := by
  cases negative with
  | true => rfl
  | false =>
    cases cs with
    | nil => rfl
    | cons c cs =>
      simp only [signText, Bool.false_eq_true, if_false, List.nil_append]
      unfold sign
      split
      · simp_all
      · rfl

theorem wholePart?_append {ds : List Char} (hd : ∀ c ∈ ds, c.isDigit = true) (hne : ds ≠ [])
    (head : ds.head? = some '0' → ds.length = 1) (hr : ∀ c ∈ rest.head?, c.isDigit = false) :
    wholePart? (ds ++ rest) = some (ds, rest) := by
  rw [wholePart?, spanDigits_append hd hr]
  split
  · simp_all
  · next eq =>
    cases eq
    rw [if_neg fun h => h.2 (head h.1)]

theorem fractionPart?_append {ds : List Char} (hd : ∀ c ∈ ds, c.isDigit = true)
    (hr : ∀ c ∈ rest.head?, c.isDigit = false ∧ c ≠ '.') :
    fractionPart? (fractionText ds ++ rest) = some (ds, rest) := by
  cases ds with
  | nil =>
    cases rest with
    | nil => rfl
    | cons c rest =>
      have point := (hr c rfl).2
      simp only [fractionText, List.isEmpty_nil, if_true, List.nil_append]
      unfold fractionPart?
      split
      · simp_all
      · rfl
  | cons d ds =>
    simp only [fractionText, List.isEmpty_cons, Bool.false_eq_true, if_false, List.cons_append,
      fractionPart?]
    rw [← List.cons_append, spanDigits_append hd fun c hc => (hr c hc).1]

theorem ite_natAbs (n : Int) : (if n < 0 then -(n.natAbs : Int) else n.natAbs) = n := by
  split <;> omega

/-- Digits begin with a digit. -/
theorem exists_digits_eq_cons (n : Nat) :
    ∃ d ds, Text.digits n = d :: ds ∧ d.isDigit = true := by
  obtain ⟨d, ds, hd⟩ := List.exists_cons_of_ne_nil (Nat.toDigits_ne_nil (b := 10) (n := n))
  exact ⟨d, ds, hd, digits_isDigit n d (by rw [Text.digits, hd]; exact List.mem_cons_self)⟩

theorem exponentSign_append (plus : Bool) (e : Int) :
    exponentSign (powerSign plus e ++ (Text.digits e.natAbs ++ rest)) =
      (decide (e < 0), Text.digits e.natAbs ++ rest) := by
  by_cases h : e < 0
  · simp [powerSign, h, exponentSign]
  · obtain ⟨d, ds, hd, digit⟩ := exists_digits_eq_cons e.natAbs
    cases plus with
    | true => simp [powerSign, h, exponentSign]
    | false =>
      simp only [powerSign, h, if_false, Bool.false_eq_true, List.nil_append, hd, List.cons_append]
      unfold exponentSign
      split
      · simp_all
      · simp_all
      · rfl

theorem exponentPart?_append (plus : Bool) (e : Option Int) (hr : EndsNumeral rest) :
    exponentPart? (exponentText plus e ++ rest) = some (e, rest) := by
  cases e with
  | none =>
    cases rest with
    | nil => rfl
    | cons c rest =>
      have ends := hr c rfl
      simp [exponentText, exponentPart?, ends.2.2]
  | some e =>
    have span := spanDigits_append (digits_isDigit e.natAbs) fun c hc => (hr c hc).1
    simp only [exponentText, List.cons_append, List.append_assoc, exponentPart?,
      exponentSign_append, span, true_or, if_true, decide_eq_true_eq]
    split
    · next eq => exact absurd (congrArg Prod.fst eq) Nat.toDigits_ne_nil
    · next eq =>
      cases eq
      rw [Text.digits, Nat.ofDigitChars_ten_toDigits, ite_natAbs]

theorem head_exponentText (plus : Bool) (e : Option Int) (hr : EndsNumeral rest) :
    ∀ c ∈ (exponentText plus e ++ rest).head?, c.isDigit = false ∧ c ≠ '.' := by
  cases e with
  | none => exact fun c hc => ⟨(hr c hc).1, (hr c hc).2.1⟩
  | some e =>
    rintro c ⟨⟩
    decide

theorem head_fractionText (ds : List Char) {cs : List Char}
    (h : ∀ c ∈ cs.head?, c.isDigit = false ∧ c ≠ '.') :
    ∀ c ∈ (fractionText ds ++ cs).head?, c.isDigit = false := by
  cases ds with
  | nil => exact fun c hc => (h c hc).1
  | cons d ds =>
    rintro c ⟨⟩
    decide

/-- The first character of a spelling. -/
theorem exists_text_eq_cons (s : Spelling) :
    ∃ c cs, s.text = c :: cs ∧ (c = '-' ∨ c.isDigit = true) := by
  obtain ⟨d, ds, hd⟩ := List.exists_cons_of_ne_nil s.whole_ne_nil
  have digit := s.whole_digits d (by simp [hd])
  unfold text signText
  split
  · exact ⟨_, _, rfl, .inl rfl⟩
  · exact ⟨d, _, by rw [hd]; rfl, .inr digit⟩

/-- A spelling is read as its numeral. -/
theorem numeral?_text (s : Spelling) (hr : EndsNumeral rest) :
    numeral? (s.text ++ rest) = some (s.numeral, rest) := by
  have head : (s.whole ++ (fractionText s.fraction ++ (exponentText s.plus s.exponent ++ rest))).head? ≠
      some '-' := by
    obtain ⟨d, ds, hd⟩ := List.exists_cons_of_ne_nil s.whole_ne_nil
    have digit := s.whole_digits d (by simp [hd])
    rw [hd]
    rintro ⟨⟩
    exact absurd digit (by decide)
  have afterFraction := head_exponentText s.plus s.exponent hr
  have afterWhole := head_fractionText s.fraction afterFraction
  simp only [text, List.append_assoc, numeral?, sign_append s.negative head,
    wholePart?_append s.whole_digits s.whole_ne_nil s.whole_head afterWhole,
    fractionPart?_append s.fraction_digits afterFraction, exponentPart?_append s.plus s.exponent hr, bind,
    Option.bind]
  rfl

end Spelling

end Conform.Json
