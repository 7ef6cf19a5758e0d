/-
How numbers are laid out. A whole number is written with a spelling without point and exponent
(`Spelling.text_ofInt`), a finite binary number, in any layout whose exponents are those of
numerals, with one that has a point or an exponent and the value of the shortest decimal
(`Spelling.text_ofFinite`). So both are read back as what they are, and neither as the other
(`Spelling.ofNumeral?_ofInt`, `Spelling.ofNumeral?_ofFinite`).
-/
import Conform.Proofs.Json.Numeral
import Conform.Proofs.Number.Decimal
import Conform.Value.Json

namespace Conform

/-- Exponents in this layout are those of numerals. -/
def Layout.Readable (l : Layout) : Prop := l.exponentSign = "" ∨ l.exponentSign = "+"

theorem Layout.readable_json : Layout.json.Readable := .inr rfl

theorem fitsInt64_eq_true_iff {i : Int} :
    fitsInt64 i = true ↔ -0x8000000000000000 ≤ i ∧ i < 0x8000000000000000 := by
  simp only [fitsInt64, Bool.and_eq_true, decide_eq_true_eq]

theorem fitsInt64_eq_false_iff {i : Int} :
    fitsInt64 i = false ↔ i < -0x8000000000000000 ∨ 0x8000000000000000 ≤ i := by
  rw [← Bool.not_eq_true, fitsInt64_eq_true_iff]
  omega

theorem fitsInt64_toInt (n : Int64) : fitsInt64 n.toInt = true :=
  fitsInt64_eq_true_iff.2 ⟨n.le_toInt, n.toInt_lt⟩

namespace Json

/-- The number that a numeral stands for, but for its sign. -/
def Numeral.magnitude (n : Numeral) : ℚ := n.digits * 10 ^ n.exponent

namespace Spelling

/-! ## Whole numbers -/

/-- The digits of a number other than zero do not begin with a zero. -/
theorem head_digits {n : Nat} (hn : n ≠ 0) : (Text.digits n).head? ≠ some '0' := by
  induction n using Nat.strongRecOn with
  | ind n ih =>
    by_cases h : n < 10
    · have small : ∀ d < 10, d ≠ 0 → Nat.digitChar d ≠ '0' := by decide
      rw [Text.digits, Nat.toDigits_of_lt_base h]
      simpa using small n h hn
    · rw [Text.digits, Nat.toDigits_of_base_le (by decide) (by omega),
        List.head?_append_of_ne_nil _ Nat.toDigits_ne_nil]
      exact ih (n / 10) (by omega) (by omega)

/-- A whole number without point and exponent. -/
def ofInt (n : Int) : Spelling where
  negative := n < 0
  whole := Text.digits n.natAbs
  fraction := []
  exponent := none
  whole_digits := digits_isDigit _
  whole_ne_nil := Nat.toDigits_ne_nil
  whole_head := by
    intro head
    by_cases h : n.natAbs = 0
    · rw [h]; rfl
    · exact absurd head (head_digits h)
  fraction_digits := by simp

theorem text_ofInt (n : Int) : (ofInt n).text = (Text.whole n).toList := by
  by_cases h : n < 0 <;>
    simp [text, ofInt, signText, fractionText, exponentText, Text.whole, Text.natural, h]

theorem integer?_ofInt (n : Int) : (ofInt n).numeral.integer? = some n := by
  have digits : (ofInt n).numeral.digits = n.natAbs := by
    simp [numeral, ofInt, Text.digits, Nat.ofDigitChars_ten_toDigits]
  have sign : (ofInt n).numeral.negative = decide (n < 0) := rfl
  have whole : ((ofInt n).numeral.integral && !(decide (n < 0) && n.natAbs == 0)) = true := by
    by_cases h : n < 0
    · simp [numeral, ofInt, h, Int.ne_of_lt h]
    · simp [numeral, ofInt, h]
  rw [Numeral.integer?, sign, digits, if_pos whole]
  simp only [decide_eq_true_eq, ite_natAbs]

theorem ofNumeral?_ofInt (convert : Conversion) (n : Int64) :
    Number.ofNumeral? convert (ofInt n.toInt).numeral = some (.int n) := by
  simp [Number.ofNumeral?, integer?_ofInt, Option.filter, fitsInt64_toInt]

/-! ## Binary numbers -/

/-- Digits of which the first is not a zero. -/
structure Leading (ds : List Char) : Prop where
  digits : ∀ c ∈ ds, c.isDigit = true
  ne_nil : ds ≠ []
  head : ds.head? ≠ some '0'

theorem leading_digits {n : Nat} (hn : n ≠ 0) : Leading (Text.digits n) :=
  ⟨digits_isDigit n, Nat.toDigits_ne_nil, head_digits hn⟩

variable {ds : List Char}

theorem isDigit_of_mem_replicate {n : Nat} {c : Char} (h : c ∈ List.replicate n '0') :
    c.isDigit = true := by
  rw [(List.mem_replicate.1 h).2]
  rfl

/-- Digits behind the point, with so many zeros in front of them. -/
def fractional (negative : Bool) (h : Leading ds) (zeros : Nat) : Spelling where
  negative := negative
  whole := ['0']
  fraction := List.replicate zeros '0' ++ ds
  exponent := none
  whole_digits := by simp
  whole_ne_nil := by simp
  whole_head := fun _ => rfl
  fraction_digits := by
    intro c hc
    rcases List.mem_append.1 hc with hc | hc
    · exact isDigit_of_mem_replicate hc
    · exact h.digits c hc

/-- Digits with a point after the first `before` of them. -/
def pointed (negative : Bool) (h : Leading ds) {before : Nat} (hb : before ≠ 0) : Spelling where
  negative := negative
  whole := ds.take before ++ List.replicate (before - ds.length) '0'
  fraction := if (ds.drop before).isEmpty then ['0'] else ds.drop before
  exponent := none
  whole_digits := by
    intro c hc
    rcases List.mem_append.1 hc with hc | hc
    · exact h.digits c (List.mem_of_mem_take hc)
    · exact isDigit_of_mem_replicate hc
  whole_ne_nil := by simp [hb, h.ne_nil]
  whole_head := by
    intro zero
    rw [List.head?_append_of_ne_nil _ (by simp [hb, h.ne_nil]), List.head?_take,
      if_neg hb] at zero
    exact absurd zero h.head
  fraction_digits := by
    intro c hc
    split at hc
    · rw [List.mem_singleton.1 hc]; rfl
    · exact h.digits c (List.mem_of_mem_drop hc)

/-- Digits with a point after the first, unless it is the only one, and an exponent. -/
def scientific (l : Layout) (negative : Bool) (h : Leading ds) (exponent : Int) : Spelling where
  negative := negative
  whole := ds.take 1
  fraction := ds.tail
  exponent := exponent
  plus := l.exponentSign = "+"
  whole_digits := fun c hc => h.digits c (List.mem_of_mem_take hc)
  whole_ne_nil := by simp [h.ne_nil]
  whole_head := by
    intro zero
    rw [List.head?_take, if_neg (by decide)] at zero
    exact absurd zero h.head
  fraction_digits := fun c hc => h.digits c (List.mem_of_mem_tail hc)

section

variable (negative : Bool) (h : Leading ds)

theorem text_fractional {point : Int} (hp : point ≤ 0) :
    (fractional negative h (-point).toNat).text =
      signText negative ++ (Layout.positional ds point).toList := by
  simp [text, fractional, Layout.positional, hp, fractionText, exponentText, h.ne_nil]

theorem text_pointed {point : Int} (hp : ¬ point ≤ 0) (hb : point.toNat ≠ 0) :
    (pointed negative h hb).text = signText negative ++ (Layout.positional ds point).toList := by
  by_cases none : (ds.drop point.toNat).isEmpty = true <;>
    simp [text, pointed, Layout.positional, hp, fractionText, exponentText, none]

theorem text_scientific {l : Layout} (hl : l.Readable) (exponent : Int) :
    (scientific l negative h exponent).text =
      signText negative ++ (l.scientific ds exponent).toList := by
  have power : exponentText (decide (l.exponentSign = "+")) (some exponent) = 'e' ::
      ((if exponent < 0 then "" else l.exponentSign).toList ++ (Text.whole exponent).toList) := by
    rcases hl with hl | hl <;> by_cases e : exponent < 0 <;>
      simp [exponentText, powerSign, Text.whole, Text.natural, hl, e]
  have point : fractionText ds.tail =
      (if ds.length ≤ 1 then "" else "." ++ String.ofList ds.tail).toList := by
    cases ds with
    | nil => rfl
    | cons d ds => cases ds <;> simp [fractionText]
  simp [text, scientific, Layout.scientific, power, point]

theorem magnitude_fractional (zeros : Nat) :
    (fractional negative h zeros).numeral.magnitude =
      Nat.ofDigitChars 10 ds 0 * 10 ^ (-(zeros : Int) - ds.length) := by
  have digits : Nat.ofDigitChars 10 (['0'] ++ (List.replicate zeros '0' ++ ds)) 0 =
      Nat.ofDigitChars 10 ds 0 := by
    simp [Nat.ofDigitChars_append, Nat.ofDigitChars_cons]
  have exponent : (0 : Int) - (List.replicate zeros '0' ++ ds).length =
      -(zeros : Int) - ds.length := by
    simp only [List.length_append, List.length_replicate]
    omega
  simp only [Numeral.magnitude, numeral, fractional, digits, exponent, Option.getD_none]

theorem magnitude_pointed {before : Nat} (hb : before ≠ 0) :
    (pointed negative h hb).numeral.magnitude =
      Nat.ofDigitChars 10 ds 0 * 10 ^ ((before : Int) - ds.length) := by
  by_cases none : (ds.drop before).isEmpty = true
  · -- no digit is left for behind the point, and a zero stands there
    have short : ds.length ≤ before := by simpa using none
    obtain ⟨k, rfl⟩ := Nat.exists_eq_add_of_le short
    have digits : Nat.ofDigitChars 10 (ds.take (ds.length + k) ++
        List.replicate (ds.length + k - ds.length) '0' ++ ['0']) 0 =
        10 * (10 ^ k * Nat.ofDigitChars 10 ds 0) := by
      rw [List.take_of_length_le short, Nat.ofDigitChars_append, Nat.ofDigitChars_append,
        Nat.ofDigitChars_replicate_zero, Nat.add_sub_cancel_left]
      rfl
    have exponent : ((ds.length + k : Nat) : Int) - ds.length = k := by omega
    simp only [Numeral.magnitude, numeral, pointed, none, if_true, digits, exponent,
      Option.getD_none]
    push_cast
    rw [zpow_natCast]
    norm_num
    ring
  · have long : before < ds.length := by simpa using none
    have filled : before - ds.length = 0 := by omega
    have exponent : (0 : Int) - (ds.drop before).length = before - ds.length := by
      rw [List.length_drop]
      omega
    simp only [Numeral.magnitude, numeral, pointed, none, filled, exponent, List.replicate_zero,
      List.append_nil, List.take_append_drop, Option.getD_none, Bool.false_eq_true, if_false]

theorem magnitude_scientific (l : Layout) (exponent : Int) :
    (scientific l negative h exponent).numeral.magnitude =
      Nat.ofDigitChars 10 ds 0 * 10 ^ (exponent + 1 - ds.length) := by
  have power : exponent - ds.tail.length = exponent + 1 - ds.length := by
    have := List.length_pos_iff.2 h.ne_nil
    rw [List.length_tail]
    omega
  have digits : ds.take 1 ++ ds.tail = ds := by rw [← List.drop_one, List.take_append_drop]
  simp only [Numeral.magnitude, numeral, scientific, Option.getD_some, power, digits]

theorem not_integral_pointed {before : Nat} (hb : before ≠ 0) :
    (pointed negative h hb).numeral.integral = false := by
  by_cases none : (ds.drop before).isEmpty = true <;> simp [numeral, pointed, none]

end

/-- A decimal in a layout. -/
def ofDecimal (l : Layout) (negative : Bool) (d : Decimal) (h : d.digits ≠ 0) : Spelling :=
  let point : Int := (Text.digits d.digits).length + d.exponent
  if l.plainFrom ≤ point - 1 ∧ point - 1 ≤ l.plainUpTo then
    if p : point ≤ 0 then fractional negative (leading_digits h) (-point).toNat
    else pointed negative (leading_digits h) (show point.toNat ≠ 0 by omega)
  else scientific l negative (leading_digits h) (point - 1)

/-- A decimal is spelt as it is laid out, not as a whole number, and with its own value. -/
theorem ofDecimal_spec {l : Layout} (hl : l.Readable) (negative : Bool) (d : Decimal)
    (h : d.digits ≠ 0) :
    (ofDecimal l negative d h).text = signText negative ++ (l.decimal d).toList ∧
      (ofDecimal l negative d h).numeral.negative = negative ∧
      (ofDecimal l negative d h).numeral.integral = false ∧
      (ofDecimal l negative d h).numeral.magnitude = d.digits * 10 ^ d.exponent := by
  have value {e : Int} (he : e = d.exponent) :
      (Nat.ofDigitChars 10 (Text.digits d.digits) 0 : ℚ) * 10 ^ e =
        d.digits * 10 ^ d.exponent := by
    rw [he, Text.digits, Nat.ofDigitChars_ten_toDigits]
  simp only [ofDecimal, Layout.decimal]
  split
  · split
    · next hp =>
      refine ⟨text_fractional negative _ hp, rfl, by simp [numeral, fractional, (leading_digits h).ne_nil], ?_⟩
      rw [magnitude_fractional]
      exact value (by omega)
    · next hp =>
      refine ⟨text_pointed negative _ hp _, rfl, not_integral_pointed .., ?_⟩
      rw [magnitude_pointed]
      exact value (by omega)
  · refine ⟨text_scientific _ _ hl _, rfl, by simp [numeral, scientific], ?_⟩
    rw [magnitude_scientific]
    exact value (by omega)

/-- A zero, with a point. -/
def zero (negative : Bool) : Spelling where
  negative := negative
  whole := ['0']
  fraction := ['0']
  exponent := none
  whole_digits := by simp
  whole_ne_nil := by simp
  whole_head := fun _ => rfl
  fraction_digits := by simp

/-- A finite binary number in a layout. -/
def ofFinite (l : Layout) (negative : Bool) (m : Nat) (q : Int) (h : Canonical m q) : Spelling :=
  if hm : m = 0 then zero negative
  else
    ofDecimal l negative (Decimal.shortest l.tie m q h)
      (Decimal.digits_shortest_ne_zero l.tie hm h)

section

variable {l : Layout} (hl : l.Readable) (negative : Bool) {m : Nat} {q : Int} (h : Canonical m q)

include hl

theorem text_ofFinite :
    (ofFinite l negative m q h).text = (l.finite negative m q h).toList := by
  have sign : signText negative = (if negative then "-" else "").toList := by
    cases negative <;> rfl
  unfold ofFinite Layout.finite Layout.magnitude
  split
  · simp [text, zero, sign, fractionText, exponentText]
  · rw [(ofDecimal_spec hl ..).1, sign, String.toList_append]

/-- A finite binary number is read back. -/
theorem ofNumeral?_ofFinite :
    Number.ofNumeral? Numeral.binary64? (ofFinite l negative m q h).numeral =
      some (.float (.finite negative m q h)) := by
  have binary {n : Numeral} (point : n.integral = false)
      (read : Binary64.ofDecimal n.negative n.digits n.exponent = .finite negative m q h) :
      Number.ofNumeral? Numeral.binary64? n = some (.float (.finite negative m q h)) := by
    simp [Number.ofNumeral?, Numeral.integer?, Numeral.round?, Numeral.binary64?, point, read,
      Binary64.isInfinite]
  unfold ofFinite
  split
  · next hm =>
    subst hm
    exact binary rfl (Binary64.finite_zero_eq h).symm
  · next hm =>
    obtain ⟨-, sign, point, value⟩ := ofDecimal_spec hl negative (Decimal.shortest l.tie m q h)
      (Decimal.digits_shortest_ne_zero _ hm h)
    refine binary point ?_
    rw [sign, Binary64.ofDecimal_congr negative value]
    exact Decimal.ofDecimal_shortest l.tie negative hm h

end

end Spelling

end Json

end Conform
