/-
Texts from which it can be seen what was written. A way of writing is unambiguous before certain
texts if both what was written and the text that follows can be told from the whole
(`Text.Unambiguous`). Digits are, as long as no digit follows (`Text.unambiguous_padded`), and text
in quotes is before anything, because an escape shows where it ends (`Text.unambiguous_quote`).
-/
import Conform.Text.Quoted
import Mathlib.Algebra.Ring.Nat

/-- A text with a separator is the first part, and the others with the separator in front. -/
theorem List.intercalate_cons {α : Type} (sep l : List α) (ls : List (List α)) :
    sep.intercalate (l :: ls) = l ++ ls.flatMap (sep ++ ·) := by
  induction ls generalizing l with
  | nil => simp
  | cons m ls ih => simp [List.intercalate_cons_cons, ih]

namespace Conform.Text

/-- A text that does not begin with a character of a class. -/
def Stops (p : Char → Bool) (rest : List Char) : Prop :=
  ∀ c ∈ rest.head?, p c = false

/-- That this was written can be told from a text that goes on as it may, and so can what
follows. -/
def Told {α : Type} (write : α → List Char) (Follows : List Char → Prop) (a : α) : Prop :=
  ∀ ⦃b : α⦄ ⦃s t : List Char⦄, Follows s → Follows t → write a ++ s = write b ++ t → a = b ∧ s = t

/-- Whatever was written can be told from the text. -/
def Unambiguous {α : Type} (write : α → List Char) (Follows : List Char → Prop) : Prop :=
  ∀ ⦃a : α⦄, Told write Follows a

variable {p : Char → Bool}

theorem stops_nil : Stops p [] := by
  simp [Stops]

theorem stops_cons {c : Char} (h : p c = false) (cs : List Char) : Stops p (c :: cs) := by
  rintro _ ⟨⟩
  exact h

theorem takeWhile_append {as s : List Char} (ha : ∀ c ∈ as, p c = true) (hs : Stops p s) :
    (as ++ s).takeWhile p = as := by
  rw [List.takeWhile_append_of_pos ha]
  cases s with
  | nil => simp
  | cons c s => simp [hs c rfl]

/-- Characters of a class are told from a text that begins with none of them. -/
theorem append_inj {as bs s t : List Char} (ha : ∀ c ∈ as, p c = true)
    (hb : ∀ c ∈ bs, p c = true) (hs : Stops p s) (ht : Stops p t) (h : as ++ s = bs ++ t) :
    as = bs ∧ s = t := by
  obtain rfl : as = bs := by rw [← takeWhile_append ha hs, h, takeWhile_append hb ht]
  exact ⟨rfl, List.append_cancel_left h⟩

theorem unambiguous_of_class {α : Type} {write : α → List Char}
    (hw : ∀ a, ∀ c ∈ write a, p c = true) (inj : Function.Injective write) :
    Unambiguous write (Stops p) := by
  intro a b s t hs ht h
  obtain ⟨same, rest⟩ := append_inj (hw a) (hw b) hs ht h
  exact ⟨inj same, rest⟩

/-! ## Lists -/

section

variable {α : Type} {write : α → List Char} {Follows : List Char → Prop} {sep : List Char}
  {close : Char} {as bs : List α} {s t : List Char}
  (told : ∀ a ∈ as, Told write Follows a) (follows : ∀ cs, Follows (sep ++ cs) ∧ Follows (close :: cs))
  (apart : ∀ cs ds, sep ++ cs ≠ close :: ds)

include told follows apart

theorem told_separated
    (h : as.flatMap (sep ++ write ·) ++ close :: s = bs.flatMap (sep ++ write ·) ++ close :: t) :
    as = bs ∧ s = t := by
  have goes (cs : List α) (r : List Char) :
      Follows (cs.flatMap (sep ++ write ·) ++ close :: r) := by
    cases cs with
    | nil => exact (follows r).2
    | cons c cs =>
      rw [List.flatMap_cons, List.append_assoc, List.append_assoc]
      exact (follows _).1
  induction as generalizing bs with
  | nil =>
    cases bs with
    | nil => exact ⟨rfl, List.tail_eq_of_cons_eq h⟩
    | cons b bs =>
      rw [List.flatMap_cons, List.append_assoc, List.append_assoc] at h
      exact absurd h.symm (apart _ _)
  | cons a as ih =>
    cases bs with
    | nil =>
      rw [List.flatMap_cons, List.append_assoc, List.append_assoc] at h
      exact absurd h (apart _ _)
    | cons b bs =>
      simp only [List.flatMap_cons, List.append_assoc, List.append_cancel_left_eq] at h
      obtain ⟨rfl, others⟩ := told a List.mem_cons_self (goes _ _) (goes _ _) h
      obtain ⟨rfl, rest⟩ := ih (fun a ha => told a (List.mem_cons_of_mem _ ha)) others
      exact ⟨rfl, rest⟩

/-- Items with a separator between them can be told, with a closing bracket after the last one,
if the items can. -/
theorem told_enclosed (first : ∀ a cs ds, write a ++ cs ≠ close :: ds) :
    Told (fun as => sep.intercalate (as.map write) ++ [close]) (fun _ => True) as := by
  intro bs s t _ _ h
  simp only [List.append_assoc, List.cons_append, List.nil_append] at h
  cases as with
  | nil =>
    cases bs with
    | nil => exact ⟨rfl, List.tail_eq_of_cons_eq h⟩
    | cons b bs =>
      rw [List.map_cons, List.intercalate_cons, List.append_assoc] at h
      exact absurd h.symm (first _ _ _)
  | cons a as =>
    cases bs with
    | nil =>
      rw [List.map_cons, List.intercalate_cons, List.append_assoc] at h
      exact absurd h (first _ _ _)
    | cons b bs =>
      refine told_separated told follows apart ?_
      simpa [List.intercalate_cons, List.flatMap_map] using h

end

/-! ## Digits -/

theorem isDigit_of_mem_padded {width n : Nat} {c : Char} (hc : c ∈ paddedDigits width n) :
    c.isDigit = true := by
  rcases List.mem_append.1 hc with hc | hc
  · rw [(List.mem_replicate.1 hc).2]
    rfl
  · exact Nat.isDigit_of_mem_toDigits (by decide) (by decide) hc

theorem ofDigitChars_padded (width n : Nat) : Nat.ofDigitChars 10 (paddedDigits width n) 0 = n := by
  rw [paddedDigits, Nat.ofDigitChars_append, Nat.ofDigitChars_replicate_zero, Nat.mul_zero, digits,
    Nat.ofDigitChars_ten_toDigits]

theorem paddedDigits_injective (width : Nat) : Function.Injective (paddedDigits width) :=
  Function.LeftInverse.injective (g := (Nat.ofDigitChars 10 · 0)) (ofDigitChars_padded width)

theorem unambiguous_padded (width : Nat) :
    Unambiguous (paddedDigits width) (Stops Char.isDigit) :=
  unambiguous_of_class (fun _ _ => isDigit_of_mem_padded) (paddedDigits_injective width)

theorem paddedDigits_ne_nil (width n : Nat) : paddedDigits width n ≠ [] :=
  List.append_ne_nil_of_right_ne_nil _ Nat.toDigits_ne_nil

/-- A number that is not too great fills its width. -/
theorem length_padded {width n : Nat} (hw : 0 < width) (h : n < 10 ^ width) :
    (paddedDigits width n).length = width := by
  have short : (digits n).length ≤ width := (Nat.length_toDigits_le_iff (by decide) hw).2 h
  rw [paddedDigits, List.length_append, List.length_replicate]
  omega

/-- A great number is not filled up. -/
theorem paddedDigits_of_le {width n : Nat} (hw : 0 < width) (h : 10 ^ width ≤ n) :
    paddedDigits width n = digits n := by
  have long : ¬ (digits n).length ≤ width := by
    rw [digits, Nat.length_toDigits_le_iff (by decide) hw]
    omega
  rw [paddedDigits, Nat.sub_eq_zero_of_le (by omega), List.replicate_zero, List.nil_append]

/-! ## Quotes -/

/-- The value of a hexadecimal digit in small letters. -/
def digitValue (c : Char) : Nat :=
  if c.isDigit then c.toNat - '0'.toNat else c.toNat - 'a'.toNat + 10

def ofHexadecimal (cs : List Char) : Nat := cs.foldl (fun n c => n * 16 + digitValue c) 0

theorem ofHexadecimal_toDigits (n : Nat) : ofHexadecimal (Nat.toDigits 16 n) = n := by
  have digit : ∀ d < 16, digitValue d.digitChar = d := by decide
  induction n using Nat.strongRecOn with
  | ind n ih =>
    by_cases h : n < 16
    · rw [Nat.toDigits_of_lt_base h]
      simpa [ofHexadecimal] using digit n h
    · have front := ih (n / 16) (by omega)
      rw [ofHexadecimal] at front ⊢
      rw [Nat.toDigits_of_base_le (by decide) (by omega), List.foldl_append, front]
      simp only [List.foldl_cons, List.foldl_nil, digit (n % 16) (by omega)]
      omega

theorem ne_brace_of_mem_toDigits {n : Nat} {c : Char} (hc : c ∈ Nat.toDigits 16 n) :
    c ≠ '\x7d' := by
  have digit : ∀ d < 16, d.digitChar ≠ '\x7d' := by decide
  induction n using Nat.strongRecOn with
  | ind n ih =>
    by_cases h : n < 16
    · rw [Nat.toDigits_of_lt_base h, List.mem_singleton] at hc
      exact hc ▸ digit n h
    · rw [Nat.toDigits_of_base_le (by decide) (by omega), List.mem_append] at hc
      rcases hc with hc | hc
      · exact ih (n / 16) (by omega) hc
      · exact List.mem_singleton.1 hc ▸ digit (n % 16) (by omega)

/-- The character that is written at the front of quoted text, unless it ends there, and what
follows. -/
def unescape? : List Char → Option (Char × List Char)
  | '\\' :: '0' :: rest => some ('\x00', rest)
  | '\\' :: 't' :: rest => some ('\t', rest)
  | '\\' :: 'n' :: rest => some ('\n', rest)
  | '\\' :: 'r' :: rest => some ('\r', rest)
  | '\\' :: '"' :: rest => some ('"', rest)
  | '\\' :: '\\' :: rest => some ('\\', rest)
  | '\\' :: 'u' :: '\x7b' :: rest =>
    some (Char.ofNat (ofHexadecimal (rest.takeWhile (· != '\x7d'))),
      (rest.dropWhile (· != '\x7d')).tail)
  | '"' :: _ => none
  | c :: rest => some (c, rest)
  | [] => none

theorem unescape?_escape (c : Char) (rest : List Char) :
    unescape? (escape c ++ rest) = some (c, rest) := by
  unfold escape
  -- the escapes of a single letter
  iterate 6
    split
    · next h =>
      subst h
      rfl
  split
  · have number : ∀ d ∈ Nat.toDigits 16 c.toNat, (d != '\x7d') = true := fun d hd => by
      simpa using ne_brace_of_mem_toDigits hd
    have front : (Nat.toDigits 16 c.toNat ++ '\x7d' :: rest).takeWhile (· != '\x7d') =
        Nat.toDigits 16 c.toNat := by
      rw [List.takeWhile_append_of_pos number]
      simp
    have back : (Nat.toDigits 16 c.toNat ++ '\x7d' :: rest).dropWhile (· != '\x7d') =
        '\x7d' :: rest := by
      rw [List.dropWhile_append_of_pos number]
      simp
    simp only [List.cons_append, List.nil_append, List.append_assoc, unescape?, front, back,
      ofHexadecimal_toDigits, Char.ofNat_toNat, List.tail_cons]
  · next quote slash _ =>
    simp only [List.cons_append, List.nil_append]
    unfold unescape?
    split <;> simp_all

theorem flatMap_escape_append_inj {cs ds s t : List Char}
    (h : cs.flatMap escape ++ '"' :: s = ds.flatMap escape ++ '"' :: t) : cs = ds ∧ s = t := by
  induction cs generalizing ds with
  | nil =>
    cases ds with
    | nil => exact ⟨rfl, List.tail_eq_of_cons_eq h⟩
    | cons d ds =>
      have read := congrArg unescape? h
      rw [List.flatMap_cons, List.append_assoc, unescape?_escape] at read
      cases read
  | cons c cs ih =>
    have read := congrArg unescape? h
    rw [List.flatMap_cons, List.append_assoc, unescape?_escape] at read
    cases ds with
    | nil => cases read
    | cons d ds =>
      rw [List.flatMap_cons, List.append_assoc, unescape?_escape] at read
      simp only [Option.some.injEq, Prod.mk.injEq] at read
      obtain ⟨rfl, read⟩ := read
      obtain ⟨rfl, rest⟩ := ih read
      exact ⟨rfl, rest⟩

theorem toList_quote (s : String) : (quote s).toList = '"' :: (s.toList.flatMap escape ++ ['"']) := by
  simp [quote]

/-- Text in quotes shows where it ends. -/
theorem unambiguous_quote : Unambiguous (fun s => (quote s).toList) fun _ => True := by
  intro a b s t _ _ h
  simp only [toList_quote, List.cons_append, List.append_assoc, List.nil_append, List.cons.injEq,
    true_and] at h
  obtain ⟨same, rest⟩ := flatMap_escape_append_inj h
  exact ⟨String.toList_inj.1 same, rest⟩

end Conform.Text
