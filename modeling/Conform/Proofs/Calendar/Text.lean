/-
Dates and times can be told from their texts. A year shows where it ends, having a sign if it needs
one, and so the date does (`Date.unambiguous_text`). The fraction of a second is cut only where zeros
follow, and a leap second shows as second 60, so the time does too (`Timestamp.text_injective`).
-/
import Conform.Calendar.Timestamp
import Conform.Proofs.Text.Unambiguous

namespace Conform

open Text

namespace Date

/-- The sign of a year, where it bears one. -/
def yearSign (year : Int) : List Char :=
  if year < 0 then ['-'] else if 9999 < year then ['+'] else []

theorem toList_yearText (year : Int) :
    (yearText year).toList = yearSign year ++ paddedDigits 4 year.natAbs := by
  unfold yearText yearSign
  split
  · simp [padded]
  · split
    · have great : 10 ^ 4 ≤ year.natAbs := by omega
      simp [natural, paddedDigits_of_le (by decide) great]
    · simp [padded]

theorem eq_of_yearSign {y y' : Int} (sign : yearSign y = yearSign y') (same : y.natAbs = y'.natAbs) :
    y = y' := by
  unfold yearSign at sign
  by_cases h : y < 0 <;> by_cases h' : y' < 0 <;> simp only [h, h', if_true, if_false] at sign
  · omega
  · split at sign <;> simp at sign
  · split at sign <;> simp at sign
  · omega

/-- A year shows where it ends, if no digit follows. -/
theorem unambiguous_yearText : Unambiguous (fun y => (yearText y).toList) (Stops Char.isDigit) := by
  have signs (y : Int) : ∀ c ∈ yearSign y, (!c.isDigit) = true := by
    unfold yearSign
    split
    · simp
    · split <;> simp
  have digits (n : Nat) (s : List Char) : Stops (fun c => !c.isDigit) (paddedDigits 4 n ++ s) := by
    obtain ⟨d, ds, hd⟩ := List.exists_cons_of_ne_nil (paddedDigits_ne_nil 4 n)
    have digit : d.isDigit = true := isDigit_of_mem_padded (hd ▸ List.mem_cons_self)
    rw [hd, List.cons_append]
    exact stops_cons (by simp [digit]) _
  intro y y' s t hs ht h
  simp only [toList_yearText, List.append_assoc] at h
  obtain ⟨sign, h⟩ := append_inj (signs y) (signs y') (digits _ s) (digits _ t) h
  obtain ⟨same, rest⟩ := unambiguous_padded 4 hs ht h
  exact ⟨eq_of_yearSign sign same, rest⟩

theorem toList_text (d : Date) : d.text.toList =
    (yearText d.year).toList ++ ('-' :: paddedDigits 2 d.month ++ ('-' :: paddedDigits 2 d.day)) := by
  simp [text, padded]

/-- A date shows where it ends, if no digit follows. -/
theorem unambiguous_text : Unambiguous (fun d : Date => d.text.toList) (Stops Char.isDigit) := by
  have hyphen (cs : List Char) : Stops Char.isDigit ('-' :: cs) := stops_cons rfl cs
  intro d d' s t hs ht h
  simp only [toList_text, List.append_assoc, List.cons_append] at h
  obtain ⟨year, h⟩ := unambiguous_yearText (hyphen _) (hyphen _) h
  obtain ⟨month, h⟩ := unambiguous_padded 2 (hyphen _) (hyphen _) (List.tail_eq_of_cons_eq h)
  obtain ⟨day, rest⟩ := unambiguous_padded 2 hs ht (List.tail_eq_of_cons_eq h)
  obtain ⟨_, _, _, _⟩ := d
  obtain ⟨_, _, _, _⟩ := d'
  cases year
  cases month
  cases day
  exact ⟨rfl, rest⟩

theorem mem_yearSign {y : Int} {c : Char} (hc : c ∈ yearSign y) : c ∈ ['-', '+'] := by
  unfold yearSign at hc
  split at hc
  · exact (by decide : ['-'] ⊆ ['-', '+']) hc
  · split at hc
    · exact (by decide : ['+'] ⊆ ['-', '+']) hc
    · cases hc

/-- The characters of a date. -/
theorem mem_text {d : Date} {c : Char} (hc : c ∈ d.text.toList) :
    c.isDigit = true ∨ c ∈ ['-', '+'] := by
  simp only [toList_text, toList_yearText, List.mem_append, List.mem_cons] at hc
  rcases hc with (hc | hc) | (rfl | hc) | rfl | hc
  · exact .inr (mem_yearSign hc)
  · exact .inl (isDigit_of_mem_padded hc)
  · simp
  · exact .inl (isDigit_of_mem_padded hc)
  · simp
  · exact .inl (isDigit_of_mem_padded hc)

/-- A date has a hyphen behind its first character. -/
theorem exists_text_eq_cons (d : Date) : ∃ c cs, d.text.toList = c :: cs ∧ '-' ∈ cs := by
  have year : (yearText d.year).toList ≠ [] := by
    rw [toList_yearText]
    exact List.append_ne_nil_of_right_ne_nil _ (paddedDigits_ne_nil _ _)
  obtain ⟨c, cs, hc⟩ := List.exists_cons_of_ne_nil year
  exact ⟨c, _, by rw [toList_text, hc]; rfl, by simp⟩

end Date

namespace Timestamp

/-- The digits of a fraction of a second: none if there is none, or as many places as give it
exactly. -/
inductive Fractional (nano : Nat) : List Char → Prop
  | whole (h : nano = 0) : Fractional nano []
  | places {k n : Nat} (hk : 0 < k) (hn : nano = n * 10 ^ (9 - k)) (h : n < 10 ^ k) :
    Fractional nano ('.' :: paddedDigits k n)

theorem fractional_text {nano : Nat} (h : nano < nanosPerSecond) :
    Fractional nano (fractionText nano).toList := by
  have bound : nano < 1000000000 := h
  unfold fractionText
  split
  · next h => exact .whole h
  split
  · have digits : Fractional nano ('.' :: paddedDigits 3 (nano / 1000000)) :=
      .places (by decide) (by omega) (by omega)
    simpa [padded] using digits
  split
  · have digits : Fractional nano ('.' :: paddedDigits 6 (nano / 1000)) :=
      .places (by decide) (by omega) (by omega)
    simpa [padded] using digits
  · have digits : Fractional nano ('.' :: paddedDigits 9 nano) :=
      .places (by decide) (by omega) (by omega)
    simpa [padded] using digits

/-- Where a fraction ends shows how much it counts. -/
theorem Fractional.unique {nano nano' : Nat} {cs cs' : List Char} (h : Fractional nano cs)
    (h' : Fractional nano' cs') (same : cs = cs') : nano = nano' := by
  cases h with
  | whole h =>
    cases h' with
    | whole h' => rw [h, h']
    | places => cases same
  | @places k n hk hn h =>
    cases h' with
    | whole => cases same
    | @places k' n' hk' hn' h' =>
      have digits : paddedDigits k n = paddedDigits k' n' := List.tail_eq_of_cons_eq same
      obtain rfl : k = k' := by rw [← length_padded hk h, digits, length_padded hk' h']
      rw [hn, hn', paddedDigits_injective k digits]

theorem Fractional.mem {nano : Nat} {cs : List Char} {c : Char} (h : Fractional nano cs)
    (hc : c ∈ cs) : c.isDigit = true ∨ c = '.' := by
  cases h with
  | whole => cases hc
  | places => exact (List.mem_cons.1 hc).symm.imp_left isDigit_of_mem_padded

theorem Fractional.stops {nano : Nat} {cs : List Char} (h : Fractional nano cs) :
    Stops Char.isDigit (cs ++ ['Z']) := by
  cases h with
  | whole => exact stops_cons rfl []
  | places => exact stops_cons rfl _

theorem toList_text (t : Timestamp) : t.text.toList =
    t.date.text.toList ++ ('T' :: paddedDigits 2 t.hour ++ (':' :: paddedDigits 2 t.minute ++
      (':' :: paddedDigits 2 t.shownSecond ++
        ((fractionText (t.nano % nanosPerSecond)).toList ++ ['Z'])))) := by
  simp [text, padded]

/-- The characters of a time. -/
theorem mem_text {t : Timestamp} {c : Char} (hc : c ∈ t.text.toList) :
    c.isDigit = true ∨ c ∈ "-+T:.Z".toList := by
  have fraction : Fractional (t.nano % nanosPerSecond) _ :=
    fractional_text (Nat.mod_lt _ (by decide))
  simp only [toList_text, List.mem_append, List.mem_cons, List.not_mem_nil, or_false] at hc
  rcases hc with hc | (rfl | hc) | (rfl | hc) | (rfl | hc) | hc | rfl
  · exact (Date.mem_text hc).imp_right fun h => (by decide : ['-', '+'] ⊆ "-+T:.Z".toList) h
  · exact .inr (by decide)
  · exact .inl (isDigit_of_mem_padded hc)
  · exact .inr (by decide)
  · exact .inl (isDigit_of_mem_padded hc)
  · exact .inr (by decide)
  · exact .inl (isDigit_of_mem_padded hc)
  · refine (fraction.mem hc).imp_right fun h => ?_
    rw [h]
    decide
  · exact .inr (by decide)

/-- A leap second shows, so seconds and nanoseconds can be told from what is shown of them. -/
theorem eq_of_shown {t u : Timestamp} (second : t.shownSecond = u.shownSecond)
    (nano : t.nano % nanosPerSecond = u.nano % nanosPerSecond) :
    t.second = u.second ∧ t.nano = u.nano := by
  obtain ⟨_, _, hs, hn, leap⟩ := t.is_time
  obtain ⟨_, _, hs', hn', leap'⟩ := u.is_time
  unfold shownSecond at second
  unfold nanosPerSecond at *
  split at second <;> split at second <;> omega

/-- A time can be told from its text. -/
theorem text_injective {t u : Timestamp} (h : t.text.toList = u.text.toList) : t = u := by
  have mark {c : Char} (hc : c.isDigit = false) (cs : List Char) : Stops Char.isDigit (c :: cs) :=
    stops_cons hc cs
  have fraction (t : Timestamp) : Fractional (t.nano % nanosPerSecond) _ :=
    fractional_text (Nat.mod_lt _ (by decide))
  simp only [toList_text, List.cons_append] at h
  obtain ⟨date, h⟩ := Date.unambiguous_text (mark rfl _) (mark rfl _) h
  obtain ⟨hour, h⟩ := unambiguous_padded 2 (mark rfl _) (mark rfl _) (List.tail_eq_of_cons_eq h)
  obtain ⟨minute, h⟩ := unambiguous_padded 2 (mark rfl _) (mark rfl _) (List.tail_eq_of_cons_eq h)
  obtain ⟨shown, h⟩ := unambiguous_padded 2 (fraction t).stops (fraction u).stops
    (List.tail_eq_of_cons_eq h)
  have nano : t.nano % nanosPerSecond = u.nano % nanosPerSecond :=
    (fraction t).unique (fraction u) (List.append_cancel_right h)
  obtain ⟨second, nano⟩ := eq_of_shown shown nano
  obtain ⟨_, _, _, _, _, _⟩ := t
  obtain ⟨_, _, _, _, _, _⟩ := u
  cases date
  cases hour
  cases minute
  cases second
  cases nano
  rfl

end Timestamp

end Conform
