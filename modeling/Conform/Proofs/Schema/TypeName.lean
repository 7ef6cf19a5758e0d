/-
What names stand for. A name `/p/r` is taken apart at the first slash after the
leading one, so if `p` has a slash in it the name is taken apart within `p`
(`TypeName.split?_eq_some_iff`). It is told here for which names there is a URI
(`TypeName.expand_ok_iff`), and why there is none for the others
(`TypeName.expand_error`).
-/
import Mathlib.Data.List.TakeWhile
import Conform.Schema.TypeName

namespace Conform

namespace TypeName

variable {words : Text.WordClass} {prefixes : Table String} {name p q rest uri : String}

/-- The name `/p/r`, whatever is in `p` and `r`. -/
def short (p rest : String) : String := "/" ++ p ++ "/" ++ rest

/-- May a text be the first part of a name `/p/r`? -/
def IsFirstPart (p : String) : Prop := '/' ∉ p.toList ∧ '\n' ∉ p.toList

/-- May a text be the second part of a name `/p/r`? -/
def IsSecondPart (rest : String) : Prop := rest ≠ "" ∧ '\n' ∉ rest.toList

/-! ## Taking names apart -/

theorem short_eq_append (p rest : String) : short p rest = short p "" ++ rest := by
  simp [short]

theorem toList_short (p rest : String) :
    (short p rest).toList = '/' :: (p.toList ++ '/' :: rest.toList) := by
  simp [short, String.toList_append]

theorem isUri_short (p rest : String) : isUri words (short p rest) = false := by
  simp [isUri, toList_short, words.slash]

/-- A text with a slash is a part without slashes, a slash and the rest. -/
theorem exists_of_slash (h : '/' ∈ p.toList) :
    ∃ q p', '/' ∉ q.toList ∧ p = q ++ "/" ++ p' := by
  obtain ⟨before, after, hp, first⟩ := List.eq_append_cons_of_mem h
  refine ⟨String.ofList before, String.ofList after, by simpa using first, ?_⟩
  rw [← String.toList_inj, hp]
  simp [String.toList_append]

/-- A slash further back belongs to the second part. -/
theorem short_slash (q p' rest : String) :
    short (q ++ "/" ++ p') rest = short q (p' ++ "/" ++ rest) := by
  simp only [short, String.append_assoc]

/-- A name is taken apart at the slash after the first part, if there is none within that. -/
theorem split?_short (hp : '/' ∉ p.toList) :
    split? (short p rest) =
      if rest = "" ∨ '\n' ∈ p.toList ∨ '\n' ∈ rest.toList then none else some (p, rest) := by
  have before : ∀ c ∈ p.toList, (c != '/') = true := by
    intro c hc
    simpa using fun he : c = '/' => hp (he ▸ hc)
  simp only [split?, toList_short, List.dropWhile_append_of_pos before,
    List.takeWhile_append_of_pos before]
  simp [String.ofList_toList]

theorem exists_short_of_split? {parts : String × String} (h : split? name = some parts) :
    ∃ p rest, '/' ∉ p.toList ∧ name = short p rest := by
  unfold split? at h
  split at h
  · next cs hn =>
    have slash : '/' ∈ cs := by
      by_contra absent
      have hd : cs.dropWhile (· != '/') = [] := by
        refine List.dropWhile_eq_nil_iff.2 fun c hc => ?_
        simpa using fun he : c = '/' => absent (he ▸ hc)
      rw [hd] at h
      cases h
    obtain ⟨before, after, rfl, first⟩ := List.eq_append_cons_of_mem slash
    refine ⟨String.ofList before, String.ofList after, by simpa using first, ?_⟩
    rw [← String.toList_inj, toList_short, hn, String.toList_ofList, String.toList_ofList]
  · cases h

theorem split?_eq_some_iff :
    split? name = some (p, rest) ↔ name = short p rest ∧ IsFirstPart p ∧ IsSecondPart rest := by
  refine ⟨fun h => ?_, fun h => ?_⟩
  · obtain ⟨q, r, hq, rfl⟩ := exists_short_of_split? h
    rw [split?_short hq] at h
    split at h
    · cases h
    · next hr =>
      cases h
      simp only [not_or] at hr
      exact ⟨rfl, ⟨hq, hr.2.1⟩, hr.1, hr.2.2⟩
  · obtain ⟨rfl, hp, hr⟩ := h
    rw [split?_short hp.1, if_neg]
    simp only [not_or]
    exact ⟨hr.1, hp.2, hr.2⟩

/-- A name stands for itself, or for what a prefix stands for with the second part after it. -/
theorem expand_ok_iff :
    expand words prefixes name = .ok uri ↔
      (isUri words name ∧ uri = name) ∨
        ∃ p rest base, name = short p rest ∧ IsFirstPart p ∧ IsSecondPart rest ∧
          prefixes.get? p = some base ∧ uri = base ++ rest := by
  unfold expand
  split
  · next h =>
    refine ⟨fun he => ?_, fun he => ?_⟩
    · cases he
      exact .inl ⟨h, rfl⟩
    · rcases he with ⟨_, rfl⟩ | ⟨p, rest, _, rfl, _⟩
      · rfl
      · rw [isUri_short] at h
        cases h
  next h =>
  refine ⟨fun he => .inr ?_, fun he => ?_⟩
  · split at he
    · cases he
    next p rest hs =>
    split at he
    · cases he
    next base hb =>
    cases he
    obtain ⟨hn, hp, hr⟩ := split?_eq_some_iff.1 hs
    exact ⟨p, rest, base, hn, hp, hr, hb, rfl⟩
  · obtain ⟨h', _⟩ | ⟨p, rest, base, hn, hp, hr, hb, rfl⟩ := he
    · exact absurd h' h
    · rw [split?_eq_some_iff.2 ⟨hn, hp, hr⟩]
      dsimp only
      rw [hb]

theorem expand_short_ok_iff (hp : '/' ∉ p.toList) :
    expand words prefixes (short p rest) = .ok uri ↔
      IsFirstPart p ∧ IsSecondPart rest ∧ ∃ base, prefixes.get? p = some base ∧
        uri = base ++ rest := by
  rw [expand_ok_iff, isUri_short]
  refine ⟨fun h => ?_, fun h => ?_⟩
  · obtain ⟨h, _⟩ | ⟨p', rest', base, hs, hp', hr', hb, hu⟩ := h
    · cases h
    · have same := split?_eq_some_iff.2 ⟨hs, hp', hr'⟩
      rw [split?_short hp] at same
      split at same
      · cases same
      · cases same
        exact ⟨hp', hr', base, hb, hu⟩
  · obtain ⟨hp, hr, base, hb, hu⟩ := h
    exact .inr ⟨p, rest, base, rfl, hp, hr, hb, hu⟩

/-- A name that stands for nothing is of neither form, or its prefix is not known. -/
theorem expand_error {e : SchemaError} (h : expand words prefixes name = .error e) :
    e = .badTypeName name ∨ ∃ p, e = .unknownPrefix p name := by
  unfold expand at h
  split at h
  · cases h
  split at h
  · cases h
    exact .inl rfl
  next p rest _ =>
  split at h
  · cases h
    exact .inr ⟨p, rfl⟩
  · cases h

/-- Whether a name with a slash in its first part stands for what is said of that part does
not depend on the second. -/
theorem expand_slash_ok_iff {p' base : String} (hq : '/' ∉ q.toList) (hr : IsSecondPart rest) :
    expand words prefixes (short (q ++ "/" ++ p') rest) = .ok (base ++ rest) ↔
      IsFirstPart q ∧ '\n' ∉ p'.toList ∧ ∃ base', prefixes.get? q = some base' ∧
        base = base' ++ p' ++ "/" := by
  have second : IsSecondPart (p' ++ "/" ++ rest) ↔ '\n' ∉ p'.toList := by
    simp [IsSecondPart, String.toList_append, hr.2]
  have same (base' : String) : base ++ rest = base' ++ (p' ++ "/" ++ rest) ↔
      base = base' ++ p' ++ "/" := by
    have whole : base' ++ (p' ++ "/" ++ rest) = base' ++ p' ++ "/" ++ rest := by
      simp only [String.append_assoc]
    rw [whole, String.append_left_inj]
  rw [short_slash, expand_short_ok_iff hq, second]
  simp only [same]

/-- Which names stand for themselves. -/
theorem expand_self_iff :
    expand words prefixes name = .ok name ↔ isUri words name ∨
      ∃ p rest, name = short p rest ∧ IsFirstPart p ∧ IsSecondPart rest ∧
        prefixes.get? p = some (short p "") := by
  have self (base p rest : String) : short p rest = base ++ rest ↔ base = short p "" := by
    rw [eq_comm, short_eq_append, String.append_left_inj]
  rw [expand_ok_iff]
  refine or_congr (and_iff_left rfl) ⟨fun h => ?_, fun h => ?_⟩
  · obtain ⟨p, rest, base, rfl, hp, hr, hb, hu⟩ := h
    rw [self] at hu
    exact ⟨p, rest, rfl, hp, hr, hu ▸ hb⟩
  · obtain ⟨p, rest, rfl, hp, hr, hb⟩ := h
    exact ⟨p, rest, _, rfl, hp, hr, hb, short_eq_append p rest⟩

end TypeName

end Conform
