/-
What names expand to, by their form. A name that begins with a word and a colon
stands for itself; a name `/p/r` stands for what the prefix `p` stands for, with
`r` behind it; no other name stands for anything (`TypeName.Expansion`). A name
has at most one of the two forms, and it can be taken apart in one way only.

To take a name apart at its first slash is the same as to match the pattern
`/p/r` with as little as possible for `p` (`TypeName.shortestMatch_iff`): the
other ways to match it are those in which slashes are left to `p`.
-/
import Conform.Proofs.Schema.TypeName
import Conform.Registry.Basic
import Mathlib.Data.List.Basic

namespace Conform

namespace TypeName

section

variable (words : Text.WordClass)

/-- A text is a word: a run of word characters, and not an empty one. -/
def IsWord (word : String) : Prop := word ≠ "" ∧ ∀ c ∈ word.toList, words.contains c = true

/-- The name begins with a word and a colon. What follows may be anything. -/
def IsFull (name : String) : Prop := ∃ word rest, IsWord words word ∧ name = word ++ ":" ++ rest

/-- The name is short for another, as `/p/r`. -/
def IsShort (name : String) : Prop :=
  ∃ p rest, name = short p rest ∧ IsFirstPart p ∧ IsSecondPart rest

/-- What a name stands for, where it is known what prefixes stand for. -/
inductive Expansion (base? : String → Option String) : String → Except SchemaError String → Prop
  | full {name : String} (h : IsFull words name) : Expansion base? name (.ok name)
  | short {p rest base : String} (hp : IsFirstPart p) (hr : IsSecondPart rest)
      (known : base? p = some base) : Expansion base? (short p rest) (.ok (base ++ rest))
  | unknown {p rest : String} (hp : IsFirstPart p) (hr : IsSecondPart rest)
      (unknown : base? p = none) :
      Expansion base? (short p rest) (.error (.unknownPrefix p (short p rest)))
  | neither {name : String} (h : ¬ IsFull words name) (h' : ¬ IsShort name) :
      Expansion base? name (.error (.badTypeName name))

end

variable {words : Text.WordClass} {name word p p' rest rest' base : String}

/-! ## The first form -/

theorem isUri_iff : isUri words name = true ↔ IsFull words name := by
  simp only [isUri, Bool.and_eq_true, Bool.not_eq_true', List.isEmpty_eq_false_iff, beq_iff_eq]
  constructor
  · rintro ⟨ne, colon⟩
    obtain ⟨rest, hrest⟩ := List.head?_eq_some_iff.1 colon
    refine ⟨String.ofList (name.toList.takeWhile words.contains), String.ofList rest, ⟨?_, ?_⟩, ?_⟩
    · intro empty
      exact ne (by simpa using congrArg String.toList empty)
    · intro c hc
      rw [String.toList_ofList] at hc
      exact List.mem_takeWhile_imp hc
    · have whole : (String.ofList (name.toList.takeWhile words.contains) ++ ":" ++
          String.ofList rest).toList = name.toList.takeWhile words.contains ++ ':' :: rest := by
        simp [String.toList_append]
      rw [← String.toList_inj, whole, ← hrest, List.takeWhile_append_dropWhile]
  · rintro ⟨word, rest, ⟨ne, isWord⟩, rfl⟩
    have whole : (word ++ ":" ++ rest).toList = word.toList ++ ':' :: rest.toList := by
      simp [String.toList_append]
    rw [whole, List.takeWhile_append_of_pos isWord, List.dropWhile_append_of_pos isWord]
    simp [words.colon, ne]

/-! ## The second form -/

theorem not_isFull_of_isShort (h : IsShort name) : ¬ IsFull words name := by
  obtain ⟨p, rest, rfl, -, -⟩ := h
  rw [← isUri_iff, isUri_short]
  exact Bool.false_ne_true

theorem split?_eq_none_iff : split? name = none ↔ ¬ IsShort name := by
  rw [Option.eq_none_iff_forall_ne_some, IsShort]
  simp only [← split?_eq_some_iff, Prod.forall, not_exists, ne_eq]

/-- The first part ends at the first slash behind the leading one. -/
theorem short_injective (hp : '/' ∉ p.toList) (hp' : '/' ∉ p'.toList)
    (same : short p rest = short p' rest') : p = p' ∧ rest = rest' := by
  rw [← String.toList_inj, toList_short, toList_short, List.cons.injEq] at same
  have parts := same.2
  have first : p.toList = p'.toList := by
    have before {q : String} (hq : '/' ∉ q.toList) : ∀ c ∈ q.toList, (c != '/') = true :=
      fun c hc => by simpa using fun he : c = '/' => hq (he ▸ hc)
    have taken := congrArg (List.takeWhile (· != '/')) parts
    rw [List.takeWhile_append_of_pos (before hp),
      List.takeWhile_append_of_pos (before hp')] at taken
    simpa using taken
  rw [first, List.append_cancel_left_eq, List.cons.injEq] at parts
  exact ⟨String.toList_inj.1 first, String.toList_inj.1 parts.2⟩

/-- A name can be read as `/p/r`, where slashes may be in either part. -/
def Matches (name p rest : String) : Prop :=
  name = short p rest ∧ '\n' ∉ p.toList ∧ IsSecondPart rest

/-- Of all ways to read a name as `/p/r`, the one with the shortest `p`. -/
def ShortestMatch (name p rest : String) : Prop :=
  Matches name p rest ∧
    ∀ p' rest', Matches name p' rest' → p.toList.length ≤ p'.toList.length

/-- A slash in the first part may as well be left to the second. -/
theorem Matches.of_slash {q p' : String} (h : Matches name (q ++ "/" ++ p') rest) :
    Matches name q (p' ++ "/" ++ rest) := by
  obtain ⟨rfl, line, ne, line'⟩ := h
  simp only [String.toList_append, List.mem_append, not_or] at line
  refine ⟨short_slash q p' rest, line.1.1, ?_, ?_⟩
  · simp
  · simp [String.toList_append, line.2, line']

theorem shortestMatch_iff :
    ShortestMatch name p rest ↔ name = short p rest ∧ IsFirstPart p ∧ IsSecondPart rest := by
  constructor
  · rintro ⟨⟨hn, line, hr⟩, shortest⟩
    refine ⟨hn, ⟨fun slash => ?_, line⟩, hr⟩
    obtain ⟨q, p', -, rfl⟩ := exists_of_slash slash
    have shorter := shortest q _ (Matches.of_slash ⟨hn, line, hr⟩)
    simp only [String.toList_append, List.length_append] at shorter
    have one : ("/" : String).toList.length = 1 := rfl
    omega
  · rintro ⟨rfl, hp, hr⟩
    refine ⟨⟨rfl, hp.2, hr⟩, fun p' rest' h => ?_⟩
    by_cases slash : '/' ∈ p'.toList
    · obtain ⟨q, p'', hq, rfl⟩ := exists_of_slash slash
      obtain ⟨rfl, -⟩ := short_injective hp.1 hq h.of_slash.1
      simp only [String.toList_append, List.length_append]
      omega
    · obtain ⟨rfl, -⟩ := short_injective hp.1 slash h.1
      exact Nat.le_refl _

/-! ## Expanding -/

theorem Expansion.expand_eq {prefixes : Table String} {x : Except SchemaError String}
    (h : Expansion words prefixes.get? name x) : expand words prefixes name = x := by
  cases h with
  | full h => rw [expand, if_pos (isUri_iff.2 h)]
  | short hp hr known =>
    simp only [expand, isUri_short, split?_eq_some_iff.2 ⟨rfl, hp, hr⟩, known]
    rfl
  | unknown hp hr unknown =>
    simp only [expand, isUri_short, split?_eq_some_iff.2 ⟨rfl, hp, hr⟩, unknown]
    rfl
  | neither h h' =>
    simp only [expand, if_neg (mt isUri_iff.1 h), split?_eq_none_iff.2 h']

/-- Every name stands for something or for nothing, by one of the rules. -/
theorem exists_expansion (words : Text.WordClass) (base? : String → Option String) (name : String) :
    ∃ x, Expansion words base? name x := by
  by_cases full : IsFull words name
  · exact ⟨_, .full full⟩
  by_cases isShort : IsShort name
  · obtain ⟨p, rest, rfl, hp, hr⟩ := isShort
    cases hb : base? p with
    | none => exact ⟨_, .unknown hp hr hb⟩
    | some base => exact ⟨_, .short hp hr hb⟩
  · exact ⟨_, .neither full isShort⟩

theorem expand_eq_iff {prefixes : Table String} {x : Except SchemaError String} :
    expand words prefixes name = x ↔ Expansion words prefixes.get? name x := by
  refine ⟨?_, Expansion.expand_eq⟩
  rintro rfl
  obtain ⟨x, h⟩ := exists_expansion words prefixes.get? name
  rwa [h.expand_eq]

/-- With nothing behind the second slash a name has neither form. -/
theorem not_isShort_of_empty (hp : '/' ∉ p.toList) : ¬ IsShort (short p "") := by
  rintro ⟨q, rest, same, hq, hr⟩
  exact hr.1 (short_injective hp hq.1 same).2.symm

theorem IsFull.append (h : IsFull words base) (rest : String) : IsFull words (base ++ rest) := by
  obtain ⟨word, rest', hw, rfl⟩ := h
  exact ⟨word, rest' ++ rest, hw, by simp only [String.append_assoc]⟩

end TypeName

open Conform.TypeName in
/-- Names are expanded by their form, of whatever characters words are made; in a registry, of those
of Unicode. The two forms exclude each other, and a name of the second is taken apart in one way,
which is that of the shortest first part. A name with nothing behind the second slash has no form.
What a name is short for stands for itself, if its base begins with a word and a colon. -/
theorem Registry.expand_by_form (r : Registry) :
    (∀ name x, r.expand name = x ↔ Expansion .unicode r.base? name x) ∧
    ∀ words : Text.WordClass,
      (∀ name x, TypeName.expand words r.prefixes name = x ↔ Expansion words r.base? name x) ∧
      (∀ name, ¬ (IsFull words name ∧ IsShort name)) ∧
      (∀ p rest p' rest', IsFirstPart p → IsFirstPart p' → short p rest = short p' rest' →
        p = p' ∧ rest = rest') ∧
      (∀ name p rest, ShortestMatch name p rest ↔
        name = short p rest ∧ IsFirstPart p ∧ IsSecondPart rest) ∧
      (∀ p, '/' ∉ p.toList →
        TypeName.expand words r.prefixes (short p "") = .error (.badTypeName (short p ""))) ∧
      ∀ p rest base, IsFirstPart p → IsSecondPart rest → r.base? p = some base →
        IsFull words base →
        TypeName.expand words r.prefixes (short p rest) = .ok (base ++ rest) ∧
          TypeName.expand words r.prefixes (base ++ rest) = .ok (base ++ rest) := by
  refine ⟨fun name x => expand_eq_iff, fun words => ⟨fun name x => expand_eq_iff,
    fun name both => not_isFull_of_isShort both.2 both.1,
    fun p rest p' rest' hp hp' => short_injective hp.1 hp'.1,
    fun name p rest => shortestMatch_iff, fun p hp => ?_, fun p rest base hp hr known full => ?_⟩⟩
  · refine expand_eq_iff.2 (.neither ?_ (not_isShort_of_empty hp))
    rw [← isUri_iff, isUri_short]
    exact Bool.false_ne_true
  · exact ⟨expand_eq_iff.2 (.short hp hr known), expand_eq_iff.2 (.full (full.append rest))⟩

end Conform
