/-
Where a value is rejected: some nodes deep inside a node, each of which has put
its segment in front of the path, and there at a node as a whole or at a field
of a record. The path says which of these it was, and how deep: no two locations
have one path (`Location.path_injective`).
-/
import Conform.Check.Checker

namespace Conform

/-- The kinds that put their segment in front of the path of a part that has rejected. -/
inductive Container where
  | all
  | array
  | map
  | sequence
  deriving DecidableEq

def Container.kind : Container → CoreKind
  | all => .all
  | array => .array
  | map => .map
  | sequence => .sequence

/-- Where a value is rejected. -/
inductive Location where
  /-- By a node of the kind, for the value as a whole. -/
  | own (k : CoreKind)
  /-- By a record, for a field of it. -/
  | field (name : String)
  /-- By a part of a node, at some location there. -/
  | inside (c : Container) (l : Location)
  deriving DecidableEq

namespace Location

def path : Location → String
  | own k => k.path
  | field name => Checker.fieldPath name
  | inside c l => c.kind.path ++ l.path

/-! ## Segments -/

theorem toList_path (k : CoreKind) : k.path.toList = '/' :: k.name.toList := by
  rw [CoreKind.path, String.toList_append]
  rfl

theorem toList_fieldPath (name : String) :
    (Checker.fieldPath name).toList =
      '/' :: 'r' :: 'e' :: 'c' :: ':' :: '\'' :: (name.toList ++ ['\'']) := by
  simp only [Checker.fieldPath, Text.mention, String.toList_append, List.append_assoc]
  rfl

theorem not_mem_name (k : CoreKind) : '/' ∉ k.name.toList ∧ ':' ∉ k.name.toList := by
  cases k <;> decide

theorem name_injective {k k' : CoreKind} (h : k.name = k'.name) : k = k' := by
  revert h
  cases k <;> cases k' <;> decide

theorem kind_injective {c c' : Container} (h : c.kind = c'.kind) : c = c' := by
  revert h
  cases c <;> cases c' <;> decide

theorem length_name (c : Container) : c.kind.name.toList.length = 3 := by
  cases c <;> rfl

theorem toList_inside (c : Container) (l : Location) :
    (inside c l).path.toList = '/' :: (c.kind.name.toList ++ l.path.toList) := by
  rw [path, String.toList_append, toList_path]
  rfl

theorem exists_toList_path (l : Location) : ∃ cs, l.path.toList = '/' :: cs := by
  cases l with
  | own k => exact ⟨_, toList_path k⟩
  | field name => exact ⟨_, toList_fieldPath name⟩
  | inside c l => exact ⟨_, toList_inside c l⟩

/-! ## The parts of a path -/

theorem own_ne_field {k : CoreKind} {name : String} : (own k).path ≠ (field name).path := by
  intro h
  have h := congrArg String.toList h
  rw [path, path, toList_path, toList_fieldPath] at h
  have colon : ':' ∈ k.name.toList := by
    rw [List.tail_eq_of_cons_eq h]
    simp
  exact (not_mem_name k).2 colon

theorem own_ne_inside {k : CoreKind} {c : Container} {l : Location} :
    (own k).path ≠ (inside c l).path := by
  intro h
  have h := congrArg String.toList h
  obtain ⟨cs, hl⟩ := exists_toList_path l
  rw [toList_inside, hl, path, toList_path] at h
  have slash : '/' ∈ k.name.toList := by
    rw [List.tail_eq_of_cons_eq h]
    simp
  exact (not_mem_name k).1 slash

theorem field_ne_inside {name : String} {c : Container} {l : Location} :
    (field name).path ≠ (inside c l).path := by
  intro h
  have h := congrArg String.toList h
  rw [toList_inside, path, toList_fieldPath] at h
  cases c <;> cases h

/-- A path tells its location. -/
theorem path_injective {l l' : Location} (h : l.path = l'.path) : l = l' := by
  induction l generalizing l' with
  | own k =>
    cases l' with
    | own k' =>
      have h := congrArg String.toList h
      rw [path, path, toList_path, toList_path] at h
      rw [name_injective (String.toList_inj.1 (List.tail_eq_of_cons_eq h))]
    | field name => exact absurd h own_ne_field
    | inside c l => exact absurd h own_ne_inside
  | field name =>
    cases l' with
    | own k => exact absurd h.symm own_ne_field
    | field name' =>
      have h := congrArg String.toList h
      rw [path, path, toList_fieldPath, toList_fieldPath] at h
      simp only [List.cons.injEq, true_and, List.append_cancel_right_eq, String.toList_inj] at h
      rw [h]
    | inside c l => exact absurd h field_ne_inside
  | inside c l ih =>
    cases l' with
    | own k => exact absurd h.symm own_ne_inside
    | field name => exact absurd h.symm field_ne_inside
    | inside c' l' =>
      have h := congrArg String.toList h
      rw [toList_inside, toList_inside] at h
      have same := (length_name c).trans (length_name c').symm
      obtain ⟨hc, hl⟩ := List.append_inj (List.tail_eq_of_cons_eq h) same
      rw [kind_injective (name_injective (String.toList_inj.1 hc)), ih (String.toList_inj.1 hl)]

end Location

end Conform
