/-
What stands inside a schema. A kind takes parameters of certain names, and what
is expected in a parameter has a shape: a schema, a sequence of schemas, a map
from fields to schemas, or data in which nobody looks for schemas. So the kind
tells which schemas stand directly inside a schema, and in which order they are
compiled (`CoreKind.inner`).
-/
import Mathlib.Data.List.Nodup
import Conform.Registry.Compile

namespace Conform

/-- What is expected in a parameter. -/
inductive Shape where
  | schema
  /-- A sequence of schemas. -/
  | schemas
  /-- A map from fields to schemas. -/
  | fields
  /-- No schema at all. -/
  | data
  deriving DecidableEq

/-- The schemas in a value of a shape, in order. A value that has not the shape
has none. -/
def Shape.parts : Shape → Value → List Value
  | schema, v => [v]
  | schemas, .seq vs => vs
  | fields, .map declared => declared.toList.map Prod.snd
  | _, _ => []

/-- What is in a parameter is no deeper than the parameter. -/
theorem Shape.depth_le {s : Shape} {v part : Value} (h : part ∈ s.parts v) :
    part.depth ≤ v.depth := by
  unfold parts at h
  split at h
  · exact Nat.le_of_eq (congrArg Value.depth (List.mem_singleton.1 h))
  · exact Nat.le_succ_of_le (Value.depth_le_depthOfItems h)
  · obtain ⟨⟨name, w⟩, hm, rfl⟩ := List.mem_map.1 h
    exact Nat.le_succ_of_le (Value.depth_le_depthOfMembers hm)
  · cases h

namespace CoreKind

/-- The parameters of a kind with their shapes. Schemas in parameters that come
first are compiled first. -/
def signature : CoreKind → List (String × Shape)
  | all | any => [("of", .schemas)]
  | array => [("contents", .schema), ("length", .data)]
  | map => [("values", .schema)]
  | integer | number => [("range", .data), ("value", .data)]
  | record => [("required", .fields), ("optional", .fields), ("rest", .schema)]
  | sequence => [("contents", .schemas), ("tail", .schema)]
  | string => [("value", .data), ("length", .data), ("regex", .data)]
  | boolean | date | defined | fail | nil | scalar | time => []

theorem ne_type_of_mem {k : CoreKind} {p : String} {s : Shape} (h : (p, s) ∈ k.signature) :
    p ≠ "type" := by
  intro he
  subst he
  cases k <;> simp [signature] at h

/-- A parameter has one shape. -/
theorem shape_unique {k : CoreKind} {p : String} {s s' : Shape} (h : (p, s) ∈ k.signature)
    (h' : (p, s') ∈ k.signature) : s = s' := by
  have once : (k.signature.map Prod.fst).Nodup := by
    cases k <;> decide
  exact congrArg Prod.snd (List.inj_on_of_nodup_map once h h' rfl)

/-- The schemas directly inside a schema of the kind, in order. -/
def inner (k : CoreKind) (members : Table Value) : List Value :=
  k.signature.flatMap fun p => (members.get? p.1).elim [] p.2.parts

theorem mem_inner_iff {k : CoreKind} {members : Table Value} {part : Value} :
    part ∈ k.inner members ↔
      ∃ p s v, (p, s) ∈ k.signature ∧ members.get? p = some v ∧ part ∈ s.parts v := by
  simp only [inner, List.mem_flatMap, Prod.exists]
  refine ⟨fun h => ?_, fun h => ?_⟩
  · obtain ⟨p, s, hp, h⟩ := h
    cases hv : members.get? p with
    | none => simp [hv] at h
    | some v => exact ⟨p, s, v, hp, hv, by simpa [hv] using h⟩
  · obtain ⟨p, s, v, hp, hv, h⟩ := h
    exact ⟨p, s, hp, by simpa [hv] using h⟩

theorem mem_inner_of_schema {k : CoreKind} {members : Table Value} {p : String} {part : Value}
    (hs : (p, .schema) ∈ k.signature) (hv : members.get? p = some part) :
    part ∈ k.inner members :=
  mem_inner_iff.2 ⟨p, .schema, part, hs, hv, List.mem_singleton_self part⟩

theorem mem_inner_of_schemas {k : CoreKind} {members : Table Value} {p : String} {part : Value}
    {parts : List Value} (hs : (p, .schemas) ∈ k.signature)
    (hv : members.get? p = some (.seq parts)) (h : part ∈ parts) : part ∈ k.inner members :=
  mem_inner_iff.2 ⟨p, .schemas, .seq parts, hs, hv, h⟩

end CoreKind

/-- The schemas directly inside a schema of the kind. A user's own kind has none. -/
def Kind.inner : Kind → Table Value → List Value
  | core k, members => k.inner members
  | custom _, _ => []

/-! ## Depth -/

/-- What is in a parameter of a schema is less deep than the schema. -/
theorem depth_lt_of_parameter {schema v : Value} {members : Table Value} {parameter : String}
    (hm : schemaMembers? schema = some members) (hp : parameter ≠ "type")
    (hv : members.get? parameter = some v) : v.depth < schema.depth := by
  cases schema with
  | string s =>
    simp only [schemaMembers?, Option.some.injEq] at hm
    subst hm
    rw [Table.get?_insert, if_neg hp] at hv
    cases hv
  | map ms =>
    simp only [schemaMembers?, Option.some.injEq] at hm
    subst hm
    exact Nat.lt_succ_of_le
      (Value.depth_le_depthOfMembers ((Table.From.get?_eq_some_iff _).1 hv))
  | _ => cases hm

/-- A schema inside another is less deep. -/
theorem depth_lt_of_mem_inner {k : Kind} {schema part : Value} {members : Table Value}
    (hm : schemaMembers? schema = some members) (h : part ∈ k.inner members) :
    part.depth < schema.depth := by
  cases k with
  | core k =>
    obtain ⟨p, s, v, hp, hv, hpart⟩ := CoreKind.mem_inner_iff.1 h
    exact Nat.lt_of_le_of_lt (Shape.depth_le hpart)
      (depth_lt_of_parameter hm (CoreKind.ne_type_of_mem hp) hv)
  | custom k => cases h

end Conform
