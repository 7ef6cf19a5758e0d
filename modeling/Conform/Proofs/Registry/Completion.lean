/-
Runs without a refusal. Of any list of steps either all go through, one after the
other, or there is a first one that is refused (`Registry.completes_or_stops`).

Building a registry from a configuration is to take its steps until one is
refused. So what is built, and what the error says, is read off those two cases
(`Config.build_ok_iff`, `Config.build_error_iff`).
-/
import Conform.Proofs.Registry.Key

namespace Conform

namespace Registry

variable {r r₁ r₂ : Registry} {s : Step} {steps steps' : List Step}

/-- All steps go through, one after the other. -/
inductive Completes : Registry → List Step → Registry → Prop
  | nil {r : Registry} : Completes r [] r
  | cons {r r₁ r₂ : Registry} {s : Step} {steps : List Step} (head : (s.run r).result = .ok r₁)
      (tail : Completes r₁ steps r₂) : Completes r (s :: steps) r₂

theorem completes_nil_iff : r.Completes [] r₂ ↔ r₂ = r := by
  refine ⟨fun h => ?_, fun h => h ▸ .nil⟩
  cases h with
  | nil => rfl

theorem completes_cons_iff :
    r.Completes (s :: steps) r₂ ↔ ∃ r₁, (s.run r).result = .ok r₁ ∧ r₁.Completes steps r₂ := by
  refine ⟨fun h => ?_, fun h => ?_⟩
  · cases h with
    | cons head tail => exact ⟨_, head, tail⟩
  · obtain ⟨_, head, tail⟩ := h
    exact .cons head tail

theorem completes_append_iff :
    r.Completes (steps ++ steps') r₂ ↔
      ∃ r₁, r.Completes steps r₁ ∧ r₁.Completes steps' r₂ := by
  induction steps generalizing r with
  | nil => simp only [List.nil_append, completes_nil_iff, exists_eq_left]
  | cons s steps ih =>
    simp only [List.cons_append, completes_cons_iff, ih]
    refine ⟨fun h => ?_, fun h => ?_⟩
    · obtain ⟨r', head, r₁, tail, h⟩ := h
      exact ⟨r₁, ⟨r', head, tail⟩, h⟩
    · obtain ⟨r₁, ⟨r', head, tail⟩, h⟩ := h
      exact ⟨r', head, r₁, tail, h⟩

/-- All steps go through, or some do until one is refused. -/
theorem completes_or_stops (r : Registry) (steps : List Step) :
    (∃ r', r.Completes steps r') ∨
      ∃ done s rest r' source, steps = done ++ s :: rest ∧ r.Completes done r' ∧
        (s.run r').result = .error source := by
  induction steps generalizing r with
  | nil => exact .inl ⟨r, .nil⟩
  | cons s steps ih =>
    cases hs : (s.run r).result with
    | error source => exact .inr ⟨[], s, steps, r, source, rfl, .nil, hs⟩
    | ok r₁ =>
      rcases ih r₁ with ⟨r', h⟩ | ⟨done, t, rest, r', source, rfl, h, ht⟩
      · exact .inl ⟨r', .cons hs h⟩
      · exact .inr ⟨s :: done, t, rest, r', source, rfl, .cons hs h, ht⟩

end Registry

namespace Config

variable {c : Config} {r r' : Registry} {steps : List Step}

/-- Takes a step for an entry of a configuration, which is named if the step is refused. -/
def apply (r : Registry) (s : Step) : Logged Registry := (s.run r).mapError (.config s.key)

theorem apply_ok_iff {s : Step} : (apply r s).result = .ok r' ↔ (s.run r).result = .ok r' :=
  Logged.mapError_ok_iff

theorem apply_of_error {s : Step} {source : SchemaError} (h : (s.run r).result = .error source) :
    (apply r s).result = .error (.config s.key source) := by
  rw [apply, Logged.mapError, h]
  rfl

/-- A configuration is applied step by step. -/
theorem build_eq (c : Config) :
    c.build = c.steps.foldlM apply c.start >>= fun r =>
      Logged.log (.built c.prefixes.size c.types.length c.loadCore) >>= fun _ => pure r := by
  simp only [steps, List.foldlM_append, List.foldlM_map, bind_assoc]
  rfl

theorem foldlM_apply_of_completes (h : r.Completes steps r') :
    (steps.foldlM apply r).result = .ok r' := by
  induction h with
  | nil => rfl
  | cons head _ ih => rw [List.foldlM_cons, Logged.bind_of_ok (apply_ok_iff.2 head)]; exact ih

theorem foldlM_apply_of_stops {done : List Step} {s : Step} {source : SchemaError}
    (h : r.Completes done r') (hs : (s.run r').result = .error source) (rest : List Step) :
    ((done ++ s :: rest).foldlM apply r).result = .error (.config s.key source) := by
  rw [List.foldlM_append, Logged.bind_of_ok (foldlM_apply_of_completes h), List.foldlM_cons,
    Logged.bind_of_error (apply_of_error hs)]

theorem build_result_eq (c : Config) : c.build.result = (c.steps.foldlM apply c.start).result := by
  rw [build_eq]
  cases h : (c.steps.foldlM apply c.start).result with
  | ok r => rw [Logged.bind_of_ok h]; rfl
  | error e => rw [Logged.bind_of_error h]

/-- A configuration that can be applied is a run of its steps without a refusal. -/
theorem build_ok_iff : c.build.result = .ok r ↔ c.start.Completes c.steps r := by
  rw [build_result_eq]
  refine ⟨fun h => ?_, foldlM_apply_of_completes⟩
  rcases Registry.completes_or_stops c.start c.steps with
    ⟨r', hr⟩ | ⟨done, s, rest, r', source, hc, hd, hs⟩
  · cases h.symm.trans (foldlM_apply_of_completes hr)
    exact hr
  · rw [hc] at h
    cases h.symm.trans (foldlM_apply_of_stops hd hs rest)

/-- A configuration that cannot be applied has a first step that is refused, and that is the
one which the error names. -/
theorem build_error_iff {e : SchemaError} :
    c.build.result = .error e ↔
      ∃ done s rest r' source, c.steps = done ++ s :: rest ∧ c.start.Completes done r' ∧
        (s.run r').result = .error source ∧ e = .config s.key source := by
  rw [build_result_eq]
  refine ⟨fun h => ?_, fun h => ?_⟩
  · rcases Registry.completes_or_stops c.start c.steps with
      ⟨r', hr⟩ | ⟨done, s, rest, r', source, hc, hd, hs⟩
    · cases h.symm.trans (foldlM_apply_of_completes hr)
    · rw [hc] at h
      cases h.symm.trans (foldlM_apply_of_stops hd hs rest)
      exact ⟨done, s, rest, r', source, hc, hd, hs, rfl⟩
  · obtain ⟨done, s, rest, r', source, hc, hd, hs, rfl⟩ := h
    exact hc ▸ foldlM_apply_of_stops hd hs rest

end Config

end Conform
