/-
Setting up a registry, step by step. A step may be refused, and then the
registry stays as it was; a step that goes through adds one entry under a key
that was free (`Step.run_ok_iff`).

The registries that can be reached are those to start from, those built from a
configuration, and those after any further steps, refused ones included. Only
steps lead to the registry of a configuration, too (`Config.run_steps_of_build`).
-/
import Conform.Registry.Config

namespace Conform

/-- A step of setting up a registry. -/
inductive Step where
  | addPrefix (name base : String)
  | register (k : Kind)
  | learn (uri : String) (schema : Value)

namespace Step

def run (s : Step) (r : Registry) : Logged Registry :=
  match s with
  | addPrefix name base => r.addPrefix name base
  | register k => r.register k
  | learn uri schema => r.learn uri schema

/-- The registry after a step, which is the same if the step is refused. -/
def after (s : Step) (r : Registry) : Registry :=
  match (s.run r).result with
  | .ok r' => r'
  | .error _ => r

/-- What a step that goes through has found, and what it has changed. -/
inductive Changes : Step → Registry → Registry → Prop
  | addPrefix {r : Registry} {name base : String} (free : r.base? name = none) :
      Changes (.addPrefix name base) r { r with prefixes := r.prefixes.insert name base }
  | register {r : Registry} {k : Kind} (free : r.entry? k.uri = none) :
      Changes (.register k) r { r with types := (k.uri, .kind k) :: r.types }
  | learn {r : Registry} {uri : String} {schema : Value} {n : Node} (free : r.entry? uri = none)
      (compiles : (r.compile schema).result = .ok n) :
      Changes (.learn uri schema) r { r with types := (uri, .learned schema) :: r.types }

theorem prefix_free_iff {r : Registry} {name : String} :
    ¬ r.prefixes.contains name = true ↔ r.base? name = none := by
  rw [Table.From.contains, Registry.base?, Option.not_isSome_iff_eq_none]

theorem type_free_iff {r : Registry} {uri : String} :
    ¬ r.hasType uri = true ↔ r.entry? uri = none := by
  rw [Registry.hasType, Option.not_isSome_iff_eq_none]

theorem addPrefix_ok_iff {r r' : Registry} {name base : String} :
    (r.addPrefix name base).result = .ok r' ↔ (Step.addPrefix name base).Changes r r' := by
  simp only [Registry.addPrefix, Logged.ite_fail_ok_iff, prefix_free_iff, Logged.bind_ok_iff,
    Logged.log_result, Logged.pure_result, Except.ok.injEq]
  refine ⟨fun h => ?_, fun h => ?_⟩
  · obtain ⟨free, _, _, rfl⟩ := h
    exact .addPrefix free
  · cases h with
    | addPrefix free => exact ⟨free, (), trivial, rfl⟩

theorem register_ok_iff {r r' : Registry} {k : Kind} :
    (r.register k).result = .ok r' ↔ (Step.register k).Changes r r' := by
  simp only [Registry.register, Logged.ite_fail_ok_iff, type_free_iff, Logged.bind_ok_iff,
    Logged.log_result, Logged.pure_result, Except.ok.injEq]
  refine ⟨fun h => ?_, fun h => ?_⟩
  · obtain ⟨free, _, _, rfl⟩ := h
    exact .register free
  · cases h with
    | register free => exact ⟨free, (), trivial, rfl⟩

theorem learn_ok_iff {r r' : Registry} {uri : String} {schema : Value} :
    (r.learn uri schema).result = .ok r' ↔ (Step.learn uri schema).Changes r r' := by
  simp only [Registry.learn, Logged.ite_fail_ok_iff, type_free_iff, Logged.bind_ok_iff,
    Logged.log_result, Logged.pure_result, Except.ok.injEq]
  refine ⟨fun h => ?_, fun h => ?_⟩
  · obtain ⟨free, n, compiles, _, _, rfl⟩ := h
    exact .learn free compiles
  · cases h with
    | learn free compiles => exact ⟨free, _, compiles, (), trivial, rfl⟩

/-- A step goes through if its key is free and a schema to be learned compiles. -/
theorem run_ok_iff {s : Step} {r r' : Registry} :
    (s.run r).result = .ok r' ↔ s.Changes r r' := by
  cases s with
  | addPrefix name base => exact addPrefix_ok_iff
  | register k => exact register_ok_iff
  | learn uri schema => exact learn_ok_iff

/-- A step is refused, or it changes the registry. -/
theorem after_cases (s : Step) (r : Registry) : s.after r = r ∨ s.Changes r (s.after r) := by
  unfold after
  split
  · next r' h => exact .inr (run_ok_iff.1 h)
  · exact .inl rfl

theorem after_of_ok {s : Step} {r r' : Registry} (h : (s.run r).result = .ok r') :
    s.after r = r' := by
  rw [after, h]

theorem after_of_error {s : Step} {r : Registry} {e : SchemaError}
    (h : (s.run r).result = .error e) : s.after r = r := by
  rw [after, h]

end Step

/-! ## Runs of steps -/

namespace Registry

def run (r : Registry) (steps : List Step) : Registry := steps.foldl (fun r s => s.after r) r

/-- The registries that can be set up. -/
inductive Reachable : Registry → Prop
  | core : Reachable core
  | bare : Reachable bare
  | built {c : Config} {r : Registry} (h : c.build.result = .ok r) : Reachable r
  | step {r : Registry} (s : Step) (h : Reachable r) : Reachable (s.after r)

/-- What a step keeps is kept by a run of steps. -/
theorem run_keeps {P : Registry → Prop} (step : ∀ s r, P r → P (Step.after s r)) {r : Registry}
    (h : P r) (steps : List Step) : P (r.run steps) := by
  induction steps generalizing r with
  | nil => exact h
  | cons s steps ih => exact ih (step s r h)

theorem Reachable.run {r : Registry} (h : r.Reachable) (steps : List Step) :
    (r.run steps).Reachable :=
  run_keeps (fun s _ => .step s) h steps

end Registry

namespace Config

/-- The steps that a configuration asks for. -/
def steps (c : Config) : List Step :=
  c.prefixes.toList.map (fun p => .addPrefix p.1 p.2) ++
    c.types.map fun t => .learn t.uri t.schema

/-- Entries applied one after another, if none is refused, are a run of their steps. -/
theorem run_of_foldlM {α : Type} {f : Registry → α → Logged Registry} (step : α → Step)
    (hf : ∀ r a r', (f r a).result = .ok r' → ((step a).run r).result = .ok r') {l : List α}
    {r r' : Registry} (h : (l.foldlM f r).result = .ok r') : r.run (l.map step) = r' := by
  induction l generalizing r with
  | nil =>
    simp only [List.foldlM_nil, Logged.pure_result, Except.ok.injEq] at h
    exact h
  | cons a l ih =>
    simp only [List.foldlM_cons, Logged.bind_ok_iff] at h
    obtain ⟨r₁, h₁, h₂⟩ := h
    rw [← ih h₂, ← Step.after_of_ok (hf r a r₁ h₁)]
    rfl

/-- A configuration that can be applied builds what its steps build. -/
theorem run_steps_of_build {c : Config} {r : Registry} (h : c.build.result = .ok r) :
    c.start.run c.steps = r := by
  simp only [build, Logged.bind_ok_iff, Logged.pure_result, Except.ok.injEq] at h
  obtain ⟨r₁, h₁, r₂, h₂, _, _, rfl⟩ := h
  have hp := run_of_foldlM (fun p : String × String => .addPrefix p.1 p.2)
    (fun _ _ _ h => Logged.mapError_ok_iff.1 h) h₁
  have ht := run_of_foldlM (fun t : LearnedType => .learn t.uri t.schema)
    (fun _ _ _ h => Logged.mapError_ok_iff.1 h) h₂
  rw [steps, Registry.run, List.foldl_append]
  rw [Registry.run] at hp ht
  rw [hp, ht]

end Config

/-- A property that the registries to start from have, and that steps keep, is had by
every registry that can be reached. -/
theorem Registry.Reachable.invariant {P : Registry → Prop} (core : P Registry.core)
    (bare : P Registry.bare)
    (step : ∀ s r, P r → P (Step.after s r)) {r : Registry} (h : r.Reachable) : P r := by
  induction h with
  | core => exact core
  | bare => exact bare
  | @built c r h =>
    have hs : P c.start := by
      unfold Config.start
      split
      · exact core
      · exact bare
    exact Config.run_steps_of_build h ▸ run_keeps step hs c.steps
  | step s _ ih => exact step s _ ih

end Conform
