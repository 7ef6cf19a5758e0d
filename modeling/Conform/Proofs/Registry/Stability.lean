/-
Setting up further changes nothing that was settled. A later registry has every
entry of an earlier one, and a schema that compiled earlier compiles to the same
node later; one that failed fails for the same fault, unless a name was not yet
known to the earlier registry.
-/
import Conform.Proofs.Registry.Sound

namespace Conform

namespace Registry

/-- Every prefix and every type of a registry is in another one, unchanged. -/
structure Includes (r' r : Registry) : Prop where
  base : ∀ {name base}, r.base? name = some base → r'.base? name = some base
  entry : ∀ {uri e}, r.entry? uri = some e → r'.entry? uri = some e

/-- One registry has one prefix more than another: the name was free, and all else is as it was. -/
structure AddsBase (name base : String) (r r' : Registry) : Prop where
  free : r.base? name = none
  bases : ∀ p, r'.base? p = if p = name then some base else r.base? p
  entries : ∀ u, r'.entry? u = r.entry? u

/-- One registry has one type more than another: the URI was free, and all else is as it was. -/
structure AddsType (uri : String) (e : Entry) (r r' : Registry) : Prop where
  free : r.entry? uri = none
  entries : ∀ u, r'.entry? u = if u = uri then some e else r.entry? u
  bases : ∀ p, r'.base? p = r.base? p

end Registry

/-- What a step adds if it goes through, and that it adds nothing else. -/
def Step.Adds : Step → Registry → Registry → Prop
  | addPrefix name base => Registry.AddsBase name base
  | register k => Registry.AddsType k.uri (.kind k)
  | learn uri schema => Registry.AddsType uri (.learned schema)

namespace Registry

variable {r r' : Registry}

theorem AddsBase.includes {name base : String} (h : AddsBase name base r r') : r'.Includes r where
  base {p b} hb := by
    rw [h.bases, if_neg]
    · exact hb
    · intro he
      rw [he, h.free] at hb
      cases hb
  entry he := (h.entries _).trans he

theorem AddsType.includes {uri : String} {e : Entry} (h : AddsType uri e r r') : r'.Includes r where
  base hb := (h.bases _).trans hb
  entry {u e'} hu := by
    rw [h.entries, if_neg]
    · exact hu
    · intro he
      rw [he, h.free] at hu
      cases hu

theorem addsType_cons {uri : String} {e : Entry} (free : r.entry? uri = none) :
    AddsType uri e r { r with types := (uri, e) :: r.types } where
  free := free
  entries u := by
    refine (lookup_cons_eq uri e).trans ?_
    simp only [eq_comm, entry?]
  bases _ := rfl

end Registry

namespace Step

variable {r r' : Registry}

/-- A step that goes through adds what it is to add, under a key that was free. -/
theorem Changes.adds {s : Step} (h : s.Changes r r') : s.Adds r r' := by
  cases h with
  | addPrefix free => exact ⟨free, fun p => Table.get?_insert _ _ _ _, fun _ => rfl⟩
  | register free => exact Registry.addsType_cons free
  | learn free _ => exact Registry.addsType_cons free

theorem Adds.includes {s : Step} (h : s.Adds r r') : r'.Includes r := by
  cases s with
  | addPrefix name base => exact Registry.AddsBase.includes h
  | register k => exact Registry.AddsType.includes h
  | learn uri schema => exact Registry.AddsType.includes h

theorem after_includes (s : Step) (r : Registry) : (s.after r).Includes r := by
  rcases s.after_cases r with h | h
  · rw [h]
    exact ⟨id, id⟩
  · exact h.adds.includes

end Step

namespace Registry

variable {r : Registry}

theorem run_includes (r : Registry) (steps : List Step) : (r.run steps).Includes r := by
  refine run_keeps (P := fun r' => r'.Includes r) (fun s r' h => ?_) ⟨id, id⟩ steps
  have hs := s.after_includes r'
  exact ⟨fun hb => hs.base (h.base hb), fun he => hs.entry (h.entry he)⟩

theorem Sound.extends_after (sound : r.Sound) (s : Step) :
    (s.after r).scope.Extends r.scope := by
  rcases s.after_cases r with h | h
  · rw [h]
    exact ⟨id, id⟩
  have larger := h.adds.includes
  generalize s.after r = r' at h larger
  cases h with
  | addPrefix free =>
    refine ⟨larger.base, fun {u m} hm => ?_⟩
    exact (congrFun (SoundTypes.more_prefixes sound larger.base).2 u).trans hm
  | register free => exact extends_cons free
  | learn free _ => exact extends_cons free

/-- Further steps make the scope of a registry larger. -/
theorem Sound.extends_run (sound : r.Sound) (steps : List Step) :
    (r.run steps).scope.Extends r.scope := by
  induction steps generalizing r with
  | nil => exact ⟨id, id⟩
  | cons s steps ih => exact (ih (sound.after s)).trans (sound.extends_after s)

/-- Further steps leave alone whatever did not fail for an unknown name. -/
theorem Sound.compile_run (sound : r.Sound) (steps : List Step) {schema : Value}
    (h : (r.compile schema).Settled) : (r.run steps).compile schema = r.compile schema :=
  Scope.compile_of_extends (sound.extends_run steps) schema h

/-- Whatever further steps are taken, refused ones included: prefixes and types stay as
they are; each step adds one entry or nothing; a schema that has compiled compiles to
a node of the same URI and with the same verdicts; and one that has not fails for the
same fault, unless that was a name that was not known. -/
theorem compile_stable (h : r.Reachable) (steps : List Step) :
    (r.run steps).Includes r ∧
    (∀ s : Step,
      (∃ e, (s.run (r.run steps)).result = .error e ∧ s.after (r.run steps) = r.run steps) ∨
      ∃ r', (s.run (r.run steps)).result = .ok r' ∧ s.after (r.run steps) = r' ∧
        s.Adds (r.run steps) r') ∧
    (∀ schema n, (r.compile schema).result = .ok n →
      ∃ n', ((r.run steps).compile schema).result = .ok n' ∧ n'.uri = n.uri ∧
        ∀ v, n'.validate v = n.validate v) ∧
    ∀ schema e, (r.compile schema).result = .error e → e.isUnknownName = false →
      ((r.run steps).compile schema).result = .error e := by
  refine ⟨run_includes r steps, fun s => ?_, fun schema n hn => ?_, fun schema e he known => ?_⟩
  · cases hs : (s.run (r.run steps)).result with
    | error e => exact .inl ⟨e, rfl, by rw [Step.after, hs]⟩
    | ok r' => exact .inr ⟨r', rfl, Step.after_of_ok hs, (Step.run_ok_iff.1 hs).adds⟩
  · have same := h.sound.compile_run steps (Logged.settled_of_ok hn)
    exact ⟨n, same ▸ hn, rfl, fun _ => rfl⟩
  · have settled : (r.compile schema).Settled := fun e' he' => by
      cases he.symm.trans he'
      exact known
    exact h.sound.compile_run steps settled ▸ he

/-- A new prefix, a new type, and a step that is refused leave a schema of a core kind and
one of no type as they were. -/
theorem compile_stable_after_learning :
    let r := core.run [.addPrefix "ex" "tag:ex:", .learn "tag:ex:a" (.string "//int"),
      .addPrefix "ex" "tag:other:"]
    core.Reachable ∧ r.Includes core ∧
      (∃ n n', (core.compile (.string "//int")).result = .ok n ∧
        (r.compile (.string "//int")).result = .ok n' ∧ n'.uri = n.uri ∧
        ∀ v, n'.validate v = n.validate v) ∧
      (core.compile (.string "int")).result = .error (.badTypeName "int") ∧
      (SchemaError.badTypeName "int").isUnknownName = false ∧
      (r.compile (.string "int")).result = .error (.badTypeName "int") := by
  intro r
  obtain ⟨included, _, ok, error⟩ := compile_stable .core
    [.addPrefix "ex" "tag:ex:", .learn "tag:ex:a" (.string "//int"), .addPrefix "ex" "tag:other:"]
  have hn : (core.compile (.string "//int")).result = .ok (.integer ⟨none, none⟩) := rfl
  have he : (core.compile (.string "int")).result = .error (.badTypeName "int") := rfl
  obtain ⟨n', hn', hu, hv⟩ := ok _ _ hn
  exact ⟨.core, included, ⟨_, n', hn, hn', hu, hv⟩, he, rfl, error _ _ he rfl⟩

end Registry

end Conform
