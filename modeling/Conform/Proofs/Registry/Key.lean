/-
What a step adds to a registry, and when it goes through. A step adds one entry
under one key, which is the name of a prefix or the URI of a type
(`Step.Changes.held_eq`). It goes through exactly if the key is free and its
schema, if it has one, compiles (`Step.exists_ok_iff`); a key that is taken is
named by the error (`Step.run_of_taken`).

So all there is to a registry is what it holds under each key. Of two registries
that hold the same nobody can tell which is which, though their types may have
been registered in different orders (`Registry.Same.compile_eq`).
-/
import Conform.Proofs.Registry.Alias
import Mathlib.Logic.Function.Basic

namespace Conform

deriving instance DecidableEq for ConfigEntry

/-- What a registry holds under a key. -/
inductive Holding where
  /-- What a prefix stands for. -/
  | base (text : String)
  | entry (e : Entry)

/-- The error of a step that adds to what is there already. -/
def ConfigEntry.duplicate : ConfigEntry → SchemaError
  | ofPrefix name => .duplicatePrefix name
  | ofType uri => .duplicateType uri

namespace Registry

/-- What there is under a key, if anything is. -/
def held (r : Registry) : ConfigEntry → Option Holding
  | .ofPrefix name => (r.base? name).map .base
  | .ofType uri => (r.entry? uri).map .entry

/-- The same prefixes and the same types. Types may have been registered in another order. -/
structure Same (r r' : Registry) : Prop where
  prefixes : r.prefixes = r'.prefixes
  entry : ∀ uri, r.entry? uri = r'.entry? uri

end Registry

namespace Step

/-- Where a step adds something. -/
def key : Step → ConfigEntry
  | addPrefix name _ => .ofPrefix name
  | register k => .ofType k.uri
  | learn uri _ => .ofType uri

/-- What a step adds. -/
def holding : Step → Holding
  | addPrefix _ base => .base base
  | register k => .entry (.kind k)
  | learn _ schema => .entry (.learned schema)

/-- The schema of a step that has one compiles. -/
def Compiles : Step → Registry → Prop
  | learn _ schema, r => ∃ n, (r.compile schema).result = .ok n
  | addPrefix .., _ | register _, _ => True

end Step

/-! ## Registries that hold the same -/

namespace Registry

variable {r r' : Registry}

theorem held_ofPrefix_eq_none_iff {name : String} :
    r.held (.ofPrefix name) = none ↔ r.base? name = none :=
  Option.map_eq_none_iff

theorem held_ofType_eq_none_iff {uri : String} :
    r.held (.ofType uri) = none ↔ r.entry? uri = none :=
  Option.map_eq_none_iff

theorem contains_of_held {name : String} (h : r.held (.ofPrefix name) ≠ none) :
    r.prefixes.contains name = true := by
  by_contra free
  exact h (held_ofPrefix_eq_none_iff.2 (Step.prefix_free_iff.1 free))

theorem hasType_of_held {uri : String} (h : r.held (.ofType uri) ≠ none) : r.hasType uri = true := by
  by_contra free
  exact h (held_ofType_eq_none_iff.2 (Step.type_free_iff.1 free))

theorem same_of_held_eq (h : r.held = r'.held) : r.Same r' where
  prefixes := Table.From.ext_get? fun name =>
    Option.map_injective (fun _ _ => Holding.base.inj) (congrFun h (.ofPrefix name))
  entry uri := Option.map_injective (fun _ _ => Holding.entry.inj) (congrFun h (.ofType uri))

theorem Same.unfold_eq (h : r.Same r') : r.unfold = r'.unfold := by
  funext sub schema
  simp only [unfold, resolve, expand, h.prefixes, h.entry]

/-- Schemas compile alike in registries that hold the same. -/
theorem Same.compile_eq (h : r.Same r') (sound : r.Sound) (sound' : r'.Sound) :
    r.compile = r'.compile :=
  sound'.eq_compile_iff.1 fun schema => by rw [← h.unfold_eq]; exact sound.compile_eq_unfold schema

end Registry

/-! ## What steps add -/

namespace Step

variable {r r' : Registry} {s : Step}

theorem Changes.free (h : s.Changes r r') : r.held s.key = none := by
  cases h with
  | addPrefix free => exact Registry.held_ofPrefix_eq_none_iff.2 free
  | register free => exact Registry.held_ofType_eq_none_iff.2 free
  | learn free _ => exact Registry.held_ofType_eq_none_iff.2 free

theorem Changes.compiles (h : s.Changes r r') : s.Compiles r := by
  cases h with
  | addPrefix _ => trivial
  | register _ => trivial
  | learn _ compiles => exact ⟨_, compiles⟩

/-- A step goes through if its key is free and the schema to be learned compiles. -/
theorem exists_ok_iff :
    (∃ r', (s.run r).result = .ok r') ↔ r.held s.key = none ∧ s.Compiles r := by
  simp only [run_ok_iff]
  refine ⟨fun h => ?_, fun h => ?_⟩
  · obtain ⟨_, h⟩ := h
    exact ⟨h.free, h.compiles⟩
  · obtain ⟨free, compiles⟩ := h
    cases s with
    | addPrefix name base => exact ⟨_, .addPrefix (Registry.held_ofPrefix_eq_none_iff.1 free)⟩
    | register k => exact ⟨_, .register (Registry.held_ofType_eq_none_iff.1 free)⟩
    | learn uri schema =>
      obtain ⟨_, compiles⟩ := compiles
      exact ⟨_, .learn (Registry.held_ofType_eq_none_iff.1 free) compiles⟩

/-- A step whose key is taken does nothing but fail, for this reason. -/
theorem run_of_taken (h : r.held s.key ≠ none) : s.run r = .fail s.key.duplicate := by
  cases s with
  | addPrefix name base => exact if_pos (Registry.contains_of_held h)
  | register k => exact if_pos (Registry.hasType_of_held h)
  | learn uri schema => exact if_pos (Registry.hasType_of_held h)

theorem held_cons {uri : String} {e : Entry} :
    Registry.held { r with types := (uri, e) :: r.types } =
      Function.update r.held (.ofType uri) (some (.entry e)) := by
  funext k
  cases k with
  | ofPrefix name => rw [Function.update_of_ne (by simp)]; rfl
  | ofType u =>
    simp only [Registry.held, Registry.entry?, Registry.lookup_cons_eq, Function.update_apply,
      ConfigEntry.ofType.injEq, eq_comm]
    split <;> rfl

/-- A step that goes through adds what it is to add at its key, and changes nothing else. -/
theorem Changes.held_eq (h : s.Changes r r') :
    r'.held = Function.update r.held s.key (some s.holding) := by
  cases h with
  | addPrefix _ =>
    funext k
    cases k with
    | ofPrefix n =>
      simp only [Registry.held, Registry.base?, Table.get?_insert, Function.update_apply, key,
        ConfigEntry.ofPrefix.injEq]
      split <;> rfl
    | ofType u => rw [Function.update_of_ne (by simp [key])]; rfl
  | register _ => exact held_cons
  | learn _ _ => exact held_cons

end Step

end Conform
