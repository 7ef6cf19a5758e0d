/-
Steps that do not get into each other's way. A step leaves every key but its own
as it was, and every schema that has compiled compiles still. So of two steps
that each go through, either may be taken first: both go through in either order
if their keys differ, to registries that hold the same, and if they have one key
then the second is refused, whichever it is (`Registry.setup_commutes`).
-/
import Conform.Proofs.Registry.Key
import Conform.Proofs.Registry.Stability

namespace Conform

namespace Step

variable {r r' ra rb rab rba : Registry} {a b s t : Step}

theorem Compiles.after (h : s.Compiles r) (sound : r.Sound) (t : Step) :
    s.Compiles (t.after r) := by
  cases s with
  | addPrefix name base => trivial
  | register k => trivial
  | learn uri schema =>
    obtain ⟨n, hn⟩ := h
    have same : (t.after r).compile schema = r.compile schema :=
      Scope.compile_eq_of_ok (sound.extends_after t) hn
    exact ⟨n, same ▸ hn⟩

/-- What goes through goes through after a step with another key. -/
theorem exists_ok_after (sound : r.Sound) (ht : (t.run r).result = .ok r')
    (hs : ∃ r'', (s.run r).result = .ok r'') (ne : s.key ≠ t.key) :
    ∃ r'', (s.run r').result = .ok r'' := by
  rw [exists_ok_iff] at hs ⊢
  obtain ⟨free, compiles⟩ := hs
  refine ⟨?_, after_of_ok ht ▸ compiles.after sound t⟩
  rw [(run_ok_iff.1 ht).held_eq, Function.update_of_ne ne]
  exact free

/-- A key that has been added to is taken for every other step. -/
theorem run_after_same_key (ht : (t.run r).result = .ok r') (same : s.key = t.key) :
    s.run r' = .fail s.key.duplicate := by
  refine run_of_taken ?_
  rw [(run_ok_iff.1 ht).held_eq, same, Function.update_self]
  exact Option.some_ne_none _

theorem same_of_either_order (ne : a.key ≠ b.key) (ha : (a.run r).result = .ok ra)
    (hab : (b.run ra).result = .ok rab) (hb : (b.run r).result = .ok rb)
    (hba : (a.run rb).result = .ok rba) : rab.Same rba := by
  refine Registry.same_of_held_eq ?_
  rw [(run_ok_iff.1 hab).held_eq, (run_ok_iff.1 ha).held_eq, (run_ok_iff.1 hba).held_eq,
    (run_ok_iff.1 hb).held_eq, Function.update_comm ne]

end Step

namespace Registry

/-- Two steps that each go through can be taken in either order. If they add under different
keys, both go through and the same is held in the end; if they add under one key, the second
fails for just that, and leaves what the first has made. -/
theorem setup_commutes {r ra rb : Registry} (h : r.Reachable) {a b : Step}
    (ha : (a.run r).result = .ok ra) (hb : (b.run r).result = .ok rb) :
    (a.key ≠ b.key → ∃ rab rba, (b.run ra).result = .ok rab ∧ (a.run rb).result = .ok rba ∧
      rab.Same rba ∧ rab.compile = rba.compile) ∧
    (a.key = b.key →
      (b.run ra).result = .error b.key.duplicate ∧ b.after ra = ra ∧
      (a.run rb).result = .error a.key.duplicate ∧ a.after rb = rb) := by
  have sound := h.sound
  refine ⟨fun ne => ?_, fun same => ?_⟩
  · obtain ⟨rab, hab⟩ := Step.exists_ok_after sound ha ⟨rb, hb⟩ ne.symm
    obtain ⟨rba, hba⟩ := Step.exists_ok_after sound hb ⟨ra, ha⟩ ne
    have holds := Step.same_of_either_order ne ha hab hb hba
    refine ⟨rab, rba, hab, hba, holds, holds.compile_eq ?_ ?_⟩
    · rw [← Step.after_of_ok hab, ← Step.after_of_ok ha]
      exact (sound.after a).after b
    · rw [← Step.after_of_ok hba, ← Step.after_of_ok hb]
      exact (sound.after b).after a
  · have second := congrArg Logged.result (Step.run_after_same_key ha same.symm)
    have first := congrArg Logged.result (Step.run_after_same_key hb same)
    exact ⟨second, Step.after_of_error second, first, Step.after_of_error first⟩

/-- A prefix and a learned type can be added in either order; a URI can be learned once. -/
theorem setup_commutes_learning :
    let learn (uri name : String) : Step := .learn uri (.string name)
    ∃ ra rb rc, core.Reachable ∧ ((Step.addPrefix "ex" "tag:").run core).result = .ok ra ∧
      ((learn "tag:a" "//int").run core).result = .ok rb ∧
      ((learn "tag:a" "//str").run core).result = .ok rc ∧
      (∃ rab rba, ((learn "tag:a" "//int").run ra).result = .ok rab ∧
        ((Step.addPrefix "ex" "tag:").run rb).result = .ok rba ∧ rab.Same rba ∧
        rab.compile = rba.compile) ∧
      ((learn "tag:a" "//str").run rb).result = .error (.duplicateType "tag:a") ∧
      (learn "tag:a" "//str").after rb = rb ∧
      ((learn "tag:a" "//int").run rc).result = .error (.duplicateType "tag:a") ∧
      (learn "tag:a" "//int").after rc = rc := by
  intro learn
  have hint : (core.compile (.string "//int")).result = .ok (.integer ⟨none, none⟩) := rfl
  have hstr : (core.compile (.string "//str")).result = .ok (.string ⟨none, none⟩) := rfl
  have ha : ((Step.addPrefix "ex" "tag:").run core).result = .ok _ :=
    Step.run_ok_iff.2 (.addPrefix rfl)
  have hb : ((learn "tag:a" "//int").run core).result = .ok _ :=
    Step.run_ok_iff.2 (.learn rfl hint)
  have hc : ((learn "tag:a" "//str").run core).result = .ok _ :=
    Step.run_ok_iff.2 (.learn rfl hstr)
  refine ⟨_, _, _, .core, ha, hb, hc, ?_, ?_⟩
  · exact (setup_commutes .core ha hb).1 (fun h => (nomatch h))
  · exact (setup_commutes .core hb hc).2 rfl

end Registry

end Conform
