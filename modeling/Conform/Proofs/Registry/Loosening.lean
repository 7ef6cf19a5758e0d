/-
Loosening a part never tightens the whole. If a schema accepts whatever another
one accepts, then the same holds of two larger schemas that differ in nothing
but in having the one or the other somewhere inside, and either of these
compiles if the other does (`Registry.fill_looser`). So schemas that accept the
same values may be put in each other's place.

As in `Proofs/Registry/Context.lean` the larger schemas are one schema with a
hole, which has to stand where a schema is expected, and not inside a schema of
a user's own kind.
-/
import Conform.Proofs.Compile.Parallel
import Conform.Proofs.Registry.Context

namespace Conform

variable {C : Value → Value → Prop}

/-- A value corresponds to itself if every schema does. -/
theorem Shape.Corresponds.refl (h : ∀ v, C v v) (s : Shape) (v : Value) : s.Corresponds C v v := by
  cases s with
  | schema => exact .schema (h v)
  | schemas =>
    cases v with
    | seq vs => exact .schemas (List.forall₂_same.2 fun v _ => h v)
    | _ => exact .notSchemas rfl rfl
  | fields =>
    cases v with
    | map t => exact .fields (.of_mem fun _ v _ => h v)
    | _ => exact .notFields rfl rfl
  | data => exact .data rfl

/-- A place with one schema corresponds to the place with another, if the schemas do. -/
theorem Place.corresponds (refl : ∀ v, C v v) {hole hole' : Value} (h : C hole hole')
    (p : Place) : p.shape.Corresponds C (p.fill hole) (p.fill hole') := by
  cases p with
  | of before after | item before after => exact .schemas (forall₂_items refl h before after)
  | required name others | optional name others => exact .fields (rel_fields refl h name others)
  | contents | values | tail | rest => exact .schema h

namespace Registry

variable {r : Registry}

/-- A schema that accepts whatever another accepts, or fails as that does, does so in a
schema around it. -/
theorem Sound.compile_frame_looser (sound : r.Sound) {f : Frame} (fits : f.Fits r)
    {hole hole' : Value} (h : CoreKind.CompileAlike Node.Looser r.compile hole hole') :
    CoreKind.CompileAlike Node.Looser r.compile (f.fill hole) (f.fill hole') := by
  have refl (v : Value) : CoreKind.CompileAlike Node.Looser r.compile v v :=
    .refl Node.Looser.refl _
  rcases sound.compile_frame_cases fits with ⟨outcome, same⟩ | ⟨k, shape, made⟩
  · rw [CoreKind.CompileAlike, same, same]
    exact .refl Node.Looser.refl _
  rw [CoreKind.CompileAlike, made, made]
  refine (CoreKind.construct_parallel ⟨f.keys_fillMembers hole hole', fun p s hp => ?_⟩).imp
    fun _ _ => Node.Looser.of_parallel
  refine f.rel_parameter hole hole' (.refl refl s) fun here => ?_
  rw [shape s (here ▸ hp)]
  exact f.place.corresponds refl h

theorem Sound.compile_fill_looser (sound : r.Sound) {context : Context} (fits : context.Fits r)
    {hole hole' : Value} (h : CoreKind.CompileAlike Node.Looser r.compile hole hole') :
    CoreKind.CompileAlike Node.Looser r.compile (context.fill hole) (context.fill hole') := by
  induction context with
  | nil => exact h
  | cons f context ih =>
    exact sound.compile_frame_looser (fits f List.mem_cons_self)
      (ih fun f hf => fits f (List.mem_cons_of_mem _ hf))

/-- Loosening a schema inside another: if `t` accepts whatever `s` accepts, then of the two
schemas with `s` and with `t` in the hole one compiles if the other does, and the one with
`t` accepts whatever the other accepts. If `s` and `t` accept the same, so do these. -/
theorem fill_looser (h : r.Reachable) {s t : Value} {n m : Node}
    (hs : (r.compile s).result = .ok n) (ht : (r.compile t).result = .ok m)
    (looser : ∀ v, n.accepts v = true → m.accepts v = true) {context : Context}
    (fits : context.Fits r) :
    ((∃ n', (r.compile (context.fill s)).result = .ok n') ↔
      ∃ m', (r.compile (context.fill t)).result = .ok m') ∧
    ∀ n' m', (r.compile (context.fill s)).result = .ok n' →
      (r.compile (context.fill t)).result = .ok m' →
      (∀ v, n'.accepts v = true → m'.accepts v = true) ∧
      ((∀ v, m.accepts v = true → n.accepts v = true) → ∀ v, n'.accepts v = m'.accepts v) := by
  have whole {s t : Value} {n m : Node} (hs : (r.compile s).result = .ok n)
      (ht : (r.compile t).result = .ok m)
      (looser : ∀ v, n.accepts v = true → m.accepts v = true) :
      CoreKind.CompileAlike Node.Looser r.compile (context.fill s) (context.fill t) := by
    refine h.sound.compile_fill_looser fits ?_
    rw [CoreKind.CompileAlike, hs, ht]
    exact .ok (.of_accepts looser)
  have filled := whole hs ht looser
  refine ⟨filled.exists_ok_iff, fun n' m' hn' hm' => ?_⟩
  refine ⟨fun v => (filled.related hn' hm').accepts, fun stricter v => ?_⟩
  have back := whole ht hs stricter
  exact Bool.eq_iff_iff.2 ⟨(filled.related hn' hm').accepts, (back.related hm' hn').accepts⟩

/-- Numbers instead of whole numbers, in the tail of sequences that are optional in a record. -/
theorem fill_looser_in_tail :
    let kind (name : String) : Table Value := Table.empty.insert "type" (.string name)
    let field : Frame := ⟨.optional "points" .empty, kind "//rec", "//rec", rfl⟩
    let choice : Frame := ⟨.of [.string "//nil"] [], kind "//any", "//any", rfl⟩
    let tail : Frame :=
      ⟨.tail, (kind "//seq").insert "contents" (.seq [.string "//str"]), "//seq", rfl⟩
    let context : Context := [field, choice, tail]
    let n : Node := .array (.integer ⟨none, none⟩) none
    let m : Node := .array (.number ⟨none, none⟩) none
    let s := .map ((kind "//arr").insert "contents" (.string "//int"))
    let t := .map ((kind "//arr").insert "contents" (.string "//num"))
    core.Reachable ∧ (core.compile s).result = .ok n ∧ (core.compile t).result = .ok m ∧
      (∀ v, n.accepts v = true → m.accepts v = true) ∧ context.Fits core ∧
      (∃ n', (core.compile (context.fill s)).result = .ok n') ∧
      (((∃ n', (core.compile (context.fill s)).result = .ok n') ↔
        ∃ m', (core.compile (context.fill t)).result = .ok m') ∧
      ∀ n' m', (core.compile (context.fill s)).result = .ok n' →
        (core.compile (context.fill t)).result = .ok m' →
        (∀ v, n'.accepts v = true → m'.accepts v = true) ∧
        ((∀ v, m.accepts v = true → n.accepts v = true) → ∀ v, n'.accepts v = m'.accepts v)) := by
  intro kind field choice tail context n m s t
  have hs : (core.compile s).result = .ok n := by
    unfold s kind n
    rfl
  have ht : (core.compile t).result = .ok m := by
    unfold t kind m
    rfl
  have contents : Checker.Looser (Checker.integer ⟨none, none⟩) (Checker.number ⟨none, none⟩) := by
    intro v accepted
    obtain ⟨x, rfl, met, _⟩ := Checker.integer_ok_iff.1 accepted
    exact Checker.number_ok_iff.2 ⟨x, rfl, met⟩
  have looser : n.Looser m := Checker.Looser.array contents .none
  have fits : context.Fits core := by
    intro f hf
    simp only [context, List.mem_cons, List.not_mem_nil, or_false] at hf
    have hr : core.expand "//rec" = .ok CoreKind.record.uri := rfl
    have ha : core.expand "//any" = .ok CoreKind.any.uri := rfl
    have hq : core.expand "//seq" = .ok CoreKind.sequence.uri := rfl
    rcases hf with rfl | rfl | rfl
    · exact .of_core (k := .record) hr rfl (by decide)
    · exact .of_core (k := .any) ha rfl (by decide)
    · exact .of_core (k := .sequence) hq rfl (by decide)
  have compiles : ∃ n', (core.compile (context.fill s)).result = .ok n' := by
    unfold context field choice tail s kind
    exact ⟨_, rfl⟩
  exact ⟨.core, hs, ht, fun _ => looser.accepts, fits, compiles,
    fill_looser .core hs ht (fun _ => looser.accepts) fits⟩

end Registry

end Conform
