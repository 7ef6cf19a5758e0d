/-
What the trace of a compilation tells. A schema unfolds to a tree, with the
schemas inside it and the schemas of learned types at the places where they are
named (`Registry.Unfolds`). Compiling it traces the URIs of the tree in preorder.

If a name is not known as yet, the trace breaks off there: once later steps have
made the schema compile, it goes on from the same beginning. Both are in
`Registry.traces_preorder`, and learning a type traces its schema.
-/
import Conform.Proofs.Registry.Blame
import Conform.Proofs.Registry.Log
import Conform.Proofs.Registry.Stability

namespace Conform

namespace Event

/-- The traces of what is compiled. -/
def trace (es : List Event) : List Event := es.filter fun e => e.level == .trace

theorem trace_append (es es' : List Event) : trace (es ++ es') = trace es ++ trace es' :=
  List.filter_append ..

theorem trace_eq_self {es : List Event} (h : ∀ e ∈ es, ∃ uri, e = .compiling uri) :
    trace es = es := by
  refine List.filter_eq_self.2 fun e he => ?_
  obtain ⟨uri, rfl⟩ := h e he
  rfl

end Event

/-! ## Computations that break off -/

namespace Logged

variable {α β : Type} {x y : Logged α} {f g : α → Logged β}

/-- The first computation fails for an unknown name on the way that the second goes. It has not
come to the end of it if the second succeeds. -/
structure BreaksOff (x y : Logged α) : Prop where
  unknown : ∃ e, x.result = .error e ∧ e.isUnknownName = true
  before : x.events <+: y.events
  proper : ∀ a, y.result = .ok a → x.events ≠ y.events

/-- Where a computation has broken off, nothing follows. -/
theorem BreaksOff.bind (h : x.BreaksOff y) : (x >>= f).BreaksOff (y >>= g) := by
  obtain ⟨e, he, unknown⟩ := h.unknown
  rw [bind_of_error he]
  cases hy : y.result with
  | error e' =>
    rw [bind_of_error hy]
    exact ⟨⟨e, rfl, unknown⟩, h.before, fun _ hb => (nomatch hb)⟩
  | ok a =>
    rw [bind_of_ok hy]
    refine ⟨⟨e, rfl, unknown⟩, h.before.trans (List.prefix_append ..), fun _ _ whole => ?_⟩
    -- the first would have come to the end of what the second logs up to here
    have whole : x.events = y.events ++ (g a).events := whole
    refine h.proper a hy (h.before.eq_of_length_le ?_)
    rw [whole, List.length_append]
    exact Nat.le_add_right ..

theorem BreaksOff.bind_right {a : α} (hx : x.result = .ok a) (h : (f a).BreaksOff (g a)) :
    (x >>= f).BreaksOff (x >>= g) := by
  rw [bind_of_ok hx, bind_of_ok hx]
  refine ⟨h.unknown, (List.prefix_append_right_inj _).2 h.before, fun b hb same => ?_⟩
  exact h.proper b hb (List.append_cancel_left same)

/-- They are the same computation, or the first breaks off. -/
def Comparison.breaksOff : Logged.Comparison where
  Holds x y := y = x ∨ x.BreaksOff y
  refl _ := .inl rfl
  bind {_ _ x y f g} hx hf := by
    rcases hx with rfl | stop
    · cases h : y.result with
      | error e => exact .inl (by rw [bind_of_error h, bind_of_error h])
      | ok a =>
        rcases hf a with same | stop
        · exact .inl (by rw [bind_of_ok h, bind_of_ok h, same])
        · exact .inr (.bind_right h stop)
    · exact .inr stop.bind

end Logged

/-! ## Schemas as trees -/

/-- A tree of URIs. -/
inductive Unfolded where
  | node (uri : String) (inside : List Unfolded)

mutual

/-- A URI comes before those inside. -/
def Unfolded.preorder : Unfolded → List String
  | .node uri inside => uri :: Unfolded.preorders inside

def Unfolded.preorders : List Unfolded → List String
  | [] => []
  | tree :: trees => tree.preorder ++ Unfolded.preorders trees

end

theorem Point.visitAll_ok {sub : Value → Logged Node} {ps : List Point}
    (h : (visitAll sub ps).error? = none) :
    (∀ v, Point.schema v ∈ ps → ∃ n, (sub v).result = .ok n) ∧
      (visitAll sub ps).events = (ps.filterMap schema?).flatMap fun v => (sub v).events := by
  induction ps with
  | nil => exact ⟨fun _ h => (nomatch h), rfl⟩
  | cons p ps ih =>
    rw [visitAll_cons] at h ⊢
    rw [Logged.error?_bind, Option.or_eq_none_iff] at h
    obtain ⟨here, later⟩ := h
    obtain ⟨ok, events⟩ := ih later
    cases p with
    | fault e => cases here
    | schema v =>
      obtain ⟨n, hn⟩ := Logged.error?_eq_none_iff.1 (Logged.error?_forget (sub v) ▸ here)
      refine ⟨fun w hw => ?_, ?_⟩
      · rcases List.mem_cons.1 hw with same | hw
        · cases same
          exact ⟨n, hn⟩
        · exact ok w hw
      · rw [visit, bind_map_left, Logged.bind_of_ok hn, events]
        rfl

namespace Registry

variable {r : Registry} {schema : Value}

/-- Schemas unfold to trees, one by one. The children of a schema are those of the schemas inside
it; a learned type has its own schema as the only child. -/
inductive Unfolds (r : Registry) : List Value → List Unfolded → Prop
  | nil : Unfolds r [] []
  | cons {schema : Value} {rest : List Value} {t : Referent} {children trees : List Unfolded}
      (hs : r.resolve schema = .ok t) (inside : Unfolds r t.inside children)
      (h : Unfolds r rest trees) : Unfolds r (schema :: rest) (.node t.uri children :: trees)

theorem Unfolds.unique {vs : List Value} {trees trees' : List Unfolded} (h : r.Unfolds vs trees)
    (h' : r.Unfolds vs trees') : trees' = trees := by
  induction h generalizing trees' with
  | nil => cases h'; rfl
  | cons hs _ _ inside ih =>
    cases h' with
    | cons hs' inside' h' =>
      cases hs.symm.trans hs'
      rw [inside inside', ih h']

theorem exists_unfolds_of_each {vs : List Value}
    (h : ∀ v ∈ vs, ∃ tree, r.Unfolds [v] [tree]) : ∃ trees, r.Unfolds vs trees := by
  induction vs with
  | nil => exact ⟨[], .nil⟩
  | cons v vs ih =>
    obtain ⟨trees, later⟩ := ih fun w hw => h w (List.mem_cons_of_mem _ hw)
    obtain ⟨_, here⟩ := h v List.mem_cons_self
    cases here with
    | cons hs inside _ => exact ⟨_, .cons hs inside later⟩

/-- A schema that compiles has all schemas inside compiled, and their traces follow its URI. -/
theorem Sound.compile_inside (sound : r.Sound) {t : Referent} (ht : r.resolve schema = .ok t)
    (ok : ∃ n, (r.compile schema).result = .ok n) :
    (∀ v ∈ t.inside, ∃ n, (r.compile v).result = .ok n) ∧
      (r.compile schema).events =
        .compiling t.uri :: t.inside.flatMap fun v => (r.compile v).events := by
  have visited := Logged.error?_eq_none_iff.2 ok
  rw [sound.error?_compile] at visited
  obtain ⟨inside, events⟩ := Point.visitAll_ok visited
  rw [filterMap_points ht] at events
  refine ⟨fun v hv => ?_, ?_⟩
  · rw [← filterMap_points ht] at hv
    obtain ⟨p, hp, hv⟩ := List.mem_filterMap.1 hv
    cases p with
    | fault e => cases hv
    | schema w =>
      cases hv
      exact inside v hp
  · obtain ⟨n, hn⟩ := ok
    have all := congrArg Logged.events (sound.compile_visits ht)
    rw [map_eq_pure_bind, Logged.bind_of_ok hn, Logged.bind_of_ok (Logged.log_result _)] at all
    simpa [events, Logged.pure_eq, Logged.log] using all

theorem Sound.exists_unfolds (sound : r.Sound) (ok : ∃ n, (r.compile schema).result = .ok n) :
    ∃ tree, r.Unfolds [schema] [tree] := by
  induction schema using sound.calls_wellFounded.induction with
  | _ schema ih =>
    obtain ⟨n, hn⟩ := ok
    obtain ⟨t, ht⟩ := sound.resolve_of_compile_ok hn
    obtain ⟨inside, _⟩ := sound.compile_inside ht ⟨n, hn⟩
    obtain ⟨children, h⟩ := exists_unfolds_of_each fun v hv =>
      ih v (calls_of_mem_inside ht hv) (inside v hv)
    exact ⟨_, .cons ht h .nil⟩

/-- Compiling schemas logs the URIs of their trees in preorder. -/
theorem Unfolds.events_eq (sound : r.Sound) {vs : List Value} {trees : List Unfolded}
    (h : r.Unfolds vs trees) (ok : ∀ v ∈ vs, ∃ n, (r.compile v).result = .ok n) :
    (vs.flatMap fun v => (r.compile v).events) =
      (Unfolded.preorders trees).map .compiling := by
  induction h with
  | nil => rfl
  | cons hs _ _ inside ih =>
    obtain ⟨okInside, events⟩ := sound.compile_inside hs (ok _ List.mem_cons_self)
    rw [List.flatMap_cons, events, inside okInside, ih fun v hv => ok v (List.mem_cons_of_mem _ hv)]
    simp [Unfolded.preorders, Unfolded.preorder]

/-! ## Unknown names -/

/-- Further steps leave a compilation as it was, or it had broken off. -/
theorem Sound.compile_run_breaksOff (sound : r.Sound) (steps : List Step) (schema : Value) :
    (r.run steps).compile schema = r.compile schema ∨
      (r.compile schema).BreaksOff ((r.run steps).compile schema) := by
  have sound' : (r.run steps).Sound := run_keeps (fun s _ sound => sound.after s) sound steps
  have unknown {e : SchemaError} {schema : Value} (he : e.isUnknownName = true) :
      (Logged.fail e).BreaksOff ((r.run steps).compile schema) := by
    refine ⟨⟨e, rfl, he⟩, List.nil_prefix, fun n hn => ?_⟩
    obtain ⟨t, ht⟩ := sound'.resolve_of_compile_ok hn
    rw [(sound'.compile_inside ht ⟨n, hn⟩).2]
    exact List.cons_ne_nil _ _ ∘ Eq.symm
  exact Scope.compile_holds_of_extends (c := .breaksOff) (sound.extends_run steps)
    (fun he => .inr (unknown he)) schema

/-- Learning a type traces its schema, if the URI is free. -/
theorem trace_learn (r : Registry) (uri : String) (schema : Value) :
    Event.trace (r.learn uri schema).events =
      if r.hasType uri then [] else Event.trace (r.compile schema).events := by
  unfold learn
  split
  · rfl
  · cases h : (r.compile schema).result with
    | error e => rw [Logged.bind_of_error h]
    | ok n =>
      rw [Logged.bind_of_ok h, Event.trace_append]
      exact List.append_nil _

/-- The trace of a compilation is the preorder of the schema, unfolded. A schema that compiles
unfolds to one tree, and its trace is that of the URIs in the tree. A schema that fails for an
unknown name and compiles after some further steps has traced a part of what it traces then,
from the beginning on but not to the end. Learning a type traces its schema if the URI is free,
and nothing otherwise. -/
theorem traces_preorder (h : r.Reachable) (schema : Value) :
    (∀ n, (r.compile schema).result = .ok n →
      ∃ tree, r.Unfolds [schema] [tree] ∧
        (∀ other, r.Unfolds [schema] [other] → other = tree) ∧
        Event.trace (r.compile schema).events = tree.preorder.map .compiling) ∧
    (∀ steps e n, (r.compile schema).result = .error e → e.isUnknownName = true →
      ((r.run steps).compile schema).result = .ok n →
      Event.trace (r.compile schema).events <+:
          Event.trace ((r.run steps).compile schema).events ∧
        Event.trace (r.compile schema).events ≠
          Event.trace ((r.run steps).compile schema).events) ∧
    ∀ uri, Event.trace (r.learn uri schema).events =
      if r.hasType uri then [] else Event.trace (r.compile schema).events := by
  have traces (r : Registry) (schema : Value) :
      Event.trace (r.compile schema).events = (r.compile schema).events :=
    Event.trace_eq_self (r.compile_logs schema)
  refine ⟨fun n hn => ?_, fun steps e n he unknown hn => ?_, fun uri => r.trace_learn uri schema⟩
  · obtain ⟨tree, unfolds⟩ := h.sound.exists_unfolds ⟨n, hn⟩
    refine ⟨tree, unfolds, fun other ho => ?_, ?_⟩
    · cases unfolds.unique ho
      rfl
    · have all := unfolds.events_eq h.sound fun v hv => ⟨n, List.mem_singleton.1 hv ▸ hn⟩
      rw [traces]
      simpa [Unfolded.preorders] using all
  · rw [traces, traces]
    rcases h.sound.compile_run_breaksOff steps schema with same | stop
    · rw [same, he] at hn
      cases hn
    · exact ⟨stop.before, stop.proper n hn⟩

/-- A record whose fields and rest are traced in their order, the learned type with its schema;
and a type that is not known until it has been learned. -/
theorem traces_record_of_learned :
    let r := core.run [.learn "tag:a" (.string "//int")]
    let fields (name : String) (schema : Value) : Value := .map (Table.ofList [(name, schema)])
    let members : Table Value := Table.ofList [("type", .string "//rec"),
      ("optional", fields "x" (.string "//str")), ("required", fields "y" (.string "tag:a")),
      ("rest", .string "//def")]
    let record : Value := .map members
    let both : Value := .map (Table.ofList [("type", .string "//all"),
      ("of", .seq [.string "tag:a", .string "tag:b"])])
    let later := r.run [.learn "tag:b" (.string "//str")]
    r.Reachable ∧
      Event.trace (r.compile record).events =
        [.compiling CoreKind.record.uri, .compiling "tag:a", .compiling CoreKind.integer.uri,
          .compiling CoreKind.string.uri, .compiling CoreKind.defined.uri] ∧
      Event.trace (r.compile both).events <+: Event.trace (later.compile both).events ∧
      Event.trace (r.compile both).events ≠ Event.trace (later.compile both).events ∧
      Event.trace (r.learn "tag:a" record).events = [] := by
  intro r fields members record both later
  have h : r.Reachable := .run .core _
  have integer : r.Unfolds [.string "//int"] [.node CoreKind.integer.uri []] :=
    .cons (t := ⟨CoreKind.integer.uri, _, .kind (.core .integer)⟩) rfl .nil .nil
  have rest : r.Unfolds [.string "//def"] [.node CoreKind.defined.uri []] :=
    .cons (t := ⟨CoreKind.defined.uri, _, .kind (.core .defined)⟩) rfl .nil .nil
  have optional : r.Unfolds [.string "//str", .string "//def"]
      [.node CoreKind.string.uri [], .node CoreKind.defined.uri []] :=
    .cons (t := ⟨CoreKind.string.uri, _, .kind (.core .string)⟩) rfl .nil rest
  have inside : r.Unfolds [.string "tag:a", .string "//str", .string "//def"]
      [.node "tag:a" [.node CoreKind.integer.uri []], .node CoreKind.string.uri [],
        .node CoreKind.defined.uri []] :=
    .cons (t := ⟨"tag:a", _, .learned (.string "//int")⟩) rfl integer optional
  have resolved : r.resolve record =
      .ok ⟨CoreKind.record.uri, members, .kind (.core .record)⟩ := by
    unfold record members fields r
    rfl
  have unfolds : r.Unfolds [record] [.node CoreKind.record.uri
      [.node "tag:a" [.node CoreKind.integer.uri []], .node CoreKind.string.uri [],
        .node CoreKind.defined.uri []]] :=
    .cons resolved (by unfold members fields; exact inside) .nil
  obtain ⟨compiles, _, learned⟩ := traces_preorder h record
  obtain ⟨_, breaksOff, _⟩ := traces_preorder h both
  have compiled : (r.compile record).result =
      .ok (.record (Table.ofList [("y", .integer ⟨none, none⟩)])
        (Table.ofList [("x", .string ⟨none, none⟩)]) (some .defined)) := by
    unfold record members fields r
    rfl
  obtain ⟨tree, _, unique, trace⟩ := compiles _ compiled
  cases unique _ unfolds
  have unknown : (r.compile both).result = .error (.unknownType "tag:b") := by
    unfold both r
    rfl
  have known : (later.compile both).result =
      .ok (.all [.integer ⟨none, none⟩, .string ⟨none, none⟩]) := by
    unfold later both r
    rfl
  obtain ⟨before, proper⟩ := breaksOff [.learn "tag:b" (.string "//str")] _ _ unknown rfl known
  exact ⟨h, trace, before, proper, learned "tag:a"⟩

end Registry

end Conform
