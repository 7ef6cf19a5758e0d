/-
What a configuration builds, and what it blames. Whether a configuration can be
applied is said without applying it (`Config.Applicable`): its prefixes have new
names, its types have new and different URIs, and each schema compiles where
everything in front of it is there. What is built then is the start with all its
entries, and the order of the types makes no other difference than whether they
can be learned. If a configuration cannot be applied, then it can up to some
entry, and what is wrong with that is what is reported (`Config.build_outcome`).
-/
import Conform.Proofs.Compile.Confined
import Conform.Proofs.Registry.Completion

namespace Conform

namespace Registry

variable {r r' : Registry}

/-- The registry with more prefixes, whatever their names. -/
def withPrefixes (r : Registry) {b : Option String} (prefixes : Table.From String b) : Registry :=
  { r with prefixes := r.prefixes.addAll prefixes }

/-- The registry with more learned types, whatever their URIs. -/
def withTypes (r : Registry) (types : List LearnedType) : Registry :=
  { r with types := types.foldl (fun ts t => (t.uri, .learned t.schema) :: ts) r.types }

/-- Types that can be learned one after another: their URIs are free and different, and each
schema compiles where the types before it have been learned. -/
structure CanLearn (r : Registry) (types : List LearnedType) : Prop where
  distinct : (types.map LearnedType.uri).Nodup
  free : ∀ t ∈ types, r.entry? t.uri = none
  compiles : ∀ before t after, types = before ++ t :: after →
    ∃ n, ((r.withTypes before).compile t.schema).result = .ok n

/-! ## Prefixes and types one after another -/

/-- Prefixes can be added one after another if none of their names is taken. -/
theorem completes_addPrefix_iff {b : Option String} {prefixes : Table.From String b} :
    r.Completes (prefixes.toList.map fun p => .addPrefix p.1 p.2) r' ↔
      (∀ name base, prefixes.get? name = some base → r.base? name = none) ∧
        r' = r.withPrefixes prefixes := by
  induction prefixes generalizing r with
  | nil =>
    refine completes_nil_iff.trans ⟨fun h => ⟨fun _ _ h => (nomatch h), h⟩, fun h => h.2⟩
  | cons k above base rest ih =>
    rw [Table.From.toList, List.map_cons, completes_cons_iff]
    -- the first name is not among the others, so adding it takes none of them
    have other {name base'} (h : rest.get? name = some base') : name ≠ k := by
      rintro rfl
      rw [Table.From.get?_bound] at h
      cases h
    refine ⟨fun h => ?_, fun h => ?_⟩
    · obtain ⟨r₁, head, tail⟩ := h
      cases Step.run_ok_iff.1 head with
      | addPrefix free =>
        obtain ⟨free', rfl⟩ := ih.1 tail
        refine ⟨fun name base' hb => ?_, rfl⟩
        rw [Table.From.get?_cons] at hb
        split at hb
        · next he => exact he ▸ free
        · have := free' name base' hb
          rwa [base?, Table.get?_insert, if_neg (other hb)] at this
    · obtain ⟨free, rfl⟩ := h
      have head := free k base (by rw [Table.From.get?_cons, if_pos rfl])
      refine ⟨_, Step.run_ok_iff.2 (.addPrefix head), ih.2 ⟨fun name base' hb => ?_, rfl⟩⟩
      rw [base?, Table.get?_insert, if_neg (other hb)]
      exact free name base' (by rw [Table.From.get?_cons, if_neg (other hb), hb])

theorem withTypes_cons (r : Registry) (t : LearnedType) (types : List LearnedType) :
    r.withTypes (t :: types) =
      withTypes { r with types := (t.uri, .learned t.schema) :: r.types } types :=
  rfl

theorem entry?_cons {uri u : String} {e : Entry} :
    entry? { r with types := (uri, e) :: r.types } u = if uri = u then some e else r.entry? u :=
  lookup_cons_eq uri e

theorem canLearn_cons_iff {t : LearnedType} {types : List LearnedType} :
    r.CanLearn (t :: types) ↔
      r.entry? t.uri = none ∧ (∃ n, (r.compile t.schema).result = .ok n) ∧
        CanLearn { r with types := (t.uri, .learned t.schema) :: r.types } types := by
  have free_iff (u : String) :
      entry? { r with types := (t.uri, .learned t.schema) :: r.types } u = none ↔
        t.uri ≠ u ∧ r.entry? u = none := by
    rw [entry?_cons]
    split
    · next he => exact ⟨fun h => (nomatch h), fun h => absurd he h.1⟩
    · next he => exact ⟨fun h => ⟨he, h⟩, fun h => h.2⟩
  refine ⟨fun h => ?_, fun h => ?_⟩
  · obtain ⟨new, distinct⟩ := List.nodup_cons.1 h.distinct
    refine ⟨h.free t List.mem_cons_self, h.compiles [] t types rfl, distinct, fun u hu => ?_, ?_⟩
    · rw [free_iff]
      exact ⟨fun he => new (he ▸ List.mem_map_of_mem hu), h.free u (List.mem_cons_of_mem t hu)⟩
    · intro before u after hb
      exact h.compiles (t :: before) u after (by rw [hb]; rfl)
  · obtain ⟨free, compiles, h⟩ := h
    refine ⟨List.nodup_cons.2 ⟨fun new => ?_, h.distinct⟩, fun u hu => ?_, ?_⟩
    · obtain ⟨u, hu, he⟩ := List.mem_map.1 new
      exact ((free_iff u.uri).1 (h.free u hu)).1 he.symm
    · rcases List.mem_cons.1 hu with rfl | hu
      · exact free
      · exact ((free_iff u.uri).1 (h.free u hu)).2
    · intro before u after hb
      cases before with
      | nil =>
        cases hb
        exact compiles
      | cons t' before =>
        cases hb
        exact h.compiles before u after rfl

/-- Types are learned one after another if they can be. -/
theorem completes_learn_iff {types : List LearnedType} :
    r.Completes (types.map fun t => .learn t.uri t.schema) r' ↔
      r.CanLearn types ∧ r' = r.withTypes types := by
  induction types generalizing r with
  | nil =>
    refine completes_nil_iff.trans ⟨fun h => ⟨⟨List.nodup_nil, fun _ h => (nomatch h), ?_⟩, h⟩,
      fun h => h.2⟩
    exact fun before _ _ h => absurd h (by simp)
  | cons t types ih =>
    rw [List.map_cons, completes_cons_iff, canLearn_cons_iff]
    refine ⟨fun h => ?_, fun h => ?_⟩
    · obtain ⟨r₁, head, tail⟩ := h
      cases Step.run_ok_iff.1 head with
      | learn free compiles =>
        obtain ⟨h, rfl⟩ := ih.1 tail
        exact ⟨⟨free, ⟨_, compiles⟩, h⟩, rfl⟩
    · obtain ⟨⟨free, ⟨n, compiles⟩, h⟩, rfl⟩ := h
      exact ⟨_, Step.run_ok_iff.2 (.learn free compiles), ih.2 ⟨h, rfl⟩⟩

theorem CanLearn.entry?_withTypes {types : List LearnedType} (h : r.CanLearn types) {uri : String}
    {e : Entry} :
    entry? (r.withTypes types) uri = some e ↔
      r.entry? uri = some e ∨ ∃ t ∈ types, t.uri = uri ∧ e = .learned t.schema := by
  induction types generalizing r with
  | nil => simp [withTypes]
  | cons t types ih =>
    obtain ⟨free, _, h⟩ := canLearn_cons_iff.1 h
    rw [withTypes_cons, ih h, entry?_cons]
    by_cases hu : t.uri = uri
    · subst hu
      simp [free, eq_comm]
    · simp [hu]

end Registry

namespace Config

variable {c : Config} {r : Registry}

/-- The start of a configuration with all its prefixes and some types. -/
def assembled (c : Config) (types : List LearnedType) : Registry :=
  (c.start.withPrefixes c.prefixes).withTypes types

/-- What makes a configuration one that can be applied. -/
structure Applicable (c : Config) : Prop where
  /-- No prefix has the name of one that is always there. -/
  names : ∀ name base, c.prefixes.get? name = some base →
    Registry.defaultPrefixes.get? name = none
  distinct : (c.types.map LearnedType.uri).Nodup
  /-- No type has the URI of a core kind, if those are there. -/
  free : c.loadCore = true → ∀ t ∈ c.types, ∀ k : CoreKind, t.uri ≠ k.uri
  /-- Each schema compiles where all prefixes and the types before it are there. -/
  compiles : ∀ before t after, c.types = before ++ t :: after →
    ∃ n, ((c.assembled before).compile t.schema).result = .ok n

/-- A configuration is cut off in front of one of its entries, the step of which is told. -/
inductive CutBefore (c : Config) : Step → Config → Prop
  | ofPrefix {name base : String} (h : c.prefixes.get? name = some base) :
      CutBefore c (.addPrefix name base)
        { c with prefixes := c.prefixes.filterKeys fun n => decide (n < name), types := [] }
  | ofType {before after : List LearnedType} {t : LearnedType}
      (h : c.types = before ++ t :: after) :
      CutBefore c (.learn t.uri t.schema) { c with types := before }

/-! ## The start -/

theorem start_prefixes (c : Config) : c.start.prefixes = Registry.defaultPrefixes := by
  unfold start
  split <;> rfl

theorem core_entry?_uri (k : CoreKind) : Registry.core.entry? k.uri = some (.kind (.core k)) := by
  cases k <;> rfl

theorem core_entry?_eq_some_iff {uri : String} {e : Entry} :
    Registry.core.entry? uri = some e ↔ ∃ k : CoreKind, uri = k.uri ∧ e = .kind (.core k) := by
  refine ⟨fun h => ?_, ?_⟩
  · obtain ⟨before, after, split, _⟩ := List.lookup_eq_some_iff.1 h
    have listed : (uri, e) ∈ Registry.core.types := split ▸ by simp
    obtain ⟨k, _, same⟩ := List.mem_map.1 listed
    cases same
    exact ⟨k, rfl, rfl⟩
  · rintro ⟨k, rfl, rfl⟩
    exact core_entry?_uri k

/-- At the start there are the core kinds, if they are loaded, and else nothing. -/
theorem start_entry?_eq_some_iff {uri : String} {e : Entry} :
    c.start.entry? uri = some e ↔
      c.loadCore = true ∧ ∃ k : CoreKind, uri = k.uri ∧ e = .kind (.core k) := by
  unfold start
  split
  · next core => rw [core_entry?_eq_some_iff, and_iff_right core]
  · next bare => exact ⟨fun h => (nomatch h), fun h => absurd h.1 bare⟩

theorem start_entry?_eq_none_iff {uri : String} :
    c.start.entry? uri = none ↔ (c.loadCore = true → ∀ k : CoreKind, uri ≠ k.uri) := by
  rw [Option.eq_none_iff_forall_ne_some]
  refine ⟨fun h core k hk => h _ (start_entry?_eq_some_iff.2 ⟨core, k, hk, rfl⟩), fun h e he => ?_⟩
  obtain ⟨core, k, hk, -⟩ := start_entry?_eq_some_iff.1 he
  exact h core k hk

/-! ## What is built -/

/-- A configuration builds a registry if it can be applied, and that is the start with all its
prefixes and types. -/
theorem build_ok_iff_applicable :
    c.build.result = .ok r ↔ c.Applicable ∧ r = c.assembled c.types := by
  rw [build_ok_iff, steps, Registry.completes_append_iff]
  simp only [Registry.completes_addPrefix_iff, Registry.completes_learn_iff]
  refine ⟨fun h => ?_, fun h => ?_⟩
  · obtain ⟨_, ⟨names, rfl⟩, h, rfl⟩ := h
    refine ⟨⟨fun name base hb => ?_, h.distinct, fun core t ht => ?_, h.compiles⟩, rfl⟩
    · exact c.start_prefixes ▸ names name base hb
    · exact start_entry?_eq_none_iff.1 (h.free t ht) core
  · obtain ⟨h, rfl⟩ := h
    refine ⟨_, ⟨fun name base hb => ?_, rfl⟩, ⟨h.distinct, fun t ht => ?_, h.compiles⟩, rfl⟩
    · rw [Registry.base?, c.start_prefixes]
      exact h.names name base hb
    · exact start_entry?_eq_none_iff.2 fun core k => h.free core t ht k

theorem Applicable.base?_assembled (h : c.Applicable) {types : List LearnedType}
    {name base : String} :
    (c.assembled types).base? name = some base ↔
      Registry.defaultPrefixes.get? name = some base ∨ c.prefixes.get? name = some base := by
  have all : (c.assembled types).base? name =
      (c.prefixes.get? name).or (Registry.defaultPrefixes.get? name) := by
    rw [← c.start_prefixes]
    exact Table.From.get?_addAll _ _ _
  rw [all]
  cases hc : c.prefixes.get? name with
  | none => simp
  | some base' => simp [h.names name base' hc]

theorem Applicable.entry?_assembled (h : c.Applicable) {uri : String} {e : Entry} :
    Registry.entry? (c.assembled c.types) uri = some e ↔
      (c.loadCore = true ∧ ∃ k : CoreKind, uri = k.uri ∧ e = .kind (.core k)) ∨
        ∃ t ∈ c.types, t.uri = uri ∧ e = .learned t.schema := by
  have learned : (c.start.withPrefixes c.prefixes).CanLearn c.types :=
    ⟨h.distinct, fun t ht => start_entry?_eq_none_iff.2 fun core k => h.free core t ht k,
      h.compiles⟩
  rw [← start_entry?_eq_some_iff]
  exact learned.entry?_withTypes

/-- The order of the types makes no difference to what is built. -/
theorem Applicable.same_of_perm (h : c.Applicable) {types : List LearnedType}
    (h' : { c with types := types }.Applicable) (perm : types.Perm c.types) :
    (c.assembled c.types).Same (assembled { c with types := types } types) where
  prefixes := Table.From.ext_get? fun name => Option.ext fun base =>
    h.base?_assembled.trans h'.base?_assembled.symm
  entry uri := Option.ext fun e => by
    refine h.entry?_assembled.trans (Iff.trans ?_ h'.entry?_assembled.symm)
    simp only [perm.mem_iff]

/-! ## What is blamed -/

theorem mem_types_withTypes_iff {uri : String} {k : Kind} {types : List LearnedType} :
    (uri, .kind k) ∈ (r.withTypes types).types ↔ (uri, .kind k) ∈ r.types := by
  induction types generalizing r with
  | nil => rfl
  | cons t types ih =>
    rw [Registry.withTypes_cons, ih, List.mem_cons]
    exact ⟨fun h => h.resolve_left fun he => (nomatch he), .inr⟩

/-- A configuration brings in no kinds of a user's own. -/
theorem userErrors_assembled (c : Config) (types : List LearnedType) :
    Registry.UserErrors (fun _ => False) (c.assembled types).types := by
  intro uri k hk
  rw [assembled, mem_types_withTypes_iff] at hk
  have hk : (uri, .kind (.custom k)) ∈ c.start.types := hk
  unfold start at hk
  split at hk
  · obtain ⟨core, _, he⟩ := List.mem_map.1 hk
    cases he
  · cases hk

/-- A step that is refused is not so for the fault of a configuration. -/
theorem isConfig_of_run_error (users : Registry.UserErrors (fun _ => False) r.types) {s : Step}
    {e : SchemaError} (h : (s.run r).result = .error e) : e.isConfig = false := by
  cases s with
  | addPrefix name base =>
    simp only [Step.run, Registry.addPrefix] at h
    split at h <;> cases h
    rfl
  | register k =>
    simp only [Step.run, Registry.register] at h
    split at h <;> cases h
    rfl
  | learn uri schema =>
    simp only [Step.run, Registry.learn] at h
    split at h
    · cases h
      rfl
    cases hc : (r.compile schema).result with
    | ok n =>
      rw [Logged.bind_of_ok hc] at h
      cases h
    | error e' =>
      rw [Logged.bind_of_error hc] at h
      cases h
      exact ((Registry.compile_confined users schema).error _ hc).resolve_right id

theorem CutBefore.start_eq {s : Step} {c' : Config} (h : c.CutBefore s c') :
    c'.start = c.start := by
  cases h <;> rfl

/-- What is left of a configuration cut off are the steps in front of the cut. -/
theorem CutBefore.steps_eq {s : Step} {c' : Config} (h : c.CutBefore s c') :
    ∃ rest, c.steps = c'.steps ++ s :: rest := by
  cases h with
  | @ofPrefix name base h =>
    obtain ⟨before, after, hb⟩ := List.append_of_mem ((Table.From.get?_eq_some_iff _).1 h)
    simp only [steps, Table.From.toList_filterKeys_lt hb, hb, List.map_append, List.map_cons,
      List.map_nil, List.append_nil, List.append_assoc, List.cons_append]
    exact ⟨_, rfl⟩
  | ofType h =>
    simp only [steps, h, List.map_append, List.map_cons, List.append_assoc]
    exact ⟨_, rfl⟩

theorem exists_cut {done rest : List Step} {s : Step} (h : c.steps = done ++ s :: rest) :
    ∃ c', c.CutBefore s c' ∧ c'.steps = done := by
  rw [steps, List.append_eq_append_iff] at h
  rcases h with ⟨learned, rfl, ht⟩ | ⟨later, hp, ht⟩
  · obtain ⟨before, _, hc, rfl, hs⟩ := List.map_eq_append_iff.1 ht
    obtain ⟨t, after, rfl, rfl, _⟩ := List.map_eq_cons_iff.1 hs
    exact ⟨_, .ofType hc, rfl⟩
  · cases later with
    | nil =>
      obtain ⟨t, after, hc, rfl, _⟩ := List.map_eq_cons_iff.1 ht.symm
      have hc : c.types = [] ++ t :: after := hc
      refine ⟨_, .ofType hc, ?_⟩
      simpa [steps] using hp
    | cons s' later =>
      cases ht
      obtain ⟨before, _, hc, rfl, hs⟩ := List.map_eq_append_iff.1 hp
      obtain ⟨⟨name, base⟩, after, rfl, rfl, _⟩ := List.map_eq_cons_iff.1 hs
      have found : c.prefixes.get? name = some base :=
        (Table.From.get?_eq_some_iff _).2 (hc ▸ by simp)
      refine ⟨_, .ofPrefix found, ?_⟩
      simp only [steps, Table.From.toList_filterKeys_lt hc, List.map_nil, List.append_nil]

/-- The error of a configuration that cannot be applied tells of the first entry of which that
is so, and of what is wrong with it where all entries before it are there. -/
theorem build_error_iff_cut {e : SchemaError} :
    c.build.result = .error e ↔
      ∃ s c' r source, c.CutBefore s c' ∧ c'.build.result = .ok r ∧
        (s.run r).result = .error source ∧ e = .config s.key source ∧ source.isConfig = false := by
  rw [build_error_iff]
  refine ⟨fun h => ?_, fun h => ?_⟩
  · obtain ⟨done, s, rest, r, source, hc, hd, hs, he⟩ := h
    obtain ⟨c', cut, rfl⟩ := exists_cut hc
    have built := build_ok_iff.2 (cut.start_eq.symm ▸ hd)
    obtain ⟨_, rfl⟩ := build_ok_iff_applicable.1 built
    have plain := isConfig_of_run_error (userErrors_assembled c' c'.types) hs
    exact ⟨s, c', _, source, cut, built, hs, he, plain⟩
  · obtain ⟨s, c', r, source, cut, built, hs, he, _⟩ := h
    obtain ⟨rest, hc⟩ := cut.steps_eq
    exact ⟨c'.steps, s, rest, r, source, hc, cut.start_eq ▸ build_ok_iff.1 built, hs, he⟩

/-- What comes of a configuration. A registry is built exactly if the configuration can be
applied, and it holds the core kinds if they are loaded, the prefixes and the types, in whatever
order the types were. Otherwise the error is that of the first entry that cannot be applied. -/
theorem build_outcome (c : Config) :
    ((∃ r, c.build.result = .ok r) ↔ c.Applicable) ∧
    (∀ r, c.build.result = .ok r →
      (∀ name base, r.base? name = some base ↔
        Registry.defaultPrefixes.get? name = some base ∨ c.prefixes.get? name = some base) ∧
      (∀ uri e, r.entry? uri = some e ↔
        (c.loadCore = true ∧ ∃ k : CoreKind, uri = k.uri ∧ e = .kind (.core k)) ∨
          ∃ t ∈ c.types, t.uri = uri ∧ e = .learned t.schema) ∧
      ∀ types r', types.Perm c.types → { c with types := types }.build.result = .ok r' →
        r.Same r' ∧ r.compile = r'.compile) ∧
    ∀ e, c.build.result = .error e ↔
      ∃ s c' r source, c.CutBefore s c' ∧ c'.build.result = .ok r ∧
        (s.run r).result = .error source ∧ e = .config s.key source ∧
        source.isConfig = false := by
  refine ⟨?_, fun r hr => ?_, fun e => build_error_iff_cut⟩
  · simp only [build_ok_iff_applicable, exists_and_left, exists_eq, and_true]
  · obtain ⟨h, rfl⟩ := build_ok_iff_applicable.1 hr
    refine ⟨fun _ _ => h.base?_assembled, fun _ _ => h.entry?_assembled, ?_⟩
    intro types r' perm hr'
    have sound := (Registry.Reachable.built hr).sound
    have sound' := (Registry.Reachable.built hr').sound
    obtain ⟨h', rfl⟩ := build_ok_iff_applicable.1 hr'
    have same := h.same_of_perm h' perm
    exact ⟨same, same.compile_eq sound sound'⟩

/-- Two types of which the second names the first. In this order they are learned, and in the other
order the one that names the other is blamed. -/
theorem build_outcome_of_two_orders :
    let named : LearnedType := ⟨"tag:a:n", .string "//nil"⟩
    let naming : LearnedType := ⟨"tag:a:m", .string "/ex/n"⟩
    let c : Config := ⟨true, Table.ofList [("ex", "tag:a:")], [named, naming]⟩
    let c' : Config := { c with types := [naming, named] }
    (c.Applicable ∧ ∃ r, c.build.result = .ok r ∧ r.base? "ex" = some "tag:a:" ∧
      r.entry? CoreKind.nil.uri = some (.kind (.core .nil)) ∧
      r.entry? "tag:a:m" = some (.learned (.string "/ex/n"))) ∧
    ¬ c'.Applicable ∧
      c'.build.result = .error (.config (.ofType "tag:a:m") (.unknownType "tag:a:n")) := by
  intro named naming c c'
  obtain ⟨builds, tables, -⟩ := build_outcome c
  obtain ⟨r, hr⟩ : ∃ r, c.build.result = .ok r := ⟨_, rfl⟩
  obtain ⟨prefixes, entries, -⟩ := tables r hr
  obtain ⟨builds', -, blames⟩ := build_outcome c'
  have cut : c'.CutBefore (.learn naming.uri naming.schema) { c with types := [] } :=
    @CutBefore.ofType c' [] [named] naming rfl
  have blamed : c'.build.result = .error (.config (.ofType "tag:a:m") (.unknownType "tag:a:n")) :=
    (blames _).2 ⟨_, _, _, _, cut, rfl, rfl, rfl, rfl⟩
  refine ⟨⟨builds.1 ⟨r, hr⟩, r, hr, (prefixes _ _).2 (.inr rfl),
    (entries _ _).2 (.inl ⟨rfl, .nil, rfl, rfl⟩),
    (entries _ _).2 (.inr ⟨naming, by simp [c], rfl, rfl⟩)⟩, fun h => ?_, blamed⟩
  obtain ⟨_, h⟩ := builds'.2 h
  cases blamed.symm.trans h

end Config

end Conform
