/-
Learned types cannot go in circles. Whatever the schema of a learned type names,
at any depth, is registered and older than the type (`Registry.Sound.rank_lt`).
So whoever goes from a schema to the schemas inside it, and from a learned type
to its schema, comes to an end (`Registry.Sound.calls_wellFounded`), and whoever
goes from learned type to learned type comes to a kind.

The node that a schema is compiled to is made by that kind. Its URI is the kind's
own for a core kind, and for a user's kind if the kind keeps to its URI, which is
for the user to see to (`Kind.Stamps`).
-/
import Conform.Proofs.Compile.Outcome
import Conform.Proofs.Registry.Sound

namespace Conform

def schemaName? (schema : Value) : Option String := (schemaMembers? schema).bind typeName?

namespace Registry

variable {r : Registry} {uri : String}

/-- A schema stands in a schema, at any depth or as the whole of it. -/
inductive Occurs (r : Registry) (inner : Value) : Value → Prop
  | here : Occurs r inner inner
  | inside {uri : String} {schema part : Value} {members : Table Value} {k : Kind}
      (hs : r.resolve schema = .ok ⟨uri, members, .kind k⟩) (hp : part ∈ k.inner members)
      (h : Occurs r inner part) : Occurs r inner schema

/-- A schema is compiled on the way of compiling another: it stands directly
inside, or it is the schema of the learned type that the other one names. -/
inductive Calls (r : Registry) : Value → Value → Prop
  | inside {uri : String} {schema part : Value} {members : Table Value} {k : Kind}
      (hs : r.resolve schema = .ok ⟨uri, members, .kind k⟩) (hp : part ∈ k.inner members) :
      Calls r part schema
  | learned {uri : String} {schema stored : Value} {members : Table Value}
      (hs : r.resolve schema = .ok ⟨uri, members, .learned stored⟩) : Calls r stored schema

/-- A URI leads to a kind, from learned type to learned type. -/
inductive EndsIn (r : Registry) : String → Kind → Prop
  | kind {uri : String} {k : Kind} (h : r.entry? uri = some (.kind k)) : EndsIn r uri k
  | learned {uri : String} {stored : Value} {t : Referent} {k : Kind}
      (h : r.entry? uri = some (.learned stored)) (hs : r.resolve stored = .ok t)
      (next : EndsIn r t.uri k) : EndsIn r uri k

/-! ## Older types -/

/-- How many types there are up to a URI, from the oldest on. -/
def age : List (String × Entry) → String → Nat
  | [], _ => 0
  | (u, _) :: older, uri => if u = uri then older.length + 1 else age older uri

/-- How many types had been registered when a URI had. -/
def rank (r : Registry) (uri : String) : Nat := age r.types uri

theorem age_le_length (types : List (String × Entry)) (uri : String) :
    age types uri ≤ types.length := by
  induction types with
  | nil => exact Nat.le_refl 0
  | cons t older ih =>
    rw [age, List.length_cons]
    split
    · exact Nat.le_refl _
    · omega

theorem ne_of_fresh {prefixes : Table String} {older : List (String × Entry)} {u : String}
    {m : Meaning} (fresh : older.lookup uri = none) (h : meaningIn prefixes older u = some m) :
    uri ≠ u := by
  intro he
  rw [← he, meaningIn_of_fresh fresh] at h
  cases h

/-- Some of the types are older than a learned type, and its schema compiles among them. -/
structure CompilesAmong (prefixes : Table String) (types : List (String × Entry)) (uri : String)
    (stored : Value) (older : List (String × Entry)) : Prop where
  larger : (scopeIn prefixes types).Extends (scopeIn prefixes older)
  compiles : ∃ n, ((scopeIn prefixes older).compile stored).result = .ok n
  lt : ∀ {u m}, meaningIn prefixes older u = some m → age types u < age types uri

section

variable {prefixes : Table String} {older older' : List (String × Entry)} {u : String} {e : Entry}
  {stored : Value}

theorem CompilesAmong.newest {n : Node} (fresh : older.lookup u = none)
    (hn : ((scopeIn prefixes older).compile stored).result = .ok n) :
    CompilesAmong prefixes ((u, e) :: older) u stored older where
  larger := extends_cons fresh
  compiles := ⟨n, hn⟩
  lt {v m} hm := by
    rw [age, if_neg (ne_of_fresh fresh hm), age, if_pos rfl]
    have := age_le_length older v
    omega

theorem CompilesAmong.cons (fresh : older.lookup u = none) (hne : u ≠ uri)
    (h : CompilesAmong prefixes older uri stored older') :
    CompilesAmong prefixes ((u, e) :: older) uri stored older' where
  larger := (extends_cons fresh).trans h.larger
  compiles := h.compiles
  lt {v m} hm := by
    rw [age, if_neg (ne_of_fresh fresh (h.larger.meaning hm)), age, if_neg hne]
    exact h.lt hm

end

/-- A learned schema compiles among types that are all older than its own. -/
theorem SoundTypes.exists_older {prefixes : Table String} {types : List (String × Entry)}
    (sound : SoundTypes prefixes types) {stored : Value}
    (h : types.lookup uri = some (.learned stored)) :
    ∃ older, CompilesAmong prefixes types uri stored older := by
  induction sound with
  | nil => cases h
  | kind fresh _ ih =>
    rw [lookup_cons_eq] at h
    split at h
    · cases h
    · next hne =>
      obtain ⟨older', h⟩ := ih h
      exact ⟨older', h.cons fresh hne⟩
  | @learned u _ _ older fresh hn _ ih =>
    rw [lookup_cons_eq] at h
    split at h
    · next he =>
      cases h
      subst he
      exact ⟨older, .newest fresh hn⟩
    · next hne =>
      obtain ⟨older', h⟩ := ih h
      exact ⟨older', h.cons fresh hne⟩

/-- What stands in a schema that compiles among older types compiles among them. -/
theorem Sound.compiles_of_occurs (sound : r.Sound) {older : List (String × Entry)}
    (larger : r.scope.Extends (scopeIn r.prefixes older)) {schema inner : Value} {n : Node}
    (hn : ((scopeIn r.prefixes older).compile schema).result = .ok n)
    (h : r.Occurs inner schema) :
    ∃ m, ((scopeIn r.prefixes older).compile inner).result = .ok m := by
  induction h generalizing n with
  | here => exact ⟨n, hn⟩
  | @inside uri schema part members k hs hp _ ih =>
    obtain ⟨name, hm, hname, hu, he⟩ := resolve_ok_iff.1 hs
    obtain ⟨members', name', uri', hm', hname', hu', h⟩ := Scope.exists_meaning_of_ok hn
    cases hm.symm.trans hm'
    cases hname.symm.trans hname'
    cases hu.symm.trans hu'
    have known := sound.meaning_of_entry he
    rcases h with ⟨k', hk, h⟩ | ⟨node, hnode, _⟩
    · cases known.symm.trans (larger.meaning hk)
      obtain ⟨m, hm⟩ := Kind.inner_ok_of_construct_ok h hp
      exact ih hm
    · cases known.symm.trans (larger.meaning hnode)

/-- What stands in the schema of a learned type names an older type. -/
theorem Sound.rank_lt (sound : r.Sound) {stored schema : Value}
    (h : r.entry? uri = some (.learned stored)) (hs : r.Occurs schema stored) :
    ∃ t, r.resolve schema = .ok t ∧ r.rank t.uri < r.rank uri := by
  obtain ⟨older, larger, ⟨n, hn⟩, lt⟩ := SoundTypes.exists_older sound h
  obtain ⟨m, hm⟩ := sound.compiles_of_occurs larger hn hs
  obtain ⟨members, name, u, hmembers, hname, hu, h⟩ := Scope.exists_meaning_of_ok hm
  have ⟨m, hm⟩ : ∃ m, meaningIn r.prefixes older u = some m := by
    rcases h with ⟨k, hk, _⟩ | ⟨node, hnode, _⟩
    · exact ⟨_, hk⟩
    · exact ⟨_, hnode⟩
  have known : some m = (r.entry? u).map (Entry.meaning r.compile) :=
    (larger.meaning hm).symm.trans (SoundTypes.meaningIn_eq sound u)
  obtain ⟨e, he, _⟩ := Option.map_eq_some_iff.1 known.symm
  exact ⟨⟨u, members, e⟩, resolve_ok_iff.2 ⟨name, hmembers, hname, hu, he⟩, lt hm⟩

/-! ## Coming to an end -/

/-- Compiling a schema comes to an end if compiling the learned types named in it does. -/
theorem acc_of_learned {schema : Value}
    (h : ∀ {inner uri members stored}, r.Occurs inner schema →
      r.resolve inner = .ok ⟨uri, members, .learned stored⟩ → Acc r.Calls stored) :
    Acc r.Calls schema := by
  induction hd : schema.depth using Nat.strongRecOn generalizing schema with
  | ind d ih =>
    refine ⟨_, fun called hc => ?_⟩
    cases hc with
    | inside hs hp =>
      obtain ⟨_, hm, _⟩ := resolve_ok_iff.1 hs
      refine ih called.depth (hd ▸ depth_lt_of_mem_inner hm hp) ?_ rfl
      exact fun hi => h (.inside hs hp hi)
    | learned hs => exact h .here hs

theorem Sound.acc_stored (sound : r.Sound) {stored : Value}
    (h : r.entry? uri = some (.learned stored)) : Acc r.Calls stored := by
  induction hr : r.rank uri using Nat.strongRecOn generalizing uri stored with
  | ind d ih =>
    refine acc_of_learned fun {inner u members stored'} hi hs => ?_
    obtain ⟨t, ht, lt⟩ := sound.rank_lt h hi
    cases hs.symm.trans ht
    obtain ⟨_, _, _, _, he⟩ := resolve_ok_iff.1 hs
    exact ih _ (hr ▸ lt) he rfl

/-- No schema is compiled on the way of compiling itself, and there is no endless
way from one to the next. -/
theorem Sound.calls_wellFounded (sound : r.Sound) : WellFounded r.Calls := by
  refine ⟨fun schema => acc_of_learned fun _ hs => ?_⟩
  obtain ⟨_, _, _, _, he⟩ := resolve_ok_iff.1 hs
  exact sound.acc_stored he

/-- Compiling a schema uses nothing but what the schemas it calls compile to. -/
theorem unfold_congr {sub sub' : Value → Logged Node} {schema : Value}
    (h : ∀ called, r.Calls called schema → sub called = sub' called) :
    r.unfold sub schema = r.unfold sub' schema := by
  unfold unfold
  cases hs : r.resolve schema with
  | error e => rfl
  | ok t =>
    obtain ⟨uri, members, e⟩ := t
    rw [Logged.ofExcept_ok, pure_bind, pure_bind]
    refine Logged.Comparison.identity.bind_right _ fun _ => ?_
    cases e with
    | kind k =>
      exact Kind.construct_holds (c := .identity) fun part hp => h part (.inside hs hp)
    | learned stored =>
      dsimp only
      rw [h stored (.learned hs)]
      exact Logged.Comparison.identity.refl _

/-- There is one way only to compile schemas level by level. -/
theorem Sound.eq_compile_iff (sound : r.Sound) {f : Value → Logged Node} :
    (∀ schema, f schema = r.unfold f schema) ↔ f = r.compile := by
  refine ⟨fun h => ?_, fun h schema => h ▸ sound.compile_eq_unfold schema⟩
  funext schema
  induction schema using sound.calls_wellFounded.induction with
  | _ schema ih =>
    rw [h schema, sound.compile_eq_unfold schema]
    exact unfold_congr ih

/-! ## The kind at the end -/

theorem Sound.uri_of_kind (sound : r.Sound) {k : Kind} (h : r.entry? uri = some (.kind k)) :
    k.uri = uri := by
  unfold Sound at sound
  unfold entry? at h
  generalize r.types = types, r.prefixes = prefixes at sound h
  induction sound with
  | nil => cases h
  | kind _ _ ih =>
    rw [lookup_cons_eq] at h
    split at h
    · next he => cases h; exact he
    · exact ih h
  | learned _ _ _ ih =>
    rw [lookup_cons_eq] at h
    split at h
    · cases h
    · exact ih h

theorem Sound.exists_endsIn (sound : r.Sound) {e : Entry} (h : r.entry? uri = some e) :
    ∃ k, r.EndsIn uri k := by
  induction hr : r.rank uri using Nat.strongRecOn generalizing uri e with
  | ind d ih =>
    cases e with
    | kind k => exact ⟨k, .kind h⟩
    | learned stored =>
      obtain ⟨t, hs, lt⟩ := sound.rank_lt h .here
      obtain ⟨_, _, _, _, he⟩ := resolve_ok_iff.1 hs
      obtain ⟨k, hk⟩ := ih _ (hr ▸ lt) he rfl
      exact ⟨k, .learned h hs hk⟩

/-- A URI leads to one kind only. -/
theorem EndsIn.unique {k k' : Kind} (h : r.EndsIn uri k) (h' : r.EndsIn uri k') : k = k' := by
  induction h with
  | kind he =>
    cases h' with
    | kind he' => cases he.symm.trans he'; rfl
    | learned he' _ _ => cases he.symm.trans he'
  | learned he hs _ ih =>
    cases h' with
    | kind he' => cases he.symm.trans he'
    | learned he' hs' next' =>
      cases he.symm.trans he'
      cases hs.symm.trans hs'
      exact ih next'

theorem EndsIn.entry?_uri {k : Kind} (sound : r.Sound) (h : r.EndsIn uri k) :
    r.entry? k.uri = some (.kind k) := by
  induction h with
  | kind he => rwa [sound.uri_of_kind he]
  | learned _ _ _ ih => exact ih

/-- A node is made by the kind to which the type name of its schema leads. -/
theorem Sound.made_of_compile_ok (sound : r.Sound) {schema : Value} {n : Node}
    (hn : (r.compile schema).result = .ok n) :
    ∃ t k members, r.resolve schema = .ok t ∧ r.EndsIn t.uri k ∧
      (k.construct r.compile members).result = .ok n := by
  induction schema using sound.calls_wellFounded.induction with
  | _ schema ih =>
    obtain ⟨⟨uri, members, e⟩, hs⟩ := sound.resolve_of_compile_ok hn
    obtain ⟨_, _, _, _, he⟩ := resolve_ok_iff.1 hs
    cases e with
    | kind k =>
      rw [sound.compile_kind hs] at hn
      exact ⟨_, k, members, hs, .kind he, hn⟩
    | learned stored =>
      rw [sound.compile_learned hs] at hn
      split at hn
      · cases hn
      obtain ⟨t, k, members', ht, hk, made⟩ := ih stored (.learned hs) hn
      exact ⟨_, k, members', hs, .learned he ht hk, made⟩

/-- What keeps learned types from going in circles. -/
structure AliasSafe (r : Registry) : Prop where
  /-- Every learned schema compiles. -/
  stored_compiles : ∀ {uri stored}, r.entry? uri = some (.learned stored) →
    ∃ n, (r.compile stored).result = .ok n
  /-- Types can be ranked so that every schema in a learned schema, at any depth, names
  a registered type of lower rank. -/
  ranked : ∃ rank : String → Nat, ∀ {uri stored schema}, r.entry? uri = some (.learned stored) →
    r.Occurs schema stored → ∃ name u, schemaName? schema = some name ∧ r.expand name = .ok u ∧
      r.hasType u = true ∧ rank u < rank uri
  /-- Compiling a schema level by level uses only what the schemas it calls compile to. -/
  only_calls : ∀ {sub sub' schema}, (∀ called, r.Calls called schema → sub called = sub' called) →
    r.unfold sub schema = r.unfold sub' schema
  /-- There is no endless way from a schema to one that it calls, and on. -/
  ends : WellFounded r.Calls
  /-- Compiling is what compiling level by level comes to. -/
  compile_unique : ∀ {f : Value → Logged Node},
    (∀ schema, f schema = r.unfold f schema) ↔ f = r.compile
  /-- A kind is registered under its own URI. -/
  kind_uri : ∀ {uri k}, r.entry? uri = some (.kind k) → k.uri = uri
  /-- Every URI leads to a kind, and to no other. -/
  ends_in_kind : ∀ {uri}, r.hasType uri = true → ∃! k, r.EndsIn uri k
  /-- A node is made by the kind to which its schema's type leads. It has the URI of the kind, if
  the kind keeps to that, so that it is never the URI of a learned type. -/
  node_uri : ∀ {schema n}, (r.compile schema).result = .ok n →
    ∃ name uri k members, schemaName? schema = some name ∧ r.expand name = .ok uri ∧
      r.EndsIn uri k ∧ r.entry? k.uri = some (.kind k) ∧
      (k.construct r.compile members).result = .ok n ∧ (k.Stamps → n.uri = k.uri)

theorem schemaName?_of_resolve {schema : Value} {t : Referent} (h : r.resolve schema = .ok t) :
    ∃ name, schemaName? schema = some name ∧ r.expand name = .ok t.uri := by
  obtain ⟨name, hm, hn, hu, _⟩ := resolve_ok_iff.1 h
  exact ⟨name, by rw [schemaName?, hm]; exact hn, hu⟩

/-- In every registry that can be set up, learned types are safe. -/
theorem aliasSafe_of_reachable (h : r.Reachable) : r.AliasSafe where
  stored_compiles he := SoundTypes.compiles h.sound he
  ranked := by
    refine ⟨r.rank, fun he ho => ?_⟩
    obtain ⟨t, ht, lt⟩ := h.sound.rank_lt he ho
    obtain ⟨name, hn, hu⟩ := schemaName?_of_resolve ht
    obtain ⟨_, _, _, _, hent⟩ := resolve_ok_iff.1 ht
    exact ⟨name, t.uri, hn, hu, by rw [hasType, hent]; rfl, lt⟩
  only_calls := unfold_congr
  ends := h.sound.calls_wellFounded
  compile_unique := h.sound.eq_compile_iff
  kind_uri := h.sound.uri_of_kind
  ends_in_kind {uri} hu := by
    obtain ⟨e, he⟩ := Option.isSome_iff_exists.1 hu
    obtain ⟨k, hk⟩ := h.sound.exists_endsIn he
    exact ⟨k, hk, fun _ hk' => hk'.unique hk⟩
  node_uri hn := by
    obtain ⟨t, k, members, ht, hk, made⟩ := h.sound.made_of_compile_ok hn
    obtain ⟨name, hname, hexp⟩ := schemaName?_of_resolve ht
    exact ⟨name, t.uri, k, members, hname, hexp, hk, hk.entry?_uri h.sound, made,
      fun stamps => Kind.uri_of_construct_ok stamps made⟩

/-- A user's kind, which takes no parameters and accepts even whole numbers. -/
def evens : CustomKind where
  uri := "tag:example.com,2026:even"
  construct members := do
    checkParameters members "tag:example.com,2026:even" []
    .ok (.custom "tag:example.com,2026:even" fun v =>
      match v with
      | .number (.int n) =>
        if n.toInt % 2 = 0 then .ok () else .error ⟨"expected even got " ++ v.text, "/even"⟩
      | _ => .error ⟨"expected even got " ++ v.text, "/even"⟩)

theorem evens_stamps : (Kind.custom evens).Stamps := by
  intro members n h
  simp only [evens, bind, Except.bind] at h
  split at h
  · cases h
  · cases h
    rfl

/-- A registry with a user's kind, where one learned type names another that names the kind, and
where the second could not be learned again. A schema that leads to the kind has its URI. -/
theorem aliasSafe_of_two_learned :
    let points := .map (Table.ofList [("type", .string "//arr"), ("contents", .string "tag:a")])
    let r := core.run [.register (.custom evens), .learn "tag:a" (.string evens.uri),
      .learn "tag:b" points, .learn "tag:b" (.string "//nil")]
    r.Reachable ∧ r.entry? "tag:b" = some (.learned points) ∧ r.AliasSafe ∧
      ∃ n, (r.compile (.string "tag:a")).result = .ok n ∧ n.uri = evens.uri := by
  intro points r
  have h : r.Reachable := .run .core _
  have safe := aliasSafe_of_reachable h
  have compiles : ∃ n, (r.compile (.string "tag:a")).result = .ok n := ⟨_, rfl⟩
  obtain ⟨n, hn⟩ := compiles
  refine ⟨h, rfl, safe, n, hn, ?_⟩
  obtain ⟨name, uri, k, members, hname, hu, hk, -, -, stamped⟩ := safe.node_uri hn
  cases hname
  cases hu
  have there : r.EndsIn "tag:a" (.custom evens) := .learned rfl rfl (.kind rfl)
  cases hk.unique there
  exact stamped evens_stamps

-- a kind that does not keep to its URI makes nodes of any other
example : ((core.run [.register (.custom ⟨"tag:a", fun _ => .ok .nil⟩)]).compile
    (.string "tag:a")).result.map Node.uri = .ok CoreKind.nil.uri := rfl

end Registry

end Conform
