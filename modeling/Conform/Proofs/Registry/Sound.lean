/-
The invariant of registries. Each URI is registered once, each kind under its
own URI, and each learned schema compiles in the scope of the types older than
its own (`Registry.Sound`). Every registry that can be reached is sound.

What a learned schema compiled to once it compiles to ever after: a new type
takes the place of no older one, and prefixes keep their meaning. So it does not
matter that learned schemas are compiled among older types. In a sound registry
a schema compiles as if each learned type stood for its schema, compiled among
all types (`Registry.Sound.compile_eq_unfold`).
-/
import Conform.Proofs.Compile.Unfolding
import Conform.Proofs.Registry.Step

namespace Conform

namespace Registry

/-- The scope of some of the types that are registered. -/
def scopeIn (prefixes : Table String) (types : List (String × Entry)) : Scope :=
  ⟨prefixes, meaningIn prefixes types⟩

/-- Types that can have been registered one after another. -/
inductive SoundTypes (prefixes : Table String) : List (String × Entry) → Prop
  | nil : SoundTypes prefixes []
  | kind {k : Kind} {older : List (String × Entry)} (fresh : older.lookup k.uri = none)
      (sound : SoundTypes prefixes older) : SoundTypes prefixes ((k.uri, .kind k) :: older)
  | learned {uri : String} {schema : Value} {n : Node} {older : List (String × Entry)}
      (fresh : older.lookup uri = none)
      (compiles : ((scopeIn prefixes older).compile schema).result = .ok n)
      (sound : SoundTypes prefixes older) :
      SoundTypes prefixes ((uri, .learned schema) :: older)

/-- The invariant of registries. -/
def Sound (r : Registry) : Prop := SoundTypes r.prefixes r.types

/-! ## Meanings among more and more types -/

variable {prefixes prefixes' : Table String} {types older : List (String × Entry)} {uri : String}

theorem meaningIn_kind (u : String) (k : Kind) :
    meaningIn prefixes ((u, .kind k) :: older) uri =
      if u = uri then some (.kind k) else meaningIn prefixes older uri := rfl

theorem meaningIn_learned (u : String) (schema : Value) :
    meaningIn prefixes ((u, .learned schema) :: older) uri =
      if u = uri then some (.learned ((scopeIn prefixes older).compile schema))
      else meaningIn prefixes older uri := rfl

theorem meaningIn_of_ne {u : String} (e : Entry) (h : u ≠ uri) :
    meaningIn prefixes ((u, e) :: older) uri = meaningIn prefixes older uri :=
  if_neg h

theorem lookup_cons_eq (u : String) (e : Entry) :
    ((u, e) :: older).lookup uri = if u = uri then some e else older.lookup uri := by
  rw [List.lookup_cons]
  by_cases h : u = uri
  · simp [h]
  · have h' : (uri == u) = false := by simpa using Ne.symm h
    rw [if_neg h, h']

theorem meaningIn_of_fresh (h : types.lookup uri = none) : meaningIn prefixes types uri = none := by
  induction types with
  | nil => rfl
  | cons t older ih =>
    rw [lookup_cons_eq] at h
    split at h
    · cases h
    · next hne => rw [meaningIn_of_ne _ hne]; exact ih h

/-- A type under a fresh URI takes no meaning away. -/
theorem extends_cons {e : Entry} (fresh : older.lookup uri = none) :
    (scopeIn prefixes ((uri, e) :: older)).Extends (scopeIn prefixes older) where
  prefixes h := h
  meaning {u m} h := by
    have h : meaningIn prefixes older u = some m := h
    have hne : uri ≠ u := by
      intro he
      subst he
      rw [meaningIn_of_fresh fresh] at h
      cases h
    exact (meaningIn_of_ne e hne).trans h

/-- More prefixes change nothing for types that are sound. -/
theorem SoundTypes.more_prefixes (sound : SoundTypes prefixes types)
    (h : ∀ {name base}, prefixes.get? name = some base → prefixes'.get? name = some base) :
    SoundTypes prefixes' types ∧ meaningIn prefixes' types = meaningIn prefixes types := by
  induction sound with
  | nil => exact ⟨.nil, rfl⟩
  | @kind k older fresh _ ih =>
    refine ⟨.kind fresh ih.1, ?_⟩
    funext u
    rw [meaningIn_kind, meaningIn_kind, ih.2]
  | @learned uri schema n older fresh compiles _ ih =>
    have larger : (scopeIn prefixes' older).Extends (scopeIn prefixes older) :=
      ⟨h, fun hm => (congrFun ih.2 _).trans hm⟩
    have same := Scope.compile_eq_of_ok larger compiles
    refine ⟨.learned fresh (same ▸ compiles) ih.1, ?_⟩
    funext u
    rw [meaningIn_learned, meaningIn_learned, ih.2, same]

/-- A learned schema compiles among all types. -/
theorem SoundTypes.compiles (sound : SoundTypes prefixes types) {schema : Value}
    (h : types.lookup uri = some (.learned schema)) :
    ∃ n, ((scopeIn prefixes types).compile schema).result = .ok n := by
  -- by induction on the types: what compiles among the older ones compiles among all
  have keep {u e older n} (fresh : older.lookup u = none)
      (hn : ((scopeIn prefixes older).compile schema).result = .ok n) :
      ∃ n, ((scopeIn prefixes ((u, e) :: older)).compile schema).result = .ok n :=
    ⟨n, by rw [Scope.compile_eq_of_ok (extends_cons fresh) hn, hn]⟩
  induction sound with
  | nil => cases h
  | kind fresh _ ih =>
    rw [lookup_cons_eq] at h
    split at h
    · cases h
    · obtain ⟨n, hn⟩ := ih h; exact keep fresh hn
  | learned fresh hn _ ih =>
    rw [lookup_cons_eq] at h
    split at h
    · cases h; exact keep fresh hn
    · obtain ⟨n, hn⟩ := ih h; exact keep fresh hn

/-- What an entry means where schemas are compiled by a function. -/
def Entry.meaning (sub : Value → Logged Node) : Entry → Meaning
  | .kind k => .kind k
  | .learned schema => .learned (sub schema)

/-- A type under a fresh URI leaves older entries their meanings. -/
theorem SoundTypes.map_meaning_cons (sound : SoundTypes prefixes older) {u : String} {e : Entry}
    (fresh : older.lookup u = none) :
    (older.lookup uri).map (Entry.meaning (scopeIn prefixes ((u, e) :: older)).compile) =
      (older.lookup uri).map (Entry.meaning (scopeIn prefixes older).compile) := by
  cases h : older.lookup uri with
  | none => rfl
  | some entry =>
    cases entry with
    | kind k => rfl
    | learned schema =>
      obtain ⟨n, hn⟩ := sound.compiles h
      simp only [Option.map_some, Entry.meaning, Scope.compile_eq_of_ok (extends_cons fresh) hn]

/-- A learned type means its schema, compiled among all types. -/
theorem SoundTypes.meaningIn_eq (sound : SoundTypes prefixes types) (uri : String) :
    meaningIn prefixes types uri =
      (types.lookup uri).map (Entry.meaning (scopeIn prefixes types).compile) := by
  induction sound with
  | nil => rfl
  | kind fresh sound ih =>
    rw [meaningIn_kind, lookup_cons_eq]
    split
    · rfl
    · rw [ih, sound.map_meaning_cons fresh]
  | learned fresh compiles sound ih =>
    rw [meaningIn_learned, lookup_cons_eq]
    split
    · rw [Option.map_some, Entry.meaning, Scope.compile_eq_of_ok (extends_cons fresh) compiles]
    · rw [ih, sound.map_meaning_cons fresh]

/-! ## Reachable registries are sound -/

theorem SoundTypes.of_kinds {ks : List Kind} (h : (ks.map Kind.uri).Nodup) :
    SoundTypes prefixes (ks.map fun k => (k.uri, .kind k)) := by
  induction ks with
  | nil => exact .nil
  | cons k ks ih =>
    rw [List.map_cons, List.nodup_cons] at h
    refine .kind ?_ (ih h.2)
    rw [List.lookup_eq_none_iff]
    intro e he
    obtain ⟨k', hk', rfl⟩ := List.mem_map.1 he
    have hne : k'.uri ≠ k.uri := fun heq => h.1 (heq ▸ List.mem_map_of_mem hk')
    simpa using hne.symm

theorem sound_core : core.Sound := by
  have h : ((CoreKind.list.reverse.map Kind.core).map Kind.uri).Nodup := by decide
  have sound : SoundTypes defaultPrefixes _ := SoundTypes.of_kinds h
  rwa [List.map_map] at sound

/-- A prefix under a free name takes no other away. -/
theorem get?_insert_of_free {prefixes : Table String} {name base : String}
    (free : prefixes.get? name = none) {name' base' : String}
    (h : prefixes.get? name' = some base') :
    (prefixes.insert name base).get? name' = some base' := by
  rw [Table.get?_insert, if_neg]
  · exact h
  · intro he
    rw [he, free] at h
    cases h

theorem Sound.after {r : Registry} (sound : r.Sound) (s : Step) : (s.after r).Sound := by
  rcases s.after_cases r with h | h
  · rwa [h]
  generalize s.after r = r' at h
  cases h with
  | addPrefix free =>
    exact (sound.more_prefixes (get?_insert_of_free free)).1
  | register free => exact .kind free sound
  | learn free compiles => exact .learned free compiles sound

theorem Reachable.sound {r : Registry} (h : r.Reachable) : r.Sound :=
  h.invariant sound_core .nil fun s _ sound => sound.after s

/-! ## Compiling, with learned types compiled like all others -/

/-- What a schema refers to: its members, and the URI and the entry that its type
name stands for. -/
structure Referent where
  uri : String
  members : Table Value
  entry : Entry

/-- What a schema refers to, if it is a schema at all and its type is known. -/
def resolve (r : Registry) (schema : Value) : Except SchemaError Referent :=
  match schemaMembers? schema with
  | none => .error (.invalidType schema)
  | some members =>
    match typeName? members with
    | none => .error (.invalidType schema)
    | some name =>
      match r.expand name with
      | .error e => .error e
      | .ok uri =>
        match r.entry? uri with
        | none => .error (.unknownType uri)
        | some entry => .ok ⟨uri, members, entry⟩

theorem resolve_ok_iff {r : Registry} {schema : Value} {t : Referent} :
    r.resolve schema = .ok t ↔
      ∃ name, schemaMembers? schema = some t.members ∧ typeName? t.members = some name ∧
        r.expand name = .ok t.uri ∧ r.entry? t.uri = some t.entry := by
  obtain ⟨uri, members, entry⟩ := t
  refine ⟨fun h => ?_, fun h => ?_⟩
  · unfold resolve at h
    split at h
    · cases h
    next ms hm =>
    split at h
    · cases h
    next name hn =>
    split at h
    · cases h
    next u hu =>
    split at h
    · cases h
    next e he =>
    cases h
    exact ⟨name, hm, hn, hu, he⟩
  · obtain ⟨name, hm, hn, hu, he⟩ := h
    simp only [resolve, hm, hn, hu, he]

/-- One level of compiling: the schemas inside, and the schema of a learned type,
are left to a function. -/
def unfold (r : Registry) (sub : Value → Logged Node) (schema : Value) : Logged Node := do
  let t ← .ofExcept (r.resolve schema)
  .log (.compiling t.uri)
  match t.entry with
  | .kind k => k.construct sub t.members
  | .learned stored =>
    if t.members.keys.any (· != "type") then .fail (.composedTypeArguments t.uri) else sub stored

theorem Sound.meaning_of_entry {r : Registry} (sound : r.Sound) {uri : String} {e : Entry}
    (h : r.entry? uri = some e) : r.scope.meaning uri = some (Entry.meaning r.compile e) := by
  have hm : r.scope.meaning uri = (r.entry? uri).map (Entry.meaning r.compile) :=
    sound.meaningIn_eq uri
  rw [hm, h, Option.map_some]

/-- A schema compiles as if each learned type stood for its schema, compiled among all types. -/
theorem Sound.compile_eq_unfold {r : Registry} (sound : r.Sound) (schema : Value) :
    r.compile schema = r.unfold r.compile schema := by
  rw [compile, Scope.compile_eq, Scope.compileWith, unfold, resolve]
  cases schemaMembers? schema with
  | none => rfl
  | some members =>
    dsimp only
    cases typeName? members with
    | none => rfl
    | some name =>
      dsimp only [expand, scope]
      cases TypeName.expand .unicode r.prefixes name with
      | error e => rfl
      | ok uri =>
        have hm : meaningIn r.prefixes r.types uri = (r.entry? uri).map (Entry.meaning r.compile) :=
          sound.meaningIn_eq uri
        rw [Logged.ofExcept_ok, pure_bind]
        simp only [Scope.compileMembers, hm]
        cases r.entry? uri with
        | none => rfl
        | some entry => cases entry <;> rfl

theorem Sound.resolve_of_compile_ok {r : Registry} (sound : r.Sound) {schema : Value} {n : Node}
    (h : (r.compile schema).result = .ok n) : ∃ t, r.resolve schema = .ok t := by
  rw [sound.compile_eq_unfold, unfold, Logged.bind_ok_iff] at h
  obtain ⟨t, ht, _⟩ := h
  exact ⟨t, ht⟩

/-- A schema of a kind compiles to what the kind makes of it. -/
theorem Sound.compile_kind {r : Registry} (sound : r.Sound) {schema : Value} {uri : String}
    {members : Table Value} {k : Kind} (h : r.resolve schema = .ok ⟨uri, members, .kind k⟩) :
    (r.compile schema).result = (k.construct r.compile members).result := by
  rw [sound.compile_eq_unfold, unfold, h, Logged.ofExcept_ok, pure_bind,
    Logged.bind_of_ok (Logged.log_result _)]

/-- A schema of a learned type compiles to what the learned schema compiles to. -/
theorem Sound.compile_learned {r : Registry} (sound : r.Sound) {schema stored : Value}
    {uri : String} {members : Table Value}
    (h : r.resolve schema = .ok ⟨uri, members, .learned stored⟩) :
    (r.compile schema).result =
      if members.keys.any (· != "type") then .error (.composedTypeArguments uri)
      else (r.compile stored).result := by
  rw [sound.compile_eq_unfold, unfold, h, Logged.ofExcept_ok, pure_bind,
    Logged.bind_of_ok (Logged.log_result _)]
  dsimp only
  split <;> rfl

end Registry

end Conform
