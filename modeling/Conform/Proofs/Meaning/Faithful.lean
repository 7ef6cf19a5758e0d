/-
Compiling keeps the meaning of a schema. The node that a core kind makes accepts
what the kind admits, if the nodes inside accept what satisfies their schemas
(`CoreKind.Makes.validate_iff`). So the node of a schema accepts the values that
satisfy the schema, and no others (`Registry.validate_iff_satisfies`).

The induction is on the way in which schemas call for others to be compiled,
which in a sound registry has an end also where it leads through learned types.
-/
import Conform.Proofs.Check.Accepted
import Conform.Proofs.Meaning.Satisfies
import Conform.Proofs.Registry.Alias

namespace Conform

/-- A schema compiles to a node that accepts a value. -/
def Passes (sub : Value → Logged Node) (schema v : Value) : Prop :=
  ∃ n, (sub schema).result = .ok n ∧ n.validate v = .ok ()

namespace CoreKind

variable {sub : Value → Logged Node} {members : Table Value} {v : Value}

/-! ## Parameters and what becomes of them -/

theorem passes_iff {part : Value} {n : Node} (h : (sub part).result = .ok n) :
    Passes sub part v ↔ n.validate v = .ok () := by
  refine ⟨fun passes => ?_, fun accepted => ⟨n, h, accepted⟩⟩
  obtain ⟨n', h', accepted⟩ := passes
  cases h.symm.trans h'
  exact accepted

theorem Compiled.forall_iff {parts : List Value} {ns : List Node} (h : Compiled sub parts ns) :
    (∀ n ∈ ns, n.validate v = .ok ()) ↔ ∀ part ∈ parts, Passes sub part v := by
  induction h with
  | nil => simp
  | cons head _ ih => rw [List.forall_mem_cons, List.forall_mem_cons, ih, passes_iff head]

theorem Compiled.exists_iff {parts : List Value} {ns : List Node} (h : Compiled sub parts ns) :
    (∃ n ∈ ns, n.validate v = .ok ()) ↔ ∃ part ∈ parts, Passes sub part v := by
  induction h with
  | nil => simp
  | cons head _ ih => rw [List.exists_mem_cons_iff, List.exists_mem_cons_iff, ih, passes_iff head]

theorem Compiled.positions_iff {parts items : List Value} {ns : List Node}
    (h : Compiled sub parts ns) :
    (∀ p ∈ ns.zip items, p.1.validate p.2 = .ok ()) ↔
      ∀ (i : Nat) part item, parts[i]? = some part → items[i]? = some item →
        Passes sub part item := by
  induction h generalizing items with
  | nil => simp
  | @cons part n parts ns head _ ih =>
    cases items with
    | nil => simp
    | cons item items =>
      rw [List.zip_cons_cons, List.forall_mem_cons, ih, ← passes_iff head]
      refine ⟨fun h => ?_, fun h => ⟨h 0 part item rfl rfl, fun i => h (i + 1)⟩⟩
      intro i part' item' hp hi
      cases i with
      | zero =>
        cases hp
        cases hi
        exact h.1
      | succ i => exact h.2 i part' item' hp hi

/-- A schema in a parameter that may be there, and its node. -/
theorem exists_passes_iff {parameter : String} {o : Option Node}
    (h : Option.Rel (fun v n => (sub v).result = .ok n) (members.get? parameter) o) :
    (∃ c, Node.checker? o = some c ∧ c v = .ok ()) ↔
      ∃ part, members.get? parameter = some part ∧ Passes sub part v := by
  generalize members.get? parameter = given at h
  cases h with
  | none => simp [Node.checker?]
  | some h => simp [Node.checker?, passes_iff h, Node.validate]

/-- A range in a parameter that may be there. -/
theorem within_iff {parameter : String} {o : Option Range} {test : Range → Bool}
    (h : Option.Rel IsRange (members.get? parameter) o) :
    (∀ range, o = some range → test range = true) ↔ Within members parameter test := by
  unfold Within
  generalize members.get? parameter = given at h
  cases h with
  | none => simp
  | @some spec range h =>
    refine ⟨fun passed spec' range' hs hr => ?_, fun within range' hr => ?_⟩
    · cases hs
      cases h.symm.trans hr
      exact passed range rfl
    · cases hr
      exact within spec range rfl h

/-- A piece of data in a parameter that may be there. -/
theorem literal_iff {α : Type} {parameter : String} {o : Option α} {mk : α → Value} {P : α → Prop}
    (inj : Function.Injective mk)
    (h : Option.Rel (fun v a => v = mk a) (members.get? parameter) o) :
    (∀ a, o = some a → P a) ↔ ∀ a, members.get? parameter = some (mk a) → P a := by
  generalize members.get? parameter = given at h
  cases h with
  | none => simp
  | some h => simp [h, inj.eq_iff]

theorem Asks.met_iff {test : Checker.NumberTest} (h : Asks members test) {n : Number} :
    test.Met n ↔ AdmitsNumber members n := by
  have value := literal_iff (P := fun want => want.equals n = true)
    (fun _ _ => Value.number.inj) h.value
  exact ⟨fun met => ⟨(within_iff h.range).1 met.range, value.1 met.value⟩,
    fun admits => ⟨(within_iff h.range).2 admits.range, value.2 admits.value⟩⟩

theorem AsksString.met_iff {test : Checker.StringTest} (h : AsksString members test) {s : String} :
    test.Met s ↔ AdmitsString members s := by
  have value := literal_iff (P := fun want => want = s) (fun _ _ => Value.string.inj) h.value
  exact ⟨fun met => ⟨(within_iff h.length).1 met.length, value.1 met.value⟩,
    fun admits => ⟨(within_iff h.length).2 admits.length, value.2 admits.value⟩⟩

theorem Declares.declared_eq {parameter : String} {fields : Table Value}
    (h : Declares members parameter fields) : declared members parameter = fields := by
  cases h with
  | given h => rw [declared, h]
  | none h => rw [declared, h]

/-! ## Records -/

section

variable {required optional : Table Value} {required' optional' : Table Node}

theorem field?_of_required {name : String} {n : Node} (hn : required'.get? name = some n) :
    Checker.field? (required'.map Node.checker) (optional'.map Node.checker) name =
      some n.checker := by
  rw [Checker.field?, Table.From.get?_map, hn]
  rfl

theorem field?_of_optional {name : String} {n : Node} (free : required'.contains name = false)
    (hn : optional'.get? name = some n) :
    Checker.field? (required'.map Node.checker) (optional'.map Node.checker) name =
      some n.checker := by
  rw [Table.From.contains, Option.isSome_eq_false_iff, Option.isNone_iff_eq_none] at free
  rw [Checker.field?, Table.From.get?_map, Table.From.get?_map, hn, free]
  rfl

/-- A declared field is required or optional. -/
theorem field?_cases {name : String} {c : Checker}
    (h : Checker.field? (required'.map Node.checker) (optional'.map Node.checker) name = some c) :
    ∃ n, c = n.checker ∧ (required'.get? name = some n ∨ optional'.get? name = some n) := by
  rw [Checker.field?, Table.From.get?_map, Table.From.get?_map] at h
  cases hn : required'.get? name with
  | some n =>
    rw [hn] at h
    cases h
    exact ⟨n, rfl, .inl rfl⟩
  | none =>
    rw [hn] at h
    obtain ⟨n, hn, rfl⟩ := Option.map_eq_some_iff.1 h
    exact ⟨n, rfl, .inr hn⟩

theorem isNone_field? {name : String}
    (hr : required.contains name = required'.contains name)
    (ho : optional.contains name = optional'.contains name) :
    (Checker.field? (required'.map Node.checker) (optional'.map Node.checker) name).isNone =
      !(required.contains name || optional.contains name) := by
  rw [hr, ho, Checker.field?, Table.From.get?_map, Table.From.get?_map, Table.From.contains,
    Table.From.contains]
  cases required'.get? name <;> cases optional'.get? name <;> rfl

variable {rest : Option Node} {given : Table Value}

/-- The checker of a record accepts the maps that the record admits. -/
theorem record_ok_iff (declared : Declares members "required" required)
    (hr : required.Rel (fun _ v n => (sub v).result = .ok n) required')
    (declared' : Declares members "optional" optional)
    (ho : optional.Rel
      (fun name v n => required'.contains name = false ∧ (sub v).result = .ok n) optional')
    (h : Option.Rel (fun v n => (sub v).result = .ok n) (members.get? "rest") rest) :
    Checker.record (required'.map Node.checker) (optional'.map Node.checker) (Node.checker? rest)
        (.map given) = .ok () ↔
      AdmitsRecord (Passes sub) members given := by
  -- the tables of nodes have the keys of the tables of schemas, so the same is left over
  have beyond : Checker.undeclared (required'.map Node.checker) (optional'.map Node.checker) given =
      others members given := by
    have same : (fun name => (Checker.field? (required'.map Node.checker)
        (optional'.map Node.checker) name).isNone) = fun name => !declares members name := by
      funext name
      rw [isNone_field? (hr.contains_eq name) (ho.contains_eq name), declares,
        declared.declared_eq, declared'.declared_eq]
    rw [Checker.undeclared, others, same]
  rw [Checker.record_map_ok_iff, beyond]
  refine ⟨fun accepted => ?_, fun admits => ?_⟩
  · obtain ⟨fields, present, more⟩ := accepted
    refine ⟨fun name part hp => ?_, fun name part w hp hw => ?_, fun he => ?_⟩
    · rw [declared.declared_eq] at hp
      obtain ⟨n, hn, ok⟩ := hr.get?_left hp
      have there : (required'.map Node.checker).contains name = true := by
        rw [Table.From.contains, Table.From.get?_map, hn]
        rfl
      obtain ⟨w, hw⟩ := Option.isSome_iff_exists.1 (present name there)
      exact ⟨w, hw, n, ok, fields name w n.checker hw (field?_of_required hn)⟩
    · rw [declared'.declared_eq] at hp
      obtain ⟨n, hn, free, ok⟩ := ho.get?_left hp
      exact ⟨n, ok, fields name w n.checker hw (field?_of_optional free hn)⟩
    · exact (exists_passes_iff h).1 (more he)
  · refine ⟨fun name w c hw hc => ?_, fun name hn => ?_, fun he => ?_⟩
    · obtain ⟨n, rfl, hn | hn⟩ := field?_cases hc
      · obtain ⟨part, hp, ok⟩ := hr.get?_right hn
        rw [← declared.declared_eq] at hp
        obtain ⟨w', hw', passes⟩ := admits.required name part hp
        cases hw.symm.trans hw'
        exact (passes_iff ok).1 passes
      · obtain ⟨part, hp, _, ok⟩ := ho.get?_right hn
        rw [← declared'.declared_eq] at hp
        exact (passes_iff ok).1 (admits.optional name part w hp hw)
    · rw [Table.From.contains, Table.From.get?_map, Option.isSome_map] at hn
      obtain ⟨n, hn⟩ := Option.isSome_iff_exists.1 hn
      obtain ⟨part, hp, _⟩ := hr.get?_right hn
      rw [← declared.declared_eq] at hp
      obtain ⟨w, hw, _⟩ := admits.required name part hp
      rw [Table.From.contains, hw]
      rfl
    · exact (exists_passes_iff h).2 (admits.rest he)

end

/-! ## Nodes of all kinds -/

theorem checkers_forall_iff {ns : List Node} :
    (∀ c ∈ Node.checkers ns, c v = .ok ()) ↔ ∀ n ∈ ns, n.validate v = .ok () := by
  rw [Node.checkers_eq, List.forall_mem_map]
  rfl

/-- The node that a kind makes accepts the values that the kind admits, if what satisfies
a schema inside is what passes its node. -/
theorem Makes.validate_iff {k : CoreKind} {n : Node} (h : Makes sub members k n) :
    n.validate v = .ok () ↔ k.Admits (Passes sub) members v := by
  cases h with
  | @all parts ns of _ h =>
    show Checker.all (Node.checkers ns) v = .ok () ↔ _
    rw [Checker.all_ok_iff, checkers_forall_iff, h.forall_iff]
    refine ⟨fun accepted => ⟨parts, of, accepted⟩, fun admits => ?_⟩
    obtain ⟨parts', of', admits⟩ := admits
    cases of.symm.trans of'
    exact admits
  | @any choices ns of _ h =>
    have some : (∃ c ∈ Node.checkers ns, c v = .ok ()) ↔ ∃ n ∈ ns, n.validate v = .ok () := by
      simp only [Node.checkers_eq, List.mem_map, exists_exists_and_eq_and, Node.validate]
    show Checker.any (Node.checkers ns) v = .ok () ↔ _
    rw [Checker.any_ok_iff, some, h.exists_iff]
    refine ⟨fun accepted => .inr ⟨choices, of, accepted⟩, fun admits => ?_⟩
    rcases admits with absent | ⟨choices', of', admits⟩
    · cases of.symm.trans absent
    · cases of.symm.trans of'
      exact admits
  | anything of => exact ⟨fun _ => .inl of, fun _ => rfl⟩
  | @array contents n length hc h limits =>
    show Checker.array n.checker length v = .ok () ↔ _
    rw [Checker.array_ok_iff]
    refine ⟨fun accepted => ?_, fun admits => ?_⟩
    · obtain ⟨items, hv, limited, accepted⟩ := accepted
      exact ⟨items, contents, hv, hc, (within_iff limits).1 limited,
        fun item hi => ⟨n, h, accepted item hi⟩⟩
    · obtain ⟨items, contents', hv, hc', limited, admits⟩ := admits
      cases hc.symm.trans hc'
      exact ⟨items, hv, (within_iff limits).2 limited,
        fun item hi => (passes_iff h).1 (admits item hi)⟩
  | boolean => exact Checker.boolean_ok_iff
  | date => exact Checker.date_ok_iff
  | defined => exact Checker.defined_ok_iff
  | fail => exact ⟨fun accepted => absurd accepted (Checker.reject_ne _ _), False.elim⟩
  | @integer test asks _ =>
    show Checker.integer test v = .ok () ↔ _
    simp only [Checker.integer_ok_iff, asks.met_iff, Admits]
  | @map values n hc h =>
    show Checker.map n.checker v = .ok () ↔ _
    rw [Checker.map_ok_iff]
    refine ⟨fun accepted => ?_, fun admits => ?_⟩
    · obtain ⟨given, hv, accepted⟩ := accepted
      exact ⟨given, values, hv, hc, fun name w hw => ⟨n, h, accepted name w hw⟩⟩
    · obtain ⟨given, values', hv, hc', admits⟩ := admits
      cases hc.symm.trans hc'
      exact ⟨given, hv, fun name w hw => (passes_iff h).1 (admits name w hw)⟩
  | nil => exact Checker.nil_ok_iff
  | @number test asks =>
    show Checker.number test v = .ok () ↔ _
    simp only [Checker.number_ok_iff, asks.met_iff, Admits]
  | scalar => exact Checker.scalar_ok_iff
  | @record _ _ required optional rest declared hr declared' ho h =>
    show Checker.record (Node.fieldCheckers required) (Node.fieldCheckers optional)
      (Node.checker? rest) v = .ok () ↔ _
    simp only [Checker.record_ok_iff, Node.fieldCheckers_eq,
      record_ok_iff declared hr declared' ho h, Admits]
  | @sequence contents ns tail hc _ h ht =>
    have positions (items : List Value) :
        (∀ p ∈ (Node.checkers ns).zip items, p.1 p.2 = .ok ()) ↔
          ∀ p ∈ ns.zip items, p.1.validate p.2 = .ok () := by
      rw [Node.checkers_eq, List.zip_map_left, List.forall_mem_map]
      rfl
    have length : (Node.checkers ns).length = contents.length := by
      rw [Node.checkers_eq, List.length_map, h.length_eq]
    show Checker.sequence (Node.checkers ns) (Node.checker? tail) v = .ok () ↔ _
    simp only [Checker.sequence_ok_iff, positions, length, h.positions_iff, exists_passes_iff ht]
    refine ⟨fun accepted => ?_, fun admits => ?_⟩
    · obtain ⟨items, hv, enough, positions, beyond⟩ := accepted
      exact ⟨items, contents, hv, hc, enough, positions, beyond⟩
    · obtain ⟨items, contents', hv, hc', enough, positions, beyond⟩ := admits
      cases hc.symm.trans hc'
      exact ⟨items, hv, enough, positions, beyond⟩
  | @string test asks =>
    show Checker.string test v = .ok () ↔ _
    simp only [Checker.string_ok_iff, asks.met_iff, Admits]
  | time => exact Checker.time_ok_iff

end CoreKind

namespace Registry

variable {r : Registry}

/-- The node of a schema accepts the values that satisfy the schema. -/
theorem Sound.validate_iff (sound : r.Sound) {schema : Value} {n : Node}
    (hn : (r.compile schema).result = .ok n) (v : Value) :
    n.validate v = .ok () ↔ r.Satisfies schema v := by
  induction schema using sound.calls_wellFounded.induction generalizing n v with
  | _ schema ih =>
    obtain ⟨⟨uri, members, e⟩, hs⟩ := sound.resolve_of_compile_ok hn
    cases e with
    | learned stored =>
      rw [sound.compile_learned hs] at hn
      split at hn
      · cases hn
      rw [ih stored (.learned hs) hn, satisfies_learned_iff hs]
    | kind k =>
      rw [sound.compile_kind hs] at hn
      cases k with
      | custom k =>
        rw [Kind.construct_custom_result] at hn
        exact (satisfies_custom_iff hs hn).symm
      | core k =>
        have makes := (CoreKind.construct_ok_iff.1 hn).2
        -- the schemas inside have compiled, so they pass what satisfies them
        have inside (part : Value) (hp : part ∈ k.inner members) (w : Value) :
            Passes r.compile part w ↔ r.Satisfies part w := by
          obtain ⟨m, hm⟩ := makes.inner_ok hp
          rw [CoreKind.passes_iff hm]
          exact ih part (.inside (k := .core k) hs hp) hm w
        rw [makes.validate_iff, satisfies_core_iff hs]
        exact ⟨fun h => h.mono fun part hp w => (inside part hp w).1,
          fun h => h.mono fun part hp w => (inside part hp w).2⟩

/-- In every registry that can be set up, a schema that compiles is checked for what it
means: a value is accepted if and only if it satisfies the schema. -/
theorem validate_iff_satisfies (h : r.Reachable) {schema : Value} {n : Node}
    (hn : (r.compile schema).result = .ok n) (v : Value) :
    (n.accepts v = true ↔ r.Satisfies schema v) ∧
      (n.validate v = .ok () ↔ r.Satisfies schema v) := by
  have valid := h.sound.validate_iff hn v
  exact ⟨Checker.accepts_iff.trans valid, valid⟩

/-- A sequence of a learned type with a tail, which is satisfied by what its `contents` and
its `tail` are satisfied by, and not by less. -/
theorem validate_iff_satisfies_tail :
    let r := core.run [.learn "tag:a" (.string "//int")]
    let strings := .map (Table.ofList [("type", .string "//arr"), ("contents", .string "//str")])
    let schema := .map (Table.ofList
      [("type", .string "//seq"), ("contents", .seq [.string "tag:a"]), ("tail", strings)])
    let n : Node := .sequence [.integer ⟨none, none⟩] (some (.array (.string ⟨none, none⟩) none))
    r.Reachable ∧ (r.compile schema).result = .ok n ∧
      r.Satisfies schema (.seq [.number (.int 1), .string "a"]) ∧
      ¬ r.Satisfies schema (.seq []) := by
  intro r strings schema n
  have h : r.Reachable := .run .core _
  have hn : (r.compile schema).result = .ok n := by
    unfold n schema strings r
    rfl
  refine ⟨h, hn, ?_, fun satisfied => ?_⟩
  · exact (validate_iff_satisfies h hn _).1.1 rfl
  · exact absurd ((validate_iff_satisfies h hn _).1.2 satisfied) Bool.false_ne_true

end Registry

end Conform
