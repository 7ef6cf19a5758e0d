/-
What a kind makes of a schema, if it does not fail: which parameters it has
read, and which node it has put together (`CoreKind.Makes`).
-/
import Conform.Proofs.Compile.Unfolding
import Conform.Proofs.Table

namespace Conform

/-! ## Reading parameters -/

theorem Logged.map_ok_iff {α β : Type} {x : Logged α} {f : α → β} {b : β} :
    (f <$> x).result = .ok b ↔ ∃ a, x.result = .ok a ∧ f a = b := by
  simp only [map_eq_pure_bind, bind_ok_iff, pure_result, Except.ok.injEq]

theorem Table.From.traverse_ok_iff {α β : Type} {f : String → α → Logged β} {b : Option String}
    {t : Table.From α b} {u : Table.From β b} :
    (t.traverse f).result = .ok u ↔ t.Rel (fun k v w => (f k v).result = .ok w) u := by
  induction t with
  | nil =>
    refine ⟨fun h => ?_, fun h => ?_⟩
    · cases h; exact .nil
    · cases h; rfl
  | cons k above v rest ih =>
    simp only [traverse, Logged.bind_ok_iff, Logged.pure_result, Except.ok.injEq, ih]
    refine ⟨fun h => ?_, fun h => ?_⟩
    · obtain ⟨w, hw, us, hus, rfl⟩ := h
      exact .cons hw hus
    · cases h with
      | cons head tail => exact ⟨_, head, _, tail, rfl⟩

namespace CoreKind

variable {sub : Value → Logged Node} {members : Table Value} {parameter : String}

theorem required_ok_iff {k : CoreKind} {v : Value} :
    (required k members parameter).result = .ok v ↔ members.get? parameter = some v := by
  unfold required
  split
  · next h => simp [h]
  · next h => simp [h]

theorem optional_ok_iff {α : Type} {read : Value → Logged α} {o : Option α} :
    (optional members parameter read).result = .ok o ↔
      Option.Rel (fun v a => (read v).result = .ok a) (members.get? parameter) o := by
  unfold optional
  split
  · next v hv =>
    rw [Logged.map_ok_iff, hv]
    refine ⟨fun h => ?_, fun h => ?_⟩
    · obtain ⟨a, ha, rfl⟩ := h
      exact .some ha
    · cases h with
      | some ha => exact ⟨_, ha, rfl⟩
  · next hv =>
    rw [hv]
    refine ⟨fun h => ?_, fun h => ?_⟩
    · cases h; exact .none
    · cases h; rfl

/-- Nodes of several schemas, one by one. -/
abbrev Compiled (sub : Value → Logged Node) : List Value → List Node → Prop :=
  List.Forall₂ fun v n => (sub v).result = .ok n

theorem compileList_ok_iff {vs : List Value} {ns : List Node} :
    (compileList sub vs).result = .ok ns ↔ Compiled sub vs ns := by
  induction vs generalizing ns with
  | nil =>
    refine ⟨fun h => ?_, fun h => ?_⟩
    · cases h; exact .nil
    · cases h; rfl
  | cons v vs ih =>
    simp only [compileList, Logged.bind_ok_iff, Logged.pure_result, Except.ok.injEq, ih]
    refine ⟨fun h => ?_, fun h => ?_⟩
    · obtain ⟨n, hn, ns', hns, rfl⟩ := h
      exact .cons hn hns
    · cases h with
      | cons head tail => exact ⟨_, head, _, tail, rfl⟩

theorem schemas_ok_iff {k : CoreKind} {v : Value} {ns : List Node} :
    (schemas k sub parameter v).result = .ok ns ↔
      ∃ vs, v = .seq vs ∧ vs ≠ [] ∧ Compiled sub vs ns := by
  unfold schemas
  split
  · rw [compileList_ok_iff]
    refine ⟨fun h => ?_, fun h => ?_⟩
    · exact ⟨_, rfl, List.cons_ne_nil _ _, h⟩
    · obtain ⟨_, he, _, h⟩ := h
      cases he
      exact h
  · next hv =>
    refine ⟨fun h => ?_, fun h => ?_⟩
    · cases h
    · obtain ⟨vs, rfl, hne, _⟩ := h
      cases vs with
      | nil => exact absurd rfl hne
      | cons w ws => exact absurd rfl (hv w ws)

theorem numberValue_ok_iff {k : CoreKind} {v : Value} {n : Number} :
    (k.numberValue v).result = .ok n ↔ v = .number n := by
  cases v <;> simp [numberValue]

theorem stringValue_ok_iff {v : Value} {s : String} :
    (stringValue v).result = .ok s ↔ v = .string s := by
  cases v <;> simp [stringValue]

/-- A range as it is written in a parameter. -/
def IsRange (v : Value) (range : Range) : Prop := Range.ofValue v = .ok range

/-- What a schema of numbers asks of a number, as its parameters tell. -/
structure Asks (members : Table Value) (test : Checker.NumberTest) : Prop where
  value : Option.Rel (fun v n => v = .number n) (members.get? "value") test.value
  range : Option.Rel IsRange (members.get? "range") test.range

/-- What a schema of strings asks of a string, as its parameters tell. -/
structure AsksString (members : Table Value) (test : Checker.StringTest) : Prop where
  value : Option.Rel (fun v s => v = .string s) (members.get? "value") test.value
  length : Option.Rel IsRange (members.get? "length") test.length

theorem numberTest_ok_iff {k : CoreKind} {test : Checker.NumberTest} :
    (numberTest k members).result = .ok test ↔ Asks members test := by
  simp only [numberTest, Logged.bind_ok_iff, optional_ok_iff, numberValue_ok_iff, range,
    Logged.ofExcept_result, Logged.pure_result, Except.ok.injEq]
  refine ⟨fun h => ?_, fun h => ?_⟩
  · obtain ⟨value, hv, limits, hr, rfl⟩ := h
    exact ⟨hv, hr⟩
  · obtain ⟨hv, hr⟩ := h
    exact ⟨_, hv, _, hr, rfl⟩

theorem stringTest_ok_iff {test : Checker.StringTest} :
    (stringTest members).result = .ok test ↔ AsksString members test := by
  simp only [stringTest, Logged.bind_ok_iff, optional_ok_iff, stringValue_ok_iff, range,
    Logged.ofExcept_result, Logged.pure_result, Except.ok.injEq]
  refine ⟨fun h => ?_, fun h => ?_⟩
  · obtain ⟨value, hv, limits, hr, rfl⟩ := h
    exact ⟨hv, hr⟩
  · obtain ⟨hv, hr⟩ := h
    exact ⟨_, hv, _, hr, rfl⟩

theorem integerTest_ok_iff {test : Checker.NumberTest} :
    (integerTest members).result = .ok test ↔
      Asks members test ∧ ∀ n, test.value = some n → n.isIntegral = true := by
  simp only [integerTest, Logged.bind_ok_iff, numberTest_ok_iff]
  refine ⟨fun h => ?_, fun h => ?_⟩
  · obtain ⟨t, ht, h⟩ := h
    split at h
    · next hv =>
      cases h
      refine ⟨ht, fun n hn => ?_⟩
      cases hv.symm.trans hn
    · next m hv =>
      split at h
      · next hm =>
        cases h
        refine ⟨ht, fun n hn => ?_⟩
        cases hv.symm.trans hn
        exact hm
      · cases h
  · obtain ⟨ht, h⟩ := h
    refine ⟨test, ht, ?_⟩
    split
    · rfl
    · next m hv => rw [if_pos (h m hv)]; rfl

/-- The fields that a parameter of a record declares. -/
inductive Declares (members : Table Value) (parameter : String) : Table Value → Prop
  | given {declared : Table Value} (h : members.get? parameter = some (.map declared)) :
      Declares members parameter declared
  | none (h : members.get? parameter = none) : Declares members parameter Table.empty

theorem fields_ok_iff {declared : Table Value} :
    (fields members parameter).result = .ok declared ↔ Declares members parameter declared := by
  unfold fields
  split
  · next absent =>
    refine ⟨fun h => ?_, fun h => ?_⟩
    · cases h; exact .none absent
    · cases h with
      | given h => cases absent.symm.trans h
      | none _ => rfl
  · next given =>
    refine ⟨fun h => ?_, fun h => ?_⟩
    · cases h; exact .given given
    · cases h with
      | given h => cases given.symm.trans h; rfl
      | none h => cases given.symm.trans h
  · next v hv given =>
    refine ⟨fun h => ?_, fun h => ?_⟩
    · cases h
    · cases h with
      | given h => cases given.symm.trans h; exact absurd rfl (hv _)
      | none h => cases given.symm.trans h

/-! ## Nodes -/

/-- The nodes that a kind can make of a schema with these members. -/
inductive Makes (sub : Value → Logged Node) (members : Table Value) : CoreKind → Node → Prop
  | all {vs : List Value} {ns : List Node} (of : members.get? "of" = some (.seq vs)) (ne : vs ≠ [])
      (h : Compiled sub vs ns) : Makes sub members all (.all ns)
  | any {vs : List Value} {ns : List Node} (of : members.get? "of" = some (.seq vs)) (ne : vs ≠ [])
      (h : Compiled sub vs ns) : Makes sub members any (.any ns)
  | anything (of : members.get? "of" = none) : Makes sub members any .anything
  | array {v : Value} {n : Node} {length : Option Range}
      (contents : members.get? "contents" = some v) (h : (sub v).result = .ok n)
      (limits : Option.Rel IsRange (members.get? "length") length) :
      Makes sub members array (.array n length)
  | boolean : Makes sub members boolean .boolean
  | date : Makes sub members date .date
  | defined : Makes sub members defined .defined
  | fail : Makes sub members fail .fail
  | integer {test : Checker.NumberTest} (asks : Asks members test)
      (integral : ∀ n, test.value = some n → n.isIntegral = true) :
      Makes sub members integer (.integer test)
  | map {v : Value} {n : Node} (values : members.get? "values" = some v)
      (h : (sub v).result = .ok n) : Makes sub members map (.map n)
  | nil : Makes sub members nil .nil
  | number {test : Checker.NumberTest} (asks : Asks members test) :
      Makes sub members number (.number test)
  | scalar : Makes sub members scalar .scalar
  | record {required optional : Table Value} {required' optional' : Table Node} {rest : Option Node}
      (declared : Declares members "required" required)
      (hr : required.Rel (fun _ v n => (sub v).result = .ok n) required')
      (declared' : Declares members "optional" optional)
      (ho : optional.Rel
        (fun name v n => required'.contains name = false ∧ (sub v).result = .ok n) optional')
      (h : Option.Rel (fun v n => (sub v).result = .ok n) (members.get? "rest") rest) :
      Makes sub members record (.record required' optional' rest)
  | sequence {vs : List Value} {ns : List Node} {tail : Option Node}
      (contents : members.get? "contents" = some (.seq vs)) (ne : vs ≠ []) (h : Compiled sub vs ns)
      (ht : Option.Rel (fun v n => (sub v).result = .ok n) (members.get? "tail") tail) :
      Makes sub members sequence (.sequence ns tail)
  | string {test : Checker.StringTest} (asks : AsksString members test) :
      Makes sub members string (.string test)
  | time : Makes sub members time .time

theorem constructRecord_ok_iff {n : Node} :
    (constructRecord sub members).result = .ok n ↔ Makes sub members record n := by
  simp only [constructRecord, Logged.bind_ok_iff, fields_ok_iff, Table.From.traverse_ok_iff,
    Logged.ite_fail_ok_iff, Bool.not_eq_true, optional_ok_iff, Logged.pure_result,
    Except.ok.injEq]
  refine ⟨fun h => ?_, fun h => ?_⟩
  · obtain ⟨_, hd, _, hr, _, hd', _, ho, _, h, rfl⟩ := h
    exact .record hd hr hd' ho h
  · cases h with
    | record hd hr hd' ho h => exact ⟨_, hd, _, hr, _, hd', _, ho, _, h, rfl⟩

/-- A kind has read its parameters, and has put their nodes together. -/
theorem constructNode_ok_iff {k : CoreKind} {n : Node} :
    (constructNode sub members k).result = .ok n ↔ Makes sub members k n := by
  have leaf {m : Node} (only : ∀ n, Makes sub members k n ↔ n = m) :
      (pure m : Logged Node).result = .ok n ↔ Makes sub members k n := by
    rw [only, Logged.pure_result, Except.ok.injEq, eq_comm]
  cases k with
  | all =>
    simp only [constructNode, Logged.bind_ok_iff, required_ok_iff, schemas_ok_iff,
      Logged.pure_result, Except.ok.injEq]
    refine ⟨fun h => ?_, fun h => ?_⟩
    · obtain ⟨_, of, _, ⟨vs, rfl, ne, h⟩, rfl⟩ := h
      exact .all of ne h
    · cases h with
      | all of ne h => exact ⟨_, of, _, ⟨_, rfl, ne, h⟩, rfl⟩
  | any =>
    simp only [constructNode, Logged.bind_ok_iff, optional_ok_iff, schemas_ok_iff,
      Logged.pure_result, Except.ok.injEq]
    refine ⟨fun h => ?_, fun h => ?_⟩
    · obtain ⟨choices, h, rfl⟩ := h
      cases hv : members.get? "of" with
      | none => rw [hv] at h; cases h; exact .anything hv
      | some v =>
        rw [hv] at h
        cases h with
        | some h =>
          obtain ⟨vs, rfl, ne, h⟩ := h
          exact .any hv ne h
    · cases h with
      | any of ne h => exact ⟨some _, of ▸ .some ⟨_, rfl, ne, h⟩, rfl⟩
      | anything of => exact ⟨none, of ▸ .none, rfl⟩
  | array =>
    simp only [constructNode, Logged.bind_ok_iff, required_ok_iff, optional_ok_iff, range,
      Logged.ofExcept_result, Logged.pure_result, Except.ok.injEq]
    refine ⟨fun h => ?_, fun h => ?_⟩
    · obtain ⟨_, contents, _, h, _, limits, rfl⟩ := h
      exact .array contents h limits
    · cases h with
      | array contents h limits => exact ⟨_, contents, _, h, _, limits, rfl⟩
  | integer =>
    simp only [constructNode, Logged.bind_ok_iff, integerTest_ok_iff, Logged.pure_result,
      Except.ok.injEq]
    refine ⟨fun h => ?_, fun h => ?_⟩
    · obtain ⟨_, ⟨asks, integral⟩, rfl⟩ := h
      exact .integer asks integral
    · cases h with
      | integer asks integral => exact ⟨_, ⟨asks, integral⟩, rfl⟩
  | map =>
    simp only [constructNode, Logged.bind_ok_iff, required_ok_iff, Logged.pure_result,
      Except.ok.injEq]
    refine ⟨fun h => ?_, fun h => ?_⟩
    · obtain ⟨_, values, _, h, rfl⟩ := h
      exact .map values h
    · cases h with
      | map values h => exact ⟨_, values, _, h, rfl⟩
  | number =>
    simp only [constructNode, Logged.bind_ok_iff, numberTest_ok_iff, Logged.pure_result,
      Except.ok.injEq]
    refine ⟨fun h => ?_, fun h => ?_⟩
    · obtain ⟨_, asks, rfl⟩ := h
      exact .number asks
    · cases h with
      | number asks => exact ⟨_, asks, rfl⟩
  | record => exact constructRecord_ok_iff
  | sequence =>
    simp only [constructNode, Logged.bind_ok_iff, required_ok_iff, optional_ok_iff, schemas_ok_iff,
      Logged.pure_result, Except.ok.injEq]
    refine ⟨fun h => ?_, fun h => ?_⟩
    · obtain ⟨_, contents, _, ⟨vs, rfl, ne, h⟩, _, tail, rfl⟩ := h
      exact .sequence contents ne h tail
    · cases h with
      | sequence contents ne h tail => exact ⟨_, contents, _, ⟨_, rfl, ne, h⟩, _, tail, rfl⟩
  | string =>
    simp only [constructNode, Logged.bind_ok_iff, stringTest_ok_iff, Logged.pure_result,
      Except.ok.injEq]
    refine ⟨fun h => ?_, fun h => ?_⟩
    · obtain ⟨_, asks, rfl⟩ := h
      exact .string asks
    · cases h with
      | string asks => exact ⟨_, asks, rfl⟩
  | boolean => exact leaf fun n => ⟨fun h => by cases h; rfl, fun h => h ▸ .boolean⟩
  | date => exact leaf fun n => ⟨fun h => by cases h; rfl, fun h => h ▸ .date⟩
  | defined => exact leaf fun n => ⟨fun h => by cases h; rfl, fun h => h ▸ .defined⟩
  | fail => exact leaf fun n => ⟨fun h => by cases h; rfl, fun h => h ▸ .fail⟩
  | nil => exact leaf fun n => ⟨fun h => by cases h; rfl, fun h => h ▸ .nil⟩
  | scalar => exact leaf fun n => ⟨fun h => by cases h; rfl, fun h => h ▸ .scalar⟩
  | time => exact leaf fun n => ⟨fun h => by cases h; rfl, fun h => h ▸ .time⟩

theorem construct_ok_iff {k : CoreKind} {n : Node} :
    (k.construct sub members).result = .ok n ↔
      checkParameters members k.uri k.parameters = .ok () ∧ Makes sub members k n := by
  simp only [construct, Logged.bind_ok_iff, Logged.ofExcept_result, constructNode_ok_iff]
  refine ⟨fun h => ?_, fun h => ?_⟩
  · obtain ⟨_, hp, h⟩ := h
    exact ⟨hp, h⟩
  · exact ⟨(), h⟩

/-- The node has the URI of its kind. -/
theorem Makes.uri_eq {k : CoreKind} {n : Node} (h : Makes sub members k n) : n.uri = k.uri := by
  cases h <;> rfl

theorem Declares.parts_eq {declared : Table Value} (h : Declares members parameter declared)
    {v : Value} (hv : members.get? parameter = some v) :
    Shape.fields.parts v = declared.toList.map Prod.snd := by
  cases h with
  | given h => cases h.symm.trans hv; rfl
  | none h => rw [h] at hv; cases hv

/-- Whatever a kind makes a node of, it has compiled all the schemas inside. -/
theorem Makes.inner_ok {k : CoreKind} {n : Node} (h : Makes sub members k n) {part : Value}
    (hp : part ∈ k.inner members) : ∃ m, (sub part).result = .ok m := by
  obtain ⟨p, s, v, hs, hv, hp⟩ := mem_inner_iff.1 hp
  have whole {o : Option Node} (h : Option.Rel (fun v n => (sub v).result = .ok n) (some v) o)
      (hp : part ∈ Shape.schema.parts v) : ∃ m, (sub part).result = .ok m := by
    rw [List.mem_singleton.1 hp]
    cases h with
    | some h => exact ⟨_, h⟩
  cases h with
  | all of _ h | any of _ h =>
    simp only [signature, List.mem_singleton, Prod.mk.injEq] at hs
    obtain ⟨rfl, rfl⟩ := hs
    cases of.symm.trans hv
    obtain ⟨m, _, hm⟩ := h.exists_of_mem hp
    exact ⟨m, hm⟩
  | anything of =>
    simp only [signature, List.mem_singleton, Prod.mk.injEq] at hs
    obtain ⟨rfl, rfl⟩ := hs
    cases of.symm.trans hv
  | array contents h _ =>
    simp only [signature, List.mem_cons, Prod.mk.injEq] at hs
    rcases hs with ⟨rfl, rfl⟩ | ⟨rfl, rfl⟩ | hs
    · cases contents.symm.trans hv
      exact whole (.some h) hp
    · cases hp
    · cases hs
  | map values h =>
    simp only [signature, List.mem_singleton, Prod.mk.injEq] at hs
    obtain ⟨rfl, rfl⟩ := hs
    cases values.symm.trans hv
    exact whole (.some h) hp
  | record hd hr hd' ho h =>
    simp only [signature, List.mem_cons, Prod.mk.injEq] at hs
    rcases hs with ⟨rfl, rfl⟩ | ⟨rfl, rfl⟩ | ⟨rfl, rfl⟩ | hs
    · rw [hd.parts_eq hv] at hp
      obtain ⟨⟨name, w⟩, hw, rfl⟩ := List.mem_map.1 hp
      obtain ⟨m, _, hm⟩ := hr.get?_left ((Table.From.get?_eq_some_iff _).2 hw)
      exact ⟨m, hm⟩
    · rw [hd'.parts_eq hv] at hp
      obtain ⟨⟨name, w⟩, hw, rfl⟩ := List.mem_map.1 hp
      obtain ⟨m, _, _, hm⟩ := ho.get?_left ((Table.From.get?_eq_some_iff _).2 hw)
      exact ⟨m, hm⟩
    · exact whole (hv ▸ h) hp
    · cases hs
  | sequence contents _ h ht =>
    simp only [signature, List.mem_cons, Prod.mk.injEq] at hs
    rcases hs with ⟨rfl, rfl⟩ | ⟨rfl, rfl⟩ | hs
    · cases contents.symm.trans hv
      obtain ⟨m, _, hm⟩ := h.exists_of_mem hp
      exact ⟨m, hm⟩
    · exact whole (hv ▸ ht) hp
    · cases hs
  | integer _ _ | number _ | string _ =>
    -- these parameters are data, and there are no schemas in data
    simp only [signature, List.mem_cons, Prod.mk.injEq] at hs
    have : s = .data := by tauto
    subst this
    cases hp
  | boolean | date | defined | fail | nil | scalar | time => cases hs

end CoreKind

namespace Kind

variable {sub : Value → Logged Node} {members : Table Value}

theorem construct_custom_result (k : CustomKind) :
    ((custom k).construct sub members).result = k.construct members :=
  Logged.ofExcept_result _

/-- The node has the URI of its kind, if the kind keeps to that. -/
theorem uri_of_construct_ok {k : Kind} (stamps : k.Stamps) {n : Node}
    (h : (k.construct sub members).result = .ok n) : n.uri = k.uri := by
  cases k with
  | core k => exact (CoreKind.construct_ok_iff.1 h).2.uri_eq
  | custom k => exact stamps members n (construct_custom_result k ▸ h)

/-- Whatever a kind makes a node of, it has compiled all the schemas inside. -/
theorem inner_ok_of_construct_ok {k : Kind} {n : Node}
    (h : (k.construct sub members).result = .ok n) {part : Value} (hp : part ∈ k.inner members) :
    ∃ m, (sub part).result = .ok m := by
  cases k with
  | core k => exact (CoreKind.construct_ok_iff.1 h).2.inner_ok hp
  | custom k => cases hp

end Kind

namespace Scope

/-- The type of a schema that compiles has a meaning, and that is what has compiled. -/
theorem exists_meaning_of_ok {scope : Scope} {schema : Value} {n : Node}
    (h : (scope.compile schema).result = .ok n) :
    ∃ members name uri, schemaMembers? schema = some members ∧ typeName? members = some name ∧
      TypeName.expand .unicode scope.prefixes name = .ok uri ∧
        ((∃ k : Kind, scope.meaning uri = some (.kind k) ∧
            (k.construct scope.compile members).result = .ok n) ∨
          ∃ node : Logged Node, scope.meaning uri = some (.learned node) ∧
            node.result = .ok n) := by
  rw [compile_eq, compileWith] at h
  split at h
  · cases h
  next members hm =>
  split at h
  · cases h
  next name hn =>
  rw [Logged.bind_ok_iff] at h
  obtain ⟨uri, hu, h⟩ := h
  refine ⟨members, name, uri, hm, hn, hu, ?_⟩
  rw [compileMembers] at h
  split at h
  · cases h
  next m hu =>
  rw [Logged.bind_ok_iff] at h
  obtain ⟨_, _, h⟩ := h
  cases m with
  | kind k => exact .inl ⟨k, hu, h⟩
  | learned node =>
    dsimp only at h
    split at h
    · cases h
    · exact .inr ⟨node, hu, h⟩

end Scope

end Conform
