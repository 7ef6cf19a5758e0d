/-
Which values satisfy a schema, with nothing said of nodes and checkers.

Which values a schema of a core kind admits depends on its parameters and on the
values that satisfy the schemas inside it (`CoreKind.Admits`). A schema that
names a learned type is satisfied by what satisfies the learned schema, and one
of a user's own kind by what the user's checker accepts. `Registry.Satisfies`
ties these together: it is the least relation with the equations
`satisfies_core_iff`, `satisfies_custom_iff` and `satisfies_learned_iff`.
-/
import Conform.Proofs.Compile.Inside
import Conform.Proofs.Registry.Sound

namespace Conform

namespace CoreKind

/-! ## What the parameters ask for -/

/-- A measure of a value passes the test of the range that a parameter gives, if it gives one. -/
def Within (members : Table Value) (parameter : String) (test : Range → Bool) : Prop :=
  ∀ spec range, members.get? parameter = some spec → Range.ofValue spec = .ok range →
    test range = true

/-- A number is in the `range`, and has the `value`. -/
structure AdmitsNumber (members : Table Value) (n : Number) : Prop where
  range : Within members "range" fun range => range.contains n
  value : ∀ want, members.get? "value" = some (.number want) → want.equals n = true

/-- A string has a `length` in the range, and is the `value`. -/
structure AdmitsString (members : Table Value) (s : String) : Prop where
  length : Within members "length" fun range => range.containsCount s.length
  value : ∀ want, members.get? "value" = some (.string want) → want = s

/-- There is an item for each of the schemas in `contents`, and it satisfies the schema. If
items remain, then there is a `tail`, and the sequence of these satisfies it. -/
structure AdmitsSequence (sat : Value → Value → Prop) (members : Table Value)
    (contents items : List Value) : Prop where
  enough : contents.length ≤ items.length
  positions : ∀ (i : Nat) part item, contents[i]? = some part → items[i]? = some item →
    sat part item
  tail : contents.length < items.length → ∃ tail, members.get? "tail" = some tail ∧
    sat tail (.seq (items.drop contents.length))

/-- The fields that a parameter of a record declares. -/
def declared (members : Table Value) (parameter : String) : Table Value :=
  match members.get? parameter with
  | some (.map fields) => fields
  | _ => Table.empty

/-- Is a field declared by a record, required or not? -/
def declares (members : Table Value) (name : String) : Bool :=
  (declared members "required").contains name || (declared members "optional").contains name

/-- The members of a map that a record does not declare. -/
def others (members given : Table Value) : Table Value :=
  given.filterKeys fun name => !declares members name

/-- Required fields are present and satisfy their schemas, and so do optional fields that
are present. If there are further members, then there is a `rest`, and the map of these
satisfies it. -/
structure AdmitsRecord (sat : Value → Value → Prop) (members given : Table Value) : Prop where
  required : ∀ name part, (declared members "required").get? name = some part →
    ∃ v, given.get? name = some v ∧ sat part v
  optional : ∀ name part v, (declared members "optional").get? name = some part →
    given.get? name = some v → sat part v
  rest : (others members given).isEmpty = false → ∃ rest, members.get? "rest" = some rest ∧
    sat rest (.map (others members given))

/-- Does a schema of a kind admit a value, if it is known what satisfies the schemas inside? -/
def Admits (sat : Value → Value → Prop) (members : Table Value) (v : Value) : CoreKind → Prop
  | all => ∃ parts, members.get? "of" = some (.seq parts) ∧ ∀ part ∈ parts, sat part v
  | any => members.get? "of" = none ∨
    ∃ choices, members.get? "of" = some (.seq choices) ∧ ∃ choice ∈ choices, sat choice v
  | array => ∃ items contents, v = .seq items ∧ members.get? "contents" = some contents ∧
    (Within members "length" fun range => range.containsCount items.length) ∧
    ∀ item ∈ items, sat contents item
  | boolean => ∃ b, v = .bool b
  | date => ∃ d, v = .date d
  | defined => v ≠ .null
  | fail => False
  | integer => ∃ n, v = .number n ∧ AdmitsNumber members n ∧ n.isIntegral = true
  | map => ∃ given values, v = .map given ∧ members.get? "values" = some values ∧
    ∀ name w, given.get? name = some w → sat values w
  | nil => v = .null
  | number => ∃ n, v = .number n ∧ AdmitsNumber members n
  | scalar => (∃ n, v = .number n) ∨ (∃ s, v = .string s) ∨ ∃ b, v = .bool b
  | record => ∃ given, v = .map given ∧ AdmitsRecord sat members given
  | sequence => ∃ items contents, v = .seq items ∧ members.get? "contents" = some (.seq contents) ∧
    AdmitsSequence sat members contents items
  | string => ∃ s, v = .string s ∧ AdmitsString members s
  | time => ∃ t, v = .time t

/-! ## The schemas inside -/

variable {k : CoreKind} {members : Table Value} {sat sat' : Value → Value → Prop} {v : Value}

theorem mem_inner_of_declared {p name : String} {part : Value} (hs : (p, .fields) ∈ k.signature)
    (h : (declared members p).get? name = some part) : part ∈ k.inner members := by
  unfold declared at h
  split at h
  · next fields hf =>
    have hm : (name, part) ∈ fields.toList := (Table.From.get?_eq_some_iff fields).1 h
    exact mem_inner_iff.2 ⟨p, .fields, .map fields, hs, hf, List.mem_map_of_mem hm⟩
  · cases h

/-- A kind admits no less if no less satisfies the schemas inside. -/
theorem Admits.mono (h : ∀ part ∈ k.inner members, ∀ w, sat part w → sat' part w)
    (admits : k.Admits sat members v) : k.Admits sat' members v := by
  cases k with
  | all =>
    obtain ⟨parts, of, admits⟩ := admits
    refine ⟨parts, of, fun part hp => ?_⟩
    exact h part (mem_inner_of_schemas (by decide) of hp) v (admits part hp)
  | any =>
    rcases admits with absent | ⟨choices, of, choice, hc, admits⟩
    · exact .inl absent
    · have inside := mem_inner_of_schemas (k := .any) (by decide) of hc
      exact .inr ⟨choices, of, choice, hc, h choice inside v admits⟩
  | array =>
    obtain ⟨items, contents, hv, hc, length, admits⟩ := admits
    have inside := mem_inner_of_schema (k := .array) (by decide) hc
    exact ⟨items, contents, hv, hc, length, fun item hi => h contents inside item (admits item hi)⟩
  | map =>
    obtain ⟨given, values, hv, hc, admits⟩ := admits
    have inside := mem_inner_of_schema (k := .map) (by decide) hc
    exact ⟨given, values, hv, hc, fun name w hw => h values inside w (admits name w hw)⟩
  | record =>
    obtain ⟨given, hv, admits⟩ := admits
    refine ⟨given, hv, fun name part hp => ?_, fun name part w hp hw => ?_, fun more => ?_⟩
    · obtain ⟨w, hw, ok⟩ := admits.required name part hp
      exact ⟨w, hw, h part (mem_inner_of_declared (by decide) hp) w ok⟩
    · exact h part (mem_inner_of_declared (by decide) hp) w (admits.optional name part w hp hw)
    · obtain ⟨rest, hr, ok⟩ := admits.rest more
      have inside := mem_inner_of_schema (k := .record) (by decide) hr
      exact ⟨rest, hr, h rest inside _ ok⟩
  | sequence =>
    obtain ⟨items, contents, hv, hc, admits⟩ := admits
    refine ⟨items, contents, hv, hc, admits.enough, fun i part item hp hi => ?_, fun more => ?_⟩
    · have inside := mem_inner_of_schemas (k := .sequence) (by decide) hc (List.mem_of_getElem? hp)
      exact h part inside item (admits.positions i part item hp hi)
    · obtain ⟨tail, ht, ok⟩ := admits.tail more
      have inside := mem_inner_of_schema (k := .sequence) (by decide) ht
      exact ⟨tail, ht, h tail inside _ ok⟩
  | boolean | date | defined | fail | integer | nil | number | scalar | string | time =>
    exact admits

end CoreKind

/-! ## Values that satisfy a schema -/

namespace Registry

/-- A value satisfies a schema. -/
inductive Satisfies (r : Registry) : Value → Value → Prop
  /-- The kind admits it, where nothing is taken to satisfy a schema inside that does not. -/
  | core {schema v : Value} {uri : String} {members : Table Value} {k : CoreKind}
      {sat : Value → Value → Prop}
      (hs : r.resolve schema = .ok ⟨uri, members, .kind (.core k)⟩)
      (inside : ∀ part w, sat part w → Satisfies r part w) (admits : k.Admits sat members v) :
      Satisfies r schema v
  /-- The node of a user's own kind accepts it. -/
  | custom {schema v : Value} {uri : String} {members : Table Value} {k : CustomKind} {n : Node}
      (hs : r.resolve schema = .ok ⟨uri, members, .kind (.custom k)⟩)
      (hn : k.construct members = .ok n) (accepted : n.validate v = .ok ()) : Satisfies r schema v
  /-- It satisfies the schema of the learned type. -/
  | learned {schema stored v : Value} {uri : String} {members : Table Value}
      (hs : r.resolve schema = .ok ⟨uri, members, .learned stored⟩) (h : Satisfies r stored v) :
      Satisfies r schema v

variable {r : Registry} {schema v : Value} {uri : String} {members : Table Value}

theorem satisfies_core_iff {k : CoreKind}
    (hs : r.resolve schema = .ok ⟨uri, members, .kind (.core k)⟩) :
    r.Satisfies schema v ↔ k.Admits r.Satisfies members v := by
  refine ⟨fun h => ?_, fun admits => .core hs (fun _ _ h => h) admits⟩
  cases h with
  | core hs' inside admits =>
    cases hs.symm.trans hs'
    exact admits.mono fun part _ w => inside part w
  | custom hs' _ _ => cases hs.symm.trans hs'
  | learned hs' _ => cases hs.symm.trans hs'

theorem satisfies_custom_iff {k : CustomKind} {n : Node}
    (hs : r.resolve schema = .ok ⟨uri, members, .kind (.custom k)⟩)
    (hn : k.construct members = .ok n) : r.Satisfies schema v ↔ n.validate v = .ok () := by
  refine ⟨fun h => ?_, fun accepted => .custom hs hn accepted⟩
  cases h with
  | core hs' _ _ => cases hs.symm.trans hs'
  | custom hs' hn' accepted =>
    cases hs.symm.trans hs'
    cases hn.symm.trans hn'
    exact accepted
  | learned hs' _ => cases hs.symm.trans hs'

theorem satisfies_learned_iff {stored : Value}
    (hs : r.resolve schema = .ok ⟨uri, members, .learned stored⟩) :
    r.Satisfies schema v ↔ r.Satisfies stored v := by
  refine ⟨fun h => ?_, fun h => .learned hs h⟩
  cases h with
  | core hs' _ _ => cases hs.symm.trans hs'
  | custom hs' _ _ => cases hs.symm.trans hs'
  | learned hs' h =>
    cases hs.symm.trans hs'
    exact h

end Registry

end Conform
