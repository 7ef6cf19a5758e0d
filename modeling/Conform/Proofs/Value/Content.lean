/-
What values say, apart from how their numbers are written. The content of a
value has exact values in place of numbers (`Value.content`), so `4` and `4.0`
have the same content. Two values are equal if they have the same content and
hold no NaN (`Value.equals_iff`).

Values of the same content have the same shape, and parts of the same content
(`Value.respelled_iff`).
-/
import Conform.Proofs.Number.Exact
import Conform.Proofs.Table
import Conform.Value.Basic

namespace Conform

/-- A value whose numbers are given by their exact values; NaN has none. -/
inductive Content where
  | null
  | bool (b : Bool)
  | number (x : Option Extended)
  | string (s : String)
  | seq (items : List Content)
  | map (members : Table.From Content none)
  | date (d : Date)
  | time (t : Timestamp)

namespace Value

mutual

def content : Value → Content
  | null => .null
  | bool b => .bool b
  | number n => .number n.extended
  | string s => .string s
  | seq items => .seq (contents items)
  | map members => .map (memberContents members)
  | date d => .date d
  | time t => .time t

def contents : List Value → List Content
  | [] => []
  | v :: vs => v.content :: contents vs

def memberContents {b : Option String} : Table.From Value b → Table.From Content b
  | .nil => .nil
  | .cons k h v rest => .cons k h v.content (memberContents rest)

end

theorem contents_eq : (vs : List Value) → contents vs = vs.map content
  | [] => rfl
  | _ :: vs => congrArg _ (contents_eq vs)

theorem memberContents_eq {b : Option String} :
    (t : Table.From Value b) → memberContents t = t.map content
  | .nil => rfl
  | .cons _ _ _ rest => congrArg _ (memberContents_eq rest)

/-! ## Values of the same content -/

/-- Two values have the same content: they are made alike of parts of the same content. -/
inductive Respelled : Value → Value → Prop
  | null : Respelled .null .null
  | bool (b : Bool) : Respelled (.bool b) (.bool b)
  | number {n m : Number} (h : n.extended = m.extended) : Respelled (.number n) (.number m)
  | string (s : String) : Respelled (.string s) (.string s)
  | seq {vs ws : List Value} (h : List.Forall₂ (fun v w => v.content = w.content) vs ws) :
      Respelled (.seq vs) (.seq ws)
  | map {t u : Table Value} (h : t.Rel (fun _ v w => v.content = w.content) u) :
      Respelled (.map t) (.map u)
  | date (d : Date) : Respelled (.date d) (.date d)
  | time (t : Timestamp) : Respelled (.time t) (.time t)

theorem contents_eq_iff {vs ws : List Value} :
    contents vs = contents ws ↔ List.Forall₂ (fun v w => v.content = w.content) vs ws := by
  rw [contents_eq, contents_eq, ← List.forall₂_eq_eq_eq, List.forall₂_map_left_iff,
    List.forall₂_map_right_iff]

theorem memberContents_eq_iff {t u : Table Value} :
    memberContents t = memberContents u ↔ t.Rel (fun _ v w => v.content = w.content) u := by
  rw [memberContents_eq, memberContents_eq, Table.From.map_eq_map_iff]

theorem respelled_iff {v w : Value} : Respelled v w ↔ v.content = w.content := by
  constructor
  · intro h
    cases h with
    | number h => rw [content, content, h]
    | seq h => rw [content, content, contents_eq_iff.2 h]
    | map h => rw [content, content, memberContents_eq_iff.2 h]
    | null | bool | string | date | time => rfl
  · intro h
    cases v <;> cases w <;> simp only [content, reduceCtorEq, Content.bool.injEq,
      Content.number.injEq, Content.string.injEq, Content.seq.injEq, Content.map.injEq,
      Content.date.injEq, Content.time.injEq, contents_eq_iff, memberContents_eq_iff] at h
    case null.null => exact .null
    case bool.bool => exact h ▸ .bool _
    case number.number => exact .number h
    case string.string => exact h ▸ .string _
    case seq.seq => exact .seq h
    case map.map => exact .map h
    case date.date => exact h ▸ .date _
    case time.time => exact h ▸ .time _

/-! ## Equality -/

/-- A value stands in a value, at any depth or as the whole of it. -/
inductive Occurs (inner : Value) : Value → Prop
  | here : Occurs inner inner
  | item {v : Value} {items : List Value} (hv : v ∈ items) (h : Occurs inner v) :
      Occurs inner (.seq items)
  | member {k : String} {v : Value} {members : Table Value} (hv : members.get? k = some v)
      (h : Occurs inner v) : Occurs inner (.map members)

theorem Occurs.trans {u v w : Value} (h : u.Occurs v) (h' : v.Occurs w) : u.Occurs w := by
  induction h' with
  | here => exact h
  | item hv _ ih => exact .item hv ih
  | member hv _ ih => exact .member hv ih

abbrev nan : Value := .number (.float .nan)

theorem nan_occurs_seq_iff {items : List Value} :
    nan.Occurs (.seq items) ↔ ∃ v ∈ items, nan.Occurs v := by
  refine ⟨fun h => ?_, fun h => ?_⟩
  · cases h with
    | item hv h => exact ⟨_, hv, h⟩
  · obtain ⟨v, hv, h⟩ := h
    exact .item hv h

theorem nan_occurs_map_iff {members : Table Value} :
    nan.Occurs (.map members) ↔ ∃ e ∈ members.toList, nan.Occurs e.2 := by
  refine ⟨fun h => ?_, fun h => ?_⟩
  · cases h with
    | member hv h => exact ⟨_, (Table.From.get?_eq_some_iff _).1 hv, h⟩
  · obtain ⟨e, he, h⟩ := h
    exact .member ((Table.From.get?_eq_some_iff _).2 he) h

theorem nan_occurs_number_iff {n : Number} : nan.Occurs (.number n) ↔ n = .float .nan := by
  refine ⟨fun h => ?_, fun h => ?_⟩
  · cases h; rfl
  · subst h; exact .here

theorem nan_not_occurs (v : Value) (hn : v.number? = none) (hs : v.seq? = none)
    (hm : v.map? = none) : ¬ nan.Occurs v := by
  intro h
  cases h with
  | here => cases hn
  | item => cases hs
  | member => cases hm

mutual

/-- Values are equal if they have the same content, and no NaN in it. -/
theorem equals_iff : (v w : Value) → (v.equals w = true ↔ v.content = w.content ∧ ¬ nan.Occurs v)
  | .number a, w => by
    cases w with
    | number b => simp [equals, content, Number.equals_iff, nan_occurs_number_iff]
    | _ => simp [equals, content]
  | .seq vs, w => by
    cases w with
    | seq ws => simp [equals, content, equalItems_iff vs ws, nan_occurs_seq_iff]
    | _ => simp [equals, content]
  | .map t, w => by
    cases w with
    | map u =>
      simp [equals, content, equalMembers_iff t u, nan_occurs_map_iff, ← Table.From.ext_iff]
    | _ => simp [equals, content]
  | .null, w => by
    have := nan_not_occurs .null rfl rfl rfl
    cases w <;> simp [equals, content, this]
  | .bool a, w => by
    have := nan_not_occurs (.bool a) rfl rfl rfl
    cases w <;> simp [equals, content, this]
  | .string a, w => by
    have := nan_not_occurs (.string a) rfl rfl rfl
    cases w <;> simp [equals, content, this]
  | .date a, w => by
    have := nan_not_occurs (.date a) rfl rfl rfl
    cases w <;> simp [equals, content, this]
  | .time a, w => by
    have := nan_not_occurs (.time a) rfl rfl rfl
    cases w <;> simp [equals, content, this]

theorem equalItems_iff : (vs ws : List Value) →
    (equalItems vs ws = true ↔ contents vs = contents ws ∧ ∀ v ∈ vs, ¬ nan.Occurs v)
  | [], [] => by simp [equalItems]
  | [], _ :: _ => by simp [equalItems, contents]
  | _ :: _, [] => by simp [equalItems, contents]
  | v :: vs, w :: ws => by
    simp only [equalItems, contents, Bool.and_eq_true, equals_iff v w, equalItems_iff vs ws,
      List.cons.injEq, List.forall_mem_cons]
    exact and_and_and_comm

theorem equalMembers_iff {b b' : Option String} :
    (t : Table.From Value b) → (u : Table.From Value b') →
    (equalMembers t u = true ↔
      (memberContents t).toList = (memberContents u).toList ∧ ∀ e ∈ t.toList, ¬ nan.Occurs e.2)
  | .nil, .nil => by simp [equalMembers, memberContents, Table.From.toList]
  | .nil, .cons .. => by simp [equalMembers, memberContents, Table.From.toList]
  | .cons .., .nil => by simp [equalMembers, memberContents, Table.From.toList]
  | .cons k _ v t, .cons k' _ w u => by
    simp only [equalMembers, memberContents, Table.From.toList, Bool.and_eq_true, beq_iff_eq,
      equals_iff v w, equalMembers_iff t u, List.cons.injEq, Prod.mk.injEq, List.forall_mem_cons]
    tauto

end

-- `4` and `4.0` are equal, and so are the two zeros
example : (number (.int 4)).equals (number (.float (.finite false 0x10000000000000 (-50)
    (by decide)))) = true := by
  decide

example : (number (.float (.zero false))).equals (number (.float (.zero true))) = true := by
  decide

theorem nan_occurs_of_content_eq {v w : Value} (h : v.content = w.content) (hw : nan.Occurs w) :
    nan.Occurs v := by
  -- induction on the way down to the NaN, which can be gone in both values
  induction hw generalizing v with
  | here =>
    cases respelled_iff.2 h with
    | number h => rw [nan_occurs_number_iff, ← Number.extended_eq_none_iff, h]; rfl
  | item hv _ ih =>
    cases respelled_iff.2 h with
    | seq h =>
      obtain ⟨v, hv, h⟩ := h.exists_of_mem_right hv
      exact .item hv (ih h)
  | member hv _ ih =>
    cases respelled_iff.2 h with
    | map h =>
      obtain ⟨v, hv, h⟩ := h.get?_right hv
      exact .member hv (ih h)

/-- A value is equal to itself unless it holds a NaN. -/
theorem equals_self_iff {v : Value} : v.equals v = true ↔ ¬ nan.Occurs v := by
  simp [equals_iff]

theorem equals_symm {v w : Value} (h : v.equals w = true) : w.equals v = true := by
  obtain ⟨same, noNaN⟩ := (equals_iff v w).1 h
  exact (equals_iff w v).2 ⟨same.symm, fun hw => noNaN (nan_occurs_of_content_eq same hw)⟩

theorem equals_trans {v w x : Value} (h : v.equals w = true) (h' : w.equals x = true) :
    v.equals x = true := by
  obtain ⟨same, noNaN⟩ := (equals_iff v w).1 h
  exact (equals_iff v x).2 ⟨same.trans ((equals_iff w x).1 h').1, noNaN⟩

end Value

end Conform
