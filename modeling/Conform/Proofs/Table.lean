/-
More about tables. A table is determined by what is found at its keys
(`Table.From.ext_get?`); a table can take up the entries of another
(`Table.addAll`); and tables may differ in their values alone, if they have the
same keys and their values are related key by key (`Table.From.Rel`).
-/
import Conform.Table
import Mathlib.Data.List.Forall2
import Mathlib.Data.List.Sort

/-- An item of a list has its counterpart in a list that is related item by item. -/
theorem List.Forall₂.exists_of_mem {α β : Type} {R : α → β → Prop} {l : List α} {l' : List β}
    (h : List.Forall₂ R l l') {a : α} (ha : a ∈ l) : ∃ b ∈ l', R a b := by
  induction h with
  | nil => cases ha
  | @cons _ b _ _ head _ ih =>
    rcases List.mem_cons.1 ha with rfl | ha
    · exact ⟨b, List.mem_cons_self, head⟩
    · obtain ⟨b, hb, hR⟩ := ih ha
      exact ⟨b, List.mem_cons_of_mem _ hb, hR⟩

theorem List.Forall₂.exists_of_mem_right {α β : Type} {R : α → β → Prop} {l : List α} {l' : List β}
    (h : List.Forall₂ R l l') {b : β} (hb : b ∈ l') : ∃ a ∈ l, R a b :=
  (List.Forall₂.flip (R := fun b a => R a b) h).exists_of_mem hb

/-- A list is related to some list if each of its items is related to something. -/
theorem List.exists_forall₂ {α β : Type} {R : α → β → Prop} {l : List α}
    (h : ∀ a ∈ l, ∃ b, R a b) : ∃ l', List.Forall₂ R l l' := by
  induction l with
  | nil => exact ⟨[], .nil⟩
  | cons a l ih =>
    rw [List.forall_mem_cons] at h
    obtain ⟨b, head⟩ := h.1
    obtain ⟨l', tail⟩ := ih h.2
    exact ⟨b :: l', .cons head tail⟩

/-- Lists that are related stay so when both are paired with the same list. -/
theorem List.Forall₂.zip_left {α β γ : Type} {R : α → β → Prop} {l : List α} {l' : List β}
    (h : List.Forall₂ R l l') (names : List γ) :
    List.Forall₂ (fun e e' => e.1 = e'.1 ∧ R e.2 e'.2) (names.zip l) (names.zip l') := by
  induction h generalizing names with
  | nil => simp
  | cons head _ ih =>
    cases names with
    | nil => exact .nil
    | cons name names => exact .cons ⟨rfl, head⟩ (ih names)

theorem List.map_fst_zip_sublist {α β : Type} :
    (names : List α) → (l : List β) → ((names.zip l).map Prod.fst).Sublist names
  | [], _ => .slnil
  | _ :: _, [] => List.nil_sublist _
  | name :: names, _ :: l => (List.map_fst_zip_sublist names l).cons_cons name

/-- A function is applied to a list if it can be applied to each item. -/
theorem List.mapM_eq_some_iff {α β : Type} {f : α → Option β} {l : List α} {l' : List β} :
    l.mapM f = some l' ↔ List.Forall₂ (fun a b => f a = some b) l l' := by
  induction l generalizing l' with
  | nil => simp [eq_comm]
  | cons a l ih =>
    simp only [List.mapM_cons, bind, Option.bind_eq_some_iff, pure, Option.some.injEq, ih]
    refine ⟨fun h => ?_, fun h => ?_⟩
    · obtain ⟨b, head, bs, tail, rfl⟩ := h
      exact .cons head tail
    · cases h with
      | cons head tail => exact ⟨_, head, _, tail, rfl⟩

namespace Conform.Table

/-- The entries of both tables. At a key of both the second one's entry counts. -/
def addAll {α : Type} (t : Table α) {b : Option String} (u : From α b) : Table α :=
  u.toList.foldl (fun t e => t.insert e.1 e.2) t

/-- The table of a list of entries has at each key the value that is given last. -/
theorem get?_ofList {α : Type} (l : List (String × α)) (k : String) :
    (Table.ofList l).get? k = l.reverse.lookup k := by
  have reversed (l : List (String × α)) : (Table.ofList l.reverse).get? k = l.lookup k := by
    induction l with
    | nil => rfl
    | cons e l ih =>
      have step : Table.ofList (e :: l).reverse = (Table.ofList l.reverse).insert e.1 e.2 := by
        simp [Table.ofList]
      rw [step, get?_insert, ih, List.lookup_cons]
      cases h : k == e.1
      · rw [if_neg (by simpa using h)]
      · rw [if_pos (by simpa using h)]
  rw [← reversed, List.reverse_reverse]

theorem contains_ofList_iff {α : Type} {l : List (String × α)} {k : String} :
    (Table.ofList l).contains k = true ↔ k ∈ l.map Prod.fst := by
  rw [From.contains, get?_ofList, List.lookup_isSome_iff]
  simp only [List.mem_reverse, beq_iff_eq, List.mem_map, @eq_comm _ k]

theorem mem_of_get?_ofList {α : Type} {l : List (String × α)} {k : String} {v : α}
    (h : (Table.ofList l).get? k = some v) : (k, v) ∈ l := by
  rw [get?_ofList, List.lookup_eq_some_iff] at h
  obtain ⟨after, before, split, _⟩ := h
  exact List.mem_reverse.1 (split ▸ by simp)

/-- If no key is given twice, each entry of a list is found in its table. -/
theorem get?_ofList_of_mem {α : Type} {l : List (String × α)} (distinct : (l.map Prod.fst).Nodup)
    {k : String} {v : α} (h : (k, v) ∈ l) : (Table.ofList l).get? k = some v := by
  obtain ⟨before, after, rfl⟩ := List.append_of_mem h
  rw [List.map_append, List.map_cons, List.nodup_append, List.nodup_cons] at distinct
  rw [get?_ofList, List.lookup_eq_some_iff]
  refine ⟨after.reverse, before.reverse, by simp, fun p hp => ?_⟩
  have there : p.1 ∈ after.map Prod.fst := List.mem_map_of_mem (List.mem_reverse.1 hp)
  exact bne_iff_ne.2 fun same => distinct.2.1.1 (same ▸ there)

namespace From

variable {α β : Type} {b : Option String}

theorem contains_of_get? {t : From α b} {k : String} {v : α} (h : t.get? k = some v) :
    t.contains k = true :=
  Option.isSome_iff_exists.2 ⟨v, h⟩

theorem contains_iff_mem_keys {t : From α b} {k : String} :
    t.contains k = true ↔ k ∈ t.keys := by
  rw [contains, Option.isSome_iff_exists, keys, List.mem_map]
  refine ⟨fun h => ?_, fun h => ?_⟩
  · obtain ⟨v, hv⟩ := h
    exact ⟨(k, v), (get?_eq_some_iff t).1 hv, rfl⟩
  · obtain ⟨e, he, hk⟩ := h
    exact ⟨e.2, (get?_eq_some_iff t).2 (hk ▸ he)⟩

/-- The keys stand in order, each once. -/
theorem pairwise_keys (t : From α b) : t.keys.Pairwise (· < ·) :=
  List.pairwise_map.2 t.pairwise_toList

/-- A table is determined by what is found at its keys. -/
theorem ext_get? {t u : From α b} (h : ∀ k, t.get? k = u.get? k) : t = u := by
  have : Std.Irrefl fun e e' : String × α => e.1 < e'.1 := ⟨fun e => String.lt_irrefl e.1⟩
  have : Std.Antisymm fun e e' : String × α => e.1 < e'.1 :=
    ⟨fun _ _ lt gt => absurd (String.lt_trans lt gt) (String.lt_irrefl _)⟩
  refine ext (t.pairwise_toList.eq_of_mem_iff u.pairwise_toList fun e => ?_)
  rw [← get?_eq_some_iff, ← get?_eq_some_iff, h]

theorem get?_bound {k : String} (t : From α (some k)) : t.get? k = none := by
  refine Option.eq_none_iff_forall_ne_some.2 fun v hv => ?_
  exact String.lt_irrefl k (above_of_mem ((get?_eq_some_iff t).1 hv))

theorem get?_lower {j : String} (above : Above b j) (t : From α (some j)) (k : String) :
    (t.lower above).get? k = t.get? k := by
  cases t <;> rfl

theorem get?_filterKeys (p : String → Bool) (k : String) {b : Option String} (t : From α b) :
    (t.filterKeys p).get? k = if p k then t.get? k else none := by
  induction t with
  | nil => simp [filterKeys]
  | cons k' above v rest ih =>
    rw [filterKeys, get?_cons]
    by_cases he : k = k'
    · subst he
      by_cases hp : p k
      · simp [hp, get?_cons]
      · simp [hp, get?_lower, ih]
    · by_cases hp : p k'
      · simp [hp, get?_cons, he, ih]
      · simp [hp, get?_lower, he, ih]

theorem get?_addAll (t : Table α) (u : From α b) (k : String) :
    (t.addAll u).get? k = (u.get? k).or (t.get? k) := by
  induction u generalizing t with
  | nil => rfl
  | cons k' above v rest ih =>
    have step : t.addAll (.cons k' above v rest) = (t.insert k' v).addAll rest := rfl
    rw [step, ih, get?_insert, get?_cons]
    by_cases h : k = k'
    · subst h
      rw [get?_bound, if_pos rfl, if_pos rfl]
      rfl
    · rw [if_neg h, if_neg h]

/-- A table is the table of its entries. -/
theorem ofList_toList (t : Table α) : Table.ofList t.toList = t := by
  refine ext_get? fun k => ?_
  have added : (Table.ofList t.toList).get? k = (t.get? k).or none := get?_addAll Table.empty t k
  rw [added, Option.or_none]

/-- Mapped values may be put into a table, or a table's values may be mapped. -/
theorem map_ofList (f : α → β) (l : List (String × α)) :
    (Table.ofList l).map f = Table.ofList (l.map fun e => (e.1, f e.2)) := by
  have lookup (l : List (String × α)) (k : String) :
      (l.map fun e => (e.1, f e.2)).lookup k = (l.lookup k).map f := by
    induction l with
    | nil => rfl
    | cons e l ih =>
      rw [List.map_cons, List.lookup_cons, List.lookup_cons, ih]
      cases k == e.1 <;> rfl
  refine ext_get? fun k => ?_
  rw [get?_map, get?_ofList, get?_ofList, ← List.map_reverse, lookup]

/-- The entries in front of one are those with lesser keys. -/
theorem toList_filterKeys_lt {t : From α b} {before after : List (String × α)} {k : String} {v : α}
    (h : t.toList = before ++ (k, v) :: after) :
    (t.filterKeys fun j => decide (j < k)).toList = before := by
  have sorted := t.pairwise_toList
  rw [h, List.pairwise_append, List.pairwise_cons] at sorted
  obtain ⟨_, ⟨above, _⟩, below⟩ := sorted
  have front : before.filter (fun e => decide (e.1 < k)) = before :=
    List.filter_eq_self.2 fun e he => decide_eq_true (below e he _ List.mem_cons_self)
  have back : ((k, v) :: after).filter (fun e => decide (e.1 < k)) = [] := by
    refine List.filter_eq_nil_iff.2 fun e he => ?_
    rw [decide_eq_true_eq]
    rcases List.mem_cons.1 he with rfl | he
    · exact String.lt_irrefl k
    · exact fun lt => String.lt_irrefl k (String.lt_trans (above e he) lt)
  rw [toList_filterKeys, h, List.filter_append, front, back, List.append_nil]

/-- The entries in front of what is found at a key have lesser keys. -/
theorem exists_split {t : From α b} {k : String} {v : α} (h : t.get? k = some v) :
    ∃ before after, t.toList = before ++ (k, v) :: after ∧ ∀ e ∈ before, e.1 < k := by
  obtain ⟨before, after, split⟩ := List.append_of_mem ((get?_eq_some_iff t).1 h)
  have sorted := t.pairwise_toList
  rw [split, List.pairwise_append] at sorted
  exact ⟨before, after, split, fun e he => sorted.2.2 e he _ List.mem_cons_self⟩

/-- What is found at a lesser key than an entry's stands in front of it. -/
theorem mem_of_lt {t : From α b} {before after : List (String × α)} {j k : String} {v w : α}
    (split : t.toList = before ++ (k, v) :: after) (lt : j < k) (hw : t.get? j = some w) :
    (j, w) ∈ before := by
  have sorted := t.pairwise_toList
  rw [split, List.pairwise_append, List.pairwise_cons] at sorted
  rw [get?_eq_some_iff, split, List.mem_append, List.mem_cons] at hw
  rcases hw with hw | hw | hw
  · exact hw
  · cases hw
    exact absurd lt (String.lt_irrefl _)
  · exact absurd (String.lt_trans lt (sorted.2.1.1 _ hw)) (String.lt_irrefl _)

/-- The first key that passes a test is the least one. -/
theorem find?_keys_eq_some_iff {t : From α b} {p : String → Bool} {k : String} :
    t.keys.find? p = some k ↔
      t.contains k = true ∧ p k = true ∧ ∀ j < k, t.contains j = true → p j = false := by
  have sorted := t.pairwise_keys
  simp only [contains_iff_mem_keys]
  rw [List.find?_eq_some_iff_append]
  constructor
  · rintro ⟨pass, before, after, split, fail⟩
    rw [split, List.pairwise_append, List.pairwise_cons] at sorted
    refine ⟨by simp [split], pass, fun j lt hj => ?_⟩
    rw [split, List.mem_append, List.mem_cons] at hj
    rcases hj with hj | rfl | hj
    · simpa using fail j hj
    · exact absurd lt (String.lt_irrefl j)
    · exact absurd (String.lt_trans lt (sorted.2.1.1 j hj)) (String.lt_irrefl j)
  · rintro ⟨there, pass, least⟩
    obtain ⟨before, after, split⟩ := List.append_of_mem there
    rw [split, List.pairwise_append] at sorted
    refine ⟨pass, before, after, split, fun j hj => ?_⟩
    rw [least j (sorted.2.2 j hj k List.mem_cons_self) (by simp [split, hj])]
    rfl

theorem find?_keys_eq_none_iff {t : From α b} {p : String → Bool} :
    t.keys.find? p = none ↔ ∀ k, t.contains k = true → p k = false := by
  simp only [List.find?_eq_none, contains_iff_mem_keys, Bool.not_eq_true]

theorem isEmpty_eq_true_iff {t : From α b} : t.isEmpty = true ↔ ∀ k, t.contains k = false := by
  cases t with
  | nil => simp [isEmpty, contains]
  | cons k above v rest =>
    have some : (cons k above v rest).contains k = true := by simp [contains, get?_cons]
    refine ⟨fun h => absurd h Bool.false_ne_true, fun h => ?_⟩
    rw [h k] at some
    exact absurd some Bool.false_ne_true

theorem isEmpty_eq_false_iff {t : From α b} : t.isEmpty = false ↔ ∃ k, t.contains k = true := by
  rw [← Bool.not_eq_true, isEmpty_eq_true_iff, not_forall]
  simp

/-! ## Values related key by key -/

/-- Tables of the same keys, with values that are related key by key. -/
inductive Rel (R : String → α → β → Prop) : {b : Option String} → From α b → From β b → Prop
  | nil {b : Option String} : Rel R (.nil : From α b) .nil
  | cons {b : Option String} {k : String} {above : Above b k} {v : α} {w : β}
      {t : From α (some k)} {u : From β (some k)} (head : R k v w) (tail : Rel R t u) :
      Rel R (.cons k above v t) (.cons k above w u)

theorem Rel.of_mem {R : String → α → α → Prop} {b : Option String} :
    {t : From α b} → (∀ k v, (k, v) ∈ t.toList → R k v v) → Rel R t t
  | .nil, _ => .nil
  | .cons k _ v rest, h =>
    .cons (h k v (by simp [toList])) (Rel.of_mem fun j w hw => h j w (by simp [toList, hw]))

variable {R : String → α → β → Prop}

theorem Rel.imp_of_mem {S : String → α → β → Prop} {t : From α b} {u : From β b} (h : Rel R t u)
    (hS : ∀ k v w, (k, v) ∈ t.toList → R k v w → S k v w) : Rel S t u := by
  induction h with
  | nil => exact .nil
  | cons head _ ih =>
    refine .cons (hS _ _ _ List.mem_cons_self head) (ih fun k v w hv => hS k v w ?_)
    exact List.mem_cons_of_mem _ hv

theorem Rel.imp {S : String → α → β → Prop} (hS : ∀ k v w, R k v w → S k v w) {t : From α b}
    {u : From β b} (h : Rel R t u) : Rel S t u :=
  h.imp_of_mem fun k v w _ => hS k v w

/-- Tables stay related if related values are put at the same key. -/
theorem Rel.insertAbove {k : String} {v : α} {w : β} (hv : R k v w) {above : Above b k}
    {t : From α b} {u : From β b} (h : Rel R t u) :
    Rel R (t.insertAbove k v above) (u.insertAbove k w above) := by
  induction h with
  | nil => exact .cons hv .nil
  | cons head tail ih =>
    simp only [From.insertAbove]
    split
    · exact .cons hv (.cons head tail)
    · split
      · next he => subst he; exact .cons hv tail
      · exact .cons head ih

/-- Lists with the same keys one by one and related values are related as tables. -/
theorem Rel.ofList {l : List (String × α)} {l' : List (String × β)}
    (h : List.Forall₂ (fun e e' => e.1 = e'.1 ∧ R e.1 e.2 e'.2) l l') :
    Rel R (Table.ofList l) (Table.ofList l') := by
  have from' {t : Table α} {u : Table β} (start : Rel R t u) :
      Rel R (l.foldl (fun t e => Table.insert t e.1 e.2) t)
        (l'.foldl (fun t e => Table.insert t e.1 e.2) u) := by
    induction h generalizing t u with
    | nil => exact start
    | @cons e e' _ _ head _ ih =>
      obtain ⟨k, w⟩ := e'
      obtain ⟨rfl, related⟩ := head
      exact ih (start.insertAbove related)
  exact from' .nil

/-- A function is applied to a table if it can be applied to each entry. -/
theorem traverse_eq_some_iff {f : String → α → Option β} {t : From α b} {u : From β b} :
    t.traverse f = some u ↔ Rel (fun k v w => f k v = some w) t u := by
  induction t with
  | nil =>
    refine ⟨fun h => ?_, fun h => ?_⟩
    · cases h
      exact .nil
    · cases h
      rfl
  | cons k above v rest ih =>
    simp only [traverse, bind, Option.bind_eq_some_iff, pure, Option.some.injEq, ih]
    refine ⟨fun h => ?_, fun h => ?_⟩
    · obtain ⟨w, head, u, tail, rfl⟩ := h
      exact .cons head tail
    · cases h with
      | cons head tail => exact ⟨_, head, _, tail, rfl⟩

theorem Rel.keys_eq {t : From α b} {u : From β b} (h : Rel R t u) : t.keys = u.keys := by
  induction h with
  | nil => rfl
  | cons _ _ ih => simpa [keys, toList] using ih

theorem Rel.isEmpty_eq {t : From α b} {u : From β b} (h : Rel R t u) : t.isEmpty = u.isEmpty := by
  cases h <;> rfl

/-- The entries of related tables are related one by one. -/
theorem Rel.toList {t : From α b} {u : From β b} (h : Rel R t u) :
    List.Forall₂ (fun e e' => e.1 = e'.1 ∧ R e.1 e.2 e'.2) t.toList u.toList := by
  induction h with
  | nil => exact .nil
  | cons head _ ih => exact .cons ⟨rfl, head⟩ ih

theorem Rel.lower {j : String} {above : Above b j} {t : From α (some j)} {u : From β (some j)}
    (h : Rel R t u) : Rel R (t.lower above) (u.lower above) := by
  cases h with
  | nil => exact .nil
  | cons head tail => exact .cons head tail

theorem Rel.filterKeys (p : String → Bool) {t : From α b} {u : From β b} (h : Rel R t u) :
    Rel R (t.filterKeys p) (u.filterKeys p) := by
  induction h with
  | nil => exact .nil
  | cons head _ ih =>
    simp only [From.filterKeys]
    split
    · exact .cons head ih
    · exact ih.lower

theorem Rel.map {γ δ : Type} {S : String → γ → δ → Prop} {f : α → γ} {g : β → δ} {t : From α b}
    {u : From β b} (h : Rel (fun k v w => S k (f v) (g w)) t u) : Rel S (t.map f) (u.map g) := by
  induction h with
  | nil => exact .nil
  | cons head _ ih => exact .cons head ih

/-- Functions take two tables to the same table if they take related values to the same. -/
theorem map_eq_map_iff {γ : Type} {f : α → γ} {g : β → γ} {b : Option String} :
    {t : From α b} → {u : From β b} → (t.map f = u.map g ↔ Rel (fun _ v w => f v = g w) t u)
  | .nil, .nil => ⟨fun _ => .nil, fun _ => rfl⟩
  | .nil, .cons .. => ⟨fun h => (nomatch h), fun h => (nomatch h)⟩
  | .cons .., .nil => ⟨fun h => (nomatch h), fun h => (nomatch h)⟩
  | .cons k _ v t, .cons k' _ w u => by
    refine ⟨fun h => ?_, fun h => ?_⟩
    · injection h with _ hk hv hr
      subst hk
      exact .cons hv (map_eq_map_iff.1 (eq_of_heq hr))
    · cases h with
      | cons head tail => rw [map, map, head, map_eq_map_iff.2 tail]

theorem map_id (t : From α b) : t.map id = t := by
  induction t with
  | nil => rfl
  | cons k above v rest ih => rw [map, ih, id]

/-- A table is a mapped one if each of its values is the one mapped. -/
theorem eq_map_iff {g : β → α} {t : From α b} {u : From β b} :
    t = u.map g ↔ Rel (fun _ v w => v = g w) t u := by
  rw [← map_id t, map_eq_map_iff, map_id]
  rfl

theorem Rel.contains_eq {t : From α b} {u : From β b} (h : Rel R t u) (k : String) :
    t.contains k = u.contains k := by
  rw [Bool.eq_iff_iff, contains_iff_mem_keys, contains_iff_mem_keys, h.keys_eq]

/-- What is found at a key of related tables is related. -/
theorem Rel.get? {t : From α b} {u : From β b} (h : Rel R t u) (k : String) :
    Option.Rel (R k) (t.get? k) (u.get? k) := by
  induction h with
  | nil => exact .none
  | cons head _ ih =>
    rw [get?_cons, get?_cons]
    split
    · next he => subst he; exact .some head
    · exact ih

theorem Rel.get?_left {t : From α b} {u : From β b} (h : Rel R t u) {k : String} {v : α}
    (hv : t.get? k = some v) : ∃ w, u.get? k = some w ∧ R k v w := by
  have hk := h.get? k
  rw [hv] at hk
  generalize u.get? k = found at hk
  cases hk with
  | some hR => exact ⟨_, rfl, hR⟩

/-- A table is related to some table if each of its values is related to some value. -/
theorem exists_rel_iff {R : String → α → β → Prop} {b : Option String} {t : From α b} :
    (∃ u, Rel R t u) ↔ ∀ k v, t.get? k = some v → ∃ w, R k v w := by
  constructor
  · intro h k v hv
    obtain ⟨u, h⟩ := h
    obtain ⟨w, _, hw⟩ := h.get?_left hv
    exact ⟨w, hw⟩
  · intro h
    simp only [get?_eq_some_iff] at h
    induction t with
    | nil => exact ⟨.nil, .nil⟩
    | cons k above v rest ih =>
      simp only [toList, List.mem_cons] at h
      obtain ⟨w, head⟩ := h k v (.inl rfl)
      obtain ⟨u, tail⟩ := ih fun j x hx => h j x (.inr hx)
      exact ⟨.cons k above w u, .cons head tail⟩

theorem Rel.get?_right {t : From α b} {u : From β b} (h : Rel R t u) {k : String} {w : β}
    (hw : u.get? k = some w) : ∃ v, t.get? k = some v ∧ R k v w := by
  have hk := h.get? k
  rw [hw] at hk
  generalize t.get? k = found at hk
  cases hk with
  | some hR => exact ⟨_, rfl, hR⟩

end From

end Conform.Table
