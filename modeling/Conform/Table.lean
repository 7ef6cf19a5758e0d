/-
Tables keyed by strings. A table lists its entries in increasing key order and
holds each key once, and both facts are part of its type: an entry may only be
put in front of entries whose keys all lie above its own. So a table is
determined by its list of entries (`Table.From.ext`), and no operation has to
say that it keeps the order.

`Table α` is a table with no lower bound on its keys. The bounded family
`Table.From α b` is what operations recurse on.
-/
namespace Conform

/-- A key lies strictly above a bound; without a bound every key does. -/
def Above : Option String → String → Prop
  | none, _ => True
  | some b, k => b < k

instance (b : Option String) (k : String) : Decidable (Above b k) :=
  match b with
  | none => isTrue trivial
  | some b => inferInstanceAs (Decidable (b < k))

/-- What lies above a key lies above everything that key lies above. -/
theorem Above.trans {b : Option String} {j k : String} (hj : Above b j) (hk : Above (some j) k) :
    Above b k := by
  cases b with
  | none => trivial
  | some b => exact String.lt_trans hj hk

/-- Entries in increasing key order, with every key above the bound. -/
inductive Table.From (α : Type) : Option String → Type where
  | nil {b : Option String} : Table.From α b
  /-- An entry, and further entries with greater keys. -/
  | cons {b : Option String} (key : String) (above : Above b key) (value : α)
      (rest : Table.From α (some key)) : Table.From α b

abbrev Table (α : Type) : Type := Table.From α none

namespace Table

namespace From

variable {α β : Type} {b : Option String}

def toList {b : Option String} : From α b → List (String × α)
  | nil => []
  | cons k _ v rest => (k, v) :: rest.toList

def keys (t : From α b) : List String := t.toList.map Prod.fst

def get? {b : Option String} (k : String) : From α b → Option α
  | nil => none
  | cons k' _ v rest => if k = k' then some v else rest.get? k

def contains (t : From α b) (k : String) : Bool := (t.get? k).isSome

def size (t : From α b) : Nat := t.toList.length

def isEmpty : From α b → Bool
  | nil => true
  | cons .. => false

/-- Puts a value at a key that the bound allows, in place of an older one. -/
def insertAbove {b : Option String} (k : String) (v : α) (h : Above b k) : From α b → From α b
  | nil => cons k h v nil
  | cons k' h' v' rest =>
    if lt : k < k' then cons k h v (cons k' lt v' rest)
    else if eq : k = k' then cons k' h' v rest
    else cons k' h' v' (rest.insertAbove k v (by
      rcases Std.lt_trichotomy k k' with h₁ | h₁ | h₁
      · exact absurd h₁ lt
      · exact absurd h₁ eq
      · exact h₁))

def map {b : Option String} (f : α → β) : From α b → From β b
  | nil => nil
  | cons k h v rest => cons k h (f v) (rest.map f)

/-- The same entries under a lower bound. -/
def lower {j : String} (h : Above b j) : From α (some j) → From α b
  | nil => nil
  | cons k hk v rest => cons k (h.trans hk) v rest

/-- The entries whose keys pass a test. -/
def filterKeys {b : Option String} (p : String → Bool) : From α b → From α b
  | nil => nil
  | cons k h v rest =>
    if p k then cons k h v (rest.filterKeys p) else lower h (rest.filterKeys p)

/-- Applies a function with effects to every entry, in key order. -/
def traverse {m : Type → Type} [Monad m] {b : Option String} (f : String → α → m β) :
    From α b → m (From β b)
  | nil => pure nil
  | cons k h v rest => do
    let w ← f k v
    let rest' ← rest.traverse f
    pure (cons k h w rest')

/-! ## The entries determine the table -/

theorem ext {b : Option String} : {t u : From α b} → t.toList = u.toList → t = u
  | nil, nil, _ => rfl
  | nil, cons .., h => by simp [toList] at h
  | cons .., nil, h => by simp [toList] at h
  | cons k _ v t, cons k' _ v' u, h => by
    simp only [toList, List.cons.injEq, Prod.mk.injEq] at h
    obtain ⟨⟨rfl, rfl⟩, h⟩ := h
    rw [ext h]

theorem ext_iff {t u : From α b} : t = u ↔ t.toList = u.toList :=
  ⟨fun h => h ▸ rfl, ext⟩

instance [DecidableEq α] : DecidableEq (From α b) := fun _ _ => decidable_of_iff' _ ext_iff

theorem above_of_mem {b : Option String} : {t : From α b} → {e : String × α} → e ∈ t.toList →
    Above b e.1
  | cons k h v rest, e, he => by
    simp only [toList, List.mem_cons] at he
    rcases he with rfl | he
    · exact h
    · exact h.trans (above_of_mem he)

/-- Keys increase along a table. -/
theorem pairwise_toList {b : Option String} :
    (t : From α b) → t.toList.Pairwise fun e₁ e₂ => e₁.1 < e₂.1
  | nil => List.Pairwise.nil
  | cons _ _ _ rest => List.Pairwise.cons (fun _ he => above_of_mem he) rest.pairwise_toList

/-! ## Looking up -/

@[simp] theorem get?_nil (k : String) : (nil : From α b).get? k = none := rfl

theorem get?_cons (k k' : String) (h : Above b k') (v : α) (rest : From α (some k')) :
    (cons k' h v rest).get? k = if k = k' then some v else rest.get? k := rfl

/-- A table gives a value at a key exactly when it lists that entry. -/
theorem get?_eq_some_iff {b : Option String} {k : String} {v : α} :
    (t : From α b) → (t.get? k = some v ↔ (k, v) ∈ t.toList)
  | nil => by simp [toList]
  | cons k' h v' rest => by
    rw [get?_cons, toList, List.mem_cons, Prod.mk.injEq]
    by_cases e : k = k'
    · subst e
      simp only [if_true, Option.some.injEq, true_and]
      constructor
      · intro h; exact .inl h.symm
      · rintro (h | h)
        · exact h.symm
        · exact absurd (above_of_mem h) (String.lt_irrefl k)
    · simp only [e, if_false, false_and, false_or]
      exact get?_eq_some_iff rest

@[simp] theorem get?_map (f : α → β) (k : String) {b : Option String} :
    (t : From α b) → (t.map f).get? k = (t.get? k).map f
  | nil => rfl
  | cons k' h v rest => by
    simp only [map, get?_cons, get?_map f k rest]
    split <;> rfl

@[simp] theorem toList_map (f : α → β) {b : Option String} :
    (t : From α b) → (t.map f).toList = t.toList.map fun e => (e.1, f e.2)
  | nil => rfl
  | cons k h v rest => by simp [map, toList, toList_map f rest]

@[simp] theorem toList_lower {j : String} (h : Above b j) (t : From α (some j)) :
    (t.lower h).toList = t.toList := by
  cases t <;> rfl

@[simp] theorem toList_filterKeys (p : String → Bool) {b : Option String} :
    (t : From α b) → (t.filterKeys p).toList = t.toList.filter fun e => p e.1
  | nil => rfl
  | cons k h v rest => by
    by_cases hp : p k <;> simp [filterKeys, toList, hp, toList_filterKeys p rest]

/-- Putting a value at a key changes what is found there and nothing else. -/
theorem get?_insertAbove (k : String) (v : α) (j : String) {b : Option String} (h : Above b k) :
    (t : From α b) → (t.insertAbove k v h).get? j = if j = k then some v else t.get? j
  | nil => by simp [insertAbove, get?_cons]
  | cons k' h' v' rest => by
    rw [insertAbove]
    split
    · rfl
    · split
      · next e => subst e; simp only [get?_cons]; split <;> rfl
      · next hne =>
        rw [get?_cons, get?_cons, get?_insertAbove k v j _ rest]
        by_cases hj : j = k'
        · simp only [hj, if_true]
          rw [if_neg (fun e => hne e.symm)]
        · simp only [hj, if_false]

end From

variable {α : Type}

def empty : Table α := From.nil

/-- Puts a value at a key, in place of an older one. -/
def insert (t : Table α) (k : String) (v : α) : Table α := From.insertAbove k v trivial t

/-- The table of a list of entries. Of two entries with one key the later counts. -/
def ofList (entries : List (String × α)) : Table α :=
  entries.foldl (fun t e => t.insert e.1 e.2) empty

theorem get?_insert (t : Table α) (k : String) (v : α) (j : String) :
    (t.insert k v).get? j = if j = k then some v else t.get? j :=
  From.get?_insertAbove k v j (show Above none k from trivial) t

end Table

end Conform
