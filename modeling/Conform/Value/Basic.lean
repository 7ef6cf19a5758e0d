/-
Values: data that has already been read from some document. Schemas are written
as values, and values are what schemas check.

A map is a table, so its members come in key order. Dates and times are opaque:
no document yields them, whoever reads a document may.
-/
import Conform.Table
import Conform.Number.Basic
import Conform.Calendar.Timestamp

namespace Conform

inductive Value where
  /-- The mark of an absent value. -/
  | null
  | bool (b : Bool)
  | number (n : Number)
  | string (s : String)
  | seq (items : List Value)
  | map (members : Table.From Value none)
  | date (d : Date)
  | time (t : Timestamp)

namespace Value

/-- The name of the value's shape. -/
def kind : Value → String
  | null => "nil"
  | bool _ => "boolean"
  | number _ => "number"
  | string _ => "string"
  | seq _ => "sequence"
  | map _ => "map"
  | date _ => "date"
  | time _ => "time"

def isNull : Value → Bool
  | null => true
  | _ => false

def bool? : Value → Option Bool
  | bool b => some b
  | _ => none

def number? : Value → Option Number
  | number n => some n
  | _ => none

def string? : Value → Option String
  | string s => some s
  | _ => none

def seq? : Value → Option (List Value)
  | seq items => some items
  | _ => none

def map? : Value → Option (Table Value)
  | map members => some members
  | _ => none

/-! ## Equality up to the spelling of numbers -/

mutual

/-- Are two values the same when numbers are compared by their exact values? No
value that holds a NaN is the same as any. -/
def equals : Value → Value → Bool
  | null, null => true
  | bool a, bool b => a == b
  | number a, number b => a.equals b
  | string a, string b => a == b
  | seq a, seq b => equalItems a b
  | map a, map b => equalMembers a b
  | date a, date b => a == b
  | time a, time b => a == b
  | _, _ => false

def equalItems : List Value → List Value → Bool
  | [], [] => true
  | a :: as, b :: bs => a.equals b && equalItems as bs
  | _, _ => false

/-- `equals`, member by member; the keys are the same. -/
def equalMembers {b₁ b₂ : Option String} : Table.From Value b₁ → Table.From Value b₂ → Bool
  | .nil, .nil => true
  | .cons k _ a as, .cons k' _ b bs => k == k' && a.equals b && equalMembers as bs
  | _, _ => false

end

/-! ## Nesting -/

mutual

/-- How deeply a value is nested; what holds no other value has depth one. -/
def depth : Value → Nat
  | seq items => depthOfItems items + 1
  | map members => depthOfMembers members + 1
  | _ => 1

def depthOfItems : List Value → Nat
  | [] => 0
  | v :: vs => max v.depth (depthOfItems vs)

def depthOfMembers {b : Option String} : Table.From Value b → Nat
  | .nil => 0
  | .cons _ _ v rest => max v.depth (depthOfMembers rest)

end

/-- An item of a sequence is less deep than the sequence. -/
theorem depth_le_depthOfItems {v : Value} : {vs : List Value} → v ∈ vs → v.depth ≤ depthOfItems vs
  | w :: ws, h => by
    rw [depthOfItems]
    rcases List.mem_cons.1 h with rfl | h
    · exact Nat.le_max_left ..
    · exact Nat.le_trans (depth_le_depthOfItems h) (Nat.le_max_right ..)

/-- A member of a map is less deep than the map. -/
theorem depth_le_depthOfMembers {k : String} {v : Value} {b : Option String} :
    {t : Table.From Value b} → (k, v) ∈ t.toList → v.depth ≤ depthOfMembers t
  | .cons k' _ w rest, h => by
    rw [depthOfMembers]
    simp only [Table.From.toList, List.mem_cons, Prod.mk.injEq] at h
    rcases h with ⟨_, rfl⟩ | h
    · exact Nat.le_max_left ..
    · exact Nat.le_trans (depth_le_depthOfMembers h) (Nat.le_max_right ..)

theorem depth_pos (v : Value) : 0 < v.depth := by
  cases v <;> simp [depth]

end Value

end Conform
