/-
Reading values by trial. The content of a document is kept as it stands, and the shapes of values
are tried on it in their order; the first that fits is taken (`Buffered.read?`). Some shape fits all
contents, and it is the one that the content shows, whatever is taken for a date or a time
(`Buffered.read?_eq`). So reading by trial is reading the document directly
(`Buffered.map_value_ofDocument?`).
-/
import Conform.Proofs.Json.Number
import Conform.Proofs.Table

namespace Conform

open Json (Conversion Document Numeral)

/-- The content of a document. Whole numbers of 64 bits are kept as such, and an object has its
members in their order, each as often as it is given. -/
inductive Buffered where
  | null
  | bool (b : Bool)
  | natural (n : UInt64)
  | negative (n : Int64)
  | float (x : Binary64)
  | string (s : String)
  | seq (items : List Buffered)
  | map (members : List (String × Buffered))

namespace Buffered

/-! ## Content -/

section

variable (convert : Conversion)

/-- The content of a numeral, unless it is too great. -/
def ofNumeral? (n : Numeral) : Option Buffered :=
  match n.integer? with
  | some i =>
    if 0 ≤ i ∧ i < 0x10000000000000000 then some (natural (.ofNat i.toNat))
    else if i < 0 ∧ -0x8000000000000000 ≤ i then some (negative (.ofInt i))
    else (n.round? convert).map float
  | none => (n.round? convert).map float

mutual

def ofDocument? : Document → Option Buffered
  | .null => some null
  | .bool b => some (bool b)
  | .numeral n => ofNumeral? convert n
  | .string s => some (string s)
  | .array items => seq <$> ofItems? items
  | .object members => map <$> ofMembers? members

def ofItems? : List Document → Option (List Buffered)
  | [] => some []
  | d :: ds => do
    let c ← ofDocument? d
    let cs ← ofItems? ds
    some (c :: cs)

def ofMembers? : List (String × Document) → Option (List (String × Buffered))
  | [] => some []
  | (k, d) :: ds => do
    let c ← ofDocument? d
    let cs ← ofMembers? ds
    some ((k, c) :: cs)

end

end

/-! ## The shapes of values -/

def null? : Buffered → Option Value
  | null => some .null
  | _ => none

def bool? : Buffered → Option Bool
  | bool b => some b
  | _ => none

/-- A whole number that has a place among those of 64 bits with a sign. -/
def int? : Buffered → Option Int64
  | natural n => if n.toNat < 0x8000000000000000 then some (.ofNat n.toNat) else none
  | negative n => some n
  | _ => none

/-- A floating point number. A whole number is rounded to one. -/
def float? : Buffered → Option Binary64
  | natural n => some (.ofInt n.toNat)
  | negative n => some (.ofInt n.toInt)
  | float x => some x
  | _ => none

/-- A number of the first of its two kinds that fits. -/
def number? (c : Buffered) : Option Number :=
  Number.int <$> c.int? <|> Number.float <$> c.float?

def string? : Buffered → Option String
  | string s => some s
  | _ => none

section

variable (date? : Buffered → Option Date) (time? : Buffered → Option Timestamp)

mutual

/-- The value of the first shape that fits. -/
def read? (c : Buffered) : Option Value :=
  c.null? <|> Value.bool <$> c.bool? <|> Value.number <$> c.number? <|>
    Value.string <$> c.string? <|> Value.seq <$> seq? c <|> Value.map <$> map? c <|>
    Value.date <$> date? c <|> Value.time <$> time? c
termination_by (sizeOf c, 1)

/-- The items of a sequence, if all of them can be read. -/
def seq? (c : Buffered) : Option (List Value) :=
  match c with
  | seq items => readItems? items
  | _ => none
termination_by (sizeOf c, 0)

/-- The members of a map, if all of them can be read; at a key that is given twice, the last one. -/
def map? (c : Buffered) : Option (Table Value) :=
  match c with
  | map members => Table.ofList <$> readMembers? members
  | _ => none
termination_by (sizeOf c, 0)

def readItems? : List Buffered → Option (List Value)
  | [] => some []
  | c :: cs => do
    let v ← read? c
    let vs ← readItems? cs
    some (v :: vs)
termination_by cs => (sizeOf cs, 0)

def readMembers? : List (String × Buffered) → Option (List (String × Value))
  | [] => some []
  | (k, c) :: cs => do
    let v ← read? c
    let vs ← readMembers? cs
    some ((k, v) :: vs)
termination_by cs => (sizeOf cs, 0)

end

end

/-! ## What fits -/

mutual

/-- The value that a content shows. -/
def value : Buffered → Value
  | null => .null
  | bool b => .bool b
  | natural n => .number (.ofInt n.toNat)
  | negative n => .number (.int n)
  | float x => .number (.float x)
  | string s => .string s
  | seq items => .seq (itemValues items)
  | map members => .map (Table.ofList (memberValues members))

def itemValues : List Buffered → List Value
  | [] => []
  | c :: cs => c.value :: itemValues cs

def memberValues : List (String × Buffered) → List (String × Value)
  | [] => []
  | (k, c) :: cs => (k, c.value) :: memberValues cs

end

theorem number?_natural (n : UInt64) : (natural n).number? = some (.ofInt n.toNat) := by
  by_cases h : n.toNat < 0x8000000000000000
  · have fits : fitsInt64 n.toNat = true := by
      simp only [fitsInt64, Bool.and_eq_true, decide_eq_true_eq]
      omega
    simp [number?, int?, h, Number.ofInt, fits, Int64.ofNat, Int64.ofInt]
  · have beyond : fitsInt64 n.toNat = false := by
      simp only [fitsInt64, Bool.and_eq_false_iff, decide_eq_false_iff_not]
      omega
    simp [number?, int?, float?, h, Number.ofInt, beyond]

section

variable (date? : Buffered → Option Date) (time? : Buffered → Option Timestamp)

mutual

/-- Some shape fits every content, before dates and times are tried. -/
theorem read?_eq : (c : Buffered) → read? date? time? c = some c.value
  | null => by
    rw [read?]
    rfl
  | bool b => by
    rw [read?]
    rfl
  | natural n => by
    rw [read?, number?_natural]
    rfl
  | negative n => by
    rw [read?]
    rfl
  | float x => by
    rw [read?]
    rfl
  | string s => by
    rw [read?]
    rfl
  | seq items => by
    rw [read?, seq?, readItems?_eq items]
    rfl
  | map members => by
    have other : seq? date? time? (map members) = none := by simp [seq?]
    rw [read?, other, map?, readMembers?_eq members]
    rfl

theorem readItems?_eq : (cs : List Buffered) → readItems? date? time? cs = some (itemValues cs)
  | [] => by
    rw [readItems?]
    rfl
  | c :: cs => by
    rw [readItems?, read?_eq c, readItems?_eq cs]
    rfl

theorem readMembers?_eq :
    (cs : List (String × Buffered)) → readMembers? date? time? cs = some (memberValues cs)
  | [] => by
    rw [readMembers?]
    rfl
  | (k, c) :: cs => by
    rw [readMembers?, read?_eq c, readMembers?_eq cs]
    rfl

end

end

section

variable (convert : Conversion)

/-- Of a numeral, the number is read that it is read as directly. -/
theorem map_value_ofNumeral? (n : Numeral) :
    (ofNumeral? convert n).map value = Value.number <$> Number.ofNumeral? convert n := by
  have rounded (h : ∀ i, n.integer? = some i → fitsInt64 i = false) :
      ((n.round? convert).map float).map value = Value.number <$> Number.ofNumeral? convert n := by
    rw [Numeral.ofNumeral?_of_not_fits h]
    cases n.round? convert <;> rfl
  unfold ofNumeral?
  split
  · next i whole =>
    split
    · next word =>
      have cast : (i.toNat : Int) = i := Int.toNat_of_nonneg word.1
      rw [Numeral.ofNumeral?_of_whole whole (by omega)]
      simp [value, cast, Int.emod_eq_of_lt word.1 word.2]
    split
    · next word =>
      have fits : fitsInt64 i = true := fitsInt64_eq_true_iff.2 (by omega)
      rw [Numeral.ofNumeral?_of_whole whole (by omega), Number.ofInt, if_pos fits]
      rfl
    · refine rounded fun j hj => ?_
      cases whole.symm.trans hj
      exact fitsInt64_eq_false_iff.2 (by omega)
  · next none =>
    exact rounded fun i hi => by simp [none] at hi

mutual

theorem map_value_ofDocument? : (d : Document) →
    (ofDocument? convert d).map value = Value.ofDocument? convert d
  | .null => rfl
  | .bool _ => rfl
  | .numeral n => map_value_ofNumeral? convert n
  | .string _ => rfl
  | .array items => by
    rw [Value.ofDocument?, ← map_values_ofItems? items]
    cases h : ofItems? convert items <;> simp [ofDocument?, h, value]
  | .object members => by
    rw [Value.ofDocument?, ← map_values_ofMembers? members]
    cases h : ofMembers? convert members <;> simp [ofDocument?, h, value]

theorem map_values_ofItems? : (ds : List Document) →
    (ofItems? convert ds).map itemValues = Value.ofItems? convert ds
  | [] => rfl
  | d :: ds => by
    rw [Value.ofItems?, ← map_value_ofDocument? d, ← map_values_ofItems? ds, ofItems?]
    cases ofDocument? convert d <;> cases ofItems? convert ds <;> rfl

theorem map_values_ofMembers? : (ms : List (String × Document)) →
    (ofMembers? convert ms).map memberValues = Value.ofMembers? convert ms
  | [] => rfl
  | (k, d) :: ms => by
    rw [Value.ofMembers?, ← map_value_ofDocument? d, ← map_values_ofMembers? ms, ofMembers?]
    cases ofDocument? convert d <;> cases ofMembers? convert ms <;> rfl

end

end

end Buffered

end Conform
