/-
Ranges: up to four bounds on a number, two of which the number may reach and two
of which it may not. Bounds are compared by exact values, so a whole number of
any size is checked against a floating point bound without being rounded.
-/
import Conform.Schema.Error

namespace Conform

/-- The four bounds that a range may have, in the order in which they are told. -/
inductive Bound where
  | min
  | minExclusive
  | maxExclusive
  | max
  deriving DecidableEq

namespace Bound

def all : List Bound := [min, minExclusive, maxExclusive, max]

/-- The bound that a key of a schema names. Exclusive bounds have two spellings. -/
def ofKey? (key : String) : Option Bound :=
  if key = "min" then some min
  else if key = "min-ex" ∨ key = "min_exclusive" then some minExclusive
  else if key = "max" then some max
  else if key = "max-ex" ∨ key = "max_exclusive" then some maxExclusive
  else none

def name : Bound → String
  | min => "min"
  | minExclusive => "min-ex"
  | maxExclusive => "max-ex"
  | max => "max"

/-- Does a number keep to a bound that is set at `limit`? -/
def admits (b : Bound) (limit x : Number) : Bool :=
  match b with
  | min => limit.atMost x
  | minExclusive => limit.less x
  | maxExclusive => x.less limit
  | max => x.atMost limit

end Bound

structure Range where
  min : Option Number
  minExclusive : Option Number
  maxExclusive : Option Number
  max : Option Number

namespace Range

def unbounded : Range := ⟨none, none, none, none⟩

/-- Where a bound is set, if it is. -/
def get? (r : Range) : Bound → Option Number
  | .min => r.min
  | .minExclusive => r.minExclusive
  | .maxExclusive => r.maxExclusive
  | .max => r.max

def set (r : Range) (b : Bound) (limit : Number) : Range :=
  match b with
  | .min => { r with min := some limit }
  | .minExclusive => { r with minExclusive := some limit }
  | .maxExclusive => { r with maxExclusive := some limit }
  | .max => { r with max := some limit }

/-- Takes one entry of a map of bounds. -/
def addEntry (r : Range) (key : String) (v : Value) : Except SchemaError Range :=
  match Bound.ofKey? key with
  | none => .error (.unknownRangeBound key)
  | some b =>
    match v with
    | .number limit =>
      if (r.get? b).isSome then .error (.invalidRangeBound key .repeated)
      else .ok (r.set b limit)
    | _ => .error (.invalidRangeBound key (.notNumber v))

/-- The range of a map of bounds. The entries are taken in the order of their
keys, and the first that cannot be taken is the one at fault. -/
def ofValue : Value → Except SchemaError Range
  | .map entries => entries.toList.foldlM (fun r e => r.addEntry e.1 e.2) unbounded
  | v => .error (.invalidRangeBound "range" (.notBounds v))

/-- Does a number keep to every bound? -/
def contains (r : Range) (x : Number) : Bool :=
  Bound.all.all fun b =>
    match r.get? b with
    | none => true
    | some limit => b.admits limit x

/-- The greatest count that is told apart from others. -/
def greatestCount : Nat := 0x7fffffffffffffff

/-- Does a count keep to every bound? Counts beyond the greatest are taken for it. -/
def containsCount (r : Range) (n : Nat) : Bool :=
  r.contains (.int (Int64.ofNat (Nat.min n greatestCount)))

/-- Are the same bounds set, at numbers of the same value? -/
def equals (r s : Range) : Bool :=
  Bound.all.all fun b =>
    match r.get? b, s.get? b with
    | none, none => true
    | some x, some y => x.equals y
    | _, _ => false

def text (r : Range) : String :=
  let bounds := Bound.all.filterMap fun b => (r.get? b).map fun x => b.name ++ ": " ++ x.text
  if bounds.isEmpty then "(unbounded)" else "(" ++ ", ".intercalate bounds ++ ")"

end Range

end Conform
