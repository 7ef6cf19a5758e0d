/-
Numbers as documents hold them: a whole number of 64 bits, which is exact, or a
binary floating point number.

The two kinds are compared without rounding a whole number, so it is their exact
values that are compared. `4` and `4.0` are equal as numbers (`Number.equals`)
though not identical as data, and NaN equals nothing.
-/
import Conform.Number.Layout
import Conform.Number.Order

namespace Conform

/-- A whole number of 64 bits, or a binary floating point number. -/
inductive Number where
  | int (n : Int64)
  | float (x : Binary64)
  deriving DecidableEq

namespace Number

/-- The exact value of a number; NaN has none. -/
def extended : Number → Option Extended
  | int n => some (.exact (Dyadic.ofInt n.toInt))
  | float x => x.extended

/-- The order of a whole number and a binary number. Beyond the edges the binary
number alone decides. Between them the part of it before the point is a whole
number of 64 bits, and only if it is the same does the rest of it count. -/
def compareMixed? (n : Int64) (x : Binary64) : Option Ordering :=
  if x = .nan then none
  else if (x.compare? (.edge false)).any Ordering.isGE then some .lt
  else if x.compare? (.edge true) = some .lt then some .gt
  else
    match compare n x.truncate.toInt64 with
    | .eq => x.truncate.compare? x
    | unequal => some unequal

/-- The order of two numbers, if neither is NaN. -/
def compare? : Number → Number → Option Ordering
  | int n, int m => some (compare n m)
  | float x, float y => x.compare? y
  | int n, float x => compareMixed? n x
  | float x, int n => (compareMixed? n x).map Ordering.swap

/-- Have two numbers the same value? -/
def equals (a b : Number) : Bool := a.compare? b == some .eq

def less (a b : Number) : Bool := a.compare? b == some .lt

def atMost (a b : Number) : Bool := a.less b || a.equals b

def isIntegral : Number → Bool
  | int _ => true
  | float x => x.isIntegral

/-- The binary number nearest to a number. -/
def toBinary64 : Number → Binary64
  | int n => .ofInt n.toInt
  | float x => x

end Number

/-- In messages, exponents from -4 to 15 are written positionally, and an
exponent bears no plus sign. Of two equally near decimals the greater counts. -/
def Layout.message : Layout := ⟨.up, -4, 15, ""⟩

def Binary64.text : Binary64 → String
  | nan => "NaN"
  | infinite true => "-inf"
  | infinite false => "inf"
  | finite negative m q h => Layout.message.finite negative m q h

/-- A number in a message. A floating point number can be told from a whole one
by its point, its exponent or its letters. -/
def Number.text : Number → String
  | int n => Text.whole n.toInt
  | float x => x.text

end Conform
