/-
JSON documents as they are written: members in the order of the text, each as
often as it stands there, and numerals with their spelling. What a document says
is for its readers to decide. Which binary number stands for a numeral with a
point or an exponent is left to a conversion (`Conversion`); one of them is exact
(`Numeral.binary64?`).
-/
import Conform.Number.Binary64

namespace Conform.Json

/-- A numeral: a sign, the digits on both sides of the point as one number, and
the power of ten they are multiplied by. -/
structure Numeral where
  negative : Bool
  digits : Nat
  exponent : Int
  /-- Is it written without a point and without an exponent? -/
  integral : Bool
  deriving DecidableEq

/-- A way to turn numerals into binary numbers. A numeral that it takes for too great has none. -/
abbrev Conversion : Type := Numeral → Option Binary64

namespace Numeral

/-- The whole number of a numeral without point and exponent. The numeral `-0`
has none, because a whole number has no negative zero. -/
def integer? (n : Numeral) : Option Int :=
  if n.integral && !(n.negative && n.digits == 0) then
    some (if n.negative then -(n.digits : Int) else n.digits)
  else none

/-- The conversion that is exact: to the nearest binary number, unless the numeral is beyond the
greatest one. -/
def binary64? : Conversion := fun n =>
  let x := Binary64.ofDecimal n.negative n.digits n.exponent
  if x.isInfinite then none else some x

/-- The binary number of a numeral. Whole numbers of up to 64 bits are rounded as such, and only
what is left needs a conversion. -/
def round? (convert : Conversion) (n : Numeral) : Option Binary64 :=
  if n.integral && n.digits < 0x10000000000000000 then
    some (.nearest n.negative (.ofNat n.digits))
  else convert n

end Numeral

inductive Document where
  | null
  | bool (b : Bool)
  | numeral (n : Numeral)
  | string (s : String)
  | array (items : List Document)
  | object (members : List (String × Document))

end Conform.Json
