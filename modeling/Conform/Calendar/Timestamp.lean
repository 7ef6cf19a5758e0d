/-
Points in time, to the nanosecond, in universal time. A leap second is the
second second 59 of its minute: its nanoseconds count on from one milliard. At no
other second do they, although times of that kind could be put together by hand.
-/
import Conform.Calendar.Date

namespace Conform

def nanosPerSecond : Nat := 1000000000

/-- The parts that make a time of day. -/
def IsTimeOfDay (hour minute second nano : Nat) : Prop :=
  hour < 24 ∧ minute < 60 ∧ second < 60 ∧ nano < 2 * nanosPerSecond ∧
    (nanosPerSecond ≤ nano → second = 59)

instance (h m s n : Nat) : Decidable (IsTimeOfDay h m s n) :=
  inferInstanceAs (Decidable (_ ∧ _ ∧ _ ∧ _ ∧ _))

structure Timestamp where
  date : Date
  hour : Nat
  minute : Nat
  second : Nat
  nano : Nat
  is_time : IsTimeOfDay hour minute second nano
  deriving DecidableEq

namespace Timestamp

/-- The point in time on a date with the given time of day, if there is one. -/
def of? (date : Date) (hour minute second nano : Nat) : Option Timestamp :=
  if h : IsTimeOfDay hour minute second nano then some ⟨date, hour, minute, second, nano, h⟩
  else none

/-- A fraction of a second: nothing if it is zero, and else the fewest of three,
six or nine digits that give it exactly. -/
def fractionText (nano : Nat) : String :=
  if nano = 0 then ""
  else if nano % 1000000 = 0 then "." ++ Text.padded 3 (nano / 1000000)
  else if nano % 1000 = 0 then "." ++ Text.padded 6 (nano / 1000)
  else "." ++ Text.padded 9 nano

/-- The second as a clock shows it, a leap second being second 60. -/
def shownSecond (t : Timestamp) : Nat :=
  if nanosPerSecond ≤ t.nano then t.second + 1 else t.second

/-- A point in time as date and time of day, with a `Z` for universal time. -/
def text (t : Timestamp) : String :=
  t.date.text ++ "T" ++ Text.padded 2 t.hour ++ ":" ++ Text.padded 2 t.minute ++ ":" ++
    Text.padded 2 t.shownSecond ++ fractionText (t.nano % nanosPerSecond) ++ "Z"

end Timestamp

end Conform
