/-
Checkers, which accept a value or say why they do not, and how the kinds make
them of other checkers.

Which of several faults a checker reports is fixed: tests of shape and size come
first, then the parts of the value in their order.
-/
import Conform.Check.Rejection
import Conform.Schema.CoreKind
import Conform.Range

namespace Conform

/-- Accepts a value, or rejects it. -/
abbrev Checker : Type := Value → Except Rejection Unit

namespace Checker

def accept : Except Rejection Unit := .ok ()

/-- Rejects the value at hand on behalf of a kind. -/
def reject (k : CoreKind) (message : String) : Except Rejection Unit :=
  .error ⟨message, k.path⟩

/-- Rejects a value that is not what was expected. -/
def rejectUnexpected (k : CoreKind) (expected : String) (v : Value) : Except Rejection Unit :=
  reject k ("expected " ++ expected ++ " got " ++ v.text)

/-- A result with the segment of the enclosing kind in front of the path. -/
def inside (k : CoreKind) (r : Except Rejection Unit) : Except Rejection Unit :=
  r.mapError (·.within k.path)

/-- A result with a path of the enclosing kind in place of its own. -/
def replacing (path : String) (r : Except Rejection Unit) : Except Rejection Unit :=
  r.mapError (·.relocated path)

/-- A test that is asked for or not. -/
def optionally {α : Type} (test : Option α) (f : α → Except Rejection Unit) :
    Except Rejection Unit :=
  match test with
  | none => accept
  | some a => f a

def accepts (c : Checker) (v : Value) : Bool := (c v).isOk

/-! ## Kinds that look at the value itself -/

def anything : Checker := fun _ => accept

def never : Checker := fun _ => reject .fail "explicit fail"

def boolean : Checker
  | .bool _ => accept
  | v => rejectUnexpected .boolean "bool" v

def date : Checker
  | .date _ => accept
  | v => rejectUnexpected .date "Date" v

def time : Checker
  | .time _ => accept
  | v => rejectUnexpected .time "Time" v

def defined : Checker
  | .null => rejectUnexpected .defined "defined value" .null
  | _ => accept

def nil : Checker
  | .null => accept
  | v => rejectUnexpected .nil "nil" v

/-- Accepts a single piece of data: a number, a string or a boolean. -/
def scalar : Checker
  | .number _ => accept
  | .string _ => accept
  | .bool _ => accept
  | v => rejectUnexpected .scalar "One" v

structure NumberTest where
  range : Option Range
  value : Option Number

/-- Accepts numbers in a range and of a certain value, on behalf of a kind. -/
def numberFor (k : CoreKind) (test : NumberTest) : Checker
  | v@(.number n) => do
    optionally test.range fun r =>
      if r.contains n then accept else rejectUnexpected k ("number in range " ++ r.text) v
    optionally test.value fun want =>
      if want.equals n then accept else rejectUnexpected k want.text v
  | v => rejectUnexpected k "number" v

/-- Accepts numbers in a range and of a certain value. -/
def number (test : NumberTest) : Checker := numberFor .number test

/-- Accepts such numbers if they have no fractional part. -/
def integer (test : NumberTest) : Checker := fun v => do
  numberFor .integer test v
  if v.number?.any Number.isIntegral then accept else rejectUnexpected .integer "Integer" v

structure StringTest where
  value : Option String
  length : Option Range

/-- Accepts strings whose number of characters is in a range, and of a certain value. -/
def string (test : StringTest) : Checker
  | v@(.string s) => do
    optionally test.length fun r =>
      if r.containsCount s.length then accept
      else
        reject .string ("expected string with length in range " ++ r.text ++ " got " ++
          Text.natural s.length)
    optionally test.value fun want =>
      if want = s then accept else rejectUnexpected .string (Text.quote want) v
  | v => rejectUnexpected .string "String" v

/-! ## Kinds that combine checkers -/

/-- Accepts what every checker accepts. -/
def all (parts : List Checker) : Checker := fun v =>
  parts.forM fun c => inside .all (c v)

/-- Accepts what some checker accepts. -/
def any (choices : List Checker) : Checker := fun v =>
  if choices.any fun c => c.accepts v then accept else reject .any "expected one to match"

/-! ## Kinds that look into the value -/

/-- Accepts sequences of a length in a range, of items that are all accepted. -/
def array (contents : Checker) (length : Option Range) : Checker
  | .seq items => do
    optionally length fun r =>
      if r.containsCount items.length then accept
      else
        reject .array ("expected array with length in range " ++ r.text ++ " got " ++
          Text.natural items.length)
    items.forM fun item => inside .array (contents item)
  | v => rejectUnexpected .array "array" v

/-- Accepts maps of values that are all accepted. -/
def map (values : Checker) : Checker
  | .map members => members.toList.forM fun e => inside .map (values e.2)
  | v => rejectUnexpected .map "map" v

/-- Accepts sequences whose items are accepted position by position. Items
beyond the last position are accepted as a sequence of their own by the tail. -/
def sequence (contents : List Checker) (tail : Option Checker) : Checker
  | .seq items =>
    if items.length < contents.length then
      reject .sequence ("expected at least " ++ Text.natural contents.length ++ " elements got " ++
        Text.natural items.length)
    else do
      (contents.zip items).forM fun p => inside .sequence (p.1 p.2)
      if items.length = contents.length then accept
      else
        match tail with
        | none =>
          reject .sequence ("expected no more than " ++ Text.natural contents.length ++
            " elements got " ++ Text.natural items.length)
        | some c => inside .sequence (c (.seq (items.drop contents.length)))
  | v => rejectUnexpected .sequence "array" v

/-- The path of a field of a record. -/
def fieldPath (name : String) : String := CoreKind.record.path ++ ":" ++ Text.mention name

/-- The checker of a declared field. -/
def field? (required optional : Table Checker) (name : String) : Option Checker :=
  (required.get? name).orElse fun _ => optional.get? name

/-- Accepts maps that have all required fields, whose declared fields are
accepted, and whose other members, if there are any, are accepted together as a
map of their own. -/
def record (required optional : Table Checker) (rest : Option Checker) : Checker
  | .map members => do
    members.toList.forM fun e =>
      match field? required optional e.1 with
      | none => accept
      | some c => replacing (fieldPath e.1) (c e.2)
    match required.keys.find? fun name => !members.contains name with
    | some missing =>
      reject .record ("expected key " ++ Text.mention missing ++ " in [" ++
        Text.mentions members.keys ++ "]")
    | none =>
      let others := members.filterKeys fun name => (field? required optional name).isNone
      if others.isEmpty then accept
      else
        match rest with
        | none => reject .record ("unexpected keys: [" ++ Text.mentions others.keys ++ "]")
        | some c => replacing CoreKind.record.path (c (.map others))
  | v => rejectUnexpected .record "map" v

end Checker

end Conform
