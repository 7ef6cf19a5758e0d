/-
How each kind makes a node of a schema. Schemas inside the schema are compiled
by a function that is handed in, in the order in which they are met here: the
first fault in that order is the one reported.
-/
import Conform.Check.Node
import Conform.Registry.Logged
import Conform.Schema.Kind

namespace Conform

namespace CoreKind

/-- A parameter that the kind cannot do without. -/
def required (k : CoreKind) (members : Table Value) (parameter : String) : Logged Value :=
  match members.get? parameter with
  | some v => pure v
  | none => .fail (.missingParameter parameter k.uri)

/-- A parameter that may be there, read by a function. -/
def optional {α : Type} (members : Table Value) (parameter : String) (read : Value → Logged α) :
    Logged (Option α) :=
  match members.get? parameter with
  | some v => some <$> read v
  | none => pure none

def compileList (sub : Value → Logged Node) : List Value → Logged (List Node)
  | [] => pure []
  | v :: vs => do
    let n ← sub v
    let ns ← compileList sub vs
    pure (n :: ns)

/-- A parameter that is a sequence of schemas, and not an empty one. -/
def schemas (k : CoreKind) (sub : Value → Logged Node) (parameter : String) :
    Value → Logged (List Node)
  | .seq (v :: vs) => compileList sub (v :: vs)
  | v => .fail (.invalidParameter parameter k.uri (.notSchemas v))

def range (v : Value) : Logged Range := .ofExcept (Range.ofValue v)

def numberValue (k : CoreKind) : Value → Logged Number
  | .number n => pure n
  | v => .fail (.invalidParameter "value" k.uri (.notNumber v))

def stringValue : Value → Logged String
  | .string s => pure s
  | v => .fail (.invalidParameter "value" CoreKind.string.uri (.notString v))

def numberTest (k : CoreKind) (members : Table Value) : Logged Checker.NumberTest := do
  let value ← optional members "value" k.numberValue
  let limits ← optional members "range" range
  pure ⟨limits, value⟩

/-- What a schema of whole numbers asks of a number. A value without fractional
part is the only one that can be met. -/
def integerTest (members : Table Value) : Logged Checker.NumberTest := do
  let test ← numberTest .integer members
  match test.value with
  | none => pure test
  | some n =>
    if n.isIntegral then pure test
    else .fail (.invalidParameter "value" CoreKind.integer.uri (.notInteger n))

def stringTest (members : Table Value) : Logged Checker.StringTest := do
  let value ← optional members "value" stringValue
  let length ← optional members "length" range
  pure ⟨value, length⟩

/-- The declared fields in a parameter of a record; none if it is not there. -/
def fields (members : Table Value) (parameter : String) : Logged (Table Value) :=
  match members.get? parameter with
  | none => pure Table.empty
  | some (.map fields) => pure fields
  | some v => .fail (.invalidParameter parameter CoreKind.record.uri (.notFields v))

/-- The node of a record. A field is declared once only. -/
def constructRecord (sub : Value → Logged Node) (members : Table Value) : Logged Node := do
  let requiredFields ← fields members "required"
  let required ← requiredFields.traverse fun _ v => sub v
  let optionalFields ← fields members "optional"
  let optional ← optionalFields.traverse fun name v =>
    if required.contains name then .fail (.duplicateField name) else sub v
  let rest ← CoreKind.optional members "rest" sub
  pure (.record required optional rest)

/-- The node of a schema whose members have been found to be parameters of the kind. -/
def constructNode (sub : Value → Logged Node) (members : Table Value) : CoreKind → Logged Node
  | all => do
    let parts ← required all members "of"
    let parts ← schemas all sub "of" parts
    pure (.all parts)
  | any => do
    let choices ← optional members "of" (schemas any sub "of")
    pure (match choices with
      | none => .anything
      | some choices => .any choices)
  | array => do
    let contents ← required array members "contents"
    let contents ← sub contents
    let length ← optional members "length" range
    pure (.array contents length)
  | boolean => pure .boolean
  | date => pure .date
  | defined => pure .defined
  | fail => pure .fail
  | integer => do
    let test ← integerTest members
    pure (.integer test)
  | map => do
    let values ← required map members "values"
    let values ← sub values
    pure (.map values)
  | nil => pure .nil
  | number => do
    let test ← numberTest number members
    pure (.number test)
  | scalar => pure .scalar
  | record => constructRecord sub members
  | sequence => do
    let contents ← required sequence members "contents"
    let contents ← schemas sequence sub "contents" contents
    let tail ← optional members "tail" sub
    pure (.sequence contents tail)
  | string => do
    let test ← stringTest members
    pure (.string test)
  | time => pure .time

/-- The node of a schema of the kind. -/
def construct (k : CoreKind) (sub : Value → Logged Node) (members : Table Value) : Logged Node := do
  .ofExcept (checkParameters members k.uri k.parameters)
  k.constructNode sub members

end CoreKind

def Kind.construct (k : Kind) (sub : Value → Logged Node) (members : Table Value) : Logged Node :=
  match k with
  | core k => k.construct sub members
  | custom k => .ofExcept (k.construct members)

end Conform
