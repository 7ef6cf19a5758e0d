/-
Compiled schemas: trees of kinds with their parameters. A node says which kind
it is and holds the nodes of its parts; what it accepts is a checker made of the
checkers of its parts.
-/
import Conform.Check.Checker

namespace Conform

/-- A compiled schema. -/
inductive Node where
  | all (parts : List Node)
  | any (choices : List Node)
  | anything
  | array (contents : Node) (length : Option Range)
  | boolean
  | date
  | defined
  | fail
  | integer (test : Checker.NumberTest)
  | map (values : Node)
  | nil
  | number (test : Checker.NumberTest)
  | scalar
  | record (required optional : Table.From Node none) (rest : Option Node)
  | sequence (contents : List Node) (tail : Option Node)
  | string (test : Checker.StringTest)
  | time
  /-- A node of a user's own, which may give any URI as that of its kind. -/
  | custom (uri : String) (checker : Checker)

namespace Node

def uri : Node → String
  | all _ => CoreKind.all.uri
  | any _ | anything => CoreKind.any.uri
  | array .. => CoreKind.array.uri
  | boolean => CoreKind.boolean.uri
  | date => CoreKind.date.uri
  | defined => CoreKind.defined.uri
  | fail => CoreKind.fail.uri
  | integer _ => CoreKind.integer.uri
  | map _ => CoreKind.map.uri
  | nil => CoreKind.nil.uri
  | number _ => CoreKind.number.uri
  | scalar => CoreKind.scalar.uri
  | record .. => CoreKind.record.uri
  | sequence .. => CoreKind.sequence.uri
  | string _ => CoreKind.string.uri
  | time => CoreKind.time.uri
  | custom uri _ => uri

mutual

/-- What a node accepts, and how it rejects the rest. -/
def checker : Node → Checker
  | all parts => Checker.all (checkers parts)
  | any choices => Checker.any (checkers choices)
  | anything => Checker.anything
  | array contents length => Checker.array contents.checker length
  | boolean => Checker.boolean
  | date => Checker.date
  | defined => Checker.defined
  | fail => Checker.never
  | integer test => Checker.integer test
  | map values => Checker.map values.checker
  | nil => Checker.nil
  | number test => Checker.number test
  | scalar => Checker.scalar
  | record required optional rest =>
    Checker.record (fieldCheckers required) (fieldCheckers optional) (checker? rest)
  | sequence contents tail => Checker.sequence (checkers contents) (checker? tail)
  | string test => Checker.string test
  | time => Checker.time
  | custom _ c => c

def checkers : List Node → List Checker
  | [] => []
  | n :: ns => n.checker :: checkers ns

def fieldCheckers {b : Option String} : Table.From Node b → Table.From Checker b
  | .nil => .nil
  | .cons k h n rest => .cons k h n.checker (fieldCheckers rest)

def checker? : Option Node → Option Checker
  | none => none
  | some n => some n.checker

end

theorem checkers_eq : (ns : List Node) → checkers ns = ns.map checker
  | [] => rfl
  | _ :: ns => congrArg _ (checkers_eq ns)

theorem fieldCheckers_eq {b : Option String} :
    (t : Table.From Node b) → fieldCheckers t = t.map checker
  | .nil => rfl
  | .cons _ _ _ rest => congrArg _ (fieldCheckers_eq rest)

def validate (n : Node) (v : Value) : Except Rejection Unit := n.checker v

def accepts (n : Node) (v : Value) : Bool := n.checker.accepts v

end Node

end Conform
