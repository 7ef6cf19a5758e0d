/-
Compiling schemas. A schema names a type; what the name means is looked up in a
scope, and a kind then makes the node, compiling the schemas inside the schema
in the same scope.

Schemas are nested to a finite depth, and what is inside one is less deep. So
`Scope.compile` needs no bound but the depth of its schema, and it satisfies an
equation in which no bound is left (`Scope.compile_eq`).
-/
import Conform.Registry.Construct
import Conform.Schema.TypeName

namespace Conform

/-- What a URI means to a schema. -/
inductive Meaning where
  /-- It is a kind, which takes parameters. -/
  | kind (k : Kind)
  /-- It is a learned type, whose schema compiles as told. -/
  | learned (node : Logged Node)

/-- Where type names have their meanings. -/
structure Scope where
  prefixes : Table String
  meaning : String → Option Meaning

/-- The members of a schema: a string is short for a schema of that type. -/
def schemaMembers? : Value → Option (Table Value)
  | .string s => some (Table.empty.insert "type" (.string s))
  | .map members => some members
  | _ => none

def typeName? (members : Table Value) : Option String := (members.get? "type").bind Value.string?

namespace Scope

/-- The node of members of the type that a URI means. -/
def compileMembers (scope : Scope) (sub : Value → Logged Node) (uri : String)
    (members : Table Value) : Logged Node :=
  match scope.meaning uri with
  | none => .fail (.unknownType uri)
  | some meaning => do
    .log (.compiling uri)
    match meaning with
    | .kind k => k.construct sub members
    | .learned node =>
      if members.keys.any (· != "type") then .fail (.composedTypeArguments uri) else node

/-- Compiles a schema, with the schemas inside it left to a function. -/
def compileWith (scope : Scope) (sub : Value → Logged Node) (schema : Value) : Logged Node :=
  match schemaMembers? schema with
  | none => .fail (.invalidType schema)
  | some members =>
    match typeName? members with
    | none => .fail (.invalidType schema)
    | some name => do
      let uri ← .ofExcept (TypeName.expand .unicode scope.prefixes name)
      scope.compileMembers sub uri members

/-- Compiles a schema that is nested no deeper than a bound. -/
def compileTo (scope : Scope) : Nat → Value → Logged Node
  | 0, schema => .fail (.invalidType schema)
  | bound + 1, schema => scope.compileWith (scope.compileTo bound) schema

def compile (scope : Scope) (schema : Value) : Logged Node := scope.compileTo schema.depth schema

end Scope

end Conform
