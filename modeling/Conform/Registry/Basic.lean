/-
Registries: which prefixes and which types there are. A type is a kind, or it has
been learned and stands for a schema.

The types are listed with the newest first. A schema that was learned is
compiled in the scope of the types older than its own, which are all it was able
to name when it was learned; so no type is ever looked up on the way to itself.
-/
import Conform.Registry.Compile

namespace Conform

/-- What a registered URI stands for. -/
inductive Entry where
  | kind (k : Kind)
  /-- A learned type: the schema as it was given. -/
  | learned (schema : Value)

/-- The text of an entry that shows what it holds. -/
def Entry.detailed : Entry → String
  | kind k => "Builtin(" ++ Text.quote k.uri ++ ")"
  | learned schema => "Alias(" ++ schema.detailed ++ ")"

structure Registry where
  prefixes : Table String
  /-- The types by URI, newest first. -/
  types : List (String × Entry)

namespace Registry

/-- What a URI means where the given types are registered. -/
def meaningIn (prefixes : Table String) : List (String × Entry) → String → Option Meaning
  | [], _ => none
  | (u, e) :: older, uri =>
    if u = uri then
      match e with
      | .kind k => some (.kind k)
      | .learned schema =>
        some (.learned (Scope.compile ⟨prefixes, meaningIn prefixes older⟩ schema))
    else meaningIn prefixes older uri

def scope (r : Registry) : Scope := ⟨r.prefixes, meaningIn r.prefixes r.types⟩

def compile (r : Registry) (schema : Value) : Logged Node := r.scope.compile schema

def expand (r : Registry) (name : String) : Except SchemaError String :=
  TypeName.expand .unicode r.prefixes name

def entry? (r : Registry) (uri : String) : Option Entry := r.types.lookup uri

def hasType (r : Registry) (uri : String) : Bool := (r.entry? uri).isSome

/-- The registered URIs, in order. -/
def uris (r : Registry) : List String := (Table.ofList (r.types.map fun e => (e.1, ()))).keys

def base? (r : Registry) (name : String) : Option String := r.prefixes.get? name

/-! ## Registries to start from -/

/-- The prefixes that are always there. -/
def defaultPrefixes : Table String := Table.ofList [("", coreNamespace), (".meta", metaNamespace)]

def bare : Registry := ⟨defaultPrefixes, []⟩

def core : Registry :=
  ⟨defaultPrefixes, CoreKind.list.reverse.map fun k => (k.uri, .kind (.core k))⟩

/-! ## Changes

A change is logged once it has been made, and a change that is refused leaves
the registry as it was. -/

/-- Adds a prefix under a name that is free. -/
def addPrefix (r : Registry) (name base : String) : Logged Registry :=
  if r.prefixes.contains name then .fail (.duplicatePrefix name)
  else do
    .log (.addedPrefix name base)
    pure { r with prefixes := r.prefixes.insert name base }

/-- Registers a kind under its URI, if that is free. -/
def register (r : Registry) (k : Kind) : Logged Registry :=
  if r.hasType k.uri then .fail (.duplicateType k.uri)
  else do
    .log (.registered k.uri)
    pure { r with types := (k.uri, .kind k) :: r.types }

/-- Learns a type under a URI that is free. Its schema has to compile, and is
kept as it was given. -/
def learn (r : Registry) (uri : String) (schema : Value) : Logged Registry :=
  if r.hasType uri then .fail (.duplicateType uri)
  else do
    let _ ← r.compile schema
    .log (.learned uri)
    pure { r with types := (uri, .learned schema) :: r.types }

end Registry

end Conform
