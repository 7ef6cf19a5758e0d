/-
Configurations: what a registry is to hold, as data that can be written down.
-/
import Conform.Registry.Basic
import Conform.Value.Json

namespace Conform

structure LearnedType where
  uri : String
  schema : Value

/-- The names of the parts of a type to be learned, in the order in which they are written. -/
def LearnedType.fields : List String := ["uri", "schema"]

/-- What a registry is to hold beside the prefixes that are always there. -/
structure Config where
  /-- Are the core kinds there from the start? -/
  loadCore : Bool
  /-- Prefixes to be added, in the order of their names. -/
  prefixes : Table String
  /-- Types to be learned, in this order. -/
  types : List LearnedType

namespace Config

/-- The registry that a configuration starts from. -/
def start (c : Config) : Registry := if c.loadCore then Registry.core else Registry.bare

def addPrefix (r : Registry) (p : String × String) : Logged Registry :=
  (r.addPrefix p.1 p.2).mapError (.config (.ofPrefix p.1))

def learn (r : Registry) (t : LearnedType) : Logged Registry :=
  (r.learn t.uri t.schema).mapError (.config (.ofType t.uri))

/-- The registry of a configuration. The first entry that cannot be applied is
named by the error. -/
def build (c : Config) : Logged Registry := do
  let r ← c.prefixes.toList.foldlM addPrefix c.start
  let r ← c.types.foldlM learn r
  .log (.built c.prefixes.size c.types.length c.loadCore)
  pure r

/-! ## JSON -/

/-- The names of the parts of a configuration, in the order in which they are written. -/
def fields : List String := ["load_core", "prefixes", "types"]

/-- A type to be learned, from JSON: exactly a URI and a schema. -/
def typeOfJson? (j : Json) : Option LearnedType := do
  let ms ← j.fields? LearnedType.fields
  match ms.get? "uri", ms.get? "schema" with
  | some (.string uri), some schema => some ⟨uri, Value.ofJson schema⟩
  | _, _ => none

/-- Whether to load the core kinds, from a member that may be left out. -/
def loadCoreOfJson? : Option Json → Option Bool
  | none => some true
  | some (.bool b) => some b
  | some _ => none

/-- Prefixes, from a member that may be left out. -/
def prefixesOfJson? : Option Json → Option (Table String)
  | none => some Table.empty
  | some (.object ms) =>
    ms.traverse fun _ j =>
      match j with
      | .string base => some base
      | _ => none
  | some _ => none

/-- Types, from a member that may be left out. -/
def typesOfJson? : Option Json → Option (List LearnedType)
  | none => some []
  | some (.array items) => items.mapM typeOfJson?
  | some _ => none

/-- A configuration, from JSON. Each of the three fields may be left out. -/
def ofJson? (j : Json) : Option Config := do
  let ms ← j.fields? fields
  let loadCore ← loadCoreOfJson? (ms.get? "load_core")
  let prefixes ← prefixesOfJson? (ms.get? "prefixes")
  let types ← typesOfJson? (ms.get? "types")
  some ⟨loadCore, prefixes, types⟩

def parse? (text : String) : Option Config := do
  let j ← Json.parse? text
  ofJson? j

def typeText (t : LearnedType) : String :=
  Json.objectText
    [Json.memberText "uri" (Json.stringText t.uri), Json.memberText "schema" t.schema.jsonText]

/-- A configuration as JSON text, with every member written. -/
def jsonText (c : Config) : String :=
  Json.objectText
    [Json.memberText "load_core" (if c.loadCore then "true" else "false"),
      Json.memberText "prefixes"
        (Json.objectText
          (c.prefixes.toList.map fun p => Json.memberText p.1 (Json.stringText p.2))),
      Json.memberText "types" (Json.arrayText (c.types.map typeText))]

end Config

end Conform
