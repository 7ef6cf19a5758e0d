/-
Kinds: what makes nodes of schemas. Beside the core kinds there are kinds of a
user's own, which make a node of a schema's members and have no schemas inside
them. A node is to give the URI of the kind that made it. The core kinds keep to
that; of a user's kind it has to be asked (`Kind.Stamps`).
-/
import Conform.Check.Node

namespace Conform

/-- A kind of a user's own. It is registered under a URI, and may make any node
at all, of whatever URI. -/
structure CustomKind where
  uri : String
  /-- The node for the members of a schema. -/
  construct : Table Value → Except SchemaError Node

/-- A kind. -/
inductive Kind where
  | core (kind : CoreKind)
  | custom (kind : CustomKind)

/-- The URI that a kind is registered under. -/
def Kind.uri : Kind → String
  | core k => k.uri
  | custom k => k.uri

/-- The nodes of the kind give its URI as that of their kind. -/
def Kind.Stamps : Kind → Prop
  | core _ => True
  | custom k => ∀ members n, k.construct members = .ok n → n.uri = k.uri

/-- Refuses a schema that has a member other than its type and the parameters
allowed. The first such member counts. -/
def checkParameters (members : Table Value) (uri : String) (allowed : List String) :
    Except SchemaError Unit :=
  match members.keys.find? fun key => key != "type" && !allowed.contains key with
  | some key => .error (.unknownParameter key uri)
  | none => .ok ()

end Conform
