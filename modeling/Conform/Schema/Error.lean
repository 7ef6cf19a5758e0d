/-
What can be wrong with a schema, or with a step that sets up a registry. Each
error is a cause; its wording is in `SchemaError.message` alone.
-/
import Conform.Value.Text

namespace Conform

/-- What is wrong with a parameter that is present. -/
inductive ParameterFault where
  /-- It is no sequence of schemas, or an empty one. -/
  | notSchemas (found : Value)
  /-- It is no map from fields to schemas. -/
  | notFields (found : Value)
  | notNumber (found : Value)
  | notString (found : Value)
  /-- It is a number with a fractional part, or none at all. -/
  | notInteger (found : Number)
  /-- A fault that a kind of a user's own states in words. -/
  | stated (reason : String)

/-- What is wrong with a bound of a range. -/
inductive BoundFault where
  | notBounds (found : Value)
  | notNumber (found : Value)
  /-- The bound has already been given in its other spelling. -/
  | repeated

/-- An entry of a configuration. -/
inductive ConfigEntry where
  | ofPrefix (name : String)
  | ofType (uri : String)

/-- Why a schema does not compile, or why a registry refuses a change. -/
inductive SchemaError where
  /-- A schema is neither a string nor a map whose `type` is a string. -/
  | invalidType (found : Value)
  /-- A type name has neither of its two forms. -/
  | badTypeName (name : String)
  /-- A type name uses a prefix that the registry does not hold. -/
  | unknownPrefix (used : String) (name : String)
  /-- No type is registered under a URI. -/
  | unknownType (uri : String)
  /-- A schema gives parameters to a learned type. -/
  | composedTypeArguments (uri : String)
  /-- A kind does not know a parameter. -/
  | unknownParameter (parameter : String) (uri : String)
  /-- A kind misses a parameter. -/
  | missingParameter (parameter : String) (uri : String)
  /-- A kind cannot use a parameter. -/
  | invalidParameter (parameter : String) (uri : String) (fault : ParameterFault)
  /-- A field is declared both as required and as optional. -/
  | duplicateField (field : String)
  /-- A type is already registered under a URI. -/
  | duplicateType (uri : String)
  /-- A prefix is already registered under a name. -/
  | duplicatePrefix (name : String)
  /-- A range has a bound of no known name. -/
  | unknownRangeBound (key : String)
  /-- A range has a bound that cannot be used. -/
  | invalidRangeBound (key : String) (fault : BoundFault)
  /-- An entry of a configuration could not be applied. -/
  | config (entry : ConfigEntry) (source : SchemaError)

def ParameterFault.message : ParameterFault → String
  | notSchemas v => "expected a non-empty sequence of schemas, got " ++ v.text
  | notFields v => "expected a map of field schemas, got " ++ v.text
  | notNumber v => "expected a numeric literal, got " ++ v.text
  | notString v => "expected a string literal, got " ++ v.text
  | notInteger n => n.text ++ " is not an integer"
  | stated reason => reason

def BoundFault.message : BoundFault → String
  | notBounds v => "expected a map of bounds, got " ++ v.text
  | notNumber v => "expected a number, got " ++ v.text
  | repeated => "bound given more than once"

def ConfigEntry.text : ConfigEntry → String
  | ofPrefix name => "prefix " ++ Text.mention name
  | ofType uri => "type " ++ uri

/-- The wording of an error. -/
def SchemaError.message : SchemaError → String
  | invalidType v => "invalid type: " ++ v.text
  | badTypeName name => "couldn't understand type name " ++ Text.mention name
  | unknownPrefix used name =>
    "unknown prefix " ++ Text.mention used ++ " in type name " ++ Text.mention name
  | unknownType uri => "unknown type " ++ uri
  | composedTypeArguments uri => "composed type does not take check arguments: " ++ uri
  | unknownParameter p uri => "unknown parameter " ++ p ++ " for " ++ uri
  | missingParameter p uri => "no " ++ p ++ " given for " ++ uri
  | invalidParameter p uri fault =>
    "invalid " ++ p ++ " parameter for " ++ uri ++ ": " ++ fault.message
  | duplicateField field => field ++ " appears in both required and optional"
  | duplicateType uri => "tried to register already-registered type " ++ uri
  | duplicatePrefix name => "the prefix " ++ Text.mention name ++ " is already registered"
  | unknownRangeBound key => "illegal argument " ++ key ++ " to range"
  | invalidRangeBound key fault => "invalid range bound " ++ key ++ ": " ++ fault.message
  | config entry source => "registry configuration entry " ++ entry.text ++ ": " ++ source.message

end Conform
