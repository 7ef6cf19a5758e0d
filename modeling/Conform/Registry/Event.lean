/-
What a registry logs: the changes made to it, and the schemas it compiles.
-/
import Conform.Text.Digits

namespace Conform

inductive Event where
  | addedPrefix (name base : String)
  | registered (uri : String)
  | learned (uri : String)
  /-- A registry has been built from a configuration of so many entries. -/
  | built (prefixes types : Nat) (loadCore : Bool)
  /-- A schema of a type is about to be compiled. -/
  | compiling (uri : String)
  deriving DecidableEq

namespace Event

/-- How much an event matters. -/
inductive Level where
  | debug
  | trace
  deriving DecidableEq

def Level.text : Level → String
  | debug => "DEBUG"
  | trace => "TRACE"

/-- Changes matter more than what is compiled. -/
def level : Event → Level
  | compiling _ => .trace
  | _ => .debug

def message : Event → String
  | addedPrefix .. => "added type prefix"
  | registered _ => "registered type"
  | learned _ => "learned type"
  | built .. => "built registry from config"
  | compiling _ => "compiling schema"

/-- The particulars of an event, by name. -/
def fields : Event → List (String × String)
  | addedPrefix name base => [("prefix", name), ("base", base)]
  | registered uri | learned uri | compiling uri => [("uri", uri)]
  | built prefixes types loadCore =>
    [("prefixes", Text.natural prefixes), ("types", Text.natural types),
      ("load_core", if loadCore then "true" else "false")]

end Event

end Conform
