/-
Type names, as schemas use them. A name is a URI, which begins with a word and a
colon, or it is short for one: `/p/r` stands for what the prefix `p` stands for,
followed by `r`.
-/
import Conform.Schema.Error
import Conform.Text.Word

namespace Conform.TypeName

/-- Does a name begin with a word and a colon? -/
def isUri (words : Text.WordClass) (name : String) : Bool :=
  let cs := name.toList
  !(cs.takeWhile words.contains).isEmpty && (cs.dropWhile words.contains).head? == some ':'

/-- The parts `p` and `r` of a name `/p/r`. The first part ends at the first
slash after the leading one, the second is not empty, and neither has a line
feed in it. -/
def split? (name : String) : Option (String × String) :=
  match name.toList with
  | '/' :: cs =>
    match cs.dropWhile (· != '/') with
    | _ :: rest =>
      if rest.isEmpty || cs.contains '\n' then none
      else some (String.ofList (cs.takeWhile (· != '/')), String.ofList rest)
    | [] => none
  | _ => none

/-- The URI that a name stands for, by a table of prefixes. -/
def expand (words : Text.WordClass) (prefixes : Table String) (name : String) :
    Except SchemaError String :=
  if isUri words name then .ok name
  else
    match split? name with
    | none => .error (.badTypeName name)
    | some (p, rest) =>
      match prefixes.get? p with
      | none => .error (.unknownPrefix p name)
      | some base => .ok (base ++ rest)

end Conform.TypeName
