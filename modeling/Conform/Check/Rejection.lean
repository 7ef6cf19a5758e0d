/-
Rejections: why a value was not accepted, and by which part of a schema. The
path starts at the part that rejected the value; what encloses that part puts a
segment in front, or puts its own segment in place of all of it.
-/
namespace Conform

/-- The answer to a value that is not accepted. -/
structure Rejection where
  message : String
  path : String
  deriving DecidableEq

namespace Rejection

/-- The rejection with a segment in front of its path. -/
def within (r : Rejection) (segment : String) : Rejection := { r with path := segment ++ r.path }

def relocated (r : Rejection) (path : String) : Rejection := { r with path := path }

/-- The message, and the path in parentheses. -/
def text (r : Rejection) : String := r.message ++ " (" ++ r.path ++ ")"

end Rejection

end Conform
