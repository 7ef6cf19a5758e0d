/-
Reading a document from its tokens. The reader keeps a stack of the arrays and
objects it is inside of, and takes one token after the other; what may come next
depends on its state alone. There is no limit to how deep arrays and objects may
stand in one another.
-/
import Conform.Json.Token

namespace Conform.Json

/-- An array or an object that is not closed yet, with what it holds so far, the
last first. An object waits for the value of a key. -/
inductive Frame where
  | items (done : List Document)
  | members (done : List (String × Document)) (key : String)

/-- What the reader has read so far, the innermost frame first. -/
inductive Reading where
  /-- A value must follow. -/
  | value (frames : List Frame)
  /-- Just inside an array: a value or the end of the array. -/
  | firstItem (frames : List Frame)
  /-- Just inside an object: a key or the end of the object. -/
  | firstMember (frames : List Frame)
  /-- After a comma in an object: a key. -/
  | member (frames : List Frame) (done : List (String × Document))
  /-- After a key: a colon. -/
  | colon (frames : List Frame) (done : List (String × Document)) (key : String)
  /-- After a value: a comma or the end of what holds it, or nothing. -/
  | after (frames : List Frame) (read : Document)

namespace Reading

def begin? (frames : List Frame) : Token → Option Reading
  | .null => some (after frames .null)
  | .bool b => some (after frames (.bool b))
  | .numeral n => some (after frames (.numeral n))
  | .string s => some (after frames (.string s))
  | .openBracket => some (firstItem frames)
  | .openBrace => some (firstMember frames)
  | _ => none

def step? : Reading → Token → Option Reading
  | value frames, t => begin? frames t
  | firstItem frames, .closeBracket => some (after frames (.array []))
  | firstItem frames, t => begin? (.items [] :: frames) t
  | firstMember frames, .closeBrace => some (after frames (.object []))
  | firstMember frames, .string k => some (colon frames [] k)
  | member frames done, .string k => some (colon frames done k)
  | colon frames done k, .colon => some (value (.members done k :: frames))
  | after (.items done :: frames) d, .comma => some (value (.items (d :: done) :: frames))
  | after (.items done :: frames) d, .closeBracket =>
    some (after frames (.array (d :: done).reverse))
  | after (.members done k :: frames) d, .comma => some (member frames ((k, d) :: done))
  | after (.members done k :: frames) d, .closeBrace =>
    some (after frames (.object ((k, d) :: done).reverse))
  | _, _ => none

/-- The document, if one has been read in full. -/
def finished? : Reading → Option Document
  | after [] d => some d
  | _ => none

end Reading

/-- The document that a text is, if it is one. -/
def Document.parse? (text : String) : Option Document := do
  let tokens ← tokens? text.toList
  let reading ← tokens.foldlM Reading.step? (.value [])
  reading.finished?

end Conform.Json
