import SqlService.Json.Token
import SqlService.Json.Document

/-!
# Reading JSON text

`Document.read?` reads a text that is one JSON value and blanks around it.  The tokens drive a
machine with a stack of open arrays and objects; a container that lies deeper than `maxDepth` is
kept as unreadable.  `Json.read?` asks for the value of the document as well.
-/

namespace SqlService

namespace Document

/-! ## §1 The machine -/

/-- An open container with what it holds so far, last first. -/
inductive Frame where
  | array (done : List Document)
  | object (done : List (Option String × Document))
  | field (done : List (Option String × Document)) (name : Option String)

/-- What may come next. -/
inductive Expect where
  | value
  | valueOrClose
  | name
  | nameOrClose
  | colon
  | commaOrClose
  | nothing
  deriving DecidableEq

/-- The open containers, innermost first, what may come next, and the document once it is
complete. -/
structure Machine where
  frames : List Frame
  expect : Expect
  result : Document

/-- The deepest nesting of containers whose content can be used. -/
def maxDepth : Nat := 127

/-- The machine before the first token. -/
def Machine.start : Machine := ⟨[], .value, .unreadable⟩

/-- A complete value goes into the innermost open container. -/
def Machine.accept (frames : List Frame) (d : Document) : Machine :=
  match frames with
  | [] => ⟨[], .nothing, d⟩
  | .array done :: fs => ⟨.array (d :: done) :: fs, .commaOrClose, .unreadable⟩
  | .object done :: fs => ⟨.object done :: fs, .commaOrClose, .unreadable⟩
  | .field done n :: fs => ⟨.object ((n, d) :: done) :: fs, .commaOrClose, .unreadable⟩

/-- A container that was opened inside `outer`. -/
def closed (outer : List Frame) (d : Document) : Document :=
  if outer.length < maxDepth then d else .unreadable

/-- One step of the machine. -/
def Machine.step? (m : Machine) (t : Json.Token) : Option Machine :=
  match m.expect, t, m.frames with
  -- Inside containers: what is expected decides, and the innermost frame agrees with it.
  | .colon, .colon, frames => some ⟨frames, .value, .unreadable⟩
  | .name, .string n, .object done :: fs => some ⟨.field done n :: fs, .colon, .unreadable⟩
  | .nameOrClose, .string n, .object done :: fs => some ⟨.field done n :: fs, .colon, .unreadable⟩
  | .nameOrClose, .closeObject, .object done :: fs =>
    some (accept fs (closed fs (.object done.reverse)))
  | .commaOrClose, .comma, .array done :: fs => some ⟨.array done :: fs, .value, .unreadable⟩
  | .commaOrClose, .closeArray, .array done :: fs =>
    some (accept fs (closed fs (.array done.reverse)))
  | .commaOrClose, .comma, .object done :: fs => some ⟨.object done :: fs, .name, .unreadable⟩
  | .commaOrClose, .closeObject, .object done :: fs =>
    some (accept fs (closed fs (.object done.reverse)))
  | .valueOrClose, .closeArray, .array done :: fs =>
    some (accept fs (closed fs (.array done.reverse)))
  -- Everything else is the start of a value or a fault.
  | expect, t, frames =>
    if expect = .value ∨ expect = .valueOrClose then
      match t with
      | .openArray => some ⟨.array [] :: frames, .valueOrClose, .unreadable⟩
      | .openObject => some ⟨.object [] :: frames, .nameOrClose, .unreadable⟩
      | .null => some (accept frames .null)
      | .bool b => some (accept frames (.bool b))
      | .number (some n) => some (accept frames (.number n))
      | .number none => some (accept frames .unreadable)
      | .string (some s) => some (accept frames (.string s))
      | .string none => some (accept frames .unreadable)
      | _ => none
    else none

/-! ## §2 Whole texts -/

/-- The document of a text. -/
def read? (text : String) : Option Document :=
  match Json.Token.scan? text.toList with
  | none => none
  | some tokens =>
    match tokens.foldlM Machine.step? Machine.start with
    | some ⟨[], .nothing, d⟩ => some d
    | _ => none

end Document

/-- The value of a text. -/
def Json.read? (text : String) : Option Json := (Document.read? text).bind Document.value?

end SqlService
