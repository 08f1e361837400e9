import SqlService.Json.Document
import SqlService.Error

/-!
# SQL items

An `Item` is a named SQL text: the connection it runs on, whether it only reads, and what it
answers with.
-/

namespace SqlService

/-- What an item answers with. -/
inductive ExecKind where
  /-- Every row. -/
  | query
  /-- The first row or nothing. -/
  | single
  /-- The first value of the first row. -/
  | scalar
  /-- The number of rows affected. -/
  | execute
  deriving DecidableEq, Repr

/-- A named SQL text. -/
structure Item where
  name : String
  /-- The text, in which other items may be referred to. -/
  text : String
  /-- The logical connection that the item runs on. -/
  connection : String := ""
  /-- An item that only reads never opens a transaction. -/
  readOnly : Bool := false
  kind : ExecKind := .query
  deriving DecidableEq, Repr

namespace ExecKind

/-- A kind as it is written in JSON. -/
def name : ExecKind → String
  | query => "query"
  | single => "single"
  | scalar => "scalar"
  | execute => "execute"

/-- The kind of a JSON name. -/
def ofName? : String → Option ExecKind
  | "query" => some query
  | "single" => some single
  | "scalar" => some scalar
  | "execute" => some execute
  | _ => none

/-- Reads a kind. -/
def read? (d : Document) : Option ExecKind := d.unitVariant?.bind ofName?

end ExecKind

namespace Item

/-- The item of a name among the given ones. -/
def named (items : Dictionary Item) (name : String) : Except DataError Item :=
  match items.get? name with
  | some i => .ok i
  | none => .error (.unknownItem name)

/-- The JSON form of an item. -/
def toJson (i : Item) : Json :=
  .object [("name", .string i.name), ("text", .string i.text),
    ("connection", .string i.connection), ("read_only", .bool i.readOnly),
    ("kind", .string i.kind.name)]

/-- Reads an item; only the name and the text must be there. -/
def read? (d : Document) : Option Item :=
  match d.parts? ["name", "text", "connection", "read_only", "kind"] with
  | some [name, text, connection, readOnly, kind] => do
    let name ← Document.required? Document.text? name
    let text ← Document.required? Document.text? text
    let connection ← Document.defaulted? "" Document.text? connection
    let readOnly ← Document.defaulted? false Document.flag? readOnly
    let kind ← Document.defaulted? .query ExecKind.read? kind
    return { name, text, connection, readOnly, kind }
  | _ => none

end Item

end SqlService
