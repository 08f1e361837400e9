import SqlService.Record
import SqlService.Json.Document

/-!
# Steps and flows

A flow is an ordered list of steps.  A step invokes an SQL item, a function or another flow, with
arguments that may refer to the state of the flow: a string that starts with `$` is a path into the
state, and `$$` stands for a `$` of the text itself.
-/

namespace SqlService

/-- What a step invokes. -/
inductive StepKind where
  | sql
  | function
  | flow
  deriving DecidableEq, Repr

/-- A step of a flow. -/
structure Step where
  /-- The name under which the output goes into the state. -/
  name : String
  kind : StepKind
  /-- The name of the SQL item, the function or the flow. -/
  service : String
  args : Record := ∅

/-- A named list of steps. -/
structure Flow where
  name : String
  steps : List Step

namespace StepKind

/-- A kind as it is written in JSON. -/
def name : StepKind → String
  | sql => "sql"
  | function => "function"
  | flow => "flow"

/-- The kind of a JSON name. -/
def ofName? : String → Option StepKind
  | "sql" => some sql
  | "function" => some function
  | "flow" => some flow
  | _ => none

/-- Reads a kind. -/
def read? (d : Document) : Option StepKind := d.unitVariant?.bind ofName?

end StepKind

/-! ## §1 References into the state -/

namespace Json

/-- What a text stands for among the arguments: a path into the state, which leads to null where
there is nothing, or the text itself. -/
def resolveText (state : Record) (text : String) : Json :=
  match text.toList with
  -- Two signs stand for one, and what follows them is no path.
  | '$' :: '$' :: rest => .string (String.ofList ('$' :: rest))
  | '$' :: path => (Record.getPath? state (String.ofList path)).getD .null
  | _ => .string text

mutual

/-- The value with every reference replaced by what it leads to. -/
def resolve (state : Record) : Json → Json
  | string s => resolveText state s
  | array items => array (resolveItems state items)
  | object fields => object (resolveFields state fields)
  | null => null
  | bool b => bool b
  | number n => number n

/-- The items with every reference replaced. -/
def resolveItems (state : Record) : List Json → List Json
  | [] => []
  | x :: xs => resolve state x :: resolveItems state xs

/-- The fields with every reference in their values replaced. -/
def resolveFields (state : Record) : List (String × Json) → List (String × Json)
  | [] => []
  | (n, x) :: fs => (n, resolve state x) :: resolveFields state fs

end

end Json

namespace Step

/-- The arguments of a step in the given state. -/
def resolveArgs (s : Step) (state : Record) : Record := s.args.map (Json.resolve state)

/-! ## §2 JSON form -/

/-- The JSON form of a step. -/
def toJson (s : Step) : Json :=
  .object [("name", .string s.name), ("kind", .string s.kind.name),
    ("service", .string s.service), ("args", Record.toJson s.args)]

/-- Reads the arguments of a step. -/
def readArgs? (d : Document) : Option Record := d.value?.bind Record.ofJson?

/-- Reads a step; only the arguments may be missing. -/
def read? (d : Document) : Option Step :=
  match d.parts? ["name", "kind", "service", "args"] with
  | some [name, kind, service, args] => do
    let name ← Document.required? Document.text? name
    let kind ← Document.required? StepKind.read? kind
    let service ← Document.required? Document.text? service
    let args ← Document.defaulted? ∅ readArgs? args
    return { name, kind, service, args }
  | _ => none

end Step

namespace Flow

/-- The JSON form of a flow. -/
def toJson (f : Flow) : Json :=
  .object [("name", .string f.name), ("steps", .array (f.steps.map Step.toJson))]

/-- Reads a flow. -/
def read? (d : Document) : Option Flow :=
  match d.parts? ["name", "steps"] with
  | some [name, steps] => do
    let name ← Document.required? Document.text? name
    let steps ← Document.required? (Document.listOf? Step.read?) steps
    return { name, steps }
  | _ => none

end Flow

end SqlService
