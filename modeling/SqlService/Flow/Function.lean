import SqlService.Flow.Error
import SqlService.Record

/-!
# Functions

A function that a step invokes has a `Reaction` to a record of arguments, which is its outcome
together with whether it requests cancellation of the flow.  The reaction may also depend on what
the function finds around it (the time, chance, a state of its own), which is a number that nothing
is known about.  Its output is the value that its record of results holds under `result`.
-/

namespace SqlService

/-- How a computation ends. -/
inductive Outcome (α : Type) where
  | returned (value : α)
  | failed (error : FlowError)
  /-- The computation panicked, with a text unless its payload was something else. -/
  | panicked (text : Option String)

/-- What a function does with its arguments. -/
structure Reaction (α : Type) where
  outcome : Outcome α
  /-- Whether the function requests cancellation. -/
  cancels : Bool := false

/-- A function that steps can invoke: its reaction to its arguments and to what it finds around
it. -/
abbrev FlowFunction : Type := Record → Nat → Reaction Record

/-- The field that holds the output of a function. -/
def resultKey : String := "result"

/-- Functions by name. -/
structure Functions where
  byName : Dictionary FlowFunction := ∅

namespace Functions

/-- The functions with one more, which replaces one of the same name. -/
def register (fs : Functions) (name : String) (f : FlowFunction) : Functions :=
  ⟨fs.byName.insert name f⟩

/-- Whether a function of that name is registered. -/
def contains (fs : Functions) (name : String) : Bool := fs.byName.contains name

/-- The output among the results of a function. -/
def output (name : String) (results : Record) : Outcome Json :=
  match results.get? resultKey with
  | some v => .returned v
  | none => .failed (.missingResult name)

/-- What the function of that name does with the arguments when it finds `around` around it. -/
def invoke (fs : Functions) (name : String) (args : Record) (around : Nat := 0) : Reaction Json :=
  match fs.byName.get? name with
  | none => { outcome := .failed (.unknownFunction name) }
  | some f =>
    let r := f args around
    { cancels := r.cancels
      outcome :=
        match r.outcome with
        | .returned results => output name results
        | .failed e => .failed e
        | .panicked text => .panicked text }

/-! ## Sample functions -/

/-- A record that holds only an output. -/
def resultOf (v : Json) : Record := Dictionary.ofList [(resultKey, v)]

/-- A reaction that only returns an output. -/
def returning (v : Json) : Reaction Record := { outcome := .returned (resultOf v) }

/-- The panic that the arguments ask for. -/
def explosion (args : Record) : Option String :=
  match Record.text? args "how" with
  | some "string" => some (Record.text args "message")
  | some "other" => none
  | _ => some "boom"

/-- Functions for trying flows out: arithmetic, echoes, and every kind of failure. -/
def samples : Functions :=
  ⟨Dictionary.ofList [
    ("double", fun args _ => returning (.ofInt64 (2 * (Record.int? args "n").getD 0))),
    ("echo", fun args _ => returning (Record.toJson args)),
    ("null", fun _ _ => returning .null),
    ("silent", fun _ _ => { outcome := .returned (Dictionary.ofList [("other", .ofInt64 1)]) }),
    ("refuse", fun args _ =>
      { outcome := .failed (.coded (Record.text args "code") (Record.text args "message")) }),
    ("invalid", fun args _ =>
      { outcome := .failed (.invalidArgument (Record.text args "name") "rejected") }),
    ("dal_error", fun _ _ => { outcome := .failed (.data (.decode "c" "bad bytes")) }),
    ("stop", fun _ _ => { outcome := .returned (resultOf (.bool true)), cancels := true }),
    ("explode", fun args _ => { outcome := .panicked (explosion args) })]⟩

end Functions

end SqlService
