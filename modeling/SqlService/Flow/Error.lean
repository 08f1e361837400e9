import SqlService.Error

/-!
# Errors of flows

Why a flow did not complete.  Business errors carry a code of their own, which is reported to the
caller unchanged, and so does cancellation; all other errors have a message only.
-/

namespace SqlService

/-- Why a flow did not complete. -/
inductive FlowError where
  /-- A statement could not be built or run. -/
  | data (error : DataError)
  /-- A business error with its own code. -/
  | coded (code text : String)
  /-- No connection is registered under the name. -/
  | unknownConnection (name : String)
  /-- The connection has been closed already. -/
  | closedConnection (name : String)
  /-- No function is registered under the name. -/
  | unknownFunction (name : String)
  /-- No flow is defined under the name. -/
  | unknownFlow (name : String)
  /-- A function returned without a result. -/
  | missingResult (function : String)
  /-- An argument of a step has the wrong shape. -/
  | invalidArgument (name problem : String)
  /-- Flows are nested deeper than the limit. -/
  | nestingTooDeep (limit : Nat)
  /-- The caller cancelled the flow. -/
  | cancelled
  /-- A step panicked. -/
  | panicked (step text : String)
  /-- A JSON text or value does not have the form that is asked for. -/
  | json
  deriving DecidableEq, Repr

namespace FlowError

/-- The code that is reported for a cancelled flow. -/
def cancelledCode : String := "cancelled"

/-- The wording of an error. -/
def message : FlowError → String
  | data e => e.message
  | coded _ text => text
  | unknownConnection name => "Unknown connection: " ++ name
  | closedConnection name => "Unknown connection: " ++ name ++ " (already closed)"
  | unknownFunction name => "Unknown function: " ++ name
  | unknownFlow name => "Unknown flow: " ++ name
  | missingResult function => "Function '" ++ function ++ "' returned no result"
  | invalidArgument name problem => "Invalid argument '" ++ name ++ "': " ++ problem
  | nestingTooDeep limit => "Flow nesting exceeds " ++ toString limit ++ " levels"
  | cancelled => "Flow cancelled"
  | panicked step text => "Step '" ++ step ++ "' panicked: " ++ text
  | json => "JSON error"

/-- The code of an error, if it carries one. -/
def code? : FlowError → Option String
  | coded code _ => some code
  | cancelled => some cancelledCode
  | _ => none

end FlowError

end SqlService
