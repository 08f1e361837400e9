import SqlService.Flow.Session
import SqlService.Flow.SqlArgs
import SqlService.Fragment.Expansion
import SqlService.Query.Run

/-!
# Running flows

A flow runs its steps in order, each with its arguments resolved against the state of the flow: the
input, and the output of every step under the step's name.  The cancel signal is looked at before
each step.  A step that fails ends the flow and marks every session for rollback.  Flows may invoke
flows, down to `maxDepth` levels.  `Services.execute` runs a flow inside a context, `Services.run`
in a context of its own that it finalizes.
-/

namespace SqlService

/-- The deepest nesting of flows below the one that is run. -/
def maxDepth : Nat := 16

namespace Services

/-! ## §1 SQL steps -/

/-- The query that an SQL step asks for. -/
def stepQuery (dialect : Dialect) (sql : String) (args : SqlArgs) : Query :=
  let query : Query := { dialect, sql, filter := args.filter, sorts := args.sorts }
  let query := query.withParams args.params
  match args.page with
  | some (index, size) => { query with pageIndex := index, pageSize := size }
  | none => query

/-- Runs the query of an item, and returns its answer with the number of statements it took. -/
def runQuery (kind : ExecKind) (query : Query) (l : Link) : Attempt DataError (Json × Nat) :=
  if query.isPaged then do
    let page ← query.pageRows l
    return (page.toJson, 2)
  else
    match kind with
    | .query => do
      let rows ← query.rows l
      return (.array (rows.map Record.toJson), 1)
    | .single => do
      let row ← query.single? l
      return ((row.map Record.toJson).getD .null, 1)
    | .scalar => do
      let value ← query.scalar l
      return (value, 1)
    | .execute => do
      let count ← query.execute l
      return (.ofUInt64 count, 1)

/-- Runs an SQL step with its resolved arguments. -/
def runSql (s : Services) (service : String) (args : Record) : FlowM Json := do
  -- Everything that can fail without a connection comes before the first request to one.
  let item ← FlowM.ofData (s.item service)
  let sql ← FlowM.attempt (Fragment.expand s.items [] item.name)
  let args ← SqlArgs.parse args
  let session ← FlowM.openSession s item.connection
  unless item.readOnly do
    FlowM.ensureTransaction item.connection session
  let link ← session.openLink
  let (answer, statements) ←
    FlowM.attempt (runQuery item.kind (stepQuery session.dialect sql args) link)
  -- Statements are counted only if all of them succeeded.
  modify fun c : Context => c.update item.connection (·.record item.readOnly statements)
  return answer

/-! ## §2 Function steps -/

/-- The text of a panic whose payload is no text. -/
def foreignPayload : String := "non-string panic payload"

/-- Runs a function step with its resolved arguments; a panic is a failure of the step. -/
def runFunction (s : Services) (step : Step) (args : Record) : FlowM Json := do
  let around : Nat ← FlowM.request .observe
  let reaction := s.functions.invoke step.service args around
  -- The signal is looked at before the next step, so this step still ends normally.
  if reaction.cancels then
    let _ ← FlowM.request .cancel
  match reaction.outcome with
  | .returned v => return v
  | .failed e => throw e
  | .panicked text => throw (.panicked step.name (text.getD foreignPayload))

/-! ## §3 Flows -/

/-- Runs a step with its resolved arguments, where `nested` runs a flow one level deeper. -/
def runStep (s : Services) (nested : String → Json → FlowM Json) (step : Step) (args : Record) :
    FlowM Json :=
  match step.kind with
  | .sql => s.runSql step.service args
  | .function => s.runFunction step args
  | .flow => nested step.service (Record.toJson args)

/-- Marks every session for rollback if the task fails. -/
def markingFailure {α : Type} (t : FlowM α) : FlowM α :=
  ExceptT.mk fun c => (t.runIn c).andThen fun r =>
    match r with
    | (.ok v, c) => .done (.ok v, c)
    | (.error e, c) => .done (.error e, c.markErrored)

/-- Runs the steps that are left, in the given state, where `last` is the output of the step
before. -/
def runSteps (s : Services) (nested : String → Json → FlowM Json) (state : Record) (last : Json) :
    List Step → FlowM Json
  | [] => return last
  | step :: steps => do
    let stop : Bool ← FlowM.request .isCancelled
    if stop then throw .cancelled
    let output ← markingFailure (s.runStep nested step (step.resolveArgs state))
    -- An output under the name of an earlier one, or of the input, replaces it.
    s.runSteps nested (state.insert step.name output) output steps

/-- Runs the flow of a name, where `levels` counts the levels of nesting that are left, this one
included. -/
def runFlow (s : Services) (levels : Nat) (name : String) (input : Json) : FlowM Json :=
  match levels with
  | 0 => throw (.nestingTooDeep maxDepth)
  | levels + 1 => do
    let flow ← s.flow name
    let state : Record := Dictionary.ofList [("input", input)]
    s.runSteps (s.runFlow levels) state .null flow.steps

/-- Runs a flow inside a context and leaves the sessions open.  If it fails, every session is marked
for rollback. -/
def execute (s : Services) (name : String) (input : Json) : FlowM Json :=
  markingFailure (s.runFlow (maxDepth + 1) name input)

end Services

/-! ## §4 Results -/

/-- What the caller of a flow gets. -/
structure ServiceResult where
  success : Bool
  /-- The code of the error; empty unless it carries one. -/
  code : String := ""
  /-- The wording of the error; empty on success. -/
  message : String := ""
  data : Json := .null

namespace ServiceResult

/-- The result of a flow that ended in a value or an error. -/
def ofOutcome : Except FlowError Json → ServiceResult
  | .ok data => { success := true, data }
  | .error e => { success := false, code := e.code?.getD "", message := e.message }

/-- The JSON form of a result. -/
def toJson (r : ServiceResult) : Json :=
  .object [("success", .bool r.success), ("code", .string r.code),
    ("message", .string r.message), ("data", r.data)]

end ServiceResult

/-- Runs a flow in a context of its own and finalizes every session that it opened. -/
def Services.run (s : Services) (name : String) (input : Json) : Program ServiceResult := do
  let (outcome, context) ← (s.execute name input).runIn {}
  let _ ← context.finalize
  return .ofOutcome outcome

end SqlService
