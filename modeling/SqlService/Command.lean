import SqlService.Json.Indented
import SqlService.Json.Reader
import SqlService.Schema.Sync
import SqlService.Connection.Admission
import SqlService.Flow.Execution

/-!
# Commands

What can be asked for on the command line: running a flow, looking at tables, bringing a table in
line with a snapshot, and showing an SQL item with its fragments expanded.  `Invocation.parse?`
reads the arguments; `Command.perform` is the program of a command, which ends in a `Report`.
-/

namespace SqlService

/-! ## §1 Arguments -/

/-- Something that can be asked for. -/
inductive Command where
  /-- Run a flow on an input in JSON text. -/
  | run (flow input : String)
  /-- List the tables of a connection. -/
  | tables (connection : String)
  /-- Show the schema of a table. -/
  | describe (connection table : String)
  /-- Bring a table in line with a snapshot file, or only show how. -/
  | sync (connection snapshot : String) (dryRun : Bool)
  /-- Show the text of an item. -/
  | sql (item : String)
  deriving DecidableEq, Repr

/-- A command with the file that declares the services. -/
structure Invocation where
  config : String := "services.json"
  command : Command
  deriving DecidableEq, Repr

namespace Command

/-- Reads a command. -/
def parse? : List String → Option Command
  | ["run", flow] => some (run flow "\x7b\x7d")
  | ["run", flow, "--input", input] => some (run flow input)
  | ["tables", connection] => some (tables connection)
  | ["describe", connection, table] => some (describe connection table)
  | ["sync", connection, snapshot] => some (sync connection snapshot false)
  | ["sync", connection, snapshot, "--dry-run"] => some (sync connection snapshot true)
  | ["sql", item] => some (sql item)
  | _ => none

/-- The file that the command reads, if it reads one. -/
def snapshotFile? : Command → Option String
  | sync _ snapshot _ => some snapshot
  | _ => none

end Command

/-- Reads the arguments of the command line. -/
def Invocation.parse? : List String → Option Invocation
  | "--config" :: config :: args => (Command.parse? args).map fun command => { config, command }
  | args => (Command.parse? args).map fun command => { command }

/-- How the program is called. -/
def usage : String :=
  "usage: [--config FILE] run FLOW [--input JSON] | tables CONNECTION | " ++
    "describe CONNECTION TABLE | sync CONNECTION FILE [--dry-run] | sql ITEM"

/-! ## §2 Reports -/

/-- What a command prints, and why it failed if it did. -/
structure Report where
  lines : List String := []
  failure : Option String := none
  deriving DecidableEq, Repr

/-- The report of an attempt. -/
def Report.ofResult : Except FlowError (List String) → Report
  | .ok lines => { lines }
  | .error e => { failure := some e.message }

/-! ## §3 Programs -/

namespace Command

/-- Does something on a connection that is opened for it and closed after it. -/
def onConnection {α : Type} (s : Services) (name : String)
    (act : Provider → Link → Attempt DataError α) : Program (Except FlowError α) :=
  let target : Except FlowError (Settings × Provider) := do
    let settings ← s.connection name
    match s.providers.providerFor settings with
    | .ok provider => return (settings, provider)
    | .error e => throw (.data e)
  match target with
  | .error e => .done (.error e)
  | .ok (settings, provider) =>
    .ask (.connect name settings) fun reply =>
      match (reply : Except DataError String) with
      | .error e => .done (.error (.data e))
      | .ok database =>
        let link : Link := ⟨name, database⟩
        (act provider link).run.andThen fun outcome =>
          -- The connection is closed whatever the outcome, and a failure to close it comes first.
          .ask (.close link) fun ended =>
            match (ended : Except DataError Unit), outcome with
            | .error e, _ => .done (.error (.data e))
            | .ok _, .error e => .done (.error (.data e))
            | .ok _, .ok a => .done (.ok a)

/-- The report of a flow. -/
def flowReport (flow : String) (r : ServiceResult) : Report where
  lines := [r.toJson.indented]
  failure := if r.success then none else some ("flow '" ++ flow ++ "' failed")

/-- The program of a command, where `snapshot` is the content of the file that it reads. -/
def perform (s : Services) (snapshot : String) : Command → Program Report
  | run flow input =>
    match Json.read? input with
    | none => .done { failure := some FlowError.json.message }
    | some input => flowReport flow <$> s.run flow input
  | tables connection => Report.ofResult <$> onConnection s connection Provider.tables
  | describe connection table => do
    match ← onConnection s connection fun p l => p.readTable? table l with
    | .error e => return .ofResult (.error e)
    | .ok none => return { failure := some ("table '" ++ table ++ "' not found") }
    | .ok (some found) => return { lines := [found.toJson.indented] }
  | sync connection _ dryRun =>
    match (Document.read? snapshot).bind Table.read? with
    | none => .done { failure := some FlowError.json.message }
    | some wanted => do
      let outcome ← onConnection s connection fun p l =>
        if dryRun then p.plan wanted l else p.sync wanted l
      return Report.ofResult (outcome.map Option.toList)
  | sql item => do
    match ← (Fragment.expand s.items [] item).run with
    | .error e => return { failure := some e.message }
    | .ok text => return { lines := [text] }

end Command

end SqlService
