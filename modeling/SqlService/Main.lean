import SqlService.Command

/-!
# The command line

Reads the files that a command names, runs its program where no database can be reached, and prints
its report.
-/

namespace SqlService

/-- Prints why the program failed and gives the exit code for it. -/
def failWith (text : String) : IO UInt32 := do
  IO.eprintln ("Error: " ++ text)
  return 1

/-- Runs a command on its declaration. -/
def performOn (c : Config) (command : Command) (snapshot : String) : IO UInt32 := do
  match c.services {} with
  | .error e => failWith e.message
  | .ok services =>
    let report := (Program.run Offline.respond (command.perform services snapshot) {}).1
    for line in report.lines do
      IO.println line
    match report.failure with
    | some text => failWith text
    | none => return 0

end SqlService

open SqlService in
/-- Runs the command that the arguments ask for. -/
def main (args : List String) : IO UInt32 := do
  match Invocation.parse? args with
  | none =>
    IO.eprintln usage
    return 2
  | some invocation =>
    let text ← IO.FS.readFile invocation.config
    match (Document.read? text).bind Config.ofDocument? with
    | none => failWith FlowError.json.message
    | some c =>
      let snapshot ←
        match invocation.command.snapshotFile? with
        | some file => IO.FS.readFile file
        | none => pure ""
      performOn c invocation.command snapshot
