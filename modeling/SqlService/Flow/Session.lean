import SqlService.Effect.Program
import SqlService.Flow.Services

/-!
# Sessions of a flow

A flow keeps one `Session` per logical connection: an open connection with the bookkeeping of its
transaction.  The `Context` holds the sessions in the order in which they were opened.  Finalizing
ends every session once: the transaction is rolled back if something failed or nothing was written
and committed otherwise, and then the connection is closed; how those requests end is ignored.
-/

namespace SqlService

/-! ## §1 Sessions -/

/-- A connection of a flow with the bookkeeping of its transaction. -/
structure Session where
  link : Link
  dialect : Dialect
  inTransaction : Bool := false
  /-- The statements executed so far. -/
  executed : Nat := 0
  /-- Those of them that wait for a commit. -/
  pending : Nat := 0
  /-- Whether a step has failed. -/
  errored : Bool := false
  /-- Whether the session has ended. -/
  closed : Bool := false
  deriving DecidableEq, Repr

namespace Session

/-- The connection, unless it has been closed. -/
def openLink (s : Session) : Except FlowError Link :=
  if s.closed then .error (.closedConnection s.link.name) else .ok s.link

/-- The session after so many more statements. -/
def record (s : Session) (readOnly : Bool) (statements : Nat) : Session :=
  { s with
    executed := s.executed + statements
    pending := if readOnly then s.pending else s.pending + statements }

/-- The session marked for rollback. -/
def markErrored (s : Session) : Session := { s with errored := true }

/-- Opens the transaction unless it is open; the session after it, and whether it failed. -/
def ensureTransaction (s : Session) : Program (Except FlowError Unit × Session) :=
  if s.inTransaction then .done (.ok (), s)
  else
    match s.openLink with
    | .error e => .done (.error e, s)
    | .ok link =>
      .ask (.begin link) fun reply =>
        match (reply : Except DataError Unit) with
        | .error e => .done (.error (.data e), s)
        | .ok _ => .done (.ok (), { s with inTransaction := true })

/-- Whether ending the session commits its transaction. -/
def commits (s : Session) : Bool := !s.errored && s.pending != 0

/-- Ends the session, if it has not ended. -/
def finalize (s : Session) : Program Session :=
  if s.closed then .done s
  else
    -- The session counts as ended from here on, however the last requests end.
    let ended := { s with closed := true, inTransaction := false }
    let close : Program Session := .ask (.close s.link) fun _ => .done ended
    if s.inTransaction then
      if s.commits then .ask (.commit s.link) fun _ => close
      else .ask (.rollback s.link) fun _ => close
    else close

end Session

/-! ## §2 Contexts -/

/-- The sessions of a flow by connection name, in the order in which they were opened. -/
structure Context where
  sessions : Dictionary Session := ∅

namespace Context

/-- The session of a connection, if it has been opened. -/
def session? (c : Context) (name : String) : Option Session := c.sessions.get? name

/-- The context with the session of a connection set. -/
def set (c : Context) (name : String) (s : Session) : Context := ⟨c.sessions.insert name s⟩

/-- The context with the session of a connection changed. -/
def update (c : Context) (name : String) (f : Session → Session) : Context :=
  match c.session? name with
  | some s => c.set name (f s)
  | none => c

/-- The context with every session marked for rollback. -/
def markErrored (c : Context) : Context := ⟨c.sessions.map Session.markErrored⟩

/-- Ends the sessions of the given names, one after another. -/
def finalizeAll (c : Context) : List String → Program Context
  | [] => .done c
  | name :: names =>
    match c.session? name with
    | none => finalizeAll c names
    | some s => s.finalize.andThen fun s => finalizeAll (c.set name s) names

/-- Ends every session in the order in which they were opened. -/
def finalize (c : Context) : Program Context := c.finalizeAll c.sessions.names

end Context

/-! ## §3 Tasks -/

/-- A program that works in a context and may fail; the context lasts in either case. -/
abbrev FlowM (α : Type) : Type := ExceptT FlowError (StateT Context Program) α

namespace FlowM

/-- A request as a task. -/
def request (q : Request) : FlowM q.Reply := ExceptT.lift (StateT.lift (Program.request q))

/-- An attempt on a connection as a task. -/
def attempt {α : Type} (a : Attempt DataError α) : FlowM α :=
  ExceptT.mk fun c => a.run.andThen fun r =>
    match r with
    | .ok v => .done (.ok v, c)
    | .error e => .done (.error (.data e), c)

/-- A result that may be a failure to build a statement. -/
def ofData {α : Type} (r : Except DataError α) : FlowM α :=
  match r with
  | .ok v => pure v
  | .error e => throw (.data e)

/-- Runs a task in a context. -/
def runIn {α : Type} (t : FlowM α) (c : Context) : Program (Except FlowError α × Context) :=
  (ExceptT.run t) c

/-- The session of a connection, which is opened when it is first asked for. -/
def openSession (services : Services) (name : String) : FlowM Session := do
  let context : Context ← get
  match context.session? name with
  | some s => return s
  | none =>
    let settings ← services.connection name
    let provider ← ofData (services.providers.get settings.dialect)
    let reply ← request (.connect name settings)
    match (reply : Except DataError String) with
    | .error e => throw (.data e)
    | .ok database =>
      let s : Session := { link := ⟨name, database⟩, dialect := provider.dialect }
      -- A session is kept only once its connection is open.
      set (context.set name s)
      return s

/-- Opens the transaction of a session unless it is open. -/
def ensureTransaction (name : String) (s : Session) : FlowM Unit :=
  ExceptT.mk fun c => s.ensureTransaction.andThen fun r => .done (r.1, c.set name r.2)

end FlowM

end SqlService
