import SqlService.Effect.Offline

/-!
# Scripted connections

A `Scripted` world answers requests to connections from a script: a queue of replies, the texts at
which a statement fails, and whether opening, beginning and finishing fail.  It writes every call
into a journal before answering it.
-/

namespace SqlService

/-! ## §1 Scripts -/

/-- What scripted connections do. -/
structure Script where
  replies : List Json := []
  /-- A statement that contains one of these fails. -/
  failWhen : List String := []
  failBegin : Bool := false
  /-- Whether commits, rollbacks and closings fail. -/
  failFinish : Bool := false
  /-- The databases whose connections do not open. -/
  failOpen : List String := []

/-- A call that was made on a connection: the database, what was done, and for statements the text
with its parameters. -/
structure Call where
  database : String
  action : String
  statement : Option (String × Record) := none

/-- The state of a scripted world. -/
structure Scripted where
  script : Script := {}
  /-- The replies that are left. -/
  replies : List Json := script.replies
  /-- The calls so far, last first. -/
  journal : List Call := []
  /-- What has nothing to do with connections. -/
  offline : Offline := {}

namespace Scripted

/-- A failure that the script asks for. -/
def failure (text : String) : DataError := .invalidSchema (.reported ("simulated " ++ text))

/-- The world after one more call. -/
def log (w : Scripted) (c : Call) : Scripted := { w with journal := c :: w.journal }

/-! ## §2 Answers -/

/-- Answers a call other than a statement. -/
def event (w : Scripted) (l : Link) (action : String) (fails : Bool) :
    Except DataError Unit × Scripted :=
  (if fails then .error (failure action) else .ok (),
    w.log { database := l.database, action })

/-- The text that a reply asks to fail with. -/
def failText? : Json → Option String
  | .object fields => (Entries.find? "fail" fields).bind Json.string?
  | _ => none

/-- Answers a statement: with the failure that its text or its reply asks for, with what `read`
makes of the next reply, or with `absent` when there is none left. -/
def statement {α : Type} (w : Scripted) (l : Link) (action sql : String) (params : Record)
    (absent : α) (read : Json → α) : Except DataError α × Scripted :=
  let w := w.log { database := l.database, action, statement := some (sql, params) }
  -- A statement that fails by its text leaves the queue of replies as it is.
  match w.script.failWhen.find? fun mark => Text.occursIn mark sql with
  | some mark => (.error (failure ("failure on " ++ mark)), w)
  | none =>
    match w.replies with
    | [] => (.ok absent, w)
    | reply :: replies =>
      let w := { w with replies := replies }
      match failText? reply with
      | some text => (.error (failure text), w)
      | none => (.ok (read reply), w)

/-- A reply read as a number of rows. -/
def readCount : Json → UInt64
  | .number n => n.toUInt64?.getD 0
  | _ => 0

/-- A reply read as rows. -/
def readRows (reply : Json) : List Record := (reply.items?.getD []).filterMap Record.ofJson?

/-- The rows that are answered when no reply is left. -/
def sampleRows : List Record := [Dictionary.ofList [("id", .ofInt64 1)]]

/-- Answers a request that does not concern connections. -/
def aside (w : Scripted) {α : Type} (r : α × Offline) : α × Scripted :=
  (r.1, { w with offline := r.2 })

/-- Answers a request. -/
def respond (w : Scripted) : (q : Request) → q.Reply × Scripted
  | .connect _ settings =>
    let database := settings.databaseName
    let w := w.log { database, action := "open" }
    if w.script.failOpen.contains database then (.error (failure "open"), w)
    else (.ok database, w)
  | .begin l => w.event l "begin" w.script.failBegin
  | .commit l => w.event l "commit" w.script.failFinish
  | .rollback l => w.event l "rollback" w.script.failFinish
  | .close l => w.event l "close" w.script.failFinish
  | .execute l sql params => w.statement l "execute" sql params (1 : UInt64) readCount
  | .scalar l sql params => w.statement l "scalar" sql params (.ofInt64 3 : Json) id
  | .query l sql params => w.statement l "query" sql params sampleRows readRows
  | .script l sql => w.statement l "script" sql ∅ () fun _ => ()
  | .isCancelled => w.aside (w.offline.respond .isCancelled)
  | .cancel => w.aside (w.offline.respond .cancel)
  | .observe => w.aside (w.offline.respond .observe)
  | .remembered item => w.aside (w.offline.respond (.remembered item))
  | .remember item text => w.aside (w.offline.respond (.remember item text))

/-- Runs a program in a scripted world. -/
def run {α : Type} (w : Scripted) (p : Program α) : α × Scripted := p.run respond w

/-- The calls made since the journal was last emptied, first one first, and the world with an empty
journal. -/
def takeJournal (w : Scripted) : List Call × Scripted :=
  (w.journal.reverse, { w with journal := [] })

end Scripted

end SqlService
