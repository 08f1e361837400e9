import SqlService.Effect.Program

/-!
# A world without databases

`Offline` answers programs where no database can be reached: it keeps the memory of expanded
fragments and the cancel signal, and refuses every request to a connection.
-/

namespace SqlService

/-- The memory of expanded fragments and the cancel signal. -/
structure Offline where
  memory : Dictionary String := ∅
  cancelled : Bool := false

namespace Offline

/-- The failure of every request to a connection. -/
def unreachable : DataError := .database "no connection"

/-- Answers a request. -/
def respond (w : Offline) : (q : Request) → q.Reply × Offline
  | .connect _ _ => (.error unreachable, w)
  | .begin _ => (.error unreachable, w)
  | .commit _ => (.error unreachable, w)
  | .rollback _ => (.error unreachable, w)
  | .close _ => (.error unreachable, w)
  | .execute _ _ _ => (.error unreachable, w)
  | .scalar _ _ _ => (.error unreachable, w)
  | .query _ _ _ => (.error unreachable, w)
  | .script _ _ => (.error unreachable, w)
  | .isCancelled => (w.cancelled, w)
  | .cancel => ((), { w with cancelled := true })
  | .observe => ((0 : Nat), w)
  | .remembered item => (w.memory.get? item, w)
  | .remember item text => ((), { w with memory := w.memory.insert item text })

end Offline

end SqlService
