import SqlService.Connection.Settings
import SqlService.Record

/-!
# Programs that talk to connections

What this library does with a database is described as data: a `Program` is a result, or a request
with the program that goes on with each possible reply.  A request concerns a connection, the
cancel signal, the surroundings of a function or the memory of expanded fragments.  Nothing is
assumed about the replies: a world that answers requests runs a program (`Program.run`), and
`Program.Runs` relates a program to every sequence of requests and replies that it may go through,
with the result that it ends in.
-/

namespace SqlService

/-! ## §1 Requests -/

/-- An open connection: the logical name it was opened under, and its database. -/
structure Link where
  name : String
  database : String
  deriving DecidableEq, Repr

/-- Something that a program asks of the world around it. -/
inductive Request where
  /-- Opens the connection of a logical name; the answer is the name of its database. -/
  | connect (name : String) (settings : Settings)
  | begin (link : Link)
  | commit (link : Link)
  | rollback (link : Link)
  | close (link : Link)
  /-- Runs a statement; the answer is the number of rows affected. -/
  | execute (link : Link) (sql : String) (params : Record)
  /-- Runs a statement; the answer is its first value. -/
  | scalar (link : Link) (sql : String) (params : Record)
  /-- Runs a statement; the answer is its rows. -/
  | query (link : Link) (sql : String) (params : Record)
  /-- Runs a text that may hold several statements. -/
  | script (link : Link) (sql : String)
  /-- Whether cancellation has been requested. -/
  | isCancelled
  /-- Requests cancellation. -/
  | cancel
  /-- What a function finds around it when it is called. -/
  | observe
  /-- The expanded text of an item, if it is remembered. -/
  | remembered (item : String)
  /-- Remembers the expanded text of an item. -/
  | remember (item text : String)

/-- What a request is answered with. -/
def Request.Reply : Request → Type
  | connect _ _ => Except DataError String
  | begin _ => Except DataError Unit
  | commit _ => Except DataError Unit
  | rollback _ => Except DataError Unit
  | close _ => Except DataError Unit
  | execute _ _ _ => Except DataError UInt64
  | scalar _ _ _ => Except DataError Json
  | query _ _ _ => Except DataError (List Record)
  | script _ _ => Except DataError Unit
  | isCancelled => Bool
  | cancel => Unit
  | observe => Nat
  | remembered _ => Option String
  | remember _ _ => Unit

/-! ## §2 Programs -/

/-- A result, or a request and what follows each reply. -/
inductive Program (α : Type) : Type where
  | done (result : α)
  | ask (request : Request) (next : request.Reply → Program α)

namespace Program

variable {α β : Type}

/-- The program that goes on with the result of another. -/
def andThen : Program α → (α → Program β) → Program β
  | done a, f => f a
  | ask q next, f => ask q fun r => andThen (next r) f

instance : Monad Program where
  pure := done
  bind := andThen

/-- The program that makes one request. -/
def request (q : Request) : Program q.Reply := ask q done

theorem andThen_done (p : Program α) : p.andThen done = p := by
  induction p with
  | done a => rfl
  | ask q next ih => exact congrArg (ask q) (funext ih)

theorem andThen_assoc {γ : Type} (p : Program α) (f : α → Program β) (g : β → Program γ) :
    (p.andThen f).andThen g = p.andThen fun a => (f a).andThen g := by
  induction p with
  | done a => rfl
  | ask q next ih => exact congrArg (ask q) (funext ih)

instance : LawfulMonad Program :=
  LawfulMonad.mk' Program andThen_done (fun _ _ => rfl) andThen_assoc

/-- Runs a program in a world that answers each request and changes by it. -/
def run {World : Type} (respond : World → (q : Request) → q.Reply × World) :
    Program α → World → α × World
  | done a, w => (a, w)
  | ask q next, w => run respond (next (respond w q).1) (respond w q).2

/-! ## §3 Histories -/

/-- A request with the reply that it got. -/
structure Event where
  request : Request
  reply : request.Reply

/-- The program may go through the events and end in the result. -/
inductive Runs : Program α → List Event → α → Prop where
  | done (a : α) : Runs (.done a) [] a
  | ask (q : Request) (next : q.Reply → Program α) (r : q.Reply) (events : List Event) (a : α) :
      Runs (next r) events a → Runs (.ask q next) (⟨q, r⟩ :: events) a

/-- A composite goes through the events of its first part and then those of its second. -/
theorem runs_andThen {p : Program α} {f : α → Program β} {events : List Event} {b : β} :
    Runs (p.andThen f) events b ↔
      ∃ first second a, events = first ++ second ∧ Runs p first a ∧ Runs (f a) second b := by
  induction p generalizing events with
  | done a =>
    constructor
    · exact fun h => ⟨[], events, a, rfl, .done a, h⟩
    · rintro ⟨first, second, a', rfl, h1, h2⟩
      cases h1
      exact h2
  | ask q next ih =>
    constructor
    · intro h
      cases h with
      | ask _ _ r rest _ h =>
        obtain ⟨first, second, a, rfl, h1, h2⟩ := (ih r).mp h
        exact ⟨⟨q, r⟩ :: first, second, a, rfl, .ask q next r first a h1, h2⟩
    · rintro ⟨first, second, a, rfl, h1, h2⟩
      cases h1 with
      | ask _ _ r rest _ h1 =>
        exact .ask q _ r (rest ++ second) b ((ih r).mpr ⟨rest, second, a, rfl, h1, h2⟩)

end Program

/-- A program that may fail. -/
abbrev Attempt (ε α : Type) : Type := ExceptT ε Program α

/-- The attempt that makes one request whose reply is a result or a failure. -/
def Attempt.of {ε α : Type} (p : Program (Except ε α)) : Attempt ε α := ExceptT.mk p

end SqlService
