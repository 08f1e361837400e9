import SqlService.Proofs.Flow.Turn

/-!
# Histories of a context

A context is used by a sequence of calls: flows are executed in it, each with its own services, and
it is finalized, any number of times and in any order.  A `History` relates such a sequence, with
the events and the outcome of every call, to the contexts that it starts from and ends in.

Main statement: a finalization ends the sessions that have not ended, one after another in opening
order, and makes no other request (`Context.runs_finalize`).
-/

namespace SqlService

open Program (Event)

/-! ## §1 What happened to connections -/

namespace Program.Event

/-- The connection that an event has opened. -/
def opens? : Event → Option Link
  | ⟨.connect name _, reply⟩ =>
    match (reply : Except DataError String) with
    | .ok database => some ⟨name, database⟩
    | .error _ => none
  | _ => none

/-- The connection whose transaction an event has begun. -/
def begins? : Event → Option Link
  | ⟨.begin link, reply⟩ =>
    match (reply : Except DataError Unit) with
    | .ok _ => some link
    | .error _ => none
  | _ => none

/-- What is opened stands under the name that was asked for. -/
theorem name?_of_opens? {e : Event} {l : Link} (h : e.opens? = some l) :
    e.request.name? = some l.name := by
  obtain ⟨q, reply⟩ := e
  cases q with
  | connect name settings =>
    cases reply with
    | ok database => cases h; rfl
    | error e => cases h
  | _ => cases h

/-- A transaction is begun on its connection. -/
theorem uses?_of_begins? {e : Event} {l : Link} (h : e.begins? = some l) :
    e.request.uses? = some l := by
  obtain ⟨q, reply⟩ := e
  cases q with
  | begin link =>
    cases reply with
    | ok u => cases h; rfl
    | error e => cases h
  | _ => cases h

/-- What ends something opens nothing. -/
theorem opens?_of_finishes {e : Event} (h : e.request.finishes = true) : e.opens? = none := by
  obtain ⟨q, reply⟩ := e
  cases q with
  | connect name settings => simp [Request.finishes, Request.settles?, Request.closes?] at h
  | _ => rfl

/-- What ends something begins nothing. -/
theorem begins?_of_finishes {e : Event} (h : e.request.finishes = true) : e.begins? = none := by
  obtain ⟨q, reply⟩ := e
  cases q with
  | begin link => simp [Request.finishes, Request.settles?, Request.closes?] at h
  | _ => rfl

end Program.Event

/-- The connections that were opened, in order. -/
def openings (events : List Event) : List Link := events.filterMap Event.opens?

/-- The connections whose transactions were begun, in order. -/
def beginnings (events : List Event) : List Link := events.filterMap Event.begins?

/-- The connections whose transactions were committed or rolled back, whatever came of it. -/
def settlements (events : List Event) : List Link :=
  events.filterMap fun e => e.request.settles?

/-- The connections that were closed, whatever came of it. -/
def closings (events : List Event) : List Link := events.filterMap fun e => e.request.closes?

/-! ## §2 Ending sessions -/

namespace Session

/-- The session after it has been finalized. -/
def ended (s : Session) : Session :=
  if s.closed then s else { s with closed := true, inTransaction := false }

/-- The requests that finalizing the session makes. -/
def endings (s : Session) : List Request :=
  if s.closed then []
  else if s.inTransaction then
    [if s.commits then .commit s.link else .rollback s.link, .close s.link]
  else [.close s.link]

/-- Ending a session keeps its connection. -/
@[simp] theorem ended_link (s : Session) : s.ended.link = s.link := by
  unfold ended
  split <;> rfl

/-- After its end a session is closed, whatever it was before. -/
@[simp] theorem ended_closed (s : Session) : s.ended.closed = true := by
  unfold ended
  split
  · assumption
  · rfl

/-- Finalizing a session makes the requests of its end, whatever they are answered, and ends it. -/
theorem runs_finalize {s s' : Session} {events : List Event}
    (h : Program.Runs s.finalize events s') :
    events.map Event.request = s.endings ∧ s' = s.ended := by
  rw [finalize] at h
  unfold endings ended
  by_cases hc : s.closed = true
  · rw [if_pos hc] at h
    obtain ⟨rfl, rfl⟩ := Program.runs_done_iff.mp h
    simp [hc]
  · rw [if_neg hc] at h
    -- The last request is always the closing, and its answer is not looked at.
    have hclose : ∀ {es : List Event}, Program.Runs (.ask (.close s.link) fun _ =>
        .done { s with closed := true, inTransaction := false }) es s' →
        es.map Event.request = [.close s.link] ∧
          s' = { s with closed := true, inTransaction := false } := by
      intro es hes
      obtain ⟨reply, rest, rfl, hdone⟩ := Program.runs_ask_iff.mp hes
      obtain ⟨rfl, rfl⟩ := Program.runs_done_iff.mp hdone
      exact ⟨rfl, rfl⟩
    -- An open transaction is settled first, by what is pending and by the mark.
    by_cases ht : s.inTransaction = true
    · simp only [if_pos ht] at h
      by_cases hcommit : s.commits = true
      · rw [if_pos hcommit] at h
        obtain ⟨reply, rest, rfl, hrest⟩ := Program.runs_ask_iff.mp h
        obtain ⟨hmap, rfl⟩ := hclose hrest
        simp [hc, ht, hcommit, hmap]
      · rw [if_neg hcommit] at h
        obtain ⟨reply, rest, rfl, hrest⟩ := Program.runs_ask_iff.mp h
        obtain ⟨hmap, rfl⟩ := hclose hrest
        simp [hc, ht, hcommit, hmap]
    · simp only [if_neg ht] at h
      obtain ⟨hmap, rfl⟩ := hclose h
      simp [hc, ht, hmap]

end Session

namespace Context

/-- The context after it has been finalized. -/
def ended (c : Context) : Context := ⟨c.sessions.map Session.ended⟩

/-- Ending the sessions of the names at the end of a context, when those before have ended. -/
theorem runs_finalizeAll {c c' : Context} {events : List Event}
    {done rest : List (String × Session)} (hc : c.sessions.entries = done ++ rest)
    (h : Program.Runs (c.finalizeAll (Entries.names rest)) events c') :
    events.map Event.request = (rest.flatMap fun e => e.2.endings) ∧
      c'.sessions.entries = done ++ rest.map fun e => (e.1, e.2.ended) := by
  -- By induction on the sessions that are left, with those that have ended in front.
  induction rest generalizing c done events with
  | nil =>
    obtain ⟨rfl, rfl⟩ := Program.runs_done_iff.mp h
    simpa using hc
  | cons e rest ih =>
    obtain ⟨name, s⟩ := e
    have hget : c.session? name = some s :=
      Dictionary.get?_eq_some_iff.mpr (by simp [hc])
    -- The session is ended in its place, as none of its name stands before it.
    have hput : (c.set name s.ended).sessions.entries =
        (done ++ [(name, s.ended)]) ++ rest := by
      rw [List.append_assoc, List.singleton_append]
      exact Dictionary.entries_insert_of_split hc s.ended
    simp only [Entries.names, List.map_cons, finalizeAll, hget] at h
    obtain ⟨first, second, s', rfl, h1, h2⟩ := Program.runs_andThen.mp h
    obtain ⟨hfirst, rfl⟩ := Session.runs_finalize h1
    obtain ⟨hsecond, hentries⟩ := ih hput h2
    refine ⟨?_, ?_⟩
    · simp [hfirst, hsecond]
    · simpa using hentries

/-- A finalization ends every session in opening order. -/
theorem runs_finalize {c c' : Context} {events : List Event}
    (h : Program.Runs c.finalize events c') :
    events.map Event.request = (c.sessions.entries.flatMap fun e => e.2.endings) ∧
      c' = c.ended := by
  have hall : c.sessions.entries = [] ++ c.sessions.entries := rfl
  obtain ⟨hevents, hentries⟩ := runs_finalizeAll hall h
  exact ⟨hevents, congrArg Context.mk (Dictionary.ext hentries)⟩

end Context

/-! ## §3 Histories -/

/-- A call on a context, with what happened during it. -/
inductive Stage where
  /-- A flow is executed with some services. -/
  | execute (services : Services) (flow : String) (input : Json) (events : List Event)
    (outcome : Except FlowError Json)
  /-- The context is finalized. -/
  | finalize (events : List Event)

namespace Stage

/-- What happened during a call. -/
def events : Stage → List Event
  | execute _ _ _ events _ => events
  | finalize events => events

/-- Whether the call is a finalization. -/
def isFinalize : Stage → Bool
  | execute .. => false
  | finalize _ => true

/-- Whether the call has not failed; a finalization never does. -/
def succeeded : Stage → Bool
  | execute _ _ _ _ outcome => outcome.toBool
  | finalize _ => true

/-- A call that may happen on a context and leave another one. -/
inductive Happens : Context → Stage → Context → Prop where
  /-- An execution that may run. -/
  | execute {services : Services} {flow : String} {input : Json} {c c' : Context}
      {events : List Event} {outcome : Except FlowError Json}
      (h : FlowM.Runs (services.execute flow input) c events outcome c') :
      Happens c (.execute services flow input events outcome) c'
  /-- A finalization that may run. -/
  | finalize {c c' : Context} {events : List Event} (h : Program.Runs c.finalize events c') :
      Happens c (.finalize events) c'

end Stage

/-- What happened during several calls, in order. -/
def eventsOf (stages : List Stage) : List Event := stages.flatMap Stage.events

/-- Calls that may happen on a context one after another. -/
inductive History : Context → List Stage → Context → Prop where
  | nil (c : Context) : History c [] c
  | cons {c c1 c2 : Context} {stage : Stage} {rest : List Stage} (h : stage.Happens c c1)
      (hrest : History c1 rest c2) : History c (stage :: rest) c2

/-- A history may be cut anywhere. -/
theorem history_append_iff {c c' : Context} {before after : List Stage} :
    History c (before ++ after) c' ↔ ∃ c1, History c before c1 ∧ History c1 after c' := by
  induction before generalizing c with
  | nil =>
    constructor
    · exact fun h => ⟨c, .nil c, h⟩
    · rintro ⟨c1, hnil, h⟩
      cases hnil
      exact h
  | cons stage before ih =>
    constructor
    · intro h
      cases h with
      | cons hstage hrest =>
        obtain ⟨c1, h1, h2⟩ := ih.mp hrest
        exact ⟨c1, .cons hstage h1, h2⟩
    · rintro ⟨c1, h1, h2⟩
      cases h1 with
      | cons hstage hrest => exact .cons hstage (ih.mpr ⟨c1, hrest, h2⟩)

/-- A history of one call is that call. -/
theorem history_single_iff {c c' : Context} {stage : Stage} :
    History c [stage] c' ↔ stage.Happens c c' := by
  constructor
  · intro h
    cases h with
    | cons hstage hrest =>
      cases hrest
      exact hstage
  · exact fun h => .cons h (.nil c')

/-! ## §4 A history

A flow of a single step that empties a cart, and everything that happens when all requests
succeed. -/

namespace Cart

/-- The connection of the cart. -/
def link : Link := ⟨"main", "shop"⟩

/-- The settings of its database. -/
def settings : Settings := { url := "mysql://host/shop", dialect := "mysql" }

/-- The statement that empties it. -/
def text : String := "DELETE FROM cart"

/-- One connection, one item and one flow. -/
def services : Services where
  connections := Dictionary.ofList [("main", settings)]
  items := Dictionary.ofList
    [("clear", { name := "clear", text, connection := "main", kind := .execute })]
  flows := Dictionary.ofList
    [("empty", { name := "empty",
                 steps := [{ name := "cleared", kind := .sql, service := "clear" }] })]

/-- The replies of a database on which everything succeeds. -/
def replies : (q : Request) → q.Reply
  | .connect _ _ => .ok "shop"
  | .begin _ => .ok ()
  | .execute _ _ _ => .ok (1 : UInt64)
  | .query _ _ _ => .ok ([] : List Record)
  | .commit _ => .ok ()
  | .rollback _ => .ok ()
  | .close _ => .ok ()
  | q => (Offline.respond {} q).1

/-- What happens when the cart is emptied. -/
def events : List Event :=
  [⟨.isCancelled, false⟩, ⟨.remembered "clear", some text⟩,
    ⟨.connect "main" settings, .ok "shop"⟩, ⟨.begin link, .ok ()⟩,
    ⟨.execute link text ∅, .ok (1 : UInt64)⟩]

/-- The context after the flow. -/
def context : Context :=
  ({} : Context).set "main"
    { link, dialect := .mysql, inTransaction := true, executed := 1, pending := 1 }

/-- The end of the session, however its requests are answered. -/
def endings (commit close : Except DataError Unit) : List Event :=
  [⟨.commit link, commit⟩, ⟨.close link, close⟩]

/-- Asking for the session opens the connection. -/
theorem runs_openSession :
    FlowM.Runs (FlowM.openSession services "main") {} [⟨.connect "main" settings, .ok "shop"⟩]
      (.ok { link, dialect := .mysql })
      (({} : Context).set "main" { link, dialect := .mysql }) := by
  have hprovider : Registry.standard.get "mysql" = .ok (.stock .mysql) := by
    have hlower : Text.lower "mysql" = "mysql" := by decide +kernel
    rw [Registry.get, Registry.position?, hlower]
    rfl
  apply (FlowM.runs_silent_bind_iff rfl).mpr
  refine FlowM.runs_lift_bind_iff.mpr (.inl ⟨settings, rfl, ?_⟩)
  refine FlowM.runs_ofData_bind_iff.mpr (.inl ⟨.stock .mysql, hprovider, ?_⟩)
  exact .ask (.connect "main" settings) _ (.ok "shop") _ _ (.done _)

/-- The only step, after the look at the signal. -/
theorem runs_clear :
    FlowM.Runs (services.runSql "clear" ∅) {} events.tail (.ok (.ofUInt64 1)) context := by
  refine FlowM.runs_ofData_bind_iff.mpr (.inl ⟨_, rfl, ?_⟩)
  refine FlowM.runs_attempt_bind_iff.mpr (.inl ⟨_, events.drop 2, text, rfl,
    Fragment.runs_expand_of_remembered _ _ _ _, ?_⟩)
  refine FlowM.runs_lift_bind_iff.mpr (.inl ⟨_, rfl, ?_⟩)
  refine FlowM.runs_bind_iff.mpr (.inl ⟨_, events.drop 3, _, _, rfl, runs_openSession, ?_⟩)
  refine .ask (.begin link) _ (.ok ()) _ _ ?_
  exact .ask (.execute link text ∅) _ (.ok (1 : UInt64)) _ _ (.done _)

/-- Emptying the cart, and no failure to mark. -/
theorem runs_execute :
    FlowM.Runs (services.execute "empty" .null) {} events (.ok (.ofUInt64 1)) context := by
  refine Services.runs_markingFailure_iff.mpr ⟨context, ?_, rfl⟩
  refine FlowM.runs_lift_bind_iff.mpr (.inl ⟨_, rfl, ?_⟩)
  refine FlowM.runs_request_bind_iff.mpr ⟨false, _, rfl, ?_⟩
  refine FlowM.runs_bind_iff.mpr (.inl ⟨events.tail, [], .ofUInt64 1, context, rfl, ?_, .done _⟩)
  exact Services.runs_markingFailure_iff.mpr ⟨context, runs_clear, rfl⟩

/-- The transaction is committed, as the session has one statement pending and no mark. -/
theorem runs_finalize (commit close : Except DataError Unit) :
    context.finalize.Runs (endings commit close) context.ended :=
  .ask (.commit link) _ commit _ _ (.ask (.close link) _ close _ _ (.done _))

/-- The cart is emptied and its context finalized. -/
theorem history (commit close : Except DataError Unit) :
    History {} [.execute services "empty" .null events (.ok (.ofUInt64 1)),
      .finalize (endings commit close)] context.ended :=
  .cons (.execute runs_execute) (.cons (.finalize (runs_finalize commit close)) (.nil _))

end Cart

end SqlService
