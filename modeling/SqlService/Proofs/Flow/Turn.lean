import SqlService.Proofs.Flow.Task

/-!
# What a flow does in a context

A flow changes its context and makes requests in turns: it looks at the cancel signal, runs an SQL
step, calls a function, or finds that a nested flow cannot be run.  `SqlRun` lists what an SQL step
may do, with everything that it has checked by then.  Whatever the nesting, a flow is a sequence of
completed turns, ended by a turn that fails or by the last step (`Course`), and after a failure
every session is marked for rollback (`Executed`).
-/

namespace SqlService

open Program (Event)

/-! ## §1 SQL steps -/

/-- What an SQL step has found out before it first turns to a connection: its item, the expanded
text and the parsed arguments. -/
structure Prepared (services : Services) (service : String) (args : Record) (events : List Event)
    (item : Item) (sql : String) (parsed : SqlArgs) : Prop where
  item_eq : services.item service = .ok item
  expanded : (Fragment.expand services.items [] item.name).run.Runs events (.ok sql)
  parsed_eq : SqlArgs.parse args = .ok parsed

/-- What an SQL step may do in a context. -/
inductive SqlRun (services : Services) (service : String) (args : Record) (c : Context) :
    List Event → Except FlowError Json → Context → Prop where
  /-- There is no such item, its text has no expansion, or the arguments are malformed. -/
  | unprepared (events : List Event) (e : FlowError)
      (h : ∀ x ∈ events, x.request.isMemory = true) :
      SqlRun services service args c events (.error e) c
  /-- The connection cannot be had. -/
  | unopened {first second : List Event} {item : Item} {sql : String} {parsed : SqlArgs}
      {e : FlowError} {c1 : Context} (hp : Prepared services service args first item sql parsed)
      (ho : Opening services item.connection c second (.error e) c1) :
      SqlRun services service args c (first ++ second) (.error e) c1
  /-- The transaction cannot be entered. -/
  | unentered {first second third : List Event} {item : Item} {sql : String} {parsed : SqlArgs}
      {e : FlowError} {c1 : Context} {s s' : Session}
      (hp : Prepared services service args first item sql parsed)
      (ho : Opening services item.connection c second (.ok s) c1)
      (he : Entry item.readOnly s third (.error e) s') :
      SqlRun services service args c (first ++ (second ++ third)) (.error e)
        (c1.set item.connection s')
  /-- The connection has been closed. -/
  | ended {first second third : List Event} {item : Item} {sql : String} {parsed : SqlArgs}
      {c1 : Context} {s s' : Session} (hp : Prepared services service args first item sql parsed)
      (ho : Opening services item.connection c second (.ok s) c1)
      (he : Entry item.readOnly s third (.ok ()) s') (hc : s.closed = true) :
      SqlRun services service args c (first ++ (second ++ third))
        (.error (.closedConnection s.link.name)) (c1.set item.connection s')
  /-- A statement is refused or fails. -/
  | failed {first second third last : List Event} {item : Item} {sql : String} {parsed : SqlArgs}
      {e : DataError} {c1 : Context} {s s' : Session}
      (hp : Prepared services service args first item sql parsed)
      (ho : Opening services item.connection c second (.ok s) c1)
      (he : Entry item.readOnly s third (.ok ()) s') (hc : s.closed = false)
      (hs : (Services.runQuery item.kind (Services.stepQuery s.dialect sql parsed)
        s.link).run.Runs last (.error e)) :
      SqlRun services service args c (first ++ (second ++ (third ++ last))) (.error (.data e))
        (c1.set item.connection s')
  /-- All statements succeed, and they are counted. -/
  | answered {first second third last : List Event} {item : Item} {sql : String}
      {parsed : SqlArgs} {answer : Json} {count : Nat} {c1 : Context} {s s' : Session}
      (hp : Prepared services service args first item sql parsed)
      (ho : Opening services item.connection c second (.ok s) c1)
      (he : Entry item.readOnly s third (.ok ()) s') (hc : s.closed = false)
      (hs : (Services.runQuery item.kind (Services.stepQuery s.dialect sql parsed)
        s.link).run.Runs last (.ok (answer, count))) :
      SqlRun services service args c (first ++ (second ++ (third ++ last))) (.ok answer)
        (c1.set item.connection (s'.record item.readOnly count))

theorem Opening.session? {services : Services} {name : String} {c c1 : Context}
    {events : List Event} {s : Session} (h : Opening services name c events (.ok s) c1) :
    c1.session? name = some s := by
  cases h with
  | present _ h => exact h
  | opened settings database p h hs hp => rw [Context.session?_set, if_pos rfl]

/-- What is left of an SQL step once its transaction is entered. -/
theorem sqlRun_of_entered {services : Services} {service : String} {args : Record}
    {c c1 c' : Context} {first second third last : List Event} {item : Item} {sql : String}
    {parsed : SqlArgs} {s s' : Session} {r : Except FlowError Json}
    (hp : Prepared services service args first item sql parsed)
    (ho : Opening services item.connection c second (.ok s) c1)
    (he : Entry item.readOnly s third (.ok ()) s')
    (h : FlowM.Runs (do
        let link ← liftM s.openLink
        let (answer, statements) ← FlowM.attempt
          (Services.runQuery item.kind (Services.stepQuery s.dialect sql parsed) link)
        modify fun c : Context => c.update item.connection (·.record item.readOnly statements)
        return answer : FlowM Json) (c1.set item.connection s') last r c') :
    SqlRun services service args c (first ++ (second ++ (third ++ last))) r c' := by
  -- The link of a session that has ended is refused; any other one is the session's own.
  rcases FlowM.runs_lift_bind_iff.mp h with ⟨link, hlink, h1⟩ | ⟨e, hlink, rfl, rfl, rfl⟩
  · cases hc : s.closed with
    | true => simp [Session.openLink, hc] at hlink
    | false =>
      obtain rfl : s.link = link := by simpa [Session.openLink, hc] using hlink
      -- The query fails, or its statements are counted on the session.
      rcases FlowM.runs_attempt_bind_iff.mp h1 with
        ⟨last, rest, ⟨answer, count⟩, rfl, hs, h2⟩ | ⟨e, hs, rfl, rfl⟩
      · obtain ⟨rfl, rfl, rfl⟩ := (FlowM.runs_done_iff rfl).mp h2
        simp only [Context.update_set, List.append_nil]
        exact .answered hp ho he hc hs
      · exact .failed hp ho he hc hs
  · cases hc : s.closed with
    | true =>
      obtain rfl : FlowError.closedConnection s.link.name = e := by
        simpa [Session.openLink, hc] using hlink
      rw [List.append_nil]
      exact .ended hp ho he hc
    | false => simp [Session.openLink, hc] at hlink

theorem sqlRun_of_runs {services : Services} {service : String} {args : Record}
    {c c' : Context} {events : List Event} {r : Except FlowError Json}
    (h : FlowM.Runs (services.runSql service args) c events r c') :
    SqlRun services service args c events r c' := by
  unfold Services.runSql at h
  -- One step of the definition after the other, each of which may end the run with a failure.
  rcases FlowM.runs_ofData_bind_iff.mp h with ⟨item, hitem, h1⟩ | ⟨e, -, rfl, rfl, rfl⟩
  · rcases FlowM.runs_attempt_bind_iff.mp h1 with
      ⟨first, rest, sql, rfl, hx, h2⟩ | ⟨e, hx, rfl, rfl⟩
    · rcases FlowM.runs_lift_bind_iff.mp h2 with ⟨parsed, hparsed, h3⟩ | ⟨e, -, rfl, rfl, rfl⟩
      · have hp : Prepared services service args first item sql parsed := ⟨hitem, hx, hparsed⟩
        rcases FlowM.runs_bind_iff.mp h3 with ⟨second, rest, s, c1, rfl, ho, h4⟩ | ⟨e, ho, rfl⟩
        · replace ho := FlowM.opening_of_runs ho
          have hsame := Context.set_of_session? ho.session?
          -- A step that only reads goes on with the session as it is.
          by_cases hread : item.readOnly = true
          · rw [if_pos hread, ← hsame] at h4
            have hentry : Entry item.readOnly s [] (.ok ()) s := .reading hread
            exact sqlRun_of_entered hp ho hentry h4
          · rw [if_neg hread] at h4
            have hwrite : item.readOnly = false := by simpa using hread
            rcases FlowM.runs_bind_iff.mp h4 with ⟨third, rest, u, c2, rfl, he, h5⟩ | ⟨e, he, rfl⟩
            · obtain ⟨s', hentry, rfl⟩ := FlowM.entry_of_runs he
              rw [← hwrite] at hentry
              exact sqlRun_of_entered hp ho hentry h5
            · obtain ⟨s', hentry, rfl⟩ := FlowM.entry_of_runs he
              rw [← hwrite] at hentry
              exact .unentered hp ho hentry
        · exact .unopened hp (FlowM.opening_of_runs ho)
      · rw [List.append_nil]
        exact .unprepared first e (Fragment.expand_memory _ _ _ first _ hx)
    · exact .unprepared events _ (Fragment.expand_memory _ _ _ events _ hx)
  · exact .unprepared [] _ (by simp)

/-- The events do not look at the signal. -/
def Unlooking (events : List Event) : Prop := ∀ x ∈ events, x.request ≠ .isCancelled

theorem Unlooking.append {first second : List Event} (h1 : Unlooking first)
    (h2 : Unlooking second) : Unlooking (first ++ second) :=
  fun x hx => (List.mem_append.mp hx).elim (h1 x) (h2 x)

theorem unlooking_of_isMemory {events : List Event}
    (h : ∀ x ∈ events, x.request.isMemory = true) : Unlooking events := by
  intro x hx hlook
  have hmemory := h x hx
  rw [hlook] at hmemory
  cases hmemory

theorem Prepared.unlooking {services : Services} {service : String} {args : Record}
    {events : List Event} {item : Item} {sql : String} {parsed : SqlArgs}
    (h : Prepared services service args events item sql parsed) : Unlooking events :=
  unlooking_of_isMemory (Fragment.expand_memory _ _ _ events _ h.expanded)

theorem Opening.unlooking {services : Services} {name : String} {c c1 : Context}
    {events : List Event} {r : Except FlowError Session}
    (h : Opening services name c events r c1) : Unlooking events := by
  cases h <;> simp [Unlooking]

theorem Entry.unlooking {readOnly : Bool} {s s' : Session} {events : List Event}
    {r : Except FlowError Unit} (h : Entry readOnly s events r s') : Unlooking events := by
  cases h <;> simp [Unlooking]

/-- The statements of a query are all that it asks for. -/
theorem unlooking_of_runQuery {kind : ExecKind} {q : Query} {link : Link} {events : List Event}
    {r : Except DataError (Json × Nat)}
    (h : (Services.runQuery kind q link).run.Runs events r) : Unlooking events := by
  intro x hx hlook
  have hstatement := (Services.runQuery_statements kind q link).1 events r h x hx
  rw [hlook] at hstatement
  cases hstatement

/-- Within an SQL step the signal is not looked at. -/
theorem SqlRun.unlooking {services : Services} {service : String} {args : Record}
    {c c' : Context} {events : List Event} {r : Except FlowError Json}
    (h : SqlRun services service args c events r c') : Unlooking events := by
  cases h with
  | unprepared _ e h => exact unlooking_of_isMemory h
  | unopened hp ho => exact hp.unlooking.append ho.unlooking
  | unentered hp ho he => exact hp.unlooking.append (ho.unlooking.append he.unlooking)
  | ended hp ho he hc => exact hp.unlooking.append (ho.unlooking.append he.unlooking)
  | failed hp ho he hc hs =>
    exact hp.unlooking.append
      (ho.unlooking.append (he.unlooking.append (unlooking_of_runQuery hs)))
  | answered hp ho he hc hs =>
    exact hp.unlooking.append
      (ho.unlooking.append (he.unlooking.append (unlooking_of_runQuery hs)))

/-! ## §2 Turns -/

/-- What a flow does in its context from one moment to the next, at any depth of nesting. -/
inductive Turn (services : Services) :
    Context → List Event → Except FlowError Unit → Context → Prop where
  /-- The signal is looked at and is not set. -/
  | look (c : Context) : Turn services c [⟨.isCancelled, false⟩] (.ok ()) c
  /-- The signal is looked at and is set. -/
  | cancelled (c : Context) : Turn services c [⟨.isCancelled, true⟩] (.error .cancelled) c
  /-- An SQL step runs. -/
  | sql {service : String} {args : Record} {c c' : Context} {events : List Event}
      {r : Except FlowError Json} (h : SqlRun services service args c events r c') :
      Turn services c events (r.map fun _ => ()) c'
  /-- A function is called, which concerns no connection. -/
  | call {step : Step} {args : Record} {c : Context} {events : List Event}
      {r : Except FlowError Json} (h : FlowM.Runs (services.runFunction step args) c events r c)
      (hevents : ∀ e ∈ events, e.request.name? = none) :
      Turn services c events (r.map fun _ => ()) c
  /-- A flow is nested too deep or unknown. -/
  | unrunnable (c : Context) (e : FlowError)
      (h : e = .nestingTooDeep maxDepth ∨ ∃ name, services.flow name = .error e) :
      Turn services c [] (.error e) c

/-- Turns one after another, none of which fails. -/
inductive Completed (services : Services) : Context → List Event → Context → Prop where
  | nil (c : Context) : Completed services c [] c
  | cons {c c1 c2 : Context} {first rest : List Event} (h : Turn services c first (.ok ()) c1)
      (hrest : Completed services c1 rest c2) : Completed services c (first ++ rest) c2

/-- What a part of a flow does: it completes its turns, or one of them fails, after which the
sessions may have been marked already. -/
inductive Course (services : Services) (c : Context) :
    List Event → Except FlowError Json → Context → Prop where
  | completed {events : List Event} {c' : Context} (v : Json)
      (h : Completed services c events c') : Course services c events (.ok v) c'
  | failed {first last : List Event} {e : FlowError} {c1 c2 c' : Context}
      (h : Completed services c first c1) (ht : Turn services c1 last (.error e) c2)
      (hmark : c' = c2 ∨ c' = c2.markErrored) :
      Course services c (first ++ last) (.error e) c'

/-- What a whole flow does in its context: after a failure every session is marked. -/
inductive Executed (services : Services) (c : Context) :
    List Event → Except FlowError Json → Context → Prop where
  | completed {events : List Event} {c' : Context} (v : Json)
      (h : Completed services c events c') : Executed services c events (.ok v) c'
  | failed {first last : List Event} {e : FlowError} {c1 c2 : Context}
      (h : Completed services c first c1) (ht : Turn services c1 last (.error e) c2) :
      Executed services c (first ++ last) (.error e) c2.markErrored

theorem Completed.append {services : Services} {c c1 c2 : Context} {first rest : List Event}
    (h : Completed services c first c1) (hrest : Completed services c1 rest c2) :
    Completed services c (first ++ rest) c2 := by
  -- By induction on the turns that come first.
  induction h with
  | nil c => exact hrest
  | cons ht _ ih =>
    rw [List.append_assoc]
    exact .cons ht (ih hrest)

theorem Completed.single {services : Services} {c c' : Context} {events : List Event}
    (h : Turn services c events (.ok ()) c') : Completed services c events c' := by
  have := Completed.cons h (.nil c')
  rwa [List.append_nil] at this

theorem Completed.course {services : Services} {c c1 c' : Context} {first rest : List Event}
    {r : Except FlowError Json} (h : Completed services c first c1)
    (hrest : Course services c1 rest r c') : Course services c (first ++ rest) r c' := by
  cases hrest with
  | completed v hrest => exact .completed v (h.append hrest)
  | failed hrest ht hmark =>
    rw [← List.append_assoc]
    exact .failed (h.append hrest) ht hmark

/-- A single turn is a course, whatever value it ends in. -/
theorem Turn.course {services : Services} {c c' : Context} {events : List Event}
    {r : Except FlowError Json} (h : Turn services c events (r.map fun _ => ()) c') :
    Course services c events r c' := by
  cases r with
  | ok v => exact .completed v (.single h)
  | error e => exact .failed (.nil c) h (.inl rfl)

theorem Context.markErrored_markErrored (c : Context) :
    c.markErrored.markErrored = c.markErrored := by
  simp [Context.markErrored, Dictionary.map, Session.markErrored, Function.comp_def]

namespace Services

theorem runs_markingFailure_iff {α : Type} {t : FlowM α} {c c' : Context} {events : List Event}
    {r : Except FlowError α} :
    FlowM.Runs (markingFailure t) c events r c' ↔
      ∃ c1, FlowM.Runs t c events r c1 ∧
        c' = match r with
          | .ok _ => c1
          | .error _ => c1.markErrored := by
  show Program.Runs ((t.runIn c).andThen _) events (r, c') ↔ _
  rw [Program.runs_andThen]
  constructor
  · rintro ⟨first, second, ⟨x, c1⟩, rfl, h1, h2⟩
    cases x <;>
    · obtain ⟨rfl, rfl, rfl⟩ := Program.runs_done_pair_iff.mp h2
      rw [List.append_nil]
      exact ⟨_, h1, rfl⟩
  · rintro ⟨c1, h, rfl⟩
    refine ⟨events, [], (r, c1), by simp, h, ?_⟩
    cases r <;> exact .done _

/-- Marking every session after a failure leaves a course a course. -/
theorem course_of_markingFailure {services : Services} {t : FlowM Json} {c c' : Context}
    {events : List Event} {r : Except FlowError Json}
    (ht : ∀ c1, FlowM.Runs t c events r c1 → Course services c events r c1)
    (h : FlowM.Runs (markingFailure t) c events r c') : Course services c events r c' := by
  obtain ⟨c1, h1, rfl⟩ := runs_markingFailure_iff.mp h
  cases ht c1 h1 with
  | completed v hdone => exact .completed v hdone
  | failed hdone hturn hmark =>
    refine .failed hdone hturn (.inr ?_)
    -- The sessions may be marked already, and marking them twice is marking them once.
    rcases hmark with rfl | rfl
    · rfl
    · exact Context.markErrored_markErrored _

/-- Calling a function leaves the context as it is.  It looks around, and may ask for
cancellation. -/
theorem events_of_runFunction {services : Services} {step : Step} {args : Record}
    {c c' : Context} {events : List Event} {r : Except FlowError Json}
    (h : FlowM.Runs (services.runFunction step args) c events r c') :
    c' = c ∧ ∃ around : Nat, events = [⟨.observe, around⟩] ∨
      events = [⟨.observe, around⟩, ⟨.cancel, ()⟩] := by
  unfold runFunction at h
  obtain ⟨around, rest, rfl, h1⟩ := FlowM.runs_request_bind_iff.mp h
  dsimp only at h1
  -- However the function reacts, what follows its call is a result or a failure.
  split at h1
  · obtain ⟨reply, rest, rfl, h2⟩ := FlowM.runs_request_bind_iff.mp h1
    split at h2 <;>
    · obtain ⟨rfl, -, rfl⟩ := (FlowM.runs_done_iff rfl).mp h2
      exact ⟨rfl, around, .inr rfl⟩
  · split at h1 <;>
    · obtain ⟨rfl, -, rfl⟩ := (FlowM.runs_done_iff rfl).mp h1
      exact ⟨rfl, around, .inl rfl⟩

/-- It concerns no connection. -/
theorem aside_of_runFunction {services : Services} {step : Step} {args : Record}
    {c c' : Context} {events : List Event} {r : Except FlowError Json}
    (h : FlowM.Runs (services.runFunction step args) c events r c') :
    c' = c ∧ ∀ e ∈ events, e.request.name? = none := by
  obtain ⟨hsame, around, rfl | rfl⟩ := events_of_runFunction h
  · exact ⟨hsame, by simp [Request.name?]⟩
  · exact ⟨hsame, by simp [Request.name?]⟩

/-- While it is called the signal is not looked at. -/
theorem unlooking_of_runFunction {services : Services} {step : Step} {args : Record}
    {c c' : Context} {events : List Event} {r : Except FlowError Json}
    (h : FlowM.Runs (services.runFunction step args) c events r c') : Unlooking events := by
  obtain ⟨-, around, rfl | rfl⟩ := events_of_runFunction h
  · simp [Unlooking]
  · simp [Unlooking]

theorem turn_of_runFunction {services : Services} {step : Step} {args : Record} {c c' : Context}
    {events : List Event} {r : Except FlowError Json}
    (h : FlowM.Runs (services.runFunction step args) c events r c') :
    Turn services c events (r.map fun _ => ()) c' := by
  obtain ⟨rfl, hevents⟩ := aside_of_runFunction h
  exact .call h hevents

/-- A step with its arguments is a course if nested flows are. -/
theorem course_of_runStep {services : Services} {nested : String → Json → FlowM Json}
    (hnested : ∀ name input c events r c', FlowM.Runs (nested name input) c events r c' →
      Course services c events r c')
    {step : Step} {args : Record} {c c' : Context} {events : List Event}
    {r : Except FlowError Json}
    (h : FlowM.Runs (services.runStep nested step args) c events r c') :
    Course services c events r c' := by
  unfold runStep at h
  split at h
  · exact (Turn.sql (sqlRun_of_runs h)).course
  · exact (turn_of_runFunction h).course
  · exact hnested _ _ _ _ _ _ h

/-- The steps that are left are a course if nested flows are. -/
theorem course_of_runSteps {services : Services} {nested : String → Json → FlowM Json}
    (hnested : ∀ name input c events r c', FlowM.Runs (nested name input) c events r c' →
      Course services c events r c')
    {state : Record} {last : Json} {steps : List Step} {c c' : Context} {events : List Event}
    {r : Except FlowError Json}
    (h : FlowM.Runs (services.runSteps nested state last steps) c events r c') :
    Course services c events r c' := by
  -- The induction is on the steps that are left; before each of them the signal is looked at.
  induction steps generalizing state last c events with
  | nil =>
    obtain ⟨rfl, rfl, rfl⟩ := FlowM.runs_pure_iff.mp h
    exact .completed last (.nil _)
  | cons step steps ih =>
    obtain ⟨stop, rest, rfl, h1⟩ := FlowM.runs_request_bind_iff.mp h
    cases stop with
    | true =>
      obtain ⟨rfl, rfl, rfl⟩ := (FlowM.runs_done_iff rfl).mp h1
      exact .failed (.nil _) (.cancelled _) (.inl rfl)
    | false =>
      have hlook : Completed services c [⟨.isCancelled, false⟩] c := .single (.look c)
      show Course services c ([⟨.isCancelled, false⟩] ++ rest) r c'
      apply hlook.course
      -- What a step has completed is followed by the other steps.
      rcases FlowM.runs_bind_iff.mp h1 with
        ⟨first, second, v, c1, rfl, hstep, hsteps⟩ | ⟨e, hstep, rfl⟩
      · cases course_of_markingFailure (fun _ => course_of_runStep hnested) hstep with
        | completed v hdone => exact hdone.course (ih hsteps)
      · cases course_of_markingFailure (fun _ => course_of_runStep hnested) hstep with
        | failed hdone ht hmark => exact .failed hdone ht hmark

/-- A flow is a course, at whatever level of nesting it runs. -/
theorem course_of_runFlow {services : Services} {levels : Nat} {name : String} {input : Json}
    {c c' : Context} {events : List Event} {r : Except FlowError Json}
    (h : FlowM.Runs (services.runFlow levels name input) c events r c') :
    Course services c events r c' := by
  -- A nested flow runs at a lower level, so the induction is on the levels.
  induction levels generalizing name input c c' events r with
  | zero =>
    obtain ⟨rfl, rfl, rfl⟩ := FlowM.runs_throw_iff.mp h
    exact .failed (.nil _) (.unrunnable _ _ (.inl rfl)) (.inl rfl)
  | succ levels ih =>
    rcases FlowM.runs_lift_bind_iff.mp h with ⟨flow, hflow, h1⟩ | ⟨e, he, rfl, rfl, rfl⟩
    · exact course_of_runSteps (fun _ _ _ _ _ _ => ih) h1
    · exact .failed (.nil _) (.unrunnable _ e (.inr ⟨name, he⟩)) (.inl rfl)

/-- What executing a flow does: its turns are completed, or it stops at a turn that fails and marks
every session. -/
theorem executed_of_runs {services : Services} {name : String} {input : Json} {c c' : Context}
    {events : List Event} {r : Except FlowError Json}
    (h : FlowM.Runs (services.execute name input) c events r c') :
    Executed services c events r c' := by
  obtain ⟨c1, h1, rfl⟩ := runs_markingFailure_iff.mp h
  cases course_of_runFlow h1 with
  | completed v hdone => exact .completed v hdone
  | failed hdone ht hmark =>
    rcases hmark with rfl | rfl
    · exact .failed hdone ht
    · show Executed services c _ _ (Context.markErrored (Context.markErrored _))
      rw [Context.markErrored_markErrored]
      exact .failed hdone ht

end Services

end SqlService
