import SqlService.Proofs.Flow.Settlement
import SqlService.Proofs.Fragment.Substitution

/-!
# Bounds on flows

For given services there is a number of requests that no run goes beyond, whatever flow it runs on
whatever input and however its requests are answered.  It comes from the texts of the items, the
numbers of steps and the levels of nesting.

Main statement: `Services.atMost_run`.
-/

namespace SqlService

open Program (Event)

/-! ## §1 Tasks -/

/-- A value or an error that is there already takes no request. -/
theorem Attempt.atMost_lift {α : Type} (x : Except DataError α) :
    Program.AtMost 0 (liftM x : Attempt DataError α).run :=
  Program.atMost_done x

namespace FlowM

variable {α β : Type} {m n : Nat}

/-- In any context the task makes at most so many requests. -/
def AtMost (bound : Nat) (t : FlowM α) : Prop := ∀ c, (t.runIn c).AtMost bound

theorem AtMost.mono {t : FlowM α} (ht : t.AtMost m) (h : m ≤ n) : t.AtMost n :=
  fun c => (ht c).mono h

/-- Tasks one after another make at most as many requests as both may. -/
theorem AtMost.bind {t : FlowM α} {f : α → FlowM β} (ht : t.AtMost m)
    (hf : ∀ a, (f a).AtMost n) : (t >>= f).AtMost (m + n) := by
  intro c
  rw [runIn_bind]
  refine (ht c).andThen fun x => ?_
  obtain ⟨r, c1⟩ := x
  -- Where the first one fails the second makes none.
  cases r with
  | ok a => exact hf a c1
  | error e => exact (Program.atMost_done _).mono (Nat.zero_le n)

/-- A task that makes no request. -/
theorem atMost_silent {t : FlowM α} (h : ∀ c, ∃ x, t.runIn c = .done x) : t.AtMost 0 := by
  intro c
  obtain ⟨x, hx⟩ := h c
  rw [hx]
  exact Program.atMost_done x

theorem atMost_pure (a : α) : AtMost 0 (pure a : FlowM α) := atMost_silent fun _ => ⟨_, rfl⟩

theorem atMost_throw (e : FlowError) : AtMost 0 (throw e : FlowM α) :=
  atMost_silent fun _ => ⟨_, rfl⟩

theorem atMost_lift (x : Except FlowError α) : AtMost 0 (liftM x : FlowM α) :=
  atMost_silent fun _ => by cases x <;> exact ⟨_, rfl⟩

theorem atMost_ofData (x : Except DataError α) : AtMost 0 (ofData x) :=
  atMost_silent fun _ => by cases x <;> exact ⟨_, rfl⟩

/-- A request is one request. -/
theorem atMost_request (q : Request) : AtMost 1 (request q) :=
  fun _ => Program.AtMost.ask fun _ => Program.atMost_done _

/-- An attempt in a flow makes the requests of the attempt. -/
theorem atMost_attempt {a : Attempt DataError α} (ha : a.run.AtMost n) : AtMost n (attempt a) := by
  intro c
  refine Program.AtMost.andThen (n := 0) ha fun r => ?_
  cases r <;> exact Program.atMost_done _

/-- A session is asked for with at most one request. -/
theorem atMost_openSession (services : Services) (name : String) :
    AtMost 1 (openSession services name) := by
  unfold openSession
  refine AtMost.bind (m := 0) (n := 1) (atMost_silent fun c => ⟨_, rfl⟩) fun c => ?_
  split
  -- A session that is there is used without one.
  · exact (atMost_pure _).mono (by decide)
  · refine AtMost.bind (m := 0) (n := 1) (atMost_lift _) fun settings => ?_
    refine AtMost.bind (m := 0) (n := 1) (atMost_ofData _) fun provider => ?_
    refine AtMost.bind (m := 1) (n := 0) (atMost_request _) fun reply => ?_
    split
    · exact atMost_throw _
    · exact atMost_silent fun c => ⟨_, rfl⟩

/-- A transaction is entered with at most one request. -/
theorem atMost_ensureTransaction (name : String) (s : Session) :
    AtMost 1 (ensureTransaction name s) := by
  intro c
  refine Program.AtMost.andThen (n := 0) ?_ fun r => Program.atMost_done _
  rw [Session.ensureTransaction]
  -- An open transaction and an ended session need none.
  split
  · exact (Program.atMost_done _).mono (Nat.zero_le 1)
  · split
    · exact (Program.atMost_done _).mono (Nat.zero_le 1)
    · refine Program.AtMost.ask (n := 0) fun _ => ?_
      split <;> exact Program.atMost_done _

end FlowM

/-! ## §2 Queries -/

namespace Query

/-- The rows of a query are one statement. -/
theorem atMost_rows (q : Query) (l : Link) : (q.rows l).run.AtMost 1 :=
  (Attempt.atMost_lift q.build).bind fun _ => Program.AtMost.ask fun _ => Program.atMost_done _

/-- The count of a query is one statement. -/
theorem atMost_count (q : Query) (l : Link) : (q.count l).run.AtMost 1 := by
  refine (Attempt.atMost_lift q.buildCount).bind (n := 1) fun s => ?_
  have hscalar : (l.scalar s.sql s.params).run.AtMost 1 :=
    Program.AtMost.ask fun _ => Program.atMost_done _
  exact hscalar.bind fun _ => Program.atMost_done _

/-- A page of a query is its count and its rows. -/
theorem atMost_pageRows (q : Query) (l : Link) : (q.pageRows l).run.AtMost 2 :=
  (Attempt.atMost_lift q.offset).bind fun _ => (q.atMost_count l).bind fun _ =>
    (q.atMost_rows l).bind fun _ => Program.atMost_done _

end Query

namespace Services

variable {services : Services}

/-- A query sends at most two statements, whatever its kind. -/
theorem atMost_runQuery (kind : ExecKind) (q : Query) (l : Link) :
    (runQuery kind q l).run.AtMost 2 := by
  -- What is made of the answer of a single statement asks for nothing more.
  have hone : ∀ {α β : Type} {a : Attempt DataError α} (f : α → β), a.run.AtMost 1 →
      Program.AtMost 2 (do let v ← a; pure (f v) : Attempt DataError β).run :=
    fun f ha => (ha.bind (n := 0) fun _ => Program.atMost_done _).mono (by decide)
  unfold runQuery
  split
  · exact (q.atMost_pageRows l).bind fun _ => Program.atMost_done _
  · cases kind with
    | query => exact hone _ (q.atMost_rows l)
    | single =>
      have hsingle : (q.single? l).run.AtMost 1 :=
        (q.atMost_rows l).bind fun _ => Program.atMost_done _
      exact hone _ hsingle
    | scalar =>
      have hscalar : (q.scalar l).run.AtMost 1 :=
        (Attempt.atMost_lift q.build).bind fun s =>
          Program.AtMost.ask fun _ => Program.atMost_done _
      exact hone _ hscalar
    | execute =>
      have hexecute : (q.execute l).run.AtMost 1 :=
        (Attempt.atMost_lift q.build).bind fun s =>
          Program.AtMost.ask fun _ => Program.atMost_done _
      exact hone _ hexecute

/-! ## §3 Flows -/

/-- How many requests an SQL step makes at most. -/
def sqlBound (services : Services) : Nat :=
  Fragment.expandBound (Fragment.width services.items) (Fragment.unopened services.items []) + 4

/-- An SQL step expands its item, asks for its session, enters its transaction and sends its
statements. -/
theorem atMost_runSql (service : String) (args : Record) :
    (services.runSql service args).AtMost services.sqlBound := by
  unfold runSql
  -- The parts in the order of the step; only the expansion depends on the services.
  have hbound : ∀ n, 0 + (n + (0 + (1 + 3))) ≤ n + 4 := fun n => by omega
  refine FlowM.AtMost.mono ?_ (hbound _)
  refine (FlowM.atMost_ofData _).bind fun item => ?_
  refine (FlowM.atMost_attempt (Fragment.atMost_expand [] item.name)).bind fun sql => ?_
  refine (FlowM.atMost_lift _).bind fun parsed => ?_
  refine (FlowM.atMost_openSession services item.connection).bind fun session => ?_
  have hstatements : ∀ link, FlowM.AtMost 2
      (FlowM.attempt (runQuery item.kind (stepQuery session.dialect sql parsed) link)) :=
    fun link => FlowM.atMost_attempt (atMost_runQuery _ _ link)
  dsimp only
  -- An item that only reads enters no transaction, any other one does.
  split
  · refine FlowM.AtMost.bind (m := 0) (n := 3) (FlowM.atMost_lift session.openLink) fun link => ?_
    refine FlowM.AtMost.bind (m := 2) (n := 1) (hstatements link) fun answer => ?_
    exact (FlowM.atMost_silent fun c => ⟨_, rfl⟩).mono (by decide)
  · refine FlowM.AtMost.bind (m := 1) (n := 2) (FlowM.atMost_ensureTransaction _ _) fun s => ?_
    refine FlowM.AtMost.bind (m := 0) (n := 2) (FlowM.atMost_lift _) fun link => ?_
    refine FlowM.AtMost.bind (m := 2) (n := 0) (hstatements link) fun answer => ?_
    exact FlowM.atMost_silent fun c => ⟨_, rfl⟩

/-- A function step looks around it once, and may ask for cancellation. -/
theorem atMost_runFunction (step : Step) (args : Record) :
    (services.runFunction step args).AtMost 2 := by
  unfold runFunction
  refine FlowM.AtMost.bind (m := 1) (n := 1) (FlowM.atMost_request .observe) fun around => ?_
  dsimp only
  -- What the function returns or throws asks for nothing.
  split
  · refine FlowM.AtMost.bind (m := 1) (n := 0) (FlowM.atMost_request .cancel) fun _ => ?_
    split
    · exact FlowM.atMost_pure _
    · exact FlowM.atMost_throw _
    · exact FlowM.atMost_throw _
  · split
    · exact (FlowM.atMost_pure _).mono (Nat.zero_le 1)
    · exact (FlowM.atMost_throw _).mono (Nat.zero_le 1)
    · exact (FlowM.atMost_throw _).mono (Nat.zero_le 1)

/-- How many requests a step makes at most, where a nested flow makes at most so many. -/
def stepBound (services : Services) (nested : Nat) : Nat := services.sqlBound + 2 + nested

/-- A step makes at most the requests of its kind. -/
theorem atMost_runStep {nested : String → Json → FlowM Json} {bound : Nat}
    (hnested : ∀ name input, (nested name input).AtMost bound) (step : Step) (args : Record) :
    (services.runStep nested step args).AtMost (services.stepBound bound) := by
  unfold runStep stepBound
  split
  · exact (atMost_runSql _ _).mono (by omega)
  · exact (atMost_runFunction _ _).mono (by omega)
  · exact (hnested _ _).mono (by omega)

/-- Marking a failure takes no request. -/
theorem atMost_markingFailure {t : FlowM Json} {bound : Nat} (ht : t.AtMost bound) :
    (markingFailure t).AtMost bound := by
  intro c
  refine Program.AtMost.andThen (n := 0) (ht c) fun x => ?_
  obtain ⟨r, c1⟩ := x
  cases r <;> exact Program.atMost_done _

/-- Each step is preceded by a look at the signal. -/
theorem atMost_runSteps {nested : String → Json → FlowM Json} {bound : Nat}
    (hnested : ∀ name input, (nested name input).AtMost bound) (state : Record) (last : Json)
    (steps : List Step) :
    (services.runSteps nested state last steps).AtMost
      (steps.length * (1 + services.stepBound bound)) := by
  -- By induction on the steps, which share one bound.
  induction steps generalizing state last with
  | nil => exact (FlowM.atMost_pure last).mono (Nat.zero_le _)
  | cons step steps ih =>
    rw [List.length_cons, Nat.succ_mul, Nat.add_comm, Nat.add_assoc]
    refine FlowM.AtMost.bind (FlowM.atMost_request .isCancelled) fun stop => ?_
    cases stop with
    -- A step that is not begun makes no request but the look.
    | true => exact (FlowM.atMost_throw _).mono (Nat.zero_le _)
    | false =>
      exact FlowM.AtMost.bind (atMost_markingFailure (atMost_runStep hnested step _)) fun _ =>
        ih _ _

/-- The number of steps of all flows together. -/
def stepCount (services : Services) : Nat :=
  (services.flows.entries.map fun e => e.2.steps.length).sum

theorem flow_eq_ok_iff {name : String} {flow : Flow} :
    services.flow name = .ok flow ↔ services.flows.get? name = some flow := by
  rw [Services.flow]
  cases services.flows.get? name <;> simp

/-- No flow has more steps than all of them together. -/
theorem length_le_stepCount {name : String} {flow : Flow} (h : services.flow name = .ok flow) :
    flow.steps.length ≤ services.stepCount :=
  List.le_sum_of_mem (List.mem_map.mpr
    ⟨(name, flow), Dictionary.get?_eq_some_iff.mp (flow_eq_ok_iff.mp h), rfl⟩)

/-- How many requests a flow makes at most with so many levels of nesting left. -/
def flowBound (services : Services) : Nat → Nat
  | 0 => 0
  | levels + 1 => services.stepCount * (1 + services.stepBound (services.flowBound levels))

/-- A flow makes at most so many requests as its levels allow, on any input. -/
theorem atMost_runFlow (levels : Nat) (name : String) (input : Json) :
    (services.runFlow levels name input).AtMost (services.flowBound levels) := by
  -- A nested flow has one level less.
  induction levels generalizing name input with
  | zero => exact FlowM.atMost_throw _
  | succ levels ih =>
    intro c events x h
    obtain ⟨r, c'⟩ := x
    rcases FlowM.runs_lift_bind_iff.mp h with ⟨flow, hflow, hsteps⟩ | ⟨e, he, rfl, -, -⟩
    -- The steps of one flow are bounded by those of all, so that the bound does not depend on its
    -- name.
    · refine Nat.le_trans (atMost_runSteps ih _ _ flow.steps c events _ hsteps) ?_
      exact Nat.mul_le_mul_right _ (length_le_stepCount hflow)
    · exact Nat.zero_le _

/-- How many requests a run makes at most. -/
def runBound (services : Services) : Nat := 3 * services.flowBound (maxDepth + 1)

/-- A session is ended by closing it, after its transaction if it has one. -/
theorem length_endings_le (s : Session) : s.endings.length ≤ 2 := by
  unfold Session.endings
  split
  · exact Nat.zero_le 2
  · split
    · exact Nat.le_refl 2
    · exact Nat.le_succ 1

theorem length_flatMap_endings_le (entries : List (String × Session)) :
    (entries.flatMap fun e => e.2.endings).length ≤ 2 * entries.length := by
  induction entries with
  | nil => exact Nat.le_refl 0
  | cons e entries ih =>
    have hfirst := length_endings_le e.2
    rw [List.flatMap_cons, List.length_append, List.length_cons]
    omega

/-- A session is ended with at most two requests, and every session was opened with one. -/
theorem atMost_run (name : String) (input : Json) :
    (services.run name input).AtMost services.runBound := by
  intro events result h
  obtain ⟨first, last, outcome, c, rfl, hexecute, hlast, rfl⟩ := runs_run_iff.mp h
  have hfirst := atMost_markingFailure (atMost_runFlow (maxDepth + 1) name input) _ _ _ hexecute
  have hopened : c.sessions.entries.length = (openings first).length := by
    -- Every session at the end was opened on the way, since the run starts with none.
    have hlinks : c.links = openings first :=
      (advances_of_execute Context.WellFormed.empty hexecute).links
    rw [← hlinks, Context.links_eq_map, List.length_map]
  have hends : last.length = (c.sessions.entries.flatMap fun e => e.2.endings).length := by
    rw [← (Context.runs_finalize hlast).1, List.length_map]
  have hended := length_flatMap_endings_le c.sessions.entries
  have hcount : (openings first).length ≤ first.length := List.length_filterMap_le _ _
  rw [List.length_append, runBound]
  omega

end Services

end SqlService
