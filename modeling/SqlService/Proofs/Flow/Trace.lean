import SqlService.Proofs.Flow.Settlement

/-!
# Traces of runs

The events of a run say neither on whose behalf they happen nor which step they belong to.  A trace
of a run says both: each event is an act, the acts of an SQL step carry the item that the step
names, and every step that is started stands in a list with its place, with what it finds and with
what it leaves.  Traces follow the steps of the flows, one case for each thing that a step may be.

An account of a run is what a trace says of the acts, a log of a run what it says of the steps.

Main statements: what a run goes through are the events of its accounts
(`Services.runs_iff_accounts`), and every run has a log (`Services.runs_iff_logs`).
-/

namespace SqlService

open Program (Event)

/-! ## §1 Acts and starts -/

/-- An event with the item that it happens for, if it belongs to an SQL step. -/
structure Act where
  event : Event
  item : Option Item

namespace Act

/-- What is asked for. -/
def request (a : Act) : Request := a.event.request

/-- The events as acts for one item, or for none. -/
def forItem (item : Option Item) (events : List Event) : List Act := events.map fun e => ⟨e, item⟩

/-- A look at the cancel signal. -/
def look (stop : Bool) : Act := ⟨⟨.isCancelled, stop⟩, none⟩

@[simp] theorem event_forItem (item : Option Item) (events : List Event) :
    (forItem item events).map event = events := by
  rw [forItem, List.map_map]
  exact List.map_id events

end Act

/-- A step that is started. -/
structure Start where
  /-- The positions of the steps that led to the flow, the innermost first. -/
  callers : List Nat
  /-- The position of the step in its flow. -/
  position : Nat
  flow : String
  step : Step
  /-- The state of the flow that the step finds. -/
  state : Record
  /-- How many events of the run come before the look at the signal for this step. -/
  offset : Nat
  /-- The context that the step finds. -/
  before : Context
  /-- Everything that happens until the step ends, behind the look. -/
  events : List Event
  outcome : Except FlowError Json
  /-- The context that the step leaves. -/
  after : Context

namespace Start

/-- The levels of nesting between the root and the flow of the step. -/
def depth (x : Start) : Nat := x.callers.length

/-- The arguments that the step gets. -/
def args (x : Start) : Record := x.step.resolveArgs x.state

end Start

/-! ## §2 Traces -/

/-- Acts on the way from one context to another, the result that they end in, and the steps that
are started in the course of them. -/
abbrev Trace : Type :=
  Context → List Act → Except FlowError Json → Context → List Start → Prop

/-- A trace of a step with its arguments, where `nested` gives traces of nested flows. -/
inductive StepTrace (services : Services) (nested : String → Json → Trace) (step : Step)
    (args : Record) : Trace where
  | sql {c c' : Context} {events : List Event} {r : Except FlowError Json}
      (hkind : step.kind = .sql)
      (h : FlowM.Runs (services.runSql step.service args) c events r c') :
      StepTrace services nested step args c
        (Act.forItem (services.items.get? step.service) events) r c' []
  | function {c c' : Context} {events : List Event} {r : Except FlowError Json}
      (hkind : step.kind = .function)
      (h : FlowM.Runs (services.runFunction step args) c events r c') :
      StepTrace services nested step args c (Act.forItem none events) r c' []
  | flow {c c' : Context} {acts : List Act} {r : Except FlowError Json} {log : List Start}
      (hkind : step.kind = .flow)
      (h : nested step.service (Record.toJson args) c acts r c' log) :
      StepTrace services nested step args c acts r c' log

/-- A trace of the steps that are left of a flow, with the number of events that come before and
the position of the first step, where `last` is the output before. -/
inductive StepsTrace (services : Services) (nested : List Nat → Nat → String → Json → Trace)
    (callers : List Nat) (name : String) : Nat → Nat → Record → Json → List Step → Trace where
  | done (offset position : Nat) (state : Record) (last : Json) (c : Context) :
      StepsTrace services nested callers name offset position state last [] c [] (.ok last) c []
  | cancelled (offset position : Nat) (state : Record) (last : Json) (step : Step)
      (steps : List Step) (c : Context) :
      StepsTrace services nested callers name offset position state last (step :: steps) c
        [.look true] (.error .cancelled) c []
  | failed {offset position : Nat} {state : Record} {last : Json} {step : Step} {steps : List Step}
      {c c' : Context} {acts : List Act} {e : FlowError} {log : List Start}
      (h : StepTrace services (nested (position :: callers) (offset + 1)) step
        (step.resolveArgs state) c acts (.error e) c' log) :
      StepsTrace services nested callers name offset position state last (step :: steps) c
        (.look false :: acts) (.error e) c'.markErrored
        (⟨callers, position, name, step, state, offset, c, acts.map Act.event, .error e, c'⟩ :: log)
  | next {offset position : Nat} {state : Record} {last output : Json} {step : Step}
      {steps : List Step} {c c1 c' : Context} {acts rest : List Act} {r : Except FlowError Json}
      {log more : List Start}
      (h : StepTrace services (nested (position :: callers) (offset + 1)) step
        (step.resolveArgs state) c acts (.ok output) c1 log)
      (hrest : StepsTrace services nested callers name (offset + 1 + acts.length) (position + 1)
        (state.insert step.name output) output steps c1 rest r c' more) :
      StepsTrace services nested callers name offset position state last (step :: steps) c
        (.look false :: (acts ++ rest)) r c'
        (⟨callers, position, name, step, state, offset, c, acts.map Act.event, .ok output, c1⟩ ::
          (log ++ more))

/-- A trace of a flow with so many levels of nesting left. -/
def FlowTrace (services : Services) (levels : Nat) (callers : List Nat) (offset : Nat)
    (name : String) (input : Json) : Trace :=
  fun c acts r c' log =>
    match levels with
    -- No level is left for this flow, whether it is known or not.
    | 0 => acts = [] ∧ r = .error (.nestingTooDeep maxDepth) ∧ c' = c ∧ log = []
    | levels + 1 =>
      (∃ e, services.flow name = .error e ∧ acts = [] ∧ r = .error e ∧ c' = c ∧ log = []) ∨
        ∃ flow, services.flow name = .ok flow ∧
          StepsTrace services (FlowTrace services levels) callers name offset 0
            (Dictionary.ofList [("input", input)]) .null flow.steps c acts r c' log

/-- The context that a flow leaves: after a failure every session is marked for rollback. -/
def Context.markedBy (c : Context) : Except FlowError Json → Context
  | .ok _ => c
  | .error _ => c.markErrored

/-- A trace of a whole run: the flow, and then the end of every session. -/
inductive RunTrace (services : Services) (flow : String) (input : Json) :
    List Act → ServiceResult → List Start → Prop where
  | intro {acts : List Act} {last : List Event} {outcome : Except FlowError Json} {c : Context}
      {log : List Start}
      (h : FlowTrace services (maxDepth + 1) [] 0 flow input {} acts outcome c log)
      (hlast : Program.Runs (c.markedBy outcome).finalize last (c.markedBy outcome).ended) :
      RunTrace services flow input (acts ++ Act.forItem none last) (.ofOutcome outcome) log

/-! ## §3 Runs and traces -/

/-- The task goes through the events of its traces. -/
def Traced (t : FlowM Json) (trace : Trace) : Prop :=
  ∀ c events r c', FlowM.Runs t c events r c' ↔
    ∃ acts log, trace c acts r c' log ∧ acts.map Act.event = events

namespace Services

variable {services : Services}

theorem traced_runStep {nested : String → Json → FlowM Json} {trace : String → Json → Trace}
    (hnested : ∀ name input, Traced (nested name input) (trace name input)) (step : Step)
    (args : Record) :
    Traced (services.runStep nested step args) (StepTrace services trace step args) := by
  intro c events r c'
  unfold runStep
  constructor
  · intro h
    -- A step goes on by its kind, which the trace has as well.
    cases hkind : step.kind with
    | sql =>
      rw [hkind] at h
      exact ⟨_, [], .sql hkind h, Act.event_forItem _ events⟩
    | function =>
      rw [hkind] at h
      exact ⟨_, [], .function hkind h, Act.event_forItem _ events⟩
    | flow =>
      rw [hkind] at h
      obtain ⟨acts, log, htrace, hevents⟩ := (hnested _ _ c events r c').mp h
      exact ⟨acts, log, .flow hkind htrace, hevents⟩
  · rintro ⟨acts, log, h, rfl⟩
    cases h with
    | sql hkind h => rwa [hkind, Act.event_forItem]
    | function hkind h => rwa [hkind, Act.event_forItem]
    | flow hkind h =>
      rw [hkind]
      exact (hnested _ _ _ _ _ _).mpr ⟨acts, log, h, rfl⟩

/-- Before the first of the steps the signal is looked at. -/
theorem runs_runSteps_cons_iff {nested : String → Json → FlowM Json} {state : Record} {last : Json}
    {step : Step} {steps : List Step} {c c' : Context} {events : List Event}
    {r : Except FlowError Json} :
    FlowM.Runs (services.runSteps nested state last (step :: steps)) c events r c' ↔
      (events = [⟨.isCancelled, true⟩] ∧ r = .error .cancelled ∧ c' = c) ∨
        ∃ rest, events = ⟨.isCancelled, false⟩ :: rest ∧
          FlowM.Runs (do
            let output ← markingFailure (services.runStep nested step (step.resolveArgs state))
            services.runSteps nested (state.insert step.name output) output steps) c rest r c' := by
  refine FlowM.runs_request_bind_iff.trans ?_
  -- If the signal is set nothing follows, and otherwise the step and all that comes after it.
  constructor
  · rintro ⟨stop, rest, rfl, h⟩
    cases stop with
    | true =>
      obtain ⟨rfl, rfl, rfl⟩ := (FlowM.runs_done_iff rfl).mp h
      exact .inl ⟨rfl, rfl, rfl⟩
    | false => exact .inr ⟨rest, rfl, h⟩
  · rintro (⟨rfl, rfl, rfl⟩ | ⟨rest, rfl, h⟩)
    · exact ⟨true, [], rfl, (FlowM.runs_done_iff rfl).mpr ⟨rfl, rfl, rfl⟩⟩
    · exact ⟨false, rest, rfl, h⟩

theorem traced_runSteps {nested : String → Json → FlowM Json}
    {trace : List Nat → Nat → String → Json → Trace}
    (hnested : ∀ callers offset name input,
      Traced (nested name input) (trace callers offset name input))
    (callers : List Nat) (name : String) (offset position : Nat) (state : Record) (last : Json)
    (steps : List Step) :
    Traced (services.runSteps nested state last steps)
      (StepsTrace services trace callers name offset position state last steps) := by
  -- By induction on the steps, from whatever position and state.
  induction steps generalizing offset position state last with
  | nil =>
    intro c events r c'
    rw [runSteps, FlowM.runs_pure_iff]
    constructor
    · rintro ⟨rfl, rfl, rfl⟩
      exact ⟨[], [], .done offset position state last c', rfl⟩
    · rintro ⟨acts, log, h, rfl⟩
      cases h
      exact ⟨rfl, rfl, rfl⟩
  | cons step steps ih =>
    have hstep : Traced (services.runStep nested step (step.resolveArgs state))
        (StepTrace services (trace (position :: callers) (offset + 1)) step
          (step.resolveArgs state)) :=
      traced_runStep (hnested (position :: callers) (offset + 1)) step (step.resolveArgs state)
    intro c events r c'
    rw [runs_runSteps_cons_iff]
    constructor
    · rintro (⟨rfl, rfl, rfl⟩ | ⟨rest, rfl, h⟩)
      · exact ⟨_, [], .cancelled offset position state last step steps c', rfl⟩
      · -- The step fails and ends the flow, or the other steps follow it.
        rcases FlowM.runs_bind_iff.mp h with
          ⟨first, second, output, c1, rfl, h1, h2⟩ | ⟨e, h1, rfl⟩
        · obtain ⟨_, hdone, rfl⟩ := runs_markingFailure_iff.mp h1
          obtain ⟨acts, log, htrace, rfl⟩ := (hstep _ _ _ _).mp hdone
          obtain ⟨rest, more, hmore, rfl⟩ :=
            (ih (offset + 1 + acts.length) (position + 1) _ _ _ _ _ _).mp h2
          exact ⟨_, _, .next htrace hmore, by simp [Act.look]⟩
        · obtain ⟨c1, hfailed, rfl⟩ := runs_markingFailure_iff.mp h1
          obtain ⟨acts, log, htrace, rfl⟩ := (hstep _ _ _ _).mp hfailed
          exact ⟨_, _, .failed htrace, rfl⟩
    · rintro ⟨acts, log, h, rfl⟩
      -- Each shape of a trace is one way through the definition.
      cases h with
      | cancelled => exact .inl ⟨rfl, rfl, rfl⟩
      | failed h =>
        refine .inr ⟨_, rfl, FlowM.runs_bind_iff.mpr (.inr ⟨_, ?_, rfl⟩)⟩
        exact runs_markingFailure_iff.mpr ⟨_, (hstep _ _ _ _).mpr ⟨_, _, h, rfl⟩, rfl⟩
      | @next _ _ _ _ output _ _ _ c1 _ acts rest _ _ _ h hrest =>
        refine .inr ⟨(acts ++ rest).map Act.event, rfl, ?_⟩
        refine FlowM.runs_bind_iff.mpr (.inl ⟨acts.map Act.event, rest.map Act.event, output, c1,
          List.map_append, ?_, (ih _ (position + 1) _ _ _ _ _ _).mpr ⟨rest, _, hrest, rfl⟩⟩)
        exact runs_markingFailure_iff.mpr ⟨c1, (hstep _ _ _ _).mpr ⟨acts, _, h, rfl⟩, rfl⟩

/-- Wherever a flow is run from, it goes through the events of its traces. -/
theorem traced_runFlow (levels : Nat) (callers : List Nat) (offset : Nat) (name : String)
    (input : Json) :
    Traced (services.runFlow levels name input)
      (FlowTrace services levels callers offset name input) := by
  -- A nested flow has one level less.
  induction levels generalizing callers offset name input with
  | zero =>
    intro c events r c'
    rw [runFlow, FlowM.runs_throw_iff]
    constructor
    · rintro ⟨rfl, rfl, rfl⟩
      exact ⟨[], [], ⟨rfl, rfl, rfl, rfl⟩, rfl⟩
    · rintro ⟨acts, log, ⟨rfl, rfl, rfl, rfl⟩, rfl⟩
      exact ⟨rfl, rfl, rfl⟩
  | succ levels ih =>
    intro c events r c'
    rw [runFlow, FlowM.runs_lift_bind_iff]
    constructor
    · rintro (⟨flow, hflow, h⟩ | ⟨e, he, rfl, rfl, rfl⟩)
      · obtain ⟨acts, log, htrace, rfl⟩ :=
          (traced_runSteps ih callers name offset 0 _ _ _ _ _ _ _).mp h
        exact ⟨acts, log, .inr ⟨flow, hflow, htrace⟩, rfl⟩
      · exact ⟨[], [], .inl ⟨e, he, rfl, rfl, rfl, rfl⟩, rfl⟩
    · rintro ⟨acts, log, ⟨e, he, rfl, rfl, rfl, rfl⟩ | ⟨flow, hflow, h⟩, rfl⟩
      · exact .inr ⟨e, he, rfl, rfl, rfl⟩
      · exact .inl ⟨flow, hflow,
          (traced_runSteps ih callers name offset 0 _ _ _ _ _ _ _).mpr ⟨acts, log, h, rfl⟩⟩

/-- A run goes through some events exactly if they are the events of a trace. -/
theorem runs_iff_traces {flow : String} {input : Json} {events : List Event}
    {result : ServiceResult} :
    Program.Runs (services.run flow input) events result ↔
      ∃ acts log, RunTrace services flow input acts result log ∧ acts.map Act.event = events := by
  have hflow : Traced (services.runFlow (maxDepth + 1) flow input)
      (FlowTrace services (maxDepth + 1) [] 0 flow input) := traced_runFlow _ _ _ _ _
  -- The flow marks the sessions if it fails, and then every session ends.
  rw [runs_run_iff]
  constructor
  · rintro ⟨first, last, outcome, c, rfl, h, hlast, rfl⟩
    obtain ⟨c1, hrun, rfl⟩ := runs_markingFailure_iff.mp h
    obtain ⟨acts, log, htrace, rfl⟩ := (hflow _ _ _ _).mp hrun
    refine ⟨_, log, .intro htrace ?_, by rw [List.map_append, Act.event_forItem]⟩
    cases outcome <;> exact hlast
  · rintro ⟨acts, log, h, rfl⟩
    cases h with
    | @intro acts last outcome c _ h hlast =>
      refine ⟨acts.map Act.event, last, outcome, c.markedBy outcome, ?_, ?_, hlast, rfl⟩
      · rw [List.map_append, Act.event_forItem]
      · refine runs_markingFailure_iff.mpr ⟨c, (hflow _ _ _ _).mpr ⟨acts, log, h, rfl⟩, ?_⟩
        cases outcome <;> rfl

end Services

/-! ## §4 Accounts and logs -/

/-- Acts on the way from one context to another, and the result that they end in. -/
abbrev Account : Type := Context → List Act → Except FlowError Json → Context → Prop

/-- An account of a flow with so many levels of nesting left. -/
def FlowAccount (services : Services) (levels : Nat) (name : String) (input : Json) : Account :=
  fun c acts r c' => ∃ log, FlowTrace services levels [] 0 name input c acts r c' log

/-- An account of a whole run. -/
def RunAccount (services : Services) (flow : String) (input : Json) (acts : List Act)
    (result : ServiceResult) : Prop :=
  ∃ log, RunTrace services flow input acts result log

/-- A log of a whole run: the steps that it starts, those of nested flows after the step that runs
them. -/
def RunLog (services : Services) (flow : String) (input : Json) (events : List Event)
    (result : ServiceResult) (log : List Start) : Prop :=
  ∃ acts, RunTrace services flow input acts result log ∧ acts.map Act.event = events

namespace Services

variable {services : Services} {flow : String} {input : Json} {events : List Event}

theorem runs_runFlow_iff_accounts {levels : Nat} {c c' : Context} {r : Except FlowError Json} :
    FlowM.Runs (services.runFlow levels flow input) c events r c' ↔
      ∃ acts, FlowAccount services levels flow input c acts r c' ∧ acts.map Act.event = events := by
  refine (traced_runFlow levels [] 0 flow input c events r c').trans (exists_congr fun acts => ?_)
  exact exists_and_right

/-- A run goes through some events exactly if they are the events of an account. -/
theorem runs_iff_accounts {result : ServiceResult} :
    Program.Runs (services.run flow input) events result ↔
      ∃ acts, RunAccount services flow input acts result ∧ acts.map Act.event = events :=
  runs_iff_traces.trans (exists_congr fun _ => exists_and_right)

/-- A run goes through some events exactly if it has a log with them. -/
theorem runs_iff_logs {result : ServiceResult} :
    Program.Runs (services.run flow input) events result ↔
      ∃ log, RunLog services flow input events result log :=
  runs_iff_traces.trans exists_comm

end Services

end SqlService
