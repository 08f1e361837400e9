import SqlService.Proofs.Effect.Signal
import SqlService.Proofs.Flow.Trace

/-!
# What stands in the log of a run

The log of a run lists the steps that it starts, and what stands in it did happen: the step is the
one at its position in a defined flow, which lies as many levels below the root as steps led to it,
and that is never more than the levels that there are.  Right before it runs the cancel signal is
looked at and found not set, and there are no other looks that find it so.

Main statements: `RunLog.placed` and `RunLog.located`.
-/

namespace SqlService

open Program (Event passes)

/-! ## §1 Places -/

variable {services : Services} {root : String}

/-- The steps at the positions, the innermost first, lead from the root to the flow. -/
inductive Leads (services : Services) (root : String) : List Nat → String → Prop where
  | root : Leads services root [] root
  | step {callers : List Nat} {position : Nat} {name : String} {flow : Flow} {step : Step}
      (h : Leads services root callers name) (hflow : services.flow name = .ok flow)
      (hstep : flow.steps[position]? = some step) (hkind : step.kind = .flow) :
      Leads services root (position :: callers) step.service

/-- The step stands where it says, and it did run so. -/
structure Start.Placed (services : Services) (root : String) (x : Start) : Prop where
  leads : Leads services root x.callers x.flow
  depth_le : x.depth ≤ maxDepth
  listed : ∃ flow, services.flow x.flow = .ok flow ∧ flow.steps[x.position]? = some x.step
  ran : FlowM.Runs (services.runStep (services.runFlow (maxDepth - x.depth)) x.step x.args)
    x.before x.events x.outcome x.after

section Placed

variable {levels : Nat} {callers : List Nat} {name : String} {flow : Flow} {c c' : Context}
  {acts : List Act} {r : Except FlowError Json} {log : List Start}

/-- A step that is the one at its position stands so in the log. -/
theorem placed_of_stepTrace {offset position : Nat} {step : Step} {state : Record}
    (hlevels : levels + callers.length = maxDepth) (hleads : Leads services root callers name)
    (hflow : services.flow name = .ok flow) (hstep : flow.steps[position]? = some step)
    (h : StepTrace services (FlowTrace services levels (position :: callers) (offset + 1)) step
      (step.resolveArgs state) c acts r c' log) :
    Start.Placed services root
      ⟨callers, position, name, step, state, offset, c, acts.map Act.event, r, c'⟩ where
  leads := hleads
  depth_le := by
    show callers.length ≤ maxDepth
    omega
  listed := ⟨flow, hflow, hstep⟩
  ran := by
    -- Each caller has taken one of the levels.
    have hleft : maxDepth - callers.length = levels := by omega
    show FlowM.Runs (services.runStep (services.runFlow (maxDepth - callers.length)) _ _) _ _ _ _
    rw [hleft]
    exact (Services.traced_runStep (Services.traced_runFlow levels (position :: callers)
      (offset + 1)) step _ _ _ _ _).mpr ⟨acts, log, h, rfl⟩

/-- The steps of a flow are placed if those of the nested flows are. -/
theorem StepsTrace.placed {offset position : Nat} {state : Record} {last : Json}
    {steps : List Step} (hlevels : levels + callers.length = maxDepth)
    (hleads : Leads services root callers name)
    (hflow : services.flow name = .ok flow) (hsteps : flow.steps.drop position = steps)
    (hnested : ∀ (position : Nat) (step : Step), flow.steps[position]? = some step →
      step.kind = .flow → ∀ offset input c acts r c' log,
      FlowTrace services levels (position :: callers) offset step.service input c acts r c' log →
      ∀ x ∈ log, x.Placed services root)
    (h : StepsTrace services (FlowTrace services levels) callers name offset position state last
      steps c acts r c' log) : ∀ x ∈ log, x.Placed services root := by
  -- A step places itself, and what it starts in turn belongs to a nested flow.
  have hfirst : ∀ {offset position : Nat} {step : Step} {steps : List Step} {state : Record}
      {c c' : Context} {acts : List Act} {r : Except FlowError Json} {log : List Start},
      flow.steps.drop position = step :: steps →
      StepTrace services (FlowTrace services levels (position :: callers) (offset + 1)) step
        (step.resolveArgs state) c acts r c' log →
      ∀ x ∈ Start.mk callers position name step state offset c (acts.map Act.event) r c' :: log,
        x.Placed services root := by
    intro offset position step steps state c c' acts r log hdrop h x hx
    have hstep : flow.steps[position]? = some step := by
      rw [← List.head?_drop, hdrop]
      rfl
    rw [List.mem_cons] at hx
    rcases hx with rfl | hx
    · exact placed_of_stepTrace hlevels hleads hflow hstep h
    · cases h with
      | sql => exact absurd hx List.not_mem_nil
      | function => exact absurd hx List.not_mem_nil
      | flow hkind h => exact hnested position step hstep hkind _ _ _ _ _ _ _ h x hx
  have hothers : ∀ {position : Nat} {step : Step} {steps : List Step},
      flow.steps.drop position = step :: steps → flow.steps.drop (position + 1) = steps := by
    intro position step steps hdrop
    rw [← List.tail_drop, hdrop]
    rfl
  -- By induction on the trace, with the steps that are left at their positions.
  induction h with
  | done => exact fun x hx => nomatch hx
  | cancelled => exact fun x hx => nomatch hx
  | failed h => exact hfirst hsteps h
  | next h hrest ih =>
    intro x hx
    rw [← List.cons_append] at hx
    rcases List.mem_append.mp hx with hx | hx
    · exact hfirst hsteps h x hx
    · exact ih (hothers hsteps) x hx

theorem FlowTrace.placed {offset : Nat} {input : Json}
    (hlevels : levels + callers.length = maxDepth + 1) (hleads : Leads services root callers name)
    (h : FlowTrace services levels callers offset name input c acts r c' log) :
    ∀ x ∈ log, x.Placed services root := by
  -- By induction on the levels: a nested flow has one caller more.
  induction levels generalizing callers offset name input c acts r c' log with
  | zero =>
    obtain ⟨-, -, -, rfl⟩ := h
    exact fun x hx => nomatch hx
  | succ levels ih =>
    rcases h with ⟨e, -, -, -, -, rfl⟩ | ⟨flow, hflow, h⟩
    · exact fun x hx => nomatch hx
    · refine StepsTrace.placed (by omega) hleads hflow rfl ?_ h
      intro position step hstep hkind offset input c acts r c' log htrace
      exact ih (by rw [List.length_cons]; omega) (.step hleads hflow hstep hkind) htrace

end Placed

/-- What stands in the log of a run is placed. -/
theorem RunLog.placed {input : Json} {events : List Event} {result : ServiceResult}
    {log : List Start} (h : RunLog services root input events result log) :
    ∀ x ∈ log, x.Placed services root := by
  obtain ⟨acts, h, -⟩ := h
  cases h with
  | intro h hlast => exact h.placed rfl .root

/-! ## §2 Looks -/

/-- In the events the signal is looked at for the step and is not set, and the step runs at once. -/
def Start.At (x : Start) (events : List Event) : Prop :=
  ∃ front back, events = front ++ ⟨.isCancelled, false⟩ :: (x.events ++ back) ∧
    front.length = x.offset

theorem Start.At.append {x : Start} {events : List Event} (h : x.At events) (more : List Event) :
    x.At (events ++ more) := by
  obtain ⟨front, back, rfl, hoffset⟩ := h
  exact ⟨front, back ++ more, by simp, hoffset⟩

/-- Behind so many events, the looks that find the signal not set are those for the steps, in
order, and each step runs where its look is. -/
structure Located (offset : Nat) (events : List Event) (log : List Start) : Prop where
  looks : passes offset events = log.map Start.offset
  at_look : ∀ front : List Event, front.length = offset → ∀ x ∈ log, x.At (front ++ events)

namespace Located

variable {offset : Nat} {events rest : List Event} {log more : List Start}

theorem none (h : passes offset events = []) : Located offset events [] :=
  ⟨h, fun _ _ _ hx => nomatch hx⟩

theorem append (h : Located offset events log)
    (hrest : Located (offset + events.length) rest more) :
    Located offset (events ++ rest) (log ++ more) where
  looks := by rw [Program.passes_append, h.looks, hrest.looks, List.map_append]
  at_look front hfront x hx := by
    -- A start of the first part is located by that part, one of the rest behind all of its events.
    rcases List.mem_append.mp hx with hx | hx
    · rw [← List.append_assoc]
      exact (h.at_look front hfront x hx).append rest
    · rw [← List.append_assoc]
      exact hrest.at_look (front ++ events) (by rw [List.length_append, hfront]) x hx

/-- A step with its look, and what it starts in turn. -/
theorem start {x : Start} (h : Located (x.offset + 1) x.events log) :
    Located x.offset (⟨.isCancelled, false⟩ :: x.events) (x :: log) where
  looks := by rw [passes, h.looks, List.map_cons]
  at_look front hfront y hy := by
    rcases List.mem_cons.mp hy with rfl | hy
    · exact ⟨front, [], by rw [List.append_nil], hfront⟩
    · have hinner := h.at_look (front ++ [⟨.isCancelled, false⟩]) (by simp [hfront]) y hy
      rwa [List.append_assoc] at hinner

end Located

section Looks

variable {offset : Nat} {c c' : Context} {acts : List Act} {r : Except FlowError Json}
  {log : List Start}

theorem StepTrace.located {nested : String → Json → Trace} {step : Step} {args : Record}
    (hnested : ∀ name input c acts r c' log, nested name input c acts r c' log →
      Located offset (acts.map Act.event) log)
    (h : StepTrace services nested step args c acts r c' log) :
    Located offset (acts.map Act.event) log := by
  -- Neither statements nor functions look at the signal; what looks in a nested flow is located
  -- there.
  cases h with
  | sql _ h =>
    rw [Act.event_forItem]
    exact .none (Program.passes_eq_nil (sqlRun_of_runs h).unlooking _)
  | function _ h =>
    rw [Act.event_forItem]
    exact .none (Program.passes_eq_nil (Services.unlooking_of_runFunction h) _)
  | flow _ h => exact hnested _ _ _ _ _ _ _ h

theorem StepsTrace.located {nested : List Nat → Nat → String → Json → Trace} {callers : List Nat}
    {name : String} {position : Nat} {state : Record} {last : Json} {steps : List Step}
    (hnested : ∀ callers offset name input c acts r c' log,
      nested callers offset name input c acts r c' log → Located offset (acts.map Act.event) log)
    (h : StepsTrace services nested callers name offset position state last steps c acts r c' log) :
    Located offset (acts.map Act.event) log := by
  -- By induction on the trace: each step adds its look, and the other steps come behind its events.
  induction h with
  | done => exact .none rfl
  | cancelled => exact .none rfl
  | @failed offset position state _ step _ c c' acts e log h =>
    exact .start (x := ⟨callers, position, name, step, state, offset, c, _, .error e, c'⟩)
      (h.located (hnested _ _))
  | @next offset position state _ output step _ c c1 c' acts rest r log more h _ ih =>
    have hstep : Located offset _ (_ :: log) :=
      .start (x := ⟨callers, position, name, step, state, offset, c, _, .ok output, c1⟩)
        (h.located (hnested _ _))
    have hlength : offset + (⟨.isCancelled, false⟩ :: acts.map Act.event : List Event).length =
        offset + 1 + acts.length := by
      rw [List.length_cons, List.length_map]
      omega
    rw [List.map_cons, List.map_append]
    exact hstep.append (hlength ▸ ih)

theorem FlowTrace.located {levels : Nat} {callers : List Nat} {name : String} {input : Json}
    (h : FlowTrace services levels callers offset name input c acts r c' log) :
    Located offset (acts.map Act.event) log := by
  -- The flows that are nested have one level less.
  induction levels generalizing callers offset name input c acts r c' log with
  | zero =>
    obtain ⟨rfl, -, -, rfl⟩ := h
    exact .none rfl
  | succ levels ih =>
    rcases h with ⟨e, -, rfl, -, -, rfl⟩ | ⟨flow, -, h⟩
    · exact .none rfl
    · exact h.located fun callers offset name input c acts r c' log => ih

end Looks

/-- In a run the signal is looked at before each step and found not set, and found so nowhere
else. -/
theorem RunLog.located {input : Json} {events : List Event} {result : ServiceResult}
    {log : List Start} (h : RunLog services root input events result log) :
    Located 0 events log := by
  obtain ⟨acts, h, rfl⟩ := h
  cases h with
  | @intro acts last outcome c log h hlast =>
    rw [List.map_append, Act.event_forItem, ← List.append_nil log]
    refine h.located.append (.none (Program.passes_eq_nil (fun e he hlook => ?_) _))
    -- The end of a session is no look.
    obtain ⟨name, s, -, -, hending⟩ := Context.mem_of_runs_finalize hlast he
    have hfinishes := (Session.finishes_of_mem_endings hending).1
    rw [hlook] at hfinishes
    cases hfinishes

end SqlService
