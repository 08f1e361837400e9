import Mathlib.Logic.Relation
import SqlService.Connection.Scripted
import SqlService.Proofs.Flow.Bounds
import SqlService.Proofs.Flow.Log

/-!
# Nested flows

Flows run flows, in whatever way they refer to each other.  A run comes to its end all the same,
since a flow too deep below the root is refused.  The refusal fails every flow above it, so a run
that succeeds has gone through everything that nests below its root: the nesting fits into the
levels that there are, and there is no loop in it.

Main statement: `Services.nesting_bounded`.
-/

namespace SqlService

open Program (Event)

/-! ## §1 Chains of flows -/

/-- A step of the one flow runs the other. -/
def Nests (services : Services) (name other : String) : Prop :=
  ∃ flow, services.flow name = .ok flow ∧
    ∃ step ∈ flow.steps, step.kind = .flow ∧ step.service = other

/-- The flow and all that nest in it are defined and fit into so many levels. -/
def Fits (services : Services) : Nat → String → Prop
  | 0, _ => False
  | levels + 1, name =>
    ∃ flow, services.flow name = .ok flow ∧
      ∀ step ∈ flow.steps, step.kind = .flow → Fits services levels step.service

namespace Fits

variable {services : Services} {levels : Nat} {name other : String}

theorem defined (h : Fits services levels name) : ∃ flow, services.flow name = .ok flow := by
  cases levels with
  | zero => exact h.elim
  | succ levels =>
    obtain ⟨flow, hflow, -⟩ := h
    exact ⟨flow, hflow⟩

/-- What nests in a flow that fits has a level less to fit into. -/
theorem nested (h : Fits services levels name) (hnests : Nests services name other) :
    ∃ fewer < levels, Fits services fewer other := by
  cases levels with
  | zero => exact h.elim
  | succ levels =>
    obtain ⟨flow, hflow, hsteps⟩ := h
    -- The name has one flow, so the step that nests is one of those that fit.
    obtain ⟨flow', hflow', step, hstep, hkind, rfl⟩ := hnests
    rw [hflow] at hflow'
    cases hflow'
    exact ⟨levels, Nat.lt_succ_self levels, hsteps step hstep hkind⟩

/-- A chain of nested flows takes a level for each of them. -/
theorem chain {names : List String} (h : Fits services levels name)
    (hchain : (name :: names).IsChain (Nests services)) :
    names.length < levels ∧ ∀ n ∈ name :: names, ∃ flow, services.flow n = .ok flow := by
  -- By induction on the chain, of which each link leaves fewer levels.
  induction names generalizing levels name with
  | nil =>
    refine ⟨?_, by simpa using h.defined⟩
    cases levels with
    | zero => exact h.elim
    | succ levels => exact Nat.succ_pos levels
  | cons other names ih =>
    obtain ⟨hnests, hrest⟩ := List.isChain_cons_cons.mp hchain
    obtain ⟨fewer, hfewer, hother⟩ := h.nested hnests
    obtain ⟨hlength, hdefined⟩ := ih hother hrest
    refine ⟨?_, List.forall_mem_cons.mpr ⟨h.defined, hdefined⟩⟩
    rw [List.length_cons]
    omega

theorem reached (h : Fits services levels name)
    (hreach : Relation.ReflTransGen (Nests services) name other) :
    ∃ fewer ≤ levels, Fits services fewer other := by
  induction hreach with
  | refl => exact ⟨levels, Nat.le_refl levels, h⟩
  | tail _ hnests ih =>
    obtain ⟨fewer, hfewer, hmiddle⟩ := ih
    obtain ⟨last, hlast, hother⟩ := hmiddle.nested hnests
    exact ⟨last, by omega, hother⟩

/-- A flow that fits does not come back to itself, as each round would take a level. -/
theorem acyclic (h : Fits services levels name) :
    ¬ Relation.TransGen (Nests services) name name := by
  intro hloop
  -- A loop leads to the same name with fewer levels, which goes on only so long.
  induction levels using Nat.strong_induction_on with
  | _ levels ih =>
    obtain ⟨next, hnests, hback⟩ := Relation.TransGen.head'_iff.mp hloop
    obtain ⟨fewer, hfewer, hnext⟩ := h.nested hnests
    obtain ⟨last, hlast, hname⟩ := hnext.reached hback
    exact ih last (by omega) hname

end Fits

/-! ## §2 What a success says -/

variable {services : Services}

/-- If the steps all end well, so does each of the nested flows. -/
theorem StepsTrace.nested_ok {nested : List Nat → Nat → String → Json → Trace}
    {callers : List Nat} {name : String} {offset position : Nat} {state : Record} {last v : Json}
    {steps : List Step} {c c' : Context} {acts : List Act} {log : List Start}
    (h : StepsTrace services nested callers name offset position state last steps c acts (.ok v) c'
      log) :
    ∀ step ∈ steps, step.kind = .flow → ∃ callers offset input c acts v c' log,
      nested callers offset step.service input c acts (.ok v) c' log := by
  generalize hr : Except.ok v = r at h
  -- By induction on the trace; only the first two of its shapes end without a failure.
  induction h with
  | done => exact fun step hstep => nomatch hstep
  | cancelled => cases hr
  | failed => cases hr
  | next h hrest ih =>
    intro step hstep hkind
    rcases List.mem_cons.mp hstep with rfl | hstep
    · cases h with
      | sql hsql => exact absurd (hkind.symm.trans hsql) (by decide)
      | function hfunction => exact absurd (hkind.symm.trans hfunction) (by decide)
      | flow _ h => exact ⟨_, _, _, _, _, _, _, _, h⟩
    · exact ih hr step hstep hkind

/-- A flow that succeeds with some levels left fits into them. -/
theorem FlowTrace.fits {levels offset : Nat} {callers : List Nat} {name : String}
    {input v : Json} {c c' : Context} {acts : List Act} {log : List Start}
    (h : FlowTrace services levels callers offset name input c acts (.ok v) c' log) :
    Fits services levels name := by
  -- By induction on the levels, as each nested flow has one less.
  induction levels generalizing callers offset name input c acts v c' log with
  | zero => exact nomatch h.2.1
  | succ levels ih =>
    rcases h with ⟨e, -, -, hr, -⟩ | ⟨flow, hflow, h⟩
    · cases hr
    · refine ⟨flow, hflow, fun step hstep hkind => ?_⟩
      obtain ⟨_, _, _, _, _, _, _, _, hnested⟩ := h.nested_ok step hstep hkind
      exact ih hnested

theorem RunLog.fits {root : String} {input : Json} {events : List Event} {result : ServiceResult}
    {log : List Start} (h : RunLog services root input events result log)
    (hsuccess : result.success = true) : Fits services (maxDepth + 1) root := by
  obtain ⟨acts, h, -⟩ := h
  cases h with
  | @intro _ _ outcome _ _ h hlast =>
    cases outcome with
    | ok v => exact h.fits
    | error e => cases hsuccess

/-! ## §3 Runs -/

/-- For given services there is a number of requests that no run goes beyond, and every way to
answer requests leads a run to its end.  No step is started more than sixteen levels below the root.
If the run succeeds, every chain of nested flows from the root has at most that many levels below it
and only defined flows.  So a root from which some flow comes back to itself always fails, and
nothing is committed. -/
theorem Services.nesting_bounded (services : Services) :
    (∃ bound, ∀ root input, (services.run root input).AtMost bound) ∧
    (∀ (World : Type) (respond : World → (q : Request) → q.Reply × World) (w : World) root input,
      Program.Runs (services.run root input) ((services.run root input).transcript respond w)
        ((services.run root input).run respond w).1) ∧
    ∀ root input events result, Program.Runs (services.run root input) events result →
      (∃ log, RunLog services root input events result log) ∧
      (∀ log, RunLog services root input events result log →
        ∀ x ∈ log, Leads services root x.callers x.flow ∧ x.callers.length ≤ 16) ∧
      (result.success = true → ∀ names, (root :: names).IsChain (Nests services) →
        names.length ≤ 16 ∧ ∀ n ∈ root :: names, ∃ flow, services.flow n = .ok flow) ∧
      ∀ name, Relation.ReflTransGen (Nests services) root name →
        Relation.TransGen (Nests services) name name →
        result.success = false ∧ committed events = [] := by
  refine ⟨⟨services.runBound, services.atMost_run⟩,
    fun World respond w root input => Program.runs_transcript respond _ w, ?_⟩
  intro root input events result h
  obtain ⟨log, hlog⟩ := runs_iff_logs.mp h
  refine ⟨⟨log, hlog⟩, fun log hlog x hx => ?_, fun hsuccess names hchain => ?_,
    fun name hreach hloop => ?_⟩
  · exact ⟨(hlog.placed x hx).leads, (hlog.placed x hx).depth_le⟩
  · obtain ⟨hlength, hdefined⟩ := (hlog.fits hsuccess).chain hchain
    exact ⟨Nat.le_of_lt_succ hlength, hdefined⟩
  -- A success would fit a loop into the levels that there are.
  · have hfailed : result.success = false := by
      refine Bool.eq_false_iff.mpr fun hsuccess => ?_
      obtain ⟨fewer, -, hname⟩ := (hlog.fits hsuccess).reached hreach
      exact hname.acyclic hloop
    have hcommitted := (all_settled h).1
    rw [hfailed] at hcommitted
    exact ⟨hfailed, List.perm_nil.mp hcommitted⟩

/-- The cart with a flow that empties it and then runs itself. -/
def Cart.restless : Services :=
  { Cart.services with
    flows := Dictionary.ofList
      [("empty", { name := "empty",
                   steps := [{ name := "cleared", kind := .sql, service := "clear" },
                     { name := "again", kind := .flow, service := "empty" }] })] }

/-- Emptying the cart once nests nothing, and emptying it over and over commits nothing. -/
theorem cart_nesting :
    (∀ names, ("empty" :: names).IsChain (Nests Cart.services) → names.length ≤ 16) ∧
      ((Cart.restless.run "empty" .null).run Scripted.respond {}).1.success = false ∧
      committed ((Cart.restless.run "empty" .null).transcript Scripted.respond {}) = [] := by
  constructor
  · have hrun : Program.Runs (Cart.services.run "empty" .null)
        (Cart.events ++ Cart.endings (.ok ()) (.ok ())) (.ofOutcome (.ok (.ofUInt64 1))) :=
      Services.runs_run_iff.mpr ⟨_, _, _, _, rfl, Cart.runs_execute, Cart.runs_finalize _ _, rfl⟩
    obtain ⟨-, -, hchains, -⟩ := (Services.nesting_bounded Cart.services).2.2 _ _ _ _ hrun
    exact fun names hchain => (hchains rfl names hchain).1
  -- The last step of the flow runs the flow itself.
  · have hnests : Nests Cart.restless "empty" "empty" :=
      ⟨_, rfl, _, List.mem_cons_of_mem _ List.mem_cons_self, rfl, rfl⟩
    have hrun := Program.runs_transcript Scripted.respond (Cart.restless.run "empty" .null) {}
    obtain ⟨-, -, -, hloops⟩ := (Services.nesting_bounded Cart.restless).2.2 _ _ _ _ hrun
    exact hloops "empty" .refl (.single hnests)

end SqlService
