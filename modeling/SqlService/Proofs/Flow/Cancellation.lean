import SqlService.Proofs.Flow.Log

/-!
# Cancelled runs

A flow looks at the cancel signal before each step, at every level of nesting, and nowhere else: the
looks that a run passes are the places where the steps of its log start.  So the first step that is
due when the signal is set is not started.  Its flow and all flows above it fail as cancelled, and
nothing follows but the end of every session, which rolls back each open transaction and closes each
open connection.

Main statement: `Services.cancelled_cleanly`.
-/

namespace SqlService

open Program (Event passes isSet)

/-! ## §1 Stopping at the signal -/

/-- Where the events find the signal set they end, and they end in a cancelled flow. -/
def Stops (events : List Event) (r : Except FlowError Json) : Prop :=
  ∀ before rest, events = before ++ ⟨.isCancelled, true⟩ :: rest →
    rest = [] ∧ r = .error .cancelled

namespace Stops

variable {events first rest : List Event} {r : Except FlowError Json}

theorem of_unlooking (h : Unlooking events) : Stops events r := by
  rintro before rest rfl
  exact absurd rfl (h ⟨.isCancelled, true⟩ (List.mem_append_right _ List.mem_cons_self))

theorem cut : Stops [⟨.isCancelled, true⟩] (.error .cancelled) := by
  intro before rest hsplit
  rcases List.cons_eq_append_iff.mp hsplit with ⟨-, hcons⟩ | ⟨middle, -, hnil⟩
  · exact ⟨(List.cons.inj hcons).2, rfl⟩
  · exact absurd hnil.symm (List.append_ne_nil_of_right_ne_nil _ (List.cons_ne_nil _ _))

/-- A look that finds the signal not set is passed. -/
theorem pass (h : Stops events r) : Stops (⟨.isCancelled, false⟩ :: events) r := by
  intro before rest hsplit
  rcases List.cons_eq_append_iff.mp hsplit with ⟨-, hcons⟩ | ⟨middle, -, hrest⟩
  · cases (List.cons.inj hcons).1
  · exact h _ _ hrest

/-- What comes to a good end has not found the signal set. -/
theorem append {v : Json} (h : Stops first (.ok v)) (hrest : Stops rest r) :
    Stops (first ++ rest) r := by
  intro before after hsplit
  rcases split_append hsplit with ⟨middle, hfirst⟩ | ⟨middle, rfl, hsecond⟩
  · cases (h _ _ hfirst).2
  · exact hrest _ _ hsecond

end Stops

section Traces

variable {services : Services} {c c' : Context} {acts : List Act} {r : Except FlowError Json}
  {log : List Start}

theorem StepTrace.stops {nested : String → Json → Trace} {step : Step} {args : Record}
    (hnested : ∀ name input c acts r c' log, nested name input c acts r c' log →
      Stops (acts.map Act.event) r)
    (h : StepTrace services nested step args c acts r c' log) : Stops (acts.map Act.event) r := by
  cases h with
  | sql _ h =>
    rw [Act.event_forItem]
    exact .of_unlooking (sqlRun_of_runs h).unlooking
  | function _ h =>
    rw [Act.event_forItem]
    exact .of_unlooking (Services.unlooking_of_runFunction h)
  | flow _ h => exact hnested _ _ _ _ _ _ _ h

theorem StepsTrace.stops {nested : List Nat → Nat → String → Json → Trace} {callers : List Nat}
    {name : String} {offset position : Nat} {state : Record} {last : Json} {steps : List Step}
    (hnested : ∀ callers offset name input c acts r c' log,
      nested callers offset name input c acts r c' log → Stops (acts.map Act.event) r)
    (h : StepsTrace services nested callers name offset position state last steps c acts r c' log) :
    Stops (acts.map Act.event) r := by
  induction h with
  | done => exact .of_unlooking fun e he => absurd he List.not_mem_nil
  | cancelled => exact .cut
  | failed h =>
    rw [List.map_cons]
    exact (h.stops (hnested _ _)).pass
  | next h _ ih =>
    -- A step that completes has not been cut inside, so it is the rest that may be.
    rw [List.map_cons, List.map_append]
    exact ((h.stops (hnested _ _)).append ih).pass

theorem FlowTrace.stops {levels : Nat} {callers : List Nat} {offset : Nat} {name : String}
    {input : Json} (h : FlowTrace services levels callers offset name input c acts r c' log) :
    Stops (acts.map Act.event) r := by
  -- A cut of a nested flow is one of the step that runs it, and so of every flow above.
  induction levels generalizing callers offset name input c acts r c' log with
  | zero =>
    obtain ⟨rfl, -, -, -⟩ := h
    exact .of_unlooking fun e he => absurd he List.not_mem_nil
  | succ levels ih =>
    rcases h with ⟨e, -, rfl, -⟩ | ⟨flow, -, h⟩
    · exact .of_unlooking fun e he => absurd he List.not_mem_nil
    · exact h.stops fun callers offset name input c acts r c' log => ih

end Traces

/-! ## §2 What ends a run that is cut -/

/-- The requests that roll back and close the connections that have been opened, in opening order;
only a transaction that has begun is rolled back. -/
def abandoning (events : List Event) : List Request :=
  (openings events).flatMap fun l =>
    if l ∈ beginnings events then [.rollback l, .close l] else [.close l]

/-- A session that is marked and has not ended is rolled back and closed. -/
theorem Session.endings_of_errored {s : Session} (hc : s.closed = false) (he : s.errored = true) :
    s.endings = if s.inTransaction then [.rollback s.link, .close s.link] else [.close s.link] := by
  simp [endings, commits, hc, he]

namespace Context

variable {c : Context} {events : List Event}

/-- A connection is among those with an open transaction if its session has one. -/
theorem WellFormed.mem_transacting_iff (hw : c.WellFormed) {name : String} {s : Session}
    (hs : c.session? name = some s) : s.link ∈ c.transacting ↔ s.inTransaction = true := by
  unfold transacting
  rw [hw.mem_pick_iff]
  rw [← hw.named hs] at hs
  constructor
  · rintro ⟨s', hs', ht, -⟩
    rw [hs] at hs'
    cases hs'
    exact ht
  · exact fun ht => ⟨s, hs, ht, rfl⟩

/-- Finalizing a context that started empty and is marked for rollback abandons what has been
opened on the way to it. -/
theorem requests_of_errored {c' : Context} {last : List Event} (h : Advances {} events c)
    (herrored : ∀ {name s}, c.session? name = some s → s.errored = true)
    (hlast : Program.Runs c.finalize last c') : last.map Event.request = abandoning events := by
  have hlinks : openings events = c.sessions.entries.map fun e => e.2.link := by
    have hview : c.links = openings events := h.links
    rw [← hview, links_eq_map]
  rw [(runs_finalize hlast).1, abandoning, hlinks, List.flatMap_map]
  refine List.flatMap_congr fun e he => ?_
  have hs : c.session? e.1 = some e.2 := Dictionary.get?_eq_some_iff.mpr he
  have hopen : e.2.closed = false := by
    refine Bool.eq_false_iff.mpr fun hc => ?_
    have hdead : e.2.link ∈ c.dead := mem_view_iff.mpr ⟨e.1, e.2, hs, by simp [hc]⟩
    rw [h.dead] at hdead
    cases hdead
  have hbegun : e.2.inTransaction = true ↔ e.2.link ∈ beginnings events := by
    rw [← h.wellFormed.mem_transacting_iff hs]
    exact h.transacting.mem_iff
  rw [Session.endings_of_errored hopen (herrored hs)]
  simp only [hbegun]

end Context

namespace Services

variable {services : Services} {flow : String} {input : Json}

/-- A run that finds the signal set makes no further request but those that abandon what it has
opened, and fails as cancelled. -/
theorem run_stops {before rest : List Event} {result : ServiceResult}
    (h : Program.Runs (services.run flow input) (before ++ ⟨.isCancelled, true⟩ :: rest) result) :
    rest.map Event.request = abandoning before ∧
      result = .ofOutcome (.error .cancelled) := by
  obtain ⟨first, last, outcome, c, hsplit, hexecute, hfinalize, rfl⟩ := runs_run_iff.mp h
  have ha := advances_of_execute Context.WellFormed.empty hexecute
  obtain ⟨c1, hflow, rfl⟩ := runs_markingFailure_iff.mp hexecute
  obtain ⟨acts, log, htrace, rfl⟩ := (traced_runFlow _ [] 0 _ _ _ _ _ _).mp hflow
  rcases split_append hsplit.symm with ⟨middle, hfirst⟩ | ⟨middle, rfl, rfl⟩
  · obtain ⟨rfl, rfl⟩ := htrace.stops _ _ hfirst
    rw [hfirst] at hsplit ha
    rw [List.append_assoc] at hsplit
    obtain rfl : rest = last := by simpa using hsplit
    have hlook : abandoning (before ++ [⟨.isCancelled, true⟩]) = abandoning before := by
      simp only [abandoning, openings_append, beginnings_append]
      simp [openings, beginnings, Event.opens?, Event.begins?]
    rw [← hlook]
    refine ⟨Context.requests_of_errored ha (fun hs => ?_) hfinalize, rfl⟩
    obtain ⟨s, -, rfl⟩ := Context.exists_of_session?_map hs
    rfl
  · -- Finalizing looks at nothing.
    obtain ⟨name, s, -, -, hq⟩ := Context.mem_of_runs_finalize hfinalize
      (List.mem_append_right middle List.mem_cons_self)
    cases (Session.finishes_of_mem_endings hq).1

/-- Whenever the cancel signal is set, a run is cut cleanly.  In the run without a signal each step
of the log, at whatever depth, starts at a look at the signal, and all looks are those of its steps.
As long as the signal is set at none of these places, the run with a signal is the same and ends in
the same result.  Otherwise the first step that is due when the signal is set is not started: the
run has gone through what it would have gone through without a signal up to the place of this step,
finds the signal set there, and then only rolls back the open transactions and closes the open
connections; its result is that of a cancelled flow.  In the run with a signal no step starts at a
place where the signal is set. -/
theorem cancelled_cleanly {World : Type} (respond : World → (q : Request) → q.Reply × World)
    (w : World) (moment : Nat) (services : Services) (flow : String) (input : Json) :
    let program := services.run flow input
    let plain := program.transcript (Program.quiet respond) w
    let plainResult := (program.run (Program.quiet respond) w).1
    let cut := program.transcript (Program.signalled respond) (w, moment)
    let result := (program.run (Program.signalled respond) (w, moment)).1
    (∃ log, RunLog services flow input plain plainResult log) ∧
    (∀ log, RunLog services flow input plain plainResult log →
      (∀ x ∈ log, x.At plain) ∧ passes 0 plain = log.map Start.offset ∧
      match log.find? fun x => isSet moment plain x.offset with
      | none => cut = plain ∧ result = plainResult
      | some x => ∃ rest,
        cut = plain.take x.offset ++ ⟨.isCancelled, true⟩ :: rest ∧
        rest.map Event.request = abandoning (plain.take x.offset) ∧
        result.success = false ∧ result.code = "cancelled" ∧ result.data = .null) ∧
    (∃ log, RunLog services flow input cut result log) ∧
    ∀ log, RunLog services flow input cut result log →
      ∀ y ∈ log, y.At cut ∧ isSet moment cut y.offset = false := by
  intro program plain plainResult cut result
  have hplain : program.Runs plain plainResult :=
    Program.runs_transcript (Program.quiet respond) program w
  have hcut : program.Runs cut result :=
    Program.runs_transcript (Program.signalled respond) program (w, moment)
  refine ⟨runs_iff_logs.mp hplain, fun log hlog => ⟨?_, hlog.located.looks, ?_⟩,
    runs_iff_logs.mp hcut, fun log hlog y hy => ?_⟩
  · exact hlog.located.at_look [] rfl
  · -- The first look that comes when the signal is set is the one for the first such step.
    have hfirst : Program.firstSet? moment plain =
        (log.find? fun x => isSet moment plain x.offset).map Start.offset := by
      rw [Program.firstSet?, hlog.located.looks, List.find?_map]
      rfl
    have hsignalled := Program.transcript_signalled respond program w moment
    rw [hfirst] at hsignalled
    cases hfind : log.find? fun x => isSet moment plain x.offset with
    | none =>
      rw [hfind] at hsignalled
      exact hsignalled
    | some x =>
      rw [hfind] at hsignalled
      obtain ⟨rest, hrest⟩ := hsignalled
      rw [show cut = _ from hrest] at hcut
      obtain ⟨hrequests, hresult⟩ := run_stops hcut
      refine ⟨rest, hrest, hrequests, ?_⟩
      rw [hresult]
      exact ⟨rfl, rfl, rfl⟩
  · have hat : y.At cut := hlog.located.at_look [] rfl y hy
    refine ⟨hat, ?_⟩
    -- The look for the step stands at its place and has found the signal not set.
    obtain ⟨front, back, hsplit, hoffset⟩ := hat
    apply Program.look_signalled respond program w moment
    rw [show program.transcript (Program.signalled respond) (w, moment) = _ from hsplit, ← hoffset]
    simp

end Services

namespace Cart

/-- The cart with a flow that empties it and then lets the other flow empty it once more. -/
def twice : Services :=
  { services with
    flows := Dictionary.ofList
      [("empty", { name := "empty",
                   steps := [{ name := "cleared", kind := .sql, service := "clear" }] }),
        ("leave", { name := "leave",
                    steps := [{ name := "cleared", kind := .sql, service := "clear" },
                      { name := "emptied", kind := .flow, service := "empty" }] })] }

/-- What happens when the cart is emptied once more. -/
def again : List Event :=
  [⟨.remembered "clear", some text⟩, ⟨.execute link text ∅, .ok (1 : UInt64)⟩]

/-- The context after that. -/
def contextTwice : Context :=
  context.set "main" { link, dialect := .mysql, inTransaction := true, executed := 2, pending := 2 }

theorem runs_again :
    FlowM.Runs (twice.runSql "clear" ∅) context again (.ok (.ofUInt64 1)) contextTwice := by
  refine FlowM.runs_ofData_bind_iff.mpr (.inl ⟨_, rfl, ?_⟩)
  refine FlowM.runs_attempt_bind_iff.mpr (.inl ⟨_, again.drop 1, text, rfl,
    Fragment.runs_expand_of_remembered _ _ _ _, ?_⟩)
  refine FlowM.runs_lift_bind_iff.mpr (.inl ⟨_, rfl, ?_⟩)
  exact .ask (.execute link text ∅) _ (.ok (1 : UInt64)) _ _ (.done _)

/-- What happens when the flow with the other one in it is run. -/
def leaving : List Event :=
  events ++ ⟨.isCancelled, false⟩ :: ⟨.isCancelled, false⟩ :: again ++ endings (.ok ()) (.ok ())

theorem runs_leave :
    Program.Runs (twice.run "leave" .null) leaving (.ofOutcome (.ok (.ofUInt64 1))) := by
  have hempty : FlowTrace twice maxDepth [1] 6 "empty" (.object []) context _
      (.ok (.ofUInt64 1)) contextTwice _ :=
    .inr ⟨_, rfl, .next (.sql rfl runs_again) (.done _ _ _ _ _)⟩
  have hleave : FlowTrace twice (maxDepth + 1) [] 0 "leave" .null {} _ (.ok (.ofUInt64 1))
      contextTwice _ :=
    .inr ⟨_, rfl, .next (.sql rfl runs_clear) (.next (.flow rfl hempty) (.done _ _ _ _ _))⟩
  have hlast : contextTwice.finalize.Runs (endings (.ok ()) (.ok ())) contextTwice.ended :=
    .ask (.commit link) _ (.ok ()) _ _ (.ask (.close link) _ (.ok ()) _ _ (.done _))
  exact Services.runs_iff_traces.mpr ⟨_, _, .intro hleave hlast, rfl⟩

/-- The text of the item is remembered, and everything succeeds. -/
def recalling : (q : Request) → q.Reply
  | .remembered _ => some text
  | q => replies q

end Cart

/-- The signal is set when the step of the inner flow is due: what the outer flow has written before
is rolled back, the connection is closed, and the run fails as cancelled. -/
theorem cart_cut :
    let respond := Program.signalled (Program.answering Cart.recalling)
    let program := Cart.twice.run "leave" .null
    (program.transcript respond ((), 6)).map Event.request =
        Cart.events.map Event.request ++
          [.isCancelled, .isCancelled, .rollback Cart.link, .close Cart.link] ∧
      (program.run respond ((), 6)).1.success = false ∧
      (program.run respond ((), 6)).1.code = "cancelled" := by
  intro respond program
  have hreplied : Program.Replied (Program.quiet (Program.answering Cart.recalling)) ()
      Cart.leaving () :=
    ⟨rfl, rfl, rfl, rfl, rfl, rfl, rfl, rfl, rfl, rfl, rfl, rfl⟩
  obtain ⟨⟨log, hlog⟩, hcut, -⟩ := Services.cancelled_cleanly (Program.answering Cart.recalling) ()
    6 Cart.twice "leave" .null
  obtain ⟨-, hlooks, hfirst⟩ := hcut log hlog
  rw [(Cart.runs_leave.of_replied hreplied).2] at hlooks hfirst
  -- The inner step is due when the signal has just been set.
  have hplace : (log.find? fun x => isSet 6 Cart.leaving x.offset).map Start.offset = some 6 := by
    have hfind : (log.map Start.offset).find? (isSet 6 Cart.leaving) = some 6 := by
      rw [← hlooks]
      rfl
    rwa [List.find?_map] at hfind
  obtain ⟨x, hx, hoffset⟩ := Option.map_eq_some_iff.mp hplace
  rw [hx] at hfirst
  obtain ⟨rest, htranscript, hrequests, hsuccess, hcode, -⟩ := hfirst
  rw [hoffset] at htranscript hrequests
  refine ⟨?_, hsuccess, hcode⟩
  rw [show program.transcript respond ((), 6) = _ from htranscript, List.map_append, List.map_cons,
    hrequests]
  rfl

end SqlService
