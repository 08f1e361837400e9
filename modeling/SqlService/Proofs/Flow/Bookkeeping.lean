import SqlService.Proofs.Flow.Sending
import SqlService.Proofs.Flow.Transactions

/-!
# The bookkeeping of sessions

A session counts its statements after all of them have succeeded, and its writing ones as pending,
while its transaction is entered before the first of them.  Between these moments the counts lag
behind what was sent, but every way out of them is a failure, which marks the session.  So whenever
no execution is going on, a session is marked or its counts are exact (`Tallied`).

Main statement: `counts_exact`.
-/

namespace SqlService

open Program (Event)

/-! ## §1 Statements sent -/

/-- The number of statements that were sent on a connection. -/
def sent (acts : List Act) (link : Link) : Nat :=
  (acts.filterMap fun a => a.request.statement?).count link

/-- The number of those of them that were sent for items that do not only read. -/
def written (acts : List Act) (link : Link) : Nat := (acts.filterMap Act.writes?).count link

/-- Statements of two accounts add up. -/
theorem sent_append (first rest : List Act) (link : Link) :
    sent (first ++ rest) link = sent first link + sent rest link := by
  rw [sent, List.filterMap_append, List.count_append]
  rfl

/-- So do the writing ones. -/
theorem written_append (first rest : List Act) (link : Link) :
    written (first ++ rest) link = written first link + written rest link := by
  rw [written, List.filterMap_append, List.count_append]
  rfl

theorem sent_eq_zero {acts : List Act} {link : Link}
    (h : ∀ a ∈ acts, a.request.statement? ≠ some link) : sent acts link = 0 := by
  rw [sent, List.count_eq_zero, List.mem_filterMap]
  rintro ⟨a, ha, hlink⟩
  exact h a ha hlink

theorem written_eq_zero {acts : List Act} {link : Link}
    (h : ∀ a ∈ acts, a.request.statement? ≠ some link) : written acts link = 0 := by
  rw [written, List.count_eq_zero, List.mem_filterMap]
  rintro ⟨a, ha, hlink⟩
  exact h a ha (Act.writes?_eq_some_iff.mp hlink).2

/-- Events that all run a statement on one connection. -/
theorem sent_forItem {item : Option Item} {events : List Event} {link : Link}
    (h : ∀ e ∈ events, e.request.statement? = some link) :
    sent (Act.forItem item events) link = events.length := by
  have hall : (Act.forItem item events).filterMap (fun a => a.request.statement?) =
      List.replicate events.length link := by
    rw [Act.forItem, List.filterMap_map, ← List.map_const']
    exact List.filterMap_eq_map_iff_forall_eq_some.mpr h
  rw [sent, hall, List.count_replicate_self]

/-- Of the statements for an item all are writing ones or none is, as the item says. -/
theorem written_forItem {item : Item} {events : List Event} {link : Link}
    (h : ∀ e ∈ events, e.request.statement? = some link) :
    written (Act.forItem (some item) events) link =
      if item.readOnly then 0 else events.length := by
  cases hread : item.readOnly with
  | true =>
    -- No act for an item that only reads writes.
    have hnone : (Act.forItem (some item) events).filterMap Act.writes? = [] := by
      rw [List.filterMap_eq_nil_iff]
      intro a ha
      rw [Act.writes?, Act.forWriting, (Act.mem_forItem.mp ha).2]
      simp [hread]
    rw [written, hnone]
    rfl
  -- For any other item writing and sending are the same.
  | false =>
    have hsame : (Act.forItem (some item) events).filterMap Act.writes? =
        (Act.forItem (some item) events).filterMap fun a => a.request.statement? := by
      refine List.filterMap_congr fun a ha => ?_
      rw [Act.writes?, Act.forWriting, (Act.mem_forItem.mp ha).2]
      simp [hread]
    rw [written, hsame]
    exact sent_forItem h

/-- What works on other connections sends nothing on this one. -/
theorem sent_of_unused {acts : List Act} {link : Link}
    (h : ∀ a ∈ acts, a.request.uses? ≠ some link) :
    sent acts link = 0 ∧ written acts link = 0 := by
  have hnone : ∀ a ∈ acts, a.request.statement? ≠ some link := fun a ha hstatement =>
    h a ha (Request.uses?_of_statement? hstatement)
  exact ⟨sent_eq_zero hnone, written_eq_zero hnone⟩

/-! ## §2 Counts -/

namespace Session

/-- Nothing is counted that was not sent. -/
structure Bounded (s : Session) (acts : List Act) : Prop where
  pending : s.pending ≤ s.executed
  executed : s.executed ≤ sent acts s.link

/-- All that was sent is counted, and the session is in a transaction for what was written. -/
structure Exact (s : Session) (acts : List Act) : Prop where
  executed : s.executed = sent acts s.link
  pending : s.pending = written acts s.link
  inTransaction : s.inTransaction = true ↔ 0 < s.pending
  errored : s.errored = false

variable {s s' : Session} {before acts : List Act}

/-- What is sent later does not make too much of what is counted. -/
theorem Bounded.more (h : s.Bounded before) (acts : List Act) : s.Bounded (before ++ acts) where
  pending := h.pending
  executed := by
    rw [sent_append]
    exact Nat.le_add_right_of_le h.executed

/-- A connection that nothing is sent on keeps exact counts. -/
theorem Exact.idle (h : s.Exact before) (hidle : ∀ a ∈ acts, a.request.uses? ≠ some s.link) :
    s.Exact (before ++ acts) where
  executed := by rw [sent_append, (sent_of_unused hidle).1, h.executed, Nat.add_zero]
  pending := by rw [written_append, (sent_of_unused hidle).2, h.pending, Nat.add_zero]
  inTransaction := h.inTransaction
  errored := h.errored

end Session

/-- Entering a transaction counts nothing and marks nothing. -/
theorem Entry.counts {readOnly : Bool} {s s' : Session} {events : List Event}
    {r : Except FlowError Unit} (h : Entry readOnly s events r s') :
    s'.executed = s.executed ∧ s'.pending = s.pending ∧ s'.errored = s.errored := by
  cases h <;> exact ⟨rfl, rfl, rfl⟩

namespace Session

variable {s s' : Session} {before acts : List Act} {readOnly : Bool} {events : List Event}

/-- Entering a transaction counts nothing, so it keeps the bound. -/
theorem Bounded.entry {r : Except FlowError Unit} (h : s.Bounded before)
    (he : Entry readOnly s events r s') : s'.Bounded before := by
  obtain ⟨hexecuted, hpending, -⟩ := he.counts
  constructor
  · rw [hexecuted, hpending]
    exact h.pending
  · rw [hexecuted, he.frame.1]
    exact h.executed

/-- Statements are counted when all of them have been sent. -/
theorem Bounded.record {count : Nat} (h : s.Bounded before) (hsent : sent acts s.link = count) :
    (s.record readOnly count).Bounded (before ++ acts) where
  pending := by
    have hpending := h.pending
    cases readOnly <;> simp [Session.record] <;> omega
  executed := by
    show s.executed + count ≤ sent (before ++ acts) s.link
    rw [sent_append, hsent]
    exact Nat.add_le_add_right h.executed count

/-- A step that counts its statements has entered a transaction unless it reads. -/
theorem Exact.record {count : Nat} (h : s.Exact before) (he : Entry readOnly s events (.ok ()) s')
    (hcount : 0 < count) (hsent : sent acts s.link = count)
    (hwritten : written acts s.link = if readOnly then 0 else count) :
    (s'.record readOnly count).Exact (before ++ acts) where
  executed := by
    show s'.executed + count = sent (before ++ acts) s'.link
    rw [he.counts.1, he.frame.1, sent_append, hsent, h.executed]
  pending := by
    show (if readOnly then s'.pending else s'.pending + count) = written (before ++ acts) s'.link
    rw [he.counts.2.1, he.frame.1, written_append, hwritten, h.pending]
    cases readOnly <;> rfl
  inTransaction := by
    show s'.inTransaction = true ↔ 0 < if readOnly then s'.pending else s'.pending + count
    have hpending : 0 < s.pending + count := Nat.add_pos_right s.pending hcount
    -- A step that reads changes neither the transaction nor what is pending; any other one is in a
    -- transaction now, and counts at least one statement.
    cases he with
    | reading hread =>
      rw [if_pos hread]
      exact h.inTransaction
    | inside hwrite ht => simp [hwrite, ht, hpending]
    | begun hwrite => simp [hwrite, hpending]
  errored := by
    show s'.errored = false
    rw [he.counts.2.2, h.errored]

end Session

/-- The acts from the beginning have led to the context, and none of its sessions counts more than
was sent. -/
structure Context.Bounded (c : Context) (acts : List Act) : Prop where
  covers : Covers {} acts c
  bounded : ∀ {name s}, c.session? name = some s → s.Bounded acts

/-- Besides, every session is marked or its counts are exact. -/
structure Context.Tallied (c : Context) (acts : List Act) : Prop extends c.Bounded acts where
  exact : ∀ {name s}, c.session? name = some s → s.errored = true ∨ s.Exact acts

namespace Context

variable {c c1 : Context} {before acts : List Act}

/-- A connection without a session has not been used. -/
theorem Bounded.unused (h : c.Bounded before) {link : Link} (hlink : link ∉ c.links) :
    ∀ a ∈ before, a.request.uses? ≠ some link := by
  intro a ha huse
  obtain ⟨front, back, rfl⟩ := List.append_of_mem ha
  have hsplit : (front ++ a :: back).map Act.event =
      front.map Act.event ++ a.event :: back.map Act.event := by simp
  have hadvances := h.covers.advances
  -- What is used was opened before, and what was opened has a session.
  have hopen : link ∈ openings (front.map Act.event) := hadvances.uses hsplit huse
  apply hlink
  rw [hadvances.links, hsplit, openings_append]
  exact List.mem_append_right _ (List.mem_append_left _ hopen)

/-- At the beginning there is no session to count anything. -/
theorem Tallied.empty : Tallied {} [] where
  covers := .refl .empty
  bounded h := by cases h
  exact h := by cases h

/-- Marking every session makes the counts good. -/
theorem Bounded.markErrored (h : c.Bounded acts) : c.markErrored.Tallied acts where
  covers := h.covers.marked
  bounded hs := by
    obtain ⟨s0, hs0, rfl⟩ := exists_of_session?_map hs
    exact ⟨(h.bounded hs0).pending, (h.bounded hs0).executed⟩
  exact hs := by
    obtain ⟨s0, -, rfl⟩ := exists_of_session?_map hs
    exact .inl rfl

end Context

/-! ## §3 What an SQL step counts -/

section

variable {services : Services} {service : String} {args : Record} {c c1 c' : Context}
  {before : List Act} {first second third last : List Event}

/-- Asking for a session keeps the counts of all that are there, and a new one counts nothing. -/
theorem Opening.tallied {name : String} {r : Except FlowError Session} (h : c.Tallied before)
    (ho : Opening services name c second r c1) {other : String} {s : Session}
    (hs : c1.session? other = some s) :
    s.Bounded before ∧ (s.errored = true ∨ s.Exact before) := by
  cases ho with
  | present | unknown | refused => exact ⟨h.bounded hs, h.exact hs⟩
  | opened settings database p hnone =>
    rw [Context.session?_set] at hs
    split at hs
    · obtain rfl := Option.some.inj hs
      -- The connection is new: a session under its name would have been found.
      have hnew : (⟨name, database⟩ : Link) ∉ c.links := by
        intro hlink
        obtain ⟨name', s', hs', hf⟩ := Context.mem_view_iff.mp hlink
        have hname := h.covers.advances.wellFormed.named hs'
        rw [Option.some.inj hf] at hname
        rw [← hname, hnone] at hs'
        cases hs'
      -- So nothing was sent on it, and the empty counts are right.
      obtain ⟨hsent, hwritten⟩ := sent_of_unused (h.unused hnew)
      exact ⟨⟨le_rfl, Nat.zero_le _⟩, .inr ⟨hsent.symm, hwritten.symm, by simp, rfl⟩⟩
    · exact ⟨h.bounded hs, h.exact hs⟩

/-- Entering a transaction keeps the counts of every session. -/
theorem Entry.bounded {readOnly : Bool} {name other : String} {s s' s0 : Session}
    {r : Except FlowError Unit} (he : Entry readOnly s third r s')
    (h : ∀ {n x}, c1.session? n = some x → x.Bounded before) (hs : c1.session? name = some s)
    (hs0 : (c1.set name s').session? other = some s0) : s0.Bounded before := by
  rw [Context.session?_set] at hs0
  split at hs0
  · obtain rfl := Option.some.inj hs0
    exact (h hs).entry he
  · exact h hs0

/-- An SQL step that is answered has sent as many statements as it counts. -/
theorem Prepared.sent {item : Item} {sql : String} {parsed : SqlArgs} {s s' : Session}
    {answer : Json} {count : Nat}
    (hp : Prepared services service args first item sql parsed)
    (ho : Opening services item.connection c second (.ok s) c1)
    (he : Entry item.readOnly s third (.ok ()) s')
    (hs : (Services.runQuery item.kind (Services.stepQuery s.dialect sql parsed)
      s.link).run.Runs last (.ok (answer, count))) :
    sent (Act.forItem (some item) (first ++ (second ++ (third ++ last)))) s.link = count ∧
      written (Act.forItem (some item) (first ++ (second ++ (third ++ last)))) s.link =
        if item.readOnly then 0 else count := by
  -- Before the statements nothing is sent, and all of these go to the connection of the session.
  have hunsent : Unsent (first ++ (second ++ third)) :=
    hp.unsent.append (ho.unsent.append he.unsent)
  have hnone : ∀ a ∈ Act.forItem (some item) (first ++ (second ++ third)),
      a.request.statement? ≠ some s.link := by
    intro a ha hstatement
    have hquiet := hunsent a.event (Act.mem_forItem.mp ha).1
    rw [← Act.request, hstatement] at hquiet
    cases hquiet
  obtain ⟨hall, hcount⟩ := Services.runQuery_statements item.kind
    (Services.stepQuery s.dialect sql parsed) s.link
  have hassoc : first ++ (second ++ (third ++ last)) = (first ++ (second ++ third)) ++ last := by
    simp only [List.append_assoc]
  rw [hassoc, Act.forItem_append, sent_append, written_append, sent_eq_zero hnone,
    written_eq_zero hnone, sent_forItem (hall last _ hs), written_forItem (hall last _ hs),
    (hcount last _ hs).1, Nat.zero_add, Nat.zero_add]
  exact ⟨rfl, rfl⟩

end

/-- Whatever becomes of an SQL step, nothing is counted that was not sent; and if it is answered,
the counts of every session that is not marked are exact again. -/
theorem SqlRun.tallied {services : Services} {service : String} {args : Record} {c c' : Context}
    {before : List Act} {events : List Event} {r : Except FlowError Json} (h : c.Tallied before)
    (hrun : SqlRun services service args c events r c') :
    c'.Bounded (before ++ Act.forItem (services.items.get? service) events) ∧
      (r.toBool = true →
        c'.Tallied (before ++ Act.forItem (services.items.get? service) events)) := by
  have hcovers := hrun.covers h.covers.advances.wellFormed
  have hall := h.covers.append hcovers
  cases hrun with
  -- In all cases but the last the step has failed, and only the bound is to be shown.
  | unprepared _ e => exact ⟨⟨hall, fun hs => (h.bounded hs).more _⟩, fun hok => by cases hok⟩
  | unopened hp ho =>
    exact ⟨⟨hall, fun hs => (ho.tallied h hs).1.more _⟩, fun hok => by cases hok⟩
  | unentered hp ho he | ended hp ho he | failed hp ho he =>
    exact ⟨⟨hall, fun hs => (he.bounded (fun hx => (ho.tallied h hx).1) ho.session? hs).more _⟩,
      fun hok => by cases hok⟩
  | @answered first second third last item sql parsed answer count c1 s s' hp ho he hc hs =>
    rw [hp.get?_eq] at hcovers hall ⊢
    obtain ⟨hsent, hwritten⟩ := hp.sent ho he hs
    have hcount := ((Services.runQuery_statements _ _ _).2 last (answer, count) hs).2
    have hold := ho.tallied h ho.session?
    have htallied : (c1.set item.connection (s'.record item.readOnly count)).Tallied
        (before ++ Act.forItem (some item) (first ++ (second ++ (third ++ last)))) := by
      -- The session of the step and the other sessions are apart by their names.
      refine ⟨⟨hall, fun {name s0} hs0 => ?_⟩, fun {name s0} hs0 => ?_⟩
      · rw [Context.session?_set] at hs0
        split at hs0
        · obtain rfl := Option.some.inj hs0
          exact (hold.1.entry he).record (he.frame.1.symm ▸ hsent)
        · exact (ho.tallied h hs0).1.more _
      · have hnamed := hall.advances.wellFormed.named hs0
        rw [Context.session?_set] at hs0
        split at hs0
        · obtain rfl := Option.some.inj hs0
          rcases hold.2 with herrored | hexact
          · exact .inl (he.counts.2.2.trans herrored)
          · exact .inr (hexact.record he hcount hsent hwritten)
        · next hother =>
          refine (ho.tallied h hs0).2.imp_right fun hexact => hexact.idle fun a ha huse => hother ?_
          -- All acts of the step are for its item, whose connection is another one.
          obtain ⟨item', hitem, hname⟩ := hcovers.used ha huse
          obtain rfl := Option.some.inj ((Act.mem_forItem.mp ha).2.symm.trans hitem)
          exact hnamed.symm.trans hname.symm
    exact ⟨htallied.toBounded, fun _ => htallied⟩

/-! ## §4 Flows -/

/-- Acts that leave the context alone and use no connection. -/
theorem Context.Tallied.idle {c : Context} {before acts : List Act} (h : c.Tallied before)
    (hcovers : Covers c acts c) (hidle : ∀ a ∈ acts, a.request.uses? = none) :
    c.Tallied (before ++ acts) where
  covers := h.covers.append hcovers
  bounded hs := (h.bounded hs).more acts
  exact hs := (h.exact hs).imp_right fun hexact => hexact.idle fun a ha huse => by
    rw [hidle a ha] at huse
    cases huse

/-- From counts that are exact, a trace leads to counts of nothing that was not sent, and to exact
ones if it does not fail. -/
def Trace.Tallies (trace : Trace) : Prop :=
  ∀ before c acts r c' log, c.Tallied before → trace c acts r c' log →
    c'.Bounded (before ++ acts) ∧ (r.toBool = true → c'.Tallied (before ++ acts))

/-- A step keeps the counts, if what a nested flow does keeps them. -/
theorem StepTrace.tallies {services : Services} {nested : String → Json → Trace}
    (hnested : ∀ name input, (nested name input).Tallies) (step : Step) (args : Record) :
    Trace.Tallies (StepTrace services nested step args) := by
  intro before c acts r c' log htallied h
  cases h with
  | sql _ h => exact (sqlRun_of_runs h).tallied htallied
  -- A function uses no connection at all.
  | function _ h =>
    obtain ⟨rfl, hevents⟩ := Services.aside_of_runFunction h
    have hcovers : Covers c' (Act.forItem none _) c' :=
      .aside htallied.covers.advances.wellFormed hevents
    have hsame := htallied.idle hcovers fun a ha =>
      Request.uses?_of_name?_eq_none (hevents _ (Act.mem_forItem.mp ha).1)
    exact ⟨hsame.toBounded, fun _ => hsame⟩
  | flow _ h => exact hnested _ _ _ _ _ _ _ _ htallied h

/-- A look at the signal leaves the counts as they are. -/
theorem Context.Tallied.look {c : Context} {before : List Act} (h : c.Tallied before)
    (stop : Bool) : c.Tallied (before ++ [.look stop]) := by
  refine h.idle (.look h.covers.advances.wellFormed stop) fun a ha => ?_
  rw [List.mem_singleton.mp ha]
  rfl

/-- Steps keep the counts: by induction on the trace, with what happened before growing along it. -/
theorem StepsTrace.tallies {services : Services} {nested : List Nat → Nat → String → Json → Trace}
    (hnested : ∀ callers offset name input, (nested callers offset name input).Tallies)
    (callers : List Nat) (name : String) (offset position : Nat) (state : Record) (last : Json)
    (steps : List Step) :
    Trace.Tallies
      (StepsTrace services nested callers name offset position state last steps) := by
  intro before c acts r c' log htallied h
  induction h generalizing before with
  | done =>
    rw [List.append_nil]
    exact ⟨htallied.toBounded, fun _ => htallied⟩
  -- A cut ends the flow with an error, so exact counts are not asked for.
  | cancelled => exact ⟨(htallied.look true).toBounded, fun hok => by cases hok⟩
  | failed h =>
    have hstep := StepTrace.tallies (hnested _ _) _ _ _ _ _ _ _ _ (htallied.look false) h
    rw [List.append_assoc] at hstep
    -- The counts may lag behind here, and the mark makes up for it.
    exact ⟨hstep.1.markErrored.toBounded, fun hok => by cases hok⟩
  -- A step that succeeded has left exact counts, so the rest may start from them.
  | next h _ ih =>
    have hstep := StepTrace.tallies (hnested _ _) _ _ _ _ _ _ _ _ (htallied.look false) h
    have hrest := ih _ (hstep.2 rfl)
    simpa only [List.append_assoc, List.cons_append, List.nil_append] using hrest

/-- A flow keeps the counts, at any depth of nesting. -/
theorem FlowTrace.tallies (services : Services) (levels : Nat) (callers : List Nat)
    (offset : Nat) (name : String) (input : Json) :
    Trace.Tallies (FlowTrace services levels callers offset name input) := by
  -- A nested flow has one level less, and its levels are what the induction is on.
  induction levels generalizing callers offset name input with
  | zero =>
    rintro before c acts r c' log htallied ⟨rfl, rfl, rfl, rfl⟩
    rw [List.append_nil]
    exact ⟨htallied.toBounded, fun _ => htallied⟩
  | succ levels ih =>
    rintro before c acts r c' log htallied (⟨e, -, rfl, rfl, rfl, rfl⟩ | ⟨flow, -, h⟩)
    · rw [List.append_nil]
      exact ⟨htallied.toBounded, fun _ => htallied⟩
    · exact StepsTrace.tallies ih _ _ _ _ _ _ _ _ _ _ _ _ _ htallied h

/-! ## §5 Executions -/

/-- An execution of a flow in a context, with an account of it. -/
structure Execution where
  services : Services
  flow : String
  input : Json
  acts : List Act
  outcome : Except FlowError Json

namespace Execution

/-- What happened during the execution. -/
def events (x : Execution) : List Event := x.acts.map Act.event

/-- The execution as a call on a context. -/
def stage (x : Execution) : Stage := .execute x.services x.flow x.input x.events x.outcome

/-- Whether the execution has ended with a value. -/
def succeeded (x : Execution) : Bool := x.outcome.toBool

/-- An execution that may happen in a context and leave another one. -/
def Happens (x : Execution) (c c' : Context) : Prop :=
  ∃ c1, FlowAccount x.services (maxDepth + 1) x.flow x.input c x.acts x.outcome c1 ∧
    c' = c1.markedBy x.outcome

end Execution

/-- Executions that may happen in a context one after another. -/
inductive Executions : Context → List Execution → Context → Prop where
  | nil (c : Context) : Executions c [] c
  | cons {c c1 c2 : Context} {x : Execution} {rest : List Execution} (h : x.Happens c c1)
      (hrest : Executions c1 rest c2) : Executions c (x :: rest) c2

/-- All acts of some executions, in order. -/
def actsOf (xs : List Execution) : List Act := xs.flatMap Execution.acts

/-- The executions of a flow are those that have an account. -/
theorem Services.runs_execute_iff {services : Services} {flow : String} {input : Json}
    {c c' : Context} {events : List Event} {outcome : Except FlowError Json} :
    FlowM.Runs (services.execute flow input) c events outcome c' ↔
      ∃ acts, (Execution.mk services flow input acts outcome).Happens c c' ∧
        acts.map Act.event = events := by
  rw [execute, runs_markingFailure_iff]
  constructor
  · rintro ⟨c1, hrun, rfl⟩
    obtain ⟨acts, hacts, rfl⟩ := runs_runFlow_iff_accounts.mp hrun
    refine ⟨acts, ⟨c1, hacts, ?_⟩, rfl⟩
    cases outcome <;> rfl
  · rintro ⟨acts, ⟨c1, hacts, rfl⟩, rfl⟩
    refine ⟨c1, runs_runFlow_iff_accounts.mpr ⟨acts, hacts, rfl⟩, ?_⟩
    cases outcome <;> rfl

/-- An execution is a call of its flow. -/
theorem Execution.Happens.stage {x : Execution} {c c' : Context} (h : x.Happens c c') :
    x.stage.Happens c c' :=
  .execute (Services.runs_execute_iff.mpr ⟨x.acts, h, rfl⟩)

/-- Calls of which none is a finalization have accounts as executions. -/
theorem history_iff_executions {stages : List Stage} {c c' : Context}
    (hflows : ∀ stage ∈ stages, stage.isFinalize = false) :
    History c stages c' ↔ ∃ xs, Executions c xs c' ∧ xs.map Execution.stage = stages := by
  constructor
  · intro h
    -- Every call of the history is an execution, as none is a finalization.
    induction h with
    | nil c => exact ⟨[], .nil c, rfl⟩
    | cons hstage _ ih =>
      obtain ⟨xs, hxs, rfl⟩ := ih fun stage hmem => hflows stage (List.mem_cons_of_mem _ hmem)
      cases hstage with
      | finalize => cases hflows _ List.mem_cons_self
      | execute hrun =>
        obtain ⟨acts, hhappens, rfl⟩ := Services.runs_execute_iff.mp hrun
        exact ⟨_ :: xs, .cons hhappens hxs, rfl⟩
  · rintro ⟨xs, hxs, rfl⟩
    clear hflows
    induction hxs with
    | nil c => exact .nil c
    | cons h _ ih => exact .cons h.stage ih

/-- Executions one after another are a history of calls. -/
theorem Executions.history {xs : List Execution} {c c' : Context} (h : Executions c xs c') :
    History c (xs.map Execution.stage) c' := by
  refine (history_iff_executions fun stage hmem => ?_).mpr ⟨xs, h, rfl⟩
  obtain ⟨x, -, rfl⟩ := List.mem_map.mp hmem
  rfl

/-- Between executions every session is marked or its counts are exact. -/
theorem Executions.tallied {before : List Act} {xs : List Execution} {c c' : Context}
    (hc : c.Tallied before) (h : Executions c xs c') : c'.Tallied (before ++ actsOf xs) := by
  induction h generalizing before with
  | nil c => rwa [actsOf, List.flatMap_nil, List.append_nil]
  | @cons c c1 c2 x rest h _ ih =>
    obtain ⟨c3, ⟨log, htrace⟩, rfl⟩ := h
    obtain ⟨hbounded, hexact⟩ := FlowTrace.tallies _ _ _ _ _ _ before c _ _ _ _ hc htrace
    have hmarked : (c3.markedBy x.outcome).Tallied (before ++ x.acts) := by
      -- The mark after a failure makes up for counts that lag behind.
      cases houtcome : x.outcome with
      | ok v => exact hexact (by rw [houtcome]; rfl)
      | error e => exact hbounded.markErrored
    rw [actsOf, List.flatMap_cons, ← List.append_assoc]
    exact ih hmarked

/-! ## §6 Marks -/

/-- The executions from the one on that has opened the connection. -/
def since (link : Link) (xs : List Execution) : List Execution :=
  xs.dropWhile fun x => link ∉ openings x.events

/-- A connection with a session was opened in one of the executions. -/
theorem Executions.exists_since {xs : List Execution} {c : Context} (h : Executions {} xs c)
    {link : Link} (hlink : link ∈ c.links) :
    ∃ before x after, xs = before ++ x :: after ∧ since link xs = x :: after ∧
      link ∈ openings x.events := by
  -- What has a session was opened somewhere, and the events are those of the executions together.
  have hopened : ∃ x ∈ xs, link ∈ openings x.events := by
    rw [(ledger_of_history h.history).links, openings, eventsOf, List.flatMap_map,
      List.filterMap_flatMap] at hlink
    exact List.mem_flatMap.mp hlink
  have hsplit : xs.takeWhile (fun x => link ∉ openings x.events) ++ since link xs = xs :=
    List.takeWhile_append_dropWhile
  cases hsince : since link xs with
  | nil =>
    obtain ⟨x, hx, hopens⟩ := hopened
    exact absurd hopens (of_decide_eq_true (List.dropWhile_eq_nil_iff.mp hsince x hx))
  | cons x after =>
    have hhead := List.head?_dropWhile_not (fun x => decide (link ∉ openings x.events)) xs
    rw [show xs.dropWhile _ = x :: after from hsince] at hhead
    rw [hsince] at hsplit
    exact ⟨_, x, after, hsplit.symm, rfl, by simpa using hhead⟩

/-- What follows later is also since then. -/
theorem since_append {link : Link} {xs : List Execution} (h : since link xs ≠ [])
    (ys : List Execution) : since link (xs ++ ys) = since link xs ++ ys := by
  rw [since, List.dropWhile_append, if_neg (by simpa [since] using h)]
  rfl

/-- A session is marked exactly if some execution has failed since it was opened. -/
theorem Executions.errored_iff {xs : List Execution} {c : Context} (h : Executions {} xs c)
    {name : String} {s : Session} (hs : c.session? name = some s) :
    s.errored = true ↔ (since s.link xs).all Execution.succeeded = false := by
  have hw := (ledger_of_history h.history).wellFormed
  obtain ⟨before, x, after, rfl, hsince, hopens⟩ :=
    -- The history is cut where the connection was opened; doom is decided from there on.
    h.exists_since (Context.mem_view_iff.mpr ⟨name, s, hs, rfl⟩)
  have hhistory := h.history
  rw [List.map_append, List.map_cons] at hhistory
  have hflows : ∀ stage ∈ x.stage :: after.map Execution.stage, stage.isFinalize = false := by
    rw [← List.map_cons]
    intro stage hmem
    obtain ⟨y, -, rfl⟩ := List.mem_map.mp hmem
    rfl
  have hdoomed : s.link ∈ c.doomed ↔ (x :: after).all Execution.succeeded = false := by
    rw [mem_doomed_iff hhistory hflows hopens, ← List.map_cons, List.all_map]
    rfl
  -- Marked sessions and doomed connections stand for each other through the name.
  rw [hsince, ← hdoomed, Context.doomed, hw.mem_pick_iff Session.errored, hw.named hs]
  constructor
  · exact fun herrored => ⟨s, hs, herrored, rfl⟩
  · rintro ⟨s', hs', herrored, -⟩
    obtain rfl := Option.some.inj (hs.symm.trans hs')
    exact herrored

/-- Executions one after another. -/
theorem Executions.append {xs ys : List Execution} {c c1 c2 : Context} (h : Executions c xs c1)
    (hrest : Executions c1 ys c2) : Executions c (xs ++ ys) c2 := by
  induction h with
  | nil c => exact hrest
  | cons hx _ ih => exact .cons hx (ih hrest)

/-- Executions remove no session and no mark. -/
theorem Executions.keeps {xs ys : List Execution} {c c' : Context} (h : Executions {} xs c)
    (hrest : Executions c ys c') {name : String} {s : Session} (hs : c.session? name = some s) :
    ∃ s', c'.session? name = some s' ∧ s'.link = s.link ∧
      (s.errored = true → s'.errored = true) := by
  have hall := h.append hrest
  have hlink : s.link ∈ c.links := Context.mem_view_iff.mpr ⟨name, s, hs, rfl⟩
  have hlink' : s.link ∈ c'.links := by
    rw [(ledger_of_history h.history).links] at hlink
    rw [(ledger_of_history hall.history).links, List.map_append, eventsOf_append, openings_append]
    exact List.mem_append_left _ hlink
  obtain ⟨name', s', hs', hsame⟩ := Context.mem_view_iff.mp hlink'
  have hsame : s'.link = s.link := Option.some.inj hsame
  -- Both stand under the name of their connection.
  have hnames : name' = name := by
    rw [← (ledger_of_history hall.history).wellFormed.named hs', hsame,
      (ledger_of_history h.history).wellFormed.named hs]
  subst hnames
  refine ⟨s', hs', hsame, fun herrored => ?_⟩
  -- Executions after the opening stay in the list, so a failure among them stays too.
  obtain ⟨before, x, after, -, hsince, -⟩ := h.exists_since hlink
  rw [hall.errored_iff hs', hsame, since_append (by simp [hsince]), List.all_append,
    (h.errored_iff hs).mp herrored, Bool.false_and]

/-- An execution that fails leaves every session marked. -/
theorem Execution.Happens.errored {x : Execution} {c c' : Context} (h : x.Happens c c')
    (hfailed : x.succeeded = false) {name : String} {s : Session} (hs : c'.session? name = some s) :
    s.errored = true := by
  obtain ⟨c1, -, rfl⟩ := h
  cases houtcome : x.outcome with
  | ok v => simp [Execution.succeeded, houtcome, Except.toBool] at hfailed
  | error e =>
    rw [houtcome] at hs
    obtain ⟨s0, -, rfl⟩ := Context.exists_of_session?_map hs
    rfl

/-- The counts of a session are exact between executions, as long as none has failed since it was
opened.  Calls that do not end the sessions have accounts, in which each statement is sent for an
item.  After any of them, no session counts more pending statements than executed ones, or more
executed ones than were sent.  A session that was opened in an execution since which none has failed
counts all that were sent as executed and those for items that do not only read as pending, and it
is in a transaction exactly if some are pending; otherwise it is marked.  An execution that fails
marks every session that is there, and they all stay, and stay marked. -/
theorem counts_exact :
    (∀ stages c, (∀ stage ∈ stages, stage.isFinalize = false) →
      (History {} stages c ↔ ∃ xs, Executions {} xs c ∧ xs.map Execution.stage = stages)) ∧
    ∀ xs c, Executions {} xs c →
      (∀ name s, c.session? name = some s → s.Bounded (actsOf xs) ∧ since s.link xs ≠ [] ∧
        if (since s.link xs).all Execution.succeeded then s.Exact (actsOf xs)
        else s.errored = true) ∧
      ∀ (x : Execution) c1 after c2, x.Happens c c1 → x.succeeded = false → Executions c1 after c2 →
        ∀ name s, c1.session? name = some s → s.errored = true ∧
          ∃ s', c2.session? name = some s' ∧ s'.link = s.link ∧ s'.errored = true := by
  refine ⟨fun _ _ => history_iff_executions, fun xs c h => ⟨?_, ?_⟩⟩
  · intro name s hs
    have htallied := h.tallied .empty
    obtain ⟨before, x, after, -, hsince, -⟩ :=
      h.exists_since (Context.mem_view_iff.mpr ⟨name, s, hs, rfl⟩)
    refine ⟨htallied.bounded hs, by simp [hsince], ?_⟩
    split
    · next hall =>
      refine (htallied.exact hs).resolve_left fun herrored => ?_
      rw [h.errored_iff hs, hall] at herrored
      cases herrored
    · next hfailed => exact (h.errored_iff hs).mpr (by simpa using hfailed)
  · intro x c1 after c2 hx hfailed hafter name s hs
    have herrored := hx.errored hfailed hs
    obtain ⟨s', hs', hlink, hmarked⟩ := (h.append (.cons hx (.nil c1))).keeps hafter hs
    exact ⟨herrored, s', hs', hlink, hmarked herrored⟩

namespace Cart

/-- The cart is emptied. -/
def emptying : Execution where
  services := services
  flow := "empty"
  input := .null
  acts := .look false :: (Act.forItem (services.items.get? "clear") events.tail ++ [])
  outcome := .ok (.ofUInt64 1)

/-- A flow is asked for that there is not. -/
def missing : Execution where
  services := services
  flow := "refill"
  input := .null
  acts := []
  outcome := .error (.unknownFlow "refill")

/-- A flow of no steps. -/
def idling : Execution where
  services :=
    { services with flows := Dictionary.ofList [("idle", { name := "idle", steps := [] })] }
  flow := "idle"
  input := .null
  acts := []
  outcome := .ok .null

theorem emptying_happens : emptying.Happens {} context :=
  ⟨context, ⟨_, .inr ⟨_, rfl, .next (.sql rfl runs_clear) (.done _ _ _ _ _)⟩⟩, rfl⟩

theorem missing_happens (c : Context) : missing.Happens c c.markErrored :=
  ⟨c, ⟨[], .inl ⟨_, rfl, rfl, rfl, rfl, rfl⟩⟩, rfl⟩

theorem idling_happens (c : Context) : idling.Happens c c :=
  ⟨c, ⟨[], .inr ⟨_, rfl, .done _ _ _ _ _⟩⟩, rfl⟩

/-- The session of the cart after it has been emptied. -/
def session : Session :=
  { link, dialect := .mysql, inTransaction := true, executed := 1, pending := 1 }

end Cart

/-- Emptying the cart counts its one statement.  Asking for an unknown flow marks the session, which
a flow that succeeds does not undo. -/
theorem cart_counted :
    Executions {} [Cart.emptying] Cart.context ∧ Cart.session.Exact Cart.emptying.acts ∧
      Cart.missing.Happens Cart.context Cart.context.markErrored ∧
      Executions Cart.context.markErrored [Cart.idling] Cart.context.markErrored ∧
      ∃ s, Cart.context.markErrored.session? "main" = some s ∧ s.link = Cart.link ∧
        s.errored = true := by
  have hfirst : Executions {} [Cart.emptying] Cart.context :=
    .cons Cart.emptying_happens (.nil _)
  have hmissing := Cart.missing_happens Cart.context
  have hlast : Executions Cart.context.markErrored [Cart.idling] Cart.context.markErrored :=
    .cons (Cart.idling_happens _) (.nil _)
  obtain ⟨hcounts, hmarks⟩ := counts_exact.2 _ _ hfirst
  obtain ⟨-, -, hexact⟩ := hcounts "main" Cart.session rfl
  obtain ⟨-, hmarked⟩ := hmarks _ _ _ _ hmissing rfl hlast "main" Cart.session.markErrored rfl
  refine ⟨hfirst, ?_, hmissing, hlast, hmarked⟩
  have hall : (since Cart.session.link [Cart.emptying]).all Execution.succeeded = true := by
    decide
  rw [if_pos hall] at hexact
  exact hexact

end SqlService
