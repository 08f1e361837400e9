import SqlService.Proofs.Flow.Lifecycle

/-!
# How transactions end

A finalization decides between commit and rollback from the bookkeeping of each session, not from
how the flows ended.  The two agree because of what every flow leaves behind: a session with an open
transaction is marked, or has something to commit (`Context.Sound`), and the marked sessions are
those of a flow that failed while their connections were open (`doomed`).

Main statement: `settled_by_outcome`.
-/

namespace SqlService

open Program (Event)

/-! ## §1 Commits and rollbacks -/

namespace Request

/-- The connection whose transaction a request commits. -/
def commits? : Request → Option Link
  | commit l => some l
  | _ => none

/-- The connection whose transaction a request rolls back. -/
def rollsBack? : Request → Option Link
  | rollback l => some l
  | _ => none

/-- Only a finalization commits. -/
theorem commits?_of_finishes {q : Request} (h : q.finishes = false) : q.commits? = none := by
  cases q <;> simp_all [commits?, finishes, settles?]

/-- Only a finalization rolls back. -/
theorem rollsBack?_of_finishes {q : Request} (h : q.finishes = false) : q.rollsBack? = none := by
  cases q <;> simp_all [rollsBack?, finishes, settles?]

end Request

/-- The connections whose transactions were committed, whatever came of it. -/
def committed (events : List Event) : List Link := events.filterMap fun e => e.request.commits?

/-- The connections whose transactions were rolled back, whatever came of it. -/
def rolledBack (events : List Event) : List Link := events.filterMap fun e => e.request.rollsBack?

/-! ## §2 What a flow leaves behind -/

/-- An open transaction has something to commit, unless it is marked for rollback. -/
def Session.Sound (s : Session) : Prop :=
  s.inTransaction = true → s.errored = true ∨ s.pending ≠ 0

namespace Context

/-- Every open transaction has something to commit, unless it is marked for rollback. -/
def Sound (c : Context) : Prop := ∀ name s, c.session? name = some s → s.Sound

/-- The connections of the sessions that are marked for rollback. -/
def doomed (c : Context) : List Link := c.view fun s => if s.errored then some s.link else none

/-- At the beginning there is no transaction. -/
theorem Sound.empty : Sound {} := by
  intro name s h
  rw [session?_empty] at h
  cases h

/-- A sound session may be set in a sound context. -/
theorem Sound.set {c : Context} {name : String} {s : Session} (hc : c.Sound) (hs : s.Sound) :
    (c.set name s).Sound := by
  intro other s0 h
  rw [session?_set] at h
  split at h
  · cases h
    exact hs
  · exact hc other s0 h

/-- Marks make every transaction sound. -/
theorem sound_markErrored (c : Context) : c.markErrored.Sound := by
  intro name s h _
  obtain ⟨s0, -, rfl⟩ := exists_of_session?_map h
  exact .inl rfl

/-- After a finalization no transaction is open, unless the session had ended before. -/
theorem Sound.ended {c : Context} (hc : c.Sound) : c.ended.Sound := by
  intro name s h ht
  obtain ⟨s0, hs0, rfl⟩ := exists_of_session?_map h
  -- A session that is ended now has no transaction; only one that had ended before is left as it
  -- was.
  unfold Session.ended at ht ⊢
  split at ht
  · next hclosed =>
    rw [if_pos hclosed]
    exact hc _ _ hs0 ht
  · cases ht

/-- After a failure every session is marked. -/
theorem doomed_markErrored (c : Context) : c.markErrored.doomed = c.markErrored.links := by
  simp [doomed, links, view, markErrored, Dictionary.map, Session.markErrored,
    List.filterMap_map, Function.comp_def]

/-- Only what is open can be marked. -/
theorem mem_links_of_mem_doomed {c : Context} {link : Link} (h : link ∈ c.doomed) :
    link ∈ c.links := by
  obtain ⟨name, s, hs, hf⟩ := mem_view_iff.mp h
  refine mem_view_iff.mpr ⟨name, s, hs, ?_⟩
  cases he : s.errored <;> simp_all

end Context

/-- The session that an SQL step has been answered on: a mark is neither set nor removed, and what
was written in its transaction waits for a commit. -/
theorem SqlRun.exists_set {services : Services} {service : String} {args : Record}
    {c c' : Context} {events : List Event} {answer : Json}
    (h : SqlRun services service args c events (.ok answer) c') :
    ∃ name s', c' = c.set name s' ∧ (∀ s, c.session? name = some s →
        s'.errored = s.errored ∧ s'.link = s.link) ∧
      (c.session? name = none → s'.errored = false) ∧ (c.Sound → s'.Sound) := by
  -- Of all ways through an SQL step only one ends with an answer.
  cases h with
  | @answered first second third last item sql parsed _ count c1 s s' hp ho he hc hs =>
    -- A step that is answered has run a statement.
    have hcount : count ≠ 0 :=
      Nat.ne_of_gt ((Services.runQuery_statements _ _ _).2 last (answer, count) hs).2
    have hrecord : (s'.record item.readOnly count).errored = s.errored ∧
        (s'.record item.readOnly count).link = s.link ∧
        (s.Sound → (s'.record item.readOnly count).Sound) := by
      -- Only a step that reads leaves the number of pending statements as it is.
      cases he with
      | reading hread =>
        refine ⟨rfl, rfl, fun hsound ht => ?_⟩
        rw [Session.record, if_pos hread]
        exact hsound ht
      | inside hwrite ht =>
        refine ⟨rfl, rfl, fun _ _ => .inr ?_⟩
        simp [Session.record, hwrite, hcount]
      | begun hwrite ht hopen =>
        refine ⟨rfl, rfl, fun _ _ => .inr ?_⟩
        simp [Session.record, hwrite, hcount]
    -- The session was there before, or it is new and starts without a mark.
    cases ho with
    | present _ hsession =>
      refine ⟨item.connection, _, rfl, fun s0 hs0 => ?_, fun hnone => ?_, fun hsound => ?_⟩
      · rw [hsession] at hs0
        cases hs0
        exact ⟨hrecord.1, hrecord.2.1⟩
      · rw [hsession] at hnone
        cases hnone
      · exact hrecord.2.2 (hsound _ _ hsession)
    | opened settings database p hnone _ _ =>
      refine ⟨item.connection, _, Context.set_set _ _ _ _, fun s0 hs0 => ?_, fun _ => ?_,
        fun _ => ?_⟩
      · rw [hnone] at hs0
        cases hs0
      · exact hrecord.1
      · exact hrecord.2.2 fun ht => absurd ht (by simp)

/-- A turn that does not fail keeps open transactions sound and marks no session. -/
theorem Turn.keeps {services : Services} {c c' : Context} {events : List Event}
    (h : Turn services c events (.ok ()) c') (hc : c.Sound) :
    c'.Sound ∧ c'.doomed = c.doomed := by
  -- The outcome is a variable for the case split, and is compared again in each case.
  generalize hr : (Except.ok () : Except FlowError Unit) = r at h
  cases h with
  | look c => exact ⟨hc, rfl⟩
  | cancelled c => cases hr
  | call h hevents => exact ⟨hc, rfl⟩
  | unrunnable c e h => cases hr
  | @sql _ _ _ _ _ r h =>
    cases r with
    | error e => cases hr
    | ok answer =>
      obtain ⟨name, s', rfl, hold, hnew, hsound⟩ := h.exists_set
      refine ⟨hc.set (hsound hc), ?_⟩
      -- A session that was there keeps its mark, and a new one has none: the view stays as it was.
      cases hs : c.session? name with
      | some s =>
        obtain ⟨herrored, hlink⟩ := hold s hs
        exact Context.view_set_of_eq hs (by rw [herrored, hlink])
      | none =>
        rw [Context.doomed, Context.view_set_of_none hs, hnew hs]
        exact List.append_nil _

/-- The same for turns one after another, by induction on them. -/
theorem Completed.keeps {services : Services} {c c' : Context} {events : List Event}
    (h : Completed services c events c') (hc : c.Sound) : c'.Sound ∧ c'.doomed = c.doomed := by
  induction h with
  | nil c => exact ⟨hc, rfl⟩
  | cons ht _ ih =>
    obtain ⟨hsound, hdoomed⟩ := ht.keeps hc
    exact ⟨(ih hsound).1, (ih hsound).2.trans hdoomed⟩

/-- A flow leaves open transactions sound; if it does not fail it marks no session, and otherwise
all of them. -/
theorem Executed.keeps {services : Services} {c c' : Context} {events : List Event}
    {r : Except FlowError Json} (h : Executed services c events r c') (hc : c.Sound) :
    c'.Sound ∧ c'.doomed = if r.toBool then c.doomed else c'.links := by
  cases h with
  | completed v h => exact h.keeps hc
  | failed h ht => exact ⟨Context.sound_markErrored _, Context.doomed_markErrored _⟩

/-- Whatever the calls, open transactions are sound. -/
theorem sound_of_history {stages : List Stage} {c c' : Context} (h : History c stages c')
    (hc : c.Sound) : c'.Sound := by
  -- By induction on the calls: a flow keeps soundness, and a finalization ends what is open.
  induction h with
  | nil c => exact hc
  | cons hstage _ ih =>
    apply ih
    cases hstage with
    | execute hrun => exact ((Services.executed_of_runs hrun).keeps hc).1
    | finalize hrun =>
      obtain rfl := (Context.runs_finalize hrun).2
      exact hc.ended

/-- The sessions that are marked for rollback are those of a failure since their opening. -/
theorem mem_doomed_iff {before after : List Stage} {stage : Stage} {c : Context} {link : Link}
    (h : History {} (before ++ stage :: after) c)
    (hflows : ∀ x ∈ stage :: after, x.isFinalize = false) (hlink : link ∈ openings stage.events) :
    link ∈ c.doomed ↔ (stage :: after).all Stage.succeeded = false := by
  -- Each further flow keeps the marks if it succeeds and sets all of them otherwise.
  induction after using List.reverseRecOn generalizing c with
  | nil =>
    obtain ⟨c1, hbefore, hlast⟩ := history_append_iff.mp h
    have hl := ledger_of_history hbefore
    have hsound := sound_of_history hbefore Context.Sound.empty
    -- The connection was opened by the last call, so its fate is the outcome of that call.
    cases history_single_iff.mp hlast with
    | finalize hrun => exact absurd (hflows _ List.mem_cons_self) (by simp [Stage.isFinalize])
    | @execute _ _ _ _ _ _ outcome hrun =>
      have hexecuted := Services.executed_of_runs hrun
      have ha := hexecuted.moves.advances hl.wellFormed
      have hmem : link ∈ c.links := by
        rw [ha.links]
        exact List.mem_append_right _ hlink
      rw [(hexecuted.keeps hsound).2]
      cases outcome with
      | ok v =>
        -- The connection is new, so no session of the context before is its own.
        have hnew : link ∉ c1.doomed := fun hdoomed =>
          ha.not_mem_links hlink (Context.mem_links_of_mem_doomed hdoomed)
        simpa [Stage.succeeded, Except.toBool] using hnew
      | error e => simpa [Stage.succeeded, Except.toBool] using hmem
  | append_singleton after last ih =>
    have hsplit : before ++ stage :: (after ++ [last]) = (before ++ stage :: after) ++ [last] := by
      simp
    rw [hsplit] at h
    obtain ⟨c1, hbefore, hlast⟩ := history_append_iff.mp h
    have hl := ledger_of_history hbefore
    have hsound := sound_of_history hbefore Context.Sound.empty
    have hearlier := ih hbefore fun x hx => hflows x (List.mem_append_left [last] hx)
    have hlastFlow := hflows last (List.mem_append_right (stage :: after) List.mem_cons_self)
    -- The last call comes on top of what the earlier ones have left.
    cases history_single_iff.mp hlast with
    | finalize hrun => simp [Stage.isFinalize] at hlastFlow
    | @execute _ _ _ _ _ events outcome hrun =>
      have hexecuted := Services.executed_of_runs hrun
      have ha := hexecuted.moves.advances hl.wellFormed
      have hmem : link ∈ c.links := by
        rw [ha.links, hl.links, eventsOf_append, openings_append]
        refine List.mem_append_left _ (List.mem_append_right _ ?_)
        rw [eventsOf, List.flatMap_cons, openings_append]
        exact List.mem_append_left _ hlink
      rw [(hexecuted.keeps hsound).2]
      cases outcome with
      -- A success changes no mark, and a failure marks the connection, which is still there.
      | ok v => simpa [Stage.succeeded, Except.toBool] using hearlier
      | error e => simpa [Stage.succeeded, Except.toBool] using hmem

/-! ## §3 What a finalization commits -/

namespace Context

variable {c c' : Context} {events : List Event} {link : Link}

/-- The connections with an open transaction whose sessions are not marked. -/
def spared (c : Context) : List Link :=
  c.view fun s => if s.inTransaction && !s.errored then some s.link else none

/-- The connections with an open transaction whose sessions are marked. -/
def condemned (c : Context) : List Link :=
  c.view fun s => if s.inTransaction && s.errored then some s.link else none

/-- A finalization commits the transactions of the sessions that are not marked. -/
theorem committed_of_runs_finalize (hw : c.WellFormed) (hsound : c.Sound)
    (h : Program.Runs c.finalize events c') : committed events = c.spared := by
  refine filterMap_of_runs_finalize Request.commits? _ (fun {name s} hs => ?_) h
  -- A session that has ended has no transaction, and an open transaction has something pending.
  have hsettled := hw.settled hs
  have hpending := hsound name s hs
  unfold Session.Sound at hpending
  unfold Session.endings Session.commits
  cases hc : s.closed <;> cases ht : s.inTransaction <;> cases he : s.errored <;>
    simp_all [Request.commits?]

/-- It rolls back those of the sessions that are. -/
theorem rolledBack_of_runs_finalize (hw : c.WellFormed) (hsound : c.Sound)
    (h : Program.Runs c.finalize events c') : rolledBack events = c.condemned := by
  -- The same case analysis as for the commits, seen through the other request.
  refine filterMap_of_runs_finalize Request.rollsBack? _ (fun {name s} hs => ?_) h
  have hsettled := hw.settled hs
  have hpending := hsound name s hs
  unfold Session.Sound at hpending
  unfold Session.endings Session.commits
  cases hc : s.closed <;> cases ht : s.inTransaction <;> cases he : s.errored <;>
    simp_all [Request.rollsBack?]

/-- A connection is picked if the session of its name is. -/
theorem WellFormed.mem_pick_iff (hw : c.WellFormed) (p : Session → Bool) :
    link ∈ c.view (fun s => if p s then some s.link else none) ↔
      ∃ s, c.session? link.name = some s ∧ p s = true ∧ s.link = link := by
  rw [Context.mem_view_iff]
  constructor
  · rintro ⟨name, s, hs, hlink⟩
    split at hlink
    · next hp =>
      obtain rfl := Option.some.inj hlink
      exact ⟨s, hw.named hs ▸ hs, hp, rfl⟩
    · cases hlink
  · rintro ⟨s, hs, hp, hlink⟩
    exact ⟨link.name, s, hs, by rw [if_pos hp, hlink]⟩

/-- No connection is picked twice. -/
theorem WellFormed.nodup_pick (hw : c.WellFormed) (p : Session → Bool) :
    (c.view fun s => if p s then some s.link else none).Nodup := by
  refine (hw.nodup_view fun s l hl => ?_).of_map Link.name
  split at hl
  · exact (Option.some.inj hl).symm
  · cases hl

/-- Spared are the open transactions without a mark. -/
theorem mem_spared_iff (hw : c.WellFormed) :
    link ∈ c.spared ↔ link ∈ c.transacting ∧ link ∉ c.doomed := by
  unfold spared transacting doomed
  rw [hw.mem_pick_iff, hw.mem_pick_iff, hw.mem_pick_iff]
  -- All three look at the one session that stands under the name.
  cases c.session? link.name with
  | none => simp
  | some s => cases ht : s.inTransaction <;> cases he : s.errored <;> simp [ht, he]

/-- Condemned are those with a mark. -/
theorem mem_condemned_iff (hw : c.WellFormed) :
    link ∈ c.condemned ↔ link ∈ c.transacting ∧ link ∈ c.doomed := by
  unfold condemned transacting doomed
  rw [hw.mem_pick_iff, hw.mem_pick_iff, hw.mem_pick_iff]
  cases c.session? link.name with
  | none => simp
  | some s => cases ht : s.inTransaction <;> cases he : s.errored <;> simp [ht, he]

/-- No transaction is spared twice. -/
theorem nodup_spared (hw : c.WellFormed) : c.spared.Nodup := hw.nodup_pick _

/-- No transaction is condemned twice. -/
theorem nodup_condemned (hw : c.WellFormed) : c.condemned.Nodup := hw.nodup_pick _

end Context

/-- What a flow opens stays unfinished as long as only flows follow. -/
theorem mem_unfinished {before after : List Stage} {stage : Stage} {link : Link}
    (hflows : ∀ x ∈ stage :: after, x.isFinalize = false) (hlink : link ∈ openings stage.events) :
    link ∈ unfinished (before ++ stage :: after) := by
  -- By induction from the last call backwards, since what is unfinished is defined from there.
  induction after using List.reverseRecOn with
  | nil =>
    rw [unfinished_concat, if_neg (by simp [hflows stage List.mem_cons_self])]
    exact List.mem_append_right _ hlink
  | append_singleton after last ih =>
    have hsplit : before ++ stage :: (after ++ [last]) = (before ++ stage :: after) ++ [last] := by
      simp
    rw [hsplit, unfinished_concat, if_neg (by simp [hflows last (by simp)])]
    exact List.mem_append_left _ (ih fun x hx => hflows x (List.mem_append_left [last] hx))

/-- A transaction is committed once if no flow has failed since its connection was opened, and
otherwise it is rolled back once. -/
theorem count_settled {before after : List Stage} {stage : Stage} {events : List Event}
    {c : Context} {link : Link} (h : History {} (before ++ stage :: after ++ [.finalize events]) c)
    (hflows : ∀ x ∈ stage :: after, x.isFinalize = false) (hlink : link ∈ openings stage.events)
    (hbegun : link ∈ beginnings (eventsOf (before ++ stage :: after))) :
    (committed events).count link = (if (stage :: after).all Stage.succeeded then 1 else 0) ∧
      (rolledBack events).count link = if (stage :: after).all Stage.succeeded then 0 else 1 := by
  obtain ⟨c1, hbefore, hlast⟩ := history_append_iff.mp h
  cases history_single_iff.mp hlast with
  | finalize hrun =>
    have hl := ledger_of_history hbefore
    have hw := hl.wellFormed
    have hsound := sound_of_history hbefore Context.Sound.empty
    have hlive : link ∈ c1.live := hl.live ▸ mem_unfinished hflows hlink
    have htransacting := (hl.transacting hlive).mpr hbegun
    have hdoomed := mem_doomed_iff hbefore hflows hlink
    rw [Context.committed_of_runs_finalize hw hsound hrun,
      Context.rolledBack_of_runs_finalize hw hsound hrun]
    -- No flow has failed: the connection is not marked, so it is spared and not condemned.
    cases hall : (stage :: after).all Stage.succeeded with
    | true =>
      have hspared : link ∉ c1.doomed := by simp [hdoomed, hall]
      refine ⟨?_, List.count_eq_zero.mpr fun hmem => ?_⟩
      · exact List.count_eq_one_of_mem (Context.nodup_spared hw)
          ((Context.mem_spared_iff hw).mpr ⟨htransacting, hspared⟩)
      · exact hspared ((Context.mem_condemned_iff hw).mp hmem).2
    -- Some flow has failed: the connection is marked, and the other way round.
    | false =>
      have hcondemned : link ∈ c1.doomed := hdoomed.mpr hall
      refine ⟨List.count_eq_zero.mpr fun hmem => ?_, ?_⟩
      · exact ((Context.mem_spared_iff hw).mp hmem).2 hcondemned
      · exact List.count_eq_one_of_mem (Context.nodup_condemned hw)
          ((Context.mem_condemned_iff hw).mpr ⟨htransacting, hcondemned⟩)

/-! ## §4 Flows in a context of their own -/

/-- The calls that a whole run consists of. -/
theorem Services.runs_run_iff {services : Services} {flow : String} {input : Json}
    {events : List Event} {result : ServiceResult} :
    Program.Runs (services.run flow input) events result ↔
      ∃ first last outcome c, events = first ++ last ∧
        FlowM.Runs (services.execute flow input) {} first outcome c ∧
        Program.Runs c.finalize last c.ended ∧ result = .ofOutcome outcome := by
  -- A run is the execution, then the finalization of the context it leaves, then the result.
  show Program.Runs (Program.andThen _ _) events result ↔ _
  rw [Program.runs_andThen]
  constructor
  · rintro ⟨first, rest, ⟨outcome, c⟩, rfl, hexecute, hrest⟩
    obtain ⟨last, tail, c', rfl, hfinalize, hdone⟩ := Program.runs_andThen.mp hrest
    obtain ⟨rfl, rfl⟩ := Program.runs_done_iff.mp hdone
    obtain rfl := (Context.runs_finalize hfinalize).2
    exact ⟨first, last, outcome, c, by simp, hexecute, hfinalize, rfl⟩
  · rintro ⟨first, last, outcome, c, rfl, hexecute, hfinalize, rfl⟩
    refine ⟨first, last, (outcome, c), rfl, hexecute, ?_⟩
    exact Program.runs_andThen.mpr ⟨last, [], c.ended, by simp, hfinalize, .done _⟩

/-- The commits of two stretches are those of the first and then those of the second. -/
theorem committed_append (first rest : List Event) :
    committed (first ++ rest) = committed first ++ committed rest :=
  List.filterMap_append

/-- So are the rollbacks. -/
theorem rolledBack_append (first rest : List Event) :
    rolledBack (first ++ rest) = rolledBack first ++ rolledBack rest :=
  List.filterMap_append

/-- The result says whether the outcome was a value. -/
theorem ServiceResult.success_ofOutcome (outcome : Except FlowError Json) :
    (ofOutcome outcome).success = outcome.toBool := by
  cases outcome <;> rfl

/-- A run commits every transaction that it has begun, or rolls back all of them. -/
theorem Services.all_settled {services : Services} {flow : String} {input : Json}
    {events : List Event} {result : ServiceResult}
    (h : Program.Runs (services.run flow input) events result) :
    (committed events).Perm (if result.success then beginnings events else []) ∧
      (rolledBack events).Perm (if result.success then [] else beginnings events) := by
  obtain ⟨first, last, outcome, c, rfl, hexecute, hfinalize, rfl⟩ := runs_run_iff.mp h
  have hexecuted := executed_of_runs hexecute
  have ha := hexecuted.moves.advances Context.WellFormed.empty
  obtain ⟨hsound, hdoomed⟩ := hexecuted.keeps Context.Sound.empty
  have hw := ha.wellFormed
  -- The flow ends no transaction, and the finalization begins none.
  have hquiet : committed first = [] ∧ rolledBack first = [] := by
    constructor <;> refine List.filterMap_eq_nil_iff.mpr fun e he => ?_
    · exact Request.commits?_of_finishes (ha.quiet he)
    · exact Request.rollsBack?_of_finishes (ha.quiet he)
  have hbegun : beginnings last = [] := by
    rw [beginnings, List.filterMap_eq_nil_iff]
    intro e he
    obtain ⟨name, s, -, -, hq⟩ := Context.mem_of_runs_finalize hfinalize he
    exact Event.begins?_of_finishes (Session.finishes_of_mem_endings hq).1
  have hperm : c.transacting.Perm (beginnings first) := ha.transacting
  have hnodup : c.transacting.Nodup := hw.nodup_transacting.of_map Link.name
  rw [committed_append, rolledBack_append, beginnings_append, hquiet.1, hquiet.2, hbegun,
    List.append_nil, List.nil_append, List.nil_append, ServiceResult.success_ofOutcome,
    Context.committed_of_runs_finalize hw hsound hfinalize,
    Context.rolledBack_of_runs_finalize hw hsound hfinalize]
  cases hok : outcome.toBool with
  | true =>
    -- A success marks no session, so every open transaction is to be committed.
    rw [hok] at hdoomed
    have hnone : c.doomed = [] := hdoomed
    have hspared : c.spared.Perm c.transacting := by
      rw [List.perm_ext_iff_of_nodup (Context.nodup_spared hw) hnodup]
      intro link
      simp [Context.mem_spared_iff hw, hnone]
    have hcondemned : c.condemned = [] := by
      rw [List.eq_nil_iff_forall_not_mem]
      intro link hmem
      simp [Context.mem_condemned_iff hw, hnone] at hmem
    exact ⟨hspared.trans hperm, List.perm_nil.mpr hcondemned⟩
  | false =>
    -- A failure marks every session, so every open transaction is to be rolled back.
    rw [hok] at hdoomed
    have hall : c.doomed = c.links := hdoomed
    have hlinks : ∀ {link}, link ∈ c.transacting → link ∈ c.doomed := fun hmem =>
      hall ▸ Context.mem_links_of_mem_live (Context.mem_live_of_mem_transacting hw hmem)
    have hspared : c.spared = [] := by
      rw [List.eq_nil_iff_forall_not_mem]
      intro link hmem
      obtain ⟨htransacting, hmarked⟩ := (Context.mem_spared_iff hw).mp hmem
      exact hmarked (hlinks htransacting)
    have hcondemned : c.condemned.Perm c.transacting := by
      rw [List.perm_ext_iff_of_nodup (Context.nodup_condemned hw) hnodup]
      intro link
      rw [Context.mem_condemned_iff hw]
      exact ⟨And.left, fun hmem => ⟨hmem, hlinks hmem⟩⟩
    exact ⟨List.perm_nil.mpr hspared, hcondemned.trans hperm⟩

/-! ## §5 Replies to the last requests -/

namespace Session

/-- How the requests that end a session are answered changes nothing. -/
theorem finalize_indifferent (s : Session) : s.finalize.Indifferent Request.finishes := by
  -- Every path through the requests ends in the same closed session, whatever the answers.
  have hclose : (Program.ask (.close s.link) fun _ =>
      .done { s with closed := true, inTransaction := false }).Indifferent Request.finishes :=
    ⟨fun _ => True.intro, fun _ _ _ => rfl⟩
  unfold finalize
  split
  · exact True.intro
  · dsimp only
    split
    · split
      · exact ⟨fun _ => hclose, fun _ _ _ => rfl⟩
      · exact ⟨fun _ => hclose, fun _ _ _ => rfl⟩
    · exact hclose

end Session

/-- The same for several sessions, one after another. -/
theorem Context.finalizeAll_indifferent (c : Context) (names : List String) :
    (c.finalizeAll names).Indifferent Request.finishes := by
  induction names generalizing c with
  | nil => exact True.intro
  | cons name names ih =>
    unfold finalizeAll
    split
    · exact ih c
    · next s _ => exact s.finalize_indifferent.andThen fun s' => ih (c.set name s')

/-- How commits, rollbacks and closings are answered changes nothing about a run. -/
theorem Services.run_indifferent (services : Services) (flow : String) (input : Json) :
    (services.run flow input).Indifferent Request.finishes := by
  -- The execution makes none of these requests, so it does not depend on their answers either.
  have hexecute : ((services.execute flow input).runIn {}).Indifferent Request.finishes := by
    apply Program.Only.indifferent
    intro events r h e he
    exact (advances_of_execute Context.WellFormed.empty h).quiet he
  apply Program.Indifferent.andThen hexecute
  intro r
  exact Program.Indifferent.andThen (r.2.finalizeAll_indifferent _) fun _ => True.intro

/-- Transactions end as the flows did.  After any calls on a context, a finalization commits what
was begun exactly if no flow has failed since the connection was opened, and rolls it back
otherwise.  A flow in a context of its own commits all or rolls back all, by its result, and neither
the result nor what is requested depends on how commits, rollbacks and closings are answered. -/
theorem settled_by_outcome :
    (∀ (before after : List Stage) (stage : Stage) (events : List Event) (c : Context)
        (link : Link), History {} (before ++ stage :: after ++ [.finalize events]) c →
      (∀ x ∈ stage :: after, x.isFinalize = false) → link ∈ openings stage.events →
      link ∈ beginnings (eventsOf (before ++ stage :: after)) →
      (committed events).count link = (if (stage :: after).all Stage.succeeded then 1 else 0) ∧
        (rolledBack events).count link = if (stage :: after).all Stage.succeeded then 0 else 1) ∧
    ∀ (services : Services) (flow : String) (input : Json) (events : List Event)
        (result : ServiceResult), Program.Runs (services.run flow input) events result →
      (committed events).Perm (if result.success then beginnings events else []) ∧
      (rolledBack events).Perm (if result.success then [] else beginnings events) ∧
      (∀ events', Program.Altered Request.finishes events events' →
        Program.Runs (services.run flow input) events' result) ∧
      ∀ events' result', Program.Runs (services.run flow input) events' result' →
        (∀ (i : Nat) (q : Request) (r r' : q.Reply), events[i]? = some ⟨q, r⟩ →
          events'[i]? = some ⟨q, r'⟩ → q.finishes = false → r = r') →
        result' = result ∧ events'.map Event.request = events.map Event.request := by
  constructor
  · intro before after stage events c link h hflows hlink hbegun
    exact count_settled h hflows hlink hbegun
  -- The laws of one run: what is settled, that other answers fit as well, and that nothing else may
  -- differ.
  · intro services flow input events result h
    have hindifferent := services.run_indifferent flow input
    obtain ⟨hcommitted, hrolledBack⟩ := Services.all_settled h
    refine ⟨hcommitted, hrolledBack, ?_, ?_⟩
    · exact fun events' haltered => hindifferent.runs_altered h haltered
    · exact fun events' result' h' hsame => hindifferent.runs_unique h h' hsame

/-- The transaction of the cart is committed, and the flow succeeds although neither the commit nor
the closing does. -/
theorem cart_settled (e : DataError) :
    (committed (Cart.endings (.ok ()) (.ok ()))).count Cart.link = 1 ∧
      ∃ result, result.success = true ∧
        Program.Runs (Cart.services.run "empty" .null)
          (Cart.events ++ Cart.endings (.error e) (.error e)) result := by
  have hrun : Program.Runs (Cart.services.run "empty" .null)
      (Cart.events ++ Cart.endings (.ok ()) (.ok ())) (.ofOutcome (.ok (.ofUInt64 1))) :=
    Services.runs_run_iff.mpr ⟨_, _, _, _, rfl, Cart.runs_execute, Cart.runs_finalize _ _, rfl⟩
  refine ⟨?_, _, rfl, (settled_by_outcome.2 _ _ _ _ _ hrun).2.2.1 _ ?_⟩
  · exact (settled_by_outcome.1 [] [] _ _ _ Cart.link (Cart.history (.ok ()) (.ok ()))
      (by simp [Stage.isFinalize]) (List.mem_singleton.mpr rfl) (List.mem_singleton.mpr rfl)).1
  · have hsame : Program.Altered Request.finishes Cart.events Cart.events :=
      List.forall₂_same.mpr fun _ _ => ⟨rfl, fun _ => rfl⟩
    refine List.rel_append hsame (.cons ⟨rfl, fun h => ?_⟩ (.cons ⟨rfl, fun h => ?_⟩ .nil))
    · exact absurd h (by decide)
    · exact absurd h (by decide)

end SqlService
