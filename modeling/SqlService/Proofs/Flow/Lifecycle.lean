import Mathlib.Data.List.Induction
import Mathlib.Data.List.Nodup
import SqlService.Proofs.Flow.Move

/-!
# The life of a connection

However a context is used, every connection lives once: it is opened, worked on, and ended by the
first finalization after its opening, and then it is left alone.  The proof keeps a `Ledger` of the
calls so far: which connections a context has, which of them are live and which have begun their
transactions is read off the events.

Main statement: `orderly_of_history`.
-/

namespace SqlService

open Program (Event)

/-! ## §1 What a finalization does -/

namespace Session

/-- Every request that ends a session finishes something of its connection. -/
theorem finishes_of_mem_endings {s : Session} {q : Request} (h : q ∈ s.endings) :
    q.finishes = true ∧ q.uses? = none ∧ q.name? = some s.link.name := by
  -- A session that has ended makes no request; any other one settles its transaction and is closed.
  unfold endings at h
  split at h
  · cases h
  · split at h
    · simp only [List.mem_cons, List.not_mem_nil, or_false] at h
      rcases h with rfl | rfl
      · split <;> exact ⟨rfl, rfl, rfl⟩
      · exact ⟨rfl, rfl, rfl⟩
    · rw [List.mem_singleton.mp h]
      exact ⟨rfl, rfl, rfl⟩

end Session

/-- The events of calls one after another. -/
theorem eventsOf_append (before after : List Stage) :
    eventsOf (before ++ after) = eventsOf before ++ eventsOf after :=
  List.flatMap_append

/-- The closings of two stretches. -/
theorem closings_append (first rest : List Event) :
    closings (first ++ rest) = closings first ++ closings rest :=
  List.filterMap_append

/-- Each request of a finalization ends a session that has not ended before. -/
theorem Context.mem_of_runs_finalize {c c' : Context} {events : List Event}
    (h : Program.Runs c.finalize events c') {e : Event} (he : e ∈ events) :
    ∃ name s, c.session? name = some s ∧ s.closed = false ∧ e.request ∈ s.endings := by
  have hmem : e.request ∈ events.map Event.request := List.mem_map_of_mem he
  rw [(runs_finalize h).1] at hmem
  obtain ⟨⟨name, s⟩, hs, hq⟩ := List.mem_flatMap.mp hmem
  refine ⟨name, s, Dictionary.get?_eq_some_iff.mpr hs, ?_, hq⟩
  cases hc : s.closed with
  | false => rfl
  | true => simp [Session.endings, hc] at hq

/-- The requests of a kind that a finalization makes, where `g` picks them and `f` says which
sessions make one. -/
theorem Context.filterMap_of_runs_finalize {c c' : Context} {events : List Event}
    (g : Request → Option Link) (f : Session → Option Link)
    (hf : ∀ {name s}, c.session? name = some s → s.endings.filterMap g = (f s).toList)
    (h : Program.Runs c.finalize events c') :
    (events.filterMap fun e => g e.request) = c.view f := by
  have hmap : (events.filterMap fun e => g e.request) =
      (events.map Event.request).filterMap g := by
    rw [List.filterMap_map]
    rfl
  rw [hmap, (runs_finalize h).1, List.filterMap_flatMap, view, List.filterMap_eq_flatMap_toList]
  exact List.flatMap_congr fun e he => hf (Dictionary.get?_eq_some_iff.mpr he)

/-- A finalization closes the live connections in opening order. -/
theorem Context.closings_of_runs_finalize {c c' : Context} {events : List Event}
    (h : Program.Runs c.finalize events c') : closings events = c.live := by
  refine filterMap_of_runs_finalize Request.closes? _ (fun {name s} _ => ?_) h
  unfold Session.endings
  -- Whatever state the session is in, it is closed exactly if it has not ended.
  cases s.closed <;> cases s.inTransaction <;> cases s.commits <;> rfl

/-- A finalization settles the open transactions in opening order. -/
theorem Context.settlements_of_runs_finalize {c c' : Context} {events : List Event}
    (hw : c.WellFormed) (h : Program.Runs c.finalize events c') :
    settlements events = c.transacting := by
  refine filterMap_of_runs_finalize Request.settles? _ (fun {name s} hs => ?_) h
  have hsettled := hw.settled hs
  unfold Session.endings
  cases hc : s.closed <;> cases ht : s.inTransaction <;> cases s.commits <;> simp_all <;> rfl

namespace Context

/-- The view after a finalization is that of the sessions it has ended. -/
theorem view_ended (c : Context) (f : Session → Option Link) :
    c.ended.view f = c.view fun s => f s.ended := by
  simp only [view, ended, Dictionary.map, List.filterMap_map]
  rfl

/-- After a finalization no connection is live. -/
theorem live_ended (c : Context) : c.ended.live = [] := by
  rw [live, view_ended]
  simp [view]

/-- After a finalization every connection has ended. -/
theorem dead_ended (c : Context) : c.ended.dead = c.links := by
  simp [dead, links, view_ended]

/-- The connections stand in the order of the sessions. -/
theorem links_eq_map (c : Context) : c.links = c.sessions.entries.map fun e => e.2.link := by
  simp [links, view]

/-- A finalization removes no connection. -/
theorem links_ended (c : Context) : c.ended.links = c.links := by
  simp [links, view_ended]

/-- A finalization keeps the context well-formed, as it closes every transaction. -/
theorem WellFormed.ended {c : Context} (hw : c.WellFormed) : c.ended.WellFormed := by
  apply hw.map Session.ended_link
  intro s hsettled _
  unfold Session.ended
  split
  · next hc => exact hsettled hc
  · rfl

/-- A connection is live or its session has ended, and not both. -/
theorem not_mem_dead_of_mem_live {c : Context} (hw : c.WellFormed) {link : Link}
    (h : link ∈ c.live) : link ∉ c.dead := by
  intro hdead
  obtain ⟨name, s, hs, hf⟩ := mem_view_iff.mp h
  cases hc : s.closed with
  | true => simp [hc] at hf
  | false =>
    obtain rfl : s.link = link := by simpa [hc] using hf
    have hclosed := closed_of_mem_dead hw hdead ((hw.named hs).symm ▸ hs)
    rw [hc] at hclosed
    cases hclosed

/-- Every connection is live or has ended. -/
theorem mem_links_iff {c : Context} {link : Link} :
    link ∈ c.links ↔ link ∈ c.dead ∨ link ∈ c.live := by
  simp only [links, dead, live, mem_view_iff]
  constructor
  · rintro ⟨name, s, hs, hlink⟩
    cases hc : s.closed with
    | true => exact .inl ⟨name, s, hs, by simpa [hc] using hlink⟩
    | false => exact .inr ⟨name, s, hs, by simpa [hc] using hlink⟩
  · rintro (⟨name, s, hs, hlink⟩ | ⟨name, s, hs, hlink⟩) <;>
    · refine ⟨name, s, hs, ?_⟩
      cases hc : s.closed <;> simp_all

/-- A live connection is there. -/
theorem mem_links_of_mem_live {c : Context} {link : Link} (h : link ∈ c.live) : link ∈ c.links :=
  mem_links_iff.mpr (.inr h)

/-- So is one that has ended. -/
theorem mem_links_of_mem_dead {c : Context} {link : Link} (h : link ∈ c.dead) : link ∈ c.links :=
  mem_links_iff.mpr (.inl h)

/-- Only a live connection has a transaction. -/
theorem mem_live_of_mem_transacting {c : Context} (hw : c.WellFormed) {link : Link}
    (h : link ∈ c.transacting) : link ∈ c.live := by
  obtain ⟨name, s, hs, hf⟩ := mem_view_iff.mp h
  have hsettled := hw.settled hs
  refine mem_view_iff.mpr ⟨name, s, hs, ?_⟩
  cases hc : s.closed <;> simp_all

end Context

/-! ## §2 The ledger -/

/-- The connections opened since the last finalization, in opening order. -/
def unfinished (stages : List Stage) : List Link :=
  stages.foldl (fun links stage => if stage.isFinalize then [] else links ++ openings stage.events)
    []

/-- A finalization leaves nothing unfinished, and a flow adds what it opens. -/
theorem unfinished_concat (stages : List Stage) (stage : Stage) :
    unfinished (stages ++ [stage]) =
      if stage.isFinalize then [] else unfinished stages ++ openings stage.events := by
  simp [unfinished, List.foldl_append]

/-- What a context knows of the calls that led to it. -/
structure Ledger (stages : List Stage) (c : Context) : Prop where
  wellFormed : c.WellFormed
  links : c.links = openings (eventsOf stages)
  live : c.live = unfinished stages
  dead : ∀ {link}, link ∈ closings (eventsOf stages) ↔ link ∈ c.dead
  transacting : ∀ {link}, link ∈ c.live →
    (link ∈ c.transacting ↔ link ∈ beginnings (eventsOf stages))
  begun_links : ∀ {link}, link ∈ beginnings (eventsOf stages) → link ∈ c.links
  begun_nodup : ((beginnings (eventsOf stages)).map Link.name).Nodup
  uses : ∀ {before e after link}, eventsOf stages = before ++ e :: after →
    e.request.uses? = some link → link ∈ openings before ∧ link ∉ closings before

/-- Before any call nothing has happened. -/
theorem Ledger.nil : Ledger [] {} where
  wellFormed := .empty
  links := rfl
  live := rfl
  dead := .rfl
  transacting h := absurd h List.not_mem_nil
  begun_links h := absurd h List.not_mem_nil
  begun_nodup := List.nodup_nil
  uses h := absurd h (by simp [eventsOf])

/-- Events that end nothing close nothing. -/
theorem closings_eq_nil {events : List Event} (h : ∀ {e}, e ∈ events → e.request.finishes = false) :
    closings events = [] :=
  List.filterMap_eq_nil_iff.mpr fun _ he => (Request.finishes_eq_false_iff.mp (h he)).2

/-- A call that ends nothing carries the ledger on: each entry is that of before with what the stage
adds to it. -/
theorem Ledger.advance {stages : List Stage} {stage : Stage} {c c' : Context}
    (h : Ledger stages c) (hstage : stage.isFinalize = false)
    (ha : Advances c stage.events c') : Ledger (stages ++ [stage]) c' := by
  have hevents : eventsOf (stages ++ [stage]) = eventsOf stages ++ stage.events := by
    simp [eventsOf]
  have hnew : ∀ {link}, link ∈ openings stage.events → link ∉ c.links := ha.not_mem_links
  have hbegun : ∀ {link}, link ∈ beginnings stage.events → link ∈ c'.transacting := fun hb =>
    ha.transacting.mem_iff.mpr (List.mem_append_right _ hb)
  have hquiet := closings_eq_nil ha.quiet
  constructor
  case wellFormed => exact ha.wellFormed
  case links => rw [ha.links, h.links, hevents, openings_append]
  case live => rw [ha.live, h.live, unfinished_concat, hstage, if_neg (by simp)]
  case dead =>
    intro link
    rw [hevents, closings_append, hquiet, List.append_nil, ha.dead]
    exact h.dead
  case transacting =>
    intro link hlive
    rw [ha.transacting.mem_iff, hevents, beginnings_append, List.mem_append, List.mem_append]
    rw [ha.live, List.mem_append] at hlive
    rcases hlive with hlive | hopen
    · rw [h.transacting hlive]
    · -- A connection that has just been opened has begun nothing before.
      have hc : link ∉ c.transacting := by
        intro hc
        have hlive := Context.mem_live_of_mem_transacting h.wellFormed hc
        exact hnew hopen (Context.mem_links_of_mem_live hlive)
      have hb : link ∉ beginnings (eventsOf stages) := fun hb => hnew hopen (h.begun_links hb)
      simp [hc, hb]
  case begun_links =>
    intro link hb
    rw [hevents, beginnings_append, List.mem_append] at hb
    rcases hb with hb | hb
    · rw [ha.links]
      exact List.mem_append_left _ (h.begun_links hb)
    · exact Context.mem_links_of_mem_live
        (Context.mem_live_of_mem_transacting ha.wellFormed (hbegun hb))
  case begun_nodup =>
    -- What has begun now is open at the end of the stage, where no name stands twice.
    have hperm := ((ha.transacting.map Link.name).nodup_iff).mp ha.wellFormed.nodup_transacting
    rw [List.map_append, List.nodup_append] at hperm
    rw [hevents, beginnings_append, List.map_append, List.nodup_append]
    refine ⟨h.begun_nodup, hperm.2.1, ?_⟩
    intro m hm n hn heq
    obtain ⟨old, hold, rfl⟩ := List.mem_map.mp hm
    obtain ⟨link, hlink, rfl⟩ := List.mem_map.mp hn
    have hlive := Context.mem_live_of_mem_transacting ha.wellFormed (hbegun hlink)
    -- Both are connections of the new context, so they are the same one.
    have hold' : old ∈ c'.links := by
      rw [ha.links]
      exact List.mem_append_left _ (h.begun_links hold)
    have hlink' := Context.mem_links_of_mem_live hlive
    obtain rfl := List.inj_on_of_nodup_map ha.wellFormed.nodup_links hold' hlink' heq
    rw [ha.live, List.mem_append] at hlive
    rcases hlive with hlive | hopen
    · have hc := (h.transacting hlive).mpr hold
      exact hperm.2.2 _ (List.mem_map_of_mem hc) _ (List.mem_map_of_mem hlink) rfl
    · exact hnew hopen (h.begun_links hold)
  case uses =>
    intro before e after link hsplit huse
    rw [hevents] at hsplit
    rcases split_append hsplit with ⟨middle, hfirst⟩ | ⟨middle, rfl, hsecond⟩
    · exact h.uses hfirst huse
    · -- The stage closes nothing, so what is open before it is still open here.
      have hmiddle : closings middle = [] := by
        rw [hsecond, closings_append] at hquiet
        exact (List.append_eq_nil_iff.mp hquiet).1
      rw [openings_append, closings_append, hmiddle, List.append_nil, ← h.links, h.dead]
      -- The connection is open since before the stage, or was opened in it.
      rcases List.mem_append.mp (ha.uses hsecond huse) with hlive | hopen
      · exact ⟨List.mem_append_left _ (Context.mem_links_of_mem_live hlive),
          Context.not_mem_dead_of_mem_live h.wellFormed hlive⟩
      · have hopening : link ∈ openings stage.events := by
          rw [hsecond, openings_append]
          exact List.mem_append_left _ hopen
        exact ⟨List.mem_append_right _ hopen,
          fun hdead => hnew hopening (Context.mem_links_of_mem_dead hdead)⟩

/-- A finalization carries the ledger on: nothing is opened or begun, and all that was live has
ended. -/
theorem Ledger.finalize {stages : List Stage} {events : List Event} {c c' : Context}
    (h : Ledger stages c) (hf : Program.Runs c.finalize events c') :
    Ledger (stages ++ [.finalize events]) c' := by
  have hevents : eventsOf (stages ++ [.finalize events]) = eventsOf stages ++ events := by
    simp [eventsOf, Stage.events]
  -- Each of its events ends a session.
  have hending : ∀ {e}, e ∈ events → e.request.finishes = true ∧ e.request.uses? = none := by
    intro e he
    obtain ⟨name, s, -, -, hq⟩ := Context.mem_of_runs_finalize hf he
    exact ⟨(Session.finishes_of_mem_endings hq).1, (Session.finishes_of_mem_endings hq).2.1⟩
  -- So it opens nothing and begins nothing.
  have hopenings : openings events = [] :=
    List.filterMap_eq_nil_iff.mpr fun e he => Event.opens?_of_finishes (hending he).1
  have hbeginnings : beginnings events = [] :=
    List.filterMap_eq_nil_iff.mpr fun e he => Event.begins?_of_finishes (hending he).1
  obtain rfl := (Context.runs_finalize hf).2
  constructor
  case wellFormed => exact h.wellFormed.ended
  case links =>
    rw [Context.links_ended, h.links, hevents, openings_append, hopenings, List.append_nil]
  case live => rw [Context.live_ended, unfinished_concat]; rfl
  case dead =>
    intro link
    rw [hevents, closings_append, List.mem_append, h.dead, Context.closings_of_runs_finalize hf,
      Context.dead_ended, Context.mem_links_iff]
  case transacting =>
    intro link hlive
    rw [Context.live_ended] at hlive
    cases hlive
  case begun_links =>
    intro link hb
    rw [hevents, beginnings_append, hbeginnings, List.append_nil] at hb
    rw [Context.links_ended]
    exact h.begun_links hb
  case begun_nodup =>
    rw [hevents, beginnings_append, hbeginnings, List.append_nil]
    exact h.begun_nodup
  case uses =>
    intro before e after link hsplit huse
    rw [hevents] at hsplit
    rcases split_append hsplit with ⟨middle, hfirst⟩ | ⟨middle, rfl, hsecond⟩
    · exact h.uses hfirst huse
    · -- A finalization only ends sessions.
      have he : e ∈ events := by
        rw [hsecond]
        exact List.mem_append_right _ List.mem_cons_self
      rw [(hending he).2] at huse
      cases huse

/-- However a context is used from its beginning, its ledger is kept. -/
theorem ledger_of_history {stages : List Stage} {c : Context} (h : History {} stages c) :
    Ledger stages c := by
  -- Histories grow at their end, where the ledger of what came before is known.
  induction stages using List.reverseRecOn generalizing c with
  | nil =>
    cases h
    exact .nil
  | append_singleton stages stage ih =>
    obtain ⟨c1, hbefore, hlast⟩ := history_append_iff.mp h
    have hledger := ih hbefore
    cases history_single_iff.mp hlast with
    | execute hrun =>
      exact hledger.advance rfl (Services.advances_of_execute hledger.wellFormed hrun)
    | finalize hrun => exact hledger.finalize hrun

/-! ## §3 Orderly use -/

/-- A finalization settles an open transaction right before it closes the connection. -/
theorem Context.settle_then_close {c c' : Context} {events : List Event} {link : Link}
    (hw : c.WellFormed) (h : Program.Runs c.finalize events c') (hlink : link ∈ c.transacting) :
    ∃ front settle close back, events = front ++ settle :: close :: back ∧
      settle.request.settles? = some link ∧ close.request.closes? = some link := by
  -- The connection is seen through the one session that has the transaction.
  obtain ⟨name, s, hs, hf⟩ := mem_view_iff.mp hlink
  cases ht : s.inTransaction with
  | false => simp [ht] at hf
  | true =>
    obtain rfl : s.link = link := by simpa [ht] using hf
    have hc : s.closed = false := by
      cases hc : s.closed with
      | false => rfl
      | true => simp [hw.settled hs hc] at ht
    -- The requests of the session stand together between those of the sessions around it.
    obtain ⟨front, back, hsplit⟩ := List.append_of_mem (Dictionary.get?_eq_some_iff.mp hs)
    have hrequests := (runs_finalize h).1
    rw [hsplit, List.flatMap_append, List.flatMap_cons] at hrequests
    obtain ⟨first, rest, rfl, -, hrest⟩ := List.map_eq_append_iff.mp hrequests
    simp only [Session.endings, hc, ht, Bool.false_eq_true, if_false, if_true] at hrest
    obtain ⟨settle, rest, rfl, hsettle, hrest⟩ := List.map_eq_cons_iff.mp hrest
    obtain ⟨close, rest, rfl, hclose, -⟩ := List.map_eq_cons_iff.mp hrest
    refine ⟨first, settle, close, rest, rfl, ?_, by rw [hclose]; rfl⟩
    rw [hsettle]
    split <;> rfl

/-- After a session has ended, its connection is left alone. -/
theorem History.silent {stages : List Stage} {c c' : Context} (h : History c stages c')
    (hw : c.WellFormed) {link : Link} (hlink : link ∈ c.dead) :
    ∀ e ∈ eventsOf stages, e.request.name? ≠ some link.name := by
  induction h with
  | nil c => exact fun e he => absurd he List.not_mem_nil
  | cons hstage hrest ih =>
    -- No stage concerns the connection, and none takes its session back.
    intro e he
    rcases List.mem_append.mp he with hfirst | hlater
    · cases hstage with
      | execute hrun =>
        exact (Services.advances_of_execute hw hrun).silent hfirst hlink
      | finalize hrun =>
        obtain ⟨name, s, hs, hc, hq⟩ := Context.mem_of_runs_finalize hrun hfirst
        rw [(Session.finishes_of_mem_endings hq).2.2, hw.named hs]
        -- A finalization skips the sessions that have ended.
        intro heq
        have hclosed := Context.closed_of_mem_dead hw hlink (Option.some.inj heq ▸ hs)
        rw [hc] at hclosed
        cases hclosed
    · cases hstage with
      | execute hrun =>
        have ha := Services.advances_of_execute hw hrun
        exact ih ha.wellFormed (ha.dead ▸ hlink) e hlater
      | finalize hrun =>
        obtain rfl := (Context.runs_finalize hrun).2
        refine ih hw.ended ?_ e hlater
        rw [Context.dead_ended]
        exact Context.mem_links_of_mem_dead hlink

/-- How the connections of a name live during a sequence of calls on a context. -/
structure Orderly (stages : List Stage) (name : String) : Prop where
  /-- At most one attempt to open the connection succeeds. -/
  opened_once : ((openings (eventsOf stages)).map Link.name).count name ≤ 1
  /-- At most one attempt to begin its transaction succeeds. -/
  begun_once : ((beginnings (eventsOf stages)).map Link.name).count name ≤ 1
  /-- Attempts to begin and statements lie between its opening and its closing. -/
  used_while_open : ∀ {before e after link}, eventsOf stages = before ++ e :: after →
    e.request.uses? = some link → link.name = name →
    link ∈ openings before ∧ link ∉ closings before
  /-- A finalization closes what was opened since the last one, in opening order. -/
  closed_in_order : ∀ {before events after}, stages = before ++ .finalize events :: after →
    closings events = unfinished before
  /-- The first finalization after the opening closes the connection once. -/
  closed_once : ∀ {before events after link}, stages = before ++ .finalize events :: after →
    link ∈ unfinished before → link.name = name → (closings events).count link = 1
  /-- From then on no call concerns the connection. -/
  left_alone : ∀ {before events after link}, stages = before ++ .finalize events :: after →
    link ∈ unfinished before → link.name = name →
    ∀ e ∈ eventsOf after, e.request.name? ≠ some name
  /-- A transaction that has begun is committed or rolled back once, right before the closing. -/
  settled_before_closing : ∀ {before events after link},
    stages = before ++ .finalize events :: after → link ∈ unfinished before → link.name = name →
    link ∈ beginnings (eventsOf before) → (settlements events).count link = 1 ∧
      ∃ front settle close back, events = front ++ settle :: close :: back ∧
        settle.request.settles? = some link ∧ close.request.closes? = some link
  /-- Where none has begun, nothing is committed or rolled back. -/
  not_settled : ∀ {before events after link}, stages = before ++ .finalize events :: after →
    link ∈ unfinished before → link.name = name → link ∉ beginnings (eventsOf before) →
    link ∉ settlements events
  /-- No other call commits, rolls back or closes. -/
  not_otherwise : ∀ {before stage after e link}, stages = before ++ stage :: after →
    e ∈ stage.events → e.request.settles? = some link ∨ e.request.closes? = some link →
    link.name = name → stage.isFinalize = true ∧ link ∈ unfinished before

/-- Whatever flows are executed in a context and whenever it is finalized, every connection is
opened, used and ended in order. -/
theorem orderly_of_history {stages : List Stage} {c : Context} (h : History {} stages c)
    (name : String) : Orderly stages name := by
  have hledger := ledger_of_history h
  -- Each finalization finds the ledger of the calls before it.
  have hfinalize : ∀ {before events after}, stages = before ++ .finalize events :: after →
      ∃ c1, Ledger before c1 ∧ Program.Runs c1.finalize events c1.ended ∧
        History c1.ended after c := by
    rintro before events after rfl
    obtain ⟨c1, hbefore, hrest⟩ := history_append_iff.mp h
    cases hrest with
    | cons hstage hafter =>
      cases hstage with
      | finalize hrun =>
        obtain rfl := (Context.runs_finalize hrun).2
        exact ⟨c1, ledger_of_history hbefore, hrun, hafter⟩
  -- A finalization closes what its context had live, and the ledger says what that was.
  have hclosings : ∀ {before events after}, stages = before ++ .finalize events :: after →
      closings events = unfinished before := by
    intro before events after hsplit
    obtain ⟨c1, hl, hrun, -⟩ := hfinalize hsplit
    rw [Context.closings_of_runs_finalize hrun, hl.live]
  constructor
  -- Each name has one session at most, and a session is never opened twice.
  case opened_once =>
    have hnodup := hledger.wellFormed.nodup_links
    rw [hledger.links] at hnodup
    exact List.nodup_iff_count_le_one.mp hnodup name
  case begun_once => exact List.nodup_iff_count_le_one.mp hledger.begun_nodup name
  case used_while_open => exact fun hsplit huse _ => hledger.uses hsplit huse
  case closed_in_order => exact hclosings
  case closed_once =>
    intro before events after link hsplit hlink _
    obtain ⟨c1, hl, hrun, -⟩ := hfinalize hsplit
    have hnodup : c1.live.Nodup := (hl.wellFormed.nodup_live).of_map Link.name
    rw [hclosings hsplit]
    rw [hl.live] at hnodup
    exact List.count_eq_one_of_mem hnodup hlink
  case left_alone =>
    rintro before events after link hsplit hlink rfl
    obtain ⟨c1, hl, hrun, hafter⟩ := hfinalize hsplit
    apply hafter.silent hl.wellFormed.ended
    rw [Context.dead_ended]
    exact Context.mem_links_of_mem_live (hl.live ▸ hlink)
  case settled_before_closing =>
    intro before events after link hsplit hlink _ hbegun
    obtain ⟨c1, hl, hrun, -⟩ := hfinalize hsplit
    have htransacting := (hl.transacting (hl.live ▸ hlink)).mpr hbegun
    have hnodup : c1.transacting.Nodup := (hl.wellFormed.nodup_transacting).of_map Link.name
    rw [Context.settlements_of_runs_finalize hl.wellFormed hrun]
    exact ⟨List.count_eq_one_of_mem hnodup htransacting,
      Context.settle_then_close hl.wellFormed hrun htransacting⟩
  case not_settled =>
    intro before events after link hsplit hlink _ hbegun
    obtain ⟨c1, hl, hrun, -⟩ := hfinalize hsplit
    rw [Context.settlements_of_runs_finalize hl.wellFormed hrun,
      hl.transacting (hl.live ▸ hlink)]
    exact hbegun
  case not_otherwise =>
    rintro before stage after e link rfl he hends _
    obtain ⟨c1, hbefore, hrest⟩ := history_append_iff.mp h
    have hl := ledger_of_history hbefore
    cases hrest with
    | cons hstage hafter =>
      cases hstage with
      | execute hrun =>
        -- A flow ends no transaction and no connection.
        have hquiet := (Services.advances_of_execute hl.wellFormed hrun).quiet he
        rw [Request.finishes_eq_false_iff] at hquiet
        rcases hends with hends | hends
        · simp [hquiet.1] at hends
        · simp [hquiet.2] at hends
      | @finalize _ _ events hrun =>
        refine ⟨rfl, ?_⟩
        rw [← hl.live]
        rcases hends with hends | hends
        · have hmem : link ∈ settlements events := List.mem_filterMap.mpr ⟨e, he, hends⟩
          rw [Context.settlements_of_runs_finalize hl.wellFormed hrun] at hmem
          exact Context.mem_live_of_mem_transacting hl.wellFormed hmem
        · have hmem : link ∈ closings events := List.mem_filterMap.mpr ⟨e, he, hends⟩
          rwa [Context.closings_of_runs_finalize hrun] at hmem

/-- The connection of the cart is begun once and, as its transaction has begun, settled. -/
theorem orderly_cart :
    Cart.link ∈ beginnings Cart.events ∧
      Orderly [.execute Cart.services "empty" .null Cart.events (.ok (.ofUInt64 1)),
        .finalize (Cart.endings (.ok ()) (.ok ()))] "main" :=
  ⟨List.mem_singleton.mpr rfl, orderly_of_history (Cart.history (.ok ()) (.ok ())) "main"⟩

end SqlService
