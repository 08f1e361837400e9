import SqlService.Proofs.Flow.History

/-!
# Moves of a context

Seen from its connections, a flow does little: it opens a connection that it has no session for,
begins the transaction of a session that has none, and runs statements on sessions that have not
ended.  `Moves` is what is made up of such steps and of bookkeeping, and every execution is one
(`moves_of_executed`).  Along the moves of a well-formed context the opened connections are added at
the end, those with a transaction are exactly the ones whose transactions have begun, and no request
concerns a session that has ended.
-/

namespace SqlService

open Program (Event)

/-! ## §1 Moves -/

/-- A step that makes one request. -/
inductive Move : Context → Event → Context → Prop where
  /-- The request concerns no connection. -/
  | aside {c : Context} {e : Event} (h : e.request.name? = none) : Move c e c
  /-- A connection is asked for and not given. -/
  | refused {c : Context} {name : String} {settings : Settings} {e : DataError}
      (h : c.session? name = none) : Move c ⟨.connect name settings, .error e⟩ c
  /-- A connection is opened, and with it a session that has done nothing yet. -/
  | opened {c : Context} {name database : String} {settings : Settings} {d : Dialect}
      (h : c.session? name = none) :
      Move c ⟨.connect name settings, .ok database⟩
        (c.set name { link := ⟨name, database⟩, dialect := d })
  /-- A transaction is asked for and not begun. -/
  | notBegun {c : Context} {name : String} {s : Session} {e : DataError}
      (h : c.session? name = some s) (hc : s.closed = false) (ht : s.inTransaction = false) :
      Move c ⟨.begin s.link, .error e⟩ c
  /-- A transaction is begun, on a session that is open and has none. -/
  | begun {c : Context} {name : String} {s : Session} (h : c.session? name = some s)
      (hc : s.closed = false) (ht : s.inTransaction = false) :
      Move c ⟨.begin s.link, .ok ()⟩ (c.set name { s with inTransaction := true })
  /-- A statement runs on a session that is open; its answer does not matter. -/
  | statement {c : Context} {name : String} {s : Session} {e : Event}
      (h : c.session? name = some s) (hc : s.closed = false)
      (he : e.request.statement? = some s.link) : Move c e c

/-- Steps one after another, with bookkeeping in between. -/
inductive Moves : Context → List Event → Context → Prop where
  | nil (c : Context) : Moves c [] c
  | cons {c c1 c2 : Context} {e : Event} {rest : List Event} (h : Move c e c1)
      (hrest : Moves c1 rest c2) : Moves c (e :: rest) c2
  /-- Statements are counted. -/
  | count {c c2 : Context} {events : List Event} {name : String} {s : Session} (readOnly : Bool)
      (n : Nat) (h : c.session? name = some s)
      (hrest : Moves (c.set name (s.record readOnly n)) events c2) : Moves c events c2
  /-- Every session is marked for rollback. -/
  | mark {c c2 : Context} {events : List Event} (hrest : Moves c.markErrored events c2) :
      Moves c events c2

/-- Moves follow one another. -/
theorem Moves.append {c c1 c2 : Context} {first rest : List Event} (h : Moves c first c1)
    (hrest : Moves c1 rest c2) : Moves c (first ++ rest) c2 := by
  induction h with
  | nil c => exact hrest
  | cons h _ ih => exact .cons h (ih hrest)
  | count readOnly n h _ ih => exact .count readOnly n h (ih hrest)
  | mark _ ih => exact .mark (ih hrest)

/-- Requests that concern no connection move nothing. -/
theorem moves_of_aside {c : Context} {events : List Event}
    (h : ∀ e ∈ events, e.request.name? = none) : Moves c events c := by
  induction events with
  | nil => exact .nil c
  | cons e events ih =>
    exact .cons (.aside (h e List.mem_cons_self)) (ih fun x hx => h x (List.mem_cons_of_mem _ hx))

/-- Statements on a session that is open move nothing, however many they are. -/
theorem moves_of_statements {c : Context} {name : String} {s : Session} {events : List Event}
    (hs : c.session? name = some s) (hc : s.closed = false)
    (h : ∀ e ∈ events, e.request.statement? = some s.link) : Moves c events c := by
  induction events with
  | nil => exact .nil c
  | cons e events ih =>
    exact .cons (.statement hs hc (h e List.mem_cons_self))
      (ih fun x hx => h x (List.mem_cons_of_mem _ hx))

/-- Entering a transaction neither ends a session nor changes its connection. -/
theorem Entry.frame {readOnly : Bool} {s s' : Session} {events : List Event}
    {r : Except FlowError Unit} (h : Entry readOnly s events r s') :
    s'.link = s.link ∧ s'.closed = s.closed := by
  cases h <;> exact ⟨rfl, rfl⟩

/-- The statements of a query move along its session after its transaction has been entered. -/
theorem moves_of_runQuery (c : Context) (name : String) {readOnly : Bool} {s s' : Session}
    {kind : ExecKind} {q : Query} {third last : List Event} {r : Except DataError (Json × Nat)}
    (he : Entry readOnly s third (.ok ()) s') (hc : s.closed = false)
    (h : Program.Runs (Services.runQuery kind q s.link).run last r) :
    Moves (c.set name s') last (c.set name s') := by
  refine moves_of_statements (s := s') (by rw [Context.session?_set, if_pos rfl])
    (he.frame.2.trans hc) fun e hmem => ?_
  rw [he.frame.1]
  exact (Services.runQuery_statements kind q s.link).1 last r h e hmem

/-- Opening a session is one move, or none if the session is there or the connection unknown. -/
theorem Opening.moves {services : Services} {name : String} {c c' : Context}
    {events : List Event} {r : Except FlowError Session}
    (h : Opening services name c events r c') : Moves c events c' := by
  cases h with
  | present s h => exact .nil c
  | unknown e h he => exact .nil c
  | refused settings e h hs => exact .cons (.refused h) (.nil c)
  | opened settings database p h hs hp => exact .cons (.opened h) (.nil _)

/-- Entering a transaction is one move, or none if the step needs no transaction or is in one. -/
theorem Entry.moves {readOnly : Bool} {s s' : Session} {name : String} {c : Context}
    {events : List Event} {r : Except FlowError Unit} (h : Entry readOnly s events r s')
    (hs : c.session? name = some s) : Moves c events (c.set name s') := by
  -- Where nothing is begun the session is set to itself.
  have hsame : Moves c [] (c.set name s) := by
    rw [Context.set_of_session? hs]
    exact .nil c
  cases h with
  | reading h => exact hsame
  | inside h ht => exact hsame
  | ended h ht hc => exact hsame
  | refused e h ht hc => exact .cons (.notBegun hs hc ht) hsame
  | begun h ht hc => exact .cons (.begun hs hc ht) (.nil _)

/-- The run of an SQL step moves through its stages: the expansion, the opening, the transaction,
the statements and the count. -/
theorem SqlRun.moves {services : Services} {service : String} {args : Record} {c c' : Context}
    {events : List Event} {r : Except FlowError Json}
    (h : SqlRun services service args c events r c') : Moves c events c' := by
  -- What stands before the opening only reads and writes the memory of expanded texts.
  have hprepared : ∀ {first : List Event} {item : Item} {sql : String} {parsed : SqlArgs},
      Prepared services service args first item sql parsed → Moves c first c := fun hp =>
    moves_of_aside (Fragment.expand_only _ _ _ _ _ hp.expanded)
  cases h with
  | unprepared _ e h => exact moves_of_aside fun x hx => Request.name?_of_isMemory (h x hx)
  | unopened hp ho => exact (hprepared hp).append ho.moves
  | unentered hp ho he => exact (hprepared hp).append (ho.moves.append (he.moves ho.session?))
  | ended hp ho he hc => exact (hprepared hp).append (ho.moves.append (he.moves ho.session?))
  -- The statement has run and failed: the last stage is the statements without the count.
  | @failed _ _ _ _ item _ _ _ c1 s s' hp ho he hc hs =>
    have hlast := moves_of_runQuery c1 item.connection he hc hs
    exact (hprepared hp).append (ho.moves.append ((he.moves ho.session?).append hlast))
  | @answered _ _ _ _ item _ _ _ count c1 s s' hp ho he hc hs =>
    have hlast := moves_of_runQuery c1 item.connection he hc hs
    -- The count is bookkeeping that follows the last statement.
    have hcount : Moves (c1.set item.connection s') []
        (c1.set item.connection (s'.record item.readOnly count)) := by
      apply Moves.count item.readOnly count (by rw [Context.session?_set, if_pos rfl])
      rw [Context.set_set]
      exact .nil _
    have htail := hlast.append hcount
    rw [List.append_nil] at htail
    exact (hprepared hp).append (ho.moves.append ((he.moves ho.session?).append htail))

/-- A turn of a flow is made up of moves. -/
theorem Turn.moves {services : Services} {c c' : Context} {events : List Event}
    {r : Except FlowError Unit} (h : Turn services c events r c') : Moves c events c' := by
  cases h with
  | look c => exact .cons (.aside rfl) (.nil _)
  | cancelled c => exact .cons (.aside rfl) (.nil _)
  | sql h => exact h.moves
  | call h hevents => exact moves_of_aside hevents
  | unrunnable c e h => exact .nil _

/-- The turns of a run that has not failed, one after another. -/
theorem Completed.moves {services : Services} {c c' : Context} {events : List Event}
    (h : Completed services c events c') : Moves c events c' := by
  induction h with
  | nil c => exact .nil c
  | cons h _ ih => exact h.moves.append ih

/-- An execution is made up of moves, and a failure ends in marking every session. -/
theorem Executed.moves {services : Services} {c c' : Context} {events : List Event}
    {r : Except FlowError Json} (h : Executed services c events r c') : Moves c events c' := by
  cases h with
  | completed v h => exact h.moves
  | @failed first last e c1 c2 h ht =>
    -- The mark is bookkeeping too, so it adds no event.
    have hmark : Moves c2 [] c2.markErrored := .mark (.nil _)
    have htail := ht.moves.append hmark
    rw [List.append_nil] at htail
    exact h.moves.append htail

/-! ## §2 Views of a context -/

namespace Context

/-- The sessions seen through a function, in opening order. -/
def view (f : Session → Option Link) (c : Context) : List Link :=
  c.sessions.entries.filterMap fun e => f e.2

variable {f : Session → Option Link} {c : Context} {name : String} {s s' : Session}

/-- A connection is seen exactly if some session shows it. -/
theorem mem_view_iff {l : Link} :
    l ∈ c.view f ↔ ∃ name s, c.session? name = some s ∧ f s = some l := by
  rw [view, List.mem_filterMap]
  constructor
  · rintro ⟨⟨n, s⟩, hmem, hf⟩
    exact ⟨n, s, Dictionary.get?_eq_some_iff.mpr hmem, hf⟩
  · rintro ⟨n, s, hs, hf⟩
    exact ⟨(n, s), Dictionary.get?_eq_some_iff.mp hs, hf⟩

/-- Where a session stands in its context, and what stands there after it is set. -/
theorem exists_entries_set (h : c.session? name = some s) :
    ∃ front back, c.sessions.entries = front ++ (name, s) :: back ∧
      ∀ s', (c.set name s').sessions.entries = front ++ (name, s') :: back := by
  obtain ⟨front, back, hsplit⟩ := List.append_of_mem (Dictionary.get?_eq_some_iff.mp h)
  exact ⟨front, back, hsplit, Dictionary.entries_insert_of_split hsplit⟩

/-- A new session stands behind all others. -/
theorem entries_set_of_none (h : c.session? name = none) (s : Session) :
    (c.set name s).sessions.entries = c.sessions.entries ++ [(name, s)] :=
  Entries.put_of_not_mem (Dictionary.get?_eq_none_iff.mp h)

/-- A change that the view does not show leaves the view as it is. -/
theorem view_set_of_eq (h : c.session? name = some s) (hf : f s' = f s) :
    (c.set name s').view f = c.view f := by
  -- The session is replaced in its place, so the sessions around it keep theirs.
  obtain ⟨front, back, hc, hset⟩ := exists_entries_set h
  rw [view, view, hset, hc]
  simp only [List.filterMap_append, List.filterMap_cons, hf]

/-- A new session is seen behind all others, if it is seen at all. -/
theorem view_set_of_none (h : c.session? name = none) :
    (c.set name s).view f = c.view f ++ (f s).toList := by
  rw [view, view, entries_set_of_none h, List.filterMap_append]
  cases hf : f s <;> simp [hf]

/-- A session that was not seen and now is adds its connection, in its place and so up to order. -/
theorem view_set_perm {l : Link} (h : c.session? name = some s) (hf : f s = none)
    (hf' : f s' = some l) : ((c.set name s').view f).Perm (c.view f ++ [l]) := by
  obtain ⟨front, back, hc, hset⟩ := exists_entries_set h
  rw [view, view, hset, hc]
  simp only [List.filterMap_append, List.filterMap_cons, hf, hf', List.append_assoc]
  exact List.Perm.append_left _ (List.perm_append_singleton l _).symm

/-- A change of all sessions that the view does not show leaves the view as it is. -/
theorem view_map {g : Session → Session} (hf : ∀ s, f (g s) = f s) :
    (Context.mk (c.sessions.map g)).view f = c.view f := by
  simp [view, Dictionary.map, List.filterMap_map, hf]

/-- The connections of all sessions. -/
def links (c : Context) : List Link := c.view fun s => some s.link

/-- The connections of the sessions that have not ended. -/
def live (c : Context) : List Link := c.view fun s => if s.closed then none else some s.link

/-- The connections of the sessions that have ended. -/
def dead (c : Context) : List Link := c.view fun s => if s.closed then some s.link else none

/-- The connections with an open transaction. -/
def transacting (c : Context) : List Link :=
  c.view fun s => if s.inTransaction then some s.link else none

/-- Every session stands under the name of its connection, and one that has ended has no
transaction. -/
structure WellFormed (c : Context) : Prop where
  named : ∀ {name s}, c.session? name = some s → s.link.name = name
  settled : ∀ {name s}, c.session? name = some s → s.closed = true → s.inTransaction = false

theorem WellFormed.nodup_view (hw : c.WellFormed) (hf : ∀ s l, f s = some l → l = s.link) :
    ((c.view f).map Link.name).Nodup := by
  -- Every session adds its own name or nothing.
  have hsub : ∀ es : List (String × Session), (∀ e ∈ es, e.2.link.name = e.1) →
      ((es.filterMap fun e => f e.2).map Link.name).Sublist (es.map Prod.fst) := by
    intro es
    induction es with
    | nil => exact fun _ => .slnil
    | cons e es ih =>
      intro hnames
      have htail := ih fun x hx => hnames x (List.mem_cons_of_mem _ hx)
      cases he : f e.2 with
      | none => simpa [List.filterMap_cons, he] using htail.cons e.1
      | some l =>
        have hl : l.name = e.1 := by rw [hf e.2 l he, hnames e List.mem_cons_self]
        simpa [List.filterMap_cons, he, hl] using htail.cons_cons e.1
  refine List.Nodup.sublist (hsub c.sessions.entries fun e he => ?_) c.sessions.distinct
  exact hw.named (Dictionary.get?_eq_some_iff.mpr he)

/-- The sessions of a context that is changed as a whole are the changed sessions. -/
theorem exists_of_session?_map {g : Session → Session}
    (h : (Context.mk (c.sessions.map g)).session? name = some s) :
    ∃ s0, c.session? name = some s0 ∧ s = g s0 := by
  have hget : (c.session? name).map g = some s := (Dictionary.get?_map _ _ _).symm.trans h
  obtain ⟨s0, hs0, rfl⟩ := Option.map_eq_some_iff.mp hget
  exact ⟨s0, hs0, rfl⟩

theorem WellFormed.map {g : Session → Session} (hw : c.WellFormed)
    (hlink : ∀ s, (g s).link = s.link)
    (hsettled : ∀ s : Session, (s.closed = true → s.inTransaction = false) →
      (g s).closed = true → (g s).inTransaction = false) :
    (Context.mk (c.sessions.map g)).WellFormed := by
  constructor
  · intro name s hs
    obtain ⟨s0, hs0, rfl⟩ := exists_of_session?_map hs
    rw [hlink, hw.named hs0]
  · intro name s hs
    obtain ⟨s0, hs0, rfl⟩ := exists_of_session?_map hs
    exact hsettled s0 (hw.settled hs0)

/-- No two sessions have connections of one name. -/
theorem WellFormed.nodup_links {c : Context} (hw : c.WellFormed) :
    (c.links.map Link.name).Nodup :=
  hw.nodup_view fun _ _ hl => (Option.some.inj hl).symm

/-- No two sessions that have not ended have connections of one name. -/
theorem WellFormed.nodup_live {c : Context} (hw : c.WellFormed) :
    (c.live.map Link.name).Nodup :=
  hw.nodup_view fun s _ hl => by cases hc : s.closed <;> simp_all

/-- No two sessions with a transaction have connections of one name. -/
theorem WellFormed.nodup_transacting {c : Context} (hw : c.WellFormed) :
    (c.transacting.map Link.name).Nodup :=
  hw.nodup_view fun s _ hl => by cases ht : s.inTransaction <;> simp_all

theorem session?_empty (name : String) : ({} : Context).session? name = none := rfl

theorem WellFormed.empty : WellFormed {} := by
  constructor <;>
  · intro name s h
    rw [session?_empty] at h
    cases h

end Context

/-! ## §3 What moves leave -/

theorem openings_append (first rest : List Event) :
    openings (first ++ rest) = openings first ++ openings rest :=
  List.filterMap_append

theorem beginnings_append (first rest : List Event) :
    beginnings (first ++ rest) = beginnings first ++ beginnings rest :=
  List.filterMap_append

/-- A place in a composite list lies in its first part or in its second. -/
theorem split_append {α : Type} {first rest before after : List α} {e : α}
    (h : first ++ rest = before ++ e :: after) :
    (∃ middle, first = before ++ e :: middle) ∨
      ∃ middle, before = first ++ middle ∧ rest = middle ++ e :: after := by
  rcases List.append_eq_append_iff.mp h with ⟨middle, rfl, hrest⟩ | ⟨middle, rfl, hrest⟩
  · exact .inr ⟨middle, rfl, hrest⟩
  · cases middle with
    | nil => exact .inr ⟨[], by simp, hrest.symm⟩
    | cons x middle =>
      obtain ⟨rfl, -⟩ := List.cons.inj hrest
      exact .inl ⟨middle, rfl⟩

/-- What the events on the way from one context to another have done to its connections. -/
structure Advances (c : Context) (events : List Event) (c' : Context) : Prop where
  wellFormed : c'.WellFormed
  links : c'.links = c.links ++ openings events
  live : c'.live = c.live ++ openings events
  dead : c'.dead = c.dead
  transacting : c'.transacting.Perm (c.transacting ++ beginnings events)
  /-- Whatever works on a connection works on one that is open. -/
  uses : ∀ {before e after link}, events = before ++ e :: after → e.request.uses? = some link →
    link ∈ c.live ++ openings before
  /-- A connection whose session has ended is left alone. -/
  silent : ∀ {e link}, e ∈ events → link ∈ c.dead → e.request.name? ≠ some link.name
  quiet : ∀ {e}, e ∈ events → e.request.finishes = false

/-- Nothing happens on the way to the context itself. -/
theorem Advances.refl {c : Context} (hw : c.WellFormed) : Advances c [] c where
  wellFormed := hw
  links := (List.append_nil _).symm
  live := (List.append_nil _).symm
  dead := rfl
  transacting := by rw [show beginnings [] = [] from rfl, List.append_nil]
  uses h := absurd h (by simp)
  silent h := absurd h List.not_mem_nil
  quiet h := absurd h List.not_mem_nil

/-- Ways follow one another. -/
theorem Advances.append {c c1 c2 : Context} {first rest : List Event} (h : Advances c first c1)
    (hrest : Advances c1 rest c2) : Advances c (first ++ rest) c2 where
  wellFormed := hrest.wellFormed
  links := by rw [hrest.links, h.links, openings_append, List.append_assoc]
  live := by rw [hrest.live, h.live, openings_append, List.append_assoc]
  dead := hrest.dead.trans h.dead
  transacting := by
    rw [beginnings_append, ← List.append_assoc]
    exact hrest.transacting.trans (h.transacting.append_right _)
  uses := by
    intro before e after link hsplit huse
    rcases split_append hsplit with ⟨middle, hfirst⟩ | ⟨middle, rfl, hsecond⟩
    · exact h.uses hfirst huse
    · -- What the first part has opened is live when the second one starts.
      have := hrest.uses hsecond huse
      rwa [h.live, List.append_assoc, ← openings_append] at this
  silent := by
    intro e link hmem hdead
    rcases List.mem_append.mp hmem with hmem | hmem
    · exact h.silent hmem hdead
    · exact hrest.silent hmem (h.dead ▸ hdead)
  quiet := by
    intro e hmem
    rcases List.mem_append.mp hmem with hmem | hmem
    · exact h.quiet hmem
    · exact hrest.quiet hmem

/-- The way of one event, from what the event says about its connection. -/
theorem Advances.single {c c' : Context} {e : Event} (hw : c'.WellFormed)
    (hlinks : c'.links = c.links ++ e.opens?.toList) (hlive : c'.live = c.live ++ e.opens?.toList)
    (hdead : c'.dead = c.dead)
    (htransacting : c'.transacting.Perm (c.transacting ++ e.begins?.toList))
    (huse : ∀ link, e.request.uses? = some link → link ∈ c.live)
    (hsilent : ∀ link ∈ c.dead, e.request.name? ≠ some link.name)
    (hquiet : e.request.finishes = false) : Advances c [e] c' := by
  have hopenings : openings [e] = e.opens?.toList := by
    cases h : e.opens? <;> simp [openings, h]
  have hbeginnings : beginnings [e] = e.begins?.toList := by
    cases h : e.begins? <;> simp [beginnings, h]
  refine ⟨hw, hopenings ▸ hlinks, hopenings ▸ hlive, hdead, hbeginnings ▸ htransacting, ?_, ?_, ?_⟩
  -- A place in a list of one event is that event, with nothing before it.
  · intro before x after link hsplit hx
    rcases List.cons_eq_append_iff.mp hsplit with ⟨rfl, hcons⟩ | ⟨middle, rfl, hnil⟩
    · obtain ⟨rfl, -⟩ := List.cons.inj hcons
      exact List.mem_append_left _ (huse link hx)
    · simp at hnil
  · intro x link hmem
    rw [List.mem_singleton.mp hmem]
    exact hsilent link
  · intro x hmem
    rw [List.mem_singleton.mp hmem]
    exact hquiet

/-- An event that changes nothing about connections. -/
theorem Advances.idle {c : Context} {e : Event} (hw : c.WellFormed) (hopen : e.opens? = none)
    (hbegin : e.begins? = none) (huse : ∀ link, e.request.uses? = some link → link ∈ c.live)
    (hsilent : ∀ link ∈ c.dead, e.request.name? ≠ some link.name)
    (hquiet : e.request.finishes = false) : Advances c [e] c :=
  .single hw (by simp [hopen]) (by simp [hopen]) rfl (by simp [hbegin]) huse hsilent hquiet

namespace Context

variable {c : Context} {name : String} {s : Session}

/-- The connection of a session that has not ended is live. -/
theorem mem_live (h : c.session? name = some s) (hc : s.closed = false) : s.link ∈ c.live :=
  mem_view_iff.mpr ⟨name, s, h, by simp [hc]⟩

/-- The connection of a session that has ended stands under its name. -/
theorem session?_of_mem_dead (hw : c.WellFormed) {link : Link} (h : link ∈ c.dead) :
    ∃ s, c.session? link.name = some s ∧ s.closed = true := by
  obtain ⟨name, s, hs, hf⟩ := mem_view_iff.mp h
  cases hc : s.closed with
  | true =>
    obtain rfl : s.link = link := by simpa [hc] using hf
    rw [hw.named hs]
    exact ⟨s, hs, hc⟩
  | false => simp [hc] at hf

/-- A session under the name of an ended connection has ended: a name has one session only. -/
theorem closed_of_mem_dead (hw : c.WellFormed) {link : Link} (hlink : link ∈ c.dead)
    (h : c.session? link.name = some s) : s.closed = true := by
  obtain ⟨s0, hs0, hc0⟩ := session?_of_mem_dead hw hlink
  rw [h] at hs0
  cases hs0
  exact hc0

/-- Setting a session under the name of its connection keeps the context well-formed. -/
theorem WellFormed.set (hw : c.WellFormed) (hname : s.link.name = name)
    (hsettled : s.closed = true → s.inTransaction = false) : (c.set name s).WellFormed := by
  constructor
  -- Under the name itself stands the new session, under any other name what stood there before.
  · intro n s0 h
    rw [session?_set] at h
    split at h
    · next heq =>
      cases h
      exact hname.trans heq.symm
    · exact hw.named h
  · intro n s0 h
    rw [session?_set] at h
    split at h
    · cases h
      exact hsettled
    · exact hw.settled h

end Context

/-- One move advances a well-formed context. There is one case for each kind of move; what all of
them need is that an ended connection and an open one never share a name. -/
theorem Move.advances {c c' : Context} {e : Event} (hw : c.WellFormed) (h : Move c e c') :
    Advances c [e] c' := by
  -- The connection of an open session is not that of one that has ended.
  have hdead : ∀ {name s}, c.session? name = some s → s.closed = false →
      ∀ link ∈ c.dead, some s.link.name ≠ some link.name := by
    intro name s hs hc link hlink heq
    have hsession : c.session? link.name = some s := by
      rw [← Option.some.inj heq, hw.named hs]
      exact hs
    have hclosed := Context.closed_of_mem_dead hw hlink hsession
    rw [hc] at hclosed
    cases hclosed
  -- A session that has ended still stands under its name.
  have hfresh : ∀ {name}, c.session? name = none → ∀ link ∈ c.dead, some name ≠ some link.name := by
    intro name hnone link hlink heq
    obtain ⟨s0, hs0, -⟩ := Context.session?_of_mem_dead hw hlink
    rw [← Option.some.inj heq, hnone] at hs0
    cases hs0
  cases h with
  -- The request has no name, so it opens nothing, begins nothing and uses nothing.
  | aside h =>
    refine .idle hw ?_ ?_ (fun link huse => ?_) (fun link _ => by simp [h]) ?_
    · cases hopen : e.opens? with
      | none => rfl
      | some l => simp [Event.name?_of_opens? hopen] at h
    · cases hbegin : e.begins? with
      | none => rfl
      | some l => simp [Request.name?_of_uses? (Event.uses?_of_begins? hbegin)] at h
    · simp [Request.name?_of_uses? huse] at h
    · exact Request.finishes_of_name?_eq_none h
  | refused h => exact .idle hw rfl rfl (fun _ hlink => by cases hlink) (hfresh h) rfl
  -- The new session stands behind the others in every view; it is neither ended nor in a
  -- transaction.
  | opened h =>
    refine .single (hw.set rfl (fun hc => by cases hc)) (Context.view_set_of_none h)
      (Context.view_set_of_none h) ?_ ?_ (fun _ hlink => by cases hlink) (hfresh h) rfl
    · exact (Context.view_set_of_none h).trans (List.append_nil _)
    · rw [Context.transacting, Context.view_set_of_none h]
      exact .refl _
  -- A `begin` uses the connection even where it fails.
  | notBegun h hc ht =>
    refine .idle hw rfl rfl (fun link hlink => ?_) (hdead h hc) rfl
    cases hlink
    exact Context.mem_live h hc
  | @begun name s h hc ht =>
    have hname := hw.named h
    -- Only the open transactions change.
    have hview : ∀ f : Session → Option Link, f { s with inTransaction := true } = f s →
        (c.set name { s with inTransaction := true }).view f = c.view f := fun f hf =>
      Context.view_set_of_eq h hf
    refine .single (hw.set hname fun hclosed => absurd hclosed (by simp [hc])) ?_ ?_ ?_ ?_
      (fun link hlink => ?_) (hdead h hc) rfl
    · exact (hview (fun s => some s.link) rfl).trans (List.append_nil _).symm
    · exact (hview (fun s => if s.closed then none else some s.link) rfl).trans
        (List.append_nil _).symm
    · exact hview (fun s => if s.closed then some s.link else none) rfl
    · exact Context.view_set_perm h (by simp [ht]) rfl
    · cases hlink
      exact Context.mem_live h hc
  -- A statement is no `connect` and no `begin`.
  | statement h hc he =>
    refine .idle hw ?_ ?_ (fun link hlink => ?_) ?_ (Request.finishes_of_statement? he)
    · obtain ⟨q, reply⟩ := e
      cases q <;> first | rfl | cases he
    · obtain ⟨q, reply⟩ := e
      cases q <;> first | rfl | cases he
    · obtain rfl := Option.some.inj ((Request.uses?_of_statement? he).symm.trans hlink)
      exact Context.mem_live h hc
    · rw [Request.name?_of_statement? he]
      exact hdead h hc

/-- A connection that is opened on the way was not there at its start. -/
theorem Advances.not_mem_links {c c' : Context} {events : List Event} (h : Advances c events c')
    {link : Link} (hopen : link ∈ openings events) : link ∉ c.links := by
  intro hold
  have hnodup := h.wellFormed.nodup_links
  rw [h.links, List.map_append, List.nodup_append] at hnodup
  exact hnodup.2.2 _ (List.mem_map_of_mem hold) _ (List.mem_map_of_mem hopen) rfl

/-- Bookkeeping does not show in what the connections have gone through. -/
theorem Advances.of_views {c c1 c2 : Context} {events : List Event} (h : Advances c1 events c2)
    (hviews : ∀ f : Session → Option Link,
      (∀ s s', s'.link = s.link → s'.closed = s.closed → s'.inTransaction = s.inTransaction →
        f s' = f s) → c1.view f = c.view f) : Advances c events c2 := by
  have hlinks : c1.links = c.links := hviews _ fun s s' hl _ _ => by rw [hl]
  have hlive : c1.live = c.live := hviews _ fun s s' hl hc _ => by rw [hl, hc]
  have hdead : c1.dead = c.dead := hviews _ fun s s' hl hc _ => by rw [hl, hc]
  have htransacting : c1.transacting = c.transacting := hviews _ fun s s' hl _ ht => by rw [hl, ht]
  exact ⟨h.wellFormed, hlinks ▸ h.links, hlive ▸ h.live, hdead ▸ h.dead,
    htransacting ▸ h.transacting, hlive ▸ h.uses, hdead ▸ h.silent, h.quiet⟩

/-- Moves advance a well-formed context: by induction on the moves, each step keeping the context
well-formed for those that follow. -/
theorem Moves.advances {c c' : Context} {events : List Event} (hw : c.WellFormed)
    (h : Moves c events c') : Advances c events c' := by
  induction h with
  | nil c => exact .refl hw
  -- The rest starts from the context that the step has led to.
  | cons h _ ih => exact (h.advances hw).append (ih (h.advances hw).wellFormed)
  -- Counting changes neither the connection nor the state of its transaction.
  | @count c _ _ name s readOnly n hs _ ih =>
    have hname := hw.named hs
    have hsettled := hw.settled hs
    have hw' : (c.set name (s.record readOnly n)).WellFormed := hw.set hname hsettled
    exact (ih hw').of_views fun f hf => Context.view_set_of_eq hs (hf _ _ rfl rfl rfl)
  | @mark c _ _ _ ih =>
    have hw' : c.markErrored.WellFormed := hw.map (fun _ => rfl) fun _ => id
    exact (ih hw').of_views fun f hf => Context.view_map fun s => hf _ _ rfl rfl rfl

/-- What an execution leaves of the connections, whatever its outcome. -/
theorem Services.advances_of_execute {services : Services} {name : String} {input : Json}
    {c c' : Context} {events : List Event} {r : Except FlowError Json} (hw : c.WellFormed)
    (h : FlowM.Runs (services.execute name input) c events r c') : Advances c events c' :=
  (executed_of_runs h).moves.advances hw

end SqlService
