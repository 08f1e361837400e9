import SqlService.Proofs.Flow.Trace

/-!
# Writing in transactions

An SQL step whose item does not only read begins the transaction of its session before its first
statement, and nothing but the end of the run settles it.  So everything that is written on a
connection during a run, at any depth of nesting, falls in one transaction, and a connection that is
only read from never has one.  Along an account both follow from what each step does: `Covers` says
which connections may be written on, and is put together from the parts of a step.

Main statement: `writes_in_one_transaction`.
-/

namespace SqlService

open Program (Event)

/-! ## §1 Acts that write -/

namespace Request

/-- The connection whose transaction a request begins, commits or rolls back. -/
def transacts? : Request → Option Link
  | begin l => some l
  | q => q.settles?

/-- What concerns a transaction and does not settle it uses the connection. -/
theorem uses?_of_transacts? {q : Request} {l : Link} (h : q.transacts? = some l)
    (hq : q.settles? = none) : q.uses? = some l := by
  cases q <;> simp_all [transacts?, settles?, uses?]

/-- Settling a transaction concerns it. -/
theorem transacts?_of_settles? {q : Request} {l : Link} (h : q.settles? = some l) :
    q.transacts? = some l := by
  cases q <;> simp_all [transacts?, settles?]

end Request

/-- Beginning a transaction concerns it. -/
theorem Program.Event.transacts?_of_begins? {e : Event} {l : Link} (h : e.begins? = some l) :
    e.request.transacts? = some l := by
  obtain ⟨q, reply⟩ := e
  cases q with
  | begin link =>
    cases reply with
    | ok u => exact h
    | error e => cases h
  | _ => cases h

namespace Act

/-- Whether the act happens for an item that does not only read. -/
def forWriting (a : Act) : Bool := a.item.any fun i => !i.readOnly

/-- The connection that a statement for such an item runs on. -/
def writes? (a : Act) : Option Link := if a.forWriting then a.request.statement? else none

/-- An act writes if it is for a writing item and runs a statement. -/
theorem writes?_eq_some_iff {a : Act} {l : Link} :
    a.writes? = some l ↔ a.forWriting = true ∧ a.request.statement? = some l := by
  simp [writes?]

/-- The acts for an item are the events with the item beside them. -/
theorem mem_forItem {item : Option Item} {events : List Event} {a : Act} :
    a ∈ forItem item events ↔ a.event ∈ events ∧ a.item = item := by
  rw [forItem, List.mem_map]
  constructor
  · rintro ⟨e, he, rfl⟩
    exact ⟨he, rfl⟩
  · rintro ⟨he, rfl⟩
    exact ⟨a.event, he, rfl⟩

/-- An act on the way through some acts for one item. -/
theorem of_forItem_eq {item : Option Item} {events : List Event} {before after : List Act}
    {a : Act} (h : forItem item events = before ++ a :: after) :
    a.event ∈ events ∧ a.item = item := by
  apply mem_forItem.mp
  rw [h]
  exact List.mem_append_right _ List.mem_cons_self

/-- The acts of two stretches for one item. -/
theorem forItem_append (item : Option Item) (first rest : List Event) :
    forItem item (first ++ rest) = forItem item first ++ forItem item rest :=
  List.map_append

end Act

/-! ## §2 What the acts of a flow cover -/

/-- The acts lead from one context to the other, each uses the connection of its item only, they
write where a transaction is open, and only for writing do they open one. -/
structure Covers (c : Context) (acts : List Act) (c' : Context) : Prop where
  advances : Advances c (acts.map Act.event) c'
  used : ∀ {a link}, a ∈ acts → a.request.uses? = some link →
    ∃ item, a.item = some item ∧ item.connection = link.name
  written : ∀ {before a after link}, acts = before ++ a :: after → a.writes? = some link →
    link ∈ c.transacting ++ beginnings (before.map Act.event)
  entered : ∀ {a link}, a ∈ acts → a.request.transacts? = some link → a.forWriting = true

namespace Covers

variable {c c1 c' : Context} {acts rest : List Act}

/-- Stretches that follow one another cover what both cover. -/
theorem append (h : Covers c acts c1) (hrest : Covers c1 rest c') : Covers c (acts ++ rest) c' where
  advances := by
    rw [List.map_append]
    exact h.advances.append hrest.advances
  used := by
    intro a link hmem huse
    rcases List.mem_append.mp hmem with hmem | hmem
    · exact h.used hmem huse
    · exact hrest.used hmem huse
  written := by
    intro before a after link hsplit hwrite
    -- An act of the first part has only acts of that part before it.
    rcases split_append hsplit with ⟨middle, hfirst⟩ | ⟨middle, rfl, hsecond⟩
    · exact h.written hfirst hwrite
    -- For an act of the second part the whole first part lies before.
    · -- What is open after the first part was open before it or has begun in it.
      have hopen := hrest.written hsecond hwrite
      rw [List.mem_append, h.advances.transacting.mem_iff, ← List.mem_append] at hopen
      rwa [List.map_append, beginnings_append, ← List.append_assoc]
  entered := by
    intro a link hmem htransacts
    rcases List.mem_append.mp hmem with hmem | hmem
    · exact h.entered hmem htransacts
    · exact hrest.entered hmem htransacts

/-- Events that use no connection. -/
theorem idle {item : Option Item} {events : List Event} (ha : Advances c events c')
    (h : ∀ e ∈ events, e.request.uses? = none) : Covers c (Act.forItem item events) c' where
  advances := by rwa [Act.event_forItem]
  used := by
    -- All four demands speak of acts that use a connection, and there are none.
    intro a link hmem huse
    rw [Act.request, h _ (Act.mem_forItem.mp hmem).1] at huse
    cases huse
  written := by
    intro before a after link hsplit hwrite
    have huse := Request.uses?_of_statement? (Act.writes?_eq_some_iff.mp hwrite).2
    rw [Act.request, h _ (Act.of_forItem_eq hsplit).1] at huse
    cases huse
  entered := by
    intro a link hmem htransacts
    have he := (Act.mem_forItem.mp hmem).1
    have hquiet := (Request.finishes_eq_false_iff.mp (ha.quiet he)).1
    have huse := Request.uses?_of_transacts? htransacts hquiet
    rw [Act.request, h _ he] at huse
    cases huse

/-- Nothing covers nothing. -/
theorem refl (hw : c.WellFormed) : Covers c [] c := by
  show Covers c (Act.forItem none []) c
  exact idle (.refl hw) fun _ h => absurd h List.not_mem_nil

/-- Events that concern no connection. -/
theorem aside {item : Option Item} {events : List Event} (hw : c.WellFormed)
    (h : ∀ e ∈ events, e.request.name? = none) : Covers c (Act.forItem item events) c :=
  idle ((moves_of_aside h).advances hw) fun e he => Request.uses?_of_name?_eq_none (h e he)

/-- Statements on a session, which has a transaction if the item does not only read. -/
theorem statements {item : Item} {events : List Event} {s : Session} (hw : c.WellFormed)
    (hs : c.session? item.connection = some s) (hc : s.closed = false)
    (ht : item.readOnly = false → s.inTransaction = true)
    (h : ∀ e ∈ events, e.request.statement? = some s.link) :
    Covers c (Act.forItem (some item) events) c where
  advances := by
    rw [Act.event_forItem]
    exact (moves_of_statements hs hc h).advances hw
  used := by
    intro a link hmem huse
    obtain ⟨he, hitem⟩ := Act.mem_forItem.mp hmem
    obtain rfl := Option.some.inj ((Request.uses?_of_statement? (h _ he)).symm.trans huse)
    exact ⟨item, hitem, (hw.named hs).symm⟩
  written := by
    intro before a after link hsplit hwrite
    obtain ⟨he, hitem⟩ := Act.of_forItem_eq hsplit
    obtain ⟨hforWriting, hstatement⟩ := Act.writes?_eq_some_iff.mp hwrite
    obtain rfl := Option.some.inj ((h _ he).symm.trans hstatement)
    have hwriting : item.readOnly = false := by simpa [Act.forWriting, hitem] using hforWriting
    -- The session of the statement is in a transaction, and no other one is written on.
    refine List.mem_append_left _ (Context.mem_view_iff.mpr ⟨_, s, hs, ?_⟩)
    rw [if_pos (ht hwriting)]
  entered := by
    intro a link hmem htransacts
    -- A statement neither begins nor settles.
    have hstatement := h _ (Act.mem_forItem.mp hmem).1
    rw [← Act.request] at hstatement
    cases hq : a.request <;> simp_all [Request.statement?, Request.transacts?, Request.settles?]

/-- Asking for a session. -/
theorem opening {services : Services} {name : String} {item : Option Item} {events : List Event}
    {r : Except FlowError Session} (hw : c.WellFormed)
    (h : Opening services name c events r c') : Covers c (Act.forItem item events) c' := by
  refine idle (h.moves.advances hw) fun e he => ?_
  -- Only the request for the connection is made, and that uses none yet.
  cases h with
  | present | unknown => cases he
  | refused | opened =>
    rw [List.mem_singleton.mp he]
    rfl

/-- Entering the transaction of a session. -/
theorem entry {item : Item} {s s' : Session} {events : List Event} {r : Except FlowError Unit}
    (hw : c.WellFormed) (hs : c.session? item.connection = some s)
    (h : Entry item.readOnly s events r s') :
    Covers c (Act.forItem (some item) events) (c.set item.connection s') := by
  have ha := (h.moves hs).advances hw
  -- The only event there may be is the beginning, and only for an item that writes.
  have hbegin : ∀ e ∈ events, e.request = .begin s.link ∧ item.readOnly = false := by
    intro e he
    cases h with
    | reading | inside | ended => cases he
    | refused _ hwriting | begun hwriting =>
      rw [List.mem_singleton.mp he]
      exact ⟨rfl, hwriting⟩
  constructor
  case advances => rwa [Act.event_forItem]
  case used =>
    intro a link hmem huse
    obtain ⟨he, hitem⟩ := Act.mem_forItem.mp hmem
    rw [Act.request, (hbegin _ he).1] at huse
    cases huse
    exact ⟨item, hitem, (hw.named hs).symm⟩
  case written =>
    intro before a after link hsplit hwrite
    have hstatement := (Act.writes?_eq_some_iff.mp hwrite).2
    rw [Act.request, (hbegin _ (Act.of_forItem_eq hsplit).1).1] at hstatement
    cases hstatement
  case entered =>
    intro a link hmem _
    obtain ⟨he, hitem⟩ := Act.mem_forItem.mp hmem
    simp [Act.forWriting, hitem, (hbegin _ he).2]

end Covers

/-- An item that does not only read is in a transaction once it has entered. -/
theorem Entry.inTransaction {readOnly : Bool} {s s' : Session} {events : List Event}
    (h : Entry readOnly s events (.ok ()) s') (hwriting : readOnly = false) :
    s'.inTransaction = true := by
  cases h with
  | reading hreading => simp [hreading] at hwriting
  | inside _ ht => exact ht
  | begun => rfl

/-! ## §3 What a run covers -/

/-- Bookkeeping after the last act changes nothing. -/
theorem Covers.kept {c c1 c' : Context} {acts : List Act} (h : Covers c acts c1)
    (hkept : Moves c1 [] c') : Covers c acts c' := by
  have hidle : Covers c1 (Act.forItem none []) c' :=
    .idle (hkept.advances h.advances.wellFormed) fun _ he => absurd he List.not_mem_nil
  have hall := h.append hidle
  rwa [show Act.forItem none [] = [] from rfl, List.append_nil] at hall

namespace Prepared

variable {services : Services} {service : String} {args : Record} {c c1 : Context}
  {first second third : List Event} {item : Item} {sql : String} {parsed : SqlArgs}

/-- The item of a prepared step is the one under its name. -/
theorem get?_eq (h : Prepared services service args first item sql parsed) :
    services.items.get? service = some item := by
  have hitem := h.item_eq
  rw [Services.item, Item.named] at hitem
  split at hitem
  · next heq =>
    cases hitem
    exact heq
  · cases hitem

/-- The acts of an SQL step until it has its session. -/
theorem covers_opening {r : Except FlowError Session} (hw : c.WellFormed)
    (h : Prepared services service args first item sql parsed)
    (ho : Opening services item.connection c second r c1) :
    Covers c (Act.forItem (some item) (first ++ second)) c1 := by
  have hfirst : Covers c (Act.forItem (some item) first) c :=
    -- Expanding the item concerns no connection.
    .aside hw (Fragment.expand_only _ _ _ _ _ h.expanded)
  rw [Act.forItem_append]
  exact hfirst.append (.opening hw ho)

/-- The acts of an SQL step until it has entered the transaction of its session. -/
theorem covers_entry {s s' : Session} {r : Except FlowError Unit} (hw : c.WellFormed)
    (h : Prepared services service args first item sql parsed)
    (ho : Opening services item.connection c second (.ok s) c1)
    (he : Entry item.readOnly s third r s') :
    Covers c (Act.forItem (some item) (first ++ (second ++ third)))
      (c1.set item.connection s') := by
  have hopening := h.covers_opening hw ho
  rw [← List.append_assoc, Act.forItem_append]
  exact hopening.append (.entry hopening.advances.wellFormed ho.session? he)

/-- All the acts of an SQL step that gets to its statements. -/
theorem covers_statements {s s' : Session} {last : List Event}
    {r : Except DataError (Json × Nat)} (hw : c.WellFormed)
    (h : Prepared services service args first item sql parsed)
    (ho : Opening services item.connection c second (.ok s) c1)
    (he : Entry item.readOnly s third (.ok ()) s') (hc : s.closed = false)
    (hs : (Services.runQuery item.kind (Services.stepQuery s.dialect sql parsed)
      s.link).run.Runs last r) :
    Covers c (Act.forItem (some item) (first ++ (second ++ (third ++ last))))
      (c1.set item.connection s') := by
  have hentry := h.covers_entry hw ho he
  -- The statements come last, on the session as the transaction has left it.
  have hassoc : first ++ (second ++ (third ++ last)) = (first ++ (second ++ third)) ++ last := by
    simp only [List.append_assoc]
  have hsession : (c1.set item.connection s').session? item.connection = some s' := by
    rw [Context.session?_set, if_pos rfl]
  rw [hassoc, Act.forItem_append]
  refine hentry.append (.statements hentry.advances.wellFormed hsession (he.frame.2.trans hc)
    he.inTransaction fun e hmem => ?_)
  rw [he.frame.1]
  exact (Services.runQuery_statements _ _ _).1 last r hs e hmem

end Prepared

/-- The acts of an SQL step are for its item, however it ends. -/
theorem SqlRun.covers {services : Services} {service : String} {args : Record} {c c' : Context}
    {events : List Event} {r : Except FlowError Json} (hw : c.WellFormed)
    (h : SqlRun services service args c events r c') :
    Covers c (Act.forItem (services.items.get? service) events) c' := by
  cases h with
  -- Without an item there is nothing but the memory of expanded texts.
  | unprepared _ e h => exact .aside hw fun x hx => Request.name?_of_isMemory (h x hx)
  | unopened hp ho =>
    rw [hp.get?_eq]
    exact hp.covers_opening hw ho
  | unentered hp ho he =>
    rw [hp.get?_eq]
    exact hp.covers_entry hw ho he
  | ended hp ho he hc =>
    rw [hp.get?_eq]
    exact hp.covers_entry hw ho he
  | failed hp ho he hc hs =>
    rw [hp.get?_eq]
    exact hp.covers_statements hw ho he hc hs
  | @answered _ _ _ _ item _ _ _ count c1 s s' hp ho he hc hs =>
    rw [hp.get?_eq]
    -- The count is bookkeeping that follows the last statement.
    refine (hp.covers_statements hw ho he hc hs).kept ?_
    apply Moves.count item.readOnly count (by rw [Context.session?_set, if_pos rfl])
    rw [Context.set_set]
    exact .nil _

/-- Marking the sessions adds no act. -/
theorem Covers.marked {c c' : Context} {acts : List Act} (h : Covers c acts c') :
    Covers c acts c'.markErrored :=
  h.kept (.mark (.nil _))

/-- The acts of a trace lead from a well-formed context on as they should. -/
def Trace.Covered (trace : Trace) : Prop :=
  ∀ c acts r c' log, c.WellFormed → trace c acts r c' log → Covers c acts c'

/-- A step covers its acts, if nested flows do. -/
theorem StepTrace.covered {services : Services} {nested : String → Json → Trace}
    (hnested : ∀ name input, (nested name input).Covered) (step : Step) (args : Record) :
    Trace.Covered (StepTrace services nested step args) := by
  intro c acts r c' log hw h
  cases h with
  | sql _ h => exact (sqlRun_of_runs h).covers hw
  | function _ h =>
    obtain ⟨rfl, hevents⟩ := Services.aside_of_runFunction h
    exact .aside hw hevents
  | flow _ h => exact hnested _ _ _ _ _ _ _ hw h

/-- A look at the signal concerns no connection. -/
theorem Covers.look {c : Context} (hw : c.WellFormed) (stop : Bool) :
    Covers c [.look stop] c := by
  show Covers c (Act.forItem none [⟨.isCancelled, stop⟩]) c
  refine .aside hw fun e he => ?_
  rw [List.mem_singleton.mp he]
  rfl

/-- So do steps one after another: by induction on the trace, each step with its look in front. -/
theorem StepsTrace.covered {services : Services} {nested : List Nat → Nat → String → Json → Trace}
    (hnested : ∀ callers offset name input, (nested callers offset name input).Covered)
    (callers : List Nat) (name : String) (offset position : Nat) (state : Record) (last : Json)
    (steps : List Step) :
    Trace.Covered
      (StepsTrace services nested callers name offset position state last steps) := by
  intro c acts r c' log hw h
  induction h with
  | done => exact .refl hw
  | cancelled => exact .look hw true
  | failed h =>
    -- The failed step is followed by the marks.
    have hstep := StepTrace.covered (hnested _ _) _ _ _ _ _ _ _ hw h
    exact ((Covers.look hw false).append hstep).marked
  | next h _ ih =>
    have hstep := StepTrace.covered (hnested _ _) _ _ _ _ _ _ _ hw h
    exact (Covers.look hw false).append (hstep.append (ih hstep.advances.wellFormed))

/-- So does a flow, by induction on the levels of nesting that are left. -/
theorem FlowTrace.covered (services : Services) (levels : Nat) (callers : List Nat)
    (offset : Nat) (name : String) (input : Json) :
    Trace.Covered (FlowTrace services levels callers offset name input) := by
  induction levels generalizing callers offset name input with
  | zero =>
    rintro c acts r c' log hw ⟨rfl, rfl, rfl, rfl⟩
    exact .refl hw
  | succ levels ih =>
    rintro c acts r c' log hw (⟨e, -, rfl, rfl, rfl, rfl⟩ | ⟨flow, -, h⟩)
    · exact .refl hw
    · exact StepsTrace.covered ih _ _ _ _ _ _ _ _ _ _ _ _ hw h

/-! ## §4 Transactions -/

/-- All statements of acts that write on the connection of the name are behind one beginning of its
transaction, and no such transaction is settled in between. -/
def InOneTransaction (acts : List Act) (name : String) : Prop :=
  ∃ link front start rest, acts = front ++ start :: rest ∧ link.name = name ∧
    start.event.begins? = some link ∧ (∀ a ∈ front, ∀ l, a.writes? = some l → l.name ≠ name) ∧
    ∀ middle a after l, rest = middle ++ a :: after → a.writes? = some l → l.name = name →
      l = link ∧ ∀ x ∈ middle, ∀ l', x.request.settles? = some l' → l'.name ≠ name

/-- A beginning is an act that has begun the transaction. -/
theorem mem_beginnings {acts : List Act} {link : Link} :
    link ∈ beginnings (acts.map Act.event) ↔ ∃ a ∈ acts, a.event.begins? = some link := by
  rw [beginnings, List.filterMap_map, List.mem_filterMap]
  rfl

namespace Covers

variable {c c' : Context} {acts : List Act}

/-- A flow commits nothing and rolls nothing back. -/
theorem not_settled (h : Covers c acts c') {a : Act} (ha : a ∈ acts) :
    a.request.settles? = none :=
  (Request.finishes_eq_false_iff.mp (h.advances.quiet (List.mem_map_of_mem ha))).1

/-- From the beginning, what is written on has begun before. -/
theorem begun (h : Covers {} acts c') {before after : List Act} {a : Act} {link : Link}
    (hsplit : acts = before ++ a :: after) (hwrite : a.writes? = some link) :
    link ∈ beginnings (before.map Act.event) :=
  h.written hsplit hwrite

/-- From the beginning, no transaction begins twice. -/
theorem nodup_begun (h : Covers {} acts c') :
    ((beginnings (acts.map Act.event)).map Link.name).Nodup :=
  ((h.advances.transacting.map Link.name).nodup_iff).mp h.advances.wellFormed.nodup_transacting

end Covers

/-- The acts of a flow write on a connection in one transaction, and nothing that follows does. -/
theorem Covers.inOneTransaction {acts rest : List Act} {c : Context} (h : Covers {} acts c)
    (hrest : ∀ a ∈ rest, a.writes? = none) {a : Act} {link : Link} (ha : a ∈ acts ++ rest)
    (hwrite : a.writes? = some link) : InOneTransaction (acts ++ rest) link.name := by
  have hflow : a ∈ acts := by
    rcases List.mem_append.mp ha with hmem | hmem
    · exact hmem
    · rw [hrest a hmem] at hwrite
      cases hwrite
  -- Some act before the first writing has begun the transaction, and none has done so again.
  obtain ⟨before, after, hsplit⟩ := List.append_of_mem hflow
  obtain ⟨start, hstart, hbegins⟩ := mem_beginnings.mp (h.begun hsplit hwrite)
  have hmem : start ∈ acts := hsplit ▸ List.mem_append_left _ hstart
  obtain ⟨front, back, rfl⟩ := List.append_of_mem hmem
  have hparts : beginnings ((front ++ start :: back).map Act.event) =
      beginnings (front.map Act.event) ++ link :: beginnings (back.map Act.event) := by
    simp [beginnings, hbegins]
  refine ⟨link, front, start, back ++ rest, by simp, rfl, hbegins, ?_, ?_⟩
  · -- What is written in front would need a beginning of its own.
    intro a' ha' l hl hname
    obtain ⟨first, second, rfl⟩ := List.append_of_mem ha'
    have hassoc : first ++ a' :: (second ++ start :: back) =
        (first ++ a' :: second) ++ start :: back := by simp
    have hfront : l ∈ beginnings ((first ++ a' :: second).map Act.event) := by
      rw [List.map_append, beginnings_append]
      exact List.mem_append_left _ (h.begun hassoc.symm hl)
    have hnodup := h.nodup_begun
    rw [hparts, List.map_append, List.nodup_append] at hnodup
    exact hnodup.2.2 _ (List.mem_map_of_mem hfront) _ (List.mem_map_of_mem List.mem_cons_self)
      hname
  -- Behind the beginning: the writing act lies in the flow, or in what follows, which does not
  -- write.
  · intro middle a' after' l hsplit' hl hname
    rcases split_append hsplit' with ⟨tail, rfl⟩ | ⟨tail, -, rfl⟩
    · have hassoc : front ++ start :: (middle ++ a' :: tail) =
          (front ++ start :: middle) ++ a' :: tail := by simp
      rw [hassoc] at hmem h
      have hall : l ∈ beginnings (((front ++ start :: middle) ++ a' :: tail).map Act.event) := by
        rw [List.map_append, beginnings_append]
        exact List.mem_append_left _ (h.begun rfl hl)
      -- Two connections of one name have both begun, so they are the same.
      have hlink := mem_beginnings.mpr ⟨start, hmem, hbegins⟩
      refine ⟨List.inj_on_of_nodup_map h.nodup_begun hall hlink hname, fun x hx l' hl' => ?_⟩
      have hx' : x ∈ (front ++ start :: middle) ++ a' :: tail :=
        List.mem_append_left _ (List.mem_append_right _ (List.mem_cons_of_mem _ hx))
      rw [h.not_settled hx'] at hl'
      cases hl'
    · rw [hrest a' (List.mem_append_right _ List.mem_cons_self)] at hl
      cases hl

/-- What a whole run covers before the sessions are ended. -/
theorem FlowTrace.covers_marked {services : Services} {levels offset : Nat} {callers : List Nat}
    {name : String} {input : Json} {acts : List Act} {outcome : Except FlowError Json}
    {c : Context} {log : List Start}
    (h : FlowTrace services levels callers offset name input {} acts outcome c log) :
    Covers {} acts (c.markedBy outcome) := by
  have hcovers := FlowTrace.covered services levels callers offset name input _ _ _ _ _ .empty h
  cases outcome with
  -- A failure adds its marks and no act.
  | ok v => exact hcovers
  | error e => exact hcovers.marked

/-- A connection is used for an item that is to run on it. -/
theorem RunAccount.item_of_uses? {services : Services} {flow : String} {input : Json}
    {acts : List Act} {result : ServiceResult} (h : RunAccount services flow input acts result)
    {a : Act} (ha : a ∈ acts) {link : Link} (huse : a.request.uses? = some link) :
    ∃ item, a.item = some item ∧ item.connection = link.name := by
  obtain ⟨log, h⟩ := h
  -- An account is the acts of the flow and then those that end its sessions.
  cases h with
  | intro h hlast =>
    rcases List.mem_append.mp ha with hmem | hmem
    · exact h.covers_marked.used hmem huse
    · -- The end of a session does not use its connection.
      obtain ⟨name, session, -, -, hending⟩ :=
        Context.mem_of_runs_finalize hlast (Act.mem_forItem.mp hmem).1
      rw [Act.request, (Session.finishes_of_mem_endings hending).2.1] at huse
      cases huse

/-- Where nothing is written, no transaction is begun, committed or rolled back. -/
theorem RunAccount.transacts_of_reading {services : Services} {flow : String} {input : Json}
    {acts : List Act} {result : ServiceResult} (h : RunAccount services flow input acts result)
    {name : String} (hreading : ∀ a ∈ acts, ∀ l, a.request.uses? = some l → l.name = name →
      a.forWriting = false) :
    ∀ a ∈ acts, ∀ l, a.request.transacts? = some l → l.name ≠ name := by
  rintro a ha l hl rfl
  obtain ⟨log, h⟩ := h
  cases h with
  | @intro acts last outcome c log h hlast =>
    have hcovers := h.covers_marked
    -- A transaction is only begun for writing.
    have hnone : ∀ b ∈ acts, b.request.transacts? ≠ some l := by
      intro b hb hbl
      have huse := Request.uses?_of_transacts? hbl (hcovers.not_settled hb)
      have hfalse := hreading b (List.mem_append_left _ hb) l huse rfl
      rw [hcovers.entered hb hbl] at hfalse
      cases hfalse
    rcases List.mem_append.mp ha with hmem | hmem
    · exact hnone a hmem hl
    · -- A session is ended with the transaction that was begun.
      obtain ⟨he, -⟩ := Act.mem_forItem.mp hmem
      obtain ⟨name, session, -, -, hending⟩ := Context.mem_of_runs_finalize hlast he
      have hunused := (Session.finishes_of_mem_endings hending).2.1
      have hsettles : a.request.settles? = some l := by
        cases hs : a.request.settles? with
        | none =>
          have huse := Request.uses?_of_transacts? hl hs
          rw [Act.request, hunused] at huse
          cases huse
        | some l' => rw [← hl, Request.transacts?_of_settles? hs]
      have hsettled : l ∈ settlements last := List.mem_filterMap.mpr ⟨a.event, he, hsettles⟩
      rw [Context.settlements_of_runs_finalize hcovers.advances.wellFormed hlast,
        hcovers.advances.transacting.mem_iff] at hsettled
      obtain ⟨b, hb, hbegins⟩ := mem_beginnings.mp hsettled
      exact hnone b hb (Event.transacts?_of_begins? hbegins)

/-- What is written during a run is written in transactions, one for each connection.  What a run
goes through has an account, in which connections are used for the items that run on them.  In every
account all statements on a connection for items that do not only read are behind one beginning with
no commit or rollback in between; and where a connection is used for items that only read, no
transaction is begun, committed or rolled back on it. -/
theorem writes_in_one_transaction (services : Services) (flow : String) (input : Json) :
    (∀ events result, Program.Runs (services.run flow input) events result ↔
      ∃ acts, RunAccount services flow input acts result ∧ acts.map Act.event = events) ∧
    ∀ acts result, RunAccount services flow input acts result → ∀ name : String,
      (∀ a ∈ acts, ∀ l, a.request.uses? = some l → l.name = name →
        ∃ item, a.item = some item ∧ item.connection = name) ∧
      (∀ a ∈ acts, ∀ l, a.writes? = some l → l.name = name → InOneTransaction acts name) ∧
      ((∀ a ∈ acts, ∀ l, a.request.uses? = some l → l.name = name → a.forWriting = false) →
        ∀ a ∈ acts, ∀ l, a.request.transacts? = some l → l.name ≠ name) := by
  refine ⟨fun _ _ => Services.runs_iff_accounts, fun acts result h name => ⟨?_, ?_, ?_⟩⟩
  · rintro a ha l huse rfl
    exact h.item_of_uses? ha huse
  · rintro a ha l hl rfl
    obtain ⟨log, h⟩ := h
    cases h with
    | intro h hlast =>
      refine h.covers_marked.inOneTransaction (fun b hb => ?_) ha hl
      rw [Act.writes?, Act.forWriting, (Act.mem_forItem.mp hb).2]
      rfl
  · exact h.transacts_of_reading

namespace Cart

/-- What the flow does, with the item that it does it for. -/
def acts : List Act :=
  .look false :: (Act.forItem (services.items.get? "clear") events.tail ++ []) ++
    Act.forItem none (endings (.ok ()) (.ok ()))

theorem runAccount :
    RunAccount services "empty" .null acts (.ofOutcome (.ok (.ofUInt64 1))) :=
  ⟨_, .intro (.inr ⟨_, rfl, .next (.sql rfl runs_clear) (.done _ _ _ _ _)⟩)
    (runs_finalize (.ok ()) (.ok ()))⟩

/-- The same connection with an item that only reads. -/
def readers : Services :=
  { services with
    items := Dictionary.ofList
      [("list", { name := "list", text := "SELECT * FROM cart", connection := "main",
                  readOnly := true })]
    flows := Dictionary.ofList
      [("show", { name := "show",
                  steps := [{ name := "listed", kind := .sql, service := "list" }] })] }

/-- What happens when the cart is listed. -/
def listing : List Event :=
  [⟨.remembered "list", some "SELECT * FROM cart"⟩, ⟨.connect "main" settings, .ok "shop"⟩,
    ⟨.query link "SELECT * FROM cart" ∅, .ok ([] : List Record)⟩]

/-- The context after the listing. -/
def listed : Context := ({} : Context).set "main" { link, dialect := .mysql, executed := 1 }

theorem runs_list : FlowM.Runs (readers.runSql "list" ∅) {} listing (.ok (.array [])) listed := by
  refine FlowM.runs_ofData_bind_iff.mpr (.inl ⟨_, rfl, ?_⟩)
  refine FlowM.runs_attempt_bind_iff.mpr (.inl ⟨_, listing.drop 1, _, rfl,
    Fragment.runs_expand_of_remembered _ _ _ _, ?_⟩)
  refine FlowM.runs_lift_bind_iff.mpr (.inl ⟨_, rfl, ?_⟩)
  refine FlowM.runs_bind_iff.mpr (.inl ⟨_, listing.drop 2, _, _, rfl, runs_openSession, ?_⟩)
  exact .ask (.query link "SELECT * FROM cart" ∅) _ (.ok ([] : List Record)) _ _ (.done _)

/-- What the flow does that only reads. -/
def readings : List Act :=
  .look false :: (Act.forItem (readers.items.get? "list") listing ++ []) ++
    Act.forItem none [⟨.close link, .ok ()⟩]

theorem readAccount :
    RunAccount readers "show" .null readings (.ofOutcome (.ok (.array []))) :=
  ⟨_, .intro (.inr ⟨_, rfl, .next (.sql rfl runs_list) (.done _ _ _ _ _)⟩)
    (.ask (.close link) _ (.ok ()) _ _ (.done _))⟩

end Cart

/-- The cart is emptied in a transaction, and listed without one. -/
theorem cart_in_one_transaction :
    InOneTransaction Cart.acts "main" ∧
      ∀ a ∈ Cart.readings, ∀ l, a.request.transacts? = some l → l.name ≠ "main" := by
  constructor
  · have hlaws := (writes_in_one_transaction Cart.services "empty" .null).2 _ _ Cart.runAccount
    exact (hlaws "main").2.1 ⟨⟨.execute Cart.link Cart.text ∅, .ok (1 : UInt64)⟩,
      Cart.services.items.get? "clear"⟩ (by simp [Cart.acts, Act.forItem, Cart.events]) Cart.link
      rfl rfl
  · have hlaws := (writes_in_one_transaction Cart.readers "show" .null).2 _ _ Cart.readAccount
    refine (hlaws "main").2.2 fun a ha _ _ _ => ?_
    simp only [Cart.readings, Cart.listing, Act.forItem, List.map_cons, List.map_nil,
      List.append_nil, List.cons_append, List.nil_append, List.mem_cons, List.not_mem_nil,
      or_false] at ha
    rcases ha with rfl | rfl | rfl | rfl | rfl <;> rfl

end SqlService
