import SqlService.Proofs.Flow.History
import SqlService.Proofs.Fragment.Memory
import SqlService.Proofs.Query.Sending

/-!
# What a failing SQL step sends

An SQL step looks up its item, expands the text and reads its arguments before it turns to a
connection, and it composes its query before it sends a statement.  So a step that fails has sent
nothing, or the last thing that it did was to send a statement that was refused.

Main statement: `Services.sends_only_composed`.
-/

namespace SqlService

open Program (Event)

/-! ## §1 What happens before a statement -/

/-- No statement is sent to any connection. -/
def Unsent (events : List Event) : Prop := ∀ x ∈ events, x.request.statement? = none

theorem Unsent.append {first second : List Event} (h1 : Unsent first) (h2 : Unsent second) :
    Unsent (first ++ second) :=
  fun x hx => (List.mem_append.mp hx).elim (h1 x) (h2 x)

/-- What concerns no connection is no statement. -/
theorem unsent_of_name? {events : List Event} (h : ∀ x ∈ events, x.request.name? = none) :
    Unsent events := by
  intro x hx
  cases hstatement : x.request.statement? with
  | none => rfl
  | some l =>
    have hname := Request.name?_of_statement? hstatement
    rw [h x hx] at hname
    cases hname

theorem Prepared.unsent {services : Services} {service : String} {args : Record}
    {events : List Event} {item : Item} {sql : String} {parsed : SqlArgs}
    (h : Prepared services service args events item sql parsed) : Unsent events :=
  unsent_of_name? (Fragment.expand_only _ _ _ events _ h.expanded)

theorem Opening.unsent {services : Services} {name : String} {c c1 : Context}
    {events : List Event} {r : Except FlowError Session}
    (h : Opening services name c events r c1) : Unsent events := by
  cases h <;> simp [Unsent, Request.statement?]

theorem Entry.unsent {readOnly : Bool} {s s' : Session} {events : List Event}
    {r : Except FlowError Unit} (h : Entry readOnly s events r s') : Unsent events := by
  cases h <;> simp [Unsent, Request.statement?]

/-! ## §2 Steps -/

/-- The query of an item is composed first, whatever the item answers with. -/
theorem Services.runQuery_composedFirst (kind : ExecKind) (q : Query) (l : Link) :
    (runQuery kind q l).ComposedFirst q.build := by
  unfold runQuery
  by_cases hpaged : q.isPaged = true
  · simp only [if_pos hpaged]
    -- A page composes both of its statements first; any other kind sends the one that it composes.
    exact (q.pageRows_composedFirst l).map fun page => (page.toJson, 2)
  · simp only [if_neg hpaged]
    have hrows : (q.rows l).ComposedFirst q.build :=
      (q.rows_sendsOne l).composedFirst (by rintro s _ e rfl; rfl)
    cases kind with
    | query => exact hrows.map fun rows => (Json.array (rows.map Record.toJson), 1)
    | single =>
      have hsingle : (q.single? l).ComposedFirst q.build := hrows.map List.head?
      exact hsingle.map fun row => ((row.map Record.toJson).getD .null, 1)
    | scalar =>
      have hscalar := (q.scalar_sendsOne l).composedFirst (by rintro s _ e rfl; rfl)
      exact hscalar.map fun value => (value, 1)
    | execute =>
      have hexecute := (q.execute_sendsOne l).composedFirst (by rintro s _ e rfl; rfl)
      exact hexecute.map fun count => (Json.ofUInt64 count, 1)

/-- There is an item for an SQL step, its text expands and the arguments are well formed. -/
structure Services.Ready (services : Services) (service : String) (args : Record) (item : Item)
    (sql : String) (parsed : SqlArgs) : Prop where
  item_eq : services.item service = .ok item
  expands : Fragment.Expands services.items item.name sql
  parsed_eq : SqlArgs.parse args = .ok parsed

/-- With a true memory a step prepares what there is. -/
theorem Prepared.ready {services : Services} {service : String} {args : Record}
    {events : List Event} {item : Item} {sql : String} {parsed : SqlArgs}
    (h : Prepared services service args events item sql parsed)
    (hmemory : ∀ x ∈ events, Fragment.Recalled services.items x.request x.reply) :
    services.Ready service args item sql parsed where
  item_eq := h.item_eq
  expands := ((Fragment.yields_expand (by simp)).runs h.expanded hmemory).1.symm
  parsed_eq := h.parsed_eq

/-- How far an SQL step gets. -/
inductive SqlProgress (services : Services) (service : String) (args : Record) :
    List Event → Except FlowError Json → Context → Prop where
  /-- It cannot be prepared. -/
  | unprepared {events : List Event} {c' : Context} (e : FlowError)
      (h : ∀ x ∈ events, x.request.name? = none) :
      SqlProgress services service args events (.error e) c'
  /-- It does not get hold of its connection. -/
  | stopped {first second : List Event} {item : Item} {sql : String} {parsed : SqlArgs}
      {c' : Context} (e : FlowError) (hp : Prepared services service args first item sql parsed)
      (hsecond : Unsent second) :
      SqlProgress services service args (first ++ second) (.error e) c'
  /-- It runs its query. -/
  | asked {first second last : List Event} {item : Item} {sql : String} {parsed : SqlArgs}
      {s : Session} {x : Except DataError (Json × Nat)} {c' : Context}
      (hp : Prepared services service args first item sql parsed) (hsecond : Unsent second)
      (hs : (Services.runQuery item.kind (Services.stepQuery s.dialect sql parsed)
        s.link).run.Runs last x)
      (hsession : c'.session? item.connection = some s) :
      SqlProgress services service args (first ++ (second ++ last))
        ((x.map Prod.fst).mapError .data) c'

/-- The transaction is entered on the connection that there is. -/
theorem Entry.same {readOnly : Bool} {s s' : Session} {events : List Event}
    {r : Except FlowError Unit} (h : Entry readOnly s events r s') :
    s'.link = s.link ∧ s'.dialect = s.dialect := by
  cases h <;> exact ⟨rfl, rfl⟩

theorem SqlRun.progress {services : Services} {service : String} {args : Record}
    {c c' : Context} {events : List Event} {r : Except FlowError Json}
    (h : SqlRun services service args c events r c') :
    SqlProgress services service args events r c' := by
  -- Before the query the step only asks for its text, its connection and its transaction.
  cases h with
  | unprepared _ e h => exact .unprepared e fun x hx => Request.name?_of_isMemory (h x hx)
  | unopened hp ho => exact .stopped _ hp ho.unsent
  | unentered hp ho he => exact .stopped _ hp (ho.unsent.append he.unsent)
  | ended hp ho he hc => exact .stopped _ hp (ho.unsent.append he.unsent)
  | @failed first second third last item sql parsed e c1 s s' hp ho he hc hs =>
    rw [← he.same.1, ← he.same.2] at hs
    rw [← List.append_assoc second]
    -- The query is that of the session before, as entering changes neither its link nor its
    -- dialect.
    exact .asked hp (ho.unsent.append he.unsent) hs (by rw [Context.session?_set, if_pos rfl])
  | @answered first second third last item sql parsed answer count c1 s s' hp ho he hc hs =>
    rw [← he.same.1, ← he.same.2] at hs
    rw [← List.append_assoc second]
    exact .asked (s := s'.record item.readOnly count) hp (ho.unsent.append he.unsent) hs
      (by rw [Context.session?_set, if_pos rfl])

namespace SqlProgress

variable {services : Services} {service : String} {args : Record} {events : List Event}
  {r : Except FlowError Json} {c' : Context}

/-- Where there is nothing to prepare, no connection is even asked for. -/
theorem of_unready (h : SqlProgress services service args events r c')
    (hmemory : ∀ x ∈ events, Fragment.Recalled services.items x.request x.reply)
    (hready : ¬ ∃ item sql parsed, services.Ready service args item sql parsed) :
    (∃ e, r = .error e) ∧ ∀ x ∈ events, x.request.name? = none := by
  cases h with
  | unprepared e h => exact ⟨⟨e, rfl⟩, h⟩
  -- In the other two cases the step would have been prepared, which nothing can be.
  | stopped e hp hsecond =>
    exact absurd ⟨_, _, _, hp.ready fun x hx => hmemory x (List.mem_append_left _ hx)⟩ hready
  | asked hp hsecond hs hsession =>
    exact absurd ⟨_, _, _, hp.ready fun x hx => hmemory x (List.mem_append_left _ hx)⟩ hready

/-- Where the query cannot be composed, the step fails without it. -/
theorem of_uncomposed (h : SqlProgress services service args events r c')
    (hmemory : ∀ x ∈ events, Fragment.Recalled services.items x.request x.reply)
    {item : Item} {sql : String} {parsed : SqlArgs} {s : Session} {e : DataError}
    (hready : services.Ready service args item sql parsed)
    (hsession : c'.session? item.connection = some s)
    (hbuild : (Services.stepQuery s.dialect sql parsed).build = .error e) :
    (∃ e, r = .error e) ∧ Unsent events := by
  cases h with
  | unprepared e h => exact ⟨⟨e, rfl⟩, unsent_of_name? h⟩
  | stopped e hp hsecond => exact ⟨⟨e, rfl⟩, hp.unsent.append hsecond⟩
  | asked hp hsecond hs hsession' =>
    -- The step has prepared the same query.
    have hready' := hp.ready fun x hx => hmemory x (List.mem_append_left _ hx)
    cases hready.item_eq.symm.trans hready'.item_eq
    cases hready.expands.symm.trans hready'.expands
    cases hready.parsed_eq.symm.trans hready'.parsed_eq
    cases hsession.symm.trans hsession'
    obtain ⟨rfl, e', rfl⟩ :=
      (Services.runQuery_composedFirst item.kind _ s.link).unsent e hbuild _ _ hs
    rw [List.append_nil]
    exact ⟨⟨_, rfl⟩, hp.unsent.append hsecond⟩

/-- A step that fails has sent nothing, or its last statement has been refused. -/
theorem of_error {e : FlowError} (h : SqlProgress services service args events (.error e) c') :
    Unsent events ∨ ∃ e', e = .data e' ∧ Refused events e' := by
  generalize hr : Except.error e = r at h
  cases h with
  | unprepared e h => exact .inl (unsent_of_name? h)
  | stopped e hp hsecond => exact .inl (hp.unsent.append hsecond)
  -- Either the query sent nothing, or what it sent last was refused.
  | @asked first second last item sql parsed s x c' hp hsecond hs hsession =>
    cases x with
    | ok answer => cases hr
    | error e' =>
      cases hr
      rcases (Services.runQuery_composedFirst item.kind _ s.link).refused _ e' hs with rfl | h
      · rw [List.append_nil]
        exact .inl (hp.unsent.append hsecond)
      · exact .inr ⟨e', rfl, (h.append second).append first⟩

end SqlProgress

/-! ## §3 Sending -/

/-- What cannot be composed sends nothing.  A query needs one statement, and a page two over the
same filtered statement and with the same parameters, of which neither is sent if one cannot be
composed.  In a flow an SQL step that cannot be prepared asks for no connection; one whose query
cannot be composed sends no statement; and one that fails in any other way has sent none or has had
its last one refused. -/
theorem Services.sends_only_composed (services : Services) :
    (∀ (q : Query) (l : Link),
      (q.execute l).SendsOne q.build (fun s => .execute l s.sql s.params) (fun _ reply => reply) ∧
      (q.scalar l).SendsOne q.build (fun s => .scalar l s.sql s.params) (fun _ reply => reply) ∧
      (q.single? l).SendsOne q.build (fun s => .query l s.sql s.params)
        (fun _ (reply : Except DataError (List Record)) => reply.map List.head?) ∧
      (q.rows l).SendsOne q.build (fun s => .query l s.sql s.params) (fun _ reply => reply) ∧
      (q.count l).SendsOne q.buildCount (fun s => .scalar l s.sql s.params)
        (fun _ (reply : Except DataError Json) => reply.map Json.count) ∧
      q.SendsPage l) ∧
    ∀ (nested : String → Json → FlowM Json) (step : Step) (args : Record) (c c' : Context)
      (events : List Event) (r : Except FlowError Json), step.kind = .sql →
      FlowM.Runs (services.runStep nested step args) c events r c' →
      (∀ e, r = .error e → Unsent events ∨ ∃ e', e = .data e' ∧ Refused events e') ∧
      ((∀ x ∈ events, Fragment.Recalled services.items x.request x.reply) →
        ((¬ ∃ item sql parsed, services.Ready step.service args item sql parsed) →
          (∃ e, r = .error e) ∧ ∀ x ∈ events, x.request.name? = none) ∧
        ∀ item sql parsed s e, services.Ready step.service args item sql parsed →
          c'.session? item.connection = some s →
          (stepQuery s.dialect sql parsed).build = .error e →
          (∃ e, r = .error e) ∧ Unsent events) := by
  refine ⟨fun q l => ⟨q.execute_sendsOne l, q.scalar_sendsOne l, q.single?_sendsOne l,
    q.rows_sendsOne l, q.count_sendsOne l, q.sendsPage l⟩, ?_⟩
  intro nested step args c c' events r hkind h
  have hprogress : SqlProgress services step.service args events r c' := by
    rw [runStep, hkind] at h
    exact (sqlRun_of_runs h).progress
  refine ⟨?_, fun hmemory => ⟨hprogress.of_unready hmemory, ?_⟩⟩
  · rintro e rfl
    exact hprogress.of_error
  -- The session that the step leaves has the dialect that its query was composed for.
  · intro item sql parsed s e hready hsession hbuild
    exact hprogress.of_uncomposed hmemory hready hsession hbuild

namespace Cart

def clear : Step := { name := "cleared", kind := .sql, service := "clear" }

theorem expands_clear : Fragment.Expands services.items "clear" text := by
  have hsegments : Segment.segments text.toList = [.literal text.toList] := by decide +kernel
  rw [Fragment.Expands, Fragment.expansion_item (by simp) rfl]
  show Fragment.expansionAll _ _ (Segment.segments text.toList) = _
  rw [hsegments, Fragment.expansionAll, Fragment.expansionAll]
  decide +kernel

/-- The text is remembered. -/
def recalled : Event := ⟨.remembered "clear", some text⟩

theorem recalled_true : Fragment.Recalled services.items recalled.request recalled.reply := by
  intro known hknown
  rw [← Option.some.inj hknown]
  exact expands_clear

/-- A page that starts behind the last row that there can be. -/
def beyond : Record :=
  Dictionary.ofList [("pageIndex", .ofUInt64 18446744073709551615), ("pageSize", .ofUInt64 2)]

def beyondArgs : SqlArgs := { page := some (18446744073709551615, 2) }

def beyondEvents : List Event :=
  [recalled, ⟨.connect "main" settings, .ok "shop"⟩, ⟨.begin link, .ok ()⟩]

def beyondSession : Session := { link, dialect := .mysql, inTransaction := true }

theorem runs_beyond :
    FlowM.Runs (services.runSql "clear" beyond) {} beyondEvents
      (.error (.data (.pageOutOfRange 18446744073709551615 2)))
      (({} : Context).set "main" beyondSession) := by
  -- The text is remembered and the arguments are read; then the connection and the transaction.
  refine FlowM.runs_ofData_bind_iff.mpr (.inl ⟨_, rfl, ?_⟩)
  refine FlowM.runs_attempt_bind_iff.mpr (.inl ⟨_, beyondEvents.drop 1, text, rfl,
    Fragment.runs_expand_of_remembered _ _ _ _, ?_⟩)
  refine FlowM.runs_lift_bind_iff.mpr (.inl ⟨beyondArgs, rfl, ?_⟩)
  refine FlowM.runs_bind_iff.mpr (.inl ⟨_, beyondEvents.drop 2, _, _, rfl, runs_openSession, ?_⟩)
  refine .ask (.begin link) _ (.ok ()) _ _ ?_
  exact .done _

/-- A sort order that is none. -/
def disorder : Record := Dictionary.ofList [("sort", .bool true)]

theorem runs_disorder :
    FlowM.Runs (services.runSql "clear" disorder) {} [recalled]
      (.error (.invalidArgument "sort" "expected a string or a list of strings")) {} := by
  refine FlowM.runs_ofData_bind_iff.mpr (.inl ⟨_, rfl, ?_⟩)
  refine FlowM.runs_attempt_bind_iff.mpr (.inl ⟨_, [], text, rfl,
    Fragment.runs_expand_of_remembered _ _ _ _, ?_⟩)
  exact FlowM.runs_lift_bind_iff.mpr (.inr ⟨_, rfl, rfl, rfl, rfl⟩)

end Cart

/-- A malformed filter, a page out of reach and an argument that cannot be read send nothing. -/
theorem cart_unsent :
    (∀ events r, (Query.invoicesMalformed.pageRows Cart.link).run.Runs events r → events = []) ∧
      Unsent Cart.beyondEvents ∧
      Cart.recalled.request.name? = none := by
  obtain ⟨hqueries, hsteps⟩ := Services.sends_only_composed Cart.services
  -- A malformed filter keeps the count from being composed, and with it the page.
  refine ⟨fun events r h => ?_, ?_, ?_⟩
  · obtain ⟨-, -, -, -, -, hpage⟩ := hqueries Query.invoicesMalformed Cart.link
    obtain ⟨fault, -, hfault⟩ :=
      Query.filtered_of_malformed (q := Query.invoicesMalformed) rfl (by decide)
    have hcount : Query.invoicesMalformed.buildCount = .error (.invalidFilter fault) := by
      rw [Query.buildCount, hfault]
      rfl
    obtain ⟨e, -, hruns⟩ := hpage.uncomposed ⟨_, .inl hcount⟩
    exact ((hruns events r).mp h).1
  -- The page out of reach is found while composing, with a connection and a transaction open.
  · obtain ⟨-, hmemory⟩ := hsteps (Cart.services.runFlow 0) Cart.clear Cart.beyond {} _ _ _ rfl
      Cart.runs_beyond
    have htrue : ∀ x ∈ Cart.beyondEvents,
        Fragment.Recalled Cart.services.items x.request x.reply :=
      List.forall_mem_cons.mpr ⟨Cart.recalled_true, by simp [Fragment.Recalled]⟩
    have hready : Cart.services.Ready "clear" Cart.beyond
        { name := "clear", text := Cart.text, connection := "main", kind := .execute } Cart.text
        Cart.beyondArgs := ⟨rfl, Cart.expands_clear, rfl⟩
    exact ((hmemory htrue).2 _ _ _ _ _ hready rfl rfl).2
  -- The sort order that is none is found while preparing.
  · obtain ⟨-, hmemory⟩ := hsteps (Cart.services.runFlow 0) Cart.clear Cart.disorder {} _ _ _ rfl
      Cart.runs_disorder
    have hunready : ¬ ∃ item sql parsed,
        Cart.services.Ready "clear" Cart.disorder item sql parsed := by
      rintro ⟨item, sql, parsed, hready⟩
      cases hready.parsed_eq
    exact ((hmemory (by simpa using Cart.recalled_true)).1 hunready).2 _ (by simp)

end SqlService
