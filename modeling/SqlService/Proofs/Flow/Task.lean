import SqlService.Flow.Execution
import SqlService.Proofs.Effect.Runs

/-!
# Runs of flow tasks

A task runs from one context to another through the events that `FlowM.Runs` relates them by.  The
small tasks of a session are described by what they may do: `Opening` for asking for the session of
a connection, `Entry` for entering its transaction.  The statements of a query all go to its
connection, and expanding an item concerns no connection at all.
-/

namespace SqlService

open Program (Event)

namespace FlowM

variable {α β : Type}

/-! ## §1 Composition -/

/-- The task may go from the first context through the events to the second one and end in the
result. -/
def Runs (t : FlowM α) (c : Context) (events : List Event) (r : Except FlowError α)
    (c' : Context) : Prop :=
  Program.Runs (t.runIn c) events (r, c')

variable {c c' : Context} {events : List Event}

/-- Where the first task fails the second one is not run, and the context is the one it left. -/
theorem runIn_bind (t : FlowM α) (f : α → FlowM β) (c : Context) :
    (t >>= f).runIn c = (t.runIn c).andThen fun
      | (.ok a, c1) => (f a).runIn c1
      | (.error e, c1) => .done (.error e, c1) := by
  show Program.andThen _ _ = _
  congr 1
  funext ⟨r, c1⟩
  cases r <;> rfl

/-- A task that is done makes no request. -/
theorem runs_done_iff {r r' : Except FlowError α} {c1 : Context} {t : FlowM α}
    (ht : t.runIn c = .done (r', c1)) : Runs t c events r c' ↔ events = [] ∧ r = r' ∧ c' = c1 := by
  rw [Runs, ht, Program.runs_done_pair_iff]

theorem runs_pure_iff {a : α} {r : Except FlowError α} :
    Runs (pure a) c events r c' ↔ events = [] ∧ r = .ok a ∧ c' = c :=
  runs_done_iff rfl

theorem runs_throw_iff {e : FlowError} {r : Except FlowError α} :
    Runs (throw e) c events r c' ↔ events = [] ∧ r = .error e ∧ c' = c :=
  runs_done_iff rfl

/-- A task followed by another fails with the first, or goes on with its value. -/
theorem runs_bind_iff {t : FlowM α} {f : α → FlowM β} {r : Except FlowError β} :
    Runs (t >>= f) c events r c' ↔
      (∃ first second a c1, events = first ++ second ∧ Runs t c first (.ok a) c1 ∧
        Runs (f a) c1 second r c') ∨
      ∃ e, Runs t c events (.error e) c' ∧ r = .error e := by
  rw [Runs, runIn_bind, Program.runs_andThen]
  constructor
  -- The first task ends with its value, or with its error, which is then the error of both.
  · rintro ⟨first, second, ⟨x, c1⟩, rfl, h1, h2⟩
    cases x with
    | ok a => exact .inl ⟨first, second, a, c1, rfl, h1, h2⟩
    | error e =>
      obtain ⟨rfl, hr⟩ := Program.runs_done_iff.mp h2
      cases hr
      rw [List.append_nil]
      exact .inr ⟨e, h1, rfl⟩
  · rintro (⟨first, second, a, c1, rfl, h1, h2⟩ | ⟨e, h1, rfl⟩)
    · exact ⟨first, second, (.ok a, c1), rfl, h1, h2⟩
    · exact ⟨events, [], (.error e, c'), by simp, h1, .done _⟩

/-- A value that is there already is used without a request, and an error that is there already ends
the task. -/
theorem runs_lift_bind_iff {x : Except FlowError α} {f : α → FlowM β} {r : Except FlowError β} :
    Runs (liftM x >>= f) c events r c' ↔
      (∃ a, x = .ok a ∧ Runs (f a) c events r c') ∨
      ∃ e, x = .error e ∧ events = [] ∧ r = .error e ∧ c' = c := by
  rw [Runs, runIn_bind]
  cases x with
  | ok a =>
    show Runs (f a) c events r c' ↔ _
    simp
  | error e =>
    show Program.Runs (.done (.error e, c)) events (r, c') ↔ _
    simp [Program.runs_done_iff]

/-- The same with an error of the data layer, which is wrapped. -/
theorem runs_ofData_bind_iff {x : Except DataError α} {f : α → FlowM β}
    {r : Except FlowError β} :
    Runs (ofData x >>= f) c events r c' ↔
      (∃ a, x = .ok a ∧ Runs (f a) c events r c') ∨
      ∃ e, x = .error e ∧ events = [] ∧ r = .error (.data e) ∧ c' = c := by
  rw [Runs, runIn_bind]
  cases x with
  | ok a =>
    show Runs (f a) c events r c' ↔ _
    simp
  | error e =>
    show Program.Runs (.done (.error (.data e), c)) events (r, c') ↔ _
    simp [Program.runs_done_iff]

/-- What follows a task that cannot fail and makes no request. -/
theorem runs_silent_bind_iff {t : FlowM α} {f : α → FlowM β} {r : Except FlowError β} {a : α}
    {c1 : Context} (ht : t.runIn c = .done (.ok a, c1)) :
    Runs (t >>= f) c events r c' ↔ Runs (f a) c1 events r c' := by
  rw [Runs, runIn_bind, ht]
  rfl

/-- A request is answered by any reply, and leaves the context as it is. -/
theorem runs_request_iff {q : Request} {r : Except FlowError q.Reply} :
    Runs (request q) c events r c' ↔ ∃ reply, events = [⟨q, reply⟩] ∧ r = .ok reply ∧ c' = c := by
  have hrun : (request q).runIn c = .ask q fun reply => .done (.ok reply, c) := rfl
  rw [Runs, hrun, Program.runs_ask_iff]
  constructor
  · rintro ⟨reply, rest, rfl, h⟩
    obtain ⟨rfl, hr⟩ := Program.runs_done_iff.mp h
    cases hr
    exact ⟨reply, rfl, rfl, rfl⟩
  · rintro ⟨reply, rfl, rfl, rfl⟩
    exact ⟨reply, [], rfl, .done _⟩

/-- What follows a request goes on with its reply. -/
theorem runs_request_bind_iff {q : Request} {f : q.Reply → FlowM β} {r : Except FlowError β} :
    Runs (request q >>= f) c events r c' ↔
      ∃ reply rest, events = ⟨q, reply⟩ :: rest ∧ Runs (f reply) c rest r c' := by
  rw [runs_bind_iff]
  constructor
  -- A request by itself cannot fail, so only the first alternative of a sequence is left.
  · rintro (⟨first, second, a, c1, rfl, h1, h2⟩ | ⟨e, h1, rfl⟩)
    · obtain ⟨reply, rfl, hr, rfl⟩ := runs_request_iff.mp h1
      cases hr
      exact ⟨_, second, rfl, h2⟩
    · obtain ⟨reply, rfl, hr, rfl⟩ := runs_request_iff.mp h1
      cases hr
  · rintro ⟨reply, rest, rfl, h⟩
    exact .inl ⟨[⟨q, reply⟩], rest, reply, c, rfl, runs_request_iff.mpr ⟨reply, rfl, rfl, rfl⟩, h⟩

/-- What follows an attempt goes on with its value in the same context, or ends with its error. -/
theorem runs_attempt_bind_iff {a : Attempt DataError α} {f : α → FlowM β}
    {r : Except FlowError β} :
    Runs (attempt a >>= f) c events r c' ↔
      (∃ first second v, events = first ++ second ∧ Program.Runs a.run first (.ok v) ∧
        Runs (f v) c second r c') ∨
      ∃ e, Program.Runs a.run events (.error e) ∧ r = .error (.data e) ∧ c' = c := by
  -- By itself an attempt leaves the context as it is and wraps its error.
  -- The attempt answers with a value or with an error; the reply says which.
  have hattempt : ∀ {es : List Event} {x : Except FlowError α} {c1 : Context},
      Runs (attempt a) c es x c1 ↔
        ∃ y, Program.Runs a.run es y ∧ x = y.mapError .data ∧ c1 = c := by
    intro es x c1
    show Program.Runs (a.run.andThen _) es (x, c1) ↔ _
    rw [Program.runs_andThen]
    constructor
    · rintro ⟨first, second, y, rfl, h1, h2⟩
      cases y <;>
      · obtain ⟨rfl, hr⟩ := Program.runs_done_iff.mp h2
        cases hr
        rw [List.append_nil]
        exact ⟨_, h1, rfl, rfl⟩
    · rintro ⟨y, h, rfl, rfl⟩
      refine ⟨es, [], y, by simp, h, ?_⟩
      cases y <;> exact .done _
  rw [runs_bind_iff]
  constructor
  · rintro (⟨first, second, v, c1, rfl, h1, h2⟩ | ⟨e, h1, rfl⟩)
    · obtain ⟨y, hy, hv, rfl⟩ := hattempt.mp h1
      cases y with
      | error e => cases hv
      | ok v' =>
        cases hv
        exact .inl ⟨first, second, v, rfl, hy, h2⟩
    · obtain ⟨y, hy, hv, rfl⟩ := hattempt.mp h1
      cases y with
      | error e' =>
        cases hv
        exact .inr ⟨e', hy, rfl, rfl⟩
      | ok v' => cases hv
  · rintro (⟨first, second, v, rfl, h1, h2⟩ | ⟨e, h1, rfl, rfl⟩)
    · exact .inl ⟨first, second, v, c, rfl, hattempt.mpr ⟨.ok v, h1, rfl, rfl⟩, h2⟩
    · exact .inr ⟨.data e, hattempt.mpr ⟨.error e, h1, rfl, rfl⟩, rfl⟩

end FlowM

/-! ## §2 Sessions -/

namespace Context

/-- Setting a session is seen under its own name only. -/
theorem session?_set (c : Context) (name other : String) (s : Session) :
    (c.set name s).session? other = if other = name then some s else c.session? other :=
  c.sessions.get?_insert name other s

/-- Setting the session that is there already changes nothing. -/
theorem set_of_session? {c : Context} {name : String} {s : Session} (h : c.session? name = some s) :
    c.set name s = c := by
  -- On the entries: the first entry under the name is the session itself, so it is put back.
  have hput : ∀ es : List (String × Session), Entries.find? name es = some s →
      Entries.put name s es = es := by
    intro es
    induction es with
    | nil => exact fun h => absurd h (by simp)
    | cons e es ih =>
      obtain ⟨n, v⟩ := e
      intro h
      by_cases hn : n = name <;> simp_all [Entries.find?, Entries.put]
  show Context.mk _ = c
  congr 1
  exact Dictionary.ext (hput _ h)

/-- Of two sessions set under one name the second stays. -/
theorem set_set (c : Context) (name : String) (s s' : Session) :
    (c.set name s).set name s' = c.set name s' := by
  have hput : ∀ es : List (String × Session),
      Entries.put name s' (Entries.put name s es) = Entries.put name s' es := by
    intro es
    induction es with
    | nil => simp [Entries.put]
    | cons e es ih => by_cases he : e.1 = name <;> simp [Entries.put, he, ih]
  exact congrArg Context.mk (Dictionary.ext (hput _))

/-- Setting a session and changing it is setting the changed one. -/
theorem update_set (c : Context) (name : String) (s : Session) (f : Session → Session) :
    (c.set name s).update name f = c.set name (f s) := by
  rw [update, session?_set, if_pos rfl]
  exact set_set c name s (f s)

end Context

/-- What may come of asking for the session of a connection in a context. -/
inductive Opening (services : Services) (name : String) (c : Context) :
    List Event → Except FlowError Session → Context → Prop where
  /-- The session is there already. -/
  | present (s : Session) (h : c.session? name = some s) :
      Opening services name c [] (.ok s) c
  /-- There is no session, and the connection or its dialect is unknown. -/
  | unknown (e : FlowError) (h : c.session? name = none)
      (he : services.connection name = .error e ∨
        ∃ settings e', services.connection name = .ok settings ∧
          services.providers.get settings.dialect = .error e' ∧ e = .data e') :
      Opening services name c [] (.error e) c
  /-- The connection is not opened. -/
  | refused (settings : Settings) (e : DataError) (h : c.session? name = none)
      (hs : services.connection name = .ok settings) :
      Opening services name c [⟨.connect name settings, .error e⟩] (.error (.data e)) c
  /-- The connection is opened and its session kept. -/
  | opened (settings : Settings) (database : String) (p : Provider) (h : c.session? name = none)
      (hs : services.connection name = .ok settings)
      (hp : services.providers.get settings.dialect = .ok p) :
      Opening services name c [⟨.connect name settings, .ok database⟩]
        (.ok { link := ⟨name, database⟩, dialect := p.dialect })
        (c.set name { link := ⟨name, database⟩, dialect := p.dialect })

/-- These are all the ways in which asking for a session can go. -/
theorem FlowM.opening_of_runs {services : Services} {name : String} {c c' : Context}
    {events : List Event} {r : Except FlowError Session}
    (h : Runs (openSession services name) c events r c') :
    Opening services name c events r c' := by
  rw [openSession, runs_silent_bind_iff rfl] at h
  split at h
  · next s hs =>
    obtain ⟨rfl, rfl, rfl⟩ := runs_pure_iff.mp h
    exact .present s hs
  · next hnone =>
    -- The settings and the dialect are looked up before anything is asked for.
    rcases runs_lift_bind_iff.mp h with ⟨settings, hs, h1⟩ | ⟨e, hs, rfl, rfl, rfl⟩
    · rcases runs_ofData_bind_iff.mp h1 with ⟨p, hp, h2⟩ | ⟨e, hp, rfl, rfl, rfl⟩
      · obtain ⟨reply, last, rfl, h3⟩ := runs_request_bind_iff.mp h2
        -- Whether a session is made depends on the answer alone.
        cases reply with
        | error e =>
          obtain ⟨rfl, rfl, rfl⟩ := runs_throw_iff.mp h3
          exact .refused settings e hnone hs
        | ok database =>
          obtain ⟨rfl, rfl, rfl⟩ := (runs_done_iff rfl).mp h3
          exact .opened settings database p hnone hs hp
      · exact .unknown (.data e) hnone (.inr ⟨settings, e, hs, hp, rfl⟩)
    · exact .unknown e hnone (.inl hs)

/-- What may come of entering the transaction of a session, which is not needed for reading. -/
inductive Entry (readOnly : Bool) (s : Session) :
    List Event → Except FlowError Unit → Session → Prop where
  /-- An item that only reads needs no transaction. -/
  | reading (h : readOnly = true) : Entry readOnly s [] (.ok ()) s
  /-- The transaction is open already. -/
  | inside (h : readOnly = false) (ht : s.inTransaction = true) : Entry readOnly s [] (.ok ()) s
  /-- The session has ended. -/
  | ended (h : readOnly = false) (ht : s.inTransaction = false) (hc : s.closed = true) :
      Entry readOnly s [] (.error (.closedConnection s.link.name)) s
  /-- The transaction does not begin. -/
  | refused (e : DataError) (h : readOnly = false) (ht : s.inTransaction = false)
      (hc : s.closed = false) :
      Entry readOnly s [⟨.begin s.link, .error e⟩] (.error (.data e)) s
  /-- The transaction begins. -/
  | begun (h : readOnly = false) (ht : s.inTransaction = false) (hc : s.closed = false) :
      Entry readOnly s [⟨.begin s.link, .ok ()⟩] (.ok ()) { s with inTransaction := true }

/-- These are all the ways in which entering a transaction can go, where one is needed. -/
theorem FlowM.entry_of_runs {name : String} {s : Session} {c c' : Context} {events : List Event}
    {r : Except FlowError Unit} (h : Runs (ensureTransaction name s) c events r c') :
    ∃ s', Entry false s events r s' ∧ c' = c.set name s' := by
  -- The task runs the step of the session and sets what comes of it.
  obtain ⟨first, second, ⟨x, s'⟩, rfl, hs, hdone⟩ := Program.runs_andThen.mp h
  obtain ⟨rfl, rfl, rfl⟩ := Program.runs_done_pair_iff.mp hdone
  rw [List.append_nil]
  refine ⟨s', ?_, rfl⟩
  rw [Session.ensureTransaction] at hs
  cases ht : s.inTransaction with
  | true =>
    rw [if_pos ht] at hs
    obtain ⟨rfl, rfl, rfl⟩ := Program.runs_done_pair_iff.mp hs
    exact .inside rfl ht
  | false =>
    -- Only now does it matter whether the session has ended.
    rw [if_neg (by simp [ht])] at hs
    cases hc : s.closed with
    | true =>
      have hlink : s.openLink = .error (.closedConnection s.link.name) := by
        rw [Session.openLink, if_pos hc]
      rw [hlink] at hs
      obtain ⟨rfl, rfl, rfl⟩ := Program.runs_done_pair_iff.mp hs
      exact .ended rfl ht hc
    | false =>
      have hlink : s.openLink = .ok s.link := by
        rw [Session.openLink, if_neg (by simp [hc])]
      rw [hlink] at hs
      obtain ⟨reply, last, rfl, hr⟩ := Program.runs_ask_iff.mp hs
      rcases reply with e | ⟨⟩
      · obtain ⟨rfl, rfl, rfl⟩ := Program.runs_done_pair_iff.mp hr
        exact .refused e rfl ht hc
      · obtain ⟨rfl, rfl, rfl⟩ := Program.runs_done_pair_iff.mp hr
        exact .begun rfl ht hc

/-! ## §3 Statements -/

/-- The attempt runs statements on the connection only, and so many of them if it succeeds. -/
def Attempt.Sends {α : Type} (link : Link) (count : Nat) (a : Attempt DataError α) : Prop :=
  a.run.Only (fun q => q.statement? = some link) ∧
    ∀ events v, a.run.Runs events (.ok v) → events.length = count

namespace Attempt.Sends

variable {α β : Type} {link : Link}

theorem lift (x : Except DataError α) : Sends link 0 (liftM x : Attempt DataError α) := by
  refine ⟨Program.only_done _ x, fun events v h => ?_⟩
  rw [(Program.runs_done_iff.mp h).1]
  rfl

theorem pure (v : α) : Sends link 0 (Pure.pure v : Attempt DataError α) := lift (.ok v)

/-- A single statement. -/
theorem single {a : Attempt DataError α} {q : Request} (hq : q.statement? = some link)
    (ha : ∀ events r, a.run.Runs events r → ∃ reply, events = [⟨q, reply⟩]) : Sends link 1 a := by
  constructor
  · intro events r h e he
    obtain ⟨reply, rfl⟩ := ha events r h
    rw [List.mem_singleton.mp he]
    exact hq
  · intro events v h
    obtain ⟨reply, rfl⟩ := ha events _ h
    rfl

/-- Attempts one after another send as many statements as both together. -/
theorem bind {m n : Nat} {a : Attempt DataError α} {f : α → Attempt DataError β}
    (ha : a.Sends link m) (hf : ∀ v, (f v).Sends link n) : (a >>= f).Sends link (m + n) := by
  refine ⟨ha.1.bind fun v => (hf v).1, fun events w h => ?_⟩
  -- A run of both that succeeds is one of the first that succeeds, followed by one of the second.
  rcases Program.runs_attempt_bind_iff.mp h with ⟨first, second, v, rfl, h1, h2⟩ | ⟨e, -, hw⟩
  · rw [List.length_append, ha.2 first v h1, (hf v).2 second w h2]
  · cases hw

/-- The number of statements returned with what is made of the value. -/
theorem counted {n : Nat} {a : Attempt DataError α} (ha : a.Sends link n) (hn : 0 < n)
    (f : α → β) :
    Program.Only (fun q => q.statement? = some link)
        (do let v ← a; Pure.pure (f v, n) : Attempt DataError (β × Nat)).run ∧
      ∀ events v, Program.Runs (do let v ← a; Pure.pure (f v, n) : Attempt DataError (β × Nat)).run
        events (.ok v) → events.length = v.2 ∧ 0 < v.2 := by
  refine ⟨ha.1.bind fun _ => Program.only_done _ _, fun events v h => ?_⟩
  rcases Program.runs_attempt_bind_iff.mp h with ⟨first, second, w, rfl, h1, h2⟩ | ⟨e, -, hv⟩
  · obtain ⟨rfl, hv⟩ := Program.runs_attempt_pure_iff.mp h2
    cases hv
    rw [List.append_nil]
    exact ⟨ha.2 first w h1, hn⟩
  · cases hv

end Attempt.Sends

namespace Link

/-- An `execute` is one statement. -/
theorem execute_sends (l : Link) (sql : String) (params : Record) :
    (l.execute sql params).Sends l 1 :=
  .single (q := .execute l sql params) rfl fun _ r h => ⟨r, Program.runs_request_iff.mp h⟩

theorem scalar_sends (l : Link) (sql : String) (params : Record) :
    (l.scalar sql params).Sends l 1 :=
  .single (q := .scalar l sql params) rfl fun _ r h => ⟨r, Program.runs_request_iff.mp h⟩

theorem query_sends (l : Link) (sql : String) (params : Record) :
    (l.query sql params).Sends l 1 :=
  .single (q := .query l sql params) rfl fun _ r h => ⟨r, Program.runs_request_iff.mp h⟩

end Link

namespace Query

theorem rows_sends (q : Query) (l : Link) : (q.rows l).Sends l 1 :=
  (Attempt.Sends.lift q.build).bind fun s => l.query_sends s.sql s.params

/-- A page takes its count and its rows. -/
theorem pageRows_sends (q : Query) (l : Link) : (q.pageRows l).Sends l 2 := by
  have hcount : (q.count l).Sends l 1 :=
    (Attempt.Sends.lift q.buildCount).bind fun s =>
      (l.scalar_sends s.sql s.params).bind fun _ => .pure _
  exact (Attempt.Sends.lift q.offset).bind fun _ => hcount.bind fun _ =>
    (q.rows_sends l).bind fun _ => .pure _

end Query

/-- A query runs one or two statements on its connection, and says how many when it succeeds. -/
theorem Services.runQuery_statements (kind : ExecKind) (q : Query) (l : Link) :
    (runQuery kind q l).run.Only (fun q => q.statement? = some l) ∧
      ∀ events v, (runQuery kind q l).run.Runs events (.ok v) →
        events.length = v.2 ∧ 0 < v.2 := by
  unfold runQuery
  -- A paged query has its count and its rows, whatever its kind; another one has a single
  -- statement.
  by_cases hpaged : q.isPaged = true
  · simp only [if_pos hpaged]
    exact (q.pageRows_sends l).counted (by decide) Page.toJson
  · simp only [if_neg hpaged]
    cases kind with
    | query =>
      exact (q.rows_sends l).counted (by decide) fun rows => Json.array (rows.map Record.toJson)
    | single =>
      have hsingle : (q.single? l).Sends l 1 := (q.rows_sends l).bind fun _ => .pure _
      exact hsingle.counted (by decide) fun row => (row.map Record.toJson).getD .null
    | scalar =>
      have hscalar : (q.scalar l).Sends l 1 :=
        (Attempt.Sends.lift q.build).bind fun s => l.scalar_sends s.sql s.params
      exact hscalar.counted (by decide) id
    | execute =>
      have hexecute : (q.execute l).Sends l 1 :=
        (Attempt.Sends.lift q.build).bind fun s => l.execute_sends s.sql s.params
      exact hexecute.counted (by decide) Json.ofUInt64

/-! ## §4 Expansion -/

/-- Whether a request concerns the memory of expanded fragments. -/
def Request.isMemory : Request → Bool
  | remembered _ => true
  | remember _ _ => true
  | _ => false

mutual

/-- Expanding an item asks for what is remembered and nothing else. -/
theorem Fragment.expand_memory (items : Dictionary Item) (stack : List String) (name : String) :
    Program.Only (fun q => q.isMemory = true) (Fragment.expand items stack name).run := by
  rw [Fragment.expand]
  -- What is remembered is looked up first; the rest depends on the answer.
  refine Program.Only.bind (Program.Only.andThen (Program.only_request rfl) fun _ =>
    Program.only_done _ _) fun known => ?_
  cases known with
  | some text => exact Program.only_done _ _
  | none =>
    dsimp only
    -- An open name is a cycle, an unknown one an error; neither asks for anything.
    split
    · exact Program.only_done _ _
    · next hn =>
      split
      · exact Program.only_done _ _
      · next item hi =>
        have _smaller := Fragment.unopened_lt hi hn
        -- Behind the name fewer items are left to open.
        apply (Fragment.expandAll_memory items (stack ++ [name]) _).bind
        intro text
        refine Program.Only.bind (Program.Only.andThen (Program.only_request rfl) fun _ =>
          Program.only_done _ _) fun _ => Program.only_done _ _
termination_by (Fragment.unopened items stack, 0)
decreasing_by
  exact Prod.Lex.left _ _ _smaller

theorem Fragment.expandAll_memory (items : Dictionary Item) (stack : List String)
    (segments : List Segment) :
    Program.Only (fun q => q.isMemory = true) (Fragment.expandAll items stack segments).run := by
  match segments with
  | [] =>
    rw [Fragment.expandAll]
    exact Program.only_done _ _
  | .literal text :: rest =>
    rw [Fragment.expandAll]
    exact (Fragment.expandAll_memory items stack rest).bind fun _ => Program.only_done _ _
  | .reference name :: rest =>
    rw [Fragment.expandAll]
    exact (Fragment.expand_memory items stack name).bind fun _ =>
      (Fragment.expandAll_memory items stack rest).bind fun _ => Program.only_done _ _
termination_by (Fragment.unopened items stack, segments.length)
decreasing_by
  all_goals exact Prod.Lex.right _ (by simp)

end

/-- The memory concerns no connection. -/
theorem Request.name?_of_isMemory {q : Request} (h : q.isMemory = true) : q.name? = none := by
  cases q <;> first | rfl | cases h

/-- Expanding an item concerns no connection. -/
theorem Fragment.expand_only (items : Dictionary Item) (stack : List String) (name : String) :
    Program.Only (fun q => q.name? = none) (Fragment.expand items stack name).run :=
  fun events r h e he =>
    Request.name?_of_isMemory (Fragment.expand_memory items stack name events r h e he)

namespace Fragment

variable {items : Dictionary Item} {stack : List String} {name text after : String}
  {segments : List Segment} {events rest : List Program.Event}

/-- An item that is remembered is not expanded again. -/
theorem runs_expand_of_remembered (items : Dictionary Item) (stack : List String)
    (name text : String) :
    (expand items stack name).run.Runs [⟨.remembered name, some text⟩] (.ok text) := by
  rw [expand]
  exact .ask (.remembered name) _ (some text) [] _ (.done _)

/-- An item that is not remembered is expanded by its text, and is remembered from then on. -/
theorem runs_expand_of_forgotten {item : Item} (hn : name ∉ stack)
    (hi : items.get? name = some item)
    (h : (expandAll items (stack ++ [name]) (Segment.segments item.text.toList)).run.Runs events
      (.ok text)) :
    (expand items stack name).run.Runs
      (⟨.remembered name, none⟩ :: (events ++ [⟨.remember name text, ()⟩])) (.ok text) := by
  rw [expand]
  refine .ask (.remembered name) _ (none : Option String) _ _ ?_
  -- The two guards are the hypotheses: the name is not open, and it names the item.
  show Program.Runs (ExceptT.run (if hn : name ∈ stack then _ else _)) _ _
  rw [dif_neg hn]
  split
  · next hnone =>
    rw [hi] at hnone
    cases hnone
  · next found hfound =>
    obtain rfl : item = found := Option.some.inj (hi.symm.trans hfound)
    refine Program.runs_attempt_bind_iff.mpr (.inl ⟨events, _, text, rfl, h, ?_⟩)
    exact .ask (.remember name text) _ () [] _ (.done _)

/-- No text is left to expand. -/
theorem runs_expandAll_nil (items : Dictionary Item) (stack : List String) :
    (expandAll items stack []).run.Runs [] (.ok "") := by
  rw [expandAll]
  exact .done _

/-- Literal text is kept, in front of what comes of the rest. -/
theorem runs_expandAll_literal (literal : List Char)
    (h : (expandAll items stack segments).run.Runs events (.ok after)) :
    (expandAll items stack (.literal literal :: segments)).run.Runs events
      (.ok (String.ofList literal ++ after)) := by
  rw [expandAll]
  exact Program.runs_attempt_bind_iff.mpr
    (.inl ⟨events, [], after, (List.append_nil events).symm, h, .done _⟩)

/-- A reference is expanded in its place, before the rest. -/
theorem runs_expandAll_reference (hname : (expand items stack name).run.Runs events (.ok text))
    (h : (expandAll items stack segments).run.Runs rest (.ok after)) :
    (expandAll items stack (.reference name :: segments)).run.Runs (events ++ rest)
      (.ok (text ++ after)) := by
  rw [expandAll]
  refine Program.runs_attempt_bind_iff.mpr (.inl ⟨events, rest, text, rfl, hname, ?_⟩)
  exact Program.runs_attempt_bind_iff.mpr
    (.inl ⟨rest, [], after, (List.append_nil rest).symm, h, .done _⟩)

end Fragment

end SqlService
