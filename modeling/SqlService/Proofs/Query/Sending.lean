import SqlService.Proofs.Query.Insertion
import SqlService.Proofs.Query.Merging

/-!
# What a query sends

A query composes its statement and then sends it, so that what cannot be composed sends nothing.  A
page needs two statements, of which the second is composed only after the first has been sent.  Both
stand on the same filtered statement, and the offset of the page is looked at first, which leaves
nothing that could still fail.

Main statements: `composing` and `sendsPage`.
-/

namespace SqlService

open Program (Event)

/-! ## §1 Composition -/

/-- Whether the error says that a statement cannot be composed. -/
def DataError.isComposition : DataError → Bool
  | invalidFilter _ => true
  | parameterCollision _ => true
  | pageOutOfRange _ _ => true
  | _ => false

/-- A page is asked for behind the statement. -/
theorem Dialect.page_append (d : Dialect) (sql clause : String) (offset limit : UInt64) :
    d.page (sql ++ clause) offset limit = sql ++ d.page clause offset limit := by
  cases d <;> simp [page, String.append_assoc]

namespace Query

variable {q : Query}

/-- Without a page there is an offset. -/
theorem offset_of_unpaged (h : q.isPaged = false) : ∃ offset, q.offset = .ok offset := by
  have hsize : q.pageSize = 0 := by simpa [isPaged] using h
  unfold offset
  split
  · exact ⟨_, rfl⟩
  -- A page of no rows lies at zero, whatever its index.
  · exact ⟨_, if_pos (by simp [hsize, UInt64.size])⟩

/-- A page out of reach cannot be composed. -/
theorem isComposition_of_offset {e : DataError} (h : q.offset = .error e) :
    e.isComposition = true := by
  unfold offset at h
  split at h
  · cases h
  · dsimp only at h
    split at h
    · cases h
    · cases h
      rfl

/-- What cannot be filtered cannot be composed. -/
theorem isComposition_of_filtered {e : DataError} (h : q.filtered = .error e) :
    e.isComposition = true := by
  cases hfilter : q.filter with
  | none =>
    unfold filtered at h
    rw [hfilter] at h
    cases h
  | some f =>
    -- A well-formed filter can only collide with the names of the caller.
    by_cases hf : f.WellFormed
    · rw [filtered_of_wellFormed hfilter hf] at h
      split at h
      · cases h
        rfl
      · cases h
    · obtain ⟨fault, -, hfault⟩ := filtered_of_malformed hfilter hf
      rw [hfault] at h
      cases h
      rfl

/-- What stands behind the filtered statement in the whole one: the order and the page. -/
def clauses (q : Query) (offset : UInt64) : String :=
  if q.isPaged then q.dialect.page (orderClause q.sorts) offset q.pageSize
  else orderClause q.sorts

/-- The whole statement is composed if the filtered one is and the page is within reach. -/
theorem build_eq (q : Query) : q.build = do
    let base ← q.filtered
    let offset ← q.offset
    return { base with sql := base.sql ++ q.clauses offset } := by
  unfold build
  cases q.filtered with
  | error e => rfl
  | ok base =>
    cases hpaged : q.isPaged with
    | true =>
      show (do let offset ← q.offset; pure _) = (do let offset ← q.offset; pure _)
      congr 1
      funext offset
      rw [Dialect.page_append, clauses, if_pos hpaged]
    | false =>
      -- Without a page the offset is not looked at, and there always is one.
      obtain ⟨offset, hoffset⟩ := offset_of_unpaged hpaged
      rw [hoffset]
      show Except.ok _ = Except.ok _
      rw [clauses, if_neg (by simp [hpaged])]

/-- What may come of composing the count and the whole statement. -/
inductive Composing (q : Query) :
    Except DataError BoundStatement → Except DataError BoundStatement → Prop where
  /-- The filtered statement, which both stand on, cannot be composed. -/
  | unfiltered (e : DataError) (hfiltered : q.filtered = .error e) :
      Composing q (.error e) (.error e)
  /-- The page is out of reach, for which the count does not care. -/
  | unreached (base : BoundStatement) (e : DataError) (hfiltered : q.filtered = .ok base)
      (hoffset : q.offset = .error e) :
      Composing q (.ok ⟨"SELECT COUNT(*) FROM (" ++ base.sql ++ ") X", base.params⟩) (.error e)
  /-- Nothing is in the way. -/
  | composed (base : BoundStatement) (offset : UInt64) (hfiltered : q.filtered = .ok base)
      (hoffset : q.offset = .ok offset) :
      Composing q (.ok ⟨"SELECT COUNT(*) FROM (" ++ base.sql ++ ") X", base.params⟩)
        (.ok ⟨base.sql ++ q.clauses offset, base.params⟩)

/-- These are all the ways in which composing a query can go. -/
theorem composing (q : Query) : Composing q q.buildCount q.build := by
  rw [build_eq, buildCount]
  cases hfiltered : q.filtered with
  | error e => exact .unfiltered e hfiltered
  | ok base =>
    cases hoffset : q.offset with
    | error e => exact .unreached base e hfiltered hoffset
    | ok offset => exact .composed base offset hfiltered hoffset

/-- An error of the whole statement is one of composition. -/
theorem isComposition_of_build {e : DataError} (h : q.build = .error e) :
    e.isComposition = true := by
  have hcomposing := q.composing
  rw [h] at hcomposing
  generalize q.buildCount = count at hcomposing
  cases hcomposing with
  | unfiltered _ hfiltered => exact isComposition_of_filtered hfiltered
  | unreached _ _ hfiltered hoffset => exact isComposition_of_offset hoffset

/-- So is an error of the count. -/
theorem isComposition_of_buildCount {e : DataError} (h : q.buildCount = .error e) :
    e.isComposition = true := by
  have hcomposing := q.composing
  rw [h] at hcomposing
  generalize q.build = page at hcomposing
  cases hcomposing with
  | unfiltered _ hfiltered => exact isComposition_of_filtered hfiltered

end Query

/-! ## §2 One statement -/

/-- The attempt needs one statement: it fails with what keeps that from being composed, or sends it
and makes its answer of the reply. -/
structure Attempt.SendsOne {α : Type} (composed : Except DataError BoundStatement)
    (request : BoundStatement → Request) (answer : ∀ s, (request s).Reply → Except DataError α)
    (a : Attempt DataError α) : Prop where
  uncomposed : ∀ e, composed = .error e → e.isComposition = true ∧
    ∀ events r, a.run.Runs events r ↔ events = [] ∧ r = .error e
  sent : ∀ s, composed = .ok s →
    ∀ events r, a.run.Runs events r ↔ ∃ reply, events = [⟨request s, reply⟩] ∧ r = answer s reply

namespace Attempt.SendsOne

variable {α β : Type} {composed : Except DataError BoundStatement}
  {request : BoundStatement → Request} {answer : ∀ s, (request s).Reply → Except DataError α}

/-- What composes a statement and then makes its one request. -/
theorem of_composed {f : BoundStatement → Attempt DataError α}
    (hcomposed : ∀ e, composed = .error e → e.isComposition = true)
    (hf : ∀ s, (f s).run = .ask (request s) fun reply => .done (answer s reply)) :
    SendsOne composed request answer (do let s ← composed; f s) where
  uncomposed := by
    rintro e rfl
    exact ⟨hcomposed e rfl, fun events r => Program.runs_done_iff⟩
  sent := by
    rintro s rfl events r
    show Program.Runs (f s).run events r ↔ _
    rw [hf s, Program.runs_ask_iff]
    constructor
    · rintro ⟨reply, rest, rfl, h⟩
      obtain ⟨rfl, rfl⟩ := Program.runs_done_iff.mp h
      exact ⟨reply, rfl, rfl⟩
    · rintro ⟨reply, rfl, rfl⟩
      exact ⟨reply, [], rfl, .done _⟩

/-- What is made of the answer sends no further statement. -/
theorem map {a : Attempt DataError α} (h : SendsOne composed request answer a) (f : α → β) :
    SendsOne composed request (fun s reply => (answer s reply).map f)
      (do let v ← a; pure (f v)) where
  uncomposed e he := by
    refine ⟨(h.uncomposed e he).1, fun events r => ?_⟩
    simp only [Program.runs_attempt_map_iff, (h.uncomposed e he).2]
    constructor
    · rintro ⟨x, ⟨rfl, rfl⟩, rfl⟩
      exact ⟨rfl, rfl⟩
    · rintro ⟨rfl, rfl⟩
      exact ⟨_, ⟨rfl, rfl⟩, rfl⟩
  sent s hs events r := by
    simp only [Program.runs_attempt_map_iff, h.sent s hs]
    constructor
    · rintro ⟨x, ⟨reply, rfl, rfl⟩, rfl⟩
      exact ⟨reply, rfl, rfl⟩
    · rintro ⟨reply, rfl, rfl⟩
      exact ⟨_, ⟨reply, rfl, rfl⟩, rfl⟩

end Attempt.SendsOne

namespace Query

variable (q : Query) (l : Link)

/-- Executing sends the whole statement. -/
theorem execute_sendsOne : (q.execute l).SendsOne q.build (fun s => .execute l s.sql s.params)
    fun _ reply => reply :=
  .of_composed (fun _ => isComposition_of_build) fun _ => rfl

/-- Asking for one value sends the whole statement. -/
theorem scalar_sendsOne : (q.scalar l).SendsOne q.build (fun s => .scalar l s.sql s.params)
    fun _ reply => reply :=
  .of_composed (fun _ => isComposition_of_build) fun _ => rfl

/-- Asking for the rows sends the whole statement. -/
theorem rows_sendsOne : (q.rows l).SendsOne q.build (fun s => .query l s.sql s.params)
    fun _ reply => reply :=
  .of_composed (fun _ => isComposition_of_build) fun _ => rfl

/-- Asking for one row asks for all and takes the first. -/
theorem single?_sendsOne : (q.single? l).SendsOne q.build (fun s => .query l s.sql s.params)
    fun _ (reply : Except DataError (List Record)) => reply.map List.head? :=
  (q.rows_sendsOne l).map List.head?

/-- Counting sends the count. -/
theorem count_sendsOne : (q.count l).SendsOne q.buildCount (fun s => .scalar l s.sql s.params)
    fun _ (reply : Except DataError Json) => reply.map Json.count :=
  .of_composed (fun _ => isComposition_of_buildCount) fun s =>
    congrArg (Program.ask (.scalar l s.sql s.params)) (funext fun reply => by cases reply <;> rfl)

/-! ## §3 A page -/

/-- What may come of a page whose count and whose rows are composed. -/
inductive Paging (l : Link) (count page : BoundStatement) :
    List Event → Except DataError Page → Prop where
  /-- The rows are not asked for after the count has failed. -/
  | refused (e : DataError) :
      Paging l count page [⟨.scalar l count.sql count.params, .error e⟩] (.error e)
  /-- The rows are asked for after they have been counted. -/
  | counted (value : Json) (reply : Except DataError (List Record)) :
      Paging l count page
        [⟨.scalar l count.sql count.params, .ok value⟩, ⟨.query l page.sql page.params, reply⟩]
        (reply.map (Page.mk value.count))

/-- The page is sent as a whole or not at all. -/
structure SendsPage (q : Query) (l : Link) : Prop where
  uncomposed : (∃ e, q.buildCount = .error e ∨ q.build = .error e) →
    ∃ e, e.isComposition = true ∧
      ∀ events r, (q.pageRows l).run.Runs events r ↔ events = [] ∧ r = .error e
  sent : ∀ count page, q.buildCount = .ok count → q.build = .ok page →
    (∃ base clauses, q.filtered = .ok base ∧
      count = ⟨"SELECT COUNT(*) FROM (" ++ base.sql ++ ") X", base.params⟩ ∧
      page = ⟨base.sql ++ clauses, base.params⟩) ∧
    ∀ events r, (q.pageRows l).run.Runs events r ↔ Paging l count page events r

variable {q l}

/-- Without an offset nothing is sent. -/
theorem runs_pageRows_of_offset {e : DataError} (h : q.offset = .error e) {events : List Event}
    {r : Except DataError Page} :
    (q.pageRows l).run.Runs events r ↔ events = [] ∧ r = .error e := by
  rw [pageRows, h]
  exact Program.runs_done_iff

/-- With an offset a page is its count and then its rows. -/
theorem runs_pageRows_iff {offset : UInt64} (h : q.offset = .ok offset) {events : List Event}
    {r : Except DataError Page} :
    (q.pageRows l).run.Runs events r ↔
      (∃ first second total, events = first ++ second ∧
        (q.count l).run.Runs first (.ok total) ∧
        ∃ x, (q.rows l).run.Runs second x ∧ r = x.map (Page.mk total)) ∨
      ∃ e, (q.count l).run.Runs events (.error e) ∧ r = .error e := by
  rw [pageRows, h]
  show Program.Runs (ExceptT.run (q.count l >>= _)) events r ↔ _
  rw [Program.runs_attempt_bind_iff]
  simp only [Program.runs_attempt_map_iff]

/-- Within reach a page lacks its count if it lacks anything. -/
theorem exists_buildCount_error {offset : UInt64} (h : q.offset = .ok offset)
    (huncomposed : ∃ e, q.buildCount = .error e ∨ q.build = .error e) :
    ∃ e, q.buildCount = .error e := by
  have hcomposing := q.composing
  generalize q.buildCount = count at *
  generalize q.build = page at *
  cases hcomposing with
  | unfiltered e => exact ⟨e, rfl⟩
  | unreached _ e _ hoffset =>
    rw [h] at hoffset
    cases hoffset
  | composed =>
    obtain ⟨e, he | he⟩ := huncomposed
    · cases he
    · cases he

/-- What is composed for a page stands on one filtered statement. -/
theorem same_base {count page : BoundStatement} (hcount : q.buildCount = .ok count)
    (hpage : q.build = .ok page) :
    ∃ base offset, q.filtered = .ok base ∧ q.offset = .ok offset ∧
      count = ⟨"SELECT COUNT(*) FROM (" ++ base.sql ++ ") X", base.params⟩ ∧
      page = ⟨base.sql ++ q.clauses offset, base.params⟩ := by
  have hcomposing := q.composing
  rw [hcount, hpage] at hcomposing
  cases hcomposing with
  | composed base offset hfiltered hoffset =>
    exact ⟨base, offset, hfiltered, hoffset, rfl, rfl⟩

/-- A page is sent as a whole or not at all. -/
theorem sendsPage (q : Query) (l : Link) : SendsPage q l where
  uncomposed huncomposed := by
    cases hoffset : q.offset with
    | error e =>
      exact ⟨e, isComposition_of_offset hoffset, fun _ _ => runs_pageRows_of_offset hoffset⟩
    | ok offset =>
      -- The offset being there, it is the count that fails, and it comes first.
      obtain ⟨e, he⟩ := exists_buildCount_error hoffset huncomposed
      obtain ⟨hcomposition, hcount⟩ := (q.count_sendsOne l).uncomposed e he
      refine ⟨e, hcomposition, fun events r => ?_⟩
      -- Its run is the failing count and nothing else.
      rw [runs_pageRows_iff hoffset]
      simp only [hcount]
      constructor
      · rintro (⟨_, _, _, -, ⟨-, heq⟩, -⟩ | ⟨_, ⟨rfl, heq⟩, rfl⟩)
        · cases heq
        · cases heq
          exact ⟨rfl, rfl⟩
      · rintro ⟨rfl, rfl⟩
        exact .inr ⟨e, ⟨rfl, rfl⟩, rfl⟩
  sent count page hcount hpage := by
    obtain ⟨base, offset, hfiltered, hoffset, hbase, hwhole⟩ := same_base hcount hpage
    refine ⟨⟨base, q.clauses offset, hfiltered, hbase, hwhole⟩, fun events r => ?_⟩
    rw [runs_pageRows_iff hoffset]
    simp only [(q.count_sendsOne l).sent _ hcount, (q.rows_sendsOne l).sent _ hpage]
    -- From a run to its kind: the reply to the count decides whether the rows are asked for.
    constructor
    · rintro (⟨_, _, total, rfl, ⟨counted, rfl, htotal⟩, reply, ⟨_, rfl, rfl⟩, rfl⟩ |
        ⟨e, ⟨counted, rfl, he⟩, rfl⟩)
      · rcases counted with e | value
        · cases htotal
        · cases htotal
          exact .counted value reply
      · rcases counted with e | value
        · cases he
          exact .refused e
        · cases he
    -- And every kind is a run.
    · rintro (e | ⟨value, reply⟩)
      · exact .inr ⟨e, ⟨.error e, rfl, rfl⟩, rfl⟩
      · exact .inl ⟨_, _, value.count, rfl, ⟨.ok value, rfl, rfl⟩, reply, ⟨reply, rfl, rfl⟩, rfl⟩

end Query

/-! ## §4 Failures -/

/-- The error that a statement is refused with. -/
def Request.refusal? : (q : Request) → q.Reply → Option DataError
  | .execute _ _ _, .error e => some e
  | .scalar _ _ _, .error e => some e
  | .query _ _ _, .error e => some e
  | .script _ _, .error e => some e
  | _, _ => none

/-- The last thing that happens is that a statement is refused with the error. -/
def Refused (events : List Event) (e : DataError) : Prop :=
  ∃ before x, events = before ++ [x] ∧ x.request.refusal? x.reply = some e

/-- A refusal stays the last thing behind what came before. -/
theorem Refused.append {events : List Event} {e : DataError} (before : List Event)
    (h : Refused events e) : Refused (before ++ events) e := by
  obtain ⟨middle, x, rfl, hx⟩ := h
  exact ⟨before ++ middle, x, by rw [List.append_assoc], hx⟩

/-- The attempt sends nothing if composing fails, and fails for nothing but a refusal if anything
has been sent. -/
structure Attempt.ComposedFirst {α : Type} (composed : Except DataError BoundStatement)
    (a : Attempt DataError α) : Prop where
  unsent : ∀ e, composed = .error e → ∀ events r, a.run.Runs events r →
    events = [] ∧ ∃ e', r = .error e'
  refused : ∀ events e, a.run.Runs events (.error e) → events = [] ∨ Refused events e

namespace Attempt

variable {α β : Type} {composed : Except DataError BoundStatement} {a : Attempt DataError α}

/-- What is made of a value neither sends nor fails. -/
theorem ComposedFirst.map (h : a.ComposedFirst composed) (f : α → β) :
    ComposedFirst composed (do let v ← a; pure (f v)) where
  unsent e he events r hr := by
    obtain ⟨x, hx, rfl⟩ := Program.runs_attempt_map_iff.mp hr
    obtain ⟨rfl, e', rfl⟩ := h.unsent e he events x hx
    exact ⟨rfl, e', rfl⟩
  refused events e hr := by
    obtain ⟨x, hx, heq⟩ := Program.runs_attempt_map_iff.mp hr
    cases x with
    | error e' =>
      cases heq
      exact h.refused events e hx
    | ok v => cases heq

/-- What needs one statement fails for its composition or for the answer. -/
theorem SendsOne.composedFirst {request : BoundStatement → Request}
    {answer : ∀ s, (request s).Reply → Except DataError α}
    (h : a.SendsOne composed request answer)
    (hanswer : ∀ s reply e, answer s reply = .error e → (request s).refusal? reply = some e) :
    a.ComposedFirst composed where
  unsent e he events r hr := by
    obtain ⟨rfl, rfl⟩ := ((h.uncomposed e he).2 events r).mp hr
    exact ⟨rfl, e, rfl⟩
  refused events e hr := by
    -- Composed, the one statement is sent, and only its reply can be an error.
    cases hcomposed : composed with
    | error e' => exact .inl (((h.uncomposed e' hcomposed).2 events _).mp hr).1
    | ok s =>
      obtain ⟨reply, rfl, heq⟩ := (h.sent s hcomposed events _).mp hr
      exact .inr ⟨[], _, rfl, hanswer s reply e heq.symm⟩

end Attempt

/-- The last statement that a failing page sends is refused. -/
theorem Query.Paging.refused_of_error {l : Link} {count page : BoundStatement}
    {events : List Event} {e : DataError} (h : Query.Paging l count page events (.error e)) :
    Refused events e := by
  generalize hr : Except.error e = r at h
  cases h with
  | refused e' =>
    cases hr
    exact ⟨[], _, rfl, rfl⟩
  | counted value reply =>
    cases reply with
    | error e' =>
      cases hr
      exact ⟨[_], _, rfl, rfl⟩
    | ok rows => cases hr

/-- A page that cannot be composed is not counted, and its rows are the last that it asks for. -/
theorem Query.pageRows_composedFirst (q : Query) (l : Link) :
    (q.pageRows l).ComposedFirst q.build where
  unsent e he events r hr := by
    obtain ⟨e', -, hruns⟩ := (q.sendsPage l).uncomposed ⟨e, .inr he⟩
    obtain ⟨rfl, rfl⟩ := (hruns events r).mp hr
    exact ⟨rfl, e', rfl⟩
  refused events e hr := by
    have hnothing : (∃ e, q.buildCount = .error e ∨ q.build = .error e) → events = [] := by
      intro huncomposed
      obtain ⟨e', -, hruns⟩ := (q.sendsPage l).uncomposed huncomposed
      exact ((hruns events _).mp hr).1
    -- If either part cannot be composed, nothing is sent; otherwise the page fails in one of its
    -- two replies.
    cases hcount : q.buildCount with
    | error e' => exact .inl (hnothing ⟨e', .inl hcount⟩)
    | ok count =>
      cases hpage : q.build with
      | error e' => exact .inl (hnothing ⟨e', .inr hpage⟩)
      | ok page =>
        have hpaging := (((q.sendsPage l).sent count page hcount hpage).2 events _).mp hr
        exact .inr hpaging.refused_of_error

end SqlService
