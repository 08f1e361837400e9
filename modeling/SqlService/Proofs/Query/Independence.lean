import SqlService.Proofs.Filter.Alike
import SqlService.Proofs.Query.Insertion
import SqlService.Proofs.Statement.LiveNames

/-!
# Texts that tell nothing about values

What is sent to a database as the text of a statement is decided by names and shapes.  Two queries
are alike if they differ at most in the values of the caller's parameters and in those that the
filter compares with; two rows of one table differ in values only.  Neither a composed statement, nor
what it is bound to, nor the statements of an insert tell alike ones apart.

Main statement: `texts_independent`.
-/

namespace SqlService

open Program (Event)

/-! ## §1 Statements -/

/-- The statements have the same text and the same names, before binding and after it. -/
structure BoundStatement.Alike (s s' : BoundStatement) : Prop where
  sql : s.sql = s'.sql
  names : s.params.names = s'.params.names
  bound_sql : ∀ d, (Statement.bind d s.sql s.params).sql = (Statement.bind d s'.sql s'.params).sql
  bound_count : ∀ d, (Statement.bind d s.sql s.params).values.length =
    (Statement.bind d s'.sql s'.params).values.length

/-- A text is bound by the names that have values, whatever these are. -/
theorem BoundStatement.alike_of_names {s s' : BoundStatement} (hsql : s.sql = s'.sql)
    (hnames : s.params.names = s'.params.names) : s.Alike s' := by
  have hcontains : ∀ n, s.params.contains n = s'.params.contains n :=
    Dictionary.contains_congr hnames
  refine ⟨hsql, hnames, fun d => ?_, fun d => ?_⟩
  · rw [Statement.bind, Statement.bind, hsql, Statement.bindPieces_congr d hcontains]
  · rw [Statement.length_values_bind, Statement.length_values_bind, hsql,
      Statement.boundBy_congr fun n _ => hcontains n]

/-- Composing fails with the same error or gives statements that are alike. -/
inductive ComposedAlike :
    Except DataError BoundStatement → Except DataError BoundStatement → Prop where
  | failed (e : DataError) : ComposedAlike (.error e) (.error e)
  | composed {s s' : BoundStatement} (h : s.Alike s') : ComposedAlike (.ok s) (.ok s')

/-- Whatever is made of the text of alike statements, they stay alike. -/
theorem ComposedAlike.bind {r r' : Except DataError BoundStatement}
    {f f' : BoundStatement → Except DataError BoundStatement} (h : ComposedAlike r r')
    (hf : ∀ s s', s.Alike s' → ComposedAlike (f s) (f' s')) :
    ComposedAlike (r >>= f) (r' >>= f') := by
  cases h with
  | failed e => exact .failed e
  | composed hs => exact hf _ _ hs

/-! ## §2 Queries -/

namespace Query

/-- The queries differ at most in the caller's values and in those of the filter. -/
structure Alike (q q' : Query) : Prop where
  dialect : q.dialect = q'.dialect
  sql : q.sql = q'.sql
  filter : Option.Rel Filter.Alike q.filter q'.filter
  sorts : q.sorts = q'.sorts
  pageIndex : q.pageIndex = q'.pageIndex
  pageSize : q.pageSize = q'.pageSize
  params : q.params.names = q'.params.names
  stem : q.stem = q'.stem

variable {q q' : Query}

theorem filtered_alike (h : q.Alike q') : ComposedAlike q.filtered q'.filtered := by
  obtain ⟨dialect, sql, filter, sorts, pageIndex, pageSize, params, stem⟩ := q
  obtain ⟨_, _, filter', _, _, _, params', _⟩ := q'
  obtain ⟨rfl, rfl, hfilter, rfl, rfl, rfl, hparams, rfl⟩ := h
  cases hfilter with
  | none => exact .composed (BoundStatement.alike_of_names rfl hparams)
  | @some f f' hf =>
    have hempty : Numbering.Alike {} {} := ⟨rfl, rfl⟩
    obtain ⟨r, n, n', hx, hy, hn⟩ := (Filter.compile_alike dialect stem hf hempty).exists_eq
    have hcontains : params.contains = params'.contains :=
      funext (Dictionary.contains_congr hparams)
    simp only [filtered, hx, hy]
    cases r with
    | error e => exact .failed e
    | ok condition =>
      -- Which generated name collides is decided by the names alone.
      simp only [hn.names, hcontains]
      split
      · exact .failed _
      · exact .composed (BoundStatement.alike_of_names rfl
          (Dictionary.names_insertAll_congr hn.names hparams))

theorem build_alike (h : q.Alike q') : ComposedAlike q.build q'.build := by
  have hpaged : q.isPaged = q'.isPaged := by rw [isPaged, isPaged, h.pageSize]
  have hoffset : q.offset = q'.offset := by rw [offset, offset, h.pageIndex, h.pageSize]
  refine (filtered_alike h).bind fun s s' hs => ?_
  dsimp only
  rw [hpaged, hoffset, h.sorts, h.dialect, h.pageSize, hs.sql]
  split
  · cases q'.offset with
    | error e => exact .failed e
    | ok offset => exact .composed (BoundStatement.alike_of_names rfl hs.names)
  · exact .composed (BoundStatement.alike_of_names rfl hs.names)

theorem buildCount_alike (h : q.Alike q') : ComposedAlike q.buildCount q'.buildCount := by
  refine (filtered_alike h).bind fun s s' hs => ?_
  refine .composed (BoundStatement.alike_of_names ?_ hs.names)
  dsimp only
  rw [hs.sql]

end Query

/-! ## §3 Inserts -/

namespace Request

/-- What a statement shows without the values of its parameters: its connection, its text and the
names. -/
def outline? : Request → Option (Link × String × List String)
  | execute l sql params => some (l, sql, params.names)
  | scalar l sql params => some (l, sql, params.names)
  | query l sql params => some (l, sql, params.names)
  | script l sql => some (l, sql, [])
  | _ => none

end Request

namespace Program.Event

/-- Whether the reply to a statement is a success. -/
def succeeds : Event → Bool
  | ⟨.execute _ _ _, reply⟩ => (reply : Except DataError UInt64).toBool
  | ⟨.scalar _ _ _, reply⟩ => (reply : Except DataError Json).toBool
  | ⟨.query _ _ _, reply⟩ => (reply : Except DataError (List Record)).toBool
  | ⟨.script _ _, reply⟩ => (reply : Except DataError Unit).toBool
  | _ => true

end Program.Event

/-- As far as both go, the statements succeed and fail alike. -/
def SameSuccesses (events events' : List Event) : Prop :=
  ∀ (i : Nat) (e e' : Event), events[i]? = some e → events'[i]? = some e' →
    e.succeeds = e'.succeeds

/-- The statements that have to follow an insert. -/
def InsertStatement.followUps (s : InsertStatement) : List String :=
  match s.identity with
  | some (.followUp sql) => [sql]
  | _ => []

namespace Table

/-- The parameters of an insert have the names of the columns. -/
theorem names_insertParams (t : Table) (values values' : Record) :
    (t.insertParams values).names = (t.insertParams values').names := by
  apply Dictionary.names_ofList_congr
  simp only [Entries.names, List.map_map, Function.comp_def]

/-- An insert shows its own statement and, if that succeeds, those that have to follow it. -/
theorem Inserting.outlines {t : Table} {p : Provider} {values : Record} {l : Link}
    {events : List Event} {r : Except DataError (Option Json)}
    (h : Inserting t p values l events r) :
    ∃ e rest, events = e :: rest ∧
      e.request.outline? =
        some (l, (p.insertStatement t).sql, (t.insertParams values).names) ∧
      rest.map (fun e => e.request.outline?) =
        if e.succeeds then (p.insertStatement t).followUps.map fun sql => some (l, sql, [])
        else [] := by
  -- What follows is told by the way in which the table has its identity.
  cases h with
  | plain reply hid => exact ⟨_, _, rfl, rfl, by simp [InsertStatement.followUps, hid]⟩
  | returning reply hid => exact ⟨_, _, rfl, rfl, by simp [InsertStatement.followUps, hid]⟩
  | refused sql e hid => exact ⟨_, _, rfl, rfl, rfl⟩
  | fetched sql count reply hid =>
    refine ⟨_, _, rfl, rfl, ?_⟩
    show [some (l, sql, [])] =
      (p.insertStatement t).followUps.map fun sql => some (l, sql, [])
    rw [InsertStatement.followUps, hid]
    rfl

/-- Two inserts into a table that succeed and fail alike show the same statements. -/
theorem outlines_insert {t : Table} {p : Provider} {values values' : Record} {l : Link}
    {events events' : List Event} {r r' : Except DataError (Option Json)}
    (h : Program.Runs (t.insert p values l).run events r)
    (h' : Program.Runs (t.insert p values' l).run events' r')
    (hsame : SameSuccesses events events') :
    events.map (fun e => e.request.outline?) = events'.map fun e => e.request.outline? := by
  obtain ⟨e, rest, rfl, hfirst, hrest⟩ := (runs_insert_iff.mp h).outlines
  -- The first statement succeeds in both or in neither, so the same ones follow.
  obtain ⟨e', rest', rfl, hfirst', hrest'⟩ := (runs_insert_iff.mp h').outlines
  rw [List.map_cons, List.map_cons, hfirst, hfirst', hrest, hrest', hsame 0 e e' rfl rfl,
    t.names_insertParams values values']

end Table

/-! ## §4 Independence -/

/-- No text of a statement depends on values.  Queries that differ in values only are composed to
the same text with the same names, which is bound to the same text with as many values, or fail with
the same error; and an insert sends the same statements for every row, as long as the connection
reports the same successes. -/
theorem texts_independent :
    (∀ q q' : Query, q.Alike q' → ComposedAlike q.filtered q'.filtered ∧
      ComposedAlike q.build q'.build ∧ ComposedAlike q.buildCount q'.buildCount) ∧
    ∀ (t : Table) (p : Provider) (l : Link) (values values' : Record)
      (events events' : List Event) (r r' : Except DataError (Option Json)),
      Program.Runs (t.insert p values l).run events r →
      Program.Runs (t.insert p values' l).run events' r' → SameSuccesses events events' →
      events.map (fun e => e.request.outline?) = events'.map fun e => e.request.outline? := by
  constructor
  · intro q q' h
    exact ⟨Query.filtered_alike h, Query.build_alike h, Query.buildCount_alike h⟩
  · intro t p l values values' events events' r r' h h' hsame
    exact Table.outlines_insert h h' hsame

/-- A page of a filtered query whose values come from outside. -/
def visits (tenant : Json) (note rooms : String) : Query where
  dialect := .mysql
  sql := "SELECT * FROM visits WHERE tenant = @tenant"
  filter := some (.logic .and
    [.compare "note" .contains (.string note), .compare "room" .inList (.string rooms)])
  pageIndex := 2
  pageSize := 10
  params := Dictionary.ofList [("tenant", tenant)]

/-- A table with an identity that is read back after an insert. -/
def people : Table where
  name := "people"
  columns := [{ name := "id", autoIncrement := true }, { name := "name", ordinal := 1 }]

/-- The row of a person. -/
def person (name : Json) : Record := Dictionary.ofList [("Name", name)]

/-- What happens when a person of that name is inserted and gets the identity. -/
def arrival (name identity : Json) : List Event :=
  [⟨.execute ⟨"main", "shop"⟩ ((Provider.stock .mysql).insertStatement people).sql
      (people.insertParams (person name)), .ok (1 : UInt64)⟩,
    ⟨.scalar ⟨"main", "shop"⟩ "SELECT LAST_INSERT_ID()" ∅, .ok identity⟩]

theorem runs_arrival (name identity : Json) :
    Program.Runs (people.insert (.stock .mysql) (person name) ⟨"main", "shop"⟩).run
      (arrival name identity) (.ok (some identity)) :=
  Table.runs_insert_iff.mpr
    (.fetched "SELECT LAST_INSERT_ID()" 1 (.ok identity) (by decide +kernel))

/-- Neither a note that looks like a statement nor a name that does shows in a text. -/
theorem visits_independent :
    ComposedAlike (visits (.ofInt64 7) "tea" "1,2").build
        (visits .null "'; DROP TABLE visits; --" "@x,\x60").build ∧
      (arrival (.string "Ann") (.ofInt64 1)).map (fun e => e.request.outline?) =
        (arrival (.string "'); --") .null).map fun e => e.request.outline? := by
  have halike : (visits (.ofInt64 7) "tea" "1,2").Alike
      (visits .null "'; DROP TABLE visits; --" "@x,\x60") := by
    refine ⟨rfl, rfl, .some (.logic _ (.cons (.compare _ _ ?_) (.cons (.compare _ _ ?_) .nil))),
      rfl, rfl, rfl, rfl, rfl⟩
    · exact fun h => by cases h
    · exact fun _ => by decide +kernel
  refine ⟨(texts_independent.1 _ _ halike).2.1, ?_⟩
  refine texts_independent.2 _ _ _ _ _ _ _ _ _ (runs_arrival _ _) (runs_arrival _ _) ?_
  intro i e e' he he'
  -- Both statements succeed in both runs.
  match i with
  | 0 => cases he; cases he'; rfl
  | 1 => cases he; cases he'; rfl
  | _ + 2 => cases he

end SqlService
