import SqlService.Effect.Offline
import SqlService.Proofs.Query.Insertion
import SqlService.Proofs.Schema.Introspection
import SqlService.Schema.Sync

/-!
# Bringing a table in line twice

Once a table has been created as it is declared, planning finds nothing to do in SQLite, where
columns are not changed.  Elsewhere it finds nothing exactly when every column is written down in
the way that the catalogue reports it, and a column built from the name of a type need not be.

Main statement: `Provider.plan_created`.
-/

namespace SqlService

open Column (Distinct)

namespace Provider

/-! ## §1 Alterations -/

theorem alterStatement_ne_empty (p : Provider) (t : Table) {clauses : List String}
    (h : clauses ≠ []) : p.alterStatement t clauses ≠ "" := by
  obtain ⟨clause, clauses, rfl⟩ := List.exists_cons_of_ne_nil h
  unfold alterStatement
  split
  · cases clauses with
    | nil => simp
    | cons next clauses =>
      simp only [List.map_cons, String.intercalate_cons_cons]
      simp
  · simp

theorem alterTable_eq_empty_iff (p : Provider) (new old : Table) :
    p.alterTable new old = "" ↔ Table.changes new old p.dialect.altersColumns = [] := by
  unfold alterTable
  cases h : Table.changes new old p.dialect.altersColumns with
  | nil => simp
  | cons ch changes => simpa using alterStatement_ne_empty p new (by simp)

/-! ## §2 Looking a table up -/

/-- Whether the table exists. -/
def existence (p : Provider) (t : Table) (l : Link) : Request :=
  .scalar l p.dialect.existsQuery (catalogueParams [("database", l.database), ("table", t.name)])

/-- What the columns of the table are. -/
def inspection (p : Provider) (t : Table) (l : Link) : Request :=
  .query l p.dialect.columnsQuery (catalogueParams [("database", l.database), ("table", t.name)])

/-- The database reports the table as it was created: it exists, and there is one row for each of
its columns, in whatever order. -/
structure Reported (p : Provider) (t : Table) (l : Link) (answer : (q : Request) → q.Reply) :
    Prop where
  existence : answer (p.existence t l) = Except.ok (Json.ofUInt64 1)
  inspection : ∃ rows columns, answer (p.inspection t l) = Except.ok rows ∧
    columns.Perm t.columns ∧ List.Forall₂ p.dialect.Describes columns rows

/-- The database that has the table as it was created and nothing else. -/
def catalogue (p : Provider) (t : Table) : (q : Request) → q.Reply
  | .scalar _ _ _ => Except.ok (Json.ofUInt64 1)
  | .query _ _ _ => Except.ok (t.columns.map p.dialect.rowFor)
  | q => (Offline.respond {} q).1

theorem reported_catalogue (p : Provider) (t : Table) (l : Link) :
    p.Reported t l (p.catalogue t) :=
  ⟨rfl, _, t.columns, rfl, .refl _, by
    rw [List.forall₂_map_right_iff, List.forall₂_same]
    exact fun c _ => p.dialect.describes_rowFor c⟩

/-- A table with one column, built from the name of its type. -/
def single (name type : String) : Table := ({ name := "single" } : Table).add (.ofType name type)

variable {p : Provider} {t : Table} {l : Link} {answer : (q : Request) → q.Reply}

/-- A plan for a table that is there compares it with what is read back. -/
theorem runs_plan {value : Json} {rows : List Record} {current : Table}
    (hvalid : t.validate = .ok ()) (hcount : 0 < value.count)
    (hcurrent : Table.ofRows? t.name l.database rows = some current) :
    Program.Runs (p.plan t l).run
      [⟨p.existence t l, Except.ok value⟩, ⟨p.inspection t l, Except.ok rows⟩]
      (.ok (if p.alterTable t current = "" then none else some (p.alterTable t current))) := by
  have hread : Program.Runs (p.readTable? t.name l).run [⟨p.inspection t l, Except.ok rows⟩]
      (.ok (some current)) := by
    rw [← hcurrent]
    exact Program.runs_attempt_map_iff.mpr ⟨.ok rows, Program.runs_request_iff.mpr rfl, rfl⟩
  -- The table is valid, it is there, and it is read back.
  unfold plan
  refine Program.runs_attempt_bind_iff.mpr (.inl ⟨[], _, (), rfl, ?_, ?_⟩)
  · rw [hvalid]
    exact .done _
  refine Program.runs_attempt_bind_iff.mpr (.inl ⟨[_], [_], value, rfl, ?_, ?_⟩)
  · exact Link.runs_scalar_iff.mpr rfl
  · rw [if_pos hcount]
    exact Program.runs_attempt_bind_iff.mpr (.inl ⟨[_], [], some current, rfl, hread, .done _⟩)

/-- What is planned for a table that the database reports as it was created: nothing if the dialect
does not change columns or each column is written down as it is reported, and something otherwise.
The questions to the catalogue are all that is asked. -/
theorem exists_plan_of_reported (hvalid : t.validate = .ok ()) (hne : t.columns ≠ [])
    (hdistinct : Distinct t.columns) (h : p.Reported t l answer) :
    ∃ planned, Program.Runs (p.plan t l).run
        [⟨p.existence t l, answer (p.existence t l)⟩,
          ⟨p.inspection t l, answer (p.inspection t l)⟩] (.ok planned) ∧
      ((p.plan t l).run.run (Program.answering answer) ()).1 = .ok planned ∧
      (planned = none ↔ p.dialect.altersColumns = false ∨
        ∀ c ∈ t.columns, p.dialect.Faithful c) := by
  obtain ⟨rows, columns, hrows, hperm, hdescribes⟩ := h.inspection
  have hnil : columns ≠ [] := fun hnil => hne (List.perm_nil.mp (hnil ▸ hperm.symm))
  obtain ⟨current, hcurrent, hcolumns⟩ :=
    Table.exists_ofRows?_eq t.name l.database (hdistinct.perm hperm.symm) hnil hdescribes
  -- The answers are a table that is there and rows that describe its columns.
  have hplan : Program.Runs (p.plan t l).run
      [⟨p.existence t l, answer (p.existence t l)⟩, ⟨p.inspection t l, answer (p.inspection t l)⟩]
      (.ok (if p.alterTable t current = "" then none else some (p.alterTable t current))) := by
    rw [h.existence, hrows]
    exact runs_plan hvalid (by decide) hcurrent
  have hrun : (p.plan t l).run.run (Program.answering answer) () = (_, ()) :=
    (hplan.of_replied ⟨rfl, rfl, rfl⟩).1
  refine ⟨_, hplan, congrArg Prod.fst hrun, ?_⟩
  rw [← Table.changes_readBack_eq_nil_iff fun c hc => hcolumns c (hperm.mem_iff.mpr hc),
    ← alterTable_eq_empty_iff]
  split <;> simp_all

/-- Nothing is planned for a table that has been created if and only if columns are not changed or
each column is written down as it is reported. -/
theorem run_plan_eq_none_iff (hvalid : t.validate = .ok ()) (hne : t.columns ≠ [])
    (hdistinct : Distinct t.columns) (h : p.Reported t l answer) :
    ((p.plan t l).run.run (Program.answering answer) ()).1 = .ok none ↔
      p.dialect.altersColumns = false ∨ ∀ c ∈ t.columns, p.dialect.Faithful c := by
  obtain ⟨planned, -, hrun, hnone⟩ := exists_plan_of_reported hvalid hne hdistinct h
  rw [hrun, ← hnone, Except.ok.injEq]

/-- A table is in line with what the database reports of it when the dialect does not change columns,
or when each column is written down as it is reported.  Nothing is planned for a table that has been
created if and only if it is in line, and then bringing it in line asks the two questions to the
catalogue and runs no statement. -/
theorem plan_created (hvalid : t.validate = .ok ()) (hne : t.columns ≠ [])
    (hdistinct : Distinct t.columns) (h : p.Reported t l answer) :
    (((p.plan t l).run.run (Program.answering answer) ()).1 = .ok none ↔
      p.dialect.altersColumns = false ∨ ∀ c ∈ t.columns, p.dialect.Faithful c) ∧
    (((p.plan t l).run.run (Program.answering answer) ()).1 = .ok none →
      ((p.sync t l).run.run (Program.answering answer) ()).1 = .ok none ∧
      ((p.sync t l).run.transcript (Program.answering answer) ()).map Program.Event.request =
        [p.existence t l, p.inspection t l]) := by
  refine ⟨run_plan_eq_none_iff hvalid hne hdistinct h, fun hok => ?_⟩
  obtain ⟨planned, hplan, hrun, -⟩ := exists_plan_of_reported hvalid hne hdistinct h
  rw [hrun] at hok
  obtain rfl : planned = none := Except.ok.inj hok
  -- Where nothing is planned there is nothing to execute.
  have hsync : Program.Runs (p.sync t l).run
      [⟨p.existence t l, answer (p.existence t l)⟩,
        ⟨p.inspection t l, answer (p.inspection t l)⟩] (.ok none) :=
    Program.runs_attempt_bind_iff.mpr (.inl ⟨_, [], none, (List.append_nil _).symm, hplan, .done _⟩)
  have hreplied : Program.Replied (Program.answering answer) ()
      [⟨p.existence t l, answer (p.existence t l)⟩,
        ⟨p.inspection t l, answer (p.inspection t l)⟩] () := ⟨rfl, rfl, rfl⟩
  obtain ⟨hresult, htranscript⟩ := hsync.of_replied hreplied
  exact ⟨congrArg Prod.fst hresult, congrArg (·.map Program.Event.request) htranscript⟩

/-- A key column with a length, as the catalogue reports it. -/
def sizedKey (name type : String) (length : UInt32) : Column :=
  Column.asKey { Column.ofType name type with
    columnType := Column.withLength type length, length }

/-- Pages that are found by their path and their language. -/
def pages : Table :=
  (((({ name := "pages" } : Table).add (sizedKey "path" "varchar" 190)).add
    (sizedKey "lang" "char" 2)).add
    { Column.ofType "visits" "bigint" with columnType := "bigint(20)", nullable := false }).add
    (.ofType "body" "text")

/-- Nothing is planned for the pages, with and without lengths. -/
theorem plan_created_pages :
    (((stock .mysql).plan pages ⟨"main", "db"⟩).run.run
      (Program.answering ((stock .mysql).catalogue pages)) ()).1 = .ok none :=
  (plan_created (by decide +kernel) (by decide) (by decide +kernel)
    (reported_catalogue _ _ _)).1.mpr (.inr (by decide +kernel))

/-- An integer is declared with a display width, so it is changed each time. -/
theorem plan_created_int :
    let t := single "id" "int"
    let l : Link := ⟨"main", "db"⟩
    t.validate = .ok () ∧ Distinct t.columns ∧
      (stock .mysql).Reported t l ((stock .mysql).catalogue t) ∧
      (((stock .mysql).plan t l).run.run (Program.answering ((stock .mysql).catalogue t)) ()).1 ≠
        .ok none := by
  have hvalid : (single "id" "int").validate = .ok () := by decide +kernel
  have hdistinct : Distinct (single "id" "int").columns := by decide +kernel
  refine ⟨hvalid, hdistinct, reported_catalogue _ _ _, ?_⟩
  rw [Ne, run_plan_eq_none_iff hvalid (by decide) hdistinct (reported_catalogue _ _ _)]
  decide +kernel

end Provider

end SqlService
