import SqlService.Proofs.Schema.Idempotence

/-!
# Rendered changes

The statement that turns one state of a table into another one has a clause for each column that the
old state lacks or has otherwise, in the order of the new state's positions, and is empty if there is
none.  MySQL places the columns: the first goes to the front and each later one behind its neighbour
in the new state, which need not have a clause of its own.  SQLite only adds columns and takes one
statement for each.

Main statement: `Provider.alterTable_renders`.
-/

namespace SqlService

open Column (Distinct)

namespace Table

/-! ## §1 Columns that need a clause -/

/-- The old state has no column of the name, in any case. -/
def Missing (old : Table) (c : Column) : Prop := ∀ d ∈ old.columns, d.isNamed c.name = false

/-- The old state has the column with another type, the case of ASCII letters aside, or with another
length where both give one. -/
def Altered (old : Table) (c : Column) : Prop :=
  ∃ d, old.column? c.name = some d ∧
    (Text.sameWord d.columnType c.columnType = false ∨
      d.length ≠ 0 ∧ c.length ≠ 0 ∧ d.length ≠ c.length)

/-- What has to happen to a column: it is added where it is missing, and changed where changes are
allowed and it is there otherwise. -/
inductive Needs (old : Table) (allowChange : Bool) (c : Column) : ChangeKind → Prop where
  | add (h : old.Missing c) : Needs old allowChange c .add
  | change (hallow : allowChange = true) (h : old.Altered c) : Needs old allowChange c .change

variable {old : Table} {allowChange : Bool} {c : Column}

theorem column?_eq_none_iff : old.column? c.name = none ↔ old.Missing c := by
  simp [column?, Missing, Column.isNamed]

theorem differs_iff {d : Column} : differs d c = true ↔
    Text.sameWord d.columnType c.columnType = false ∨
      d.length ≠ 0 ∧ c.length ≠ 0 ∧ d.length ≠ c.length := by
  simp [differs, and_assoc]

theorem changeKind?_eq_some_iff {kind : ChangeKind} :
    changeKind? old allowChange c = some kind ↔ Needs old allowChange c kind := by
  unfold changeKind?
  constructor
  · intro h
    -- A column of no name in the old table is added, and one that differs is changed if it may be.
    split at h
    · next hnone =>
      cases h
      exact .add (column?_eq_none_iff.mp hnone)
    · next d hsome =>
      split at h
      · next hdiffers =>
        cases h
        obtain ⟨hallow, hdiffers⟩ := Bool.and_eq_true_iff.mp hdiffers
        exact .change hallow ⟨d, hsome, differs_iff.mp hdiffers⟩
      · cases h
  · intro h
    cases h with
    | add h => rw [column?_eq_none_iff.mpr h]
    | change hallow h =>
      obtain ⟨d, hd, hdiffers⟩ := h
      simp [hd, hallow, differs_iff.mpr hdiffers]

theorem changeKind?_eq_none_iff :
    changeKind? old allowChange c = none ↔ ∀ kind, ¬Needs old allowChange c kind := by
  rw [Option.eq_none_iff_forall_ne_some]
  simp only [ne_eq, changeKind?_eq_some_iff]

/-! ## §2 Placement -/

/-- Once a change has come, each later one goes behind the column that precedes it. -/
theorem changesFrom_started (previous : Column) (columns : List Column) :
    changesFrom old allowChange (some previous) true columns =
      ((previous :: columns).zip columns).filterMap fun e =>
        (changeKind? old allowChange e.2).map fun kind => ⟨kind, e.2, .after e.1.name⟩ := by
  -- By induction on the columns, each of which precedes the next one.
  induction columns generalizing previous with
  | nil => rfl
  | cons c columns ih =>
    rw [changesFrom, List.zip_cons_cons, List.filterMap_cons]
    cases changeKind? old allowChange c with
    | none => exact ih c
    | some kind => exact congrArg _ (ih c)

/-- The first change goes to the front, whatever precedes it. -/
theorem exists_changesFrom_eq {columns : List Column} (previous : Option Column)
    (h : changesFrom old allowChange previous false columns ≠ []) :
    ∃ kept first later kind, columns = kept ++ first :: later ∧
      (∀ c ∈ kept, changeKind? old allowChange c = none) ∧
      changeKind? old allowChange first = some kind ∧
      changesFrom old allowChange previous false columns =
        ⟨kind, first, .first⟩ :: changesFrom old allowChange (some first) true later := by
  -- By induction on the columns: up to the first one that needs something nothing is kept in mind
  -- but the column before.
  induction columns generalizing previous with
  | nil => exact absurd rfl h
  | cons c columns ih =>
    cases hkind : changeKind? old allowChange c with
    | none =>
      simp only [changesFrom, hkind] at h ⊢
      obtain ⟨kept, first, later, kind, rfl, hkept, hfirst, heq⟩ := ih (some c) h
      exact ⟨c :: kept, first, later, kind, rfl, List.forall_mem_cons.mpr ⟨hkind, hkept⟩, hfirst, heq⟩
    | some kind =>
      refine ⟨[], c, columns, kind, rfl, fun d hd => absurd hd List.not_mem_nil, hkind, ?_⟩
      simp only [changesFrom, hkind]

/-- A table has nothing to change against itself if its columns have different names. -/
theorem changes_self {t : Table} (h : Distinct t.columns) : changes t t allowChange = [] := by
  refine changesFrom_eq_nil_iff.mpr fun c hc => ?_
  have hfound : t.column? c.name = some c :=
    h.find?_eq (mem_orderedColumns.mp hc) (Column.isNamed_self c)
  simp [changeKind?, hfound, differs_self]

end Table

namespace Provider

/-! ## §3 Statements -/

/-- What a clause starts with that places its column. -/
def placingVerb : ChangeKind → String
  | .add => "ADD COLUMN "
  | .change => "MODIFY COLUMN "

/-- The clause without a placement. -/
def unplacedClause (p : Provider) (c : Column) : ChangeKind → String
  | .add => "ADD COLUMN " ++ p.columnDefinition c
  | .change => "ALTER COLUMN " ++ p.dialect.quote c.name ++ " TYPE " ++ p.dialect.columnType c

/-- The text alters the old state to the new one: it has a clause for each column of the new state
that needs one, in the order of the positions. -/
inductive Renders (p : Provider) (new old : Table) : String → Prop where
  /-- In one statement the first clause puts its column in front and each later one puts it behind
  the column that stands right before it in the new state. -/
  | mysql (hdialect : p.dialect = .mysql) (kept later : List Column) (first : Column)
      (kind : ChangeKind) (hcolumns : new.orderedColumns = kept ++ first :: later)
      (hkept : ∀ c ∈ kept, ∀ kind, ¬old.Needs true c kind) (hfirst : old.Needs true first kind) :
      Renders p new old ("ALTER TABLE " ++ p.dialect.quote new.name ++ "\n" ++
        String.intercalate ",\n" ((placingVerb kind ++ p.columnDefinition first ++ " FIRST") ::
          ((first :: later).zip later).filterMap fun e =>
            (Table.changeKind? old true e.2).map fun kind =>
              placingVerb kind ++ p.columnDefinition e.2 ++ " AFTER " ++
                p.dialect.quote e.1.name))
  /-- One statement adds columns and changes types, and places nothing. -/
  | postgres (hdialect : p.dialect = .postgres) :
      Renders p new old ("ALTER TABLE " ++ p.dialect.quote new.name ++ "\n" ++
        String.intercalate ",\n" (new.orderedColumns.filterMap fun c =>
          (Table.changeKind? old true c).map (p.unplacedClause c)))
  /-- Each column that is missing is added by a statement of its own. -/
  | sqlite (hdialect : p.dialect = .sqlite) :
      Renders p new old (String.intercalate ";\n"
        ((new.orderedColumns.filter fun c => (old.column? c.name).isNone).map fun c =>
          "ALTER TABLE " ++ p.dialect.quote new.name ++ " ADD COLUMN " ++ p.columnDefinition c))

variable {p : Provider} {new old : Table}

theorem alterClause_mysql (hdialect : p.dialect = .mysql) (ch : ColumnChange) :
    p.alterClause ch =
      placingVerb ch.kind ++ p.columnDefinition ch.column ++ p.placementClause ch.placement := by
  rw [alterClause, hdialect]
  cases ch.kind <;> rfl

theorem alterClause_postgres (hdialect : p.dialect = .postgres) (ch : ColumnChange) :
    p.alterClause ch = p.unplacedClause ch.column ch.kind := by
  rw [alterClause, hdialect]
  cases ch.kind with
  | add => rfl
  | change => rw [unplacedClause, hdialect]

theorem alterClause_sqlite (hdialect : p.dialect = .sqlite) (ch : ColumnChange) :
    p.alterClause ch = "ADD COLUMN " ++ p.columnDefinition ch.column := by
  rw [alterClause, hdialect]

/-- Clauses that do not place their columns are those of the columns that need one. -/
theorem map_changes {allowChange : Bool} (clause : Column → ChangeKind → String) :
    (Table.changes new old allowChange).map (fun ch => clause ch.column ch.kind) =
      new.orderedColumns.filterMap fun c =>
        (Table.changeKind? old allowChange c).map (clause c) := by
  -- What is changed does not depend on where it is placed.
  have houtline := Table.outline_changesFrom old allowChange none false new.orderedColumns
  calc (Table.changes new old allowChange).map (fun ch => clause ch.column ch.kind)
      = ((Table.changes new old allowChange).map fun ch => (ch.column, ch.kind)).map
          fun e => clause e.1 e.2 := by rw [List.map_map]; rfl
    _ = _ := by
      rw [Table.changes, houtline, List.map_filterMap]
      simp only [Option.map_map, Function.comp_def]

theorem alterStatement_sqlite (hdialect : p.dialect = .sqlite) (t : Table)
    (clauses : List String) : p.alterStatement t clauses = String.intercalate ";\n"
      (clauses.map fun c => "ALTER TABLE " ++ p.dialect.quote t.name ++ " " ++ c) := by
  simp only [alterStatement, hdialect]

theorem alterStatement_of_ne (hdialect : p.dialect ≠ .sqlite) (t : Table)
    (clauses : List String) : p.alterStatement t clauses =
      "ALTER TABLE " ++ p.dialect.quote t.name ++ "\n" ++ String.intercalate ",\n" clauses := by
  unfold alterStatement
  split
  · next heq => exact absurd heq hdialect
  · rfl

theorem renders_of_changes (h : Table.changes new old p.dialect.altersColumns ≠ []) :
    p.Renders new old (p.alterTable new old) := by
  have hsql : p.alterTable new old = p.alterStatement new
      ((Table.changes new old p.dialect.altersColumns).map p.alterClause) := by
    rw [alterTable, if_neg (by simpa using h)]
  -- One case for each dialect: what its clauses say and how they are put together.
  cases hdialect : p.dialect with
  | mysql =>
    rw [hdialect] at h
    obtain ⟨kept, first, later, kind, hcolumns, hkept, hfirst, heq⟩ :=
      Table.exists_changesFrom_eq none h
    have hclauses : (Table.changes new old p.dialect.altersColumns).map p.alterClause =
        (placingVerb kind ++ p.columnDefinition first ++ " FIRST") ::
          ((first :: later).zip later).filterMap fun e =>
            (Table.changeKind? old true e.2).map fun kind =>
              placingVerb kind ++ p.columnDefinition e.2 ++ " AFTER " ++
                p.dialect.quote e.1.name := by
      rw [hdialect, Table.changes, heq, Table.changesFrom_started, List.map_cons,
        List.map_filterMap]
      simp only [Option.map_map, Function.comp_def, alterClause_mysql hdialect, placementClause,
        hdialect, String.append_assoc]
      rfl
    rw [hsql, hclauses, alterStatement_of_ne (by simp [hdialect])]
    exact .mysql hdialect kept later first kind hcolumns
      (fun c hc => Table.changeKind?_eq_none_iff.mp (hkept c hc))
      (Table.changeKind?_eq_some_iff.mp hfirst)
  | postgres =>
    have hclauses : (Table.changes new old p.dialect.altersColumns).map p.alterClause =
        new.orderedColumns.filterMap fun c =>
          (Table.changeKind? old true c).map (p.unplacedClause c) := by
      rw [funext (alterClause_postgres hdialect), hdialect]
      exact map_changes p.unplacedClause
    rw [hsql, hclauses, alterStatement_of_ne (by simp [hdialect])]
    exact .postgres hdialect
  | sqlite =>
    -- Nothing but a missing column needs anything where types cannot be changed.
    have hmissing : ∀ c, (Table.changeKind? old false c).map
        (fun _ => "ADD COLUMN " ++ p.columnDefinition c) =
          if (old.column? c.name).isNone then some ("ADD COLUMN " ++ p.columnDefinition c)
          else none := by
      intro c
      unfold Table.changeKind?
      cases old.column? c.name <;> rfl
    have hclauses : (Table.changes new old p.dialect.altersColumns).map p.alterClause =
        (new.orderedColumns.filter fun c => (old.column? c.name).isNone).map fun c =>
          "ADD COLUMN " ++ p.columnDefinition c := by
      rw [funext (alterClause_sqlite hdialect), hdialect]
      refine (map_changes fun c _ => "ADD COLUMN " ++ p.columnDefinition c).trans ?_
      rw [← List.filterMap_eq_map, List.filterMap_filter]
      exact List.filterMap_congr fun c _ => hmissing c
    have hjoin : ∀ c, "ALTER TABLE " ++ p.dialect.quote new.name ++ " " ++
        ("ADD COLUMN " ++ p.columnDefinition c) =
          "ALTER TABLE " ++ p.dialect.quote new.name ++ " ADD COLUMN " ++ p.columnDefinition c := by
      intro c
      simp only [String.append_assoc]
      rfl
    rw [hsql, hclauses, alterStatement_sqlite hdialect, List.map_map]
    simp only [Function.comp_def, hjoin]
    exact .sqlite hdialect

/-- The statement is empty exactly if no column of the new state needs anything, and else renders
what they need; what a column needs is read off both states, whatever its place.  No table has to be
altered to itself if its columns have different names. -/
theorem alterTable_renders (p : Provider) (new old : Table) :
    (p.alterTable new old = "" ↔
      ∀ c ∈ new.columns, ∀ kind, ¬old.Needs p.dialect.altersColumns c kind) ∧
    ((∃ c ∈ new.columns, ∃ kind, old.Needs p.dialect.altersColumns c kind) →
      p.Renders new old (p.alterTable new old)) ∧
    (∀ allowChange c kind, Table.changeKind? old allowChange c = some kind ↔
      old.Needs allowChange c kind) ∧
    (new.orderedColumns.Perm new.columns ∧
      new.orderedColumns.Pairwise (·.ordinal ≤ ·.ordinal)) ∧
    (Distinct new.columns → p.alterTable new new = "") := by
  -- The statement is empty if there are no changes, and there are none if no column needs one.
  have hempty : p.alterTable new old = "" ↔
      ∀ c ∈ new.columns, ∀ kind, ¬old.Needs p.dialect.altersColumns c kind := by
    rw [alterTable_eq_empty_iff, Table.changes, Table.changesFrom_eq_nil_iff]
    simp only [Table.mem_orderedColumns, Table.changeKind?_eq_none_iff]
  refine ⟨hempty, ?_, fun _ _ _ => Table.changeKind?_eq_some_iff, ⟨?_, ?_⟩, ?_⟩
  · rintro ⟨c, hc, kind, hneeds⟩
    apply renders_of_changes
    rw [ne_eq, ← alterTable_eq_empty_iff, hempty]
    exact fun hnone => hnone c hc kind hneeds
  · exact List.mergeSort_perm _ _
  · exact Table.pairwise_orderedColumns new
  · exact fun hdistinct => (alterTable_eq_empty_iff p new new).mpr (Table.changes_self hdistinct)

/-- The members get a birthday, a longer name behind it and a mail address behind the note. -/
theorem newMembers_rendered : ∃ sql,
    (stock .mysql).Renders Table.newMembers Table.members sql ∧
    sql = "ALTER TABLE `members`\n" ++
      "ADD COLUMN `born` DATE DEFAULT '1900-01-01' FIRST,\n" ++
      "MODIFY COLUMN `name` VARCHAR(80) DEFAULT '' AFTER `born`,\n" ++
      "ADD COLUMN `mail` VARCHAR(90) DEFAULT '' AFTER `note`" ∧
    (stock .mysql).alterTable Table.newMembers Table.newMembers = "" := by
  obtain ⟨-, hrenders, -, -, hself⟩ :=
    alterTable_renders (stock .mysql) Table.newMembers Table.members
  -- The birthday is missing in the old table.
  have hborn : ∃ c ∈ Table.newMembers.columns, ∃ kind, Table.members.Needs true c kind :=
    ⟨_, .tail _ (.head _), .add, .add (Table.column?_eq_none_iff.mp (by decide +kernel))⟩
  refine ⟨_, hrenders hborn, ?_, hself (by decide +kernel)⟩
  rw [alterTable, Table.changes, Table.orderedColumns_eq (by decide)]
  decide +kernel

end Provider

end SqlService
