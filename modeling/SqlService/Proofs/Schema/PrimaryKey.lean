import SqlService.Proofs.Schema.Convergence
import SqlService.Provider.Statements

/-!
# Primary keys

The key of a table is declared in the statement that creates it: by a clause of its own, which lists
the key, or by the column that the database fills, where the dialect has it say so.  The statement is
taken apart into what may declare a key and what may not.

Main statement: `Table.key_declared_once`.
-/

namespace SqlService

/-! ## §1 The parts of a creation -/

/-- A column as it is declared: behind its name and type, and in front of the rest, it may declare
itself the key. -/
structure ColumnPart where
  name : String
  type : String
  isKey : Bool
  rest : String

/-- A declaration of a primary key: by a column for itself, or by a clause for the columns that it
lists. -/
inductive KeyDeclaration where
  | inline (column : String)
  | clause (names : List String)
  deriving DecidableEq

namespace KeyDeclaration

/-- The names of the columns that are declared to be the key. -/
def names : KeyDeclaration → List String
  | inline column => [column]
  | clause names => names

/-- Whether the declaration makes the column part of the key. -/
def declares (k : KeyDeclaration) (column : String) : Bool := k.names.any (Text.sameWord · column)

end KeyDeclaration

/-- What creates a table: its columns and the names in its key clause, if it has one. -/
structure Creation where
  table : String
  columns : List ColumnPart
  clause? : Option (List String)

namespace ColumnPart

/-- A column as it is written. -/
def text (d : Dialect) (c : ColumnPart) : String :=
  d.quote c.name ++ " " ++ c.type ++ (if c.isKey then " PRIMARY KEY" else "") ++ c.rest

end ColumnPart

namespace Creation

/-- The key clause as it is written. -/
def clauseText (d : Dialect) (names : List String) : String :=
  "PRIMARY KEY (" ++ String.intercalate ", " (names.map d.quote) ++ ")"

/-- The statement as it is written. -/
def text (d : Dialect) (s : Creation) : String :=
  "CREATE TABLE " ++ d.quote s.table ++ " (\n" ++
    String.intercalate ",\n"
      ((s.columns.map (ColumnPart.text d) ++ (s.clause?.map (clauseText d)).toList).map
        ("  " ++ ·)) ++ "\n)"

/-- The declarations of a primary key. -/
def declarations (s : Creation) : List KeyDeclaration :=
  (s.columns.filter (·.isKey)).map (fun c => .inline c.name) ++ (s.clause?.map .clause).toList

end Creation

/-- What says that the database fills a column, without what that says about the key. -/
def Dialect.fillKeyword : Dialect → String
  | mysql => " AUTO_INCREMENT"
  | postgres => ""
  | sqlite => " AUTOINCREMENT"

theorem Dialect.autoIncrementKeyword_eq (d : Dialect) : d.autoIncrementKeyword =
    (if d.identityIsInlineKey then " PRIMARY KEY" else "") ++ d.fillKeyword := by
  cases d <;> rfl

namespace Provider

variable (p : Provider) {t : Table}

/-- A column of a table as the provider declares it. -/
def columnPart (c : Column) : ColumnPart where
  name := c.name
  type := p.dialect.columnType c ++ (if c.nullable then "" else " NOT NULL")
  isKey := c.autoIncrement && p.dialect.identityIsInlineKey
  rest := (if c.autoIncrement then p.dialect.fillKeyword else "") ++
    (p.defaultClause? c).elim "" (" DEFAULT " ++ ·) ++ p.commentClause c

/-- Whether the clause is left out because of what the column says that the database fills. -/
def keyInline (t : Table) : Bool :=
  p.dialect.identityIsInlineKey && t.identityColumn?.any (·.isKey)

/-- What creates a table. -/
def creation (t : Table) : Creation where
  table := t.name
  columns := t.orderedColumns.map p.columnPart
  clause? := if t.keyNames.isEmpty || p.keyInline t then none else some t.keyNames

theorem text_columnPart (c : Column) :
    (p.columnPart c).text p.dialect = p.columnDefinition c := by
  unfold ColumnPart.text columnPart columnDefinition
  rw [Dialect.autoIncrementKeyword_eq]
  cases p.defaultClause? c <;> cases c.autoIncrement <;>
    cases p.dialect.identityIsInlineKey <;> simp [String.append_assoc]

theorem keyClause?_eq (t : Table) :
    p.keyClause? t = (p.creation t).clause?.map (Creation.clauseText p.dialect) := by
  unfold keyClause? creation keyInline Creation.clauseText
  cases t.identityColumn? with
  | none => simp only [Option.any_none]; split <;> rfl
  | some c => simp only [Option.any_some]; split <;> rfl

/-- The statement that creates a table consists of these parts. -/
theorem createTable_eq (t : Table) : p.createTable t = (p.creation t).text p.dialect := by
  have hcolumns : (p.creation t).columns.map (ColumnPart.text p.dialect) =
      t.orderedColumns.map p.columnDefinition := by
    rw [creation, List.map_map]
    exact List.map_congr_left fun c _ => p.text_columnPart c
  unfold createTable Creation.text
  rw [hcolumns, ← p.keyClause?_eq t]
  rfl

/-! ## §2 The declarations -/

/-- Columns that the database fills declare themselves the key where the dialect has them do so,
and the clause declares the key list unless it is left out. -/
theorem declarations_creation (t : Table) :
    (p.creation t).declarations =
      (if p.dialect.identityIsInlineKey then
        (t.orderedColumns.filter (·.autoIncrement)).map fun c => .inline c.name else []) ++
      if t.keyNames.isEmpty || p.keyInline t then [] else [.clause t.keyNames] := by
  -- The order of the columns is the order of their declarations.
  have hcolumns : ((p.creation t).columns.filter (·.isKey)).map
      (fun c => KeyDeclaration.inline c.name) =
      if p.dialect.identityIsInlineKey then
        (t.orderedColumns.filter (·.autoIncrement)).map fun c => .inline c.name else [] := by
    rw [creation, List.filter_map, List.map_map]
    cases h : p.dialect.identityIsInlineKey <;> simp [Function.comp_def, columnPart, h]
  have hclause : ((p.creation t).clause?.map KeyDeclaration.clause).toList =
      if t.keyNames.isEmpty || p.keyInline t then [] else [.clause t.keyNames] := by
    unfold creation
    split <;> rfl
  rw [Creation.declarations, hcolumns, hclause]

/-- Where no column says anything about the key, there is the clause. -/
theorem declarations_of_clause (hkeys : t.keyNames ≠ [])
    (h : p.dialect.identityIsInlineKey = true → t.columns.filter (·.autoIncrement) = []) :
    (p.creation t).declarations = [.clause t.keyNames] := by
  have hempty : t.keyNames.isEmpty = false := by simpa using hkeys
  -- Either no column declares itself in this dialect, or there is none that would.
  cases hinline : p.dialect.identityIsInlineKey with
  | false => simp [declarations_creation, keyInline, hinline, hempty]
  | true =>
    have hordered : t.orderedColumns.filter (·.autoIncrement) = [] :=
      List.perm_nil.mp (h hinline ▸ (List.mergeSort_perm t.columns _).filter _)
    have hidentity : t.identityColumn? = none := by
      rw [Table.identityColumn?, ← List.head?_filter, h hinline, List.head?_nil]
    simp [declarations_creation, keyInline, hordered, hidentity, hempty]

/-- The only column that the database fills declares itself the key, and only if it is flagged as one
the clause is left out. -/
theorem declarations_of_inline {c : Column} (hkeys : t.keyNames ≠ [])
    (hinline : p.dialect.identityIsInlineKey = true)
    (hone : t.columns.filter (·.autoIncrement) = [c]) :
    (p.creation t).declarations =
      .inline c.name :: if c.isKey then [] else [.clause t.keyNames] := by
  have hempty : t.keyNames.isEmpty = false := by simpa using hkeys
  have hordered : t.orderedColumns.filter (·.autoIncrement) = [c] :=
    List.perm_singleton.mp (hone ▸ (List.mergeSort_perm t.columns _).filter _)
  have hidentity : t.identityColumn? = some c := by
    rw [Table.identityColumn?, ← List.head?_filter, hone, List.head?_cons]
  simp [declarations_creation, keyInline, hinline, hordered, hidentity, hempty]

end Provider

/-- Words that agree with each other agree with the same words. -/
theorem Text.sameWord_congr {a b : String} (h : sameWord a b = true) (c : String) :
    sameWord a c = sameWord b c := by
  simp only [sameWord, sameWord_iff.mp h]

namespace Table

variable {t : Table} {c : Column}

/-- A table is valid if every name of its key list is that of a column in some case. -/
theorem validate_eq_ok_iff :
    t.validate = .ok () ↔ ∀ k ∈ t.keyNames, ∃ c ∈ t.columns, c.isNamed k = true := by
  have hcolumn : ∀ k, (t.column? k).isSome = true ↔ ∃ c ∈ t.columns, c.isNamed k = true :=
    fun k => List.find?_isSome
  unfold validate
  -- The search is for a name of the list that no column has.
  cases hfind : t.keyNames.find? fun k => (t.column? k).isNone with
  | none =>
    refine ⟨fun _ k hk => (hcolumn k).mp (Option.isSome_iff_ne_none.mpr ?_), fun _ => rfl⟩
    simpa using List.find?_eq_none.mp hfind k hk
  | some k =>
    refine ⟨nofun, fun h => ?_⟩
    have hsome := (hcolumn k).mpr (h k (List.mem_of_find?_eq_some hfind))
    have hnone := List.find?_some hfind
    simp [Option.isNone_iff_eq_none.mp hnone] at hsome

/-- A key column that declares itself declares nothing that the key list does not name. -/
theorem namesKey_of_inline (hnamed : t.namesKey c.name = true) {column : String}
    (h : (KeyDeclaration.inline c.name).declares column = true) : t.namesKey column = true := by
  have hsame : Text.sameWord c.name column = true := by
    simpa [KeyDeclaration.declares, KeyDeclaration.names] using h
  obtain ⟨k, hk, hcase⟩ := List.any_eq_true.mp hnamed
  exact List.any_eq_true.mpr ⟨k, hk, Text.sameWord_trans hcase hsame⟩

theorem declares_inline (hnamed : t.namesKey c.name = true) (hsingle : t.keyNames.length = 1)
    (column : String) : (KeyDeclaration.inline c.name).declares column = t.namesKey column := by
  -- The only name of the list is that of the column, in some case.
  obtain ⟨k, hk⟩ := List.length_eq_one_iff.mp hsingle
  have hcase : Text.sameWord k c.name = true := by simpa [namesKey, hk] using hnamed
  simp [KeyDeclaration.declares, KeyDeclaration.names, namesKey, hk, Text.sameWord_congr hcase]

theorem filter_autoIncrement_eq (hone : (t.columns.filter (·.autoIncrement)).length ≤ 1)
    (hc : c ∈ t.columns) (hfills : c.autoIncrement = true) :
    t.columns.filter (·.autoIncrement) = [c] := by
  have hmem : c ∈ t.columns.filter (·.autoIncrement) := List.mem_filter.mpr ⟨hc, hfills⟩
  -- The column is among at most one.
  match hfilter : t.columns.filter (·.autoIncrement) with
  | [] => rw [hfilter] at hmem; cases hmem
  | [d] =>
    rw [hfilter] at hmem
    exact List.mem_singleton.mp hmem ▸ hfilter
  | _ :: _ :: _ => rw [hfilter] at hone; simp at hone

end Table

/-- The statement that creates a table declares its key once.  In SQLite a column that the database
fills declares itself the key, if it is flagged as one; everywhere else the clause declares the
columns of the key list.  No column is declared that the key list does not name, and all that it
names are declared unless a column declares itself beside others. -/
theorem Table.key_declared_once {t : Table} (hkeys : t.keyNames ≠ [])
    (hone : (t.columns.filter (·.autoIncrement)).length ≤ 1)
    (hnamed : ∀ c ∈ t.columns, c.autoIncrement = true → t.namesKey c.name = true) (p : Provider)
    (hflag : p.dialect = .sqlite → ∀ c ∈ t.columns, c.autoIncrement = true → c.isKey = true) :
    p.createTable t = (p.creation t).text p.dialect ∧
      ∃ k : KeyDeclaration, (p.creation t).declarations = [k] ∧
        (∀ c ∈ t.columns, p.dialect = .sqlite → c.autoIncrement = true → k = .inline c.name) ∧
        ((p.dialect = .sqlite → ∀ c ∈ t.columns, c.autoIncrement = false) →
          k = .clause t.keyNames) ∧
        (∀ c ∈ t.columns, k.declares c.name = true → t.namesKey c.name = true) ∧
        (k = .clause t.keyNames ∨ t.keyNames.length = 1 →
          ∀ c ∈ t.columns, k.declares c.name = t.namesKey c.name) := by
  refine ⟨p.createTable_eq t, ?_⟩
  -- Only in SQLite does a column declare itself, and then only the one that the database fills.
  by_cases h : p.dialect = .sqlite ∧ ∃ c ∈ t.columns, c.autoIncrement = true
  · obtain ⟨hsqlite, c, hc, hfills⟩ := h
    have hfilter := filter_autoIncrement_eq hone hc hfills
    have hinline : p.dialect.identityIsInlineKey = true := by rw [hsqlite]; rfl
    refine ⟨.inline c.name, ?_, ?_, ?_, ?_, ?_⟩
    · rw [p.declarations_of_inline hkeys hinline hfilter, if_pos (hflag hsqlite c hc hfills)]
    · intro d hd _ hdfills
      rw [List.head_eq_of_cons_eq (hfilter.symm.trans (filter_autoIncrement_eq hone hd hdfills))]
    · intro hnone
      rw [hnone hsqlite c hc] at hfills
      cases hfills
    · exact fun d _ => namesKey_of_inline (hnamed c hc hfills)
    · rintro (hclause | hsingle) d _
      · cases hclause
      · exact declares_inline (hnamed c hc hfills) hsingle d.name
  · have hnone : p.dialect = .sqlite → ∀ c ∈ t.columns, c.autoIncrement = false := by
      intro hsqlite c hc
      exact Bool.eq_false_iff.mpr fun hfills => h ⟨hsqlite, c, hc, hfills⟩
    -- No column declares itself, so the clause is there and says what the list says.
    have hdeclarations : (p.creation t).declarations = [.clause t.keyNames] := by
      refine p.declarations_of_clause hkeys fun hinline => ?_
      have hsqlite : p.dialect = .sqlite := by
        cases hd : p.dialect <;> rw [hd] at hinline <;> first | rfl | cases hinline
      exact List.filter_eq_nil_iff.mpr fun c hc => by simp [hnone hsqlite c hc]
    refine ⟨.clause t.keyNames, hdeclarations, ?_, fun _ => rfl, fun _ _ => id, fun _ _ _ => rfl⟩
    intro c hc hsqlite hfills
    rw [hnone hsqlite c hc] at hfills
    cases hfills

/-- A table whose key is filled by the database. -/
def songs : Table where
  name := "songs"
  keys := " id "
  columns := [{ name := "title", ordinal := 2 },
    { name := "id", ordinal := 1, isKey := true, autoIncrement := true }]

/-- In SQLite its key is declared by the column. -/
theorem songs_key_declared_once :
    (Provider.stock .sqlite).createTable songs =
        ((Provider.stock .sqlite).creation songs).text (Provider.stock .sqlite).dialect ∧
      ∃ k : KeyDeclaration, ((Provider.stock .sqlite).creation songs).declarations = [k] ∧
        (∀ c ∈ songs.columns, (Provider.stock .sqlite).dialect = .sqlite →
          c.autoIncrement = true → k = .inline c.name) ∧
        (((Provider.stock .sqlite).dialect = .sqlite →
          ∀ c ∈ songs.columns, c.autoIncrement = false) → k = .clause songs.keyNames) ∧
        (∀ c ∈ songs.columns, k.declares c.name = true → songs.namesKey c.name = true) ∧
        (k = .clause songs.keyNames ∨ songs.keyNames.length = 1 →
          ∀ c ∈ songs.columns, k.declares c.name = songs.namesKey c.name) :=
  Table.key_declared_once (by decide +kernel) (by decide +kernel) (by decide +kernel)
    (.stock .sqlite) (by decide +kernel)

/-- A table with a key of two columns, one of which is filled by the database. -/
def seats : Table where
  name := "seats"
  keys := "id,tenant"
  columns := [
    { name := "id", ordinal := 1, nullable := false, isKey := true, autoIncrement := true },
    { name := "tenant", ordinal := 2, dataType := "int", nullable := false, isKey := true }]

/-- In SQLite the column that the database fills is the key by itself, and the other is no part of
it. -/
theorem seats_key_incomplete :
    (seats.validate = .ok () ∧ seats.keyNames ≠ [] ∧
      (seats.columns.filter (·.autoIncrement)).length ≤ 1 ∧
      ∀ c ∈ seats.columns, c.autoIncrement = true → seats.namesKey c.name = true) ∧
    (Provider.stock .sqlite).createTable seats =
      ((Provider.stock .sqlite).creation seats).text (Provider.stock .sqlite).dialect ∧
    ((Provider.stock .sqlite).creation seats).declarations = [.inline "id"] ∧
    (KeyDeclaration.inline "id").declares "tenant" = false ∧ seats.namesKey "tenant" = true := by
  refine ⟨⟨Table.validate_eq_ok_iff.mpr (by decide +kernel), by decide +kernel, by decide +kernel,
      by decide +kernel⟩,
    Provider.createTable_eq _ seats, ?_, by decide +kernel, by decide +kernel⟩
  rw [Provider.declarations_of_inline _ (by decide +kernel) rfl rfl]
  rfl

/-- A table whose key is filled by the database, where only the key list says that it is the key. -/
def tickets : Table where
  name := "tickets"
  keys := "id"
  columns := [{ name := "id", ordinal := 1, dataType := "int", autoIncrement := true }]

/-- In SQLite its key is declared by the column and by the clause. -/
theorem tickets_key_twice :
    (tickets.validate = .ok () ∧ tickets.keyNames ≠ [] ∧
      (tickets.columns.filter (·.autoIncrement)).length ≤ 1 ∧
      ∀ c ∈ tickets.columns, c.autoIncrement = true → tickets.namesKey c.name = true) ∧
    (Provider.stock .sqlite).createTable tickets =
      ((Provider.stock .sqlite).creation tickets).text (Provider.stock .sqlite).dialect ∧
    ((Provider.stock .sqlite).creation tickets).declarations = [.inline "id", .clause ["id"]] := by
  refine ⟨⟨Table.validate_eq_ok_iff.mpr (by decide +kernel), by decide +kernel, by decide +kernel,
    by decide +kernel⟩, Provider.createTable_eq _ tickets, ?_⟩
  -- The column is not flagged, so the clause is not left out.
  rw [Provider.declarations_of_inline _ (by decide +kernel) rfl rfl]
  decide +kernel

end SqlService
