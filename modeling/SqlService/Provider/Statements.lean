import SqlService.Provider.Definition
import SqlService.Schema.Diff

/-!
# Generated statements

The statements that a provider writes for a table: its creation and alteration, and the insertion,
change, removal, selection and counting of rows.
-/

namespace SqlService

/-- How the value of a column that the database fills is read back after an insert. -/
inductive IdentityFetch where
  /-- A statement to run right after the insert. -/
  | followUp (sql : String)
  /-- The insert returns the value itself. -/
  | returning
  deriving DecidableEq, Repr

/-- An insert with the way its identity is read back, if there is one. -/
structure InsertStatement where
  sql : String
  identity : Option IdentityFetch
  deriving DecidableEq, Repr

/-- How a dialect reads an identity back. -/
def Dialect.lastIdentity : Dialect → IdentityFetch
  | mysql => .followUp "SELECT LAST_INSERT_ID()"
  | postgres => .returning
  | sqlite => .followUp "SELECT last_insert_rowid()"

namespace Provider

/-! ## §1 Creation -/

/-- The clause that declares the key of a table, if it takes one: an identity column may carry the
declaration itself. -/
def keyClause? (p : Provider) (t : Table) : Option String :=
  -- In SQLite an identity column that is a key already says `PRIMARY KEY`.
  let inline :=
    p.dialect.identityIsInlineKey &&
      (match t.identityColumn? with
        | some c => c.isKey
        | none => false)
  if t.keyNames.isEmpty || inline then none
  else some ("PRIMARY KEY (" ++ String.intercalate ", " (t.keyNames.map p.dialect.quote) ++ ")")

/-- The statement that creates a table. -/
def createTable (p : Provider) (t : Table) : String :=
  let parts := t.orderedColumns.map p.columnDefinition ++ (p.keyClause? t).toList
  "CREATE TABLE " ++ p.dialect.quote t.name ++ " (\n" ++
    String.intercalate ",\n" (parts.map ("  " ++ ·)) ++ "\n)"

/-! ## §2 Alteration -/

/-- A placement as it is written. -/
def placementClause (p : Provider) : Placement → String
  | .first => " FIRST"
  | .after column => " AFTER " ++ p.dialect.quote column

/-- The clause of one change. -/
def alterClause (p : Provider) (c : ColumnChange) : String :=
  match p.dialect, c.kind with
  | .mysql, .add => "ADD COLUMN " ++ p.columnDefinition c.column ++ p.placementClause c.placement
  | .mysql, .change =>
    "MODIFY COLUMN " ++ p.columnDefinition c.column ++ p.placementClause c.placement
  | .postgres, .change =>
    "ALTER COLUMN " ++ p.dialect.quote c.column.name ++ " TYPE " ++ p.dialect.columnType c.column
  | _, _ => "ADD COLUMN " ++ p.columnDefinition c.column

/-- The clauses as one statement, or in SQLite as one statement each. -/
def alterStatement (p : Provider) (t : Table) (clauses : List String) : String :=
  let head := "ALTER TABLE " ++ p.dialect.quote t.name
  match p.dialect with
  | .sqlite => String.intercalate ";\n" (clauses.map fun c => head ++ " " ++ c)
  | _ => head ++ "\n" ++ String.intercalate ",\n" clauses

/-- The statement that turns the old state of a table into the new one, empty if there is nothing
to do. -/
def alterTable (p : Provider) (new old : Table) : String :=
  let changes := Table.changes new old p.dialect.altersColumns
  if changes.isEmpty then "" else p.alterStatement new (changes.map p.alterClause)

/-! ## §3 Rows -/

/-- `a, b, c`, quoted. -/
def columnList (p : Provider) (columns : List Column) : String :=
  String.intercalate ", " (columns.map fun c => p.dialect.quote c.name)

/-- The insertion of a row, with a parameter per column that the database does not fill. -/
def insertStatement (p : Provider) (t : Table) : InsertStatement :=
  let columns := t.insertedColumns
  let values := columns.map fun c => p.dialect.placeholder c.name
  let sql :=
    "INSERT INTO " ++ p.dialect.quote t.name ++ " (" ++ p.columnList columns ++ ") VALUES (" ++
      String.intercalate ", " values ++ ")"
  match t.identityColumn? with
  | none => ⟨sql, none⟩
  | some c =>
    match p.dialect.lastIdentity with
    | .returning => ⟨sql ++ " RETURNING " ++ p.dialect.quote c.name, some .returning⟩
    | fetch => ⟨sql, some fetch⟩

/-- `a = @a`, the left side quoted. -/
def assignment (p : Provider) (name : String) : String :=
  p.dialect.quote name ++ " = " ++ p.dialect.placeholder name

/-- The condition that selects a row by its key. -/
def keyPredicate (p : Provider) (t : Table) : Except DataError String :=
  if t.keyNames.isEmpty then .error (.invalidSchema (.noKeys t.name))
  else .ok (String.intercalate " AND " (t.keyNames.map p.assignment))

/-- The change of a row, selected by its key. -/
def updateStatement (p : Provider) (t : Table) : Except DataError String := do
  let keys ← p.keyPredicate t
  let assignments := t.assignedColumns.map fun c => p.assignment c.name
  return "UPDATE " ++ p.dialect.quote t.name ++ " SET " ++ String.intercalate ", " assignments ++
    " WHERE " ++ keys

/-- The removal of a row, selected by its key. -/
def deleteStatement (p : Provider) (t : Table) : Except DataError String := do
  let keys ← p.keyPredicate t
  return "DELETE FROM " ++ p.dialect.quote t.name ++ " WHERE " ++ keys

/-- The selection of all rows. -/
def selectStatement (p : Provider) (t : Table) : String :=
  "SELECT " ++ p.columnList t.orderedColumns ++ " FROM " ++ p.dialect.quote t.name

/-- The number of rows. -/
def countStatement (p : Provider) (t : Table) : String :=
  "SELECT COUNT(*) FROM " ++ p.dialect.quote t.name

end Provider

end SqlService
