import SqlService.Schema.Column
import SqlService.Error
import SqlService.Text.Ascii
import SqlService.Text.Blank
import SqlService.Text.Split

/-!
# Tables

A `Table` is a name, the schema that owns it, its columns and its key: a comma-separated list of
column names.  Column names are compared without regard to ASCII case.
-/

namespace SqlService

/-- A table with its columns. -/
structure Table where
  name : String := ""
  /-- The schema that owns the table. -/
  schema : String := ""
  /-- The names of the key columns, separated by commas. -/
  keys : String := ""
  columns : List Column := []
  deriving DecidableEq, Repr, Inhabited

namespace Table

/-! ## §1 Keys and columns -/

/-- The names of the key columns, in the order of the key list. -/
def keyNames (t : Table) : List String :=
  ((Text.splitChar ',' t.keys).map Text.trim).filter (· != "")

/-- Whether the key list names the column. -/
def namesKey (t : Table) (column : String) : Bool :=
  t.keyNames.any (Text.sameWord · column)

/-- The first column of that name. -/
def column? (t : Table) (name : String) : Option Column :=
  t.columns.find? fun c => Text.sameWord c.name name

/-- The columns that the key list names. -/
def keyColumns (t : Table) : List Column := t.keyNames.filterMap t.column?

/-- The first column that the database fills. -/
def identityColumn? (t : Table) : Option Column := t.columns.find? (·.autoIncrement)

/-- Columns in the order of their positions, ties as they stand. -/
def sortColumns (columns : List Column) : List Column :=
  columns.mergeSort fun a b => decide (a.ordinal ≤ b.ordinal)

/-- The columns in the order of their positions. -/
def orderedColumns (t : Table) : List Column := sortColumns t.columns

/-- The columns that an insert gives values for, in order. -/
def insertedColumns (t : Table) : List Column := t.orderedColumns.filter (!·.autoIncrement)

/-- The columns that an update assigns, in order. -/
def assignedColumns (t : Table) : List Column :=
  t.orderedColumns.filter fun c => !c.autoIncrement && !t.namesKey c.name

/-- Checks that every name of the key list is the name of a column. -/
def validate (t : Table) : Except DataError Unit :=
  match t.keyNames.find? fun k => (t.column? k).isNone with
  | some key => .error (.invalidSchema (.unknownKey key t.name))
  | none => .ok ()

/-! ## §2 Building -/

/-- The position of the column after `count` others, as far as positions go. -/
def nextOrdinal (count : Nat) : UInt32 := UInt32.ofNat (min (count + 1) (UInt32.size - 1))

/-- The key list with one more name. -/
def addKey (keys name : String) : String := if keys = "" then name else keys ++ "," ++ name

/-- The table with the column added in the next position; a key column goes into the key list
unless it is named there. -/
def add (t : Table) (c : Column) : Table :=
  { t with
    keys := if c.isKey && !t.namesKey c.name then addKey t.keys c.name else t.keys
    -- The column gets its position from where it is added, whatever it had before.
    columns := t.columns ++ [{ c with ordinal := nextOrdinal t.columns.length }] }

/-! ## §3 JSON form -/

/-- The JSON form of a table. -/
def toJson (t : Table) : Json :=
  .object [
    ("name", .string t.name),
    ("schema", .string t.schema),
    ("keys", .string t.keys),
    ("columns", .array (t.columns.map Column.toJson))]

/-- Reads a table; a part that is missing is empty. -/
def read? (d : Document) : Option Table :=
  match d.parts? ["name", "schema", "keys", "columns"] with
  | some [name, schema, keys, columns] => do
    let name ← Document.defaulted? "" Document.text? name
    let schema ← Document.defaulted? "" Document.text? schema
    let keys ← Document.defaulted? "" Document.text? keys
    let columns ← Document.defaulted? [] (Document.listOf? Column.read?) columns
    return { name, schema, keys, columns }
  | _ => none

end Table

end SqlService
