import SqlService.Schema.Table
import SqlService.Record

/-!
# Tables from catalogue rows

The catalogue queries of every dialect answer with one row per column and the same field names.
`Column.ofRow` reads one row, `Table.ofRows?` a whole answer, in which joins may repeat a column.
-/

namespace SqlService

/-- A signed word as a position or length: nothing and negative numbers count as 0, large ones as
the largest. -/
def Column.clamp (value : Option Int64) : UInt32 :=
  match value with
  | none => 0
  | some i => UInt32.ofNat (min i.toInt.toNat (UInt32.size - 1))

/-- The column that a catalogue row describes. -/
def Column.ofRow (row : Record) : Column where
  name := Record.text row "name"
  ordinal := clamp (Record.int? row "ordinal")
  columnType := Record.text row "column_type"
  dataType := Text.lowerCase (Record.text row "data_type")
  length := clamp (Record.int? row "length")
  nullable := Record.flag row "is_nullable"
  isKey := Record.flag row "is_primary"
  autoIncrement := Record.flag row "is_identity"
  defaultValue := Record.text row "default_value"
  comment := Record.text row "comment"
  foreignKey :=
    if Record.flag row "is_foreign" then
      some {
        name := Record.text row "foreign_name"
        table := Record.text row "referenced_table"
        column := Record.text row "referenced_column" }
    else none

namespace Table

/-- The columns with repetitions of a name left out, the first one staying. -/
def foldRepeats (done : List Column) : List Column → List Column
  | [] => done
  | c :: cs =>
    if done.any fun d => Text.sameWord d.name c.name then foldRepeats done cs
    else foldRepeats (done ++ [c]) cs

/-- The table that the rows describe; without rows there is none. -/
def ofRows? (name schema : String) (rows : List Record) : Option Table :=
  if rows.isEmpty then none
  else
    -- Repetitions are dropped before sorting, so the first row of a name counts.
    let columns := sortColumns (foldRepeats [] (rows.map Column.ofRow))
    let keys := String.intercalate "," ((columns.filter (·.isKey)).map (·.name))
    some { name, schema, keys, columns }

end Table

end SqlService
