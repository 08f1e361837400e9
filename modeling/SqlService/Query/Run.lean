import SqlService.Query.Basic
import SqlService.Effect.Program
import SqlService.Provider.Statements

/-!
# Running queries

What a query and an insert do on an open connection.  A statement is sent only after it has been
composed, and a page only after both its count and its rows have an offset that exists.
-/

namespace SqlService

/-- The rows of a page and the number of rows that there are without paging. -/
structure Page where
  total : Int64
  rows : List Record

/-- The JSON form of a page. -/
def Page.toJson (p : Page) : Json :=
  .object [("total", .ofInt64 p.total), ("rows", .array (p.rows.map Record.toJson))]

/-- A value read as a count: what is no number counts as zero. -/
def Json.count (v : Json) : Int64 := v.int?.getD 0

namespace Link

/-! ## §1 Statements on a connection -/

/-- Runs a statement for the number of rows affected. -/
def execute (l : Link) (sql : String) (params : Record) : Attempt DataError UInt64 :=
  Attempt.of (Program.request (.execute l sql params))

/-- Runs a statement for its first value. -/
def scalar (l : Link) (sql : String) (params : Record) : Attempt DataError Json :=
  Attempt.of (Program.request (.scalar l sql params))

/-- Runs a statement for its rows. -/
def query (l : Link) (sql : String) (params : Record) : Attempt DataError (List Record) :=
  Attempt.of (Program.request (.query l sql params))

/-- Runs a text of several statements. -/
def script (l : Link) (sql : String) : Attempt DataError Unit :=
  Attempt.of (Program.request (.script l sql))

end Link

namespace Query

/-! ## §2 Queries -/

/-- The number of rows that the statement affects. -/
def execute (q : Query) (l : Link) : Attempt DataError UInt64 := do
  let s ← q.build
  l.execute s.sql s.params

/-- The first value of the statement. -/
def scalar (q : Query) (l : Link) : Attempt DataError Json := do
  let s ← q.build
  l.scalar s.sql s.params

/-- The rows of the statement. -/
def rows (q : Query) (l : Link) : Attempt DataError (List Record) := do
  let s ← q.build
  l.query s.sql s.params

/-- The first row of the statement, if there is one. -/
def single? (q : Query) (l : Link) : Attempt DataError (Option Record) := do
  let rows ← q.rows l
  return rows.head?

/-- The number of filtered rows, whatever the order and the page. -/
def count (q : Query) (l : Link) : Attempt DataError Int64 := do
  let s ← q.buildCount
  let value ← l.scalar s.sql s.params
  return value.count

/-- The number of filtered rows, and then the rows of the page. -/
def pageRows (q : Query) (l : Link) : Attempt DataError Page := do
  -- A page out of reach must fail before the count is sent.
  let _ ← q.offset
  let total ← q.count l
  let rows ← q.rows l
  return { total, rows }

end Query

namespace Table

/-! ## §3 Inserts -/

/-- The value for a column: the first field with the column's name in any case, or null. -/
def valueFor (values : Record) (column : Column) : Json :=
  match values.entries.find? fun e => Text.sameWord e.1 column.name with
  | some e => e.2
  | none => .null

/-- The parameters of an insert. -/
def insertParams (t : Table) (values : Record) : Record :=
  Dictionary.ofList (t.insertedColumns.map fun c => (c.name, valueFor values c))

/-- Inserts a row and returns the identity that the database gave it, if the table has a column
for one. -/
def insert (t : Table) (p : Provider) (values : Record) (l : Link) :
    Attempt DataError (Option Json) := do
  let statement := p.insertStatement t
  let params := t.insertParams values
  match statement.identity with
  | none =>
    let _ ← l.execute statement.sql params
    return none
  | some .returning =>
    let value ← l.scalar statement.sql params
    return some value
  | some (.followUp sql) =>
    let _ ← l.execute statement.sql params
    let value ← l.scalar sql ∅
    return some value

end Table

end SqlService
