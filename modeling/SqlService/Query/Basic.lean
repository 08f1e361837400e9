import SqlService.Filter.Clause
import SqlService.Filter.SortKey

/-!
# Composed queries

A `Query` is a base statement with an optional filter, a sort order, a page and the caller's
parameters.  `filtered`, `build` and `countStatement` compose the statements that it stands for;
composing fails, and then nothing can be run, when the filter is malformed, when a generated
parameter has the name of one of the caller's, or when the page is out of reach.
-/

namespace SqlService

/-- A statement with its named parameters. -/
structure BoundStatement where
  sql : String
  params : Record

/-- A base statement and what is layered on it. -/
structure Query where
  dialect : Dialect
  sql : String
  filter : Option Filter := none
  sorts : List SortKey := []
  /-- The page, counted from one. -/
  pageIndex : UInt64 := 0
  /-- The rows of a page; 0 asks for all rows. -/
  pageSize : UInt64 := 0
  params : Record := ∅
  /-- The stem of generated parameter names. -/
  stem : String := defaultStem

namespace Query

/-! ## §1 Layers -/

/-- The query with one more parameter of the caller. -/
def param (q : Query) (name : String) (value : Json) : Query :=
  { q with params := q.params.insert name value }

/-- The query with the fields of a record as parameters of the caller. -/
def withParams (q : Query) (params : Record) : Query :=
  { q with params := q.params.insertAll params.entries }

/-- Whether a page was asked for. -/
def isPaged (q : Query) : Bool := q.pageSize != 0

/-- The number of rows before the page. -/
def offset (q : Query) : Except DataError UInt64 :=
  if q.pageIndex = 0 then .ok 0
  else
    -- The product is taken without bound and then held against the range of words.
    let rows := (q.pageIndex.toNat - 1) * q.pageSize.toNat
    if rows < UInt64.size then .ok (UInt64.ofNat rows)
    else .error (.pageOutOfRange q.pageIndex q.pageSize)

/-! ## §2 Keywords of the base statement -/

/-- Whether the keyword `WHERE` stands among the words of the statement. -/
def hasWhere (sql : String) : Bool :=
  (Text.split (fun c => !Text.isWordChar c) sql).any (Text.sameWord · "WHERE")

/-- The first word of a statement, blanks and opening parentheses passed over. -/
def firstKeyword (sql : String) : String :=
  let start := sql.toList.dropWhile fun c => Text.isBlank c || c == '('
  String.ofList (start.takeWhile Char.isAlphanum)

/-- Whether the statement reads rows. -/
def isReadQuery (sql : String) : Bool :=
  Text.sameWord (firstKeyword sql) "SELECT" || Text.sameWord (firstKeyword sql) "WITH"

/-! ## §3 Composition -/

/-- The base statement with a condition: appended to it, or around it when it reads rows and has a
`WHERE` of its own. -/
def withCondition (sql condition : String) : String :=
  if hasWhere sql && isReadQuery sql then "SELECT * FROM (" ++ sql ++ ") N WHERE " ++ condition
  else sql ++ "\nWHERE " ++ condition

/-- The base statement under the filter, with the generated parameters before the caller's. -/
def filtered (q : Query) : Except DataError BoundStatement :=
  match q.filter with
  | none => .ok ⟨q.sql, q.params⟩
  | some f =>
    match f.compile q.dialect q.stem {} with
    | (.error e, _) => .error e
    | (.ok condition, numbering) =>
      -- The first generated name decides which collision is reported.
      match numbering.params.names.find? q.params.contains with
      | some name => .error (.parameterCollision name)
      | none =>
        .ok ⟨withCondition q.sql condition, numbering.params.insertAll q.params.entries⟩

/-- The sort order as it is appended to a statement. -/
def orderClause (sorts : List SortKey) : String :=
  if sorts.isEmpty then "" else "\nORDER BY " ++ String.intercalate "," (sorts.map SortKey.text)

/-- The whole statement: filtered, sorted and cut to the page. -/
def build (q : Query) : Except DataError BoundStatement := do
  let s ← q.filtered
  let sql := s.sql ++ orderClause q.sorts
  if q.isPaged then
    let offset ← q.offset
    return { s with sql := q.dialect.page sql offset q.pageSize }
  else return { s with sql := sql }

/-- The statement that counts the filtered rows. -/
def buildCount (q : Query) : Except DataError BoundStatement := do
  let s ← q.filtered
  return { s with sql := "SELECT COUNT(*) FROM (" ++ s.sql ++ ") X" }

end Query

end SqlService
