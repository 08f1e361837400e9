import SqlService.Provider.Defaults
import SqlService.Provider.ColumnType
import SqlService.Number.Literal
import SqlService.Text.Blank
import SqlService.Text.Split

/-!
# Column definitions

A `Provider` is a dialect with its own default literals.  `columnDefinition` writes the definition
of a column as it stands in `CREATE TABLE` and `ALTER TABLE`.
-/

namespace SqlService

/-- A dialect with its default literals. -/
structure Provider where
  dialect : Dialect
  defaults : Defaults := dialect.stockDefaults

namespace Provider

/-- The provider of a dialect with the literals that the dialect starts with. -/
def stock (d : Dialect) : Provider := { dialect := d }

/-- The provider with a default literal set. -/
def setDefault (p : Provider) (dataType literal : String) : Provider :=
  { p with defaults := p.defaults.set dataType literal }

/-! ## §1 Literals -/

/-- A text as a string literal, quotes inside doubled. -/
def literal (text : String) : String := "'" ++ Text.double '\x27' text ++ "'"

/-- The words that are defaults by themselves. -/
def defaultWords : List String :=
  ["CURRENT_TIMESTAMP", "CURRENT_DATE", "CURRENT_TIME", "TRUE", "FALSE"]

/-- Whether a default is an expression already: a quoted literal, a number, a function call or one
of the default words. -/
def isExpression (text : String) : Bool :=
  text.toList.head? == some '\x27' || isFloatText text || text.toList.contains '(' ||
    defaultWords.contains (Text.upper text)

/-- A default as it is written, quoted unless it is an expression. -/
def defaultLiteral (text : String) : String := if isExpression text then text else literal text

/-! ## §2 Parts of a definition -/

/-- The default of a column, if it gets one: none where the database fills the column or the
default says `NULL`, else the one given, else that of the type. -/
def defaultClause? (p : Provider) (c : Column) : Option String :=
  if c.autoIncrement then none
  else
    let given := Text.trim c.defaultValue
    -- An explicit `NULL` keeps the default of the type away as well.
    if Text.sameWord given "NULL" then none
    else if given ≠ "" then some (defaultLiteral given)
    else p.defaults.get? c.dataType

/-- The comment of a column, in the dialect that writes comments. -/
def commentClause (p : Provider) (c : Column) : String :=
  match p.dialect with
  | .mysql => if c.comment = "" then "" else " COMMENT " ++ literal c.comment
  | _ => ""

/-- The definition of a column. -/
def columnDefinition (p : Provider) (c : Column) : String :=
  p.dialect.quote c.name ++ " " ++ p.dialect.columnType c ++
    (if c.nullable then "" else " NOT NULL") ++
    (if c.autoIncrement then p.dialect.autoIncrementKeyword else "") ++
    (match p.defaultClause? c with
      | some default => " DEFAULT " ++ default
      | none => "") ++
    p.commentClause c

end Provider

end SqlService
