import SqlService.Dialect
import SqlService.Schema.Column
import SqlService.Text.Ascii

/-!
# Type names in column definitions

`Column.effectiveType` is the type name that the spelling of a type goes by; `Column.widened`
spells it in the common form, with the display widths of integers; `Dialect.columnType` gives the
spelling of each dialect.
-/

namespace SqlService

namespace Column

/-- The data type of a column, or its catalogue type where it has none, in lower case. -/
def effectiveType (c : Column) : String :=
  Text.lower (if c.dataType = "" then c.columnType else c.dataType)

/-- A type name with a length in parentheses. -/
def withLength (type : String) (length : UInt32) : String :=
  type ++ "(" ++ toString length.toNat ++ ")"

/-- The common spelling of a column's type. -/
def widened (c : Column) : String :=
  match c.effectiveType with
  | "int" => "INT(11)"
  | "integer" => "INT(11)"
  | "bigint" => "BIGINT(20)"
  | "smallint" => "SMALLINT(6)"
  | "tinyint" => "TINYINT(4)"
  | "mediumint" => "MEDIUMINT(9)"
  | type =>
    -- Whether a length is written goes by the data type as it is spelled.
    if c.isSized && c.length != 0 then withLength (Text.upper type) c.length else Text.upper type

/-- A type name, with the length of the column if it has one. -/
def sizedName (c : Column) (type : String) : String :=
  if c.length != 0 then withLength type c.length else type

/-- The spellings of PostgreSQL, with the type names that each stands for. -/
def postgresFamilies : List (List String × (Column → String)) :=
  [(["int", "integer", "int4", "mediumint", "serial"],
      fun c => if c.autoIncrement then "SERIAL" else "INTEGER"),
   (["bigint", "int8", "bigserial"], fun c => if c.autoIncrement then "BIGSERIAL" else "BIGINT"),
   (["smallint", "int2", "tinyint"], fun _ => "SMALLINT"),
   (["varchar", "character varying"], fun c => c.sizedName "VARCHAR"),
   (["char", "character", "bpchar"], fun c => c.sizedName "CHAR"),
   (["bool", "boolean", "bit"], fun _ => "BOOLEAN"),
   (["float8", "double", "double precision"], fun _ => "DOUBLE PRECISION"),
   (["float4", "float", "real"], fun _ => "REAL"),
   (["datetime", "timestamp", "timestamp without time zone"], fun _ => "TIMESTAMP"),
   (["timestamptz", "timestamp with time zone"], fun _ => "TIMESTAMPTZ"),
   (["binary", "varbinary", "blob", "bytea"], fun _ => "BYTEA")]

/-- The type of a column in PostgreSQL. -/
def postgresType (c : Column) : String :=
  match postgresFamilies.find? fun family => family.1.contains c.effectiveType with
  | some family => family.2 c
  | none => Text.upper c.effectiveType

end Column

/-- The type of a column as the dialect writes it.  In SQLite a column that the database fills must
be declared exactly `INTEGER`. -/
def Dialect.columnType (d : Dialect) (c : Column) : String :=
  match d with
  | mysql => c.widened
  | postgres => c.postgresType
  | sqlite => if c.autoIncrement then "INTEGER" else c.widened

end SqlService
