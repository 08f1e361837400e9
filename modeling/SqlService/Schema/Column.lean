import SqlService.Json.Document
import SqlService.Text.LowerCase

/-!
# Columns

A `Column` describes one column of a table, whether wished for or read back from a catalogue.
-/

namespace SqlService

/-- The column that a foreign key points to. -/
structure ForeignKey where
  name : String
  table : String
  column : String
  deriving DecidableEq, Repr

/-- A column of a table. -/
structure Column where
  name : String := ""
  /-- The position in the table, counted from one. -/
  ordinal : UInt32 := 0
  /-- The type as the catalogue reports it. -/
  columnType : String := ""
  /-- The bare name of the type. -/
  dataType : String := ""
  /-- The length of texts and byte strings, 0 where none is given. -/
  length : UInt32 := 0
  nullable : Bool := true
  isKey : Bool := false
  /-- Whether the database fills the column. -/
  autoIncrement : Bool := false
  /-- The default as written; empty asks for the default of the type. -/
  defaultValue : String := ""
  comment : String := ""
  foreignKey : Option ForeignKey := none
  deriving DecidableEq, Repr, Inhabited

namespace Column

/-! ## §1 Building -/

/-- A nullable column of the type, whose name is taken in lower case. -/
def ofType (name dataType : String) : Column :=
  let type := Text.lowerCase dataType
  { name, columnType := type, dataType := type }

/-- The column made part of the primary key, and so not nullable. -/
def asKey (c : Column) : Column := { c with isKey := true, nullable := false }

/-- The types whose length is written out: texts and byte strings of bounded length. -/
def sizedTypes : List String :=
  ["char", "varchar", "binary", "varbinary", "bpchar", "character", "character varying"]

/-- Whether the column carries a length. -/
def isSized (c : Column) : Bool := sizedTypes.contains c.dataType

/-! ## §2 JSON form -/

/-- The JSON form of a foreign key. -/
def foreignKeyToJson (f : ForeignKey) : Json :=
  .object [("name", .string f.name), ("table", .string f.table), ("column", .string f.column)]

/-- The JSON form of a column. -/
def toJson (c : Column) : Json :=
  .object [
    ("name", .string c.name),
    ("ordinal", .ofUInt32 c.ordinal),
    ("column_type", .string c.columnType),
    ("data_type", .string c.dataType),
    ("length", .ofUInt32 c.length),
    ("nullable", .bool c.nullable),
    ("is_key", .bool c.isKey),
    ("auto_increment", .bool c.autoIncrement),
    ("default_value", .string c.defaultValue),
    ("comment", .string c.comment),
    ("foreign_key", (c.foreignKey.map foreignKeyToJson).getD .null)]

/-- Reads a foreign key; every part must be there. -/
def readForeignKey? (d : Document) : Option ForeignKey :=
  match d.parts? ["name", "table", "column"] with
  | some [name, table, column] => do
    let name ← Document.required? Document.text? name
    let table ← Document.required? Document.text? table
    let column ← Document.required? Document.text? column
    return ⟨name, table, column⟩
  | _ => none

/-- The names of the parts of a column, in order. -/
def partNames : List String :=
  ["name", "ordinal", "column_type", "data_type", "length", "nullable", "is_key",
   "auto_increment", "default_value", "comment", "foreign_key"]

/-- Reads a column; a part that is missing has its default. -/
def read? (d : Document) : Option Column :=
  match d.parts? partNames with
  | some [name, ordinal, columnType, dataType, length, nullable, isKey, autoIncrement,
      defaultValue, comment, foreignKey] => do
    let name ← Document.defaulted? "" Document.text? name
    let ordinal ← Document.defaulted? 0 Document.word32? ordinal
    let columnType ← Document.defaulted? "" Document.text? columnType
    let dataType ← Document.defaulted? "" Document.text? dataType
    let length ← Document.defaulted? 0 Document.word32? length
    let nullable ← Document.defaulted? true Document.flag? nullable
    let isKey ← Document.defaulted? false Document.flag? isKey
    let autoIncrement ← Document.defaulted? false Document.flag? autoIncrement
    let defaultValue ← Document.defaulted? "" Document.text? defaultValue
    let comment ← Document.defaulted? "" Document.text? comment
    let foreignKey ←
      Document.defaulted? none (Document.optionalOf? readForeignKey?) foreignKey
    return { name, ordinal, columnType, dataType, length, nullable, isKey, autoIncrement,
             defaultValue, comment, foreignKey }
  | _ => none

end Column

end SqlService
