import SqlService.Dictionary
import SqlService.Dialect
import SqlService.Text.Ascii

/-!
# Default literals

`Defaults` maps data types to the literal that a column of that type defaults to.  Types are
compared without regard to ASCII case.  `Dialect.stockDefaults` are the literals that each dialect
starts with.
-/

namespace SqlService

/-- Default literals by data type. -/
structure Defaults where
  literals : Dictionary String := ∅

namespace Defaults

/-- The literal for a data type. -/
def get? (d : Defaults) (dataType : String) : Option String :=
  d.literals.get? (Text.lower dataType)

/-- The defaults with the literal set for a data type. -/
def set (d : Defaults) (dataType literal : String) : Defaults :=
  ⟨d.literals.insert (Text.lower dataType) literal⟩

/-- The number of data types that have a literal. -/
def size (d : Defaults) : Nat := d.literals.size

/-- Whether no data type has a literal. -/
def isEmpty (d : Defaults) : Bool := d.literals.isEmpty

/-- The defaults of the pairs, later ones winning. -/
def ofList (pairs : List (String × String)) : Defaults :=
  pairs.foldl (fun d p => d.set p.1 p.2) {}

/-- A literal that has been set is read back under every spelling of its type. -/
theorem get?_set (d : Defaults) (dataType other literal : String) :
    (d.set dataType literal).get? other =
      if Text.sameWord other dataType then some literal else d.get? other := by
  simp only [set, get?, Dictionary.get?_insert, Text.sameWord_iff]

end Defaults

/-- The pairs that a dialect starts with. -/
def Dialect.stockLiterals : Dialect → List (String × String)
  | mysql =>
    [("int", "'0'"), ("integer", "'0'"), ("bigint", "'0'"), ("smallint", "'0'"),
     ("tinyint", "'0'"), ("mediumint", "'0'"), ("decimal", "'0'"), ("double", "'0'"),
     ("float", "'0'"), ("bit", "0"), ("char", "''"), ("varchar", "''"),
     ("date", "'1900-01-01'"), ("datetime", "'1900-01-01'")]
  | postgres =>
    [("int", "'0'"), ("integer", "'0'"), ("int2", "'0'"), ("int4", "'0'"), ("int8", "'0'"),
     ("smallint", "'0'"), ("bigint", "'0'"), ("numeric", "'0'"), ("decimal", "'0'"),
     ("real", "'0'"), ("double precision", "'0'"), ("char", "''"), ("character", "''"),
     ("bpchar", "''"), ("varchar", "''"), ("character varying", "''"), ("text", "''"),
     ("date", "'1900-01-01'"), ("timestamp", "'1900-01-01'"),
     ("timestamp without time zone", "'1900-01-01'")]
  | sqlite =>
    [("int", "'0'"), ("integer", "'0'"), ("bigint", "'0'"), ("smallint", "'0'"),
     ("tinyint", "'0'"), ("real", "'0'"), ("numeric", "'0'"), ("char", "''"),
     ("varchar", "''"), ("text", "''"), ("date", "'1900-01-01'"),
     ("datetime", "'1900-01-01'")]

/-- The literals that a dialect starts with. -/
def Dialect.stockDefaults (d : Dialect) : Defaults := Defaults.ofList d.stockLiterals

end SqlService
