import SqlService.Record

/-!
# Scalars bound to statements

A `Scalar` is what a statement parameter is bound to.  `ofJson` gives the scalar of a value (arrays
and objects are bound as their JSON text), `toJson` the value of a scalar.
-/

namespace SqlService

/-- A value that a database engine can be handed for a parameter. -/
inductive Scalar where
  | null
  | bool (value : Bool)
  | int (value : Int64)
  | float (value : Binary64)
  | text (value : String)
  | blob (bytes : List UInt8)
  deriving DecidableEq

namespace Scalar

/-- The scalar that a JSON value is bound as.  A whole number beyond the signed range is bound as
the nearest double. -/
def ofJson : Json → Scalar
  | .null => null
  | .bool b => bool b
  | .number n =>
    match n.toInt64? with
    | some i => int i
    | none => float n.toBinary64
  | .string s => text s
  | v => text v.compact

/-- The JSON value of a scalar; a double that is no number is null, bytes are an array. -/
def toJson : Scalar → Json
  | null => .null
  | bool b => .bool b
  | int i => .ofInt64 i
  | float x => .ofBinary64 x
  | text s => .string s
  | blob bytes => .array (bytes.map fun b => .ofUInt64 b.toUInt64)

end Scalar

end SqlService
