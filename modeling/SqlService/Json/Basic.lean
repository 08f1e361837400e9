import SqlService.Number.Literal
import SqlService.Dictionary

/-!
# JSON values

A `Json` value is a tree of scalars, arrays and objects; the fields of an object keep their order.
Where an object comes from a document or an operation of this library its names are distinct.
`same` compares values without regard to the order of fields.
-/

namespace SqlService

/-- A JSON value. -/
inductive Json where
  | null
  | bool (value : Bool)
  | number (value : Number)
  | string (value : String)
  | array (items : List Json)
  | object (fields : List (String × Json))
  deriving Inhabited, Repr

namespace Json

/-! ## §1 Scalars from words -/

/-- A signed word as a value. -/
def ofInt64 (i : Int64) : Json := .number (.int (.ofInt64 i))

/-- An unsigned word as a value. -/
def ofUInt64 (n : UInt64) : Json := .number (.int (.ofUInt64 n))

/-- A 32-bit word as a value. -/
def ofUInt32 (n : UInt32) : Json := .ofUInt64 n.toUInt64

/-- A double as a value; what is not finite becomes null. -/
def ofBinary64 (x : Binary64) : Json :=
  match Number.ofBinary64? x with
  | some n => .number n
  | none => .null

/-! ## §2 Views -/

/-- Whether the value is null. -/
def isNull : Json → Bool
  | null => true
  | _ => false

/-- The text of a string value. -/
def string? : Json → Option String
  | string s => some s
  | _ => none

/-- The items of an array. -/
def items? : Json → Option (List Json)
  | array items => some items
  | _ => none

/-- The fields of an object. -/
def fields? : Json → Option (List (String × Json))
  | object fields => some fields
  | _ => none

/-! ## §3 Equality without order -/

mutual

/-- Whether two values are equal when the order of fields does not count. -/
def same : Json → Json → Bool
  | null, null => true
  | bool a, bool b => a == b
  | number a, number b => a.same b
  | string a, string b => a == b
  | array xs, array ys => sameItems xs ys
  | object fs, object gs => fs.length == gs.length && sameFields fs gs
  | _, _ => false

/-- Whether two lists of values are equal item by item. -/
def sameItems : List Json → List Json → Bool
  | [], [] => true
  | x :: xs, y :: ys => same x y && sameItems xs ys
  | _, _ => false

/-- Whether every field is also among `gs`. -/
def sameFields : List (String × Json) → List (String × Json) → Bool
  | [], _ => true
  | (n, x) :: fs, gs =>
    (match Entries.find? n gs with
      | some y => same x y
      | none => false) && sameFields fs gs

end

end Json

end SqlService
