import SqlService.Json.Basic
import SqlService.Json.Printer
import SqlService.Text.Split
import SqlService.Text.Blank

/-!
# Records

A `Record` is an ordered dictionary of JSON values: a row read back from a query, the parameters of
a statement, the state of a flow.  Fields are addressed by name or by a dotted path
(`order.customer.id`); a path step into an array is an index.  Setting a path makes the objects it
needs and replaces whatever else stands in its way.

Main statement: what is set at a path is read back there (`getPath?_setPath_self`).
-/

namespace SqlService

/-! ## §1 Values read as scalars -/

namespace Json

/-- The value as text: strings as they are, null not at all, anything else in its JSON form. -/
def text? : Json → Option String
  | null => none
  | string s => some s
  | v => some v.compact

/-- The value as a signed word: numbers lose their fraction and are cut to the range, strings are
read as decimal numbers between blanks, `true` counts one. -/
def int? : Json → Option Int64
  | number n => some n.truncate
  | string s => Decimal.readSigned? (Text.trim s)
  | bool b => some (if b then 1 else 0)
  | _ => none

/-- The value as a flag: `true`, a whole number other than zero, or one of the words `yes`, `1`,
`true` and `t` in any case. -/
def flag : Json → Bool
  | bool b => b
  | number n =>
    match n.toInt64? with
    | some i => i != 0
    | none => false
  | string s => ["yes", "1", "true", "t"].contains (Text.lower s)
  | _ => false

end Json

/-! ## §2 Paths -/

namespace Entries

/-- The fields of an object, and none for any other value. -/
def under : Option Json → List (String × Json)
  | some (.object fields) => fields
  | _ => []

/-- The fields with the value set at the path. -/
def setSteps (value : Json) : List String → List (String × Json) → List (String × Json)
  | [], fields => fields
  | [last], fields => put last value fields
  | step :: next :: steps, fields =>
    put step (.object (setSteps value (next :: steps) (under (find? step fields)))) fields

theorem nodup_setSteps (value : Json) (steps : List String) {fields : List (String × Json)}
    (h : (names fields).Nodup) : (names (setSteps value steps fields)).Nodup := by
  match steps with
  | [] => exact h
  | [_] => exact nodup_put h
  | _ :: _ :: _ => exact nodup_put h

end Entries

namespace Json

/-- The value a path leads to from inside this value: names lead into objects, indices into
arrays. -/
def follow? : List String → Json → Option Json
  | [], v => some v
  | step :: steps, v =>
    match v with
    | object fields => (Entries.find? step fields).bind (follow? steps)
    | array items =>
      ((Decimal.readUnsigned? UInt64.size step).bind fun i => items[i]?).bind (follow? steps)
    | _ => none

end Json

/-! ## §3 Records -/

/-- A JSON object with each name once, its fields in order. -/
abbrev Record := Dictionary Json

namespace Record

/-- The steps of a dotted path. -/
def steps (path : String) : List String := Text.splitChar '.' path

/-- The record of an object; no other value has one. -/
def ofJson? : Json → Option Record
  | .object fields => some (Dictionary.ofList fields)
  | _ => none

/-- The record as an object. -/
def toJson (r : Record) : Json := .object r.entries

/-- The value at a dotted path. -/
def getPath? (r : Record) (path : String) : Option Json := Json.follow? (steps path) r.toJson

/-- The record with the value set at a dotted path. -/
def setPath (r : Record) (path : String) (value : Json) : Record :=
  ⟨Entries.setSteps value (steps path) r.entries, Entries.nodup_setSteps value _ r.distinct⟩

/-- A field as text. -/
def text? (r : Record) (name : String) : Option String := (r.get? name).bind Json.text?

/-- A field as text, empty if it has none. -/
def text (r : Record) (name : String) : String := (text? r name).getD ""

/-- A field as a signed word. -/
def int? (r : Record) (name : String) : Option Int64 := (r.get? name).bind Json.int?

/-- A field as a flag, unset if it is absent. -/
def flag (r : Record) (name : String) : Bool := ((r.get? name).map Json.flag).getD false

/-- The compact JSON text of a record. -/
def compact (r : Record) : String := (toJson r).compact

theorem steps_ne_nil (path : String) : steps path ≠ [] := by
  simp [steps, Text.splitChar, Text.split, Text.pieces_ne_nil]

theorem follow?_setSteps (value : Json) (steps : List String) (fields : List (String × Json))
    (h : steps ≠ []) :
    Json.follow? steps (.object (Entries.setSteps value steps fields)) = some value := by
  induction steps generalizing fields with
  | nil => exact absurd rfl h
  | cons step rest ih =>
    cases rest with
    | nil => simp [Entries.setSteps, Json.follow?, Entries.find?_put_self]
    | cons next more =>
      simp only [Entries.setSteps, Json.follow?, Entries.find?_put_self, Option.bind_some]
      exact ih _ (by simp)

/-- What is set at a path is read back there. -/
theorem getPath?_setPath_self (r : Record) (path : String) (value : Json) :
    getPath? (setPath r path value) path = some value :=
  follow?_setSteps value _ _ (steps_ne_nil path)

/-- A record is rebuilt from the object it stands for. -/
theorem ofJson?_toJson (r : Record) : ofJson? (toJson r) = some r := by
  simp [ofJson?, toJson, Dictionary.ofList_entries]

end Record

end SqlService
