import SqlService.Filter.Basic
import SqlService.Error
import SqlService.Record
import SqlService.Dialect

/-!
# Conditions from filters

`Filter.compile` turns a filter into the text of a condition.  Every value becomes a parameter; the
names are a stem followed by a number that grows by one for each parameter, from left to right and
depth first.  The numbering is returned in any case, as it stands after an error too.
-/

namespace SqlService

/-- The stem of generated parameter names where the caller gives none. -/
def defaultStem : String := "P"

/-- The number of the last generated parameter, and the parameters so far.  A caller keeps the number
in a word of 64 bits; here it has no greatest value. -/
structure Numbering where
  counter : Nat := 0
  params : Record := ∅

namespace Numbering

/-- The name of the parameter with the given number. -/
def nameOf (stem : String) (number : Nat) : String := stem ++ toString number

/-- The name of the next parameter. -/
def nextName (n : Numbering) (stem : String) : String := nameOf stem (n.counter + 1)

/-- The numbering with the value bound to the next parameter. -/
def bind (n : Numbering) (stem : String) (value : Json) : Numbering :=
  ⟨n.counter + 1, n.params.insert (n.nextName stem) value⟩

end Numbering

namespace Filter

/-! ## §1 Comparisons -/

/-- The text that a membership list is cut out of. -/
def listText : Json → String
  | .string s => s
  | .null => ""
  | v => v.compact

/-- The members of a membership list. -/
def members (value : Json) : List String := Text.splitChar ',' (listText value)

/-- The values that a comparison binds, in order. -/
def boundValues (op : CompareOp) (value : Json) : List Json :=
  match op with
  | .inList => (members value).map .string
  | _ => [value]

/-- Binds the values one after another and returns their parameters. -/
def bindAll (d : Dialect) (stem : String) : List Json → Numbering → List String × Numbering
  | [], n => ([], n)
  | v :: vs, n =>
    -- The parameter is named before the rest is numbered.
    let parameter := d.placeholder (n.nextName stem)
    let rest := bindAll d stem vs (n.bind stem v)
    (parameter :: rest.1, rest.2)

/-- The text of a comparison whose values have become the given parameters. -/
def comparison (d : Dialect) (name : String) (op : CompareOp) (parameters : List String) :
    String :=
  let joined := String.intercalate "," parameters
  match op with
  | .inList => name ++ " IN (" ++ joined ++ ")"
  | .contains => name ++ " LIKE " ++ d.containsPattern joined
  | _ => name ++ " " ++ op.symbol ++ " " ++ joined

/-! ## §2 Trees -/

/-- What stands between the children of a conjunction or disjunction. -/
def joiner : LogicOp → String
  | .and => " AND "
  | _ => " OR "

mutual

/-- The condition of a filter, and the numbering after it. -/
def compile (d : Dialect) (stem : String) :
    Filter → Numbering → Except DataError String × Numbering
  | compare name op value, n =>
    let bound := bindAll d stem (boundValues op value) n
    (.ok (comparison d name op bound.1), bound.2)
  | logic .not [child], n =>
    match compile d stem child n with
    | (.ok inner, n) => (.ok ("NOT (" ++ inner ++ ")"), n)
    | (.error e, n) => (.error e, n)
  -- A negation of any other number of children binds nothing.
  | logic .not children, n =>
    (.error (.invalidFilter (.negationArity children.length)), n)
  | logic op [], n => (.error (.invalidFilter (.noChildren op)), n)
  | logic op (child :: children), n =>
    match compileAll d stem (child :: children) n with
    | (.ok parts, n) => (.ok (String.intercalate (joiner op) parts), n)
    | (.error e, n) => (.error e, n)

/-- The conditions of several filters, each between parentheses; the first error ends it. -/
def compileAll (d : Dialect) (stem : String) :
    List Filter → Numbering → Except DataError (List String) × Numbering
  | [], n => (.ok [], n)
  | f :: fs, n =>
    match compile d stem f n with
    | (.error e, n) => (.error e, n)
    | (.ok sql, n) =>
      match compileAll d stem fs n with
      | (.error e, n) => (.error e, n)
      | (.ok parts, n) => (.ok (("(" ++ sql ++ ")") :: parts), n)

end

end Filter

end SqlService
