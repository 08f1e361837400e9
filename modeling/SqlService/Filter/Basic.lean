import SqlService.Json.Document
import SqlService.Json.Basic

/-!
# Filters

A `Filter` is a tree of comparisons between a column and a value.  The constructors do not demand
the right number of children; the rule that a negation has exactly one and a conjunction or a
disjunction at least one is `WellFormed`.  A filter is written to JSON and read from it with one
object per node (`toJson`, `read?`).
-/

namespace SqlService

/-- How a comparison compares. -/
inductive CompareOp where
  | eq
  | gt
  | lt
  | gte
  | lte
  | contains
  | inList
  deriving DecidableEq, Repr

/-- How a node combines its children. -/
inductive LogicOp where
  | and
  | or
  | not
  deriving DecidableEq, Repr

/-- A tree of comparisons. -/
inductive Filter where
  | compare (name : String) (op : CompareOp) (value : Json)
  | logic (op : LogicOp) (children : List Filter)

namespace CompareOp

/-- The operator as it is written in SQL. -/
def symbol : CompareOp → String
  | eq => "="
  | gt => ">"
  | lt => "<"
  | gte => ">="
  | lte => "<="
  | contains => "LIKE"
  | inList => "IN"

/-- The operator as it is written in JSON. -/
def name : CompareOp → String
  | eq => "Eq"
  | gt => "Gt"
  | lt => "Lt"
  | gte => "Gte"
  | lte => "Lte"
  | contains => "Contains"
  | inList => "In"

/-- The operator of a JSON name. -/
def ofName? : String → Option CompareOp
  | "Eq" => some eq
  | "Gt" => some gt
  | "Lt" => some lt
  | "Gte" => some gte
  | "Lte" => some lte
  | "Contains" => some contains
  | "In" => some inList
  | _ => none

end CompareOp

namespace LogicOp

/-- The operator as it is written in JSON and in messages. -/
def name : LogicOp → String
  | and => "And"
  | or => "Or"
  | not => "Not"

/-- The operator of a JSON name. -/
def ofName? : String → Option LogicOp
  | "And" => some and
  | "Or" => some or
  | "Not" => some not
  | _ => none

end LogicOp

namespace Filter

/-! ## §1 Structure -/

mutual

/-- Whether every negation has exactly one child and every other branch at least one. -/
def wellFormed : Filter → Bool
  | compare _ _ _ => true
  | logic .not children => children.length == 1 && allWellFormed children
  | logic _ children => !children.isEmpty && allWellFormed children

/-- Whether every filter of the list is well formed. -/
def allWellFormed : List Filter → Bool
  | [] => true
  | f :: fs => wellFormed f && allWellFormed fs

end

/-- A filter that can be compiled. -/
def WellFormed (f : Filter) : Prop := f.wellFormed = true

instance (f : Filter) : Decidable f.WellFormed := inferInstanceAs (Decidable (_ = true))

mutual

/-- The comparisons of a filter from left to right. -/
def leaves : Filter → List (String × CompareOp × Json)
  | compare name op value => [(name, op, value)]
  | logic _ children => allLeaves children

/-- The comparisons of several filters from left to right. -/
def allLeaves : List Filter → List (String × CompareOp × Json)
  | [] => []
  | f :: fs => leaves f ++ allLeaves fs

end

/-! ## §2 JSON form -/

mutual

/-- The JSON form of a filter. -/
def toJson : Filter → Json
  | compare name op value =>
    .object [("Compare",
      .object [("name", .string name), ("op", .string op.name), ("value", value)])]
  | logic op children =>
    .object [("Logic",
      .object [("op", .string op.name), ("children", .array (allToJson children))])]

/-- The JSON forms of several filters. -/
def allToJson : List Filter → List Json
  | [] => []
  | f :: fs => toJson f :: allToJson fs

end

/-- The comparison with the given parts. -/
def readCompare? (name op value : Option Document) : Option Filter := do
  let name ← Document.required? Document.text? name
  let op ← (← Document.required? Document.unitVariant? op) |> CompareOp.ofName?
  let value ← Document.required? Document.value? value
  return compare name op value

/-- Reads a filter from its JSON form.  The body of a node is an object: an array of its parts in
order is refused. -/
def read? (d : Document) : Option Filter :=
  match d with
  | .object [(some tag, .object fields)] =>
    match tag with
    | "Compare" =>
      match (Document.object fields).parts? ["name", "op", "value"] with
      | some [name, op, value] => readCompare? name op value
      | _ => none
    | "Logic" =>
      match h : (Document.object fields).parts? ["op", "children"] with
      | some [some op, some (.array children)] =>
        have : sizeOf (Document.array children) < sizeOf (Document.object fields) :=
          Document.sizeOf_lt_of_mem_parts? h (by simp)
        match op.unitVariant?.bind LogicOp.ofName?, children.attach.mapM fun c => read? c.1 with
        | some op, some children => some (logic op children)
        | _, _ => none
      | _ => none
    | _ => none
  | _ => none
termination_by sizeOf d
decreasing_by
  have := List.sizeOf_lt_of_mem c.2
  simp_all
  omega

end Filter

end SqlService
