import SqlService.Flow.Error
import SqlService.Filter.SortKey
import SqlService.Record

/-!
# Arguments of SQL steps

The arguments of a step that invokes an SQL item are split: four reserved names shape the query,
all others are parameters of the statement.
-/

namespace SqlService

/-- What the arguments of an SQL step say. -/
structure SqlArgs where
  filter : Option Filter := none
  sorts : List SortKey := []
  /-- The page and its size, if both are given. -/
  page : Option (UInt64 × UInt64) := none
  params : Record := ∅

namespace SqlArgs

/-! ## §1 Single arguments -/

/-- The names that shape the query. -/
def reserved : List String := ["filter", "sort", "pageIndex", "pageSize"]

/-- Reads the filter argument; null is no filter. -/
def readFilter (v : Json) : Except FlowError (Option Filter) :=
  match v with
  | .null => .ok none
  | v =>
    match Filter.read? (Document.ofJson v) with
    | some f => .ok (some f)
    | none => .error .json

/-- Reads a list of sort texts. -/
def readSortItems : List Json → Except FlowError (List SortKey)
  | [] => .ok []
  | .string s :: rest => do
    let sorts ← readSortItems rest
    return SortKey.parseList s ++ sorts
  | _ :: _ => .error (.invalidArgument "sort" "expected strings")

/-- Reads the sort argument: a text, a list of texts, or null. -/
def readSorts : Json → Except FlowError (List SortKey)
  | .null => .ok []
  | .string s => .ok (SortKey.parseList s)
  | .array items => readSortItems items
  | _ => .error (.invalidArgument "sort" "expected a string or a list of strings")

/-- Reads an argument that is a number of rows or a page. -/
def readPageNumber (name : String) (v : Json) : Except FlowError (Option UInt64) :=
  let refused : Except FlowError (Option UInt64) :=
    .error (.invalidArgument name "expected a non-negative integer")
  match v with
  | .null => .ok none
  | .number n =>
    match n.toUInt64? with
    | some w => .ok (some w)
    | none => refused
  | .string s =>
    match Decimal.readUnsigned? UInt64.size (Text.trim s) with
    | some n => .ok (some (UInt64.ofNat n))
    | none => refused
  | _ => .error (.invalidArgument name "expected a number")

/-! ## §2 All arguments -/

/-- The arguments read so far. -/
structure Partly where
  filter : Option Filter := none
  sorts : List SortKey := []
  pageIndex : Option UInt64 := none
  pageSize : Option UInt64 := none
  params : Record := ∅

/-- Reads one argument. -/
def Partly.read (p : Partly) (arg : String × Json) : Except FlowError Partly :=
  match arg.1 with
  | "filter" => do return { p with filter := ← readFilter arg.2 }
  | "sort" => do return { p with sorts := ← readSorts arg.2 }
  | "pageIndex" => do return { p with pageIndex := ← readPageNumber "pageIndex" arg.2 }
  | "pageSize" => do return { p with pageSize := ← readPageNumber "pageSize" arg.2 }
  | name => .ok { p with params := p.params.insert name arg.2 }

/-- What all arguments say together. -/
def Partly.finish (p : Partly) : SqlArgs where
  filter := p.filter
  sorts := p.sorts
  page :=
    match p.pageIndex, p.pageSize with
    -- Half of a page is no page.
    | some index, some size => some (index, size)
    | _, _ => none
  params := p.params

/-- Reads the arguments in their order. -/
def parse (args : Record) : Except FlowError SqlArgs := do
  let partly ← args.entries.foldlM Partly.read {}
  return partly.finish

end SqlArgs

end SqlService
