import SqlService.Filter.Basic

/-!
# Errors of SQL generation and execution

Each way in which a statement cannot be built or run is a constructor; `message` is its wording.
-/

namespace SqlService

/-- Which rule of its structure a filter breaks. -/
inductive FilterFault where
  | negationArity (children : Nat)
  | noChildren (op : LogicOp)
  deriving DecidableEq, Repr

/-- What is inconsistent about a table. -/
inductive SchemaFault where
  | unknownKey (key table : String)
  | noKeys (table : String)
  | reported (text : String)
  deriving DecidableEq, Repr

/-- Why a statement could not be built or run. -/
inductive DataError where
  /-- The database engine refused. -/
  | database (text : String)
  /-- No provider is registered under the dialect name. -/
  | unknownProvider (name : String)
  /-- No SQL item is defined under the name. -/
  | unknownItem (name : String)
  /-- Fragments refer to each other in a loop, along the path. -/
  | fragmentCycle (path : List String)
  /-- The filter breaks a structural rule. -/
  | invalidFilter (fault : FilterFault)
  /-- A parameter of the caller has the name of a generated one. -/
  | parameterCollision (name : String)
  /-- The table is inconsistent. -/
  | invalidSchema (fault : SchemaFault)
  /-- The page starts beyond the addressable rows. -/
  | pageOutOfRange (index size : UInt64)
  /-- No driver handles the URL. -/
  | unsupportedUrl (url : String)
  /-- A value of a row could not be read. -/
  | decode (column text : String)
  deriving DecidableEq, Repr

/-- The wording of a filter fault. -/
def FilterFault.message : FilterFault → String
  | negationArity n => "NOT takes exactly one child, got " ++ toString n
  | noChildren op => op.name ++ " needs at least one child"

/-- The wording of a schema fault. -/
def SchemaFault.message : SchemaFault → String
  | unknownKey key table => "key '" ++ key ++ "' of table '" ++ table ++ "' matches no column"
  | noKeys table => "table '" ++ table ++ "' has no key columns"
  | reported text => text

/-- The wording of an error. -/
def DataError.message : DataError → String
  | database text => "database error: " ++ text
  | unknownProvider name => "no provider registered for dialect '" ++ name ++ "'"
  | unknownItem name => "unknown SQL definition: " ++ name
  | fragmentCycle path => "SQL fragment cycle: " ++ String.intercalate " -> " path
  | invalidFilter fault => "invalid filter: " ++ fault.message
  | parameterCollision name =>
    "parameter '" ++ name ++ "' is supplied by the caller and generated by the filter"
  | invalidSchema fault => "invalid schema: " ++ fault.message
  | pageOutOfRange index size =>
    "page " ++ toString index.toNat ++ " of size " ++ toString size.toNat ++ " is out of range"
  | unsupportedUrl url => "unsupported connection URL: " ++ url
  | decode column text => "cannot decode column '" ++ column ++ "': " ++ text

end SqlService
