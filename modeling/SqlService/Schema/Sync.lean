import SqlService.Query.Run
import SqlService.Schema.Rows
import SqlService.Provider.CatalogueQueries

/-!
# Tables in the catalogue

Reading tables back from the catalogue of a connection, planning the statement that brings one in
line with a wished-for state, and running it.
-/

namespace SqlService.Provider

/-- A record of the given fields. -/
def catalogueParams (fields : List (String × String)) : Record :=
  Dictionary.ofList (fields.map fun f => (f.1, Json.string f.2))

/-- The names of the base tables. -/
def tables (p : Provider) (l : Link) : Attempt DataError (List String) := do
  let rows ← l.query p.dialect.tablesQuery (catalogueParams [("database", l.database)])
  return rows.filterMap fun r => Record.text? r "name"

/-- The table of that name, if there is one. -/
def readTable? (p : Provider) (name : String) (l : Link) : Attempt DataError (Option Table) := do
  let rows ← l.query p.dialect.columnsQuery
    (catalogueParams [("database", l.database), ("table", name)])
  return Table.ofRows? name l.database rows

/-- The statement that brings a table to the wished-for state: its creation where it is missing,
its alteration where it differs, nothing where it matches. -/
def plan (p : Provider) (wanted : Table) (l : Link) : Attempt DataError (Option String) := do
  wanted.validate
  let found ← l.scalar p.dialect.existsQuery
    (catalogueParams [("database", l.database), ("table", wanted.name)])
  -- A table that exists but has no columns is treated like one that is missing.
  let current ← if 0 < found.count then p.readTable? wanted.name l else pure none
  match current with
  | none => return some (p.createTable wanted)
  | some current =>
    let sql := p.alterTable wanted current
    return if sql = "" then none else some sql

/-- Brings a table to the wished-for state and returns the statement that did it. -/
def sync (p : Provider) (wanted : Table) (l : Link) : Attempt DataError (Option String) := do
  match ← p.plan wanted l with
  | none => return none
  | some sql =>
    l.script sql
    return some sql

end SqlService.Provider
