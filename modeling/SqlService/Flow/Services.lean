import SqlService.Flow.Function
import SqlService.Flow.Step
import SqlService.Fragment.Item
import SqlService.Connection.Settings
import SqlService.Provider.Registry

/-!
# Services

`Services` is what flows are resolved against: providers, connections, SQL items, flows and
functions.  `Config` declares all but the functions; `Config.read?` reads it from JSON text and
`Config.services` checks that every name it uses is declared.
-/

namespace SqlService

/-! ## §1 Services -/

/-- Everything that a flow resolves names against. -/
structure Services where
  providers : Registry := .standard
  connections : Dictionary Settings := ∅
  items : Dictionary Item := ∅
  flows : Dictionary Flow := ∅
  functions : Functions := {}

namespace Services

/-- The settings of a connection. -/
def connection (s : Services) (name : String) : Except FlowError Settings :=
  match s.connections.get? name with
  | some c => .ok c
  | none => .error (.unknownConnection name)

/-- The SQL item of a name. -/
def item (s : Services) (name : String) : Except DataError Item := Item.named s.items name

/-- The flow of a name. -/
def flow (s : Services) (name : String) : Except FlowError Flow :=
  match s.flows.get? name with
  | some f => .ok f
  | none => .error (.unknownFlow name)

/-- The services with an SQL item added or replaced. -/
def addItem (s : Services) (i : Item) : Services := { s with items := s.items.insert i.name i }

/-- The services with a flow added or replaced. -/
def addFlow (s : Services) (f : Flow) : Services := { s with flows := s.flows.insert f.name f }

end Services

/-! ## §2 Declarations -/

/-- A declaration of services. -/
structure Config where
  connections : Dictionary Settings := ∅
  items : List Item := []
  flows : List Flow := []
  /-- Default literals to set, by dialect and data type. -/
  defaults : Dictionary (Dictionary String) := ∅

namespace Config

/-- The JSON form of a dictionary, sorted by name. -/
def dictionaryToJson {α : Type} (toJson : α → Json) (d : Dictionary α) : Json :=
  .object (d.sorted.map fun e => (e.1, toJson e.2))

/-- The JSON form of a declaration. -/
def toJson (c : Config) : Json :=
  .object [
    ("connections", dictionaryToJson Settings.toJson c.connections),
    ("sql", .array (c.items.map Item.toJson)),
    ("flows", .array (c.flows.map Flow.toJson)),
    ("defaults", dictionaryToJson (dictionaryToJson Json.string) c.defaults)]

/-- Reads a declaration; every part of it may be missing. -/
def ofDocument? (d : Document) : Option Config :=
  match d.parts? ["connections", "sql", "flows", "defaults"] with
  | some [connections, sql, flows, defaults] => do
    let connections ←
      Document.defaulted? ∅ (Document.dictionaryOf? Settings.read?) connections
    let items ← Document.defaulted? [] (Document.listOf? Item.read?) sql
    let flows ← Document.defaulted? [] (Document.listOf? Flow.read?) flows
    let defaults ← Document.defaulted? ∅
      (Document.dictionaryOf? (Document.dictionaryOf? Document.text?)) defaults
    return { connections, items, flows, defaults }
  | _ => none

/-! ## §3 Checks -/

/-- Checks that the dialect of every connection is registered, in order of the names. -/
def checkDialects (c : Config) (r : Registry) : Except FlowError Unit :=
  c.connections.sorted.forM fun e =>
    match r.get e.2.dialect with
    | .ok _ => .ok ()
    | .error e => .error (.data e)

/-- The registry with the default literals of one dialect set. -/
def setLiterals (r : Registry) (dialect : String) (literals : Dictionary String) :
    Except FlowError Registry :=
  match r.get dialect with
  | .error e => .error (.data e)
  -- An unknown dialect is an error even if no literal is set for it.
  | .ok _ =>
    literals.sorted.foldlM (fun r e =>
      match r.setDefault dialect e.1 e.2 with
      | .ok r => .ok r
      | .error e => .error (.data e)) r

/-- The registry with all declared default literals set, in order of dialects and types. -/
def providers (c : Config) : Except FlowError Registry :=
  c.defaults.sorted.foldlM (fun r e => setLiterals r e.1 e.2) .standard

/-- The items by name; every one of them must name a declared connection. -/
def itemsByName (c : Config) : Except FlowError (Dictionary Item) :=
  c.items.foldlM (fun items i =>
    if c.connections.contains i.connection then .ok (items.insert i.name i)
    else .error (.unknownConnection i.connection)) ∅

/-- The flows by name, the last declaration of a name winning. -/
def flowsByName (c : Config) : Dictionary Flow :=
  Dictionary.ofList (c.flows.map fun f => (f.name, f))

/-- The first flow that some step names and no declaration has. -/
def undeclaredFlow? (flows : Dictionary Flow) : Option String :=
  let named := flows.entries.flatMap fun e =>
    (e.2.steps.filter fun s => s.kind == .flow).map (·.service)
  named.find? fun name => !flows.contains name

/-- The declared services with the given functions, if all names are declared. -/
def services (c : Config) (functions : Functions) : Except FlowError Services := do
  -- The order of the checks decides which of several faults is reported.
  c.checkDialects .standard
  let providers ← c.providers
  let items ← c.itemsByName
  let flows := c.flowsByName
  match undeclaredFlow? flows with
  | some name => throw (.unknownFlow name)
  | none => return { providers, connections := c.connections, items, flows, functions }

end Config

end SqlService
