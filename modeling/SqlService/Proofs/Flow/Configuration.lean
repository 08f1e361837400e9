import SqlService.Proofs.Filter.Alike
import SqlService.Proofs.Flow.Nesting

/-!
# Checked configurations

Services are made of a configuration exactly if everything is declared that it names.  What is
checked of the lists of a configuration holds of the services that are made of them, where the last
one of a name counts: whatever a run does with them, it does not come upon a connection, a dialect
or a nested flow that there is not.

Main statement: `Config.services_checked`.
-/

namespace SqlService

open Program (Event)

/-! ## §1 Checks one after another -/

section Checks

variable {σ α ε : Type}

/-- A check of all elements goes through if each of them does. -/
theorem forM_eq_ok_iff {f : α → Except ε Unit} {xs : List α} :
    xs.forM f = .ok () ↔ ∀ x ∈ xs, f x = .ok () := by
  induction xs with
  | nil => simp [pure, Except.pure]
  | cons x xs ih =>
    rw [List.forall_mem_cons, ← ih]
    show (f x >>= fun _ => xs.forM f) = .ok () ↔ _
    cases f x <;> simp [bind, Except.bind]

/-- A fold over steps that go through for some elements only, whatever the state, goes through if
all are such, and keeps what every step keeps. -/
theorem foldlM_ok_iff {f : σ → α → Except ε σ} {inv : σ → Prop} {sound : α → Prop}
    (hf : ∀ s x, inv s → ((∃ s', f s x = .ok s') ↔ sound x) ∧ ∀ s', f s x = .ok s' → inv s')
    {s : σ} (hs : inv s) (xs : List α) :
    ((∃ s', xs.foldlM f s = .ok s') ↔ ∀ x ∈ xs, sound x) ∧
      ∀ s', xs.foldlM f s = .ok s' → inv s' := by
  induction xs generalizing s with
  | nil =>
    refine ⟨by simp [pure, Except.pure], fun s' h => ?_⟩
    obtain rfl : s = s' := by simpa [pure, Except.pure] using h
    exact hs
  -- The first step goes through if its element is sound, and the rest starts from what it kept.
  | cons x xs ih =>
    obtain ⟨hsound, hkeep⟩ := hf s x hs
    rw [List.foldlM_cons, List.forall_mem_cons, ← hsound]
    cases hx : f s x with
    | error e => simp [bind, Except.bind]
    | ok s1 =>
      obtain ⟨hrest, hlast⟩ := ih (hkeep s1 hx)
      simpa [bind, Except.bind, ← hrest] using hlast

end Checks

/-! ## §2 Dialects -/

/-- The names of the dialects that there are. -/
def dialectNames : List String := ["mysql", "postgres", "postgresql", "sqlite", "sqlite3"]

/-- The name is that of a dialect, in any case. -/
def IsDialectName (name : String) : Prop :=
  ∃ known ∈ dialectNames, Text.sameWord name known = true

namespace Registry

/-- The registry knows the same names as the standard one and has a provider for each of them. -/
structure Stocked (r : Registry) : Prop where
  names : r.names = standard.names
  length : r.providers.length = 3

/-- The standard registry is stocked. -/
theorem stocked_standard : Stocked standard := ⟨rfl, rfl⟩

/-- The names of the standard registry are those of the dialects, in lower case. -/
theorem mem_names_standard {name : String} :
    Text.lower name ∈ standard.names.names ↔ IsDialectName name := by
  have hlower : ∀ known ∈ dialectNames, Text.lower known = known := by decide +kernel
  have hnames : standard.names.names = dialectNames := by decide +kernel
  rw [hnames]
  constructor
  · intro h
    exact ⟨_, h, Text.sameWord_iff.mpr (hlower _ h).symm⟩
  · rintro ⟨known, hknown, hsame⟩
    rw [Text.sameWord_iff.mp hsame, hlower known hknown]
    exact hknown

variable {r : Registry} {name : String}

/-- Exactly the names of dialects have a position. -/
theorem Stocked.position?_isSome_iff (h : r.Stocked) :
    (r.position? name).isSome = true ↔ IsDialectName name := by
  rw [position?, h.names, ← mem_names_standard, ← Dictionary.contains_iff]
  rfl

/-- Exactly the names of dialects stand for a provider. -/
theorem Stocked.get_ok_iff (h : r.Stocked) :
    (∃ p, r.get name = .ok p) ↔ IsDialectName name := by
  rw [← h.position?_isSome_iff, get]
  cases hp : r.position? name with
  | none => simp
  | some i =>
    -- Every name stands for one of the three positions.
    have hpositions : ∀ e ∈ standard.names.entries, e.2 < 3 := by decide +kernel
    rw [position?, h.names] at hp
    have hi : i < r.providers.length :=
      h.length ▸ hpositions _ (Dictionary.get?_eq_some_iff.mp hp)
    simp [List.getElem?_eq_getElem hi]

/-- A literal may be set for a dialect, and that leaves the registry stocked. -/
theorem Stocked.setDefault (h : r.Stocked) (name dataType literal : String) :
    ((∃ r', r.setDefault name dataType literal = .ok r') ↔ IsDialectName name) ∧
      ∀ r', r.setDefault name dataType literal = .ok r' → r'.Stocked := by
  rw [← h.position?_isSome_iff, Registry.setDefault]
  cases r.position? name with
  | none => simp
  | some i =>
    refine ⟨by simp, fun r' hr' => ?_⟩
    cases hr'
    exact ⟨h.names, by rw [List.length_modify, h.length]⟩

end Registry

/-! ## §3 Declarations -/

/-- The last one of the flows that has the name. -/
def Flow.last? (flows : List Flow) (name : String) : Option Flow :=
  flows.reverse.find? fun f => f.name == name

/-- A dictionary of flows under their names has the last one of each name. -/
theorem Flow.get?_ofList (flows : List Flow) (name : String) :
    (Dictionary.ofList (flows.map fun f => (f.name, f))).get? name = last? flows name := by
  rw [Dictionary.ofList_eq_insertAll, last?]
  -- By induction from the end of the list, since the last flow of a name is the one that counts.
  induction flows using List.reverseRecOn with
  | nil => rfl
  | append_singleton flows f ih =>
    rw [List.map_append, Dictionary.insertAll, List.foldl_append, List.reverse_append,
      List.reverse_singleton, List.singleton_append, List.find?_cons]
    rw [Dictionary.insertAll] at ih
    by_cases h : name = f.name
    · simp [Dictionary.get?_insert, h]
    · have hother : (f.name == name) = false := by simpa using Ne.symm h
      simp [Dictionary.get?_insert, h, hother, ih]

/-- What can be asked for with the services while they run is there. -/
structure Services.Consistent (services : Services) : Prop where
  connection : ∀ name item, services.items.get? name = some item → ∃ settings p,
    services.connections.get? item.connection = some settings ∧
      services.providers.get settings.dialect = .ok p
  nested : ∀ name other, Nests services name other → ∃ flow, services.flow other = .ok flow

namespace Config

/-- Everything that the configuration names is there. -/
structure Declared (config : Config) : Prop where
  connections : ∀ name settings, config.connections.get? name = some settings →
    IsDialectName settings.dialect
  defaults : ∀ dialect ∈ config.defaults.names, IsDialectName dialect
  items : ∀ item ∈ config.items, item.connection ∈ config.connections.names
  flows : ∀ name flow, Flow.last? config.flows name = some flow → ∀ step ∈ flow.steps,
    step.kind = .flow → ∃ other ∈ config.flows, other.name = step.service

variable {config : Config}

/-- Sorting keeps the entries. -/
theorem mem_sorted {α : Type} {d : Dictionary α} {e : String × α} :
    e ∈ d.sorted ↔ e ∈ d.entries :=
  (List.mergeSort_perm d.entries _).mem_iff

/-- The dialects of the connections are checked with the standard registry. -/
theorem checkDialects_ok_iff :
    config.checkDialects .standard = .ok () ↔
      ∀ name settings, config.connections.get? name = some settings →
        IsDialectName settings.dialect := by
  rw [checkDialects, forM_eq_ok_iff]
  simp only [← Registry.stocked_standard.get_ok_iff]
  -- Checked is the sorted list of entries, which are those of the dictionary.
  constructor
  · intro h name settings hget
    have hchecked := h (name, settings) (mem_sorted.mpr (Dictionary.get?_eq_some_iff.mp hget))
    cases hp : Registry.standard.get settings.dialect with
    | ok p => exact ⟨p, rfl⟩
    | error e => simp [hp] at hchecked
  · rintro h ⟨name, settings⟩ he
    obtain ⟨p, hp⟩ := h name settings (Dictionary.get?_eq_some_iff.mpr (mem_sorted.mp he))
    simp [hp]

/-- Setting the literals of a dialect goes through exactly if there is such a dialect. -/
theorem setLiterals_ok_iff {r : Registry} (hr : r.Stocked) (dialect : String)
    (literals : Dictionary String) :
    ((∃ r', setLiterals r dialect literals = .ok r') ↔ IsDialectName dialect) ∧
      ∀ r', setLiterals r dialect literals = .ok r' → r'.Stocked := by
  rw [setLiterals, ← hr.get_ok_iff]
  cases hget : r.get dialect with
  | error e => simp
  | ok p =>
    have hdialect : IsDialectName dialect := hr.get_ok_iff.mp ⟨p, hget⟩
    -- With a known dialect it does not matter which literals there are.
    have hall : (∃ q, Except.ok p = (.ok q : Except DataError Provider)) ↔
        ∀ e ∈ literals.sorted, IsDialectName dialect := by simp [hdialect]
    rw [hall]
    refine foldlM_ok_iff (fun r e hr => ?_) hr _
    obtain ⟨hknown, hkeep⟩ := hr.setDefault dialect e.1 e.2
    rw [← hknown]
    cases hset : r.setDefault dialect e.1 e.2 with
    | error e => simp
    | ok r1 => simpa using hkeep r1 hset

/-- The literals of the configuration go through if their dialects are known, and leave a stocked
registry. -/
theorem providers_ok_iff :
    ((∃ r, config.providers = .ok r) ↔ ∀ dialect ∈ config.defaults.names, IsDialectName dialect) ∧
      ∀ r, config.providers = .ok r → r.Stocked := by
  obtain ⟨hall, hkeep⟩ := foldlM_ok_iff
    (fun r (e : String × Dictionary String) hr => setLiterals_ok_iff hr e.1 e.2)
    Registry.stocked_standard config.defaults.sorted
  refine ⟨?_, hkeep⟩
  rw [providers, hall]
  constructor
  · rintro h dialect hdialect
    obtain ⟨e, he, rfl⟩ := List.mem_map.mp hdialect
    exact h e (mem_sorted.mpr he)
  · exact fun h e he => h e.1 (List.mem_map.mpr ⟨e, mem_sorted.mp he, rfl⟩)

/-- Whatever items of a name are given, they all have to name a declared connection. -/
theorem itemsByName_ok_iff :
    ((∃ items, config.itemsByName = .ok items) ↔
        ∀ item ∈ config.items, item.connection ∈ config.connections.names) ∧
      ∀ items, config.itemsByName = .ok items → ∀ name item, items.get? name = some item →
        item.connection ∈ config.connections.names := by
  refine foldlM_ok_iff (fun items i hitems => ?_) (by intro name item h; cases h) config.items
  rw [← Dictionary.contains_iff]
  -- An item is taken in if its connection is declared, and it replaces one of its name.
  by_cases hc : config.connections.contains i.connection = true
  · refine ⟨by simp [hc], fun items' h name item hget => ?_⟩
    rw [if_pos hc] at h
    obtain rfl := Except.ok.inj h
    rw [Dictionary.get?_insert] at hget
    split at hget
    · obtain rfl := Option.some.inj hget
      exact Dictionary.contains_iff.mp hc
    · exact hitems name item hget
  · simp [hc]

/-- No flow is undeclared if every step that names one names a declared one. -/
theorem undeclaredFlow?_eq_none_iff {flows : Dictionary Flow} :
    undeclaredFlow? flows = none ↔ ∀ name flow, flows.get? name = some flow →
      ∀ step ∈ flow.steps, step.kind = .flow → step.service ∈ flows.names := by
  -- The services of all such steps are gathered before they are looked up.
  rw [undeclaredFlow?, List.find?_eq_none]
  constructor
  · intro h name flow hget step hstep hkind
    have hnamed := h step.service (List.mem_flatMap.mpr ⟨(name, flow),
      Dictionary.get?_eq_some_iff.mp hget, by simpa using ⟨step, ⟨hstep, hkind⟩, rfl⟩⟩)
    rw [← Dictionary.contains_iff]
    simpa using hnamed
  · intro h service hservice
    obtain ⟨⟨name, flow⟩, he, hmem⟩ := List.mem_flatMap.mp hservice
    obtain ⟨step, ⟨hstep, hkind⟩, rfl⟩ : ∃ step, (step ∈ flow.steps ∧ step.kind = .flow) ∧
        step.service = service := by simpa using hmem
    have hdeclared := h name flow (Dictionary.get?_eq_some_iff.mpr he) step hstep hkind
    rw [← Dictionary.contains_iff] at hdeclared
    simp [hdeclared]

/-- The names of the flows are those of the declared flows. -/
theorem mem_names_flowsByName {name : String} :
    name ∈ config.flowsByName.names ↔ ∃ flow ∈ config.flows, flow.name = name := by
  rw [← Dictionary.contains_iff, Dictionary.contains, flowsByName, Flow.get?_ofList, Flow.last?]
  simp

/-- The parts that services are made of. -/
theorem services_eq_ok_iff {functions : Functions} {s : Services} :
    config.services functions = .ok s ↔
      config.checkDialects .standard = .ok () ∧ ∃ providers items,
        config.providers = .ok providers ∧ config.itemsByName = .ok items ∧
        undeclaredFlow? config.flowsByName = none ∧
        s = { providers, connections := config.connections, items, flows := config.flowsByName,
              functions } := by
  -- The checks come one after another, and the first that fails is the error.
  unfold services
  dsimp only
  cases config.checkDialects .standard with
  | error e => simp [bind, Except.bind]
  | ok u =>
    cases config.providers with
    | error e => simp [bind, Except.bind]
    | ok providers =>
      cases config.itemsByName with
      | error e => simp [bind, Except.bind]
      | ok items =>
        cases undeclaredFlow? config.flowsByName with
        | some name => simp [bind, Except.bind, throw, throwThe, MonadExceptOf.throw]
        | none => simp [bind, Except.bind, pure, Except.pure, eq_comm]

/-- The same, said of the list of flows as the configuration has it. -/
theorem declared_flows_iff :
    undeclaredFlow? config.flowsByName = none ↔ ∀ name flow,
      Flow.last? config.flows name = some flow → ∀ step ∈ flow.steps, step.kind = .flow →
        ∃ other ∈ config.flows, other.name = step.service := by
  simp only [undeclaredFlow?_eq_none_iff, mem_names_flowsByName]
  simp only [flowsByName, Flow.get?_ofList]

/-- Services are made of a configuration exactly if all is declared. -/
theorem services_ok_iff {functions : Functions} :
    (∃ s, config.services functions = .ok s) ↔ config.Declared := by
  simp only [services_eq_ok_iff]
  constructor
  · rintro ⟨s, hdialects, providers, items, hproviders, hitems, hflows, -⟩
    exact ⟨checkDialects_ok_iff.mp hdialects, providers_ok_iff.1.mp ⟨_, hproviders⟩,
      itemsByName_ok_iff.1.mp ⟨_, hitems⟩, declared_flows_iff.mp hflows⟩
  · intro h
    obtain ⟨providers, hproviders⟩ := providers_ok_iff.1.mpr h.defaults
    obtain ⟨items, hitems⟩ := itemsByName_ok_iff.1.mpr h.items
    exact ⟨_, checkDialects_ok_iff.mpr h.connections, providers, items, hproviders, hitems,
      declared_flows_iff.mpr h.flows, rfl⟩

/-- What is made of a configuration holds together. -/
theorem consistent_of_services {functions : Functions} {s : Services}
    (h : config.services functions = .ok s) : s.Consistent := by
  obtain ⟨hdialects, providers, items, hproviders, hitems, hflows, rfl⟩ := services_eq_ok_iff.mp h
  constructor
  -- An item has a connection, that has a dialect, and that has a provider.
  · intro name item hitem
    have hmem := itemsByName_ok_iff.2 items hitems name item hitem
    obtain ⟨settings, hsettings⟩ :=
      Option.isSome_iff_exists.mp (Dictionary.contains_iff.mpr hmem)
    have hdialect := checkDialects_ok_iff.mp hdialects _ _ hsettings
    obtain ⟨p, hp⟩ := (providers_ok_iff.2 _ hproviders).get_ok_iff.mpr hdialect
    exact ⟨settings, p, hsettings, hp⟩
  -- A flow that nests another has a step that names it.
  · rintro name other ⟨flow, hflow, step, hstep, hkind, rfl⟩
    have hget := Services.flow_eq_ok_iff.mp hflow
    have hmem := undeclaredFlow?_eq_none_iff.mp hflows name flow hget step hstep hkind
    obtain ⟨nested, hnested⟩ := Option.isSome_iff_exists.mp (Dictionary.contains_iff.mpr hmem)
    exact ⟨nested, Services.flow_eq_ok_iff.mpr hnested⟩

end Config

/-! ## §4 Runs -/

/-- What an SQL step does until it has its session: it is not prepared, its session is there, or its
connection is asked for with the settings that are declared for it. -/
inductive SqlStart (services : Services) (service : String) (args : Record) (c : Context) :
    List Event → Except FlowError Json → Prop where
  /-- The item is not there. -/
  | item (e : DataError) (h : services.item service = .error e) :
      SqlStart services service args c [] (.error (.data e))
  /-- Its text cannot be expanded. -/
  | text {events : List Event} {item : Item} (e : DataError)
      (hitem : services.item service = .ok item)
      (h : (Fragment.expand services.items [] item.name).run.Runs events (.error e)) :
      SqlStart services service args c events (.error (.data e))
  /-- The arguments cannot be read. -/
  | args {events : List Event} {item : Item} {sql : String} (e : FlowError)
      (hitem : services.item service = .ok item)
      (hsql : (Fragment.expand services.items [] item.name).run.Runs events (.ok sql))
      (h : SqlArgs.parse args = .error e) : SqlStart services service args c events (.error e)
  /-- The session is there already. -/
  | present {first rest : List Event} {r : Except FlowError Json} {item : Item} {sql : String}
      {parsed : SqlArgs} (s : Session) (hp : Prepared services service args first item sql parsed)
      (h : c.session? item.connection = some s) :
      SqlStart services service args c (first ++ rest) r
  /-- The connection is asked for. -/
  | asked {first rest : List Event} {r : Except FlowError Json} {item : Item} {sql : String}
      {parsed : SqlArgs} (settings : Settings) (reply : Except DataError String)
      (hp : Prepared services service args first item sql parsed)
      (h : c.session? item.connection = none)
      (hs : services.connections.get? item.connection = some settings) :
      SqlStart services service args c
        (first ++ ⟨.connect item.connection settings, reply⟩ :: rest) r

namespace Services

variable {services : Services}

/-- The settings of a connection are its entry. -/
theorem connection_eq_ok_iff {name : String} {settings : Settings} :
    services.connection name = .ok settings ↔ services.connections.get? name = some settings := by
  rw [connection]
  cases services.connections.get? name <;> simp

/-- An item is its entry. -/
theorem item_eq_ok_iff {name : String} {item : Item} :
    services.item name = .ok item ↔ services.items.get? name = some item := by
  rw [Services.item, Item.named]
  cases services.items.get? name <;> simp

/-- With services that hold together, a step that is prepared gets past the lookups. -/
theorem Consistent.start (h : services.Consistent) {service : String} {args : Record}
    {c c1 : Context} {first second rest : List Event} {item : Item} {sql : String}
    {parsed : SqlArgs} {opened : Except FlowError Session} {r : Except FlowError Json}
    (hp : Prepared services service args first item sql parsed)
    (ho : Opening services item.connection c second opened c1) :
    SqlStart services service args c (first ++ (second ++ rest)) r := by
  cases ho with
  | present s hs => exact .present s hp hs
  -- Unknown would be a connection without settings or a dialect without provider, and both are
  -- there.
  | unknown e hnone he =>
    obtain ⟨settings, p, hsettings, hprovider⟩ :=
      h.connection service item (item_eq_ok_iff.mp hp.item_eq)
    rw [connection_eq_ok_iff.mpr hsettings] at he
    rcases he with he | ⟨settings', e', hsettings', he', -⟩
    · cases he
    · cases hsettings'
      rw [hprovider] at he'
      cases he'
  | refused settings e hnone hs => exact .asked settings _ hp hnone (connection_eq_ok_iff.mp hs)
  | opened settings database p hnone hs hp' =>
    exact .asked settings _ hp hnone (connection_eq_ok_iff.mp hs)

/-- With services that hold together, every SQL step starts as it should. -/
theorem Consistent.start_of_runs (h : services.Consistent) {service : String} {args : Record}
    {c c' : Context} {events : List Event} {r : Except FlowError Json}
    (hrun : FlowM.Runs (services.runSql service args) c events r c') :
    SqlStart services service args c events r := by
  unfold runSql at hrun
  rcases FlowM.runs_ofData_bind_iff.mp hrun with ⟨item, hitem, h1⟩ | ⟨e, hitem, rfl, rfl, rfl⟩
  · rcases FlowM.runs_attempt_bind_iff.mp h1 with
      ⟨first, rest, sql, rfl, hsql, h2⟩ | ⟨e, hsql, rfl, rfl⟩
    · rcases FlowM.runs_lift_bind_iff.mp h2 with ⟨parsed, hparsed, h3⟩ | ⟨e, he, rfl, rfl, rfl⟩
      · have hp : Prepared services service args first item sql parsed := ⟨hitem, hsql, hparsed⟩
        rcases FlowM.runs_bind_iff.mp h3 with ⟨second, rest, s, c1, rfl, ho, -⟩ | ⟨e, ho, rfl⟩
        · exact h.start hp (FlowM.opening_of_runs ho)
        · rw [← List.append_nil rest]
          exact h.start hp (FlowM.opening_of_runs ho)
      · rw [List.append_nil]
        exact .args e hitem hsql he
    · exact .text e hitem hsql
  · exact .item e hitem

end Services

/-- Services are made of a configuration exactly if all is declared.  Whatever is run with them, a
flow that a step names is there, and an SQL step that is prepared finds its session or asks for its
connection. -/
theorem Config.services_checked (config : Config) (functions : Functions) :
    ((∃ s, config.services functions = .ok s) ↔ config.Declared) ∧
    ∀ s, config.services functions = .ok s →
      ∀ root input events result, Program.Runs (s.run root input) events result →
        (∃ log, RunLog s root input events result log) ∧
        ∀ log, RunLog s root input events result log → ∀ x ∈ log,
          (x.step.kind = .flow → ∃ flow, s.flow x.step.service = .ok flow) ∧
          (x.step.kind = .sql →
            SqlStart s x.step.service x.args x.before x.events x.outcome) := by
  refine ⟨services_ok_iff, fun s hs root input events result h => ?_⟩
  have hconsistent := consistent_of_services hs
  -- What a log says of a start is where it stands and that it has run.
  refine ⟨Services.runs_iff_logs.mp h, fun log hlog x hx => ⟨fun hkind => ?_, fun hkind => ?_⟩⟩
  · obtain ⟨flow, hflow, hstep⟩ := (hlog.placed x hx).listed
    exact hconsistent.nested x.flow x.step.service
      ⟨flow, hflow, x.step, List.mem_of_getElem? hstep, hkind, rfl⟩
  · have hran := (hlog.placed x hx).ran
    unfold Services.runStep at hran
    rw [hkind] at hran
    exact hconsistent.start_of_runs hran

namespace Cart

/-- The cart with a flow above it, declared twice: only the second declaration counts. -/
def config : Config where
  connections := Dictionary.ofList [("main", { settings with dialect := "MySQL" })]
  items := [{ name := "clear", text, connection := "main", kind := .execute }]
  flows := [{ name := "empty", steps := [{ name := "gone", kind := .flow, service := "none" }] },
    { name := "empty", steps := [{ name := "cleared", kind := .sql, service := "clear" }] },
    { name := "leave", steps := [{ name := "emptied", kind := .flow, service := "empty" }] }]

/-- The same, with an item in front whose connection is not there and which is replaced. -/
def stale : Config := { config with items := { name := "clear", text } :: config.items }

theorem declared : config.Declared where
  connections name settings h := by
    have hentry := Dictionary.get?_eq_some_iff.mp h
    obtain ⟨-, rfl⟩ := Prod.mk.inj (List.mem_singleton.mp hentry)
    have hlower : Text.lower "MySQL" = Text.lower "mysql" := by
      rw [Text.lower, Text.lower, ← String.toList_inj]
      simp [String.toList_map]
    exact ⟨"mysql", by decide, Text.sameWord_iff.mpr hlower⟩
  defaults dialect h := nomatch h
  items := by decide
  flows := Config.declared_flows_iff.mp (by decide +kernel)

end Cart

/-- The configuration of the cart is accepted and runs through, the one with the stale item is
refused. -/
theorem cart_checked :
    (∃ s, Cart.config.services {} = .ok s ∧ ∃ log result,
      RunLog s "leave" .null ((s.run "leave" .null).transcript Scripted.respond {}) result log ∧
        ∀ x ∈ log, x.step.kind = .sql →
          SqlStart s x.step.service x.args x.before x.events x.outcome) ∧
      ¬ ∃ s, Cart.stale.services {} = .ok s := by
  obtain ⟨hconfig, hruns⟩ := Config.services_checked Cart.config {}
  obtain ⟨hstale, -⟩ := Config.services_checked Cart.stale {}
  constructor
  · obtain ⟨s, hs⟩ := hconfig.mpr Cart.declared
    obtain ⟨⟨log, hlog⟩, hall⟩ := hruns s hs _ _ _ _
      (Program.runs_transcript Scripted.respond (s.run "leave" .null) {})
    exact ⟨s, hs, log, _, hlog, fun x hx => (hall log hlog x hx).2⟩
  · intro h
    have hitem := (hstale.mp h).items { name := "clear", text := Cart.text } List.mem_cons_self
    exact absurd hitem (by decide)

end SqlService
