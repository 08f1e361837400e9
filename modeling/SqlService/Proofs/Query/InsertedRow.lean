import Mathlib.Data.List.Forall2
import SqlService.Proofs.Query.Independence
import SqlService.Proofs.Schema.Convergence
import SqlService.Proofs.Statement.BoundText

/-!
# Inserted rows

The text of an insert and its parameters are made separately from the columns of a table.  Bound
together they are one row: each column that the database does not fill has one value, and the values
stand in the order of the columns.

Main statement: `Table.insert_binds`.
-/

namespace SqlService

open Program (Event)
open Statement (Binds Copied Mentions Seam inert)

/-! ## §1 Names and order -/

/-- Whether a text is an identifier: ASCII letters, digits and `_`, at least one. -/
def Text.isIdentifier (s : String) : Bool := isWord s && s != ""

namespace Table

variable {t : Table} {c : Column}

/-- The table and its columns have identifiers for names. -/
structure Plain (t : Table) : Prop where
  name : Text.isIdentifier t.name = true
  columns : ∀ c ∈ t.columns, Text.isIdentifier c.name = true

theorem Plain.word (h : t.Plain) : Text.isWord t.name = true :=
  (Bool.and_eq_true_iff.mp h.name).1

theorem Plain.column (h : t.Plain) (hc : c ∈ t.columns) :
    Text.isWord c.name = true ∧ c.name ≠ "" := by
  simpa [Text.isIdentifier] using h.columns c hc

/-- What is taken of the columns by a property stays in order. -/
theorem filter_orderedColumns (t : Table) (keep : Column → Bool) :
    (t.orderedColumns.filter keep).Perm (t.columns.filter keep) ∧
      (t.orderedColumns.filter keep).Pairwise (·.ordinal ≤ ·.ordinal) :=
  ⟨(List.mergeSort_perm t.columns _).filter keep, t.pairwise_orderedColumns.filter keep⟩

theorem mem_insertedColumns : c ∈ t.insertedColumns ↔ c ∈ t.columns ∧ c.autoIncrement = false := by
  simp [insertedColumns, mem_orderedColumns]

theorem Plain.inserted (h : t.Plain) :
    ∀ n ∈ t.insertedColumns.map Column.name, Text.isWord n = true ∧ n ≠ "" :=
  List.forall_mem_map.mpr fun _ hc => h.column (mem_insertedColumns.mp hc).1

end Table

/-! ## §2 The statement -/

/-- The statements that read an identity back after the insert. -/
def Dialect.followUps (d : Dialect) : List String :=
  match d.lastIdentity with
  | .followUp sql => [sql]
  | .returning => []

namespace Provider

variable (p : Provider) (t : Table)

/-- The clause that makes an insert return the identity, where the dialect has it do so. -/
def returningClause : String :=
  match t.identityColumn?, p.dialect.lastIdentity with
  | some c, .returning => " RETURNING " ++ p.dialect.quote c.name
  | _, _ => ""

theorem insertStatement_eq :
    p.insertStatement t =
      ⟨"INSERT INTO " ++ p.dialect.quote t.name ++ " (" ++ p.columnList t.insertedColumns ++
          ") VALUES (" ++ String.intercalate ", "
            (t.insertedColumns.map fun c => p.dialect.placeholder c.name) ++ ")" ++
          p.returningClause t,
        t.identityColumn?.map fun _ => p.dialect.lastIdentity⟩ := by
  unfold insertStatement returningClause
  -- Only a column that the database fills makes the insert return something or ask for it.
  cases t.identityColumn? with
  | none => rw [String.append_empty]; rfl
  | some c =>
    cases p.dialect.lastIdentity with
    | followUp sql => rw [String.append_empty]; rfl
    | returning => rw [← String.append_assoc]; rfl

theorem followUps_insertStatement :
    (p.insertStatement t).followUps =
      if t.columns.any (·.autoIncrement) then p.dialect.followUps else [] := by
  rw [insertStatement_eq, InsertStatement.followUps, Dialect.followUps]
  rw [← List.isSome_find?, show t.columns.find? (·.autoIncrement) = t.identityColumn? from rfl]
  cases t.identityColumn? with
  | none => rfl
  | some c => cases p.dialect.lastIdentity <;> rfl

theorem returningClause_inert (ht : t.Plain) :
    ∀ c ∈ (p.returningClause t).toList, inert c = true := by
  unfold returningClause
  split
  · next c hc hreturning =>
    have hmem : c ∈ t.columns := List.mem_of_find?_eq_some hc
    -- Only bare identifiers are returned.
    have hdialect : p.dialect = .postgres := by
      cases hd : p.dialect <;> rw [hd] at hreturning <;> first | rfl | cases hreturning
    have hname : ∀ e ∈ c.name.toList, inert e = true := fun e he =>
      Statement.inert_of_isWordChar (List.all_eq_true.mp (ht.column hmem).1 e he)
    have hkeyword : ∀ e ∈ " RETURNING ".toList, inert e = true := by simp [inert]
    rw [hdialect, Dialect.quote, String.toList_append]
    exact fun e he => (List.mem_append.mp he).elim (hkeyword e) (hname e)
  · simp

end Provider

/-! ## §3 The row -/

/-- The value that a record has for a column: that of the first field with the column's name in any
case, or null if there is no such field. -/
inductive Column.Takes (c : Column) (values : Record) : Json → Prop where
  | field {before after : List (String × Json)} {name : String} {value : Json}
      (hentries : values.entries = before ++ (name, value) :: after)
      (hname : Text.sameWord name c.name = true)
      (hfirst : ∀ e ∈ before, Text.sameWord e.1 c.name = false) : Takes c values value
  | missing (hnone : ∀ e ∈ values.entries, Text.sameWord e.1 c.name = false) : Takes c values .null

theorem Table.takes_valueFor (values : Record) (c : Column) :
    c.Takes values (valueFor values c) := by
  unfold valueFor
  -- The field that is found is the first one of the name, in whatever case it is written.
  cases hfind : values.entries.find? fun e => Text.sameWord e.1 c.name with
  | none =>
    refine .missing fun e he => ?_
    simpa using List.find?_eq_none.mp hfind e he
  | some e =>
    obtain ⟨hname, before, after, hentries, hfirst⟩ := List.find?_eq_some_iff_append.mp hfind
    exact .field hentries hname fun e he => by simpa using hfirst e he

/-- The bound statement inserts one row into the columns, each with its own value. -/
structure Provider.InsertsRow (p : Provider) (t : Table) (values : Record) (columns : List Column)
    (b : Statement.Bound) : Prop where
  sql : b.sql = "INSERT INTO " ++ p.dialect.quote t.name ++ " (" ++ p.columnList columns ++
    ") VALUES (" ++
      String.intercalate ", " ((List.range' 1 columns.length).map p.dialect.positional) ++ ")" ++
    p.returningClause t
  unnamed : Statement.liveNames p.dialect.backslashEscapes b.sql.toList = []
  values : List.Forall₂ (fun c s => ∃ v, c.Takes values v ∧ s = Scalar.ofJson v) columns b.values

namespace Table

variable {t : Table}

theorem get?_insertParams (hdistinct : (t.insertedColumns.map Column.name).Nodup) (values : Record)
    {c : Column} (hc : c ∈ t.insertedColumns) :
    (t.insertParams values).get? c.name = some (valueFor values c) := by
  -- Every column has a parameter of its own name, so none replaces another.
  have hnames : Entries.names (t.insertedColumns.map fun c => (c.name, valueFor values c)) =
      t.insertedColumns.map Column.name := by
    simp [Entries.names]
  have hentries : (t.insertParams values).entries =
      t.insertedColumns.map fun c => (c.name, valueFor values c) :=
    Entries.collect_of_nodup (hnames ▸ hdistinct)
  rw [Dictionary.get?_eq_some_iff, hentries]
  exact List.mem_map_of_mem hc

/-- Everything in front of the parameters of an insert is copied, whatever follows it. -/
theorem copied_opening (ht : t.Plain) (p : Provider) :
    Copied p.dialect.backslashEscapes (fun _ => True)
      ("INSERT INTO " ++ p.dialect.quote t.name ++ " (" ++ p.columnList t.insertedColumns ++
        ") VALUES (").toList := by
  have htable : Copied p.dialect.backslashEscapes (fun _ => True)
      ("INSERT INTO " ++ p.dialect.quote t.name ++ " (").toList :=
    .naming p.dialect ht.word (by simp [inert]) (by decide) (by simp [inert])
  -- A quoted list ends in a quote or a letter, and the parenthesis behind it continues neither.
  have hcolumns : Copied p.dialect.backslashEscapes Seam
      (p.columnList t.insertedColumns).toList := by
    have hquotes : Copied p.dialect.backslashEscapes Seam (String.intercalate ", "
        ((t.insertedColumns.map Column.name).map p.dialect.quote)).toList :=
      .quotes p.dialect (fun n hn => (ht.inserted n hn).1) (by decide) (by simp [inert])
    rwa [List.map_map] at hquotes
  rw [String.toList_append, String.toList_append]
  exact (hcolumns.behind htable).closed (by decide) (by simp [inert])

/-- Everything behind them is inert. -/
theorem inert_closing (ht : t.Plain) (p : Provider) :
    ∀ c ∈ (")" ++ p.returningClause t).toList, inert c = true := by
  rw [String.toList_append]
  intro c hc
  rcases List.mem_append.mp hc with hc | hc
  · rw [List.mem_singleton.mp hc]
    decide
  · exact p.returningClause_inert t ht c hc

theorem seam_closing (p : Provider) : Seam (")" ++ p.returningClause t).toList := by
  rw [String.toList_append]
  exact Statement.seam_append (by decide) _

/-- An insert mentions the columns that the database does not fill. -/
theorem mentions_insert (ht : t.Plain) (p : Provider) :
    Mentions p.dialect.backslashEscapes (p.insertStatement t).sql.toList
      (t.insertedColumns.map Column.name) := by
  have hlist : Mentions p.dialect.backslashEscapes (String.intercalate ", "
      ((t.insertedColumns.map Column.name).map p.dialect.placeholder)).toList
      (t.insertedColumns.map Column.name) :=
    .parameters ht.inserted (by decide) (by simp [inert])
  -- The statement is put together from what stands in front of the list, the list and the end.
  have hall := (hlist.behind (copied_opening ht p)).append (seam_closing p)
    (.inert (inert_closing ht p))
  rw [Provider.insertStatement_eq]
  simpa only [List.map_map, Function.comp_def, List.append_nil, String.toList_append,
    List.append_assoc] using hall

/-- The parameters bind the row that they were made for. -/
theorem insertsRow (ht : t.Plain) (hdistinct : (t.insertedColumns.map Column.name).Nodup)
    (p : Provider) (values : Record) :
    p.InsertsRow t values t.insertedColumns
      (Statement.bind p.dialect (p.insertStatement t).sql (t.insertParams values)) := by
  have hparams : ∀ n ∈ t.insertedColumns.map Column.name,
      (t.insertParams values).contains n = true := by
    refine List.forall_mem_map.mpr fun c hc => ?_
    rw [Dictionary.contains, get?_insertParams hdistinct values hc]
    rfl
  -- The placeholders become positions, one for each column.
  have hlist : Binds p.dialect (t.insertParams values) []
      (String.intercalate ", "
        ((t.insertedColumns.map Column.name).map p.dialect.placeholder)).toList
      (String.intercalate ", "
        ((List.range' 1 (t.insertedColumns.map Column.name).length).map
          p.dialect.positional)).toList
      (t.insertedColumns.map Column.name) :=
    .parameters ht.inserted hparams hdistinct (by decide) (by simp [inert])
  have hall := (hlist.behind (copied_opening ht p)).append (seam_closing p)
    (.copied (.inert (inert_closing ht p)) _)
  have hrow : Binds p.dialect (t.insertParams values) [] (p.insertStatement t).sql.toList
      ("INSERT INTO " ++ p.dialect.quote t.name ++ " (" ++ p.columnList t.insertedColumns ++
        ") VALUES (" ++ String.intercalate ", "
          ((List.range' 1 t.insertedColumns.length).map p.dialect.positional) ++ ")" ++
        p.returningClause t).toList (t.insertedColumns.map Column.name) := by
    rw [Provider.insertStatement_eq]
    simpa only [List.length_map, List.map_map, Function.comp_def, String.toList_append,
      List.append_assoc] using hall
  -- Each position is bound to what the record has for its column.
  have hvalues : (t.insertedColumns.map Column.name).filterMap (t.insertParams values).get? =
      t.insertedColumns.map (valueFor values) := by
    rw [List.filterMap_map]
    exact (List.filterMap_congr fun c hc => get?_insertParams hdistinct values hc).trans
      (congrFun List.filterMap_eq_map _)
  constructor
  case sql => rw [hrow.bind_eq, String.ofList_toList]
  case unnamed =>
    rw [Statement.liveNames_bind, (mentions_insert ht p).liveNames_eq, List.filter_eq_nil_iff]
    exact fun n hn => by simp [hparams n hn]
  case values =>
    rw [hrow.bind_eq, hvalues, List.map_map, List.forall₂_map_right_iff, List.forall₂_same]
    exact fun c _ => ⟨valueFor values c, takes_valueFor values c, rfl⟩

/-! ## §4 The run -/

/-- A run of an insert sends the statement, once it has succeeded what reads an identity back, and
nothing else; the identity that it returns is the last reply. -/
structure SendsInsert (t : Table) (p : Provider) (l : Link) (sql : String) (params : Record)
    (events : List Event) (r : Except DataError (Option Json)) : Prop where
  sent : ∃ e rest, events = e :: rest ∧
    (e.request = .execute l sql params ∨ e.request = .scalar l sql params) ∧
    rest.map Event.request =
      if e.succeeds && t.columns.any (·.autoIncrement) then
        p.dialect.followUps.map fun next => .scalar l next ∅
      else []
  succeeds : r.toBool = events.all Event.succeeds
  identity : (∃ v, r = .ok (some v)) ↔
    (∃ o, r = .ok o) ∧ ∃ c ∈ t.columns, c.autoIncrement = true
  reply : ∀ v, r = .ok (some v) →
    ∃ last named, events.getLast? = some ⟨.scalar l last named, .ok v⟩

/-- An identity is fetched exactly if a column is filled by the database. -/
theorem isSome_identity (p : Provider) :
    (p.insertStatement t).identity.isSome = true ↔ ∃ c ∈ t.columns, c.autoIncrement = true := by
  rw [Provider.insertStatement_eq, Option.isSome_map, identityColumn?, List.find?_isSome]

/-- The statements that have to follow, once the insert has succeeded. -/
theorem followUps_if (p : Provider) (l : Link) (succeeded : Bool) :
    (if succeeded && t.columns.any (·.autoIncrement) then
      p.dialect.followUps.map fun next => Request.scalar l next ∅ else []) =
    if succeeded then (p.insertStatement t).followUps.map fun next => .scalar l next ∅ else [] := by
  rw [p.followUps_insertStatement t]
  cases succeeded <;> cases t.columns.any (·.autoIncrement) <;> rfl

theorem Inserting.sendsInsert {p : Provider} {values : Record} {l : Link} {events : List Event}
    {r : Except DataError (Option Json)} (h : Inserting t p values l events r) :
    t.SendsInsert p l (p.insertStatement t).sql (t.insertParams values) events r := by
  have hidentity := isSome_identity (t := t) p
  -- The four ways in which an insert can go, by how its identity is fetched.
  cases h with
  | plain reply hid =>
    refine ⟨⟨_, _, rfl, .inl rfl, ?_⟩, ?_, ?_, ?_⟩
    · rw [followUps_if, InsertStatement.followUps, hid]
      exact (ite_self []).symm
    · cases reply <;> rfl
    · rw [← hidentity, hid]
      cases reply <;> simp [Except.map]
    · intro v hv
      cases reply <;> cases hv
  | returning reply hid =>
    refine ⟨⟨_, _, rfl, .inr rfl, ?_⟩, ?_, ?_, ?_⟩
    · rw [followUps_if, InsertStatement.followUps, hid]
      exact (ite_self []).symm
    · cases reply <;> rfl
    · rw [← hidentity, hid]
      cases reply <;> simp [Except.map]
    · intro v hv
      cases reply with
      | ok _ => cases hv; exact ⟨_, _, rfl⟩
      | error _ => cases hv
  | refused sql e hid =>
    refine ⟨⟨_, _, rfl, .inl rfl, ?_⟩, rfl, ?_, ?_⟩
    · rw [followUps_if]
      rfl
    · simp
    -- A refused insert returns nothing.
    · intro v hv
      cases hv
  | fetched sql count reply hid =>
    refine ⟨⟨_, _, rfl, .inl rfl, ?_⟩, ?_, ?_, ?_⟩
    · rw [followUps_if, InsertStatement.followUps, hid]
      rfl
    · cases reply <;> rfl
    · rw [← hidentity, hid]
      cases reply <;> simp [Except.map]
    · intro v hv
      cases reply with
      | ok _ => cases hv; exact ⟨_, _, rfl⟩
      | error _ => cases hv

end Table

/-- An insert binds the right value to every column.  The statement that it sends, bound with the
parameters that it sends, has no name left and one value for each column that the database does not
fill, in the order of the ordinals and of the list in the text: that of the first field with the
name of the column in any case, or null.  An identity comes back exactly if the insert succeeds on a
table that has one; it is asked for right after the row is in, and nothing follows a failure. -/
theorem Table.insert_binds {t : Table} (ht : t.Plain)
    (hdistinct : ((t.columns.filter (!·.autoIncrement)).map Column.name).Nodup)
    (p : Provider) (values : Record) (l : Link) :
    ∃ (columns : List Column) (sql : String) (params : Record),
      columns.Perm (t.columns.filter (!·.autoIncrement)) ∧
      columns.Pairwise (·.ordinal ≤ ·.ordinal) ∧
      p.InsertsRow t values columns (Statement.bind p.dialect sql params) ∧
      ∀ (events : List Event) (r : Except DataError (Option Json)),
        Program.Runs (t.insert p values l).run events r →
        t.SendsInsert p l sql params events r := by
  obtain ⟨hperm, hordered⟩ := t.filter_orderedColumns (!·.autoIncrement)
  -- The columns that are inserted are those of the table in another order.
  have hnodup : (t.insertedColumns.map Column.name).Nodup :=
    (hperm.map Column.name).nodup_iff.mpr hdistinct
  exact ⟨t.insertedColumns, (p.insertStatement t).sql, t.insertParams values, hperm, hordered,
    insertsRow ht hnodup p values, fun _ _ h => (runs_insert_iff.mp h).sendsInsert⟩

/-- A table whose identity the database returns, with the columns out of order. -/
def guests : Table where
  name := "guests"
  columns := [{ name := "Name", ordinal := 2 }, { name := "id", autoIncrement := true },
    { name := "room", ordinal := 1 }]

/-- A guest without a room is inserted: the name is found whatever its case, the room is null. -/
theorem guests_insert_binds :
    ∃ (columns : List Column) (sql : String) (params : Record),
      columns.Perm (guests.columns.filter (!·.autoIncrement)) ∧
      columns.Pairwise (·.ordinal ≤ ·.ordinal) ∧
      (Provider.stock .postgres).InsertsRow guests (Dictionary.ofList [("nAME", .string "Ann")])
        columns (Statement.bind .postgres sql params) ∧
      ∀ (events : List Event) (r : Except DataError (Option Json)),
        Program.Runs (guests.insert (.stock .postgres)
          (Dictionary.ofList [("nAME", .string "Ann")]) ⟨"main", "inn"⟩).run events r →
        guests.SendsInsert (.stock .postgres) ⟨"main", "inn"⟩ sql params events r :=
  Table.insert_binds ⟨by decide +kernel, by decide +kernel⟩ (by decide +kernel)
    (.stock .postgres) _ _

end SqlService
