import SqlService.Proofs.Query.InsertedRow
import SqlService.Proofs.Schema.PrimaryKey
import SqlService.Proofs.Text.Words

/-!
# Rows selected by their key

An update and a removal select a row by its key.  Their parameters have the names of the columns
that are assigned and those of the key list as they are spelled there.  A row that has its fields
under the names of the columns gives a value to every one of them if the key list spells its columns
as they spell themselves, and else leaves the others unbound.

Main statement: `Table.keyed_row_binds`.
-/

namespace SqlService

open Statement (Binds Copied Mentions Seam inert liveNames place places placed valueOf)

/-! ## §1 Names in another case -/

namespace Text

/-- An identifier is one in every case. -/
theorem isIdentifier_of_sameWord {a b : String} (h : sameWord a b = true)
    (hb : isIdentifier b = true) : isIdentifier a = true := by
  have hempty : ∀ s, lower s = "" ↔ s = "" := by
    intro s
    simp [lower]
  have hword : isWord a = isWord b := all_isWordChar_of_sameWord h
  simp only [isIdentifier, Bool.and_eq_true, bne_iff_ne] at hb ⊢
  refine ⟨hword.trans hb.1, fun ha => hb.2 ?_⟩
  exact (hempty b).mp (sameWord_iff.mp h ▸ (hempty a).mpr ha)

end Text

/-! ## §2 Keys -/

namespace Table

variable {t : Table} {c : Column}

/-- The names of the key list that no column spells like this. -/
def misspelledKeys (t : Table) : List String :=
  t.keyNames.filter fun k => !(t.columns.map Column.name).contains k

/-- The names of a valid key list are plain words, as those of the columns are. -/
theorem Plain.keys (ht : t.Plain) (hvalid : t.validate = .ok ()) :
    ∀ k ∈ t.keyNames, Text.isWord k = true ∧ k ≠ "" := by
  intro k hk
  obtain ⟨c, hc, hnamed⟩ := validate_eq_ok_iff.mp hvalid k hk
  have hcase : Text.sameWord k c.name = true := (Text.sameWord_comm _ _).trans hnamed
  simpa [Text.isIdentifier] using Text.isIdentifier_of_sameWord hcase (ht.columns c hc)

/-- The key columns are those that the key list names in any case. -/
theorem mem_keyColumns (hdistinct : Column.Distinct t.columns) :
    c ∈ t.keyColumns ↔ c ∈ t.columns ∧ t.namesKey c.name = true := by
  rw [keyColumns, List.mem_filterMap, namesKey, List.any_eq_true]
  -- A key column is found under a name of the list; and the first column of that name is the only
  -- one.
  constructor
  · rintro ⟨k, hk, hfind⟩
    have hcase : Text.sameWord c.name k = true :=
      List.find?_some (p := fun d : Column => Text.sameWord d.name k) hfind
    exact ⟨List.mem_of_find?_eq_some hfind, k, hk, (Text.sameWord_comm _ _).trans hcase⟩
  · rintro ⟨hc, k, hk, hcase⟩
    exact ⟨k, hk, hdistinct.find?_eq hc ((Text.sameWord_comm _ _).trans hcase)⟩

/-- A key list that spells its columns as they do is the list of their names. -/
theorem map_name_keyColumns (hdistinct : Column.Distinct t.columns) (h : t.misspelledKeys = []) :
    t.keyColumns.map Column.name = t.keyNames := by
  have hspelled : ∀ k ∈ t.keyNames, (t.column? k).map Column.name = some k := by
    intro k hk
    have hmem : k ∈ t.columns.map Column.name := by
      simpa using List.filter_eq_nil_iff.mp h k hk
    obtain ⟨c, hc, rfl⟩ := List.mem_map.mp hmem
    rw [column?, show t.columns.find? (fun d => Text.sameWord d.name c.name) = some c from
      hdistinct.find?_eq hc c.isNamed_self]
    rfl
  rw [keyColumns, List.map_filterMap, List.filterMap_congr hspelled]
  exact List.filterMap_some

end Table

/-! ## §3 Names against parameters -/

namespace Statement

/-- Each name stands against the parameter that has its value in the row; parameters without numbers
are counted as they stand. -/
structure Paired (d : Dialect) (row : Record) (pairs : List (String × Nat)) (values : List Scalar) :
    Prop where
  value : ∀ q ∈ pairs, 0 < q.2 ∧ ∃ v, row.get? q.1 = some v ∧
    values[q.2 - 1]? = some (Scalar.ofJson v)
  counted : d.numbered = false → pairs.map Prod.snd = List.range' 1 values.length

/-- Names with values in the row are paired with their places. -/
theorem paired_places (d : Dialect) {row : Record} {ns : List String}
    (hrow : ∀ n ∈ ns, row.contains n = true) :
    Paired d row (ns.zip (places d.numbered ns []))
      (((placed d.numbered ns []).filterMap row.get?).map Scalar.ofJson) := by
  have hcontains : ∀ n ∈ placed d.numbered ns [], row.contains n = true :=
    fun n hn => hrow n ((mem_placed hn).resolve_right List.not_mem_nil)
  -- All bound names have values, so the values stand in the places of the names.
  have hvalues := map_some_values row hcontains
  constructor
  case value =>
    intro q hq
    obtain ⟨hpos, hplace⟩ := getElem?_places hq
    obtain ⟨v, hv⟩ := Option.isSome_iff_exists.mp (hrow q.1 (List.of_mem_zip hq).1)
    refine ⟨hpos, v, hv, ?_⟩
    have hat := congrArg (·[q.2 - 1]?) hvalues
    simp only [List.getElem?_map, hplace, Option.map_some, valueOf, hv] at hat
    simpa using hat
  case counted =>
    -- Without numbers every name takes a place of its own, in the order in which it stands.
    intro hnumbered
    rw [hnumbered] at hvalues ⊢
    obtain ⟨hplaces, hplaced⟩ : places false ns [] = List.range' 1 ns.length ∧
        placed false ns [] = ns :=
      places_of_new fun h => absurd h Bool.false_ne_true
    have hlength := congrArg List.length hvalues
    simp only [hplaced, List.length_map] at hlength ⊢
    rw [hplaces, hlength, List.map_snd_zip (List.length_range' ..).le]

end Statement

/-! ## §4 The statements -/

namespace Provider

/-- `a = $1, b = $2`: each name, quoted, against its parameter. -/
def pairing (p : Provider) (joiner : String) (pairs : List (String × Nat)) : String :=
  String.intercalate joiner
    (pairs.map fun q => p.dialect.quote q.1 ++ " = " ++ p.dialect.positional q.2)

variable (p : Provider) {ns : List String}

/-- What stands in front of a parameter is its quoted name, and is copied. -/
theorem copied_lead (hwords : ∀ n ∈ ns, Text.isWord n = true ∧ n ≠ "") :
    ∀ n ∈ ns, Copied p.dialect.backslashEscapes (fun _ => True)
      (p.dialect.quote n ++ " = ").toList := by
  intro n hn
  have hnaming : Copied p.dialect.backslashEscapes (fun _ => True)
      ("" ++ p.dialect.quote n ++ " = ").toList :=
    .naming p.dialect (hwords n hn).1 (by simp) (by decide) (by simp [inert])
  rwa [String.empty_append] at hnaming

/-- Assignments mention their names. -/
theorem mentions_assignments (joiner : String)
    (hwords : ∀ n ∈ ns, Text.isWord n = true ∧ n ≠ "")
    (hhead : joiner.toList.head?.any Statement.neutral = true)
    (hjoiner : ∀ c ∈ joiner.toList, inert c = true) :
    Mentions p.dialect.backslashEscapes
      (String.intercalate joiner (ns.map p.assignment)).toList ns :=
  .listed (p.copied_lead hwords) hwords hhead hjoiner

/-- Bound, each assignment has the number of the place of its name. -/
theorem binds_assignments (joiner : String)
    (hwords : ∀ n ∈ ns, Text.isWord n = true ∧ n ≠ "")
    (hhead : joiner.toList.head?.any Statement.neutral = true)
    (hjoiner : ∀ c ∈ joiner.toList, inert c = true) {row : Record}
    (hrow : ∀ n ∈ ns, row.contains n = true) (bound : List String) :
    Binds p.dialect row bound (String.intercalate joiner (ns.map p.assignment)).toList
      (p.pairing joiner (ns.zip (places p.dialect.numbered ns bound))).toList
      (placed p.dialect.numbered ns bound) := by
  have hlisted := Binds.listed (p.copied_lead hwords) hwords hrow hhead hjoiner bound
  rw [pairing, List.map_zip_eq_zipWith]
  exact hlisted

/-- Bound, the statement sets the assigned columns of the row that has its key. -/
def UpdatesRow (t : Table) (row : Record) (assigned keyed : List Column) (b : Statement.Bound) :
    Prop :=
  ∃ set keys : List (String × Nat),
    set.map Prod.fst = assigned.map Column.name ∧ keys.map Prod.fst = keyed.map Column.name ∧
    b.sql = "UPDATE " ++ p.dialect.quote t.name ++ " SET " ++ p.pairing ", " set ++ " WHERE " ++
      p.pairing " AND " keys ∧
    Statement.Paired p.dialect row (set ++ keys) b.values

/-- Bound, the statement removes the row that has its key. -/
def RemovesRow (t : Table) (row : Record) (keyed : List Column) (b : Statement.Bound) : Prop :=
  ∃ keys : List (String × Nat), keys.map Prod.fst = keyed.map Column.name ∧
    b.sql = "DELETE FROM " ++ p.dialect.quote t.name ++ " WHERE " ++ p.pairing " AND " keys ∧
    Statement.Paired p.dialect row keys b.values

variable {t : Table}

/-- The text that changes a row of a table with a key. -/
def updateText (t : Table) : String :=
  "UPDATE " ++ p.dialect.quote t.name ++ " SET " ++
    String.intercalate ", " ((t.assignedColumns.map Column.name).map p.assignment) ++ " WHERE " ++
    String.intercalate " AND " (t.keyNames.map p.assignment)

/-- The text that removes a row of a table with a key. -/
def deleteText (t : Table) : String :=
  "DELETE FROM " ++ p.dialect.quote t.name ++ " WHERE " ++
    String.intercalate " AND " (t.keyNames.map p.assignment)

/-- A table with a key has an update. -/
theorem updateStatement_eq (hkeys : t.keyNames ≠ []) :
    p.updateStatement t = .ok (p.updateText t) := by
  rw [updateStatement, keyPredicate, if_neg (by simpa using hkeys), updateText, List.map_map]
  rfl

/-- A table with a key has a removal. -/
theorem deleteStatement_eq (hkeys : t.keyNames ≠ []) :
    p.deleteStatement t = .ok (p.deleteText t) := by
  rw [deleteStatement, keyPredicate, if_neg (by simpa using hkeys)]
  rfl

end Provider

namespace Table

variable {t : Table} {row : Record}

/-- The row has values under the names of the columns as they are spelled. -/
theorem contains_row (hrow : row.names.Perm (t.columns.map Column.name)) (n : String) :
    row.contains n = (t.columns.map Column.name).contains n := by
  rw [Bool.eq_iff_iff, Dictionary.contains_iff, hrow.mem_iff, List.contains_iff_mem]

/-- A row has a value for every assigned column. -/
theorem contains_assigned (hrow : row.names.Perm (t.columns.map Column.name)) :
    ∀ n ∈ t.assignedColumns.map Column.name, row.contains n = true := by
  refine List.forall_mem_map.mpr fun c hc => ?_
  have hmem : c ∈ t.columns := mem_orderedColumns.mp (List.mem_of_mem_filter hc)
  rw [contains_row hrow, List.contains_iff_mem]
  exact List.mem_map_of_mem hmem

/-- The assigned columns have plain names. -/
theorem Plain.assigned (ht : t.Plain) :
    ∀ n ∈ t.assignedColumns.map Column.name, Text.isWord n = true ∧ n ≠ "" :=
  List.forall_mem_map.mpr fun _ hc => ht.column (mem_orderedColumns.mp (List.mem_of_mem_filter hc))

variable (p : Provider)

/-- What stands in front of the names of an update or a removal is copied. -/
theorem copied_update (ht : t.Plain) : Copied p.dialect.backslashEscapes (fun _ => True)
    ("UPDATE " ++ p.dialect.quote t.name ++ " SET ").toList :=
  .naming p.dialect ht.word (by simp [inert]) (by decide) (by simp [inert])

/-- So is what stands in front of the names of a removal. -/
theorem copied_delete (ht : t.Plain) : Copied p.dialect.backslashEscapes (fun _ => True)
    ("DELETE FROM " ++ p.dialect.quote t.name ++ " WHERE ").toList :=
  .naming p.dialect ht.word (by simp [inert]) (by decide) (by simp [inert])

/-- An update mentions the assigned columns and then the key list, as it spells its names. -/
theorem mentions_update (ht : t.Plain) (hvalid : t.validate = .ok ()) :
    Mentions p.dialect.backslashEscapes (p.updateText t).toList
      (t.assignedColumns.map Column.name ++ t.keyNames) := by
  have hset := p.mentions_assignments ", " ht.assigned (by decide) (by simp [inert])
  have hkeys := p.mentions_assignments " AND " (ht.keys hvalid) (by decide) (by simp [inert])
  have hwhere : ∀ c ∈ " WHERE ".toList, inert c = true := by simp [inert]
  have hall := (hset.behind (copied_update p ht)).append (Statement.seam_append (by decide) _)
    (hkeys.prepend hwhere)
  simpa only [Provider.updateText, String.toList_append, List.append_assoc] using hall

/-- A removal mentions the key list. -/
theorem mentions_delete (ht : t.Plain) (hvalid : t.validate = .ok ()) :
    Mentions p.dialect.backslashEscapes (p.deleteText t).toList t.keyNames := by
  have hkeys := p.mentions_assignments " AND " (ht.keys hvalid) (by decide) (by simp [inert])
  rw [Provider.deleteText, String.toList_append]
  exact hkeys.behind (copied_delete p ht)

/-- The names without a value are those of the key list that are misspelled. -/
theorem filter_keyNames (hrow : row.names.Perm (t.columns.map Column.name)) :
    t.keyNames.filter (fun n => !row.contains n) = t.misspelledKeys :=
  List.filter_congr fun n _ => by rw [contains_row hrow]

/-- What a bound update or removal leaves unbound. -/
theorem liveNames_update (ht : t.Plain) (hvalid : t.validate = .ok ())
    (hrow : row.names.Perm (t.columns.map Column.name)) :
    liveNames p.dialect.backslashEscapes
      (Statement.bind p.dialect (p.updateText t) row).sql.toList = t.misspelledKeys := by
  -- The assigned columns have values, so only names of the key list can be left.
  have hassigned : (t.assignedColumns.map Column.name).filter (fun n => !row.contains n) = [] :=
    List.filter_eq_nil_iff.mpr fun n hn => by simp [contains_assigned hrow n hn]
  rw [Statement.liveNames_bind, (mentions_update p ht hvalid).liveNames_eq, List.filter_append,
    hassigned, filter_keyNames hrow, List.nil_append]

/-- The same of a removal. -/
theorem liveNames_delete (ht : t.Plain) (hvalid : t.validate = .ok ())
    (hrow : row.names.Perm (t.columns.map Column.name)) :
    liveNames p.dialect.backslashEscapes
      (Statement.bind p.dialect (p.deleteText t) row).sql.toList = t.misspelledKeys := by
  rw [Statement.liveNames_bind, (mentions_delete p ht hvalid).liveNames_eq, filter_keyNames hrow]

/-- If the key list spells its columns as they do, the row has a value for each of its names. -/
theorem contains_keys (hrow : row.names.Perm (t.columns.map Column.name))
    (h : t.misspelledKeys = []) : ∀ n ∈ t.keyNames, row.contains n = true := by
  intro n hn
  rw [← filter_keyNames hrow] at h
  simpa using List.filter_eq_nil_iff.mp h n hn

/-- Where no name is misspelled, the bound update sets the assigned columns where the keys match. -/
theorem updatesRow (ht : t.Plain) (hdistinct : Column.Distinct t.columns)
    (hvalid : t.validate = .ok ()) (hrow : row.names.Perm (t.columns.map Column.name))
    (h : t.misspelledKeys = []) :
    p.UpdatesRow t row t.assignedColumns t.keyColumns
      (Statement.bind p.dialect (p.updateText t) row) := by
  -- The two lists are bound one after the other, and the keys go on where the assignments have
  -- ended.
  have hset := p.binds_assignments ", " ht.assigned (by decide) (by simp [inert])
    (contains_assigned hrow) []
  have hkeys := p.binds_assignments " AND " (ht.keys hvalid) (by decide) (by simp [inert])
    (contains_keys hrow h) (placed p.dialect.numbered (t.assignedColumns.map Column.name) [])
  have hwhere : Copied p.dialect.backslashEscapes (fun _ => True) " WHERE ".toList :=
    .inert (by simp [inert])
  have hall := (hset.behind (copied_update p ht)).append (Statement.seam_append (by decide) _)
    (hkeys.behind hwhere)
  simp only [← String.toList_append, ← String.append_assoc] at hall
  change Binds _ _ _ (p.updateText t).toList _ _ at hall
  have hlengths : (places p.dialect.numbered (t.assignedColumns.map Column.name) []).length =
      (t.assignedColumns.map Column.name).length := Statement.length_places _ []
  refine ⟨_, _, ?_, ?_, by rw [hall.bind_eq, String.ofList_toList], ?_⟩
  · exact List.map_fst_zip hlengths.ge
  · rw [map_name_keyColumns hdistinct h]
    exact List.map_fst_zip (Statement.length_places t.keyNames _).ge
  -- Both lists of places make up one, over the values of the whole statement.
  · rw [hall.bind_eq, ← List.zip_append hlengths.symm, ← Statement.places_append,
      ← Statement.placed_append]
    exact Statement.paired_places p.dialect
      (List.forall_mem_append.mpr ⟨contains_assigned hrow, contains_keys hrow h⟩)

/-- Where no name is misspelled, the bound removal takes the row where the keys match. -/
theorem removesRow (ht : t.Plain) (hdistinct : Column.Distinct t.columns)
    (hvalid : t.validate = .ok ()) (hrow : row.names.Perm (t.columns.map Column.name))
    (h : t.misspelledKeys = []) :
    p.RemovesRow t row t.keyColumns (Statement.bind p.dialect (p.deleteText t) row) := by
  have hkeys := p.binds_assignments " AND " (ht.keys hvalid) (by decide) (by simp [inert])
    (contains_keys hrow h) []
  have hall := hkeys.behind (copied_delete p ht)
  simp only [← String.toList_append] at hall
  change Binds _ _ _ (p.deleteText t).toList _ _ at hall
  refine ⟨t.keyNames.zip (places p.dialect.numbered t.keyNames []), ?_, ?_, ?_⟩
  · rw [map_name_keyColumns hdistinct h]
    exact List.map_fst_zip (Statement.length_places t.keyNames []).ge
  · rw [hall.bind_eq, String.ofList_toList]
  · rw [hall.bind_eq]
    exact Statement.paired_places p.dialect (contains_keys hrow h)

end Table

/-! ## §5 Rows and keys -/

/-- An update and a removal leave exactly those names of the key list unbound that are spelled
otherwise than their columns.  Where there are none, the bound update sets every column that is
neither key nor filled by the database, once and in the order of the ordinals, and both statements
compare the key columns, each with the value that the row has for it. -/
theorem Table.keyed_row_binds {t : Table} (ht : t.Plain) (hdistinct : Column.Distinct t.columns)
    (hvalid : t.validate = .ok ()) (hkeys : t.keyNames ≠ []) (p : Provider) {row : Record}
    (hrow : row.names.Perm (t.columns.map Column.name)) :
    ∃ update delete : String, p.updateStatement t = .ok update ∧
      p.deleteStatement t = .ok delete ∧
      liveNames p.dialect.backslashEscapes (Statement.bind p.dialect update row).sql.toList =
        t.misspelledKeys ∧
      liveNames p.dialect.backslashEscapes (Statement.bind p.dialect delete row).sql.toList =
        t.misspelledKeys ∧
      (t.misspelledKeys = [] → ∃ assigned keyed : List Column,
        assigned.Perm (t.columns.filter fun c => !c.autoIncrement && !t.namesKey c.name) ∧
        assigned.Pairwise (·.ordinal ≤ ·.ordinal) ∧
        (∀ c, c ∈ keyed ↔ c ∈ t.columns ∧ t.namesKey c.name = true) ∧
        p.UpdatesRow t row assigned keyed (Statement.bind p.dialect update row) ∧
        p.RemovesRow t row keyed (Statement.bind p.dialect delete row)) := by
  obtain ⟨hperm, hordered⟩ :=
    t.filter_orderedColumns fun c => !c.autoIncrement && !t.namesKey c.name
  refine ⟨_, _, p.updateStatement_eq hkeys, p.deleteStatement_eq hkeys,
    liveNames_update p ht hvalid hrow, liveNames_delete p ht hvalid hrow, fun h => ?_⟩
  exact ⟨t.assignedColumns, t.keyColumns, hperm, hordered, fun _ => mem_keyColumns hdistinct,
    updatesRow p ht hdistinct hvalid hrow h, removesRow p ht hdistinct hvalid hrow h⟩

/-- A table whose key list spells the key column as the table does. -/
def rooms : Table where
  name := "rooms"
  keys := "house, Number"
  columns := [{ name := "Number", ordinal := 1, isKey := true }, { name := "view", ordinal := 3 },
    { name := "house", ordinal := 2, isKey := true }]

/-- A row of that table. -/
def attic : Record :=
  Dictionary.ofList [("view", .string "roofs"), ("house", .ofInt64 4), ("Number", .ofInt64 9)]

/-- Its statements bind all their names. -/
theorem rooms_row_binds :
    rooms.misspelledKeys = [] ∧ ∃ update delete : String,
      (Provider.stock .postgres).updateStatement rooms = .ok update ∧
      (Provider.stock .postgres).deleteStatement rooms = .ok delete ∧
      liveNames (Provider.stock .postgres).dialect.backslashEscapes
        (Statement.bind (Provider.stock .postgres).dialect update attic).sql.toList =
          rooms.misspelledKeys ∧
      liveNames (Provider.stock .postgres).dialect.backslashEscapes
        (Statement.bind (Provider.stock .postgres).dialect delete attic).sql.toList =
          rooms.misspelledKeys ∧
      (rooms.misspelledKeys = [] → ∃ assigned keyed : List Column,
        assigned.Perm (rooms.columns.filter fun c => !c.autoIncrement && !rooms.namesKey c.name) ∧
        assigned.Pairwise (·.ordinal ≤ ·.ordinal) ∧
        (∀ c, c ∈ keyed ↔ c ∈ rooms.columns ∧ rooms.namesKey c.name = true) ∧
        (Provider.stock .postgres).UpdatesRow rooms attic assigned keyed
          (Statement.bind (Provider.stock .postgres).dialect update attic) ∧
        (Provider.stock .postgres).RemovesRow rooms attic keyed
          (Statement.bind (Provider.stock .postgres).dialect delete attic)) :=
  ⟨by decide +kernel, Table.keyed_row_binds ⟨by decide +kernel, by decide +kernel⟩
    (by decide +kernel) (by decide +kernel) (by decide +kernel) (.stock .postgres)
    (by decide +kernel)⟩

/-- A table whose key list spells the key column in capitals. -/
def notes : Table where
  name := "notes"
  keys := "ID"
  columns := [{ name := "Id", ordinal := 1 }, { name := "text", ordinal := 2 }]

/-- A row of that table. -/
def note : Record := Dictionary.ofList [("Id", .ofInt64 7), ("text", .string "tea")]

/-- The key list is valid, and yet neither of its statements gets a value for the key. -/
theorem notes_unbound :
    (notes.Plain ∧ Column.Distinct notes.columns ∧ notes.validate = .ok () ∧
      notes.keyNames ≠ [] ∧
      (∃ c ∈ notes.columns, c.autoIncrement = false ∧ notes.namesKey c.name = false) ∧
      note.names.Perm (notes.columns.map Column.name)) ∧
    ∃ update delete : String,
      (Provider.stock .mysql).updateStatement notes = .ok update ∧
      (Provider.stock .mysql).deleteStatement notes = .ok delete ∧
      liveNames (Provider.stock .mysql).dialect.backslashEscapes
        (Statement.bind (Provider.stock .mysql).dialect update note).sql.toList = ["ID"] ∧
      liveNames (Provider.stock .mysql).dialect.backslashEscapes
        (Statement.bind (Provider.stock .mysql).dialect delete note).sql.toList = ["ID"] := by
  have hplain : notes.Plain := ⟨by decide +kernel, by decide +kernel⟩
  have hkeys : notes.keyNames = ["ID"] := by decide +kernel
  -- The case of the two names is compared letter by letter.
  have hcase : Text.lower "Id" = Text.lower "ID" := by
    rw [Text.lower, Text.lower, ← String.toList_inj, String.toList_map, String.toList_map]
    decide +kernel
  have hvalid : notes.validate = .ok () := by
    rw [Table.validate_eq_ok_iff, hkeys]
    refine fun k hk => ⟨{ name := "Id", ordinal := 1 }, .head _, ?_⟩
    rw [List.mem_singleton.mp hk]
    exact Text.sameWord_iff.mpr hcase
  have hne : notes.keyNames ≠ [] := hkeys ▸ List.cons_ne_nil _ _
  have hrow : note.names.Perm (notes.columns.map Column.name) := by decide +kernel
  have hmisspelled : notes.misspelledKeys = ["ID"] := by decide +kernel
  have hupdate := Table.liveNames_update (.stock .mysql) hplain hvalid hrow
  have hdelete := Table.liveNames_delete (.stock .mysql) hplain hvalid hrow
  have hassigned : ∃ c ∈ notes.columns, c.autoIncrement = false ∧ notes.namesKey c.name = false :=
    ⟨_, .tail _ (.head _), rfl, by decide +kernel⟩
  refine ⟨⟨hplain, by decide +kernel, hvalid, hne, hassigned, hrow⟩, _, _,
    Provider.updateStatement_eq _ hne, Provider.deleteStatement_eq _ hne, ?_, ?_⟩
  · exact hupdate.trans hmisspelled
  · exact hdelete.trans hmisspelled

end SqlService
