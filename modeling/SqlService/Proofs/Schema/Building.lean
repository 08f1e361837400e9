import SqlService.Proofs.Schema.Introspection
import SqlService.Proofs.Schema.PrimaryKey
import SqlService.Proofs.Text.Lists

/-!
# Built tables

A table is built by adding columns one after another, or from the rows of a catalogue.  Added columns
are numbered from one on.  Of the rows the first of each name is taken, and they are brought into the
order of their positions.  Either way the key list, which is one text, has the names of the columns
that are keys, each of them once, if these can stand in such a list.

Main statement: `Table.built_in_order`.
-/

namespace SqlService

open Column (Distinct isNamed_self isNamed_comm)

/-! ## §1 Key lists -/

namespace Table

variable {t : Table} {names : List String}

/-- Names that were joined are found in the key list. -/
theorem keyNames_of_joined (hkeys : t.keys = String.intercalate "," names)
    (hnames : ∀ name ∈ names, Text.Listable name) : t.keyNames = names := by
  rw [keyNames, hkeys]
  exact Text.items_of_joined hnames

theorem addKey_joined (hnames : ∀ name ∈ names, Text.Listable name) (name : String) :
    addKey (String.intercalate "," names) name = String.intercalate "," (names ++ [name]) := by
  unfold addKey
  cases names with
  | nil => rfl
  | cons first names =>
    -- An empty text would be read as no names at all.
    have hne : String.intercalate "," (first :: names) ≠ "" := by
      intro hempty
      have hkeys : ({ keys := String.intercalate "," (first :: names) } : Table).keyNames =
          first :: names := keyNames_of_joined rfl hnames
      rw [hempty] at hkeys
      exact absurd hkeys nofun
    rw [if_neg hne, Text.intercalate_concat "," (List.cons_ne_nil first names)]

/-- The key list of a table: it has the names, and each of them is found among the columns. -/
structure HasKeys (t : Table) (names : List String) : Prop where
  keyNames : t.keyNames = names
  valid : t.validate = .ok ()
  found : t.keyNames.map t.column? = t.keyColumns.map some

/-- A key list of names that columns have is one with these names. -/
theorem hasKeys_of_joined {keyed : List Column}
    (hkeys : t.keys = String.intercalate "," (keyed.map (·.name)))
    (hkeyed : ∀ c ∈ keyed, Text.Listable c.name ∧ ∃ d ∈ t.columns, d.name = c.name) :
    t.HasKeys (keyed.map (·.name)) := by
  have hkeyNames : t.keyNames = keyed.map (·.name) := by
    apply keyNames_of_joined hkeys
    simpa using fun c hc => (hkeyed c hc).1
  have hcolumns : ∀ k ∈ t.keyNames, ∃ c ∈ t.columns, c.isNamed k = true := by
    intro k hk
    rw [hkeyNames] at hk
    obtain ⟨c, hc, rfl⟩ := List.mem_map.mp hk
    obtain ⟨d, hd, hname⟩ := (hkeyed c hc).2
    exact ⟨d, hd, hname ▸ isNamed_self d⟩
  -- Looking the names up passes over none of them.
  have hfound : ∀ k ∈ t.keyNames, (t.column? k).map some = some (t.column? k) := by
    intro k hk
    obtain ⟨c, hc⟩ := Option.isSome_iff_exists.mp (List.find?_isSome.mpr (hcolumns k hk))
    rw [show t.column? k = some c from hc]
    rfl
  refine ⟨hkeyNames, validate_eq_ok_iff.mpr hcolumns, ?_⟩
  rw [keyColumns, List.map_filterMap, List.filterMap_congr hfound]
  exact (congrFun List.filterMap_eq_map t.keyNames).symm

end Table

/-! ## §2 First columns -/

namespace Column

/-- The first column of each name, in any case, in order. -/
def firsts : List Column → List Column
  | [] => []
  | c :: columns => c :: (firsts columns).filter fun d => !d.isNamed c.name

variable {c : Column} {columns : List Column}

theorem firsts_sublist (columns : List Column) : (firsts columns).Sublist columns := by
  induction columns with
  | nil => exact .refl _
  | cons c columns ih => exact (List.filter_sublist.trans ih).cons_cons c

theorem distinct_firsts (columns : List Column) : Distinct (firsts columns) := by
  induction columns with
  | nil => exact .nil
  | cons c columns ih =>
    refine .cons (fun d hd => ?_) (List.Pairwise.sublist List.filter_sublist ih)
    rw [isNamed_comm]
    simpa using (List.mem_filter.mp hd).2

/-- Every column has the name of one of the first ones. -/
theorem exists_mem_firsts (hc : c ∈ columns) : ∃ d ∈ firsts columns, d.isNamed c.name = true := by
  induction columns with
  | nil => cases hc
  | cons first columns ih =>
    by_cases hname : c.isNamed first.name = true
    · exact ⟨first, List.mem_cons_self, (isNamed_comm first c).trans hname⟩
    · have hmem : c ∈ columns :=
        (List.mem_cons.mp hc).resolve_left fun heq => hname (heq ▸ isNamed_self first)
      obtain ⟨d, hd, hdc⟩ := ih hmem
      refine ⟨d, List.mem_cons_of_mem _ (List.mem_filter.mpr ⟨hd, ?_⟩), hdc⟩
      rw [Bool.not_eq_true', Bool.eq_false_iff]
      exact fun hdfirst => hname (isNamed_trans ((isNamed_comm c d).trans hdc) hdfirst)

end Column

namespace Table

/-- Leaving out repetitions adds the first column of each name that was not there before. -/
theorem foldRepeats_eq (done columns : List Column) : foldRepeats done columns =
    done ++ (Column.firsts columns).filter fun c => !done.any (·.isNamed c.name) := by
  induction columns generalizing done with
  | nil => simp [foldRepeats, Column.firsts]
  | cons c columns ih =>
    rw [foldRepeats, Column.firsts, List.filter_cons, List.filter_filter]
    cases hdone : done.any (fun d => Text.sameWord d.name c.name) with
    | true =>
      -- What shares its name with a column that is left out was there before, too.
      have hlater : ∀ d ∈ Column.firsts columns,
          (!done.any (·.isNamed d.name) && !d.isNamed c.name) = !done.any (·.isNamed d.name) := by
        intro d _
        cases hd : d.isNamed c.name with
        | false => exact Bool.and_true _
        | true =>
          obtain ⟨e, he, hec⟩ := List.any_eq_true.mp hdone
          have hed : e.isNamed d.name = true := Column.isNamed_trans hec ((isNamed_comm c d).trans hd)
          rw [List.any_eq_true.mpr ⟨e, he, hed⟩]
          rfl
      have hthere : (!done.any (·.isNamed c.name)) = false := (Bool.not_eq_false' _).mpr hdone
      rw [if_pos rfl, ih, List.filter_congr hlater, hthere, if_neg Bool.false_ne_true]
    | false =>
      have hlater : ∀ d ∈ Column.firsts columns, (!(done ++ [c]).any (·.isNamed d.name)) =
          (!done.any (·.isNamed d.name) && !d.isNamed c.name) := by
        intro d _
        rw [List.any_append, List.any_cons, List.any_nil, Bool.or_false, Bool.not_or, isNamed_comm c]
      have hnew : (!done.any (·.isNamed c.name)) = true := (Bool.not_eq_true' _).mpr hdone
      rw [if_neg Bool.false_ne_true, ih, List.filter_congr hlater, hnew, if_pos rfl,
        List.append_assoc, List.singleton_append]

theorem mem_foldRepeats {done columns : List Column} {c : Column}
    (h : c ∈ foldRepeats done columns) : c ∈ done ∨ c ∈ columns := by
  rw [foldRepeats_eq, List.mem_append] at h
  exact h.imp_right fun h => (Column.firsts_sublist columns).subset (List.mem_filter.mp h).1

theorem foldRepeats_append (done columns more : List Column) :
    foldRepeats done (columns ++ more) = foldRepeats (foldRepeats done columns) more := by
  induction columns generalizing done with
  | nil => rfl
  | cons c columns ih =>
    rw [List.cons_append, foldRepeats, foldRepeats]
    split <;> exact ih _

/-! ## §3 Added columns -/

/-- Added columns stand behind those that there are, in positions that go on from there. -/
theorem columns_foldl_add (t : Table) (cs : List Column) :
    (cs.foldl add t).columns = t.columns ++ (cs.zipIdx t.columns.length).map fun e =>
      { e.1 with ordinal := nextOrdinal e.2 } := by
  induction cs generalizing t with
  | nil => simp
  | cons c cs ih =>
    rw [List.foldl_cons, ih]
    simp [add, List.zipIdx_cons]

/-- A key that is added goes into the key list unless it is a repetition of one that is there. -/
theorem keys_add {t : Table} {done : List Column}
    (hkeys : t.keys = String.intercalate "," (done.map (·.name)))
    (hdone : ∀ d ∈ done, Text.Listable d.name) (c : Column) : (t.add c).keys =
      String.intercalate "," ((foldRepeats done ([c].filter (·.isKey))).map (·.name)) := by
  have hnames : ∀ name ∈ done.map (·.name), Text.Listable name := by simpa using hdone
  have hnamed : t.namesKey c.name = done.any fun d => Text.sameWord d.name c.name := by
    rw [namesKey, keyNames_of_joined hkeys hnames, List.any_map]
    rfl
  -- A column that is no key, or whose name is in the list, leaves the list as it is.
  cases hkey : c.isKey with
  | false => simpa [add, hkey, foldRepeats] using hkeys
  | true =>
    cases hthere : t.namesKey c.name with
    | true => simpa [add, hkey, hthere, foldRepeats, ← hnamed] using hkeys
    | false =>
      have hadded := addKey_joined hnames c.name
      rw [← hkeys] at hadded
      simpa [add, hkey, hthere, foldRepeats, ← hnamed] using hadded

/-- The key list of a table that columns are added to has the names of those that are keys, the
first of each name. -/
theorem keys_foldl_add {t : Table} {done cs : List Column}
    (hkeys : t.keys = String.intercalate "," (done.map (·.name)))
    (hdone : ∀ d ∈ done, Text.Listable d.name)
    (hcs : ∀ c ∈ cs, c.isKey = true → Text.Listable c.name) :
    (cs.foldl add t).keys =
      String.intercalate "," ((foldRepeats done (cs.filter (·.isKey))).map (·.name)) := by
  -- By induction on the columns, with the keys so far growing.
  induction cs generalizing t done with
  | nil => exact hkeys
  | cons c cs ih =>
    obtain ⟨hfirst, hrest⟩ := List.forall_mem_cons.mp hcs
    have hnext : ∀ d ∈ foldRepeats done ([c].filter (·.isKey)), Text.Listable d.name := by
      intro d hd
      rcases mem_foldRepeats hd with hd | hd
      · exact hdone d hd
      · obtain ⟨hmem, hkey⟩ := List.mem_filter.mp hd
        obtain rfl := List.mem_singleton.mp hmem
        exact hfirst hkey
    have hsplit : (c :: cs).filter (·.isKey) = [c].filter (·.isKey) ++ cs.filter (·.isKey) :=
      List.filter_append [c] cs
    rw [List.foldl_cons, hsplit, foldRepeats_append]
    exact ih (keys_add hkeys hdone c) hnext hrest

/-- The table has exactly the given columns, numbered from one on, and its key list has the name of
each that is a key once. -/
structure Appended (cs : List Column) (t : Table) : Prop where
  columns : t.columns.map Column.unplaced = cs.map Column.unplaced
  ordinals : t.columns.map (·.ordinal.toNat) = List.range' 1 cs.length
  keys : (∀ c ∈ cs, c.isKey = true → Text.Listable c.name) →
    t.HasKeys ((Column.firsts (cs.filter (·.isKey))).map (·.name))

theorem toNat_nextOrdinal {count : Nat} (h : count + 1 < UInt32.size) :
    (nextOrdinal count).toNat = count + 1 := by
  rw [nextOrdinal, Nat.min_eq_left (Nat.le_sub_one_of_lt h), UInt32.toNat_ofNat']
  exact Nat.mod_eq_of_lt h

theorem appended_foldl_add (name schema : String) {cs : List Column}
    (hlength : cs.length < UInt32.size) : Appended cs (cs.foldl add { name, schema }) := by
  have hcolumns : (cs.foldl add { name, schema }).columns =
      cs.zipIdx.map fun e => { e.1 with ordinal := nextOrdinal e.2 } := by
    simpa using columns_foldl_add { name, schema } cs
  have hunplaced : (cs.foldl add { name, schema }).columns.map Column.unplaced =
      cs.map Column.unplaced :=
    calc (cs.foldl add { name, schema }).columns.map Column.unplaced
        = (cs.zipIdx.map Prod.fst).map Column.unplaced := by
          rw [hcolumns, List.map_map, List.map_map]
          rfl
      _ = cs.map Column.unplaced := by rw [List.zipIdx_map_fst]
  have hordinals : (cs.foldl add { name, schema }).columns.map (·.ordinal.toNat) =
      List.range' 1 cs.length :=
    calc (cs.foldl add { name, schema }).columns.map (·.ordinal.toNat)
        = (cs.zipIdx.map Prod.snd).map (1 + ·) := by
          rw [hcolumns, List.map_map, List.map_map]
          refine List.map_congr_left fun e he => ?_
          -- The columns are too few for the position to reach its upper bound.
          have hplace : e.2 < cs.length := by
            simpa using (List.mem_zipIdx (x := e.1) (i := e.2) he).2.1
          exact (toNat_nextOrdinal (by omega)).trans (Nat.add_comm _ _)
      _ = List.range' 1 cs.length := by rw [List.zipIdx_map_snd, List.map_add_range']
  refine ⟨hunplaced, hordinals, fun hkeys => hasKeys_of_joined ?_ fun c hc => ?_⟩
  · have hfold : (cs.foldl add { name, schema }).keys =
        String.intercalate "," ((foldRepeats [] (cs.filter (·.isKey))).map (·.name)) :=
      keys_foldl_add rfl nofun hkeys
    simpa [foldRepeats_eq] using hfold
  · obtain ⟨hmem, hkey⟩ := List.mem_filter.mp ((Column.firsts_sublist _).subset hc)
    -- A column keeps its name when it gets its position.
    have hplaced : c.unplaced ∈ (cs.foldl add { name, schema }).columns.map Column.unplaced := by
      rw [hunplaced]
      exact List.mem_map_of_mem hmem
    obtain ⟨d, hd, hsame⟩ := List.mem_map.mp hplaced
    have hname : d.unplaced.name = c.unplaced.name := congrArg Column.name hsame
    exact ⟨hkeys c hmem hkey, d, hd, hname⟩

/-! ## §4 Catalogue rows -/

/-- The table has the first column of each name, in the order of the positions and, where these are
the same, in the order of the rows.  Its names are different and none is lost, and its key list has
the names of its keys in the order of their positions. -/
structure Collected (rows : List Column) (t : Table) : Prop where
  kept : t.columns.Perm (Column.firsts rows)
  ordered : t.columns.Pairwise (·.ordinal ≤ ·.ordinal)
  ties : ∀ ordinal, t.columns.filter (·.ordinal == ordinal) =
    (Column.firsts rows).filter (·.ordinal == ordinal)
  distinct : Distinct t.columns
  complete : ∀ c ∈ rows, ∃ d ∈ t.columns, d.isNamed c.name = true
  keys : (∀ c ∈ t.columns, c.isKey = true → Text.Listable c.name) →
    t.HasKeys ((t.columns.filter (·.isKey)).map (·.name))

/-- Columns of one position stay as they stand. -/
theorem filter_sortColumns (columns : List Column) (ordinal : UInt32) :
    (sortColumns columns).filter (·.ordinal == ordinal) = columns.filter (·.ordinal == ordinal) := by
  have hperm : (sortColumns columns).Perm columns := List.mergeSort_perm columns _
  have hsame : ∀ c ∈ columns.filter (·.ordinal == ordinal), c.ordinal = ordinal := fun c hc =>
    beq_iff_eq.mp (List.mem_filter.mp hc).2
  have hsorted : (columns.filter (·.ordinal == ordinal)).Pairwise fun a b =>
      decide (a.ordinal ≤ b.ordinal) = true := by
    refine List.pairwise_of_forall_mem_list fun a ha b hb => decide_eq_true ?_
    rw [hsame a ha, hsame b hb]
    exact UInt32.le_refl _
  -- Being in order they stay in order, and sorting loses and adds none.
  have hkept : (columns.filter (·.ordinal == ordinal)).Sublist (sortColumns columns) :=
    List.sublist_mergeSort ordinal_trans ordinal_total hsorted List.filter_sublist
  have hagain := hkept.filter (·.ordinal == ordinal)
  rw [List.filter_filter] at hagain
  simp only [Bool.and_self] at hagain
  exact (hagain.eq_of_length (hperm.filter _).length_eq.symm).symm

theorem collected_ofRows? (name schema : String) {rows : List Record} (hne : rows ≠ []) :
    ∃ t, ofRows? name schema rows = some t ∧ t.name = name ∧ t.schema = schema ∧
      Collected (rows.map Column.ofRow) t := by
  have hfold : foldRepeats [] (rows.map Column.ofRow) =
      Column.firsts (rows.map Column.ofRow) := by simp [foldRepeats_eq]
  -- Sorting only rearranges the first column of each name.
  have hperm : (sortColumns (Column.firsts (rows.map Column.ofRow))).Perm
      (Column.firsts (rows.map Column.ofRow)) := List.mergeSort_perm _ _
  rw [ofRows?, if_neg (by simpa using hne), hfold]
  refine ⟨_, rfl, rfl, rfl, ?_⟩
  constructor
  case kept => exact hperm
  case ordered => exact pairwise_orderedColumns { columns := Column.firsts (rows.map Column.ofRow) }
  case ties => exact filter_sortColumns _
  case distinct => exact (Column.distinct_firsts _).perm hperm.symm
  case complete =>
    intro c hc
    obtain ⟨d, hd, hname⟩ := Column.exists_mem_firsts hc
    exact ⟨d, hperm.mem_iff.mpr hd, hname⟩
  case keys =>
    refine fun hkeys => hasKeys_of_joined rfl fun c hc => ?_
    obtain ⟨hmem, hkey⟩ := List.mem_filter.mp hc
    exact ⟨hkeys c hmem hkey, c, hmem, rfl⟩

/-- Both ways of building a table make one whose columns are in order and whose key list names its
keys. -/
theorem built_in_order (name schema : String) :
    (∀ cs : List Column, cs.length < UInt32.size →
      Appended cs (cs.foldl add { name, schema })) ∧
    ∀ rows : List Record, rows ≠ [] → ∃ t, ofRows? name schema rows = some t ∧
      t.name = name ∧ t.schema = schema ∧ Collected (rows.map Column.ofRow) t :=
  ⟨fun _ hlength => appended_foldl_add name schema hlength,
    fun _ hne => collected_ofRows? name schema hne⟩

/-- A catalogue row that says where a column stands and whether it is a key. -/
def placeRow (name : String) (ordinal : UInt32) (key : Bool) : Record :=
  Dictionary.ofList
    [("name", .string name), ("ordinal", .ofUInt32 ordinal), ("is_primary", .bool key)]

/-- Rows on posts: the tenant comes first and is repeated by a join. -/
def postRows : List Record :=
  [placeRow "tenant" 2 true, placeRow "id" 1 true, placeRow "tenant" 2 true,
    placeRow "title" 3 false]

/-- Posts have the keys `id` and `tenant`, read from their rows or built again from what these say,
where the tenant comes first. -/
theorem posts_built :
    (∃ t, ofRows? "posts" "blog" postRows = some t ∧ t.validate = .ok () ∧
      t.keyNames.Perm ["tenant", "id"] ∧ t.columns.length = 3) ∧
    (((postRows.map Column.ofRow).foldl add { name := "posts", schema := "blog" }).keyNames =
      ["tenant", "id"]) := by
  -- The names of the keys can stand in a list.
  have hplain : ∀ c ∈ postRows.map Column.ofRow, c.isKey = true → Text.Listable c.name := by
    have hall : ∀ c ∈ postRows.map Column.ofRow, c.isKey = true →
        c.name ≠ "" ∧ Text.trim c.name = c.name ∧ ',' ∉ c.name.toList := by decide +kernel
    exact fun c hc hkey => ⟨(hall c hc hkey).1, (hall c hc hkey).2.1, (hall c hc hkey).2.2⟩
  obtain ⟨happended, hcollected⟩ := built_in_order "posts" "blog"
  obtain ⟨t, ht, -, -, hrows⟩ := hcollected postRows nofun
  have hkeys := hrows.keys fun c hc =>
    hplain c ((Column.firsts_sublist _).subset (hrows.kept.mem_iff.mp hc))
  refine ⟨⟨t, ht, hkeys.valid, ?_, ?_⟩, ?_⟩
  · have hnames : ((Column.firsts (postRows.map Column.ofRow)).filter (·.isKey)).map (·.name) =
        ["tenant", "id"] := by decide +kernel
    rw [hkeys.keyNames, ← hnames]
    exact (hrows.kept.filter _).map _
  · rw [hrows.kept.length_eq]
    decide +kernel
  · rw [((happended _ (by decide +kernel)).keys hplain).keyNames]
    decide +kernel

end Table

end SqlService
