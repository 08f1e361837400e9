import SqlService.Proofs.Schema.Alteration

/-!
# Changes converge

The changes between two states of a table can be carried out in their order on the columns of the
old state: each finds what it speaks of, above all the column that it is to stand behind, because
every column that precedes it in the new state is there by then, changed or not.  What they lead to
has every column of the old state, and nothing is left to change.

Main statement: `Table.changes_converge`.
-/

namespace SqlService

/-- The column without its position, which is up to the database. -/
def Column.unplaced (c : Column) : Column := { c with ordinal := 0 }

namespace Table

open Column (Distinct alter? isNamed_self isNamed_comm)

variable {old : Table} {allowChange : Bool}

/-! ## §1 What is reported -/

theorem differs_self (c : Column) : differs c c = false := by
  simp [differs, Text.sameWord_refl]

/-- A column that is reported as new is one that the old state does not have. -/
theorem isSome_column?_eq (old : Table) (allowChange : Bool) (c : Column) :
    (old.column? c.name).isSome = (changeKind? old allowChange c != some .add) := by
  unfold changeKind?
  cases old.column? c.name with
  | none => rfl
  | some existing => dsimp only; split <;> rfl

/-- The columns that are reported, with the kind of the change, whatever their placement. -/
theorem outline_changesFrom (old : Table) (allowChange : Bool) (previous : Option Column)
    (started : Bool) (columns : List Column) :
    (changesFrom old allowChange previous started columns).map (fun ch => (ch.column, ch.kind)) =
      columns.filterMap fun c => (changeKind? old allowChange c).map (c, ·) := by
  induction columns generalizing previous started with
  | nil => rfl
  | cons c columns ih =>
    unfold changesFrom
    cases h : changeKind? old allowChange c with
    | none => simp [h, ih]
    | some kind => simp [h, ih]

theorem mem_changesFrom {previous : Option Column} {started : Bool} {columns : List Column}
    {ch : ColumnChange} (h : ch ∈ changesFrom old allowChange previous started columns) :
    ch.column ∈ columns ∧ changeKind? old allowChange ch.column = some ch.kind := by
  have hmem := List.mem_map_of_mem (f := fun ch : ColumnChange => (ch.column, ch.kind)) h
  rw [outline_changesFrom, List.mem_filterMap] at hmem
  obtain ⟨c, hc, hkind⟩ := hmem
  obtain ⟨kind, hkind, heq⟩ := Option.map_eq_some_iff.mp hkind
  cases heq
  exact ⟨hc, hkind⟩

theorem exists_mem_changesFrom (previous : Option Column) (started : Bool)
    {columns : List Column} {c : Column} {kind : ChangeKind} (hc : c ∈ columns)
    (hkind : changeKind? old allowChange c = some kind) :
    ∃ ch ∈ changesFrom old allowChange previous started columns, ch.column = c := by
  have hmem : (c, kind) ∈
      (changesFrom old allowChange previous started columns).map fun ch =>
        (ch.column, ch.kind) := by
    rw [outline_changesFrom, List.mem_filterMap]
    exact ⟨c, hc, by rw [hkind]; rfl⟩
  obtain ⟨ch, hch, heq⟩ := List.mem_map.mp hmem
  exact ⟨ch, hch, congrArg Prod.fst heq⟩

/-- Nothing is reported exactly when nothing has to happen to any of the columns. -/
theorem changesFrom_eq_nil_iff {previous : Option Column} {started : Bool}
    {columns : List Column} :
    changesFrom old allowChange previous started columns = [] ↔
      ∀ c ∈ columns, changeKind? old allowChange c = none := by
  rw [← List.map_eq_nil_iff (f := fun ch : ColumnChange => (ch.column, ch.kind)),
    outline_changesFrom, List.filterMap_eq_nil_iff]
  simp only [Option.map_eq_none_iff]

/-- Each column is reported once at most. -/
theorem distinct_changesFrom {previous : Option Column} {started : Bool} {columns : List Column}
    (h : Distinct columns) :
    Distinct ((changesFrom old allowChange previous started columns).map (·.column)) := by
  refine List.Pairwise.sublist ?_ h
  induction columns generalizing previous started with
  | nil => exact .refl _
  | cons c columns ih =>
    have hrest := (List.pairwise_cons.mp h).2
    unfold changesFrom
    split
    · exact (ih hrest).cons c
    · exact (ih hrest).cons_cons c

/-- A column that is reported goes to the front or behind the one that precedes it. -/
theorem exists_changesFrom_cons_eq {c : Column} {kind : ChangeKind}
    (hkind : changeKind? old allowChange c = some kind) (previous : Option Column)
    (started : Bool) (columns : List Column) :
    ∃ placement : Placement,
      (placement = .first ∨ ∃ p, previous = some p ∧ placement = .after p.name) ∧
      changesFrom old allowChange previous started (c :: columns) =
        ⟨kind, c, placement⟩ :: changesFrom old allowChange (some c) true columns := by
  simp only [changesFrom, hkind]
  refine ⟨_, ?_, rfl⟩
  split
  · next p => exact .inr ⟨p, rfl, rfl⟩
  · exact .inl rfl

/-! ## §2 Carrying out what is reported -/

/-- A column can be added where it is missing and changed where it is there, in front or behind a
column of another name that is there. -/
theorem applicable_of_previous {previous : Option Column} {present : List Column} {c : Column}
    {kind : ChangeKind} {placement : Placement}
    (hnamed : present.any (·.isNamed c.name) = (some kind != some .add))
    (hprevious : ∀ p, previous = some p →
      present.any (·.isNamed p.name) = true ∧ c.isNamed p.name = false)
    (hplace : placement = .first ∨ ∃ p, previous = some p ∧ placement = .after p.name) :
    (ColumnChange.mk kind c placement).applicable present = true := by
  -- A change needs its column there or missing, and what it is put behind there.
  refine Bool.and_eq_true_iff.mpr ⟨?_, ?_⟩
  · cases kind <;> simp [hnamed]
  · rcases hplace with rfl | ⟨p, hp, rfl⟩
    · rfl
    · obtain ⟨hthere, hother⟩ := hprevious p hp
      simp [hthere, hother]

/-- The changes among the columns that are left can be carried out where the column that precedes
them is there, and those that are left are there as in the old state. -/
theorem exists_alter?_changesFrom {previous : Option Column} {started : Bool}
    {columns present : List Column} (hdistinct : Distinct columns)
    (hprevious : ∀ p, previous = some p →
      present.any (·.isNamed p.name) = true ∧ ∀ c ∈ columns, c.isNamed p.name = false)
    (hpresent : ∀ c ∈ columns, present.any (·.isNamed c.name) = (old.column? c.name).isSome) :
    ∃ result, alter? present (changesFrom old allowChange previous started columns) =
      some result := by
  -- By induction on the columns that are left, with the state that the changes so far have led to.
  induction columns generalizing previous started present with
  | nil => exact ⟨present, rfl⟩
  | cons c columns ih =>
    obtain ⟨hother, hrest⟩ := List.pairwise_cons.mp hdistinct
    have hbehind : ∀ d ∈ columns, d.isNamed c.name = false := fun d hd =>
      (isNamed_comm d c).trans (hother d hd)
    have hc := hpresent c List.mem_cons_self
    rw [isSome_column?_eq old allowChange] at hc
    cases hkind : changeKind? old allowChange c with
    | none =>
      -- What is not reported is there, so what follows may be put behind it.
      rw [hkind] at hc
      simp only [changesFrom, hkind]
      refine ih hrest (fun p hp => ?_) fun d hd => hpresent d (List.mem_cons_of_mem _ hd)
      cases hp
      exact ⟨hc, hbehind⟩
    | some kind =>
      rw [hkind] at hc
      obtain ⟨placement, hplace, heq⟩ := exists_changesFrom_cons_eq hkind previous started columns
      have happlicable : (ColumnChange.mk kind c placement).applicable present = true :=
        applicable_of_previous hc
          (fun p hp => (hprevious p hp).imp_right fun h => h c List.mem_cons_self) hplace
      -- Once it is carried out its column is there, and those that are left are as before.
      have hthere : ((ColumnChange.mk kind c placement).apply present).any (·.isNamed c.name) =
          true := by
        rw [ColumnChange.any_isNamed_apply, isNamed_self, Bool.true_or]
      have hleft : ∀ d ∈ columns,
          ((ColumnChange.mk kind c placement).apply present).any (·.isNamed d.name) =
            (old.column? d.name).isSome := fun d hd => by
        rw [ColumnChange.any_isNamed_apply, hother d hd, Bool.false_or]
        exact hpresent d (List.mem_cons_of_mem _ hd)
      obtain ⟨result, hresult⟩ : ∃ result,
          alter? ((ColumnChange.mk kind c placement).apply present)
            (changesFrom old allowChange (some c) true columns) = some result :=
        ih hrest (fun p hp => by cases hp; exact ⟨hthere, hbehind⟩) hleft
      exact ⟨result, heq ▸ Column.alter?_cons_eq_some_iff.mpr ⟨happlicable, hresult⟩⟩

/-! ## §3 The state that the changes lead to -/

theorem distinct_orderedColumns {t : Table} (h : Distinct t.columns) : Distinct t.orderedColumns :=
  h.perm (List.mergeSort_perm t.columns _).symm

theorem mem_orderedColumns {t : Table} {c : Column} : c ∈ t.orderedColumns ↔ c ∈ t.columns :=
  List.mem_mergeSort

theorem ordinal_trans (a b c : Column) (hab : decide (a.ordinal ≤ b.ordinal) = true)
    (hbc : decide (b.ordinal ≤ c.ordinal) = true) : decide (a.ordinal ≤ c.ordinal) = true :=
  decide_eq_true (UInt32.le_trans (of_decide_eq_true hab) (of_decide_eq_true hbc))

theorem ordinal_total (a b : Column) :
    (decide (a.ordinal ≤ b.ordinal) || decide (b.ordinal ≤ a.ordinal)) = true := by
  rcases UInt32.le_total a.ordinal b.ordinal with h | h <;> simp [h]

theorem pairwise_orderedColumns (t : Table) :
    t.orderedColumns.Pairwise (·.ordinal ≤ ·.ordinal) :=
  (List.pairwise_mergeSort ordinal_trans ordinal_total t.columns).imp of_decide_eq_true

/-- Columns that stand in the order of their positions are in order. -/
theorem orderedColumns_eq {t : Table} (h : t.columns.Pairwise (·.ordinal ≤ ·.ordinal)) :
    t.orderedColumns = t.columns :=
  List.mergeSort_of_pairwise (h.imp fun hle => decide_eq_true hle)

theorem any_orderedColumns (t : Table) (name : String) :
    t.orderedColumns.any (·.isNamed name) = (t.column? name).isSome := by
  rw [orderedColumns, sortColumns, (List.mergeSort_perm t.columns _).any_eq, column?,
    List.isSome_find?]
  rfl

/-- What a table has by a name when its columns have different names, whatever their positions. -/
theorem map_unplaced_column? {t : Table} {columns : List Column} {d : Column} {name : String}
    (ht : t.columns.map Column.unplaced = columns.map Column.unplaced)
    (hdistinct : Distinct columns) (hd : d ∈ columns) (hname : d.isNamed name = true) :
    (t.column? name).map Column.unplaced = some d.unplaced :=
  calc (t.column? name).map Column.unplaced
      = (t.columns.map Column.unplaced).find? (·.isNamed name) := by rw [List.find?_map]; rfl
    _ = (columns.find? (·.isNamed name)).map Column.unplaced := by rw [ht, List.find?_map]; rfl
    _ = some d.unplaced := by rw [hdistinct.find?_eq hd hname]; rfl

/-- The position of a column that is there does not matter for what has to happen to it. -/
theorem changeKind?_of_unplaced {t : Table} {c d : Column}
    (h : (t.column? c.name).map Column.unplaced = some d.unplaced) :
    changeKind? t allowChange c = if allowChange && differs d c then some .change else none := by
  obtain ⟨e, he, hed⟩ := Option.map_eq_some_iff.mp h
  have hdiffers : differs e c = differs d c := by
    change differs e.unplaced c = differs d.unplaced c
    rw [hed]
  simp only [changeKind?, he, hdiffers]

/-- Nothing is left to change once every column that was reported is there and every column that
was not replaced is still there. -/
theorem changes_eq_nil {new old t : Table} {result : List Column} (hnew : Distinct new.columns)
    (hresult : Distinct result)
    (hreported : ∀ ch ∈ changes new old allowChange, ch.column ∈ result)
    (hkept : ∀ d ∈ old.columns, (∀ ch ∈ changes new old allowChange, ch.kind = .change →
      d.isNamed ch.column.name = false) → d ∈ result)
    (ht : t.columns.map Column.unplaced = result.map Column.unplaced) :
    changes new t allowChange = [] := by
  refine changesFrom_eq_nil_iff.mpr fun c hc => ?_
  -- A column that was reported is there as it should be; one that was not is as it was.
  cases hkind : changeKind? old allowChange c with
  | some kind =>
    obtain ⟨ch, hch, rfl⟩ := exists_mem_changesFrom none false hc hkind
    rw [changeKind?_of_unplaced
      (map_unplaced_column? ht hresult (hreported ch hch) (isNamed_self _)), differs_self,
      Bool.and_false]
    rfl
  | none =>
    obtain ⟨d, hd⟩ : ∃ d, old.column? c.name = some d := by
      rw [← Option.isSome_iff_exists, isSome_column?_eq old allowChange, hkind]
      rfl
    have hname : d.isNamed c.name = true := List.find?_some hd
    have hmem : d ∈ result := by
      refine hkept d (List.mem_of_find?_eq_some hd) fun ch hch _ => ?_
      -- A change that replaced it would be one of `c`, which is not reported.
      refine Bool.eq_false_iff.mpr fun hreplaced => ?_
      obtain ⟨hin, hsome⟩ := mem_changesFrom hch
      have heq : ch.column = c := (distinct_orderedColumns hnew).eq_of_isNamed hin hc
        ((isNamed_comm ch.column d).trans hreplaced)
        ((isNamed_comm c d).trans hname)
      rw [heq, hkind] at hsome
      cases hsome
    calc changeKind? t allowChange c
        = if allowChange && differs d c then some .change else none :=
          changeKind?_of_unplaced (map_unplaced_column? ht hresult hmem hname)
      _ = changeKind? old allowChange c := (changeKind?_of_unplaced (by rw [hd]; rfl)).symm
      _ = none := hkind

/-- The changes between two states of a table can be carried out one after another on the columns
of the old state.  This leads to columns of different names: those of the old state, unless they
are changed, and those that are reported.  A table that has them, whatever their positions, has
nothing left to change. -/
theorem changes_converge (new old : Table) (allowChange : Bool) (hnew : Distinct new.columns)
    (hold : Distinct old.columns) :
    ∃ result, alter? old.orderedColumns (changes new old allowChange) = some result ∧
      Distinct result ∧
      (∀ d ∈ old.columns, d ∈ result ∨ ∃ ch ∈ changes new old allowChange,
        ch.kind = .change ∧ d.isNamed ch.column.name = true ∧ ch.column ∈ result) ∧
      (∀ d ∈ result, d ∈ old.columns ∨ ∃ ch ∈ changes new old allowChange, ch.column = d) ∧
      ∀ t : Table, t.columns.map Column.unplaced = result.map Column.unplaced →
        changes new t allowChange = [] := by
  obtain ⟨result, hresult⟩ : ∃ result,
      alter? old.orderedColumns (changes new old allowChange) = some result :=
    exists_alter?_changesFrom (distinct_orderedColumns hnew) (fun p hp => by cases hp)
      fun c _ => any_orderedColumns old c.name
  have hdistinct : Distinct result := Column.distinct_of_alter? hresult (distinct_orderedColumns hold)
  have hreported : ∀ ch ∈ changes new old allowChange, ch.column ∈ result := fun ch hch =>
    Column.mem_of_alter? hresult (distinct_changesFrom (distinct_orderedColumns hnew)) hch
  have hkept : ∀ d ∈ old.columns, (∀ ch ∈ changes new old allowChange, ch.kind = .change →
      d.isNamed ch.column.name = false) → d ∈ result := fun d hd =>
    Column.kept_of_alter? hresult (mem_orderedColumns.mpr hd)
  -- Nothing is lost: what is not kept has been replaced.
  refine ⟨result, hresult, hdistinct, fun d hd => ?_, fun d hd => ?_, fun t ht => ?_⟩
  · by_cases hreplaced : ∃ ch ∈ changes new old allowChange,
        ch.kind = .change ∧ d.isNamed ch.column.name = true
    · obtain ⟨ch, hch, hkind, hname⟩ := hreplaced
      exact .inr ⟨ch, hch, hkind, hname, hreported ch hch⟩
    · refine .inl (hkept d hd fun ch hch hkind => Bool.eq_false_iff.mpr fun hname => ?_)
      exact hreplaced ⟨ch, hch, hkind, hname⟩
  · exact (Column.origin_of_alter? hresult hd).imp_left mem_orderedColumns.mp
  · exact changes_eq_nil hnew hdistinct hreported hkept ht

/-- Members with a name and a note. -/
def members : Table where
  name := "members"
  columns := [⟨"id", 1, "int", "int", 0, false, true, false, "", "", none⟩,
    ⟨"name", 2, "varchar(50)", "varchar", 50, true, false, false, "", "", none⟩,
    ⟨"note", 3, "text", "text", 0, true, false, false, "", "", none⟩]

/-- Members with a longer name, a birthday before it and a mail address behind the note. -/
def newMembers : Table where
  name := "members"
  columns := [⟨"id", 1, "int", "int", 0, false, true, false, "", "", none⟩,
    ⟨"born", 2, "date", "date", 0, true, false, false, "", "", none⟩,
    ⟨"name", 3, "varchar(80)", "varchar", 80, true, false, false, "", "", none⟩,
    ⟨"note", 4, "text", "text", 0, true, false, false, "", "", none⟩,
    ⟨"mail", 5, "varchar(90)", "varchar", 90, true, false, false, "", "", none⟩]

-- The first change goes to the front, the others behind what precedes them, changed or not.
example :
    (changes newMembers members true).map (fun ch => (ch.kind, ch.column.name, ch.placement)) =
      [(.add, "born", .first), (.change, "name", .after "born"), (.add, "mail", .after "note")] := by
  rw [changes, orderedColumns_eq (by decide)]
  decide +kernel

theorem members_converge :
    ∃ result, alter? members.orderedColumns (changes newMembers members true) = some result ∧
      result.map (·.name) = ["born", "name", "id", "note", "mail"] ∧
      changes newMembers { members with columns := result } true = [] := by
  obtain ⟨result, hresult, -, -, -, hnil⟩ :=
    changes_converge newMembers members true (by decide +kernel) (by decide +kernel)
  refine ⟨result, hresult, ?_, hnil _ rfl⟩
  have hnames : (alter? members.columns
      (changesFrom members true none false newMembers.columns)).map (·.map (·.name)) =
        some ["born", "name", "id", "note", "mail"] := by decide +kernel
  rw [← orderedColumns_eq (t := members) (by decide),
    ← orderedColumns_eq (t := newMembers) (by decide)] at hnames
  exact Option.some.inj ((congrArg _ hresult).symm.trans hnames)

end Table

end SqlService
