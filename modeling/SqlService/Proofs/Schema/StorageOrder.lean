import Mathlib.Data.List.Find
import Mathlib.Data.List.Nodup
import SqlService.Proofs.Schema.PrimaryKey
import SqlService.Query.Run

/-!
# Storage order

A table stores its columns in some order, which need not be that of their positions.  What is
generated from a table goes through the columns by position, and looks for a column by its name or
for the one that the database fills.  Where none of this leaves a choice, tables that differ in the
storage order alone present the same view, and all that is generated goes by the view.

Main statement: `Table.generated_of_rearranged`.
-/

namespace SqlService

open Column (Distinct)

namespace Table

variable {t u old old' : Table}

/-! ## §1 Views -/

/-- The columns of a table can be told apart: no two have the same position or, in any case, the
same name, and the database fills at most one of them. -/
structure Unambiguous (t : Table) : Prop where
  ordinals : (t.columns.map (·.ordinal)).Nodup
  names : Distinct t.columns
  identity : (t.columns.filter (·.autoIncrement)).length ≤ 1

/-- The second table is the first one with its columns stored in another order. -/
structure Rearranged (t u : Table) : Prop where
  name : u.name = t.name
  schema : u.schema = t.schema
  keys : u.keys = t.keys
  columns : u.columns.Perm t.columns

/-- What is read of two tables when statements are generated from them is the same. -/
structure SameView (t u : Table) : Prop where
  name : u.name = t.name
  keyNames : u.keyNames = t.keyNames
  ordered : u.orderedColumns = t.orderedColumns
  column : u.column? = t.column?
  identity : u.identityColumn? = t.identityColumn?

/-- A table presents its own view. -/
theorem SameView.refl (t : Table) : t.SameView t := ⟨rfl, rfl, rfl, rfl, rfl⟩

/-- Columns of different positions have only one order by position. -/
theorem Rearranged.orderedColumns_eq (h : t.Rearranged u)
    (hordinals : (t.columns.map (·.ordinal)).Nodup) :
    u.orderedColumns = t.orderedColumns := by
  -- Both lists are sorted and hold the same columns, and no two columns tie.
  have hperm : u.orderedColumns.Perm t.columns := (List.mergeSort_perm u.columns _).trans h.columns
  refine List.Perm.eq_of_pairwise (fun c d hc hd hcd hdc => ?_) u.pairwise_orderedColumns
    t.pairwise_orderedColumns (hperm.trans (List.mergeSort_perm t.columns _).symm)
  have hsame : c.ordinal = d.ordinal := UInt32.le_antisymm hcd hdc
  exact List.inj_on_of_nodup_map hordinals (hperm.mem_iff.mp hc) (mem_orderedColumns.mp hd) hsame

/-- Where no two columns share a name, the first of a name is the only one. -/
theorem Rearranged.column?_eq (h : t.Rearranged u) (hnames : Distinct t.columns) :
    u.column? = t.column? := by
  funext name
  refine (List.find?_eq_find?_of_perm h.columns.symm ?_).symm
  rintro c ⟨hc, hcn⟩ d ⟨hd, hdn⟩
  exact hnames.eq_of_isNamed hc hd hcn hdn

/-- So it is with the column that the database fills. -/
theorem Rearranged.identityColumn?_eq (h : t.Rearranged u)
    (hone : (t.columns.filter (·.autoIncrement)).length ≤ 1) :
    u.identityColumn? = t.identityColumn? := by
  refine (List.find?_eq_find?_of_perm h.columns.symm ?_).symm
  rintro c ⟨hc, hcfills⟩ d ⟨hd, hdfills⟩
  have hboth : [c] = [d] := (filter_autoIncrement_eq hone hc hcfills).symm.trans
    (filter_autoIncrement_eq hone hd hdfills)
  exact List.head_eq_of_cons_eq hboth

/-- A table whose columns can be told apart presents the same view however it stores them. -/
theorem Rearranged.sameView (h : t.Rearranged u) (ht : t.Unambiguous) : t.SameView u where
  name := h.name
  keyNames := by rw [keyNames, keyNames, h.keys]
  ordered := h.orderedColumns_eq ht.ordinals
  column := h.column?_eq ht.names
  identity := h.identityColumn?_eq ht.identity

/-! ## §2 What goes by the view -/

namespace SameView

variable (h : t.SameView u) (p : Provider)

include h

/-- The table is created from its columns by position and its key. -/
theorem createTable_eq : p.createTable u = p.createTable t := by
  unfold Provider.createTable Provider.keyClause?
  rw [h.name, h.ordered, h.identity, h.keyNames]

theorem insertedColumns_eq : u.insertedColumns = t.insertedColumns := by
  rw [insertedColumns, h.ordered, insertedColumns]

/-- A row is inserted through the columns by position, without the one that the database fills. -/
theorem insertStatement_eq : p.insertStatement u = p.insertStatement t := by
  unfold Provider.insertStatement
  rw [h.name, h.insertedColumns_eq, h.identity]

theorem assignedColumns_eq : u.assignedColumns = t.assignedColumns := by
  unfold assignedColumns namesKey
  rw [h.ordered, h.keyNames]

/-- The key is compared as the key list has it. -/
theorem keyPredicate_eq : p.keyPredicate u = p.keyPredicate t := by
  unfold Provider.keyPredicate
  rw [h.name, h.keyNames]

/-- A row is changed through the columns by position and the key. -/
theorem updateStatement_eq : p.updateStatement u = p.updateStatement t := by
  unfold Provider.updateStatement
  rw [h.name, h.keyPredicate_eq p, h.assignedColumns_eq]

/-- A row is removed through the key alone. -/
theorem deleteStatement_eq : p.deleteStatement u = p.deleteStatement t := by
  unfold Provider.deleteStatement
  rw [h.name, h.keyPredicate_eq p]

theorem selectStatement_eq : p.selectStatement u = p.selectStatement t := by
  unfold Provider.selectStatement
  rw [h.name, h.ordered]

theorem countStatement_eq : p.countStatement u = p.countStatement t := by
  unfold Provider.countStatement
  rw [h.name]

/-- An insert is the same program, so that it makes the same requests whatever the replies are. -/
theorem insert_eq (values : Record) (l : Link) : u.insert p values l = t.insert p values l := by
  unfold insert insertParams
  rw [h.insertStatement_eq p, h.insertedColumns_eq]

/-- What becomes of a column depends on the old one of its name only. -/
theorem changeKind?_eq (allowChange : Bool) :
    changeKind? u allowChange = changeKind? t allowChange := by
  funext c
  unfold changeKind?
  rw [h.column]

end SameView

/-- Changes are the same if each column has the same one. -/
theorem changesFrom_congr {allowChange : Bool}
    (h : changeKind? old' allowChange = changeKind? old allowChange) (previous : Option Column)
    (started : Bool) (columns : List Column) :
    changesFrom old' allowChange previous started columns =
      changesFrom old allowChange previous started columns := by
  -- Any column may come before the rest, and the list of changes may have been started.
  induction columns generalizing previous started with
  | nil => rfl
  | cons c columns ih => simp only [changesFrom, h, ih]

/-- Of the new state the changes go by the order, of the old one by what has a name. -/
theorem SameView.changes_eq (h : t.SameView u) (hold : old.SameView old') (allowChange : Bool) :
    changes u old' allowChange = changes t old allowChange := by
  unfold changes
  rw [h.ordered, changesFrom_congr (hold.changeKind?_eq allowChange)]

/-- An alteration writes out the changes. -/
theorem SameView.alterTable_eq (h : t.SameView u) (hold : old.SameView old') (p : Provider) :
    p.alterTable u old' = p.alterTable t old := by
  unfold Provider.alterTable Provider.alterStatement
  rw [h.name, h.changes_eq hold]

/-- If the columns of a table can be told apart, then what is generated from it, the changes that
lead from any table to it or from it to any table, and what an insert sends are the same however the
columns are stored; the changes are also the same if both tables store theirs in another order. -/
theorem generated_of_rearranged (ht : t.Unambiguous) (h : t.Rearranged u) :
    (∀ p : Provider, p.createTable u = p.createTable t ∧
      p.insertStatement u = p.insertStatement t ∧
      p.updateStatement u = p.updateStatement t ∧
      p.deleteStatement u = p.deleteStatement t ∧
      p.selectStatement u = p.selectStatement t ∧
      p.countStatement u = p.countStatement t) ∧
    (∀ other : Table,
      (∀ allowChange, changes u other allowChange = changes t other allowChange ∧
        changes other u allowChange = changes other t allowChange) ∧
      ∀ p : Provider, p.alterTable u other = p.alterTable t other ∧
        p.alterTable other u = p.alterTable other t) ∧
    (∀ old old' : Table, old.Unambiguous → old.Rearranged old' →
      (∀ allowChange, changes u old' allowChange = changes t old allowChange) ∧
      ∀ p : Provider, p.alterTable u old' = p.alterTable t old) ∧
    ∀ (p : Provider) (values : Record) (l : Link), u.insert p values l = t.insert p values l := by
  have hview : t.SameView u := h.sameView ht
  -- The view of the rearranged table is all that the generators look at.
  refine ⟨fun p => ?_, fun other => ?_, fun old old' hold hrearranged => ?_, hview.insert_eq⟩
  · exact ⟨hview.createTable_eq p, hview.insertStatement_eq p, hview.updateStatement_eq p,
      hview.deleteStatement_eq p, hview.selectStatement_eq p, hview.countStatement_eq p⟩
  · -- One of the two tables is stored as it was.
    have hother : other.SameView other := .refl other
    exact ⟨fun allowChange => ⟨hview.changes_eq hother allowChange,
      hother.changes_eq hview allowChange⟩,
      fun p => ⟨hview.alterTable_eq hother p, hother.alterTable_eq hview p⟩⟩
  -- Both are stored in another order, so both have views to compare.
  · have holdview : old.SameView old' := hrearranged.sameView hold
    exact ⟨hview.changes_eq holdview, hview.alterTable_eq holdview⟩

/-- Bookings, numbered by the database. -/
def bookings : Table where
  name := "bookings"
  keys := "id"
  columns := [⟨"id", 1, "int", "int", 0, false, true, true, "", "", none⟩,
    ⟨"guest", 2, "varchar(40)", "varchar", 40, false, false, false, "", "", none⟩,
    ⟨"paid", 3, "bool", "bool", 0, true, false, false, "", "", none⟩]

/-- Bookings before they were numbered. -/
def oldBookings : Table where
  name := "bookings"
  columns := [⟨"guest", 4, "varchar(40)", "varchar", 40, false, false, false, "", "", none⟩,
    ⟨"paid", 2, "int", "int", 0, true, false, false, "", "", none⟩]

/-- With the columns stored from the last to the first an insert still names them, and an alteration
still places them, from the first to the last. -/
theorem bookings_rearranged :
    (bookings.Unambiguous ∧
      bookings.Rearranged { bookings with columns := bookings.columns.reverse } ∧
      oldBookings.Unambiguous ∧
      oldBookings.Rearranged { oldBookings with columns := oldBookings.columns.reverse }) ∧
    (Provider.stock .postgres).insertStatement
        { bookings with columns := bookings.columns.reverse } =
      ⟨"INSERT INTO bookings (guest, paid) VALUES (@guest, @paid) RETURNING id",
        some .returning⟩ ∧
    (Provider.stock .mysql).alterTable { bookings with columns := bookings.columns.reverse }
        { oldBookings with columns := oldBookings.columns.reverse } =
      "ALTER TABLE \x60bookings\x60\n" ++
        "ADD COLUMN \x60id\x60 INT(11) NOT NULL AUTO_INCREMENT FIRST,\n" ++
        "MODIFY COLUMN \x60paid\x60 BOOL AFTER \x60guest\x60" := by
  have hnew : bookings.Unambiguous :=
    ⟨by decide +kernel, by decide +kernel, by decide +kernel⟩
  have hold : oldBookings.Unambiguous :=
    ⟨by decide +kernel, by decide +kernel, by decide +kernel⟩
  have hnewperm : bookings.Rearranged { bookings with columns := bookings.columns.reverse } :=
    ⟨rfl, rfl, rfl, List.reverse_perm _⟩
  have holdperm :
      oldBookings.Rearranged { oldBookings with columns := oldBookings.columns.reverse } :=
    ⟨rfl, rfl, rfl, List.reverse_perm _⟩
  have hordered : bookings.orderedColumns = bookings.columns := orderedColumns_eq (by decide)
  obtain ⟨hstatements, -, hchanges, -⟩ := generated_of_rearranged hnew hnewperm
  refine ⟨⟨hnew, hnewperm, hold, holdperm⟩, ?_, ?_⟩
  · rw [(hstatements (.stock .postgres)).2.1, Provider.insertStatement, insertedColumns, hordered]
    decide +kernel
  · rw [(hchanges oldBookings _ hold holdperm).2, Provider.alterTable, changes, hordered]
    decide +kernel

end Table

end SqlService
