import Mathlib.Data.List.Forall2
import SqlService.Proofs.Schema.Convergence
import SqlService.Provider.ColumnType
import SqlService.Schema.Rows

/-!
# Tables read back

The catalogue describes a declared column by the text of its type, the bare name of the type and
its length.  A table that is read back from rows that describe the columns of a declared one has
each of them under its name, whatever else the rows say and however they are ordered; so what is
left to change is seen from the declarations alone.

Main statement: `Table.changes_readBack_eq_nil_iff`.
-/

namespace SqlService

/-! ## §1 What a catalogue says of a declared column -/

namespace Column

/-- The part of a type before its arguments. -/
def bareType (type : String) : String := String.ofList (type.toList.takeWhile (· != '('))

/-- The length that a type of texts or byte strings is written with, 0 where there is none. -/
def writtenLength (type : String) : UInt32 :=
  let digits := ((type.toList.dropWhile (· != '(')).drop 1).takeWhile Char.isDigit
  if sizedTypes.contains (bareType type) then
    UInt32.ofNat (min (Decimal.valueFrom 0 digits) (UInt32.size - 1))
  else 0

end Column

namespace Dialect

/-- The type that a column is declared with, as a catalogue writes it. -/
def declaredType (d : Dialect) (c : Column) : String := Text.lower (d.columnType c)

/-- The row describes the column as it is declared; what else it says, its position above all, is
left open. -/
structure Describes (d : Dialect) (c : Column) (row : Record) : Prop where
  name : row.get? "name" = some (.string c.name)
  columnType : row.get? "column_type" = some (.string (d.declaredType c))
  dataType : row.get? "data_type" = some (.string (Column.bareType (d.declaredType c)))
  length : row.get? "length" = some (.ofUInt32 (Column.writtenLength (d.declaredType c)))

/-- What a catalogue that says nothing else says of the column. -/
def rowFor (d : Dialect) (c : Column) : Record :=
  Dictionary.ofList [("name", .string c.name), ("ordinal", .ofUInt32 c.ordinal),
    ("column_type", .string (d.declaredType c)),
    ("data_type", .string (Column.bareType (d.declaredType c))),
    ("length", .ofUInt32 (Column.writtenLength (d.declaredType c)))]

theorem describes_rowFor (d : Dialect) (c : Column) : d.Describes c (d.rowFor c) where
  name := rfl
  columnType := rfl
  dataType := rfl
  length := rfl

/-- The column is written down in the way that the catalogue reports it: its type is the declared
one but for case, and where both the column and the declared type have a length, it is the same. -/
def Faithful (d : Dialect) (c : Column) : Prop :=
  Text.sameWord (d.declaredType c) c.columnType = true ∧
    (Column.writtenLength (d.declaredType c) = 0 ∨ c.length = 0 ∨
      Column.writtenLength (d.declaredType c) = c.length)

instance (d : Dialect) (c : Column) : Decidable (d.Faithful c) :=
  inferInstanceAs (Decidable (_ ∧ _))

end Dialect

open Column (Distinct)

variable {d : Dialect} {c : Column} {row : Record}

/-- A word of 32 bits is read back as a length. -/
theorem Column.clamp_ofUInt32 (n : UInt32) : Column.clamp (Json.ofUInt32 n).int? = n := by
  have hn : n.toNat < 4294967296 := n.toNat_lt
  have hword : Integer.ofUInt64 n.toUInt64 = Integer.ofInt64 (Int64.ofNat n.toNat) := by
    simp [Integer.ofUInt64, Integer.ofInt64,
      Int64.toInt_ofNat_of_lt (show n.toNat < 2 ^ 63 by omega)]
  have hint : (Json.ofUInt32 n).int? = some (Int64.ofNat n.toNat) := by
    simp only [Json.ofUInt32, Json.ofUInt64, Json.int?, Number.truncate, Number.toInt64?, hword,
      Integer.toInt64?_ofInt64]
  have hmin : min n.toNat (UInt32.size - 1) = n.toNat := Nat.min_eq_left (Nat.le_sub_one_of_lt hn)
  rw [hint, Column.clamp, Int64.toInt_ofNat_of_lt (by omega), Int.toNat_natCast, hmin,
    UInt32.ofNat_toNat]

namespace Dialect.Describes

theorem ofRow_name (h : d.Describes c row) : (Column.ofRow row).name = c.name := by
  simp [Column.ofRow, Record.text, Record.text?, h.name, Json.text?]

theorem ofRow_columnType (h : d.Describes c row) :
    (Column.ofRow row).columnType = d.declaredType c := by
  simp [Column.ofRow, Record.text, Record.text?, h.columnType, Json.text?]

theorem ofRow_length (h : d.Describes c row) :
    (Column.ofRow row).length = Column.writtenLength (d.declaredType c) := by
  simp only [Column.ofRow, Record.int?, h.length, Option.bind_some, Column.clamp_ofUInt32]

/-- What a row describes differs from the column unless that is written down as it is reported. -/
theorem differs_eq_false_iff (h : d.Describes c row) :
    Table.differs (Column.ofRow row) c = false ↔ d.Faithful c := by
  rw [Table.differs, h.ofRow_columnType, h.ofRow_length, Dialect.Faithful]
  simp [Decidable.or_iff_not_imp_left]

end Dialect.Describes

namespace Table

/-! ## §2 Reading back -/

theorem foldRepeats_of_distinct {done columns : List Column} (h : Distinct (done ++ columns)) :
    foldRepeats done columns = done ++ columns := by
  induction columns generalizing done with
  | nil => simp [foldRepeats]
  | cons c columns ih =>
    have hnew : (done.any fun d => Text.sameWord d.name c.name) = false := by
      refine List.any_eq_false.mpr fun d hd => ?_
      rw [Bool.not_eq_true]
      exact (List.pairwise_append.mp h).2.2 d hd c List.mem_cons_self
    rw [List.append_cons] at h
    rw [foldRepeats, hnew, if_neg Bool.false_ne_true, ih h, List.append_assoc]
    rfl

theorem exists_row {columns : List Column} {rows : List Record}
    (hrows : List.Forall₂ d.Describes columns rows) (hc : c ∈ columns) :
    ∃ row ∈ rows, d.Describes c row := by
  induction hrows with
  | nil => cases hc
  | cons h _ ih =>
    rcases List.mem_cons.mp hc with rfl | hc
    · exact ⟨_, List.mem_cons_self, h⟩
    · obtain ⟨row, hrow, hdescribes⟩ := ih hc
      exact ⟨row, List.mem_cons_of_mem _ hrow, hdescribes⟩

/-- A table that is read back has what each row describes under the name of the column. -/
theorem exists_ofRows?_eq {columns : List Column} {rows : List Record} (name schema : String)
    (hdistinct : Distinct columns) (hne : columns ≠ [])
    (hrows : List.Forall₂ d.Describes columns rows) :
    ∃ current, ofRows? name schema rows = some current ∧
      ∀ c ∈ columns, ∃ row, d.Describes c row ∧ current.column? c.name = some (Column.ofRow row) := by
  have hnames : (rows.map Column.ofRow).map (·.name) = columns.map (·.name) := by
    clear hdistinct hne
    induction hrows with
    | nil => rfl
    | cons h _ ih => simpa [h.ofRow_name] using ih
  -- The columns have different names, so no row repeats another.
  have hread : Distinct (rows.map Column.ofRow) := by
    have hwords : (columns.map (·.name)).Pairwise fun a b => Text.sameWord a b = false :=
      List.pairwise_map.mpr hdistinct
    rw [← hnames] at hwords
    exact List.pairwise_map.mp hwords
  have hfold : foldRepeats [] (rows.map Column.ofRow) = rows.map Column.ofRow :=
    foldRepeats_of_distinct hread
  have hrowsne : rows.isEmpty = false := by
    cases hrows with
    | nil => exact absurd rfl hne
    | cons _ _ => rfl
  simp only [ofRows?, hrowsne, hfold]
  refine ⟨_, rfl, fun c hc => ?_⟩
  obtain ⟨row, hrow, hdescribes⟩ := exists_row hrows hc
  refine ⟨row, hdescribes, ?_⟩
  -- Sorting the columns does not change which one a name finds.
  have hperm : (sortColumns (rows.map Column.ofRow)).Perm (rows.map Column.ofRow) :=
    List.mergeSort_perm ..
  refine (hread.perm hperm.symm).find?_eq (hperm.mem_iff.mpr (List.mem_map_of_mem hrow)) ?_
  rw [← hdescribes.ofRow_name]
  exact Column.isNamed_self _

/-- Between a declared table and what is read back of it there is nothing to change exactly when
columns may not be changed, or all are written down as they are reported. -/
theorem changes_readBack_eq_nil_iff {t current : Table} {allowChange : Bool}
    (hcurrent : ∀ c ∈ t.columns, ∃ row, d.Describes c row ∧
      current.column? c.name = some (Column.ofRow row)) :
    changes t current allowChange = [] ↔
      allowChange = false ∨ ∀ c ∈ t.columns, d.Faithful c := by
  -- Column by column: none is missing, so only a difference counts.
  have hkind : ∀ c ∈ t.columns, (changeKind? current allowChange c = none ↔
      allowChange = false ∨ d.Faithful c) := by
    intro c hc
    obtain ⟨row, hdescribes, hcolumn⟩ := hcurrent c hc
    rw [← hdescribes.differs_eq_false_iff, changeKind?, hcolumn]
    cases allowChange <;> simp
  rw [changes, changesFrom_eq_nil_iff]
  simp only [mem_orderedColumns]
  rw [forall₂_congr hkind]
  cases allowChange <;> simp

end Table

end SqlService
