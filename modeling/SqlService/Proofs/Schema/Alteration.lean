import Mathlib.Data.List.Pairwise
import SqlService.Schema.Diff

/-!
# Carrying out changes

A change is carried out on the columns of a table in their order: a column is added in its place, or
takes the place of the one that has its name and moves there.  A change can be carried out if what it
speaks of is there; `Column.alter?` carries changes out one after another as long as each of them
can be.

Main statements: which columns there are after changes of different names
(`distinct_of_alter?`, `origin_of_alter?`, `kept_of_alter?`, `mem_of_alter?`).
-/

namespace SqlService

/-! ## §1 Names -/

namespace Column

/-- Whether the column goes by the name. -/
def isNamed (name : String) (c : Column) : Bool := Text.sameWord c.name name

/-- No two columns go by the same name. -/
def Distinct (columns : List Column) : Prop :=
  columns.Pairwise fun c d => c.isNamed d.name = false

instance (columns : List Column) : Decidable (Distinct columns) :=
  inferInstanceAs (Decidable (List.Pairwise _ _))

variable {name : String} {c d : Column} {columns others : List Column}

theorem isNamed_self (c : Column) : c.isNamed c.name = true := Text.sameWord_refl c.name

theorem isNamed_comm (c d : Column) : c.isNamed d.name = d.isNamed c.name :=
  Text.sameWord_comm c.name d.name

theorem isNamed_trans (h : c.isNamed d.name = true) (hd : d.isNamed name = true) :
    c.isNamed name = true :=
  Text.sameWord_trans h hd

instance : Std.Symm fun c d : Column => c.isNamed d.name = false where
  symm c d h := (isNamed_comm d c).trans h

theorem Distinct.perm (h : Distinct columns) (hperm : columns.Perm others) : Distinct others :=
  (hperm.pairwise_iff fun {c d} hcd => (isNamed_comm d c).trans hcd).mp h

/-- Of columns with different names only one goes by a name. -/
theorem Distinct.eq_of_isNamed (h : Distinct columns) (hc : c ∈ columns) (hd : d ∈ columns)
    (hcn : c.isNamed name = true) (hdn : d.isNamed name = true) : c = d := by
  refine Decidable.byContradiction fun hne => ?_
  have hsame : c.isNamed d.name = true :=
    Text.sameWord_trans hcn ((Text.sameWord_comm _ _).trans hdn)
  rw [h.forall hc hd hne] at hsame
  cases hsame

/-- Of columns with different names the one that goes by a name is found. -/
theorem Distinct.find?_eq (h : Distinct columns) (hd : d ∈ columns) (hdn : d.isNamed name = true) :
    columns.find? (fun c => c.isNamed name) = some d := by
  obtain ⟨c, hc⟩ := Option.isSome_iff_exists.mp (List.find?_isSome.mpr ⟨d, hd, hdn⟩)
  rw [hc, h.eq_of_isNamed (List.mem_of_find?_eq_some hc) hd (List.find?_some hc) hdn]

/-- The columns with one more behind the first that goes by the name, or at the end. -/
def insertAfter (name : String) (c : Column) : List Column → List Column
  | [] => [c]
  | d :: ds => if d.isNamed name then d :: c :: ds else d :: insertAfter name c ds

theorem insertAfter_perm (name : String) (c : Column) (columns : List Column) :
    (insertAfter name c columns).Perm (c :: columns) := by
  induction columns with
  | nil => exact .refl _
  | cons d ds ih =>
    unfold insertAfter
    split
    · exact .swap c d ds
    · exact (ih.cons d).trans (.swap c d ds)

end Column

open Column (Distinct isNamed_self isNamed_comm)

/-! ## §2 Single changes -/

/-- The columns with one more in a place. -/
def Placement.put (c : Column) (columns : List Column) : Placement → List Column
  | first => c :: columns
  | after name => Column.insertAfter name c columns

theorem Placement.put_perm (c : Column) (columns : List Column) (p : Placement) :
    (p.put c columns).Perm (c :: columns) := by
  cases p with
  | first => exact .refl _
  | after name => exact Column.insertAfter_perm name c columns

namespace ColumnChange

/-- What stays of the columns when the change is carried out: all but the one that is replaced. -/
def remaining (ch : ColumnChange) (columns : List Column) : List Column :=
  match ch.kind with
  | .add => columns
  | .change => columns.eraseP (·.isNamed ch.column.name)

/-- The columns after the change. -/
def apply (ch : ColumnChange) (columns : List Column) : List Column :=
  ch.placement.put ch.column (ch.remaining columns)

/-- Whether the change can be carried out: a column to be added is not there yet and one to be
changed is, and if the place is behind a column, that is another one and it is there. -/
def applicable (ch : ColumnChange) (columns : List Column) : Bool :=
  (match ch.kind with
    | .add => !columns.any (·.isNamed ch.column.name)
    | .change => columns.any (·.isNamed ch.column.name)) &&
  match ch.placement with
  | .first => true
  | .after name => columns.any (·.isNamed name) && !ch.column.isNamed name

variable {ch : ColumnChange} {columns : List Column} {d : Column}

theorem apply_perm (ch : ColumnChange) (columns : List Column) :
    (ch.apply columns).Perm (ch.column :: ch.remaining columns) :=
  ch.placement.put_perm ch.column _

theorem mem_apply_iff : d ∈ ch.apply columns ↔ d = ch.column ∨ d ∈ ch.remaining columns := by
  rw [(ch.apply_perm columns).mem_iff, List.mem_cons]

theorem remaining_sublist (ch : ColumnChange) (columns : List Column) :
    (ch.remaining columns).Sublist columns := by
  unfold remaining
  split
  · exact .refl _
  · exact List.eraseP_sublist

/-- A change only replaces a column of its own name. -/
theorem mem_remaining (hd : d ∈ columns)
    (hname : ch.kind = .change → d.isNamed ch.column.name = false) : d ∈ ch.remaining columns := by
  unfold remaining
  split
  · exact hd
  · next hkind =>
    refine (List.mem_eraseP_of_neg ?_).mpr hd
    rw [hname hkind]
    exact Bool.false_ne_true

/-- When the change can be carried out, its name is free for its column. -/
theorem isNamed_of_mem_remaining (h : ch.applicable columns = true) (hdistinct : Distinct columns)
    (hd : d ∈ ch.remaining columns) : ch.column.isNamed d.name = false := by
  rw [isNamed_comm, Bool.eq_false_iff]
  intro hname
  unfold applicable at h
  unfold remaining at hd
  have hkind := (Bool.and_eq_true_iff.mp h).1
  split at hd
  · next hadd =>
    simp only [hadd, Bool.not_eq_true', List.any_eq_false] at hkind
    exact hkind d hd hname
  · next hchange =>
    simp only [hchange, List.any_eq_true] at hkind
    obtain ⟨c, hc, hcname⟩ := hkind
    obtain ⟨c', front, back, -, hc', rfl, herase⟩ := List.exists_of_eraseP hc hcname
    rw [herase] at hd
    -- The column that leaves is the only one of its name.
    have hrest : Distinct (c' :: (front ++ back)) := hdistinct.perm List.perm_middle
    have hother := (List.pairwise_cons.mp hrest).1 d hd
    rw [(Distinct.eq_of_isNamed hrest (List.mem_cons_of_mem _ hd) List.mem_cons_self hname hc'),
      isNamed_self] at hother
    cases hother

theorem distinct_apply (h : ch.applicable columns = true) (hdistinct : Distinct columns) :
    Distinct (ch.apply columns) := by
  refine Distinct.perm (.cons (fun d hd => ?_) ?_) (ch.apply_perm columns).symm
  · exact isNamed_of_mem_remaining h hdistinct hd
  · exact List.Pairwise.sublist (ch.remaining_sublist columns) hdistinct

/-- After a change a name is gone by if it was before, or if it is a name of the changed column. -/
theorem any_isNamed_apply (ch : ColumnChange) (columns : List Column) (name : String) :
    (ch.apply columns).any (·.isNamed name) =
      (ch.column.isNamed name || columns.any (·.isNamed name)) := by
  rw [Bool.eq_iff_iff, Bool.or_eq_true, List.any_eq_true, List.any_eq_true]
  constructor
  · rintro ⟨d, hd, hname⟩
    rcases mem_apply_iff.mp hd with rfl | hd
    · exact .inl hname
    · exact .inr ⟨d, (ch.remaining_sublist columns).subset hd, hname⟩
  · rintro (hname | ⟨d, hd, hname⟩)
    · exact ⟨ch.column, mem_apply_iff.mpr (.inl rfl), hname⟩
    · cases hreplaced : d.isNamed ch.column.name with
      | true =>
        -- What replaces a column goes by its names.
        refine ⟨ch.column, mem_apply_iff.mpr (.inl rfl), ?_⟩
        exact Column.isNamed_trans ((isNamed_comm _ d).trans hreplaced) hname
      | false => exact ⟨d, mem_apply_iff.mpr (.inr (mem_remaining hd fun _ => hreplaced)), hname⟩

end ColumnChange

/-! ## §3 Changes one after another -/

namespace Column

/-- The columns after all changes, if each of them can be carried out when it is reached. -/
def alter? : List Column → List ColumnChange → Option (List Column)
  | columns, [] => some columns
  | columns, ch :: changes =>
    if ch.applicable columns then alter? (ch.apply columns) changes else none

variable {columns result : List Column} {changes : List ColumnChange} {ch : ColumnChange}

theorem alter?_cons_eq_some_iff :
    alter? columns (ch :: changes) = some result ↔
      ch.applicable columns = true ∧ alter? (ch.apply columns) changes = some result := by
  simp [alter?]

/-- Columns with different names still have different names after the changes. -/
theorem distinct_of_alter? (h : alter? columns changes = some result)
    (hdistinct : Distinct columns) : Distinct result := by
  induction changes generalizing columns with
  | nil => exact Option.some.inj h ▸ hdistinct
  | cons ch changes ih =>
    obtain ⟨hch, hrest⟩ := alter?_cons_eq_some_iff.mp h
    exact ih hrest (ColumnChange.distinct_apply hch hdistinct)

/-- Every column was there before the changes or has come with one of them. -/
theorem origin_of_alter? (h : alter? columns changes = some result) {d : Column}
    (hd : d ∈ result) : d ∈ columns ∨ ∃ ch ∈ changes, ch.column = d := by
  induction changes generalizing columns with
  | nil => exact .inl (Option.some.inj h ▸ hd)
  | cons ch changes ih =>
    rcases ih (alter?_cons_eq_some_iff.mp h).2 with hmem | ⟨ch', hch', heq⟩
    · rcases ColumnChange.mem_apply_iff.mp hmem with rfl | hmem
      · exact .inr ⟨ch, List.mem_cons_self, rfl⟩
      · exact .inl ((ch.remaining_sublist columns).subset hmem)
    · exact .inr ⟨ch', List.mem_cons_of_mem _ hch', heq⟩

/-- A column stays unless one of the changes replaces it. -/
theorem kept_of_alter? (h : alter? columns changes = some result) {d : Column} (hd : d ∈ columns)
    (hname : ∀ ch ∈ changes, ch.kind = .change → d.isNamed ch.column.name = false) :
    d ∈ result := by
  induction changes generalizing columns with
  | nil => exact Option.some.inj h ▸ hd
  | cons ch changes ih =>
    refine ih (alter?_cons_eq_some_iff.mp h).2 ?_ fun ch' hch' =>
      hname ch' (List.mem_cons_of_mem _ hch')
    exact ColumnChange.mem_apply_iff.mpr
      (.inr (ColumnChange.mem_remaining hd (hname ch List.mem_cons_self)))

/-- The column of a change stays if the changes have different names. -/
theorem mem_of_alter? (h : alter? columns changes = some result)
    (hdistinct : Distinct (changes.map (·.column))) (hch : ch ∈ changes) : ch.column ∈ result := by
  induction changes generalizing columns with
  | nil => cases hch
  | cons first changes ih =>
    obtain ⟨-, hrest⟩ := alter?_cons_eq_some_iff.mp h
    obtain ⟨hfirst, hchanges⟩ := List.pairwise_cons.mp hdistinct
    rcases List.mem_cons.mp hch with rfl | hch
    · refine kept_of_alter? hrest (ColumnChange.mem_apply_iff.mpr (.inl rfl)) fun ch' hch' _ => ?_
      exact hfirst _ (List.mem_map_of_mem hch')
    · exact ih hrest hchanges hch

end Column

end SqlService
