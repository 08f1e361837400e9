import SqlService.Schema.Table

/-!
# Differences between two states of a table

`Table.changes` lists the columns that an old state has to gain or alter to match a new one, in the
order of the new one's positions.  The first change goes to the front of the table, each later one
after the column that precedes it in the new state, whether that one changed or not.
-/

namespace SqlService

/-- Whether a column is new or altered. -/
inductive ChangeKind where
  | add
  | change
  deriving DecidableEq, Repr

/-- Where a column goes. -/
inductive Placement where
  | first
  | after (column : String)
  deriving DecidableEq, Repr

/-- A column that the old state has to gain or alter, as the new state defines it. -/
structure ColumnChange where
  kind : ChangeKind
  column : Column
  placement : Placement
  deriving DecidableEq, Repr

namespace Table

/-- Whether two definitions of a column differ: by type without regard to case, or by length where
both give one. -/
def differs (old new : Column) : Bool :=
  !Text.sameWord old.columnType new.columnType ||
    (old.length != 0 && new.length != 0 && old.length != new.length)

/-- What has to happen to the column of the new state, if anything. -/
def changeKind? (old : Table) (allowChange : Bool) (column : Column) : Option ChangeKind :=
  match old.column? column.name with
  | none => some .add
  | some existing => if allowChange && differs existing column then some .change else none

/-- The changes among the remaining columns, where `previous` precedes them in the new state and
`started` says whether a change has come before. -/
def changesFrom (old : Table) (allowChange : Bool) (previous : Option Column) (started : Bool) :
    List Column → List ColumnChange
  | [] => []
  | c :: cs =>
    match changeKind? old allowChange c with
    | none => changesFrom old allowChange (some c) started cs
    | some kind =>
      -- Only the very first change goes to the front, even if columns precede it.
      let placement : Placement :=
        match started, previous with
        | true, some p => .after p.name
        | _, _ => .first
      ⟨kind, c, placement⟩ :: changesFrom old allowChange (some c) true cs

/-- The changes that turn the old state into the new one; alterations of existing columns only if
they are allowed. -/
def changes (new old : Table) (allowChange : Bool) : List ColumnChange :=
  changesFrom old allowChange none false new.orderedColumns

end Table

end SqlService
