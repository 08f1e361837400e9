import SqlService.Proofs.Text.Trimming

/-!
# Comma-separated lists

The items of a list are what stands between its commas, trimmed, unless it is empty.  Lists that are
joined with commas have the items of all of them, so texts that are items by themselves are found
again when they have been joined.

Main statements: `items_intercalate` and `items_of_joined`.
-/

namespace SqlService.Text

/-- The items of a list. -/
def items (text : String) : List String :=
  ((splitChar ',' text).map trim).filter (· != "")

/-- The name can stand in a list: it is not empty, no blanks stand at its ends and no comma stands
in it. -/
structure Listable (name : String) : Prop where
  nonempty : name ≠ ""
  trimmed : trim name = name
  unbroken : ',' ∉ name.toList

/-- Joined lists have the items of each of them, in order. -/
theorem items_intercalate (texts : List String) :
    items (String.intercalate "," texts) = texts.flatMap items := by
  cases texts with
  | nil => decide
  | cons text texts =>
    have hsplit : splitChar ',' (String.intercalate "," (text :: texts)) =
        (text :: texts).flatMap (splitChar ',') := splitChar_joined rfl (List.cons_ne_nil text texts)
    unfold items
    rw [hsplit, List.map_flatMap, List.filter_flatMap]

theorem Listable.items_eq {name : String} (h : Listable name) : items name = [name] := by
  rw [items, splitChar_of_unmarked h.unbroken]
  simp [h.trimmed, h.nonempty]

/-- Names that were joined are found in the list. -/
theorem items_of_joined {names : List String} (h : ∀ name ∈ names, Listable name) :
    items (String.intercalate "," names) = names := by
  rw [items_intercalate, List.flatMap_def,
    List.map_congr_left fun name hname => (h name hname).items_eq, ← List.flatMap_def]
  exact List.flatMap_singleton' names

end SqlService.Text
