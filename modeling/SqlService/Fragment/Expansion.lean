import SqlService.Fragment.Item
import SqlService.Fragment.Template
import SqlService.Effect.Offline

/-!
# Expanding SQL items

An item's text is expanded by putting the expanded text of the referenced items in place of the
references, which is remembered per item.  Expansion fails at the first reference, from left to
right and depth first, that names no item or an item under expansion.  It ends because the items
under expansion are distinct.
-/

namespace SqlService

namespace Fragment

/-! ## §1 Memory -/

/-- The expanded text of an item, if it is remembered. -/
def remembered (name : String) : Attempt DataError (Option String) :=
  ExceptT.lift (Program.request (.remembered name))

/-- Remembers the expanded text of an item. -/
def remember (name text : String) : Attempt DataError Unit :=
  ExceptT.lift (Program.request (.remember name text))

/-! ## §2 Expansion -/

/-- The number of items that are not under expansion. -/
def unopened (items : Dictionary Item) (stack : List String) : Nat :=
  (items.names.filter fun n => !stack.contains n).length

theorem unopened_lt {items : Dictionary Item} {stack : List String} {name : String} {item : Item}
    (hi : items.get? name = some item) (hn : name ∉ stack) :
    unopened items (stack ++ [name]) < unopened items stack := by
  have hmem : name ∈ items.names := by
    rw [← Dictionary.contains_iff, Dictionary.contains, hi]
    rfl
  have hsplit : (items.names.filter fun n => !(stack ++ [name]).contains n) =
      (items.names.filter fun n => !stack.contains n).filter fun n => n != name := by
    rw [List.filter_filter]
    apply List.filter_congr
    intro n _
    by_cases h : n = name <;> simp [h]
  unfold unopened
  rw [hsplit]
  have : name ∈ items.names.filter fun n => !stack.contains n := by
    simp [hmem, hn]
  refine Nat.lt_of_le_of_ne (List.length_filter_le _ _) fun hc => ?_
  have h := List.length_filter_eq_length_iff.mp hc name this
  simp at h

mutual

/-- The expanded text of the item of a name, where the items on the stack are under expansion,
innermost last. -/
def expand (items : Dictionary Item) (stack : List String) (name : String) :
    Attempt DataError String := do
  match ← remembered name with
  | some text => return text
  | none =>
    -- What is remembered has no loop in it, so memory comes before the check for loops.
    if hn : name ∈ stack then throw (.fragmentCycle (stack ++ [name]))
    else
      match hi : items.get? name with
      | none => throw (.unknownItem name)
      | some item =>
        have _smaller := unopened_lt hi hn
        let text ← expandAll items (stack ++ [name]) (Segment.segments item.text.toList)
        -- Only a complete expansion is remembered; a failure leaves nothing behind.
        remember name text
        return text
termination_by (unopened items stack, 0)
decreasing_by
  exact Prod.Lex.left _ _ _smaller

/-- The expanded text of the parts of a template. -/
def expandAll (items : Dictionary Item) (stack : List String) :
    List Segment → Attempt DataError String
  | [] => return ""
  | .literal text :: rest => do
    let after ← expandAll items stack rest
    return String.ofList text ++ after
  | .reference name :: rest => do
    let inner ← expand items stack name
    let after ← expandAll items stack rest
    return inner ++ after
termination_by segments => (unopened items stack, segments.length)
decreasing_by
  all_goals exact Prod.Lex.right _ (by simp)

end

end Fragment

/-! ## §3 Item stores -/

/-- Items by name, with the expanded texts that are remembered. -/
structure ItemStore where
  items : Dictionary Item := ∅
  memory : Dictionary String := ∅

namespace ItemStore

/-- The store with an item added or replaced; nothing stays remembered. -/
def add (s : ItemStore) (i : Item) : ItemStore := ⟨s.items.insert i.name i, ∅⟩

/-- The item of a name. -/
def item (s : ItemStore) (name : String) : Except DataError Item := Item.named s.items name

/-- The expanded text of the item of a name, and the store that remembers what was expanded. -/
def resolve (s : ItemStore) (name : String) : Except DataError String × ItemStore :=
  let r := Program.run Offline.respond (Fragment.expand s.items [] name).run { memory := s.memory }
  (r.1, { s with memory := r.2.memory })

end ItemStore

end SqlService
