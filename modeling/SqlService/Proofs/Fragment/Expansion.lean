import Mathlib.Logic.Relation
import SqlService.Fragment.Expansion

/-!
# Expansion without memory

`expansion` is what an item expands to if nothing is remembered.  An item that can be expanded is
not reached from itself by references, which is why it has the same expanded text whatever is under
expansion around it.

Main statements: `not_reaches_self` and `expansion_under`.
-/

namespace SqlService.Fragment

/-! ## §1 Expansion -/

mutual

/-- What the item of a name expands to, where the items on the stack are under expansion. -/
def expansion (items : Dictionary Item) (stack : List String) (name : String) :
    Except DataError String :=
  if hn : name ∈ stack then .error (.fragmentCycle (stack ++ [name]))
  else
    match hi : items.get? name with
    | none => .error (.unknownItem name)
    | some item =>
      have _smaller := unopened_lt hi hn
      expansionAll items (stack ++ [name]) (Segment.segments item.text.toList)
termination_by (unopened items stack, 0)
decreasing_by
  exact Prod.Lex.left _ _ _smaller

/-- What the parts of a template expand to. -/
def expansionAll (items : Dictionary Item) (stack : List String) :
    List Segment → Except DataError String
  | [] => .ok ""
  | .literal text :: rest => do
    let after ← expansionAll items stack rest
    return String.ofList text ++ after
  | .reference name :: rest => do
    let inner ← expansion items stack name
    let after ← expansionAll items stack rest
    return inner ++ after
termination_by segments => (unopened items stack, segments.length)
decreasing_by
  all_goals exact Prod.Lex.right _ (by simp)

end

variable {items : Dictionary Item} {stack : List String} {name : String} {text : String}

theorem expansion_cycle (h : name ∈ stack) :
    expansion items stack name = .error (.fragmentCycle (stack ++ [name])) := by
  rw [expansion, dif_pos h]

theorem expansion_unknown (h : name ∉ stack) (hi : items.get? name = none) :
    expansion items stack name = .error (.unknownItem name) := by
  rw [expansion, dif_neg h]
  split
  · rfl
  · next heq => simp [hi] at heq

theorem expansion_item (h : name ∉ stack) {item : Item} (hi : items.get? name = some item) :
    expansion items stack name =
      expansionAll items (stack ++ [name]) (Segment.segments item.text.toList) := by
  rw [expansion, dif_neg h]
  split
  · next heq => simp [hi] at heq
  · next item' heq =>
    rw [hi] at heq
    cases heq
    rfl

/-- What expands is an item that is not under expansion, and all of its text expands. -/
theorem item_of_expansion (h : expansion items stack name = .ok text) :
    name ∉ stack ∧ ∃ item, items.get? name = some item ∧
      expansionAll items (stack ++ [name]) (Segment.segments item.text.toList) = .ok text := by
  -- The other two ways in which an expansion can go end in an error.
  by_cases hn : name ∈ stack
  · rw [expansion_cycle hn] at h
    cases h
  · cases hi : items.get? name with
    | none =>
      rw [expansion_unknown hn hi] at h
      cases h
    | some item =>
      rw [expansion_item hn hi] at h
      exact ⟨hn, item, rfl, h⟩

/-- Where a template expands, its references do. -/
theorem expansion_of_mem {segments : List Segment}
    (h : expansionAll items stack segments = .ok text) {other : String}
    (hmem : .reference other ∈ segments) : ∃ inner, expansion items stack other = .ok inner := by
  induction segments generalizing text with
  | nil => cases hmem
  | cons s rest ih =>
    -- All parts in front of a reference expand, and so do all behind it.
    cases s with
    | literal cs =>
      rw [expansionAll] at h
      cases hrest : expansionAll items stack rest with
      | error e =>
        rw [hrest] at h
        cases h
      | ok after =>
        rcases List.mem_cons.mp hmem with heq | hmem
        · cases heq
        · exact ih hrest hmem
    | reference other' =>
      rw [expansionAll] at h
      cases hinner : expansion items stack other' with
      | error e =>
        rw [hinner] at h
        cases h
      | ok inner =>
        cases hrest : expansionAll items stack rest with
        | error e =>
          rw [hinner, hrest] at h
          cases h
        | ok after =>
          rcases List.mem_cons.mp hmem with heq | hmem
          · cases heq
            exact ⟨inner, hinner⟩
          · exact ih hrest hmem

/-- A template expands in the same way where its references do. -/
theorem expansionAll_congr {items' : Dictionary Item} {stack' : List String}
    {segments : List Segment}
    (h : ∀ other, .reference other ∈ segments →
      expansion items stack other = expansion items' stack' other) :
    expansionAll items stack segments = expansionAll items' stack' segments := by
  induction segments with
  | nil => rw [expansionAll, expansionAll]
  | cons s rest ih =>
    have hrest := ih fun other hmem => h other (List.mem_cons_of_mem _ hmem)
    -- Only a reference looks at the items and at what is under expansion.
    cases s with
    | literal cs => rw [expansionAll, expansionAll, hrest]
    | reference other => rw [expansionAll, expansionAll, hrest, h other List.mem_cons_self]

/-- Expansion looks items up by their names only. -/
theorem expansion_congr {items' : Dictionary Item} (h : ∀ n, items.get? n = items'.get? n)
    (stack : List String) (name : String) :
    expansion items stack name = expansion items' stack name := by
  -- The three ways of an expansion depend on the stack and on what is found under the name.
  by_cases hn : name ∈ stack
  · rw [expansion_cycle hn, expansion_cycle hn]
  · cases hi : items.get? name with
    | none => rw [expansion_unknown hn hi, expansion_unknown hn (by rw [← h, hi])]
    | some item =>
      have _smaller := unopened_lt hi hn
      rw [expansion_item hn hi, expansion_item hn (by rw [← h, hi])]
      exact expansionAll_congr fun other _ => expansion_congr h (stack ++ [name]) other
termination_by unopened items stack

/-! ## §2 References -/

/-- The text of the one item refers to the other. -/
def Refers (items : Dictionary Item) (name other : String) : Prop :=
  ∃ item, items.get? name = some item ∧
    .reference other ∈ Segment.segments item.text.toList

/-- There is a way from the one item to the other over one or more references. -/
abbrev Reaches (items : Dictionary Item) : String → String → Prop :=
  Relation.TransGen (Refers items)

/-- What leads to an item and the item itself lead to what it refers to. -/
theorem reaches_of_refers {other : String} (hstack : ∀ m ∈ stack, Reaches items m name)
    (href : Refers items name other) : ∀ m ∈ stack ++ [name], Reaches items m other := by
  intro m hm
  rcases List.mem_append.mp hm with hm | hm
  · exact (hstack m hm).tail href
  · rw [List.mem_singleton.mp hm]
    exact .single href

/-- Where an item expands, those that it refers to do under it. -/
theorem expansion_of_refers (h : expansion items stack name = .ok text) {other : String}
    (href : Refers items name other) :
    ∃ inner, expansion items (stack ++ [name]) other = .ok inner := by
  obtain ⟨-, item, hitem, hall⟩ := item_of_expansion h
  obtain ⟨item', hitem', hmem⟩ := href
  rw [hitem] at hitem'
  cases hitem'
  exact expansion_of_mem hall hmem

/-- An item that expands reaches nothing that is under expansion. -/
theorem not_mem_of_reaches {other : String} (hreach : Reaches items name other)
    (h : expansion items stack name = .ok text) : other ∉ stack ∧ other ≠ name := by
  -- Each reference on the way is expanded under one item more.
  induction hreach using Relation.TransGen.head_induction_on generalizing stack text with
  | single href =>
    obtain ⟨inner, hinner⟩ := expansion_of_refers h href
    simpa using (item_of_expansion hinner).1
  | head href _ ih =>
    obtain ⟨inner, hinner⟩ := expansion_of_refers h href
    simpa using (ih hinner).1

/-- An item that expands is not on a loop of references. -/
theorem not_reaches_self (h : expansion items stack name = .ok text) : ¬ Reaches items name name :=
  fun hreach => (not_mem_of_reaches hreach h).2 rfl

/-! ## §3 What is under expansion -/

/-- An item that expands under some items expands in the same way under all that lead to it. -/
theorem expansion_under {stack stack' : List String} {name text : String}
    (h : expansion items stack name = .ok text) (hstack' : ∀ m ∈ stack', Reaches items m name) :
    expansion items stack' name = .ok text := by
  obtain ⟨hn, item, hitem, hall⟩ := item_of_expansion h
  -- An item under expansion that leads to itself would not have expanded.
  have hn' : name ∉ stack' := fun hmem => not_reaches_self h (hstack' name hmem)
  have _smaller := unopened_lt hitem hn
  have hsame : ∀ other, .reference other ∈ Segment.segments item.text.toList →
      expansion items (stack' ++ [name]) other = expansion items (stack ++ [name]) other := by
    intro other hmem
    obtain ⟨inner, hinner⟩ := expansion_of_mem hall hmem
    rw [hinner]
    exact expansion_under hinner (reaches_of_refers hstack' ⟨item, hitem, hmem⟩)
  rw [expansion_item hn' hitem, expansionAll_congr hsame, hall]
termination_by unopened items stack

end SqlService.Fragment
