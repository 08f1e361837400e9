import SqlService.Filter.Clause

/-!
# The condition of a filter

A well-formed filter always compiles, and its condition depends on the numbering only through the
number of its first parameter.  `Filter.condition` gives the text as a function of that number, and
`Filter.values` what is bound to the parameters.

Main statement: `compile_eq`.
-/

namespace SqlService

namespace Numbering

/-- The names of the next parameters after so many. -/
def names (stem : String) (before count : Nat) : List String :=
  (List.range' (before + 1) count).map (nameOf stem)

/-- The numbering with several values bound one after another. -/
def bindMany (n : Numbering) (stem : String) (values : List Json) : Numbering :=
  values.foldl (fun n v => n.bind stem v) n

theorem names_succ (stem : String) (before count : Nat) :
    names stem before (count + 1) =
      nameOf stem (before + 1) :: names stem (before + 1) count := by
  rw [names, List.range'_succ]
  rfl

theorem names_add (stem : String) (before first rest : Nat) :
    names stem before (first + rest) =
      names stem before first ++ names stem (before + first) rest := by
  simp only [names, ← List.map_append]
  rw [show before + first + 1 = before + 1 + 1 * first by omega, List.range'_append]

theorem bindMany_append (n : Numbering) (stem : String) (values more : List Json) :
    n.bindMany stem (values ++ more) = (n.bindMany stem values).bindMany stem more :=
  List.foldl_append

theorem counter_bindMany (n : Numbering) (stem : String) (values : List Json) :
    (n.bindMany stem values).counter = n.counter + values.length := by
  induction values generalizing n with
  | nil => rfl
  | cons v values ih =>
    have htail := ih (n.bind stem v)
    rw [bindMany, List.foldl_cons, List.length_cons]
    rw [bindMany] at htail
    rw [htail, show (n.bind stem v).counter = n.counter + 1 from rfl]
    omega

end Numbering

namespace Filter

open SqlService.Numbering (names)

/-- The values that a filter binds, from left to right. -/
def values (f : Filter) : List Json := f.leaves.flatMap fun leaf => boundValues leaf.2.1 leaf.2.2

/-- The values that several filters bind, from left to right. -/
def allValues (fs : List Filter) : List Json :=
  (allLeaves fs).flatMap fun leaf => boundValues leaf.2.1 leaf.2.2

theorem values_compare (name : String) (op : CompareOp) (value : Json) :
    (compare name op value).values = boundValues op value := by
  simp [values, leaves]

theorem values_logic (op : LogicOp) (children : List Filter) :
    (logic op children).values = allValues children := by
  simp [values, allValues, leaves]

theorem allValues_cons (f : Filter) (fs : List Filter) :
    allValues (f :: fs) = f.values ++ allValues fs := by
  simp [allValues, values, allLeaves]

theorem bindAll_eq (d : Dialect) (stem : String) (vs : List Json) (n : Numbering) :
    bindAll d stem vs n =
      ((names stem n.counter vs.length).map d.placeholder, n.bindMany stem vs) := by
  induction vs generalizing n with
  | nil => rfl
  | cons v vs ih =>
    rw [bindAll, ih, List.length_cons, Numbering.names_succ]
    rfl

mutual

/-- The condition of a filter whose parameters come after so many others. -/
def condition (d : Dialect) (stem : String) : Filter → Nat → String
  | compare name op value, before =>
    comparison d name op
      ((names stem before (boundValues op value).length).map d.placeholder)
  | logic .not children, before =>
    "NOT " ++ String.intercalate "" (conditions d stem children before)
  | logic op children, before => String.intercalate (joiner op) (conditions d stem children before)

/-- The conditions of several filters, each between parentheses. -/
def conditions (d : Dialect) (stem : String) : List Filter → Nat → List String
  | [], _ => []
  | f :: fs, before =>
    ("(" ++ condition d stem f before ++ ")") :: conditions d stem fs (before + f.values.length)

end

mutual

/-- A well-formed filter compiles to its condition and binds its values. -/
theorem compile_eq (d : Dialect) (stem : String) (f : Filter) (n : Numbering)
    (hf : f.wellFormed = true) :
    f.compile d stem n = (.ok (f.condition d stem n.counter), n.bindMany stem f.values) := by
  match f with
  | compare name op value =>
    rw [compile, condition, values_compare, bindAll_eq]
  | logic .not [child] =>
    have hchild : child.wellFormed = true := by simpa [wellFormed, allWellFormed] using hf
    rw [compile, compile_eq d stem child n hchild, condition, values_logic, allValues_cons]
    have hempty : allValues [] = [] := rfl
    have htext : "NOT (" ++ condition d stem child n.counter ++ ")" =
        "NOT " ++ ("(" ++ condition d stem child n.counter ++ ")") := by
      apply String.toList_inj.mp
      simp
    simp only [conditions, hempty, List.append_nil, String.intercalate_singleton, htext]
  | logic .not [] => simp [wellFormed] at hf
  | logic .not (_ :: _ :: _) => simp [wellFormed] at hf
  | logic .and [] => simp [wellFormed] at hf
  | logic .or [] => simp [wellFormed] at hf
  | logic .and (child :: children) =>
    have hchildren : allWellFormed (child :: children) = true := by simpa [wellFormed] using hf
    rw [compile, compileAll_eq d stem _ n hchildren, condition, values_logic]
    all_goals exact fun h => by cases h
  | logic .or (child :: children) =>
    have hchildren : allWellFormed (child :: children) = true := by simpa [wellFormed] using hf
    rw [compile, compileAll_eq d stem _ n hchildren, condition, values_logic]
    all_goals exact fun h => by cases h

theorem compileAll_eq (d : Dialect) (stem : String) (fs : List Filter) (n : Numbering)
    (hf : allWellFormed fs = true) :
    compileAll d stem fs n =
      (.ok (conditions d stem fs n.counter), n.bindMany stem (allValues fs)) := by
  match fs with
  | [] => rfl
  | f :: fs =>
    obtain ⟨hfirst, hrest⟩ := Bool.and_eq_true_iff.mp hf
    rw [compileAll, compile_eq d stem f n hfirst]
    simp only
    rw [compileAll_eq d stem fs _ hrest, allValues_cons, Numbering.bindMany_append,
      Numbering.counter_bindMany]
    rfl

end

end Filter

end SqlService
