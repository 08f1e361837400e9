import SqlService.Proofs.Condition.Grammar
import SqlService.Proofs.Filter.Parameters

/-!
# The meaning of conditions

A filter means what its condition says.  Both are given a truth value from the truth of their
comparisons, which are numbered from left to right: the filter by its operators, the condition by
the precedence of the keywords.  Parentheses stand around every part that has a joiner next to it,
so the condition has a single reading, whose comparisons are those of the filter.

Main statement: `compile_means`.
-/

namespace SqlService

/-! ## §1 Truth values -/

namespace Condition

mutual

/-- The comparisons of a factor from left to right. -/
def Factor.comparisons : Factor → List Comparison
  | .comparison c => [c]
  | .not f => f.comparisons
  | .group d => d.comparisons

/-- The comparisons of a conjunction from left to right. -/
def Conjunction.comparisons : Conjunction → List Comparison
  | .last f => f.comparisons
  | .and f rest => f.comparisons ++ rest.comparisons

/-- The comparisons of a disjunction from left to right. -/
def Disjunction.comparisons : Disjunction → List Comparison
  | .last c => c.comparisons
  | .or c rest => c.comparisons ++ rest.comparisons

end

mutual

/-- Whether a factor holds, where `truth` decides each comparison by its number and `first` is the
number of the first one. -/
def Factor.holds (truth : Nat → Bool) : Factor → Nat → Bool
  | .comparison _, first => truth first
  | .not f, first => !f.holds truth first
  | .group d, first => d.holds truth first

/-- Whether all factors of a conjunction hold. -/
def Conjunction.holds (truth : Nat → Bool) : Conjunction → Nat → Bool
  | .last f, first => f.holds truth first
  | .and f rest, first =>
    f.holds truth first && rest.holds truth (first + f.comparisons.length)

/-- Whether some conjunction of a disjunction holds. -/
def Disjunction.holds (truth : Nat → Bool) : Disjunction → Nat → Bool
  | .last c, first => c.holds truth first
  | .or c rest, first =>
    c.holds truth first || rest.holds truth (first + c.comparisons.length)

end

/-- The name of a parameter. -/
def Token.parameterName : Token → Option (List Char)
  | parameter name => some name
  | _ => none

/-- The name, the operator and the parameters of a comparison. -/
def Comparison.parts (c : Comparison) : List Char × Token × List (List Char) :=
  (c.name, c.operator, c.operand.filterMap Token.parameterName)

end Condition

namespace Filter

mutual

/-- Whether a filter holds, where `truth` decides each comparison by its number and `first` is the
number of the first one. -/
def holds (truth : Nat → Bool) : Filter → Nat → Bool
  | compare _ _ _, first => truth first
  | logic .and children, first => allHold truth children first
  | logic .or children, first => anyHolds truth children first
  | logic .not children, first => !allHold truth children first

/-- Whether all of several filters hold. -/
def allHold (truth : Nat → Bool) : List Filter → Nat → Bool
  | [], _ => true
  | f :: fs, first => f.holds truth first && allHold truth fs (first + f.leaves.length)

/-- Whether some of several filters hold. -/
def anyHolds (truth : Nat → Bool) : List Filter → Nat → Bool
  | [], _ => false
  | f :: fs, first => f.holds truth first || anyHolds truth fs (first + f.leaves.length)

end

open Condition
open SqlService.Numbering (names)

/-- The operator of a comparison as a token. -/
def operatorToken : CompareOp → Token
  | .contains => .word ['L', 'I', 'K', 'E']
  | .inList => .word ['I', 'N']
  | op => .symbol op.symbol.toList

/-- The name, the operator and the parameters of every comparison of a filter, where the parameters
come after so many others. -/
def parts (stem : String) : List (String × CompareOp × Json) → Nat →
    List (List Char × Token × List (List Char))
  | [], _ => []
  | (name, op, value) :: leaves, before =>
    (name.toList, operatorToken op,
      (names stem before (boundValues op value).length).map String.toList) ::
      parts stem leaves (before + (boundValues op value).length)

theorem parts_append (stem : String) (leaves more : List (String × CompareOp × Json))
    (before : Nat) :
    parts stem (leaves ++ more) before =
      parts stem leaves before ++
        parts stem more
          (before + (leaves.flatMap fun leaf => boundValues leaf.2.1 leaf.2.2).length) := by
  induction leaves generalizing before with
  | nil => rfl
  | cons leaf leaves ih =>
    rw [List.cons_append, parts, parts, ih, List.cons_append, List.flatMap_cons,
      List.length_append, Nat.add_assoc]

theorem length_parts (stem : String) (leaves : List (String × CompareOp × Json)) (before : Nat) :
    (parts stem leaves before).length = leaves.length := by
  fun_induction parts stem leaves before <;> simp_all

/-! ## §2 Comparisons -/

/-- A name that can be read as the column of a comparison. -/
structure IsColumn (anyCase : Bool) (name : String) : Prop where
  word : Text.isWord name = true
  nonempty : name ≠ ""
  noKeyword : ∀ keyword ∈ ["AND", "OR", "NOT"], spells anyCase keyword name.toList = false

instance (anyCase : Bool) (name : String) : Decidable (IsColumn anyCase name) :=
  decidable_of_iff
    (Text.isWord name = true ∧ name ≠ "" ∧
      ∀ keyword ∈ ["AND", "OR", "NOT"], spells anyCase keyword name.toList = false)
    ⟨fun ⟨hword, hne, hkeyword⟩ => ⟨hword, hne, hkeyword⟩,
      fun h => ⟨h.word, h.nonempty, h.noKeyword⟩⟩

variable {backslash anyCase : Bool} {d : Dialect}

/-- The tokens of a list of parameters. -/
def listTokens : List String → List Token
  | [] => []
  | [n] => [.parameter n.toList]
  | n :: ns => .parameter n.toList :: .mark ',' :: listTokens ns

theorem IsColumn.lexes {name : String} (h : IsColumn anyCase name) :
    Lexes backslash anyCase name.toList [.word name.toList] := by
  have hne : name.toList ≠ [] := fun heq => h.nonempty (String.toList_eq_nil_iff.mp heq)
  have htoken : wordToken anyCase name.toList = .word name.toList := by
    simp [wordToken, h.noKeyword]
  rw [← htoken]
  exact .word hne (List.all_eq_true.mp h.word)

theorem list_lexes {ns : List String}
    (hns : ∀ n ∈ ns, ∀ c ∈ n.toList, Text.isWordChar c = true) :
    Lexes backslash anyCase (String.intercalate "," (ns.map d.placeholder)).toList
      (listTokens ns) := by
  -- By induction on the names, with a comma between two of them.
  induction ns with
  | nil =>
    intro rest _
    simp [listTokens]
  | cons n ns ih =>
    have hname : Lexes backslash anyCase (d.placeholder n).toList [.parameter n.toList] := by
      have h : Lexes backslash anyCase ('@' :: n.toList) [.parameter n.toList] :=
        .parameter (hns n List.mem_cons_self)
      simpa [Dialect.placeholder] using h
    have htail := ih fun m hm => hns m (List.mem_cons_of_mem _ hm)
    cases ns with
    | nil => simpa [listTokens] using hname
    | cons m ns =>
      simpa [listTokens] using hname.listed htail

theorem encloses_list (ns : List String) (depth : Nat) (ts : List Token) :
    encloses depth (listTokens ns ++ ts) = encloses depth ts := by
  fun_induction listTokens ns <;> simp_all [encloses, Token.isKeyword]

theorem parameters_list (ns : List String) :
    (listTokens ns).filterMap Token.parameterName = ns.map String.toList := by
  fun_induction listTokens ns <;> simp_all [List.filterMap_cons, Token.parameterName]

theorem listTokens_ne_nil {ns : List String} (h : ns ≠ []) : listTokens ns ≠ [] := by
  fun_cases listTokens ns <;> simp_all

/-- The operand of a pattern: what stands around the parameter is enclosed as well. -/
theorem pattern_lexes (d : Dialect) {text : String} {ts : List Token}
    (h : Lexes backslash anyCase text.toList ts)
    (henclosed : ∀ depth rest, encloses depth (ts ++ rest) = encloses depth rest) :
    ∃ us, Lexes backslash anyCase (d.containsPattern text).toList us ∧ us ≠ [] ∧
      encloses 0 us = true ∧
      us.filterMap Token.parameterName = ts.filterMap Token.parameterName := by
  have hany : Lexes backslash anyCase ['\x27', '%', '\x27'] [.literal ['%', '\x27']] := .anyText
  have hconcat : ∃ us, Lexes backslash anyCase ("CONCAT('%'," ++ text ++ ",'%')").toList us ∧
      us ≠ [] ∧ encloses 0 us = true ∧
      us.filterMap Token.parameterName = ts.filterMap Token.parameterName := by
    have hname : Lexes backslash anyCase ['C', 'O', 'N', 'C', 'A', 'T']
        [wordToken anyCase ['C', 'O', 'N', 'C', 'A', 'T']] :=
      .word (by simp) (by simp [Text.isWordChar])
    have hword : wordToken anyCase ['C', 'O', 'N', 'C', 'A', 'T'] =
        .word ['C', 'O', 'N', 'C', 'A', 'T'] := by
      cases anyCase <;> decide +kernel
    have hinside := (hany.listed (h.listed hany)).enclosed
    have hall := hname.append (break_cons rfl _) (List.cons_ne_nil _ _) hinside
    rw [hword] at hall
    refine ⟨_, by simpa using hall, by simp, ?_, ?_⟩
    · simp [encloses, Token.isKeyword, henclosed]
    · simp [List.filterMap_cons, Token.parameterName]
  -- The dialects either call a function or join with bars.
  have hpipes : ∃ us, Lexes backslash anyCase ("'%' || " ++ text ++ " || '%'").toList us ∧
      us ≠ [] ∧ encloses 0 us = true ∧
      us.filterMap Token.parameterName = ts.filterMap Token.parameterName := by
    have hbars : Lexes backslash anyCase ['|', '|'] [.symbol ['|', '|']] :=
      .symbol (by simp) (by simp [isSign])
    have hall := hany.spaced (hbars.spaced (h.spaced (hbars.spaced hany)))
    refine ⟨_, by simpa using hall, by simp, ?_, ?_⟩
    · simp [encloses, Token.isKeyword, henclosed]
    · simp [List.filterMap_cons, Token.parameterName]
  cases d with
  | mysql => exact hconcat
  | postgres => exact hconcat
  | sqlite => exact hpipes

/-- The text of a comparison is read as one, with the same name and operator. -/
theorem comparison_reads {name : String} (hname : IsColumn anyCase name) (op : CompareOp)
    {ns : List String} (hne : ns ≠ [])
    (hns : ∀ n ∈ ns, ∀ c ∈ n.toList, Text.isWordChar c = true) :
    ∃ c : Comparison,
      Lexes backslash anyCase (comparison d name op (ns.map d.placeholder)).toList c.tokens ∧
        c.parts = (name.toList, operatorToken op, ns.map String.toList) := by
  have hcolumn : Lexes backslash anyCase name.toList [.word name.toList] := hname.lexes
  have hlist : Lexes backslash anyCase (String.intercalate "," (ns.map d.placeholder)).toList
    (listTokens ns) := list_lexes hns
  have henclosed : encloses 0 (listTokens ns) = true := by
    have h := encloses_list ns 0 []
    rwa [List.append_nil] at h
  have hplain : ∀ symbol : String, symbol.toList ≠ [] → (∀ c ∈ symbol.toList, isSign c = true) →
      Lexes backslash anyCase
        (name ++ " " ++ symbol ++ " " ++ String.intercalate "," (ns.map d.placeholder)).toList
        (.word name.toList :: .symbol symbol.toList :: listTokens ns) := by
    intro symbol hsymbol hsigns
    simpa using hcolumn.spaced ((Lexes.symbol hsymbol hsigns).spaced hlist)
  -- A word between the name and the operand is read by the same rule as the name.
  have hnamed : ∀ (w text : List Char) (us : List Token), w ≠ [] →
      (∀ c ∈ w, Text.isWordChar c = true) → wordToken anyCase w = .word w →
      Lexes backslash anyCase text us →
      Lexes backslash anyCase (name.toList ++ ' ' :: (w ++ ' ' :: text))
        (.word name.toList :: .word w :: us) := by
    intro w text us hw hchars htoken htext
    have hword : Lexes backslash anyCase w [.word w] := htoken ▸ Lexes.word hw hchars
    exact hcolumn.spaced (hword.spaced htext)
  -- A list stands in parentheses, a pattern has texts around it, and all others are one parameter.
  cases op with
  | inList =>
    have hall := hnamed ['I', 'N'] _ _ (by simp) (by simp [Text.isWordChar])
      (by cases anyCase <;> decide +kernel) hlist.enclosed
    refine ⟨⟨name.toList, .word ['I', 'N'], .opening :: (listTokens ns ++ [.closing]), rfl, by simp,
      ?_⟩, ?_, ?_⟩
    · rw [encloses, encloses_list]
      rfl
    · simpa [comparison, Comparison.tokens] using hall
    · simp [Comparison.parts, operatorToken, List.filterMap_cons, Token.parameterName,
        parameters_list]
  | contains =>
    obtain ⟨us, hus, hnonempty, hinside, hparameters⟩ := pattern_lexes d hlist (encloses_list ns)
    have hall := hnamed ['L', 'I', 'K', 'E'] _ _ (by simp) (by simp [Text.isWordChar])
      (by cases anyCase <;> decide +kernel) hus
    refine ⟨⟨name.toList, .word ['L', 'I', 'K', 'E'], us, rfl, hnonempty, hinside⟩, ?_, ?_⟩
    · simpa [comparison, Comparison.tokens] using hall
    · rw [Comparison.parts, hparameters, parameters_list]
      rfl
  -- All others are written with signs between the name and a single parameter.
  | _ =>
    refine ⟨⟨name.toList, .symbol _, listTokens ns, rfl, listTokens_ne_nil hne, henclosed⟩,
      hplain _ (by decide) (by simp [CompareOp.symbol, isSign]), ?_⟩
    rw [Comparison.parts, parameters_list]
    rfl

/-! ## §3 Conditions -/

/-- A reading between parentheses is a factor. -/
theorem group_lexes {text : String} {r : Disjunction}
    (h : Lexes backslash anyCase text.toList r.tokens) :
    Lexes backslash anyCase ("(" ++ text ++ ")").toList (Factor.group r).tokens := by
  simpa [Factor.tokens] using h.enclosed

/-- A keyword between two parts joins their tokens. -/
theorem joined_lexes {left right : String} {keyword : List Char} {t : Token} {ts us : List Token}
    (hleft : Lexes backslash anyCase left.toList ts)
    (hkeyword : Lexes backslash anyCase keyword [t])
    (hright : Lexes backslash anyCase right.toList us) :
    Lexes backslash anyCase (left ++ String.ofList (' ' :: (keyword ++ [' '])) ++ right).toList
      (ts ++ t :: us) := by
  simpa using hleft.spaced (hkeyword.spaced hright)

theorem keyword_lexes :
    Lexes backslash anyCase ['A', 'N', 'D'] [.and] ∧ Lexes backslash anyCase ['O', 'R'] [.or] ∧
      Lexes backslash anyCase ['N', 'O', 'T'] [.not] := by
  have hand : wordToken anyCase ['A', 'N', 'D'] = .and := by cases anyCase <;> decide +kernel
  have hor : wordToken anyCase ['O', 'R'] = .or := by cases anyCase <;> decide +kernel
  have hnot : wordToken anyCase ['N', 'O', 'T'] = .not := by cases anyCase <;> decide +kernel
  refine ⟨hand ▸ .word ?_ ?_, hor ▸ .word ?_ ?_, hnot ▸ .word ?_ ?_⟩ <;> simp [Text.isWordChar]

mutual

/-- The condition of a filter has a reading that means the same. -/
theorem condition_reads {stem : String} (hstem : Text.isWord stem = true) (f : Filter)
    (hf : f.wellFormed = true) (hcolumns : ∀ leaf ∈ f.leaves, IsColumn anyCase leaf.1)
    (before : Nat) :
    ∃ r : Disjunction, Lexes backslash anyCase (condition d stem f before).toList r.tokens ∧
      r.comparisons.map Comparison.parts = parts stem f.leaves before ∧
      ∀ truth first, r.holds truth first = f.holds truth first := by
  -- By recursion on the filter: one case for each kind of node that is well formed.
  match f with
  | compare name op value =>
    -- Even a list without members binds one value, so the operand is not empty.
    have hne : Numbering.names stem before (boundValues op value).length ≠ [] := by
      rw [← List.length_pos_iff, Numbering.length_names, List.length_pos_iff]
      cases op <;> simp [boundValues, members, Text.splitChar, Text.split, Text.pieces_ne_nil]
    have hns : ∀ n ∈ Numbering.names stem before (boundValues op value).length,
        ∀ c ∈ n.toList, Text.isWordChar c = true := by
      intro n hn c hc
      obtain ⟨i, -, rfl⟩ := List.mem_map.mp hn
      exact Numbering.isWordChar_of_mem_nameOf hstem hc
    obtain ⟨c, hlexes, hparts⟩ := comparison_reads (hcolumns (name, op, value) (by simp [leaves]))
      op hne hns
    refine ⟨.last (.last (.comparison c)), by rw [condition]; exact hlexes, ?_, fun _ _ => rfl⟩
    simp [Disjunction.comparisons, Conjunction.comparisons, Factor.comparisons, leaves, parts,
      hparts]
  | logic .not [child] =>
    have hchild : child.wellFormed = true := by simpa [wellFormed, allWellFormed] using hf
    obtain ⟨r, hlexes, hparts, hholds⟩ := condition_reads hstem child hchild
      (by simpa [leaves, allLeaves] using hcolumns) before
    refine ⟨.last (.last (.not (.group r))), ?_, ?_, fun truth first => ?_⟩
    · have hall := keyword_lexes.2.2.spaced (group_lexes hlexes)
      simpa [condition, conditions, Disjunction.tokens, Conjunction.tokens, Factor.tokens]
        using hall
    · simpa [Disjunction.comparisons, Conjunction.comparisons, Factor.comparisons, leaves,
        allLeaves] using hparts
    · simp [Disjunction.holds, Conjunction.holds, Factor.holds, holds, allHold, hholds]
  | logic .not [] => simp [wellFormed] at hf
  | logic .not (_ :: _ :: _) => simp [wellFormed] at hf
  | logic .and [] => simp [wellFormed] at hf
  | logic .or [] => simp [wellFormed] at hf
  | logic .and (g :: gs) =>
    obtain ⟨c, hlexes, hparts, hholds⟩ := conjunction_reads hstem g gs
      (by simpa [wellFormed] using hf) (by simpa [leaves] using hcolumns) before
    refine ⟨.last c, ?_, hparts, hholds⟩
    rw [condition]
    · exact hlexes
    · exact fun h => by cases h
  | logic .or (g :: gs) =>
    obtain ⟨r, hlexes, hparts, hholds⟩ := disjunction_reads hstem g gs
      (by simpa [wellFormed] using hf) (by simpa [leaves] using hcolumns) before
    refine ⟨r, ?_, hparts, hholds⟩
    rw [condition]
    · exact hlexes
    · exact fun h => by cases h
termination_by sizeOf f

/-- So does a conjunction, each child of which stands between parentheses. -/
theorem conjunction_reads {stem : String} (hstem : Text.isWord stem = true) (f : Filter)
    (fs : List Filter) (hf : allWellFormed (f :: fs) = true)
    (hcolumns : ∀ leaf ∈ allLeaves (f :: fs), IsColumn anyCase leaf.1) (before : Nat) :
    ∃ c : Conjunction, Lexes backslash anyCase
        (String.intercalate " AND " (conditions d stem (f :: fs) before)).toList c.tokens ∧
      c.comparisons.map Comparison.parts = parts stem (allLeaves (f :: fs)) before ∧
      ∀ truth first, c.holds truth first = allHold truth (f :: fs) first := by
  obtain ⟨hfirst, hrest⟩ := Bool.and_eq_true_iff.mp hf
  obtain ⟨r, hlexes, hparts, hholds⟩ := condition_reads hstem f hfirst
    (fun leaf hleaf => hcolumns leaf (List.mem_append_left _ hleaf)) before
  have hgroup := group_lexes hlexes
  match fs with
  | [] =>
    refine ⟨.last (.group r), ?_, ?_, fun truth first => ?_⟩
    · simpa [conditions, Conjunction.tokens] using hgroup
    · simpa [Conjunction.comparisons, Factor.comparisons, allLeaves] using hparts
    · simp [Conjunction.holds, Factor.holds, allHold, hholds]
  | g :: gs =>
    -- The rest is numbered after the comparisons of the first child.
    obtain ⟨c, hlexes', hparts', hholds'⟩ := conjunction_reads hstem g gs hrest
      (fun leaf hleaf => hcolumns leaf (List.mem_append_right _ hleaf)) (before + f.values.length)
    have hlength : r.comparisons.length = f.leaves.length := by
      simpa [length_parts] using congrArg List.length hparts
    refine ⟨.and (.group r) c, ?_, ?_, fun truth first => ?_⟩
    · have hall := joined_lexes hgroup keyword_lexes.1 hlexes'
      simpa [conditions, Conjunction.tokens] using hall
    · rw [Conjunction.comparisons, Factor.comparisons, List.map_append, hparts, hparts']
      exact (parts_append stem f.leaves (allLeaves (g :: gs)) before).symm
    · rw [Conjunction.holds, Factor.holds, Factor.comparisons, hlength, hholds, hholds']
      rfl
termination_by sizeOf (f :: fs)

/-- So does a disjunction. -/
theorem disjunction_reads {stem : String} (hstem : Text.isWord stem = true) (f : Filter)
    (fs : List Filter) (hf : allWellFormed (f :: fs) = true)
    (hcolumns : ∀ leaf ∈ allLeaves (f :: fs), IsColumn anyCase leaf.1) (before : Nat) :
    ∃ r : Disjunction, Lexes backslash anyCase
        (String.intercalate " OR " (conditions d stem (f :: fs) before)).toList r.tokens ∧
      r.comparisons.map Comparison.parts = parts stem (allLeaves (f :: fs)) before ∧
      ∀ truth first, r.holds truth first = anyHolds truth (f :: fs) first := by
  obtain ⟨hfirst, hrest⟩ := Bool.and_eq_true_iff.mp hf
  obtain ⟨r, hlexes, hparts, hholds⟩ := condition_reads hstem f hfirst
    (fun leaf hleaf => hcolumns leaf (List.mem_append_left _ hleaf)) before
  have hgroup := group_lexes hlexes
  match fs with
  | [] =>
    refine ⟨.last (.last (.group r)), ?_, ?_, fun truth first => ?_⟩
    · simpa [conditions, Disjunction.tokens, Conjunction.tokens] using hgroup
    · simpa [Disjunction.comparisons, Conjunction.comparisons, Factor.comparisons, allLeaves]
        using hparts
    · simp [Disjunction.holds, Conjunction.holds, Factor.holds, anyHolds, hholds]
  | g :: gs =>
    obtain ⟨r', hlexes', hparts', hholds'⟩ := disjunction_reads hstem g gs hrest
      (fun leaf hleaf => hcolumns leaf (List.mem_append_right _ hleaf)) (before + f.values.length)
    have hlength : r.comparisons.length = f.leaves.length := by
      simpa [length_parts] using congrArg List.length hparts
    refine ⟨.or (.last (.group r)) r', ?_, ?_, fun truth first => ?_⟩
    · have hall := joined_lexes hgroup keyword_lexes.2.1 hlexes'
      simpa [conditions, Disjunction.tokens, Conjunction.tokens] using hall
    · rw [Disjunction.comparisons, Conjunction.comparisons, Factor.comparisons, List.map_append,
        hparts, hparts']
      exact (parts_append stem f.leaves (allLeaves (g :: gs)) before).symm
    · rw [Disjunction.holds, Conjunction.holds, Conjunction.comparisons, Factor.holds,
        Factor.comparisons, hlength, hholds, hholds']
      rfl
termination_by sizeOf (f :: fs)

end

/-! ## §4 Compiled filters -/

/-- The condition that a filter compiles to has exactly one reading.  Its comparisons are those of
the filter, from left to right, and under every truth value of these it holds if the filter does. -/
theorem compile_means (backslash anyCase : Bool) (d : Dialect) {stem : String}
    (hstem : Text.isWord stem = true) {f : Filter} (hf : f.wellFormed = true)
    (hcolumns : ∀ leaf ∈ f.leaves, IsColumn anyCase leaf.1) (n : Numbering) :
    ∃ text, (f.compile d stem n).1 = .ok text ∧
      (∃! r : Disjunction, tokens backslash anyCase text.toList = r.tokens) ∧
      ∀ r : Disjunction, tokens backslash anyCase text.toList = r.tokens →
        r.comparisons.map Comparison.parts = parts stem f.leaves n.counter ∧
        ∀ truth first, r.holds truth first = f.holds truth first := by
  -- The reading does not depend on how backslashes are read, as no literal holds one.
  have hexists : ∃ r : Disjunction,
      Lexes backslash anyCase (condition d stem f n.counter).toList r.tokens ∧
        r.comparisons.map Comparison.parts = parts stem f.leaves n.counter ∧
        ∀ truth first, r.holds truth first = f.holds truth first :=
    condition_reads hstem f hf hcolumns n.counter
  obtain ⟨r, hlexes, hparts, hholds⟩ := hexists
  have hreads : tokens backslash anyCase (condition d stem f n.counter).toList = r.tokens :=
    hlexes.tokens_eq
  have hunique : ∀ r' : Disjunction,
      tokens backslash anyCase (condition d stem f n.counter).toList = r'.tokens → r' = r :=
    fun r' h => tokens_injective (h.symm.trans hreads)
  refine ⟨condition d stem f n.counter, ?_, ⟨r, hreads, hunique⟩, fun r' hr' => ?_⟩
  · rw [compile_eq d stem f n hf]
  · obtain rfl := hunique r' hr'
    exact ⟨hparts, hholds⟩


/-- A conjunction over a disjunction and a negation, where one node has a single child. -/
def gifts : Filter :=
  .logic .and
    [.compare "paid" .eq (.bool true),
      .logic .or [.compare "note" .contains (.string "gift"),
        .compare "state" .inList (.string "new,sent")],
      .logic .not [.logic .or [.compare "total" .lte (.string "5")]]]

/-- The condition of the gifts has one reading, with parentheses where the filter branches. -/
theorem gifts_means : ∃ text, (gifts.compile .sqlite "p" {}).1 = .ok text ∧
    (∃! r : Disjunction, tokens false true text.toList = r.tokens) ∧
    ∀ r : Disjunction, tokens false true text.toList = r.tokens → ∀ truth,
      r.holds truth 0 = (truth 0 && ((truth 1 || truth 2) && !truth 3)) := by
  have hstem : Text.isWord "p" = true := by decide
  have hgifts : gifts.wellFormed = true := by decide
  have hcolumns : ∀ leaf ∈ gifts.leaves, IsColumn true leaf.1 := by decide +kernel
  obtain ⟨text, hcompiles, hunique, hmeans⟩ :=
    compile_means false true .sqlite hstem hgifts hcolumns {}
  refine ⟨text, hcompiles, hunique, fun r hr truth => ?_⟩
  rw [(hmeans r hr).2]
  simp [gifts, holds, allHold, anyHolds, leaves, allLeaves]

end Filter

end SqlService
