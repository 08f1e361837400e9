import SqlService.Proofs.Filter.Parameters
import SqlService.Proofs.Filter.Alike

/-!
# How parameters are numbered

A filter is compiled node by node, each before its children and these from left to right.  Up to the
first node that breaks a structural rule every comparison binds its values to the next numbers, and
there it ends.  What is bound and which fault is found are the same in every dialect.

Main statement: `compile_numbers`.
-/

namespace SqlService

namespace Filter

open SqlService.Numbering (names nameOf)

/-! ## §1 Nodes -/

mutual

/-- The nodes of a filter, each before its children. -/
def nodes : Filter → List Filter
  | compare name op value => [compare name op value]
  | logic op children => logic op children :: allNodes children

/-- The nodes of several filters, from left to right. -/
def allNodes : List Filter → List Filter
  | [] => []
  | f :: fs => nodes f ++ allNodes fs

end

/-- The structural rule that a node breaks, whatever its children are. -/
def fault? : Filter → Option FilterFault
  | compare _ _ _ => none
  | logic .not [_] => none
  | logic .not children => some (.negationArity children.length)
  | logic op [] => some (.noChildren op)
  | logic _ (_ :: _) => none

/-- The values that a node binds apart from its children. -/
def ownValues : Filter → List Json
  | compare _ op value => boundValues op value
  | logic _ _ => []

/-- The values that are bound before the first of the nodes that breaks a rule. -/
def reached (fs : List Filter) : List Json :=
  (fs.takeWhile fun f => f.fault?.isNone).flatMap ownValues

/-- The fault of the first of the nodes that breaks a rule. -/
def verdict (fs : List Filter) : Except DataError Unit :=
  match fs.findSome? fault? with
  | none => .ok ()
  | some fault => .error (.invalidFilter fault)

/-- Nodes of which none breaks a rule pass. -/
theorem verdict_eq_ok_iff {fs : List Filter} :
    verdict fs = .ok () ↔ ∀ f ∈ fs, f.fault? = none := by
  rw [verdict, ← List.findSome?_eq_none_iff]
  cases fs.findSome? fault? <;> simp

/-- A fault is that of the first node that breaks a rule. -/
theorem verdict_eq_error_iff {fs : List Filter} {e : DataError} :
    verdict fs = .error e ↔ ∃ before f after fault, fs = before ++ f :: after ∧
      (∀ g ∈ before, g.fault? = none) ∧ f.fault? = some fault ∧ e = .invalidFilter fault := by
  rw [verdict]
  constructor
  · intro h
    cases hfault : fs.findSome? fault? with
    | none =>
      rw [hfault] at h
      cases h
    | some fault =>
      rw [hfault] at h
      obtain ⟨before, f, after, hsplit, hf, hbefore⟩ := List.findSome?_eq_some_iff.mp hfault
      exact ⟨before, f, after, fault, hsplit, hbefore, hf, (Except.error.inj h).symm⟩
  · rintro ⟨before, f, after, fault, hsplit, hbefore, hf, rfl⟩
    rw [List.findSome?_eq_some_iff.mpr ⟨before, f, after, hsplit, hf, hbefore⟩]

/-- A node that breaks no rule leaves the verdict to those behind it. -/
theorem verdict_cons_of_none {f : Filter} (hf : f.fault? = none) (fs : List Filter) :
    verdict (f :: fs) = verdict fs := by
  rw [verdict, verdict, List.findSome?_cons, hf]

theorem verdict_append_of_ok {fs : List Filter} (h : verdict fs = .ok ()) (gs : List Filter) :
    verdict (fs ++ gs) = verdict gs := by
  have hnone := List.findSome?_eq_none_iff.mpr (verdict_eq_ok_iff.mp h)
  rw [verdict, verdict, List.findSome?_append, hnone, Option.none_or]

/-- A fault is found before what follows it is looked at. -/
theorem verdict_append_of_error {fs : List Filter} {e : DataError} (h : verdict fs = .error e)
    (gs : List Filter) : verdict (fs ++ gs) = .error e := by
  obtain ⟨before, f, after, fault, rfl, hbefore, hf, rfl⟩ := verdict_eq_error_iff.mp h
  exact verdict_eq_error_iff.mpr ⟨before, f, after ++ gs, fault, by simp, hbefore, hf, rfl⟩

/-- Nodes that break no rule are all reached. -/
theorem reached_append_of_none {fs : List Filter} (h : ∀ f ∈ fs, f.fault? = none)
    (gs : List Filter) : reached (fs ++ gs) = fs.flatMap ownValues ++ reached gs := by
  rw [reached, List.takeWhile_append_of_pos fun f hf => by rw [h f hf]; rfl, List.flatMap_append]
  rfl

theorem reached_of_none {fs : List Filter} (h : ∀ f ∈ fs, f.fault? = none) :
    reached fs = fs.flatMap ownValues := by
  have happend := reached_append_of_none h []
  rwa [List.append_nil, show reached [] = [] from rfl, List.append_nil] at happend

/-- Behind the first fault nothing is reached. -/
theorem reached_append_cons {before : List Filter} (h : ∀ f ∈ before, f.fault? = none)
    {f : Filter} {fault : FilterFault} (hf : f.fault? = some fault) (after : List Filter) :
    reached (before ++ f :: after) = before.flatMap ownValues := by
  rw [reached_append_of_none h, reached, List.takeWhile_cons, hf]
  exact List.append_nil _

theorem reached_append_of_error {fs : List Filter} {e : DataError} (h : verdict fs = .error e)
    (gs : List Filter) : reached (fs ++ gs) = reached fs := by
  obtain ⟨before, f, after, fault, rfl, hbefore, hf, -⟩ := verdict_eq_error_iff.mp h
  rw [List.append_assoc, List.cons_append, reached_append_cons hbefore hf,
    reached_append_cons hbefore hf]

mutual

/-- A filter is well formed if none of its nodes breaks a rule. -/
theorem wellFormed_iff (f : Filter) : f.wellFormed = true ↔ verdict f.nodes = .ok () := by
  -- The cases are those of the check itself: a negation of one child, any other one, and the
  -- joining operators with and without children.
  match f with
  | compare name op value => simp [wellFormed, verdict_eq_ok_iff, nodes, fault?]
  | logic .not [child] =>
    rw [nodes, verdict_cons_of_none rfl, ← allWellFormed_iff]
    simp [wellFormed]
  | logic .not [] => simp [wellFormed, verdict_eq_ok_iff, nodes, fault?]
  | logic .not (_ :: _ :: _) => simp [wellFormed, verdict_eq_ok_iff, nodes, fault?]
  | logic .and [] => simp [wellFormed, verdict_eq_ok_iff, nodes, fault?]
  | logic .or [] => simp [wellFormed, verdict_eq_ok_iff, nodes, fault?]
  | logic .and (child :: children) =>
    rw [nodes, verdict_cons_of_none rfl, ← allWellFormed_iff]
    simp [wellFormed]
  | logic .or (child :: children) =>
    rw [nodes, verdict_cons_of_none rfl, ← allWellFormed_iff]
    simp [wellFormed]

/-- Several filters are well formed if none of their nodes breaks a rule. -/
theorem allWellFormed_iff (fs : List Filter) :
    allWellFormed fs = true ↔ verdict (allNodes fs) = .ok () := by
  match fs with
  | [] => simp [allWellFormed, verdict_eq_ok_iff, allNodes]
  | f :: fs =>
    rw [allWellFormed, Bool.and_eq_true_iff, wellFormed_iff f, allWellFormed_iff fs, allNodes,
      verdict_eq_ok_iff, verdict_eq_ok_iff, verdict_eq_ok_iff, List.forall_mem_append]

end

mutual

/-- The values of a filter are those of its nodes. -/
theorem values_nodes (f : Filter) : f.nodes.flatMap ownValues = f.values := by
  match f with
  | compare name op value => simp [nodes, ownValues, values_compare]
  | logic op children =>
    rw [nodes, List.flatMap_cons, allValues_nodes children, values_logic]
    rfl

theorem allValues_nodes (fs : List Filter) : (allNodes fs).flatMap ownValues = allValues fs := by
  match fs with
  | [] => rfl
  | f :: fs =>
    rw [allNodes, List.flatMap_append, values_nodes f, allValues_nodes fs, allValues_cons]

end

/-! ## §2 Compilation -/

/-- A change of the value leaves an error as it is. -/
theorem map_eq_error_iff {α β : Type} {g : α → β} {r : Except DataError α} {e : DataError} :
    r.map g = .error e ↔ r = .error e := by
  cases r <;> simp [Except.map]

variable (d : Dialect) (stem : String)

mutual

/-- Compiling a filter ends at the first node that breaks a rule, and until then every comparison
binds its values. -/
theorem compile_reaches (f : Filter) (n : Numbering) :
    (f.compile d stem n).1.map (fun _ => ()) = verdict f.nodes ∧
      (f.compile d stem n).2 = n.bindMany stem (reached f.nodes) := by
  -- A node that breaks no rule is compiled by compiling its children.
  have hinner : ∀ (op : LogicOp) (child : Filter) (children : List Filter),
      (logic op (child :: children)).fault? = none →
      verdict (logic op (child :: children)).nodes = verdict (allNodes (child :: children)) ∧
        reached (logic op (child :: children)).nodes = reached (allNodes (child :: children)) := by
    intro op child children hop
    rw [nodes]
    refine ⟨verdict_cons_of_none hop _, ?_⟩
    have hsingle : ∀ f ∈ [logic op (child :: children)], f.fault? = none := by simpa using hop
    exact reached_append_of_none hsingle _
  -- By the recursion of the compiler.
  match f with
  | compare name op value =>
    rw [compile, bindAll_eq]
    exact ⟨rfl, by simp [nodes, reached, fault?, ownValues]⟩
  | logic .not [child] =>
    obtain ⟨hok, hnumbering⟩ := compile_reaches child n
    obtain ⟨hverdict, hreached⟩ := hinner .not child [] rfl
    rw [hverdict, hreached, compile]
    simp only [allNodes, List.append_nil]
    -- What is put around the child changes neither its outcome nor its numbering.
    rw [← hok, ← hnumbering]
    cases compile d stem child n with
    | mk r n1 => cases r <;> exact ⟨rfl, rfl⟩
  -- The nodes that break a rule end the compilation at once.
  | logic .not [] => exact ⟨rfl, rfl⟩
  | logic .not (_ :: _ :: _) => exact ⟨rfl, rfl⟩
  | logic .and [] => exact ⟨rfl, rfl⟩
  | logic .or [] => exact ⟨rfl, rfl⟩
  | logic .and (child :: children) =>
    obtain ⟨hok, hnumbering⟩ := compileAll_reaches (child :: children) n
    obtain ⟨hverdict, hreached⟩ := hinner .and child children rfl
    rw [hverdict, hreached, compile_joined d stem (by decide), ← hok, ← hnumbering]
    cases (compileAll d stem (child :: children) n).1 <;> exact ⟨rfl, rfl⟩
  | logic .or (child :: children) =>
    obtain ⟨hok, hnumbering⟩ := compileAll_reaches (child :: children) n
    obtain ⟨hverdict, hreached⟩ := hinner .or child children rfl
    rw [hverdict, hreached, compile_joined d stem (by decide), ← hok, ← hnumbering]
    cases (compileAll d stem (child :: children) n).1 <;> exact ⟨rfl, rfl⟩

/-- The same of several filters, which are compiled from left to right up to the first fault. -/
theorem compileAll_reaches (fs : List Filter) (n : Numbering) :
    (compileAll d stem fs n).1.map (fun _ => ()) = verdict (allNodes fs) ∧
      (compileAll d stem fs n).2 = n.bindMany stem (reached (allNodes fs)) := by
  match fs with
  | [] => exact ⟨rfl, rfl⟩
  | f :: fs =>
    obtain ⟨hok, hnumbering⟩ := compile_reaches f n
    rw [compileAll, allNodes]
    cases hf : compile d stem f n with
    | mk r n1 =>
      rw [hf] at hok hnumbering
      cases r with
      -- The fault lies in the first filter, so nothing behind it is reached.
      | error e =>
        have herror : verdict f.nodes = .error e := hok.symm
        rw [verdict_append_of_error herror, reached_append_of_error herror]
        exact ⟨rfl, hnumbering⟩
      -- The first filter is reached as a whole, and the rest starts where it has ended.
      | ok sql =>
        have hsound : verdict f.nodes = .ok () := hok.symm
        obtain ⟨hrest, hmore⟩ := compileAll_reaches fs n1
        rw [verdict_append_of_ok hsound, reached_append_of_none (verdict_eq_ok_iff.mp hsound),
          Numbering.bindMany_append, ← reached_of_none (verdict_eq_ok_iff.mp hsound), ← hnumbering,
          ← hrest, ← hmore]
        simp only
        cases compileAll d stem fs n1 with
        | mk r n2 => cases r <;> exact ⟨rfl, rfl⟩

end

/-! ## §3 Placeholders -/

/-- The generated names that a text mentions behind an `@`, from left to right, and the text without
these mentions.  A name is the stem with all the digits that follow it. -/
def placeholders (stem : String) : List Char → List String × List Char
  | [] => ([], [])
  | c :: cs =>
    let digits := (cs.drop stem.length).takeWhile Char.isDigit
    if c = '@' ∧ stem.toList <+: cs ∧ digits ≠ [] then
      let rest := placeholders stem ((cs.drop stem.length).dropWhile Char.isDigit)
      ((stem ++ String.ofList digits) :: rest.1, rest.2)
    else
      let rest := placeholders stem cs
      (rest.1, c :: rest.2)
termination_by cs => cs.length
decreasing_by
  · have hdigits := (List.dropWhile_sublist (l := cs.drop stem.length) Char.isDigit).length_le
    rw [List.length_drop] at hdigits
    simp only [List.length_cons]
    omega
  · exact Nat.lt_succ_self _

/-- Any character but the mark is other text. -/
theorem placeholders_cons_of_ne {c : Char} (hc : c ≠ '@') (cs : List Char) :
    placeholders stem (c :: cs) = ((placeholders stem cs).1, c :: (placeholders stem cs).2) := by
  rw [placeholders, if_neg fun h => hc h.1]

/-- Text without the mark mentions nothing. -/
theorem placeholders_append_of_plain {cs : List Char} (hcs : '@' ∉ cs) (rest : List Char) :
    placeholders stem (cs ++ rest) =
      ((placeholders stem rest).1, cs ++ (placeholders stem rest).2) := by
  induction cs with
  | nil => rfl
  | cons c cs ih =>
    obtain ⟨hc, hcs⟩ := not_or.mp (mt List.mem_cons.mpr hcs)
    rw [List.cons_append, placeholders_cons_of_ne stem (Ne.symm hc), ih hcs]
    rfl

/-- The text does not start with a digit. -/
def Separate (cs : List Char) : Prop := ∀ c ∈ cs.head?, c.isDigit = false

/-- What starts with no digit keeps doing so when more follows. -/
theorem Separate.append {cs rest : List Char} (hcs : Separate cs) (hrest : Separate rest) :
    Separate (cs ++ rest) := by
  cases cs with
  | nil => exact hrest
  | cons c cs => exact hcs

theorem separate_cons {c : Char} (hc : c.isDigit = false) (cs : List Char) :
    Separate (c :: cs) := by
  intro e he
  obtain rfl : c = e := Option.some.inj he
  exact hc

/-- A placeholder is read up to its last digit. -/
theorem placeholders_placeholder (number : Nat) {rest : List Char} (hrest : Separate rest) :
    placeholders stem ('@' :: (nameOf stem number).toList ++ rest) =
      (nameOf stem number :: (placeholders stem rest).1, (placeholders stem rest).2) := by
  -- The digits of the number are all there is of the name behind the stem.
  have hdigits : ∀ c ∈ (toString number).toList, c.isDigit = true := fun c hc =>
    Nat.isDigit_of_mem_toDigits (b := 10) (by decide) (by decide) (by simpa using hc)
  have hsome : (toString number).toList ≠ [] := by simp
  have hdrop : ((nameOf stem number).toList ++ rest).drop stem.length =
      (toString number).toList ++ rest := by
    rw [nameOf, String.toList_append, List.append_assoc, ← String.length_toList, List.drop_left]
  -- What stands behind goes on with no digit, so the digits end where the number does.
  have hend : rest.takeWhile Char.isDigit = [] ∧ rest.dropWhile Char.isDigit = rest := by
    cases rest with
    | nil => exact ⟨rfl, rfl⟩
    | cons c rest =>
      have hc := hrest c rfl
      exact ⟨List.takeWhile_cons_of_neg (by simp [hc]), List.dropWhile_cons_of_neg (by simp [hc])⟩
  have htake : (((nameOf stem number).toList ++ rest).drop stem.length).takeWhile Char.isDigit =
      (toString number).toList := by
    rw [hdrop, List.takeWhile_append_of_pos hdigits, hend.1, List.append_nil]
  have hleft : (((nameOf stem number).toList ++ rest).drop stem.length).dropWhile Char.isDigit =
      rest := by
    rw [hdrop, List.dropWhile_append_of_pos hdigits, hend.2]
  have hprefix : stem.toList <+: (nameOf stem number).toList ++ rest := by
    rw [nameOf, String.toList_append, List.append_assoc]
    exact List.prefix_append _ _
  -- The mark, the stem and at least one digit: the text is read as a placeholder.
  rw [List.cons_append, placeholders, if_pos ⟨rfl, hprefix, by rwa [htake]⟩]
  simp only [htake, hleft, String.ofList_toList]
  rfl

/-- Read in front of anything but a digit, the text mentions the names and nothing else behind
an `@`. -/
def Shows (cs : List Char) (ns : List String) : Prop :=
  ∃ other, '@' ∉ other ∧ ∀ rest, Separate rest →
    placeholders stem (cs ++ rest) =
      (ns ++ (placeholders stem rest).1, other ++ (placeholders stem rest).2)

namespace Shows

variable {stem} {cs ds : List Char} {ms ns : List String}

/-- Text without the mark shows nothing. -/
theorem plain (hcs : '@' ∉ cs) : Shows stem cs [] :=
  ⟨cs, hcs, fun rest _ => placeholders_append_of_plain stem hcs rest⟩

/-- Texts that meet where no number goes on show the names of both, in order. -/
theorem append (hcs : Shows stem cs ms) (hds : Shows stem ds ns) (hseparate : Separate ds) :
    Shows stem (cs ++ ds) (ms ++ ns) := by
  obtain ⟨other, hother, hread⟩ := hcs
  obtain ⟨more, hmore, hrest⟩ := hds
  refine ⟨other ++ more, by simp [hother, hmore], fun rest h => ?_⟩
  rw [List.append_assoc, hread _ (hseparate.append h), hrest rest h, List.append_assoc,
    List.append_assoc]

/-- Plain text in front changes nothing. -/
theorem prepend (hds : Shows stem ds ns) (cs : List Char) (hcs : '@' ∉ cs) :
    Shows stem (cs ++ ds) ns := by
  obtain ⟨other, hother, hread⟩ := hds
  refine ⟨cs ++ other, by simp [hcs, hother], fun rest h => ?_⟩
  rw [List.append_assoc, placeholders_append_of_plain stem hcs, hread rest h, List.append_assoc]

/-- Plain text behind changes nothing, unless it goes on with digits. -/
theorem followed (hcs : Shows stem cs ns) (ds : List Char) (hseparate : Separate ds)
    (hds : '@' ∉ ds) : Shows stem (cs ++ ds) ns := by
  simpa using hcs.append (.plain hds) hseparate

/-- A placeholder shows its name. -/
theorem placeholder (number : Nat) :
    Shows stem ('@' :: (nameOf stem number).toList) [nameOf stem number] :=
  ⟨[], List.not_mem_nil, fun _ h => placeholders_placeholder stem number h⟩

/-- A text on its own is read whole. -/
theorem read (h : Shows stem cs ns) :
    (placeholders stem cs).1 = ns ∧ '@' ∉ (placeholders stem cs).2 := by
  obtain ⟨other, hother, hread⟩ := h
  have hall := hread [] (fun c hc => by cases hc)
  rw [List.append_nil, placeholders, List.append_nil, List.append_nil] at hall
  rw [hall]
  exact ⟨rfl, hother⟩

end Shows

/-- Parameters between commas show their names in order. -/
theorem parameters_show (before count : Nat) :
    Shows stem (String.intercalate "," ((names stem before count).map d.placeholder)).toList
      (names stem before count) := by
  induction count generalizing before with
  | zero => exact .plain (by simp [names])
  | succ count ih =>
    have hfirst : Shows stem (d.placeholder (nameOf stem (before + 1))).toList
        [nameOf stem (before + 1)] := by
      have hone : Shows stem ('@' :: (nameOf stem (before + 1)).toList) _ := .placeholder _
      simpa [Dialect.placeholder] using hone
    rw [Numbering.names_succ, List.map_cons]
    cases count with
    | zero => simpa [names] using hfirst
    | succ count =>
      -- The comma ends the number in front of it.
      have hrest := ih (before + 1)
      rw [Numbering.names_succ, List.map_cons] at hrest ⊢
      rw [String.intercalate_cons_cons, String.toList_append, String.toList_append,
        List.append_assoc]
      exact hfirst.append (hrest.prepend ",".toList (by simp)) (separate_cons (by decide) _)

/-- A pattern around a text shows what the text shows, in every dialect. -/
theorem containsPattern_shows {text : String} {ns : List String} (h : Shows stem text.toList ns) :
    Shows stem (d.containsPattern text).toList ns := by
  have hconcat : Shows stem ("CONCAT('%'," ++ text ++ ",'%')").toList ns := by
    have hall := (h.followed ",'%')".toList (separate_cons (by decide) _) (by simp)).prepend
      "CONCAT('%',".toList (by simp)
    simpa using hall
  have hpipes : Shows stem ("'%' || " ++ text ++ " || '%'").toList ns := by
    have hall := (h.followed " || '%'".toList (separate_cons (by decide) _) (by simp)).prepend
      "'%' || ".toList (by simp)
    simpa using hall
  cases d with
  | mysql => exact hconcat
  | postgres => exact hconcat
  | sqlite => exact hpipes

/-- A comparison shows its parameters, if its column has no mark. -/
theorem comparison_shows {name : String} (hname : '@' ∉ name.toList) (op : CompareOp)
    (before count : Nat) :
    Shows stem (comparison d name op ((names stem before count).map d.placeholder)).toList
      (names stem before count) := by
  have hparameters := parameters_show d stem before count
  have hplain : ∀ symbol : String, '@' ∉ symbol.toList →
      Shows stem (name ++ " " ++ symbol ++ " " ++
        String.intercalate "," ((names stem before count).map d.placeholder)).toList
        (names stem before count) := by
    intro symbol hsymbol
    have hall := hparameters.prepend (name ++ " " ++ symbol ++ " ").toList
      (by simp [hname, hsymbol])
    simpa using hall
  unfold comparison
  -- A list in brackets, a pattern, or a symbol: the parameters are the same in all three.
  split
  · have hall := (hparameters.followed ")".toList (separate_cons (by decide) _) (by simp)).prepend
      (name ++ " IN (").toList (by simp [hname])
    simpa using hall
  · have hall := (containsPattern_shows d stem hparameters).prepend
      (name ++ " LIKE ").toList (by simp [hname])
    simpa using hall
  · exact hplain _ (by cases op <;> simp [CompareOp.symbol])

mutual

/-- The condition of a filter shows its parameters in order. -/
theorem condition_shows (f : Filter) (hcolumns : ∀ leaf ∈ f.leaves, '@' ∉ leaf.1.toList)
    (before : Nat) :
    Shows stem (condition d stem f before).toList (names stem before f.values.length) := by
  match f with
  | compare name op value =>
    rw [condition, values_compare]
    exact comparison_shows d stem (hcolumns (name, op, value) (by simp [leaves])) op before _
  -- A negation is written as its single child in brackets, which is the joined text without a
  -- joiner.
  | logic .not children =>
    have hchildren := conditions_show children (by simpa [leaves] using hcolumns) before ""
      (by simp)
    rw [condition, values_logic]
    simpa using hchildren.prepend "NOT ".toList (by simp)
  | logic .and children =>
    rw [condition, values_logic]
    · exact conditions_show children (by simpa [leaves] using hcolumns) before " AND " (by simp)
    · exact fun h => by cases h
  | logic .or children =>
    rw [condition, values_logic]
    · exact conditions_show children (by simpa [leaves] using hcolumns) before " OR " (by simp)
    · exact fun h => by cases h

/-- So do the conditions of several filters with a joiner in between. -/
theorem conditions_show (fs : List Filter) (hcolumns : ∀ leaf ∈ allLeaves fs, '@' ∉ leaf.1.toList)
    (before : Nat) (joiner : String) (hjoiner : '@' ∉ joiner.toList) :
    Shows stem (String.intercalate joiner (conditions d stem fs before)).toList
      (names stem before (allValues fs).length) := by
  match fs with
  | [] =>
    rw [conditions, String.intercalate_nil]
    exact .plain (by simp)
  | f :: fs =>
    rw [allLeaves] at hcolumns
    have hfirst := condition_shows f
      (fun leaf hleaf => hcolumns leaf (List.mem_append_left _ hleaf)) before
    have hrest := conditions_show fs
      (fun leaf hleaf => hcolumns leaf (List.mem_append_right _ hleaf)) (before + f.values.length)
      joiner hjoiner
    -- Each condition stands in brackets, and these end its last number.
    have hopened := hfirst.prepend "(".toList (by simp)
    rw [allValues_cons, List.length_append, Numbering.names_add, conditions]
    cases fs with
    | nil =>
      rw [conditions, String.intercalate_singleton]
      simpa [allValues, allLeaves, names] using
        hopened.followed ")".toList (separate_cons (by decide) _) (by simp)
    | cons g fs =>
      rw [conditions] at hrest ⊢
      rw [String.intercalate_cons_cons]
      have hbehind := hrest.prepend (")".toList ++ joiner.toList) (by simp [hjoiner])
      have hall := hopened.append hbehind (separate_cons (by decide) _)
      -- The joiner and the next bracket stand between two conditions; both are plain.
      simpa only [String.toList_append, List.append_assoc] using hall

end

/-! ## §4 Numbering -/

/-- The members of a list are what stands between the commas of its text. -/
theorem members_cut (value : Json) :
    String.intercalate "," (members value) = listText value ∧
      ∀ member ∈ members value, ',' ∉ member.toList := by
  constructor
  · apply String.toList_inj.mp
    have hruns : ∀ runs : List (List Char), (runs.map String.ofList).map String.toList = runs := by
      simp
    rw [String.toList_intercalate, members, Text.splitChar, Text.split, hruns]
    exact Text.join_pieces ',' _
  · intro member hmember
    obtain ⟨run, hrun, rfl⟩ := List.mem_map.mp hmember
    rw [String.toList_ofList]
    exact fun hcomma => by simpa using Text.not_mark_of_mem_pieces hrun hcomma

/-- The counter is a word of the machine, and the numbers up to its greatest value suffice for so many
more parameters. -/
def Fits (n : Numbering) (count : Nat) : Prop := n.counter + count < UInt64.size

instance (n : Numbering) (count : Nat) : Decidable (Fits n count) :=
  inferInstanceAs (Decidable (_ < _))

/-- The numbering has bound the values to the next names, behind the parameters that there were, and
its counter is still a word. -/
structure Bound (n : Numbering) (vs : List Json) (n' : Numbering) : Prop where
  counter : n'.counter = n.counter + vs.length
  counter_lt : n'.counter < UInt64.size
  params : (∀ name ∈ names stem n.counter vs.length, name ∉ n.params.names) →
    n'.params.entries = n.params.entries ++ (names stem n.counter vs.length).zip vs

/-- Binding values that there are numbers for keeps the counter a word. -/
theorem bound_bindMany {n : Numbering} {vs : List Json} (hfits : Fits n vs.length) :
    Bound stem n vs (n.bindMany stem vs) where
  counter := Numbering.counter_bindMany n stem vs
  counter_lt := by
    rw [Numbering.counter_bindMany]
    exact hfits
  params := Numbering.params_bindMany vs

/-- From any counter that leaves a number for each value that is reached, which is each value of a
filter that is well formed.  The members of a list are cut out at every comma.  A well-formed filter
compiles, binds its values in order and shows their names once each, in order.  Any other is refused
for the first node that breaks a rule, when the values of the nodes before it have been bound.  The
dialect plays no part in this. -/
theorem compile_numbers (f : Filter) (n : Numbering) (hfits : Fits n (reached f.nodes).length) :
    (∀ value, String.intercalate "," (members value) = listText value ∧
      ∀ member ∈ members value, ',' ∉ member.toList) ∧
    (f.WellFormed →
      (∃ text, (f.compile d stem n).1 = .ok text ∧
        ((∀ leaf ∈ f.leaves, '@' ∉ leaf.1.toList) →
          (placeholders stem text.toList).1 = names stem n.counter f.values.length ∧
            '@' ∉ (placeholders stem text.toList).2)) ∧
      (names stem n.counter f.values.length).Nodup ∧
      Bound stem n f.values (f.compile d stem n).2) ∧
    (¬ f.WellFormed → ∃ before node after fault, f.nodes = before ++ node :: after ∧
      (∀ sound ∈ before, sound.fault? = none) ∧ node.fault? = some fault ∧
      (f.compile d stem n).1 = .error (.invalidFilter fault) ∧
      Bound stem n (before.flatMap ownValues) (f.compile d stem n).2) ∧
    ∀ d' : Dialect, (f.compile d' stem n).2 = (f.compile d stem n).2 ∧
      ∀ e, (f.compile d' stem n).1 = .error e ↔ (f.compile d stem n).1 = .error e := by
  obtain ⟨hverdict, hstate⟩ := compile_reaches d stem f n
  refine ⟨members_cut, fun hf => ?_, fun hf => ?_, fun d' => ?_⟩
  · -- Of a well-formed filter every value is reached.
    have hreached : reached f.nodes = f.values := by
      rw [reached_of_none (verdict_eq_ok_iff.mp ((wellFormed_iff f).mp hf)), values_nodes]
    rw [hreached] at hfits
    rw [compile_eq d stem f n hf]
    exact ⟨⟨_, rfl, fun hcolumns => (condition_shows d stem f hcolumns n.counter).read⟩,
      Numbering.nodup_names _ _ _, bound_bindMany stem hfits⟩
  -- One that is not well formed has a first node that breaks a rule, and that is what is reported.
  · cases hresult : verdict f.nodes with
    | ok => exact absurd ((wellFormed_iff f).mpr hresult) hf
    | error e =>
      obtain ⟨before, node, after, fault, hnodes, hbefore, hnode, rfl⟩ :=
        verdict_eq_error_iff.mp hresult
      refine ⟨before, node, after, fault, hnodes, hbefore, hnode, ?_, ?_⟩
      · rw [hresult] at hverdict
        exact map_eq_error_iff.mp hverdict
      · have hreached : reached f.nodes = before.flatMap ownValues := by
          rw [hnodes, reached_append_cons hbefore hnode]
        rw [hstate, hreached]
        exact bound_bindMany stem (hreached ▸ hfits)
  -- Verdict and values do not mention the dialect, and they decide the rest.
  · obtain ⟨hverdict', hstate'⟩ := compile_reaches d' stem f n
    refine ⟨by rw [hstate', hstate], fun e => ?_⟩
    rw [← map_eq_error_iff, hverdict', ← hverdict, map_eq_error_iff]

/-- A filter of three levels with a list in it. -/
def overdue : Filter :=
  logic .and [compare "due" .lt (.string "2024-05-01"),
    logic .not [logic .or [compare "state" .inList (.string "paid,sent"),
      compare "note" .contains .null]]]

/-- The same, but the list is missing. -/
def overdueEmpty : Filter :=
  logic .and [compare "due" .lt (.string "2024-05-01"), logic .not [logic .or []],
    compare "note" .contains .null]

/-- The counter has four numbers left. -/
def numbered : Numbering := ⟨18446744073709551611, ∅⟩

theorem compile_numbers_overdue :
    (∃ text, (overdue.compile .sqlite "P" numbered).1 = .ok text ∧
      (placeholders "P" text.toList).1 = ["P18446744073709551612", "P18446744073709551613",
        "P18446744073709551614", "P18446744073709551615"]) ∧
    (overdue.compile .sqlite "P" numbered).2.params.entries =
      [("P18446744073709551612", .string "2024-05-01"), ("P18446744073709551613", .string "paid"),
        ("P18446744073709551614", .string "sent"), ("P18446744073709551615", .null)] ∧
    (overdueEmpty.compile .sqlite "P" numbered).1 = .error (.invalidFilter (.noChildren .or)) ∧
    (overdueEmpty.compile .sqlite "P" numbered).2.counter = 18446744073709551612 ∧
    (overdueEmpty.compile .mysql "P" numbered).2 =
      (overdueEmpty.compile .sqlite "P" numbered).2 := by
  obtain ⟨-, hcompiles, -, -⟩ := compile_numbers .sqlite "P" overdue numbered (by decide)
  obtain ⟨⟨text, htext, hshows⟩, -, hbound⟩ := hcompiles (by decide)
  obtain ⟨-, -, hrefused, halike⟩ := compile_numbers .sqlite "P" overdueEmpty numbered (by decide)
  obtain ⟨before, node, after, fault, hnodes, hbefore, hnode, herror, hstopped⟩ :=
    hrefused (by decide)
  have hfault : Except.error (.invalidFilter fault) = verdict overdueEmpty.nodes :=
    (verdict_eq_error_iff.mpr ⟨before, node, after, fault, hnodes, hbefore, hnode, rfl⟩).symm
  have hvalues : before.flatMap ownValues = reached overdueEmpty.nodes := by
    rw [hnodes, reached_append_cons hbefore hnode]
  refine ⟨⟨text, htext, (hshows (by decide)).1⟩, hbound.params fun _ _ => List.not_mem_nil, ?_, ?_,
    (halike .mysql).1⟩
  · rw [herror]
    exact congrArg Except.error (Except.error.inj hfault)
  · rw [hstopped.counter, hvalues]
    rfl

end Filter

end SqlService
