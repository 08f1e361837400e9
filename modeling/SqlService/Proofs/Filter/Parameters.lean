import SqlService.Proofs.Filter.Condition
import SqlService.Proofs.Statement.LiveNames

/-!
# Generated parameters

The parameters that a filter generates have distinct names, each of them a word, and hold the values
of the filter in order.  Whatever the filter, its condition mentions them in the same order and
nothing else.

Main statements: `condition_mentions` and `params_bindMany`.
-/

namespace SqlService

open Statement (Mentions inert Seam)

/-- Whether a text is made of the characters of a bare word. -/
def Text.isWord (s : String) : Bool := s.toList.all Text.isWordChar

/-! ## §1 Names and values -/

namespace Numbering

theorem isWordChar_of_mem_nameOf {stem : String} (hstem : Text.isWord stem = true) {number : Nat}
    {c : Char} (h : c ∈ (nameOf stem number).toList) : Text.isWordChar c = true := by
  rw [nameOf, String.toList_append, List.mem_append] at h
  rcases h with h | h
  · exact List.all_eq_true.mp hstem c h
  · exact Statement.isWordChar_of_mem_toString h

theorem nameOf_ne_empty (stem : String) (number : Nat) : (nameOf stem number).toList ≠ [] := by
  intro h
  have hlength : (toString number).toList = [] := by
    rw [nameOf, String.toList_append] at h
    exact (List.append_eq_nil_iff.mp h).2
  simp at hlength

theorem nameOf_inj {stem : String} {m n : Nat} (h : nameOf stem m = nameOf stem n) : m = n :=
  Statement.toString_injective ((String.append_right_inj stem).mp h)

theorem nodup_names (stem : String) (before count : Nat) : (names stem before count).Nodup :=
  List.Pairwise.map _ (fun _ _ hne heq => hne (nameOf_inj heq)) List.nodup_range'

theorem length_names (stem : String) (before count : Nat) :
    (names stem before count).length = count := by
  simp [names]

/-- Binding to new names adds the values at the end. -/
theorem params_bindMany {n : Numbering} {stem : String} (values : List Json)
    (hnew : ∀ name ∈ names stem n.counter values.length, name ∉ n.params.names) :
    (n.bindMany stem values).params.entries =
      n.params.entries ++ (names stem n.counter values.length).zip values := by
  induction values generalizing n with
  | nil => simp [bindMany]
  | cons v values ih =>
    rw [List.length_cons, names_succ] at hnew
    obtain ⟨hfirst, hrest⟩ := List.forall_mem_cons.mp hnew
    have hbind : (n.bind stem v).params.entries =
        n.params.entries ++ [(nameOf stem (n.counter + 1), v)] :=
      Entries.put_of_not_mem hfirst
    have hdistinct := nodup_names stem n.counter (values.length + 1)
    rw [names_succ, List.nodup_cons] at hdistinct
    -- The name that was bound is not one of those that come after it.
    have hstill : ∀ name ∈ names stem (n.bind stem v).counter values.length,
        name ∉ (n.bind stem v).params.names := by
      intro name hname hmem
      rw [Dictionary.names, hbind, Entries.names, List.map_append, List.mem_append] at hmem
      rcases hmem with hmem | hmem
      · exact hrest name hname hmem
      · obtain rfl : name = nameOf stem (n.counter + 1) := List.mem_singleton.mp hmem
        exact hdistinct.1 hname
    have htail := ih hstill
    rw [bindMany, List.foldl_cons]
    rw [bindMany] at htail
    rw [htail, hbind, List.length_cons, names_succ, List.zip_cons_cons, List.append_assoc]
    rfl

theorem entries_bindMany (stem : String) (values : List Json) :
    (bindMany {} stem values).params.entries = (names stem 0 values.length).zip values :=
  params_bindMany values fun _ _ => List.not_mem_nil

/-- The parameters of a fresh numbering are the names in order. -/
theorem names_bindMany (stem : String) (values : List Json) :
    (bindMany {} stem values).params.names = names stem 0 values.length := by
  rw [Dictionary.names, entries_bindMany, Entries.names]
  exact List.map_fst_zip (by rw [length_names])

/-- Read in order, the parameters of a fresh numbering hold the values. -/
theorem values_bindMany (stem : String) (values : List Json) :
    (names stem 0 values.length).filterMap (bindMany {} stem values).params.get? = values := by
  -- Each name has the value that stands beside it.
  have hzip : ∀ (ns : List String) (vs : List Json) (g : String → Option Json),
      ns.length = vs.length → (∀ p ∈ ns.zip vs, g p.1 = some p.2) → ns.filterMap g = vs := by
    intro ns vs g
    induction ns generalizing vs with
    | nil =>
      intro hlength _
      exact (List.length_eq_zero_iff.mp hlength.symm).symm
    | cons n ns ih =>
      intro hlength hg
      cases vs with
      | nil => cases hlength
      | cons v vs =>
        have hfirst := hg (n, v) List.mem_cons_self
        rw [List.filterMap_cons, hfirst]
        simp only
        rw [ih vs (Nat.succ.inj hlength) fun p hp => hg p (List.mem_cons_of_mem _ hp)]
  refine hzip _ _ _ (length_names _ _ _) fun p hp => Dictionary.get?_eq_some_iff.mpr ?_
  rw [entries_bindMany]
  exact hp

end Numbering

/-! ## §2 Names in the condition -/

namespace Filter

open SqlService.Numbering (names nameOf)

variable {backslash : Bool} {d : Dialect}

/-- A list of parameters mentions their names. -/
theorem parameters_mention {ns : List String}
    (hns : ∀ n ∈ ns, n.toList ≠ [] ∧ ∀ c ∈ n.toList, Text.isWordChar c = true) :
    Mentions backslash (String.intercalate "," (ns.map d.placeholder)).toList ns :=
  .joined (fun n hn => .placeholder d (hns n hn).1 (hns n hn).2) (by decide) (by simp [inert])

/-- A literal mentions nothing. -/
theorem literal_mentions : Mentions backslash ['\x27', '%', '\x27'] [] := by
  have hclosed : Statement.closed backslash ['\x27', '%', '\x27'] = true := by
    simp [Statement.closed, Statement.ends, Statement.quotedEnds, Statement.next,
      Statement.region, Statement.quoted]
  have hnames : Statement.liveNames backslash ['\x27', '%', '\x27'] = [] := by
    simp [Statement.liveNames, Statement.pieces, Statement.next, Statement.region,
      Statement.quoted, Statement.Piece.name?]
  exact hnames ▸ Mentions.of_closed hclosed

/-- The pattern of a parameter mentions its names and nothing else. -/
theorem containsPattern_mentions (d : Dialect) {text : String} {ns : List String}
    (h : Mentions backslash text.toList ns) :
    Mentions backslash (d.containsPattern text).toList ns := by
  have hliteral : Mentions backslash ['\x27', '%', '\x27'] [] := literal_mentions
  -- The pattern is put together from texts and marks that mention nothing.
  have hconcat : Mentions backslash ("CONCAT('%'," ++ text ++ ",'%')").toList ns := by
    have hcomma : ∀ e ∈ [','], inert e = true := by simp [inert]
    have hname : ∀ e ∈ ['C', 'O', 'N', 'C', 'A', 'T'], inert e = true := by simp [inert]
    have hparameter := hliteral.append (Statement.seam_cons (by decide) _) (h.prepend hcomma)
    have hlast := hparameter.append (Statement.seam_cons (by decide) _) (hliteral.prepend hcomma)
    simpa using hlast.enclosed.prepend hname
  have hpipes : Mentions backslash ("'%' || " ++ text ++ " || '%'").toList ns := by
    have hbars : ∀ e ∈ [' ', '|', '|', ' '], inert e = true := by simp [inert]
    have hparameter := hliteral.append (Statement.seam_cons (by decide) _) (h.prepend hbars)
    have hall := hparameter.append (Statement.seam_cons (by decide) _) (hliteral.prepend hbars)
    simpa using hall
  cases d with
  | mysql => exact hconcat
  | postgres => exact hconcat
  | sqlite => exact hpipes

/-- A comparison mentions the names of its parameters. -/
theorem comparison_mentions {name : String} (hname : Text.isWord name = true) (op : CompareOp)
    {ns : List String}
    (hns : ∀ n ∈ ns, n.toList ≠ [] ∧ ∀ c ∈ n.toList, Text.isWordChar c = true) :
    Mentions backslash (comparison d name op (ns.map d.placeholder)).toList ns := by
  have hparameters : Mentions backslash (String.intercalate "," (ns.map d.placeholder)).toList ns :=
    parameters_mention hns
  have hcolumn : ∀ c ∈ name.toList, inert c = true := fun c hc =>
    Statement.inert_of_isWordChar (List.all_eq_true.mp hname c hc)
  -- Column, operator and parameters with blanks between them.
  have hplain : ∀ symbol : String, (∀ c ∈ symbol.toList, inert c = true) →
      Mentions backslash (name ++ " " ++ symbol ++ " " ++
        String.intercalate "," (ns.map d.placeholder)).toList ns := by
    intro symbol hsymbol
    have hblank : ∀ e ∈ [' '], inert e = true := by simp [inert]
    have hall := (((hparameters.prepend hblank).prepend hsymbol).prepend hblank).prepend hcolumn
    simpa using hall
  unfold comparison
  split
  · have hword : ∀ e ∈ [' ', 'I', 'N', ' '], inert e = true := by simp [inert]
    have hall := (hparameters.enclosed.prepend hword).prepend hcolumn
    simpa using hall
  · have hlike : ∀ e ∈ [' ', 'L', 'I', 'K', 'E', ' '], inert e = true := by simp [inert]
    have hall := ((containsPattern_mentions d hparameters).prepend hlike).prepend hcolumn
    simpa using hall
  · exact hplain _ (by cases op <;> simp [CompareOp.symbol, inert])

mutual

/-- The condition of a filter mentions its parameters in order. -/
theorem condition_mentions {stem : String} (hstem : Text.isWord stem = true) (f : Filter)
    (hcolumns : ∀ leaf ∈ f.leaves, Text.isWord leaf.1 = true) (before : Nat) :
    Mentions backslash (condition d stem f before).toList
      (names stem before f.values.length) := by
  -- By recursion on the filter; the names of the children follow each other.
  match f with
  | compare name op value =>
    rw [condition, values_compare]
    apply comparison_mentions (hcolumns (name, op, value) (by simp [leaves])) op
    intro n hn
    obtain ⟨i, -, rfl⟩ := List.mem_map.mp hn
    exact ⟨Numbering.nameOf_ne_empty stem i, fun c hc =>
      Numbering.isWordChar_of_mem_nameOf hstem hc⟩
  | logic .not children =>
    have hchildren := conditions_mention hstem children (by simpa [leaves] using hcolumns) before
      "" (by simp) (Statement.seam_cons (by decide) [])
    have hnot : ∀ e ∈ ['N', 'O', 'T', ' '], inert e = true := by simp [inert]
    rw [condition, values_logic]
    simpa using hchildren.prepend hnot
  | logic .and children =>
    rw [condition, values_logic]
    · exact conditions_mention hstem children (by simpa [leaves] using hcolumns) before " AND "
        (by simp [inert]) (Statement.seam_cons (by decide) _)
    · exact fun h => by cases h
  | logic .or children =>
    rw [condition, values_logic]
    · exact conditions_mention hstem children (by simpa [leaves] using hcolumns) before " OR "
        (by simp [inert]) (Statement.seam_cons (by decide) _)
    · exact fun h => by cases h

/-- So do the conditions of several filters with a joiner in between. -/
theorem conditions_mention {stem : String} (hstem : Text.isWord stem = true) (fs : List Filter)
    (hcolumns : ∀ leaf ∈ allLeaves fs, Text.isWord leaf.1 = true) (before : Nat) (joiner : String)
    (hjoiner : ∀ c ∈ joiner.toList, inert c = true) (hseam : Seam (joiner.toList ++ ['('])) :
    Mentions backslash (String.intercalate joiner (conditions d stem fs before)).toList
      (names stem before (allValues fs).length) := by
  match fs with
  | [] =>
    rw [conditions, String.intercalate_nil]
    exact .inert (by simp)
  | f :: fs =>
    rw [allLeaves] at hcolumns
    have hfirst := condition_mentions hstem f
      (fun leaf hleaf => hcolumns leaf (List.mem_append_left _ hleaf)) before
    have hrest := conditions_mention hstem fs
      (fun leaf hleaf => hcolumns leaf (List.mem_append_right _ hleaf)) (before + f.values.length)
      joiner hjoiner hseam
    have hpart : Mentions backslash ("(" ++ condition d stem f before ++ ")").toList
        (names stem before f.values.length) := by
      simpa using hfirst.enclosed
    rw [allValues_cons, List.length_append, Numbering.names_add, conditions]
    cases fs with
    | nil =>
      rw [conditions, String.intercalate_singleton]
      simpa [allValues, allLeaves, Numbering.names] using hpart
    | cons g fs =>
      rw [conditions] at hrest ⊢
      rw [String.intercalate_cons_cons, String.toList_append, String.toList_append,
        List.append_assoc]
      refine hpart.append ?_ (hrest.prepend hjoiner)
      -- The next condition starts with a parenthesis.
      rw [String.append_assoc, String.intercalate_cons_append, String.toList_append]
      exact hseam.extend

end

end Filter

end SqlService
