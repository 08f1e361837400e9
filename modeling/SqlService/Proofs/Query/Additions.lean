import SqlService.Proofs.Query.Sending
import SqlService.Proofs.Statement.LineComments

/-!
# What a query adds to its base

A filter is put behind the base on a new line, or the base is enclosed and the filter follows on its
last line; a count encloses the filtered statement once more.  On a new line nothing is left open by
the base.  On the last line of the base a comment may be open, which then takes up the parenthesis
that closes the base and the whole condition, so that no parameter of the filter is bound.

Main statement: `additions_bound`.
-/

namespace SqlService

open Statement (Mentions Piece inert liveNames pieces settled)

/-! ## §1 Texts in one line -/

/-- The text has no end of a line. -/
def Text.OneLine (text : String) : Prop := '\n' ∉ text.toList

namespace Text.OneLine

variable {text more : String}

/-- Two texts in one line, one behind the other. -/
theorem append (h : OneLine text) (hmore : OneLine more) : OneLine (text ++ more) := by
  simpa [OneLine] using And.intro h hmore

/-- Texts in one line, joined in the line. -/
theorem joined {joiner : String} {texts : List String} (hjoiner : OneLine joiner)
    (h : ∀ text ∈ texts, OneLine text) : OneLine (String.intercalate joiner texts) := fun hline =>
  forall_mem_intercalate (P := (· ≠ '\n')) (fun _ hc heq => hjoiner (heq ▸ hc))
    (fun text htext _ hc heq => h text htext (heq ▸ hc)) '\n' hline rfl

/-- A word is in one line. -/
theorem of_isWord (h : Text.isWord text = true) : OneLine text := fun hline =>
  absurd (List.all_eq_true.mp h _ hline) (by decide)

end Text.OneLine

namespace Filter

open Text (OneLine)

variable (d : Dialect) {stem : String}

/-- The parameters of a comparison stand in one line. -/
theorem parameters_oneLine (hstem : Text.isWord stem = true) (before count : Nat) :
    OneLine (String.intercalate "," ((Numbering.names stem before count).map d.placeholder)) := by
  refine .joined (by simp [OneLine]) fun text htext => ?_
  obtain ⟨name, hname, rfl⟩ := List.mem_map.mp htext
  obtain ⟨number, -, rfl⟩ := List.mem_map.mp hname
  have hword : Text.isWord (Numbering.nameOf stem number) = true :=
    List.all_eq_true.mpr fun c hc => Numbering.isWordChar_of_mem_nameOf hstem hc
  exact OneLine.append (by simp [OneLine]) (.of_isWord hword)

/-- A pattern around a text stays in its line. -/
theorem containsPattern_oneLine {text : String} (h : OneLine text) :
    OneLine (d.containsPattern text) := by
  cases d <;> simpa [Dialect.containsPattern, OneLine] using h

/-- A comparison stands in one line with its column and its parameters. -/
theorem comparison_oneLine {name : String} (hname : Text.isWord name = true) (op : CompareOp)
    {parameters : List String} (h : OneLine (String.intercalate "," parameters)) :
    OneLine (comparison d name op parameters) := by
  have hcolumn : OneLine name := .of_isWord hname
  unfold comparison
  -- A list, a pattern or a symbol, each put together from parts in one line.
  split
  · exact ((hcolumn.append (by simp [OneLine])).append h).append (by simp [OneLine])
  · exact (hcolumn.append (by simp [OneLine])).append (containsPattern_oneLine d h)
  · refine (((hcolumn.append ?_).append ?_).append ?_).append h
    · simp [OneLine]
    · cases op <;> simp [OneLine, CompareOp.symbol]
    · simp [OneLine]

mutual

/-- A condition stands in one line. -/
theorem condition_oneLine (hstem : Text.isWord stem = true) (f : Filter)
    (hcolumns : ∀ leaf ∈ f.leaves, Text.isWord leaf.1 = true) (before : Nat) :
    OneLine (condition d stem f before) := by
  match f with
  | compare name op value =>
    rw [condition]
    exact comparison_oneLine d (hcolumns (name, op, value) (by simp [leaves])) op
      (parameters_oneLine d hstem _ _)
  | logic .not children =>
    rw [condition]
    exact OneLine.append (by simp [OneLine])
      (.joined (by simp [OneLine])
        (conditions_oneLine hstem children (by simpa [leaves] using hcolumns) before))
  | logic .and children =>
    rw [condition]
    · exact .joined (by simp [OneLine, joiner])
        (conditions_oneLine hstem children (by simpa [leaves] using hcolumns) before)
    · exact nofun
  | logic .or children =>
    rw [condition]
    · exact .joined (by simp [OneLine, joiner])
        (conditions_oneLine hstem children (by simpa [leaves] using hcolumns) before)
    · exact nofun

/-- So do the conditions of several filters, each in its brackets. -/
theorem conditions_oneLine (hstem : Text.isWord stem = true) (fs : List Filter)
    (hcolumns : ∀ leaf ∈ allLeaves fs, Text.isWord leaf.1 = true) (before : Nat) :
    ∀ text ∈ conditions d stem fs before, OneLine text := by
  match fs with
  | [] => rw [conditions]; exact nofun
  | f :: fs =>
    rw [allLeaves] at hcolumns
    have hfirst := condition_oneLine hstem f
      (fun leaf hleaf => hcolumns leaf (List.mem_append_left _ hleaf)) before
    have hrest := conditions_oneLine hstem fs
      (fun leaf hleaf => hcolumns leaf (List.mem_append_right _ hleaf)) (before + f.values.length)
    rw [conditions]
    intro text htext
    rcases List.mem_cons.mp htext with rfl | htext
    · exact (OneLine.append (by simp [OneLine]) hfirst).append (by simp [OneLine])
    · exact hrest text htext

end

end Filter

/-! ## §2 Parts of composed statements -/

/-- The parameter is bound: its name is live in the statement, its value is among those that the
statement is bound to, and no live occurrence of the name is left. -/
structure Dialect.BindsParameter (d : Dialect) (s : BoundStatement) (name : String) (value : Json) :
    Prop where
  live : name ∈ liveNames d.backslashEscapes s.sql.toList
  given : s.params.get? name = some value
  bound : Scalar.ofJson value ∈ (Statement.bind d s.sql s.params).values
  gone : name ∉ liveNames d.backslashEscapes (Statement.bind d s.sql s.params).sql.toList

/-- A live name with a value is bound, and gone from the bound statement. -/
theorem Dialect.bindsParameter (d : Dialect) {s : BoundStatement} {name : String} {value : Json}
    (hlive : name ∈ liveNames d.backslashEscapes s.sql.toList)
    (hvalue : s.params.get? name = some value) : d.BindsParameter s name value := by
  have hcontains : s.params.contains name = true := by
    rw [Dictionary.contains, hvalue]
    rfl
  refine ⟨hlive, hvalue, ?_, ?_⟩
  · -- A live name with a value is among those that are bound.
    rw [Statement.values_bind]
    exact List.mem_map_of_mem (List.mem_filterMap.mpr
      ⟨name, Statement.mem_boundBy_iff.mpr (.inr ⟨hlive, hcontains⟩), hvalue⟩)
  · rw [Statement.liveNames_bind]
    simp [hcontains]

namespace Query

variable {q : Query} {f : Filter} {s : BoundStatement} {front back : String}

/-- Whether a condition is put around the base and not only behind it. -/
def wraps (q : Query) : Bool := hasWhere q.sql && isReadQuery q.sql

/-- What a condition puts in front of the base. -/
def opening (q : Query) : String := if q.wraps then "SELECT * FROM (" else ""

/-- What stands between the base and a condition. -/
def joint (q : Query) : String := if q.wraps then ") N WHERE " else "\nWHERE "

/-- Whether the base ends in a line comment to which the joint and the condition are added. -/
def swallows (q : Query) : Bool :=
  q.wraps && !Statement.closed q.dialect.backslashEscapes q.sql.toList

/-- The statement is one of those that the query stands for; it has `front` in front of the base and
`back` behind the condition. -/
inductive Stands (q : Query) (s : BoundStatement) : String → String → Prop where
  /-- The filtered base by itself. -/
  | filtered (h : q.filtered = .ok s) : Stands q s q.opening ""
  /-- With the order and the page behind it. -/
  | built (h : q.build = .ok s) (offset : UInt64) (hoffset : q.offset = .ok offset) :
      Stands q s q.opening (q.clauses offset)
  /-- Enclosed once more and counted. -/
  | counted (h : q.buildCount = .ok s) :
      Stands q s ("SELECT COUNT(*) FROM (" ++ q.opening) ") X"

/-- Opening and joint are what a condition adds around the base. -/
theorem withCondition_eq (q : Query) (condition : String) :
    withCondition q.sql condition = q.opening ++ q.sql ++ (q.joint ++ condition) := by
  unfold withCondition opening joint wraps
  split <;> simp [String.append_assoc]

/-- What is filtered has the generated parameters, none of which the caller uses. -/
theorem filtered_parts (hfilter : q.filter = some f) (hf : f.WellFormed) (h : q.filtered = .ok s) :
    s.sql = q.opening ++ q.sql ++ (q.joint ++ f.condition q.dialect q.stem 0) ∧
      ∀ e ∈ q.generated.zip q.filterValues, s.params.get? e.1 = some e.2 := by
  rw [filtered_of_wellFormed hfilter hf] at h
  split at h
  · cases h
  -- A name that the caller uses is an error, so here every generated name is fresh.
  · next hnone =>
    have hfresh : ∀ name ∈ q.generated, q.params.contains name = false := by
      simpa using List.find?_eq_none.mp hnone
    obtain rfl := Except.ok.inj h
    refine ⟨q.withCondition_eq _, fun e he => Dictionary.get?_eq_some_iff.mpr ?_⟩
    rw [entries_merged hfresh]
    exact List.mem_append_left _ he

/-- A statement that is built is the filtered one with its clauses. -/
theorem exists_filtered_of_build (h : q.build = .ok s) : ∃ base offset,
    q.filtered = .ok base ∧ q.offset = .ok offset ∧
      s = ⟨base.sql ++ q.clauses offset, base.params⟩ := by
  have hcomposing := q.composing
  rw [h] at hcomposing
  generalize q.buildCount = count at hcomposing
  cases hcomposing with
  | composed base offset hfiltered hoffset => exact ⟨base, offset, hfiltered, hoffset, rfl⟩

/-- A statement that counts encloses the filtered one. -/
theorem exists_filtered_of_buildCount (h : q.buildCount = .ok s) : ∃ base,
    q.filtered = .ok base ∧ s = ⟨"SELECT COUNT(*) FROM (" ++ base.sql ++ ") X", base.params⟩ := by
  have hcomposing := q.composing
  rw [h] at hcomposing
  generalize q.build = page at hcomposing
  cases hcomposing with
  | unreached base e hfiltered => exact ⟨base, hfiltered, rfl⟩
  | composed base offset hfiltered => exact ⟨base, hfiltered, rfl⟩

/-- A statement that a query gives is one that it stands for. -/
theorem exists_stands (h : q.filtered = .ok s ∨ q.build = .ok s ∨ q.buildCount = .ok s) :
    ∃ front back, q.Stands s front back := by
  rcases h with h | h | h
  · exact ⟨_, _, .filtered h⟩
  · obtain ⟨_, offset, _, hoffset, _⟩ := exists_filtered_of_build h
    exact ⟨_, _, .built h offset hoffset⟩
  · exact ⟨_, _, .counted h⟩

/-- Each statement that a query stands for is made of the filtered one. -/
theorem Stands.parts (h : q.Stands s front back) (hfilter : q.filter = some f)
    (hf : f.WellFormed) :
    s.sql = front ++ q.sql ++ (q.joint ++ f.condition q.dialect q.stem 0 ++ back) ∧
      ∀ e ∈ q.generated.zip q.filterValues, s.params.get? e.1 = some e.2 := by
  cases h with
  -- The base and its condition are the same in all three; what differs stands in front or behind.
  | filtered h =>
    rw [String.append_empty]
    exact filtered_parts hfilter hf h
  | built h offset hoffset =>
    obtain ⟨base, offset', hfiltered, hoffset', rfl⟩ := exists_filtered_of_build h
    obtain ⟨hsql, hparams⟩ := filtered_parts hfilter hf hfiltered
    obtain rfl : offset' = offset := Except.ok.inj (hoffset'.symm.trans hoffset)
    exact ⟨by simp only [hsql, String.append_assoc], hparams⟩
  | counted h =>
    obtain ⟨base, hfiltered, rfl⟩ := exists_filtered_of_buildCount h
    obtain ⟨hsql, hparams⟩ := filtered_parts hfilter hf hfiltered
    exact ⟨by simp only [hsql, String.append_assoc], hparams⟩

/-! ## §3 What is added behind the base -/

/-- What is put in front starts no region and no name. -/
theorem opening_inert (q : Query) : ∀ c ∈ q.opening.toList, inert c = true := by
  unfold opening
  split <;> simp [inert]

/-- So does what stands between base and condition. -/
theorem joint_inert (q : Query) : ∀ c ∈ q.joint.toList, inert c = true := by
  unfold joint
  split <;> simp [inert]

/-- All that stands in front of the base starts nothing. -/
theorem Stands.front_inert (h : q.Stands s front back) : ∀ c ∈ front.toList, inert c = true := by
  cases h with
  | filtered => exact q.opening_inert
  | built => exact q.opening_inert
  | counted =>
    have hcount : ∀ c ∈ "SELECT COUNT(*) FROM (".toList, inert c = true := by simp [inert]
    intro c hc
    rw [String.toList_append, List.mem_append] at hc
    exact hc.elim (hcount c) (q.opening_inert c)

/-- Order and page mention nothing. -/
theorem clauses_mentions (hsorts : ∀ s ∈ q.sorts, Text.isWord s.name = true) (offset : UInt64)
    {backslash : Bool} {text : String} {names : List String}
    (h : Mentions backslash text.toList names) :
    Mentions backslash (text ++ q.clauses offset).toList names := by
  have horder := order_mentions h hsorts
  unfold clauses
  split
  · rw [← Dialect.page_append]
    exact page_mentions q.dialect offset q.pageSize horder
  · exact horder

/-- What stands behind the condition mentions nothing. -/
theorem Stands.back_mentions (h : q.Stands s front back)
    (hsorts : ∀ s ∈ q.sorts, Text.isWord s.name = true) {backslash : Bool} {text : String}
    {names : List String} (htext : Mentions backslash text.toList names) :
    Mentions backslash (text ++ back).toList names := by
  cases h with
  | filtered => rwa [String.append_empty]
  | built _ offset => exact clauses_mentions hsorts offset htext
  | counted => exact clause_mentions ") X" htext (Statement.seam_cons (by decide) _) (by simp [inert])

/-- The order and the page stand on lines of their own. -/
theorem clauses_line (q : Query) (offset : UInt64) :
    ∀ e ∈ (q.clauses offset).toList.head?, e = '\n' := by
  have horder : ∀ e ∈ (orderClause q.sorts).toList.head?, e = '\n' := by
    unfold orderClause
    split <;> simp
  have hpage : ∀ e ∈ (q.dialect.page "" offset q.pageSize).toList.head?, e = '\n' := by
    cases q.dialect <;> simp [Dialect.page]
  unfold clauses
  split
  · -- Without an order the page comes first, and that starts a line, too.
    have hnothing : orderClause q.sorts ++ "" = orderClause q.sorts := String.append_empty
    rw [← hnothing, Dialect.page_append, String.toList_append, List.head?_append]
    cases hhead : (orderClause q.sorts).toList.head? with
    | none => rwa [Option.none_or]
    | some e => rwa [Option.some_or, ← hhead]
  · exact horder

/-- What stands behind the condition goes on in its line and then starts a new one. -/
theorem Stands.back_lines (h : q.Stands s front back)
    (hsorts : ∀ s ∈ q.sorts, Text.isWord s.name = true) (backslash : Bool) :
    ∃ more rest, back = more ++ rest ∧ Text.OneLine more ∧ (∀ e ∈ rest.toList.head?, e = '\n') ∧
      liveNames backslash rest.toList = [] := by
  have hnil : liveNames backslash "".toList = [] := Statement.liveNames_nil backslash
  cases h with
  | filtered => exact ⟨"", "", rfl, by simp [Text.OneLine], by simp, hnil⟩
  | built _ offset =>
    have hclauses : Mentions backslash ("" ++ q.clauses offset).toList [] :=
      clauses_mentions hsorts offset (.inert (by simp))
    rw [String.empty_append] at hclauses
    exact ⟨"", q.clauses offset, (String.empty_append).symm, by simp [Text.OneLine],
      q.clauses_line offset, hclauses.liveNames_eq⟩
  | counted => exact ⟨") X", "", rfl, by simp [Text.OneLine], by simp, hnil⟩

/-! ## §4 What becomes of the additions -/

/-- What is expected of the parts of a filtered query: every quote and every block comment of the
base is ended, the filter is well formed, and columns and generated names are plain words. -/
structure Extends (q : Query) (f : Filter) : Prop where
  filter : q.filter = some f
  wellFormed : f.WellFormed
  columns : ∀ leaf ∈ f.leaves, Text.isWord leaf.1 = true
  sorts : ∀ k ∈ q.sorts, Text.isWord k.name = true
  stem : Text.isWord q.stem = true
  settled : settled q.dialect.backslashEscapes q.sql.toList = true

/-- The additions are read as such: each character of the joint is text, the condition and what
follows are scanned by themselves, and every generated parameter is bound to its value. -/
structure AddsLive (q : Query) (f : Filter) (s : BoundStatement) (front back : String) : Prop where
  scanned : pieces q.dialect.backslashEscapes s.sql.toList =
    pieces q.dialect.backslashEscapes (front ++ q.sql).toList ++
      (q.joint.toList.map (fun c => .plain [c]) ++
        pieces q.dialect.backslashEscapes (f.condition q.dialect q.stem 0 ++ back).toList)
  names : liveNames q.dialect.backslashEscapes s.sql.toList =
    liveNames q.dialect.backslashEscapes q.sql.toList ++ q.generated
  bound : ∀ e ∈ q.generated.zip q.filterValues, q.dialect.BindsParameter s e.1 e.2

/-- The additions are swallowed: the joint, the condition and what follows them on the line go on
with the comment that the base ends in, and only the names of the base are live. -/
structure AddsDead (q : Query) (f : Filter) (s : BoundStatement) (front back : String) : Prop where
  scanned : ∃ ps comment more rest, back = more ++ rest ∧
    pieces q.dialect.backslashEscapes (front ++ q.sql).toList =
      ps ++ [.plain ('-' :: '-' :: comment)] ∧
    pieces q.dialect.backslashEscapes s.sql.toList =
      ps ++ .plain ('-' :: '-' ::
        (comment ++ (q.joint ++ f.condition q.dialect q.stem 0 ++ more).toList)) ::
        pieces q.dialect.backslashEscapes rest.toList
  names : liveNames q.dialect.backslashEscapes s.sql.toList =
    liveNames q.dialect.backslashEscapes q.sql.toList

/-- What follows the base is scanned by itself, unless a comment of the base takes it up. -/
theorem pieces_joint (hsettled : settled q.dialect.backslashEscapes q.sql.toList = true)
    (hswallows : q.swallows = false) (rest : List Char) :
    pieces q.dialect.backslashEscapes (q.sql.toList ++ (q.joint.toList ++ rest)) =
      pieces q.dialect.backslashEscapes q.sql.toList ++
        (q.joint.toList.map (fun c => .plain [c]) ++ pieces q.dialect.backslashEscapes rest) := by
  rw [← Statement.pieces_inert q.joint_inert]
  cases hwraps : q.wraps with
  | true =>
    -- What encloses the base goes on in its last line, so that line must leave nothing open.
    have hclosed : Statement.closed q.dialect.backslashEscapes q.sql.toList = true := by
      simpa [swallows, hwraps] using hswallows
    rw [show q.joint = ") N WHERE " from if_pos hwraps]
    exact Statement.pieces_append hclosed (by decide) _
  | false =>
    rw [show q.joint = "\nWHERE " from if_neg (by simp [hwraps])]
    exact Statement.pieces_append_line hsettled _

/-- Where no comment takes up the joint, the additions are live. -/
theorem addsLive (hq : q.Extends f) (h : q.Stands s front back) (hswallows : q.swallows = false) :
    q.AddsLive f s front back := by
  obtain ⟨hsql, hvalues⟩ := h.parts hq.filter hq.wellFormed
  have hcondition : Mentions q.dialect.backslashEscapes (f.condition q.dialect q.stem 0).toList
      (Numbering.names q.stem 0 f.values.length) :=
    Filter.condition_mentions hq.stem f hq.columns 0
  have hgenerated : q.generated = Numbering.names q.stem 0 f.values.length := by
    rw [generated, filterValues, hq.filter]
  -- First the pieces: front, base, joint and condition are cut one after another.
  have hscanned : pieces q.dialect.backslashEscapes s.sql.toList =
      pieces q.dialect.backslashEscapes (front ++ q.sql).toList ++
        (q.joint.toList.map (fun c => .plain [c]) ++
          pieces q.dialect.backslashEscapes (f.condition q.dialect q.stem 0 ++ back).toList) := by
    simp only [hsql, String.toList_append, List.append_assoc]
    rw [Statement.pieces_inert h.front_inert, Statement.pieces_inert h.front_inert,
      pieces_joint hq.settled hswallows, List.append_assoc]
  -- Then the names, of which front and joint have none.
  have hnames : liveNames q.dialect.backslashEscapes s.sql.toList =
      liveNames q.dialect.backslashEscapes q.sql.toList ++ q.generated := by
    have hjoint : (q.joint.toList.map fun c => Piece.plain [c]).filterMap Piece.name? = [] := by
      simp [Statement.Piece.name?]
    have hbase := Statement.liveNames_inert q.dialect.backslashEscapes h.front_inert q.sql.toList
    have hback := (h.back_mentions hq.sorts hcondition).liveNames_eq
    rw [liveNames, hscanned, List.filterMap_append, List.filterMap_append, hjoint, List.nil_append,
      ← liveNames, ← liveNames, hback, String.toList_append, hbase, hgenerated]
  refine ⟨hscanned, hnames, fun e he => q.dialect.bindsParameter ?_ (hvalues e he)⟩
  rw [hnames]
  exact List.mem_append_right _ (List.of_mem_zip he).1

/-- Where the base is enclosed and ends in a line comment, the additions are dead. -/
theorem addsDead (hq : q.Extends f) (h : q.Stands s front back) (hswallows : q.swallows = true) :
    q.AddsDead f s front back := by
  obtain ⟨hsql, -⟩ := h.parts hq.filter hq.wellFormed
  obtain ⟨hwraps, hopen⟩ := Bool.and_eq_true_iff.mp hswallows
  obtain ⟨more, rest, rfl, hmore, hrest, hnone⟩ :=
    h.back_lines hq.sorts q.dialect.backslashEscapes
  obtain ⟨ps, comment, hbase, hall⟩ :=
    Statement.exists_line_comment hq.settled (by simpa using hopen)
  have hline : Text.OneLine (q.joint ++ f.condition q.dialect q.stem 0 ++ more) := by
    have hjoint : Text.OneLine q.joint := by simp [joint, hwraps, Text.OneLine]
    exact (hjoint.append (Filter.condition_oneLine q.dialect hq.stem f hq.columns 0)).append hmore
  -- All that follows the base on its last line goes into the comment.
  have hpieces := hall _ rest.toList hline hrest
  have hfront : pieces q.dialect.backslashEscapes (front ++ q.sql).toList =
      front.toList.map (fun c => .plain [c]) ++ ps ++ [.plain ('-' :: '-' :: comment)] := by
    rw [String.toList_append, Statement.pieces_inert h.front_inert, hbase, List.append_assoc]
  have hscanned : pieces q.dialect.backslashEscapes s.sql.toList =
      front.toList.map (fun c => .plain [c]) ++ ps ++ .plain ('-' :: '-' ::
        (comment ++ (q.joint ++ f.condition q.dialect q.stem 0 ++ more).toList)) ::
        pieces q.dialect.backslashEscapes rest.toList := by
    rw [List.append_assoc, ← hpieces, ← Statement.pieces_inert h.front_inert, hsql]
    simp only [String.toList_append, List.append_assoc]
  -- The comment is one piece without a name, and the rest of the text mentions nothing.
  refine ⟨⟨_, comment, more, rest, rfl, hfront, hscanned⟩, ?_⟩
  have hsame := Statement.liveNames_inert q.dialect.backslashEscapes h.front_inert q.sql.toList
  rw [← hsame, ← String.toList_append]
  unfold liveNames at hnone ⊢
  simp only [hscanned, hfront, List.filterMap_append, List.filterMap_cons, Piece.name?, hnone,
    List.filterMap_nil]

/-- What is put behind a base whose quotes and block comments are ended is read as such, and every
generated parameter is bound, unless the base is enclosed and ends in a line comment. -/
theorem additions_bound (hq : q.Extends f)
    (h : q.filtered = .ok s ∨ q.build = .ok s ∨ q.buildCount = .ok s) :
    ∃ front back, q.Stands s front back ∧
      s.sql = front ++ q.sql ++ (q.joint ++ f.condition q.dialect q.stem 0 ++ back) ∧
      (q.swallows = false → q.AddsLive f s front back) ∧
      (q.swallows = true → q.AddsDead f s front back) := by
  obtain ⟨front, back, hstands⟩ := exists_stands h
  exact ⟨front, back, hstands, (hstands.parts hq.filter hq.wellFormed).1, addsLive hq hstands,
    addsDead hq hstands⟩

/-- A filtered query whose base has no condition and ends in a line comment. -/
def members : Query where
  dialect := .mysql
  sql := "SELECT * FROM members -- all of them"
  filter := some (.compare "city" .eq (.string "Oslo"))
  sorts := [.asc "name"]

/-- The condition on the members stands on a line of its own and is bound, also where they are
counted. -/
theorem members_bound : ∃ filtered count,
    members.filtered = .ok filtered ∧ members.buildCount = .ok count ∧
    count.sql = "SELECT COUNT(*) FROM (SELECT * FROM members -- all of them\nWHERE city = @P1) X" ∧
    Dialect.mysql.BindsParameter filtered "P1" (.string "Oslo") ∧
    Dialect.mysql.BindsParameter count "P1" (.string "Oslo") := by
  have hextends : members.Extends (.compare "city" .eq (.string "Oslo")) := by
    constructor
    case filter => rfl
    case wellFormed => decide +kernel
    case columns => decide +kernel
    case sorts => decide
    case stem => decide
    case settled => decide +kernel
  have hlive : members.swallows = false := by decide +kernel
  have hparameter : ("P1", .string "Oslo") ∈ members.generated.zip members.filterValues := by
    rw [show members.generated = ["P1"] by decide +kernel]
    exact List.mem_singleton_self _
  obtain ⟨_, _, -, -, hfiltered, -⟩ := additions_bound hextends (.inl rfl)
  obtain ⟨_, _, -, -, hcount, -⟩ := additions_bound hextends (.inr (.inr rfl))
  exact ⟨_, _, rfl, rfl, by decide +kernel, (hfiltered hlive).bound _ hparameter,
    (hcount hlive).bound _ hparameter⟩

/-- A filtered query whose base has a condition and ends in a line comment. -/
def accounts : Query where
  dialect := .mysql
  sql := "SELECT * FROM accounts WHERE open = 1 -- current"
  filter := some (.compare "owner" .eq (.string "ann"))

/-- The comment on the accounts takes up the filter, and no statement on them binds its value. -/
theorem accounts_unbound : accounts.Extends (.compare "owner" .eq (.string "ann")) ∧
    (∃ filtered built count, accounts.filtered = .ok filtered ∧ accounts.build = .ok built ∧
      accounts.buildCount = .ok count ∧ filtered.sql =
        "SELECT * FROM (SELECT * FROM accounts WHERE open = 1 -- current) N WHERE owner = @P1") ∧
    ∀ s, accounts.filtered = .ok s ∨ accounts.build = .ok s ∨ accounts.buildCount = .ok s →
      s.params.get? "P1" = some (.string "ann") ∧
        (Statement.bind .mysql s.sql s.params).values = [] := by
  have hextends : accounts.Extends (.compare "owner" .eq (.string "ann")) := by
    constructor
    case filter => rfl
    case wellFormed => decide +kernel
    case columns => decide +kernel
    case sorts => decide
    case stem => decide
    case settled => decide +kernel
  have hdead : accounts.swallows = true := by decide +kernel
  have hnames : liveNames true accounts.sql.toList = [] := by decide +kernel
  refine ⟨hextends, ⟨_, _, _, rfl, rfl, rfl, by decide +kernel⟩, fun s h => ?_⟩
  obtain ⟨front, back, hstands⟩ := exists_stands h
  constructor
  · apply (hstands.parts hextends.filter hextends.wellFormed).2 ("P1", _)
    rw [show accounts.generated = ["P1"] by decide +kernel]
    exact List.mem_singleton_self _
  · have hnone : liveNames Dialect.mysql.backslashEscapes s.sql.toList = [] :=
      (addsDead hextends hstands hdead).names.trans hnames
    rw [Statement.values_bind, hnone]
    rfl

end Query

end SqlService
