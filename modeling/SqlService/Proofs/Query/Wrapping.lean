import SqlService.Proofs.Query.Merging
import SqlService.Proofs.Statement.Scanner
import SqlService.Proofs.Text.Words

/-!
# Enclosed statements

A statement that reads rows and has a condition of its own is to be enclosed by a further one.  That
it has a condition is seen from its words, wherever they stand; that it reads rows is seen from its
first keyword.  In front of the keyword blanks and opening parentheses are passed over.  Comments
are not: with one in front, the statement is taken for one that does not read rows.

Main statement: `filtered_wraps`.
-/

namespace SqlService

/-! ## §1 Keywords -/

namespace Statement

/-- Between the two texts the word is a keyword, in any case of its letters: it is outside of
quotes, comments and names, and nothing that goes on with a word stands next to it. -/
structure Keyword (backslash : Bool) (keyword : String) (before word after : List Char) :
    Prop where
  same : Text.sameWord (String.ofList word) keyword = true
  outside : (Mode.text.scan backslash before).Border backslash (word ++ after)
  before : ∀ c ∈ before.getLast?, Text.isWordChar c = false
  after : ∀ c ∈ after.head?, Text.isWordChar c = false

/-! ## §2 The first keyword -/

/-- What is left of a statement from its first keyword on: blanks, opening parentheses and comments
are passed over. -/
def skipLead : List Char → List Char
  | [] => []
  | '-' :: '-' :: cs => skipLead (lineComment cs).2
  | '/' :: '*' :: cs => skipLead (blockComment cs).2
  | c :: cs => if Text.isBlank c || c == '(' then skipLead cs else c :: cs
termination_by cs => cs.length
decreasing_by
  · have h := congrArg List.length (lineComment_append cs)
    simp only [List.length_append, List.length_cons] at h ⊢
    omega
  · have h := congrArg List.length (blockComment_append cs)
    simp only [List.length_append, List.length_cons] at h ⊢
    omega
  · simp

/-- The first keyword of a statement. -/
def leadingKeyword (sql : String) : String :=
  String.ofList ((skipLead sql.toList).takeWhile Char.isAlphanum)

/-- What is left of a statement behind blanks and opening parentheses. -/
def start (cs : List Char) : List Char := cs.dropWhile fun c => Text.isBlank c || c == '('

/-- Whether a comment stands in front of the first keyword. -/
def commented (sql : String) : Bool :=
  ['-', '-'].isPrefixOf (start sql.toList) || ['/', '*'].isPrefixOf (start sql.toList)

theorem start_cons_of_pos {c : Char} (h : (Text.isBlank c || c == '(') = true) (cs : List Char) :
    start (c :: cs) = start cs :=
  List.dropWhile_cons_of_pos (p := fun c => Text.isBlank c || c == '(') h

theorem start_cons_of_neg {c : Char} (h : ¬(Text.isBlank c || c == '(') = true)
    (cs : List Char) : start (c :: cs) = c :: cs :=
  List.dropWhile_cons_of_neg (p := fun c => Text.isBlank c || c == '(') h

/-- Without a comment in front only blanks and parentheses are passed over. -/
theorem skipLead_eq_start {cs : List Char} (hline : ['-', '-'].isPrefixOf (start cs) = false)
    (hblock : ['/', '*'].isPrefixOf (start cs) = false) : skipLead cs = start cs := by
  -- By the recursion over what is passed over; the two kinds of comments are excluded.
  fun_induction skipLead cs with
  | case1 => rfl
  | case2 cs ih =>
    rw [start_cons_of_neg (by decide)] at hline
    exact absurd hline (by simp)
  | case3 cs ih =>
    rw [start_cons_of_neg (by decide)] at hblock
    exact absurd hblock (by simp)
  | case4 c cs _ _ hskip ih =>
    rw [start_cons_of_pos hskip] at *
    exact ih hline hblock
  | case5 c cs _ _ hkeep => rw [start_cons_of_neg hkeep]

end Statement

namespace Query

open Statement (Keyword commented leadingKeyword)

variable {q : Query} {f : Filter} {sql : String}

theorem firstKeyword_of_uncommented (h : commented sql = false) :
    firstKeyword sql = leadingKeyword sql := by
  obtain ⟨hline, hblock⟩ := Bool.or_eq_false_iff.mp h
  rw [leadingKeyword, Statement.skipLead_eq_start hline hblock]
  rfl

theorem firstKeyword_of_commented (h : commented sql = true) : firstKeyword sql = "" := by
  have hkeyword : firstKeyword sql =
      String.ofList ((Statement.start sql.toList).takeWhile Char.isAlphanum) := rfl
  -- A comment starts with a character that no keyword has.
  rcases Bool.or_eq_true_iff.mp h with h | h
  · obtain ⟨rest, hstart⟩ := List.isPrefixOf_iff_prefix.mp h
    rw [hkeyword, ← hstart]
    rfl
  · obtain ⟨rest, hstart⟩ := List.isPrefixOf_iff_prefix.mp h
    rw [hkeyword, ← hstart]
    rfl

/-- A statement that starts to read rows is taken for one that does, unless a comment stands in
front. -/
theorem isReadQuery_of_leading (h : Text.sameWord (leadingKeyword sql) "SELECT" = true ∨
    Text.sameWord (leadingKeyword sql) "WITH" = true) : isReadQuery sql = !commented sql := by
  cases hcommented : commented sql with
  | true =>
    rw [isReadQuery, firstKeyword_of_commented hcommented]
    decide +kernel
  | false =>
    rw [isReadQuery, firstKeyword_of_uncommented hcommented]
    exact Bool.or_eq_true_iff.mpr h

/-- A keyword `WHERE` is among the words. -/
theorem hasWhere_of_keyword {backslash : Bool} {before word after : List Char}
    (hsql : sql.toList = before ++ word ++ after)
    (h : Keyword backslash "WHERE" before word after) : hasWhere sql = true := by
  have hletters : ∀ c ∈ word, Text.isWordChar c = true := by
    have hall := Text.all_isWordChar_of_sameWord h.same
    rw [String.toList_ofList, show "WHERE".toList.all Text.isWordChar = true by decide] at hall
    exact List.all_eq_true.mp hall
  -- Between two characters that are none of a word it is a word of its own.
  have hpiece : word ∈ Text.pieces (fun c => !Text.isWordChar c) sql.toList := by
    rw [hsql]
    apply Text.mem_pieces
    · simpa using h.before
    · simpa using hletters
    · simpa using h.after
  exact List.any_eq_true.mpr ⟨String.ofList word, List.mem_map_of_mem hpiece, h.same⟩

/-- A filtered statement that reads rows and has a condition of its own is enclosed, unless a
comment stands in front of its first keyword: then the condition is put behind it. -/
theorem filtered_wraps (hfilter : q.filter = some f) (hf : f.WellFormed)
    (hread : Text.sameWord (leadingKeyword q.sql) "SELECT" = true ∨
      Text.sameWord (leadingKeyword q.sql) "WITH" = true)
    (hwhere : ∃ before word after, q.sql.toList = before ++ word ++ after ∧
      Keyword q.dialect.backslashEscapes "WHERE" before word after) :
    ∃ clause, (f.compile q.dialect q.stem {}).1 = .ok clause ∧
      ((∀ name ∈ q.generated, q.params.contains name = false) → ∃ s, q.filtered = .ok s) ∧
      ∀ s, q.filtered = .ok s → s.sql =
        if commented q.sql then q.sql ++ "\nWHERE " ++ clause
        else "SELECT * FROM (" ++ q.sql ++ ") N WHERE " ++ clause := by
  obtain ⟨before, word, after, hsql, hkeyword⟩ := hwhere
  refine ⟨f.condition q.dialect q.stem 0, ?_, fun hfresh => ⟨_, filtered_of_fresh hfilter hf hfresh⟩,
    fun s hs => ?_⟩
  · rw [Filter.compile_eq q.dialect q.stem f {} hf]
  · rw [filtered_of_wellFormed hfilter hf] at hs
    split at hs
    · cases hs
    -- The statement has a condition, so whether it is enclosed is told by its first keyword.
    · obtain rfl := Except.ok.inj hs
      rw [withCondition, hasWhere_of_keyword hsql hkeyword, isReadQuery_of_leading hread,
        Bool.true_and]
      cases commented q.sql <;> rfl

/-- A filtered query in parentheses, with a comment inside and a condition of its own behind it. -/
def paidOrders : Query where
  dialect := .postgres
  sql := "(SELECT * FROM orders /* where due */ WHERE paid)"
  filter := some (.compare "state" .eq (.string "new"))

/-- The paid orders are enclosed. -/
theorem paidOrders_wrapped : ∃ s, paidOrders.filtered = .ok s ∧ s.sql =
    "SELECT * FROM (" ++ paidOrders.sql ++ ") N WHERE state = @P1" := by
  have hwhere : Keyword false "WHERE" "(SELECT * FROM orders /* where due */ ".toList
      "WHERE".toList " paid)".toList := by
    constructor
    case same => decide +kernel
    case outside =>
      intro c tail h
      cases h
      decide +kernel
    case before => simp [Text.isWordChar]
    case after => simp [Text.isWordChar]
  have hsql : paidOrders.sql.toList = "(SELECT * FROM orders /* where due */ ".toList ++
      "WHERE".toList ++ " paid)".toList := by simp [paidOrders]
  -- No comment stands in front of the first keyword.
  have hread : Text.sameWord (leadingKeyword paidOrders.sql) "SELECT" = true := by
    rw [← firstKeyword_of_uncommented (by decide +kernel)]
    decide +kernel
  have hfilter : paidOrders.filter = some (.compare "state" .eq (.string "new")) := rfl
  have hfresh : ∀ name ∈ paidOrders.generated, paidOrders.params.contains name = false := by
    decide +kernel
  obtain ⟨clause, hclause, hok, hall⟩ := filtered_wraps hfilter (by decide +kernel) (.inl hread)
    ⟨_, _, _, hsql, hwhere⟩
  obtain ⟨s, hs⟩ := hok hfresh
  refine ⟨s, hs, (hall s hs).trans ?_⟩
  rw [if_neg (by decide +kernel), ← Except.ok.inj hclause]
  decide +kernel

/-- A filtered query with a comment in front and a condition of its own. -/
def recentOrders : Query where
  dialect := .mysql
  sql := "/* recent */ SELECT * FROM orders WHERE paid = 1"
  filter := some (.compare "state" .eq (.string "new"))

/-- The recent orders are not enclosed and get a second condition, although they are read by a
`SELECT` with one of its own. -/
theorem recentOrders_appended :
    leadingKeyword recentOrders.sql = "SELECT" ∧
    Keyword true "WHERE" "/* recent */ SELECT * FROM orders ".toList "WHERE".toList
      " paid = 1".toList ∧
    ∃ s, recentOrders.filtered = .ok s ∧ s.sql =
      "/* recent */ SELECT * FROM orders WHERE paid = 1\nWHERE state = @P1" := by
  refine ⟨by decide +kernel, ?_, _, rfl, by decide +kernel⟩
  constructor
  case same => decide +kernel
  case outside =>
    intro c tail h
    cases h
    decide +kernel
  case before => simp [Text.isWordChar]
  case after => simp [Text.isWordChar]

end Query

end SqlService
