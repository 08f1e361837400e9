import SqlService.Text.Ascii
import SqlService.Text.Split

/-!
# Live text and dead regions of a statement

A statement is cut into pieces: the names of its live parameters (`@` and a word) and plain text in
between.  Inside quotes, comments and `@@` variables nothing is live.  A doubled quote stays inside
its quotes; a backslash passes over the next character inside `'` and `"` where the dialect says
so; what is never closed runs to the end.

Main statements: each step takes at least one character (`length_lt_of_next`) and the pieces put
together are the statement (`text_pieces`).
-/

namespace SqlService.Statement

/-! ## §1 Regions -/

/-- What is inside quotes from here on, with the closing quote, and what follows. -/
def quoted (backslash : Bool) (quote : Char) : List Char → List Char × List Char
  | [] => ([], [])
  | [c] => ([c], [])
  | c :: d :: rest =>
    if backslash && c == '\\' then
      (c :: d :: (quoted backslash quote rest).1, (quoted backslash quote rest).2)
    else if c == quote then
      -- A doubled quote is a quote inside the text and does not close it.
      if d == quote then
        (c :: d :: (quoted backslash quote rest).1, (quoted backslash quote rest).2)
      else ([c], d :: rest)
    else (c :: (quoted backslash quote (d :: rest)).1, (quoted backslash quote (d :: rest)).2)

/-- The rest of a line, without its end, and what follows. -/
def lineComment (cs : List Char) : List Char × List Char :=
  (cs.takeWhile (· != '\n'), cs.dropWhile (· != '\n'))

/-- What is inside a block comment from here on, with the closing mark, and what follows. -/
def blockComment (cs : List Char) : List Char × List Char :=
  match Text.cut? ['*', '/'] cs with
  | some (inside, rest) => (inside ++ ['*', '/'], rest)
  | none => (cs, [])

/-- The word at the start, and what follows. -/
def word (cs : List Char) : List Char × List Char :=
  (cs.takeWhile Text.isWordChar, cs.dropWhile Text.isWordChar)

/-! ## §2 Pieces -/

/-- A piece of a statement. -/
inductive Piece where
  /-- Text that is copied as it stands. -/
  | plain (text : List Char)
  /-- The name of a live parameter, at least one character. -/
  | name (word : List Char)
  deriving DecidableEq, Repr

/-- A piece as it is written. -/
def Piece.text : Piece → List Char
  | plain text => text
  | name word => '@' :: word

/-- A dead region with its opening mark as a piece, and what follows. -/
def region (opening : List Char) (r : List Char × List Char) : Piece × List Char :=
  (.plain (opening ++ r.1), r.2)

/-- The piece that starts with `c`, and what follows it. -/
def next (backslash : Bool) (c : Char) (cs : List Char) : Piece × List Char :=
  match c, cs with
  | '\x27', cs => region [c] (quoted backslash c cs)
  | '"', cs => region [c] (quoted backslash c cs)
  | '\x60', cs => region [c] (quoted false c cs)
  | '-', '-' :: rest => region ['-', '-'] (lineComment rest)
  | '/', '*' :: rest => region ['/', '*'] (blockComment rest)
  | '@', '@' :: rest => region ['@', '@'] (word rest)
  | '@', cs =>
    match word cs with
    -- An `@` that no word follows is plain text.
    | ([], _) => (.plain ['@'], cs)
    | (w, rest) => (.name w, rest)
  | c, cs => (.plain [c], cs)

theorem quoted_append (backslash : Bool) (quote : Char) (cs : List Char) :
    (quoted backslash quote cs).1 ++ (quoted backslash quote cs).2 = cs := by
  fun_induction quoted backslash quote cs <;> simp_all

theorem lineComment_append (cs : List Char) :
    (lineComment cs).1 ++ (lineComment cs).2 = cs := by
  simp [lineComment]

theorem blockComment_append (cs : List Char) :
    (blockComment cs).1 ++ (blockComment cs).2 = cs := by
  unfold blockComment
  split
  · next h => exact (Text.eq_of_cut? h).symm
  · simp

theorem word_append (cs : List Char) : (word cs).1 ++ (word cs).2 = cs := by
  simp [word]

/-- A piece and what follows it are the text that it was taken from. -/
theorem next_append (backslash : Bool) (c : Char) (cs : List Char) :
    (next backslash c cs).1.text ++ (next backslash c cs).2 = c :: cs := by
  unfold next
  split
  · simp [region, Piece.text, quoted_append]
  · simp [region, Piece.text, quoted_append]
  · simp [region, Piece.text, quoted_append]
  · simp [region, Piece.text, lineComment_append]
  · simp [region, Piece.text, blockComment_append]
  · simp [region, Piece.text, word_append]
  · split
    · simp [Piece.text]
    · next w rest _ hw =>
      have := word_append cs
      rw [hw] at this
      simpa [Piece.text] using this
  · simp [Piece.text]

/-- Every piece takes at least the character that it starts with. -/
theorem length_le_of_next (backslash : Bool) (c : Char) (cs : List Char) :
    (next backslash c cs).2.length ≤ cs.length := by
  have h := congrArg List.length (next_append backslash c cs)
  have hp : 0 < (next backslash c cs).1.text.length := by
    unfold next
    split
    case h_7 => split <;> simp [Piece.text]
    all_goals simp [region, Piece.text]
  simp only [List.length_append, List.length_cons] at h
  omega

/-- The pieces of a statement, in order. -/
def pieces (backslash : Bool) : List Char → List Piece
  | [] => []
  | c :: cs =>
    (next backslash c cs).1 :: pieces backslash (next backslash c cs).2
termination_by cs => cs.length
decreasing_by
  have := length_le_of_next backslash c cs
  simp
  omega

/-- The pieces put together are the statement. -/
theorem text_pieces (backslash : Bool) (cs : List Char) :
    (pieces backslash cs).flatMap Piece.text = cs := by
  fun_induction pieces backslash cs with
  | case1 => rfl
  | case2 c cs ih => rw [List.flatMap_cons, ih, next_append]

end SqlService.Statement
