import Mathlib.Data.List.TakeWhile
import SqlService.Proofs.Statement.LiveNames

/-!
# Tokens of conditions

A condition is read as a list of tokens: words, of which three are the logical keywords, parameters,
literals, operators, parentheses and other marks.  Whether the keywords are recognised in capitals
only or in any case is left open.  `Lexes` gives the tokens of a text wherever it stands in front of
something that no token runs into.
-/

namespace SqlService.Condition

open Statement (quoted)

/-! ## §1 Tokens -/

/-- A token of a condition. -/
inductive Token where
  /-- A bare word that is no keyword. -/
  | word (text : List Char)
  | and
  | or
  | not
  /-- A named parameter. -/
  | parameter (name : List Char)
  /-- A text between quotes, with the closing one. -/
  | literal (text : List Char)
  /-- An operator made of signs. -/
  | symbol (text : List Char)
  | opening
  | closing
  /-- Any other character. -/
  | mark (char : Char)
  deriving DecidableEq, Repr

/-- Whether a word is the keyword, which is in capitals. -/
def spells (anyCase : Bool) (keyword : String) (word : List Char) : Bool :=
  if anyCase then Text.sameWord (String.ofList word) keyword else String.ofList word == keyword

/-- The token of a bare word. -/
def wordToken (anyCase : Bool) (word : List Char) : Token :=
  if spells anyCase "AND" word then .and
  else if spells anyCase "OR" word then .or
  else if spells anyCase "NOT" word then .not
  else .word word

/-- Whether a character is part of an operator. -/
def isSign (c : Char) : Bool := ['=', '<', '>', '|'].contains c

theorem length_quoted_le (backslash : Bool) (quote : Char) (cs : List Char) :
    (quoted backslash quote cs).2.length ≤ cs.length := by
  have happend := congrArg List.length (Statement.quoted_append backslash quote cs)
  rw [List.length_append] at happend
  omega

/-- The tokens of a text, where `backslash` tells whether it escapes inside literals. -/
def tokens (backslash anyCase : Bool) : List Char → List Token
  | [] => []
  | c :: cs =>
    if c == ' ' then tokens backslash anyCase cs
    else if Text.isWordChar c then
      wordToken anyCase (c :: cs.takeWhile Text.isWordChar) ::
        tokens backslash anyCase (cs.dropWhile Text.isWordChar)
    else if c == '@' then
      .parameter (cs.takeWhile Text.isWordChar) ::
        tokens backslash anyCase (cs.dropWhile Text.isWordChar)
    else if c == '\x27' then
      .literal (quoted backslash c cs).1 :: tokens backslash anyCase (quoted backslash c cs).2
    else if isSign c then
      .symbol (c :: cs.takeWhile isSign) :: tokens backslash anyCase (cs.dropWhile isSign)
    else
      (if c == '(' then .opening else if c == ')' then .closing else .mark c) ::
        tokens backslash anyCase cs
termination_by cs => cs.length
decreasing_by
  · exact Nat.lt_succ_self _
  · exact Nat.lt_succ_of_le (List.length_dropWhile_le _ _)
  · exact Nat.lt_succ_of_le (List.length_dropWhile_le _ _)
  · exact Nat.lt_succ_of_le (length_quoted_le _ _ _)
  · exact Nat.lt_succ_of_le (List.length_dropWhile_le _ _)
  · exact Nat.lt_succ_self _

/-! ## §2 Tokens of parts -/

/-- What a token does not run into. -/
def stops (e : Char) : Bool := !Text.isWordChar e && e != '\x27' && !isSign e

/-- Nothing follows, or something that no token runs into. -/
def Break (rest : List Char) : Prop := ∀ e tail, rest = e :: tail → stops e = true

/-- The tokens of the text are the given ones, whatever stands behind a break after it. -/
def Lexes (backslash anyCase : Bool) (cs : List Char) (ts : List Token) : Prop :=
  ∀ rest, Break rest →
    tokens backslash anyCase (cs ++ rest) = ts ++ tokens backslash anyCase rest

theorem stops_iff {e : Char} :
    stops e = true ↔ Text.isWordChar e = false ∧ e ≠ '\x27' ∧ isSign e = false := by
  simp [stops, and_assoc]

theorem break_cons {e : Char} (h : stops e = true) (rest : List Char) : Break (e :: rest) := by
  intro e' tail heq
  obtain ⟨rfl, -⟩ := List.cons.inj heq
  exact h

namespace Lexes

variable {backslash anyCase : Bool} {cs : List Char} {ts : List Token}

theorem blank (h : Lexes backslash anyCase cs ts) : Lexes backslash anyCase (' ' :: cs) ts := by
  intro rest hrest
  rw [List.cons_append, tokens, if_pos (by decide)]
  exact h rest hrest

theorem opening (h : Lexes backslash anyCase cs ts) :
    Lexes backslash anyCase ('(' :: cs) (.opening :: ts) := by
  intro rest hrest
  rw [List.cons_append, tokens, h rest hrest]
  rfl

theorem comma (h : Lexes backslash anyCase cs ts) :
    Lexes backslash anyCase (',' :: cs) (.mark ',' :: ts) := by
  intro rest hrest
  rw [List.cons_append, tokens, h rest hrest]
  rfl

theorem closing : Lexes backslash anyCase [')'] [.closing] := by
  intro rest _
  rw [List.singleton_append, tokens]
  rfl

theorem word {w : List Char} (hne : w ≠ []) (hw : ∀ c ∈ w, Text.isWordChar c = true) :
    Lexes backslash anyCase w [wordToken anyCase w] := by
  intro rest hrest
  obtain ⟨c, w, rfl⟩ := List.exists_cons_of_ne_nil hne
  have hc := hw c List.mem_cons_self
  have hblank : (c == ' ') = false := by
    rw [beq_eq_false_iff_ne]
    rintro rfl
    exact absurd hc (by decide)
  obtain ⟨htake, hdrop⟩ := Statement.span_append (fun d hd => hw d (List.mem_cons_of_mem _ hd))
    fun e tail heq => (stops_iff.mp (hrest e tail heq)).1
  rw [List.cons_append, tokens, hblank, hc, htake, hdrop]
  rfl

theorem parameter {w : List Char} (hw : ∀ c ∈ w, Text.isWordChar c = true) :
    Lexes backslash anyCase ('@' :: w) [.parameter w] := by
  intro rest hrest
  obtain ⟨htake, hdrop⟩ := Statement.span_append hw fun e tail heq =>
    (stops_iff.mp (hrest e tail heq)).1
  rw [List.cons_append, tokens, htake, hdrop]
  rfl

theorem symbol {s : List Char} (hne : s ≠ []) (hs : ∀ c ∈ s, isSign c = true) :
    Lexes backslash anyCase s [.symbol s] := by
  intro rest hrest
  obtain ⟨c, s, rfl⟩ := List.exists_cons_of_ne_nil hne
  have hc := hs c List.mem_cons_self
  -- No sign is a blank, part of a word or a mark.
  have hother : (c == ' ') = false ∧ Text.isWordChar c = false ∧ (c == '@') = false ∧
      (c == '\x27') = false := by
    simp only [isSign, List.contains_eq_mem, List.mem_cons, List.not_mem_nil, or_false,
      decide_eq_true_eq] at hc
    rcases hc with rfl | rfl | rfl | rfl <;> decide
  obtain ⟨htake, hdrop⟩ := Statement.span_append (fun d hd => hs d (List.mem_cons_of_mem _ hd))
    fun e tail heq => (stops_iff.mp (hrest e tail heq)).2.2
  rw [List.cons_append, tokens, hother.1, hother.2.1, hother.2.2.1, hother.2.2.2, hc, htake, hdrop]
  rfl

/-- The literal that stands for any text in a pattern. -/
theorem anyText : Lexes backslash anyCase ['\x27', '%', '\x27'] [.literal ['%', '\x27']] := by
  intro rest hrest
  have hquoted : quoted backslash '\x27' ('%' :: '\x27' :: rest) = (['%', '\x27'], rest) := by
    cases rest with
    | nil => simp [quoted]
    | cons e tail =>
      -- A second quote would stand for one inside the literal.
      have he := (stops_iff.mp (hrest e tail rfl)).2.1
      simp [quoted, he]
  show tokens backslash anyCase ('\x27' :: '%' :: '\x27' :: rest) = _
  rw [tokens, hquoted]
  rfl

theorem append (h : Lexes backslash anyCase cs ts) {ds : List Char} {us : List Token}
    (hbreak : Break ds) (hne : ds ≠ []) (hds : Lexes backslash anyCase ds us) :
    Lexes backslash anyCase (cs ++ ds) (ts ++ us) := by
  intro rest hrest
  have hboth : Break (ds ++ rest) := by
    obtain ⟨d, ds, rfl⟩ := List.exists_cons_of_ne_nil hne
    intro e tail heq
    obtain ⟨rfl, -⟩ := List.cons.inj heq
    exact hbreak d ds rfl
  rw [List.append_assoc, h _ hboth, hds rest hrest, List.append_assoc]

/-- A blank separates two parts. -/
theorem spaced (h : Lexes backslash anyCase cs ts) {ds : List Char} {us : List Token}
    (hds : Lexes backslash anyCase ds us) :
    Lexes backslash anyCase (cs ++ ' ' :: ds) (ts ++ us) :=
  h.append (break_cons rfl _) (List.cons_ne_nil _ _) hds.blank

/-- So does a comma, which is a token of its own. -/
theorem listed (h : Lexes backslash anyCase cs ts) {ds : List Char} {us : List Token}
    (hds : Lexes backslash anyCase ds us) :
    Lexes backslash anyCase (cs ++ ',' :: ds) (ts ++ .mark ',' :: us) :=
  h.append (break_cons rfl _) (List.cons_ne_nil _ _) hds.comma

theorem enclosed (h : Lexes backslash anyCase cs ts) :
    Lexes backslash anyCase ('(' :: (cs ++ [')'])) (.opening :: (ts ++ [.closing])) :=
  (h.append (break_cons rfl _) (List.cons_ne_nil _ _) closing).opening

theorem tokens_eq (h : Lexes backslash anyCase cs ts) : tokens backslash anyCase cs = ts := by
  have hnil := h [] fun _ _ heq => by cases heq
  rwa [List.append_nil, tokens, List.append_nil] at hnil

end Lexes

end SqlService.Condition
