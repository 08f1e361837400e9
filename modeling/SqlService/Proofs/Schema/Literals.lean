import Mathlib.Data.List.Induction
import SqlService.Proofs.Statement.Quoted
import SqlService.Provider.Definition

/-!
# Generated literals

A comment and a default that is no expression are written as string literals, with their quotes
doubled.  A literal denotes a text if the scanner that cuts statements into pieces reads it up to
its last character, whatever follows, and undoing the escapes gives the text back.  Where a backslash
escapes the next character a literal with doubled quotes only denotes its text if no backslash means
anything there.

Main statement: `Provider.literals_denote`.
-/

namespace SqlService

namespace Statement

/-! ## §1 Undoing escapes -/

/-- What an escaped character stands for; a wildcard keeps its backslash. -/
def escapeMeaning : Char → List Char
  | '0' => [Char.ofNat 0]
  | 'b' => [Char.ofNat 8]
  | 'n' => ['\n']
  | 'r' => ['\r']
  | 't' => ['\t']
  | 'Z' => [Char.ofNat 26]
  | '%' => ['\\', '%']
  | '_' => ['\\', '_']
  | c => [c]

/-- The text that stands between quotes, with the escapes undone. -/
def unescape (backslash : Bool) : List Char → List Char
  | [] => []
  | [c] => [c]
  | c :: d :: rest =>
    if escapes backslash c then escapeMeaning d ++ unescape backslash rest
    else if c == '\x27' && d == '\x27' then '\x27' :: unescape backslash rest
    else c :: unescape backslash (d :: rest)

/-- Every backslash stands in front of a wildcard, with which it keeps itself. -/
def Kept (cs : List Char) : Prop :=
  ∀ before after, cs = before ++ '\\' :: after →
    after.head? = some '%' ∨ after.head? = some '_'

/-- A text with its quotes doubled. -/
def doubled (cs : List Char) : List Char :=
  cs.flatMap fun c => if c == '\x27' then ['\x27', '\x27'] else [c]

variable {backslash : Bool} {c d : Char} {cs rest : List Char}

/-- A quote never escapes. -/
theorem escapes_quote (backslash : Bool) : escapes backslash '\x27' = false := by
  cases backslash <;> rfl

/-- Only a backslash escapes, and only where the dialect lets it. -/
theorem escapes_iff : escapes backslash c = true ↔ backslash = true ∧ c = '\\' := by
  simp [escapes]

/-- A quote is doubled. -/
theorem doubled_quote (cs : List Char) :
    doubled ('\x27' :: cs) = '\x27' :: '\x27' :: doubled cs := rfl

/-- Any other character is not. -/
theorem doubled_cons (h : c ≠ '\x27') (cs : List Char) : doubled (c :: cs) = c :: doubled cs := by
  simp [doubled, h]

/-- A character that is neither quote nor escape is taken as it is. -/
theorem unescape_take (hquote : c ≠ '\x27') (hescape : escapes backslash c = false)
    (cs : List Char) : unescape backslash (c :: cs) = c :: unescape backslash cs := by
  cases cs with
  | nil => rfl
  | cons d cs => simp [unescape, hescape, hquote]

/-- An escape takes the character behind it. -/
theorem unescape_escape (h : escapes backslash c = true) (d : Char) (cs : List Char) :
    unescape backslash (c :: d :: cs) = escapeMeaning d ++ unescape backslash cs := by
  simp [unescape, h]

/-- Two quotes stand for one. -/
theorem unescape_double (cs : List Char) :
    unescape backslash ('\x27' :: '\x27' :: cs) = '\x27' :: unescape backslash cs := by
  simp [unescape, escapes_quote]

/-- A quote that is not doubled stands for itself. -/
theorem unescape_single (h : d ≠ '\x27') (cs : List Char) :
    unescape backslash ('\x27' :: d :: cs) = '\x27' :: unescape backslash (d :: cs) := by
  simp [unescape, escapes_quote, h]

/-- In no text no backslash means anything. -/
theorem kept_nil : Kept [] := fun before after heq => by simp at heq

/-- A backslash means nothing in a text if it does not at its head and not in the rest. -/
theorem kept_cons : Kept (c :: cs) ↔
    (c = '\\' → cs.head? = some '%' ∨ cs.head? = some '_') ∧ Kept cs := by
  constructor
  · intro h
    exact ⟨fun hc => h [] cs (by rw [hc]; rfl),
      fun before after heq => h (c :: before) after (by rw [heq]; rfl)⟩
  · rintro ⟨hc, hcs⟩ (_ | ⟨b, before⟩) after heq
    · obtain ⟨rfl, rfl⟩ := List.cons.inj heq
      exact hc rfl
    · exact hcs before after (List.cons.inj heq).2

/-! ## §2 Texts that are read back -/

/-- An escape stands for two characters at most. -/
theorem length_escapeMeaning_le (c : Char) : (escapeMeaning c).length ≤ 2 := by
  unfold escapeMeaning
  split <;> simp

/-- Only a wildcard stands for as much as its escape. -/
theorem wildcard_of_length {e : Char} (h : 2 ≤ (escapeMeaning e).length) : e = '%' ∨ e = '_' := by
  unfold escapeMeaning at h
  split at h <;> simp_all

/-- Undoing escapes does not make a text longer than it was before its quotes were doubled, even if
an escape has taken one of two quotes. -/
theorem length_unescape_le (backslash : Bool) (cs : List Char) :
    (unescape backslash (doubled cs)).length ≤ cs.length ∧
      (unescape backslash ('\x27' :: doubled cs)).length ≤ cs.length + 1 := by
  match cs with
  | [] => exact ⟨Nat.le_refl 0, Nat.le_refl 1⟩
  | c :: cs =>
    obtain ⟨hwhole, hsingle⟩ := length_unescape_le backslash cs
    -- A doubled quote is undone in one step; a backslash may also take one quote of two with it.
    by_cases hquote : c = '\x27'
    · subst hquote
      rw [doubled_quote, unescape_double, unescape_double]
      simp only [List.length_cons]
      omega
    · rw [doubled_cons hquote, unescape_single hquote]
      have hboth : (unescape backslash (c :: doubled cs)).length ≤ cs.length + 1 := by
        cases hescape : escapes backslash c with
        | false =>
          rw [unescape_take hquote hescape]
          exact Nat.succ_le_succ hwhole
        -- The escape shortens the text or keeps its length, so what is behind it goes by the
        -- shorter text.
        | true =>
          match cs with
          | [] => exact Nat.le_refl 1
          | e :: cs =>
            obtain ⟨hbehind, hstray⟩ := length_unescape_le backslash cs
            by_cases he : e = '\x27'
            · subst he
              rw [doubled_quote, unescape_escape hescape]
              simp only [List.length_append, List.length_cons]
              show 1 + _ ≤ _
              omega
            · rw [doubled_cons he, unescape_escape hescape, List.length_append]
              have := length_escapeMeaning_le e
              simp only [List.length_cons]
              omega
      exact ⟨hboth, Nat.succ_le_succ hboth⟩
termination_by cs.length

/-- Between quotes the text is read up to the quote behind it, if that is not doubled, and given
back. -/
@[mk_iff]
structure ReadBack (backslash : Bool) (cs : List Char) : Prop where
  closed : ∀ rest, rest.head? ≠ some '\x27' →
    quoted backslash '\x27' (doubled cs ++ '\x27' :: rest) = (doubled cs ++ ['\x27'], rest)
  meaning : unescape backslash (doubled cs) = cs

/-- No text is read back. -/
theorem readBack_nil : ReadBack backslash [] :=
  ⟨fun _ hrest => quoted_close (escapes_quote backslash) hrest, rfl⟩

/-- What escapes nothing is read and given back by itself, a quote from two. -/
theorem readBack_cons (hescape : escapes backslash c = false) :
    ReadBack backslash (c :: cs) ↔ ReadBack backslash cs := by
  by_cases hquote : c = '\x27'
  · subst hquote
    simp only [readBack_iff, doubled_quote, List.cons_append, quoted_double hescape,
      unescape_double, Prod.ext_iff, List.cons.injEq, true_and]
  · simp only [readBack_iff, doubled_cons hquote, List.cons_append, quoted_take hquote hescape,
      unescape_take hquote hescape, Prod.ext_iff, List.cons.injEq, true_and]

/-- What is escaped is given back with its backslash only if it is a wildcard. -/
theorem readBack_escape (hescape : escapes backslash c = true) (hd : d ≠ '\x27') :
    ReadBack backslash (c :: d :: cs) ↔ (d = '%' ∨ d = '_') ∧ ReadBack backslash cs := by
  obtain ⟨-, rfl⟩ := escapes_iff.mp hescape
  have hmeaning : escapeMeaning d ++ unescape backslash (doubled cs) = '\\' :: d :: cs ↔
      (d = '%' ∨ d = '_') ∧ unescape backslash (doubled cs) = cs := by
    constructor
    · intro heq
      -- What an escape shortens is not made up for behind it.
      have hlength := congrArg List.length heq
      have hbehind := (length_unescape_le backslash cs).1
      simp only [List.length_append, List.length_cons] at hlength
      have hwild : d = '%' ∨ d = '_' := wildcard_of_length (by omega)
      refine ⟨hwild, ?_⟩
      rcases hwild with rfl | rfl <;> simpa [escapeMeaning] using heq
    · rintro ⟨rfl | rfl, heq⟩ <;> rw [heq] <;> rfl
  have hne : '\\' ≠ '\x27' := by decide
  simp only [readBack_iff, doubled_cons hne, doubled_cons hd, List.cons_append,
    quoted_escape hescape, unescape_escape hescape, hmeaning, Prod.ext_iff, List.cons.injEq,
    true_and]
  exact and_left_comm

/-- An escape that takes the quote behind the text, or one of two, spoils it. -/
theorem not_readBack_last (hescape : escapes backslash c = true) : ¬ReadBack backslash [c] := by
  obtain ⟨rfl, rfl⟩ := escapes_iff.mp hescape
  exact fun h => absurd (h.closed [' '] (by decide)) (by decide)

/-- An escaped quote is given back without its backslash, so it is not given back as it was. -/
theorem not_readBack_quote (hescape : escapes backslash c = true) :
    ¬ReadBack backslash (c :: '\x27' :: cs) := by
  obtain ⟨-, rfl⟩ := escapes_iff.mp hescape
  intro h
  have hmeaning := h.meaning
  rw [doubled_cons (by decide), doubled_quote, unescape_escape hescape] at hmeaning
  exact absurd (List.cons.inj hmeaning).1 (by decide)

/-- Where the first character does not escape, the rest decides. -/
theorem kept_unescaped (hescape : escapes backslash c = false) :
    (backslash = true → Kept (c :: cs)) ↔ (backslash = true → Kept cs) := by
  refine imp_congr_right fun hbackslash => kept_cons.trans (and_iff_right fun hc => ?_)
  rw [escapes_iff.mpr ⟨hbackslash, hc⟩] at hescape
  cases hescape

/-- Exactly the texts are read back in which no backslash means anything. -/
theorem readBack_iff_kept : ReadBack backslash cs ↔ (backslash = true → Kept cs) := by
  -- Two characters at a time, as an escape takes the one behind it.
  induction cs using List.twoStepInduction with
  | nil => exact iff_of_true readBack_nil fun _ => kept_nil
  | singleton c =>
    cases hescape : escapes backslash c with
    | false =>
      rw [readBack_cons hescape, kept_unescaped hescape]
      exact iff_of_true readBack_nil fun _ => kept_nil
    | true =>
      obtain ⟨hbackslash, hc⟩ := escapes_iff.mp hescape
      refine iff_of_false (not_readBack_last hescape) fun h => ?_
      simpa using (kept_cons.mp (h hbackslash)).1 hc
  | cons_cons c d cs ih ih' =>
    cases hescape : escapes backslash c with
    | false => rw [readBack_cons hescape, kept_unescaped hescape, ih' d]
    | true =>
      obtain ⟨hbackslash, hc⟩ := escapes_iff.mp hescape
      have hkept : (backslash = true → Kept (c :: d :: cs)) ↔
          (d = '%' ∨ d = '_') ∧ Kept (d :: cs) := by
        simp [hbackslash, hc, kept_cons (c := '\\')]
      rw [hkept]
      -- A quote behind a backslash spoils the text, and it is no wildcard either.
      by_cases hd : d = '\x27'
      · subst hd
        exact iff_of_false (not_readBack_quote hescape) (by simp)
      · rw [readBack_escape hescape hd, ih]
        refine and_congr_right fun hwild => ?_
        have hne : d ≠ '\\' := by rcases hwild with rfl | rfl <;> decide
        simp [hbackslash, kept_cons (c := d), hne]

end Statement

/-! ## §3 Literals -/

/-- The literal is one in the dialect, and it stands for the text: from behind its first quote the
scanner reads it up to its last character, whatever follows that is no further quote, and with its
escapes undone it is the text. -/
def Dialect.Denotes (d : Dialect) (literal text : String) : Prop :=
  ∃ body, literal.toList = '\x27' :: (body ++ ['\x27']) ∧
    (∀ rest, rest.head? ≠ some '\x27' →
      Statement.quoted d.backslashEscapes '\x27' (body ++ '\x27' :: rest) =
        (body ++ ['\x27'], rest)) ∧
    Statement.unescape d.backslashEscapes body = text.toList

namespace Provider

/-- A literal is the doubled text between quotes. -/
theorem toList_literal (text : String) :
    (literal text).toList = '\x27' :: (Statement.doubled text.toList ++ ['\x27']) := by
  simp [literal, Text.double, Statement.doubled]

/-- A literal denotes the text that it was made from exactly if no backslash means anything in the
text. -/
theorem denotes_literal (d : Dialect) (text : String) :
    d.Denotes (literal text) text ↔
      (d.backslashEscapes = true → Statement.Kept text.toList) := by
  rw [← Statement.readBack_iff_kept, Statement.readBack_iff, Dialect.Denotes, toList_literal]
  constructor
  · rintro ⟨body, hbody, h⟩
    rw [List.append_cancel_right (List.cons.inj hbody).2]
    exact h
  · exact fun h => ⟨_, rfl, h⟩

/-- A default that is not written as it stands is a literal of its text. -/
theorem eq_literal_of_defaultClause? {p : Provider} {c : Column} {s : String}
    (h : p.defaultClause? c = some s) (hgiven : Text.trim c.defaultValue ≠ "")
    (hquoted : s ≠ Text.trim c.defaultValue) : s = literal (Text.trim c.defaultValue) := by
  unfold defaultClause? at h
  split at h
  · cases h
  · simp only [hgiven, ne_eq, not_false_eq_true, if_true] at h
    split at h
    · cases h
    · have hs := Option.some.inj h
      unfold defaultLiteral at hs
      split at hs
      · exact absurd hs.symm hquoted
      · exact hs.symm

end Provider

/-- The literals of comments and defaults denote their texts in every dialect in which a backslash
is a character like any other.  In MySQL, which is the only one to write comments, they do exactly
if every backslash in the text stands in front of a wildcard. -/
theorem Provider.literals_denote (p : Provider) (c : Column) :
    (p.dialect = .mysql → c.comment ≠ "" → ∃ l, p.commentClause c = " COMMENT " ++ l ∧
      (p.dialect.Denotes l c.comment ↔ Statement.Kept c.comment.toList)) ∧
    (p.dialect ≠ .mysql → p.commentClause c = "") ∧
    ∀ s, p.defaultClause? c = some s → Text.trim c.defaultValue ≠ "" →
      s ≠ Text.trim c.defaultValue →
      (p.dialect.Denotes s (Text.trim c.defaultValue) ↔
        (p.dialect = .mysql → Statement.Kept (Text.trim c.defaultValue).toList)) := by
  have hescapes : p.dialect.backslashEscapes = true ↔ p.dialect = .mysql := by
    cases p.dialect <;> decide
  refine ⟨fun hmysql hcomment => ?_, fun hother => ?_, fun s hs hgiven hquoted => ?_⟩
  · refine ⟨literal c.comment, ?_, ?_⟩
    · rw [commentClause, hmysql]
      exact if_neg hcomment
    · rw [denotes_literal, hescapes]
      exact ⟨fun h => h hmysql, fun h _ => h⟩
  · unfold commentClause
    split
    · next hmysql => exact absurd hmysql hother
    · rfl
  · rw [eq_literal_of_defaultClause? hs hgiven hquoted, denotes_literal, hescapes]

/-- A column whose comment and default have a quote and a wildcard. -/
def rebate : Column where
  name := "rebate"
  dataType := "varchar"
  defaultValue := " it's off "
  comment := "it's 5\\% off"

/-- Both are written as literals that denote them. -/
theorem rebate_literals_denote :
    (∃ l, (Provider.stock .mysql).commentClause rebate = " COMMENT " ++ l ∧
      Dialect.mysql.Denotes l "it's 5\\% off") ∧
    Dialect.mysql.Denotes "'it''s off'" "it's off" := by
  obtain ⟨hcomment, -, hdefault⟩ := Provider.literals_denote (.stock .mysql) rebate
  have htrim : Text.trim rebate.defaultValue = "it's off" := by decide +kernel
  constructor
  · obtain ⟨l, hl, hdenotes⟩ := hcomment rfl (by decide)
    exact ⟨l, hl, hdenotes.mpr (by simp [rebate, Statement.kept_cons, Statement.kept_nil])⟩
  · rw [htrim] at hdefault
    exact (hdefault _ (by decide +kernel) (by decide) (by decide)).mpr fun _ => by
      simp [Statement.kept_cons, Statement.kept_nil]

/-- A column whose comment and default end in a backslash. -/
def folder : Column where
  name := "folder"
  dataType := "varchar"
  defaultValue := "C:\\"
  comment := "C:\\"

/-- In MySQL their literals are not closed. -/
theorem folder_literals_open :
    (Provider.stock .mysql).commentClause folder = " COMMENT 'C:\\'" ∧
      (Provider.stock .mysql).defaultClause? folder = some "'C:\\'" ∧
      (Statement.quoted Dialect.mysql.backslashEscapes '\x27' "C:\\' NOT NULL".toList).1 =
        "C:\\' NOT NULL".toList ∧
      ¬Dialect.mysql.Denotes "'C:\\'" "C:\\" := by
  have hliteral : "'C:\\'" = Provider.literal "C:\\" := by decide +kernel
  refine ⟨by decide +kernel, by decide +kernel, by decide +kernel, ?_⟩
  rw [hliteral, Provider.denotes_literal]
  simp [Statement.kept_cons, Dialect.backslashEscapes]

end SqlService
