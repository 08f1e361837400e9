import SqlService.Proofs.Statement.Closed

/-!
# A scanner for statements

The pieces of a statement are cut by looking ahead for the end of each region.  Here a statement is
read by a scanner that takes one character at a time and remembers what is open: a quote, a comment,
a variable of the system, a name.  At the end of a piece nothing is open that could change how the
next character is read (`Border`), so both find the same names.

Main statement: the names among the pieces are the live names of the scanner (`holds_pieces_iff`).
-/

namespace SqlService.Statement

/-! ## §1 The scanner -/

/-- What the characters up to here leave open. -/
inductive Mode where
  /-- Nothing is open. -/
  | text
  /-- A `-` that one more would make a comment. -/
  | dash
  /-- A `/` that a `*` would make a comment. -/
  | slash
  /-- An `@` outside of all regions. -/
  | sign
  /-- The word after such an `@`. -/
  | name
  /-- The word after `@@`. -/
  | system
  /-- Quoted text. -/
  | quoted (quote : Char)
  /-- A backslash in quoted text that passes over the next character. -/
  | escaped (quote : Char)
  /-- A quote in quoted text, which closes it unless it is doubled. -/
  | closing (quote : Char)
  /-- A comment that ends with its line. -/
  | line
  /-- A comment between marks. -/
  | block
  /-- A `*` in such a comment. -/
  | star
  deriving DecidableEq, Repr

namespace Mode

/-- The mode after a character in front of which nothing is open. -/
def enter (c : Char) : Mode :=
  match c with
  | '\x27' | '"' | '\x60' => quoted c
  | '-' => dash
  | '/' => slash
  | '@' => sign
  | _ => text

/-- The mode after one more character. -/
def step (backslash : Bool) : Mode → Char → Mode
  | text, c => enter c
  | dash, c => if c == '-' then line else enter c
  | slash, c => if c == '*' then block else enter c
  | sign, c => if c == '@' then system else if Text.isWordChar c then name else enter c
  | name, c => if Text.isWordChar c then name else enter c
  | system, c => if Text.isWordChar c then system else enter c
  | quoted q, c =>
    -- Between grave accents a backslash is a character like any other.
    if backslash && q != '\x60' && c == '\\' then escaped q
    else if c == q then closing q
    else quoted q
  | escaped q, _ => quoted q
  -- Only the next character tells whether the quotes have ended.
  | closing q, c => if c == q then quoted q else enter c
  | line, c => if c == '\n' then text else line
  | block, c => if c == '*' then star else block
  | star, c => if c == '/' then text else if c == '*' then star else block

/-- The mode after a text. -/
def scan (backslash : Bool) (m : Mode) (cs : List Char) : Mode := cs.foldl (step backslash) m

/-- Between the two texts, an `@` and the word are a live name: the `@` is outside of all regions
and not the second of two, and the word is not empty and as long as can be. -/
structure Live (backslash : Bool) (m : Mode) (before word after : List Char) : Prop where
  sign : (m.scan backslash before).step backslash '@' = .sign
  nonempty : word ≠ []
  chars : ∀ c ∈ word, Text.isWordChar c = true
  maximal : ∀ c tail, after = c :: tail → Text.isWordChar c = false

/-- What follows is scanned as at the start of a statement. -/
def Border (backslash : Bool) (m : Mode) (cs : List Char) : Prop :=
  ∀ c tail, cs = c :: tail → m.step backslash c = enter c

/-- No character of the text is a sign. -/
def Silent (backslash : Bool) : Mode → List Char → Prop
  | _, [] => True
  | m, c :: cs => m.step backslash c ≠ .sign ∧ Silent backslash (m.step backslash c) cs

variable {backslash : Bool} {m : Mode}

@[simp] theorem scan_nil : m.scan backslash [] = m := rfl

@[simp] theorem scan_cons (c : Char) (cs : List Char) :
    m.scan backslash (c :: cs) = (m.step backslash c).scan backslash cs := rfl

/-- Two texts are scanned one after the other. -/
theorem scan_append (cs ds : List Char) :
    m.scan backslash (cs ++ ds) = (m.scan backslash cs).scan backslash ds :=
  List.foldl_append

/-- Where nothing follows there is a border. -/
theorem border_nil : Border backslash m [] := fun _ _ h => nomatch h

/-- Whether a name is live may be seen from any point in front of it. -/
theorem live_append {before more word after : List Char} :
    m.Live backslash (before ++ more) word after ↔
      (m.scan backslash before).Live backslash more word after := by
  constructor <;> rintro ⟨hsign, hne, hword, hmax⟩
  · exact ⟨by rwa [scan_append] at hsign, hne, hword, hmax⟩
  · exact ⟨by rwa [scan_append], hne, hword, hmax⟩

/-- In a silent text no character is a sign. -/
theorem Silent.not_sign {before after : List Char} {c : Char}
    (h : Silent backslash m (before ++ c :: after)) :
    (m.scan backslash before).step backslash c ≠ .sign := by
  induction before generalizing m with
  | nil => exact h.1
  | cons x before ih => exact ih h.2

/-! ## §2 Dead regions -/

/-- The text is silent and leaves nothing open for what follows. -/
structure Dead (backslash : Bool) (m : Mode) (text rest : List Char) : Prop where
  silent : Silent backslash m text
  border : Border backslash (m.scan backslash text) rest

/-- One more character in front of a dead region. -/
theorem Dead.cons {c : Char} {text rest : List Char} (hc : m.step backslash c ≠ .sign)
    (h : Dead backslash (m.step backslash c) text rest) : Dead backslash m (c :: text) rest :=
  ⟨⟨hc, h.silent⟩, h.border⟩

/-- In quotes nothing is a sign. -/
theorem step_quoted_ne_sign (q c : Char) : (quoted q).step backslash c ≠ .sign := by
  simp only [step]
  split
  · exact nofun
  · split <;> exact nofun

/-- Quoted text is dead, whether a backslash escapes in it or not. -/
theorem dead_quoted {escapes : Bool} {q : Char} (h : escapes = (backslash && q != '\x60'))
    (cs : List Char) :
    Dead backslash (quoted q) (Statement.quoted escapes q cs).1
      (Statement.quoted escapes q cs).2 := by
  -- Where the regions look one character ahead, the scanner has remembered one.
  -- By the recursion of the quoted region, with its cases in the order of the tests.
  fun_induction Statement.quoted escapes q cs with
  -- The text ends inside the quotes.
  | case1 => exact ⟨trivial, border_nil⟩
  | case2 c => exact ⟨⟨step_quoted_ne_sign q c, trivial⟩, border_nil⟩
  -- An escaped character stays inside, whatever it is.
  | case3 c d rest hc ih =>
    have hstep : (quoted q).step backslash c = escaped q := by simp only [step, ← h, hc, if_true]
    refine .cons (step_quoted_ne_sign q c) ?_
    rw [hstep]
    exact .cons (by simp [step]) ih
  -- A doubled quote stays inside.
  | case4 c d rest hc hquote hd ih =>
    have hstep : (quoted q).step backslash c = closing q := by
      simp only [step, ← h, hc, hquote, Bool.false_eq_true, if_false, if_true]
    have hagain : (closing q).step backslash d = quoted q := by simp only [step, hd, if_true]
    refine .cons (step_quoted_ne_sign q c) ?_
    rw [hstep]
    refine .cons (by simp [hagain]) ?_
    rw [hagain]
    exact ih
  | case5 c d rest hc hquote hd =>
    have hstep : (quoted q).step backslash c = closing q := by
      simp only [step, ← h, hc, hquote, Bool.false_eq_true, if_false, if_true]
    -- The quotes end here, and what follows is no third quote.
    refine ⟨⟨step_quoted_ne_sign q c, trivial⟩, ?_⟩
    rintro e tail heq
    cases heq
    rw [scan_cons, scan_nil, hstep]
    simp only [step, hd, Bool.false_eq_true, if_false]
  -- Any other character stays inside.
  | case6 c d rest hc hquote ih =>
    have hstep : (quoted q).step backslash c = quoted q := by
      simp only [step, ← h, hc, hquote, Bool.false_eq_true, if_false]
    refine .cons (step_quoted_ne_sign q c) ?_
    rw [hstep]
    exact ih

/-- A run of characters over which the mode stays. -/
theorem dead_run {run rest : List Char} (hm : m ≠ .sign)
    (hrun : ∀ c ∈ run, m.step backslash c = m) (hrest : Border backslash m rest) :
    Dead backslash m run rest := by
  induction run with
  | nil => exact ⟨trivial, hrest⟩
  -- The mode is the same after the character, so the induction goes on with it.
  | cons c run ih =>
    have hc := hrun c List.mem_cons_self
    refine .cons (by rwa [hc]) ?_
    rw [hc]
    exact ih fun d hd => hrun d (List.mem_cons_of_mem _ hd)

/-- A line comment is dead, and the end of its line is outside of it. -/
theorem dead_line (cs : List Char) :
    Dead backslash .line (lineComment cs).1 (lineComment cs).2 := by
  refine dead_run nofun (fun c hc => ?_) fun c tail heq => ?_
  · have hne : (c != '\n') = true := List.mem_takeWhile_imp (p := (· != '\n')) hc
    simp [step, bne_iff_ne.mp hne]
  · -- What follows starts with the end of the line, or there is nothing.
    have hhead := List.head?_dropWhile_not (· != '\n') cs
    rw [show cs.dropWhile (· != '\n') = c :: tail from heq] at hhead
    obtain rfl : c = '\n' := by simpa using hhead
    rfl

/-- What stands behind a word does not continue it. -/
theorem not_word_of_word {cs : List Char} :
    ∀ c tail, (word cs).2 = c :: tail → Text.isWordChar c = false :=
  not_word_of_fits (.inl rfl)

/-- A word is made of characters of words. -/
theorem isWordChar_of_mem_word {cs : List Char} {c : Char} (h : c ∈ (word cs).1) :
    Text.isWordChar c = true :=
  List.mem_takeWhile_imp h

/-- The name of a system variable is dead. -/
theorem dead_system (cs : List Char) : Dead backslash .system (word cs).1 (word cs).2 := by
  refine dead_run nofun (fun c hc => ?_) fun c tail heq => ?_
  · simp only [step, isWordChar_of_mem_word hc, if_true]
  · simp only [step, not_word_of_word c tail heq, Bool.false_eq_true, if_false]

/-- A block comment is closed here, or has one more character. -/
theorem blockComment_cons (c : Char) (cs : List Char) :
    (∃ rest, c = '*' ∧ cs = '/' :: rest ∧ blockComment (c :: cs) = (['*', '/'], rest)) ∨
      (¬ (c = '*' ∧ cs.head? = some '/') ∧
        blockComment (c :: cs) = (c :: (blockComment cs).1, (blockComment cs).2)) := by
  -- The mark is there or it is not; only then does the cut look further.
  by_cases hmark : c = '*' ∧ cs.head? = some '/'
  · obtain ⟨rfl, hhead⟩ := hmark
    obtain ⟨rest, rfl⟩ := List.head?_eq_some_iff.mp hhead
    exact .inl ⟨rest, rfl, rfl, rfl⟩
  · have hno : ['*', '/'].isPrefixOf (c :: cs) = false := by
      rw [Bool.eq_false_iff, ne_eq, List.isPrefixOf_iff_prefix, List.cons_prefix_cons]
      rintro ⟨rfl, tail, rfl⟩
      exact hmark ⟨rfl, rfl⟩
    refine .inr ⟨hmark, ?_⟩
    simp only [blockComment, Text.cut?, hno, Bool.false_eq_true, if_false]
    cases Text.cut? ['*', '/'] cs <;> rfl

/-- A `*` counts for nothing if no `/` follows it. -/
theorem Dead.star {text rest : List Char} (hne : text.head? ≠ some '/')
    (hrest : text = [] → rest = []) (h : Dead backslash .block text rest) :
    Dead backslash .star text rest := by
  cases text with
  | nil => exact ⟨trivial, by rw [hrest rfl]; exact border_nil⟩
  -- The mode forgets the `*` with the next character, which is no `/`.
  | cons c text =>
    have hc : c ≠ '/' := fun heq => hne (by rw [heq]; rfl)
    have hstep : Mode.star.step backslash c = Mode.block.step backslash c := by simp [step, hc]
    have hsilent := h.silent.1
    refine .cons (by rwa [hstep]) ?_
    rw [hstep]
    exact ⟨h.silent.2, h.border⟩

/-- A block comment is dead, up to and with the mark that closes it. -/
theorem dead_block (cs : List Char) :
    Dead backslash .block (blockComment cs).1 (blockComment cs).2 := by
  induction cs with
  | nil => exact ⟨trivial, border_nil⟩
  | cons c cs ih =>
    rcases blockComment_cons c cs with ⟨rest, rfl, rfl, heq⟩ | ⟨hno, heq⟩
    · rw [heq]
      exact ⟨⟨nofun, nofun, trivial⟩, fun _ _ _ => rfl⟩
    · rw [heq]
      have happend := blockComment_append cs
      by_cases hc : c = '*'
      · -- This `*` is followed by something else than `/`.
        subst hc
        refine .cons nofun (.star ?_ ?_ ih)
        · intro hhead
          obtain ⟨tail, htail⟩ := List.head?_eq_some_iff.mp hhead
          rw [htail] at happend
          exact hno ⟨rfl, by rw [← happend]; rfl⟩
        -- A comment that ends in this `*` is not closed, so nothing follows.
        · intro hnil
          cases cs with
          | nil => rfl
          | cons d cs =>
            rcases blockComment_cons d cs with ⟨_, _, _, h⟩ | ⟨_, h⟩ <;> rw [h] at hnil <;>
              cases hnil
      · have hstep : Mode.block.step backslash c = .block := by simp [step, hc]
        refine .cons (by rw [hstep]; exact nofun) ?_
        rw [hstep]
        exact ih

/-! ## §3 Pieces -/

/-- What the scanner makes of a piece that it meets in a mode, and of what follows the piece. -/
inductive Taken (backslash : Bool) (m : Mode) : Piece → List Char → Prop where
  /-- No sign is in the text. -/
  | dead {text rest : List Char} (h : Dead backslash m text rest) :
      Taken backslash m (.plain text) rest
  /-- The text starts with a sign that no name follows. -/
  | bare {text rest : List Char} (hsign : m.step backslash '@' = .sign)
      (h : Dead backslash .sign text rest)
      (hnone : ∀ c tail, text ++ rest = c :: tail → Text.isWordChar c = false) :
      Taken backslash m (.plain ('@' :: text)) rest
  /-- A name and its sign. -/
  | name {w rest : List Char} (h : m.Live backslash [] w rest)
      (hb : Border backslash (m.scan backslash ('@' :: w)) rest) :
      Taken backslash m (.name w) rest

/-- Behind a piece there is a border. -/
theorem Taken.border {p : Piece} {rest : List Char} (h : Taken backslash m p rest) :
    Border backslash (m.scan backslash p.text) rest := by
  cases h with
  | dead h => exact h.border
  | bare hsign h _ =>
    simp only [Piece.text, scan_cons, hsign]
    exact h.border
  | name _ hb => exact hb

/-- Only the sign is a sign. -/
theorem enter_ne_sign {c : Char} (h : c ≠ '@') : enter c ≠ .sign := by
  unfold enter
  split
  case h_6 => exact absurd rfl h
  all_goals exact nofun

/-- A character that opens nothing leaves nothing open. -/
theorem enter_eq_text {c : Char} (h1 : c ≠ '\x27') (h2 : c ≠ '"') (h3 : c ≠ '\x60')
    (h4 : c ≠ '-') (h5 : c ≠ '/') (h6 : c ≠ '@') : enter c = .text := by
  unfold enter
  split <;> first | rfl | contradiction

/-- A word after a sign is a name. -/
theorem scan_sign_word {w : List Char} (hne : w ≠ []) (hw : ∀ c ∈ w, Text.isWordChar c = true) :
    Mode.sign.scan backslash w = .name := by
  obtain ⟨x, w, rfl⟩ := List.exists_cons_of_ne_nil hne
  have hx : x ≠ '@' := by
    rintro rfl
    exact absurd (hw _ List.mem_cons_self) (by decide)
  -- A name goes on through the rest of the word.
  have hstay : ∀ cs : List Char, (∀ c ∈ cs, Text.isWordChar c = true) →
      Mode.name.scan backslash cs = .name := by
    intro cs hcs
    induction cs with
    | nil => rfl
    | cons c cs ih =>
      have hc : Mode.name.step backslash c = .name := by simp [step, hcs c List.mem_cons_self]
      rw [scan_cons, hc]
      exact ih fun d hd => hcs d (List.mem_cons_of_mem _ hd)
  have hstep : Mode.sign.step backslash x = .name := by
    simp [step, hx, hw x List.mem_cons_self]
  rw [scan_cons, hstep]
  exact hstay w fun c hc => hw c (List.mem_cons_of_mem _ hc)

/-- A character that opens no region leaves nothing open for what does not continue it. -/
theorem border_enter {c : Char} {cs : List Char} (h1 : c ≠ '\x27') (h2 : c ≠ '"')
    (h3 : c ≠ '\x60') (h4 : c ≠ '@') (h5 : ∀ rest, c = '-' → cs ≠ '-' :: rest)
    (h6 : ∀ rest, c = '/' → cs ≠ '*' :: rest) : Border backslash (enter c) cs := by
  rintro d tail rfl
  -- Only a dash and a slash leave something open, and what follows does not continue it.
  by_cases hdash : c = '-'
  · subst hdash
    have hd : d ≠ '-' := fun heq => h5 tail rfl (by rw [heq])
    simp [enter, step, hd]
  · by_cases hslash : c = '/'
    · subst hslash
      have hd : d ≠ '*' := fun heq => h6 tail rfl (by rw [heq])
      simp [enter, step, hd]
    · rw [enter_eq_text h1 h2 h3 hdash hslash h4]
      rfl

/-- A dead region behind the character that opens it. -/
theorem taken_dead {c : Char} {text rest : List Char} (hc : m.step backslash c = enter c)
    (hat : c ≠ '@') (h : Dead backslash (enter c) text rest) :
    Taken backslash m (.plain (c :: text)) rest := by
  rw [← hc] at h
  exact .dead (.cons (by rw [hc]; exact enter_ne_sign hat) h)

/-- The first piece of what follows a border. -/
theorem taken_next {c : Char} {cs : List Char} (hc : m.step backslash c = enter c) :
    Taken backslash m (next backslash c cs).1 (next backslash c cs).2 := by
  -- One case for each kind of piece, in the order in which they are tried.
  unfold next
  split
  case h_1 => exact taken_dead hc (by decide) (dead_quoted (by simp) cs)
  case h_2 => exact taken_dead hc (by decide) (dead_quoted (by simp) cs)
  case h_3 => exact taken_dead hc (by decide) (dead_quoted (by simp) cs)
  case h_4 rest => exact taken_dead hc (by decide) (.cons nofun (dead_line rest))
  case h_5 rest => exact taken_dead hc (by decide) (.cons nofun (dead_block rest))
  case h_6 rest =>
    -- The first sign is one, but what follows it is a second sign and no name.
    refine .bare hc (.cons nofun (dead_system rest)) ?_
    rintro c tail heq
    cases heq
    decide
  case h_7 hat =>
    have hrest : ∀ d tail, (word cs).2 = d :: tail → Text.isWordChar d = false :=
      not_word_of_word
    have hchars : ∀ d ∈ (word cs).1, Text.isWordChar d = true := fun _ => isWordChar_of_mem_word
    have happend := word_append cs
    cases hw : word cs with
    -- After a single sign it depends on whether a word follows.
    | mk w rest =>
      rw [hw] at hrest hchars happend
      cases w with
      | nil =>
        obtain rfl : rest = cs := happend
        refine .bare hc ⟨trivial, ?_⟩ hrest
        rintro d tail rfl
        have hd : d ≠ '@' := fun heq => hat tail (by rw [heq])
        simp [step, hd, hrest d tail rfl]
      | cons x w =>
        have hne : x :: w ≠ [] := List.cons_ne_nil x w
        refine .name ⟨hc, hne, hchars, hrest⟩ ?_
        intro d tail heq
        have hname : Mode.sign.scan backslash (x :: w) = .name := scan_sign_word hne hchars
        rw [scan_cons, hc, show enter '@' = .sign from rfl, hname]
        simp [step, hrest d tail heq]
  -- Any other character is a piece by itself.
  case h_8 h1 h2 h3 h4 h5 h6 _ =>
    refine taken_dead hc h4 ⟨trivial, ?_⟩
    exact border_enter h1 h2 h3 h4 (fun rest heq hcs => h5 rest heq hcs)
      fun rest heq hcs => h6 rest heq hcs

/-- Words that nothing continues are the same if the texts that they start are. -/
theorem word_unique {w w' after after' : List Char} (hw : ∀ c ∈ w, Text.isWordChar c = true)
    (hw' : ∀ c ∈ w', Text.isWordChar c = true)
    (hafter : ∀ c tail, after = c :: tail → Text.isWordChar c = false)
    (hafter' : ∀ c tail, after' = c :: tail → Text.isWordChar c = false)
    (h : w ++ after = w' ++ after') : w = w' ∧ after = after' := by
  obtain ⟨htake, hdrop⟩ := span_append hw hafter
  obtain ⟨htake', hdrop'⟩ := span_append hw' hafter'
  rw [h] at htake hdrop
  exact ⟨htake.symm.trans htake', hdrop.symm.trans hdrop'⟩

/-- A live name is the first piece or stands behind it. -/
theorem Live.after_taken {p : Piece} {rest before w after : List Char}
    (hp : Taken backslash m p rest) (hlive : m.Live backslash before w after)
    (heq : p.text ++ rest = before ++ '@' :: (w ++ after)) :
    (p = .name w ∧ before = [] ∧ rest = after) ∨
      ∃ more, before = p.text ++ more ∧ rest = more ++ '@' :: (w ++ after) := by
  -- The sign of the name stands behind the piece or in it.
  rcases List.append_eq_append_iff.mp heq with ⟨more, hbefore, hrest⟩ | ⟨tail, htext, htail⟩
  · exact .inr ⟨more, hbefore, hrest⟩
  · cases tail with
    | nil => exact .inr ⟨[], by simpa using htext.symm, htail.symm⟩
    | cons x tail =>
      -- The sign is a character of the piece.
      rw [List.cons_append] at htail
      obtain ⟨rfl, hword⟩ := List.cons.inj htail
      cases hp with
      | dead h =>
        have hsilent : Silent backslash m (before ++ '@' :: tail) := by
          rw [← htext]
          exact h.silent
        exact absurd hlive.sign hsilent.not_sign
      | @bare text _ hsign h hnone =>
        -- It is the sign that starts the piece, but no name follows that one; or it is another one.
        cases before with
        | nil =>
          obtain ⟨-, rfl⟩ := List.cons.inj htext
          obtain ⟨y, w, rfl⟩ := List.exists_cons_of_ne_nil hlive.nonempty
          have hy := hlive.chars y List.mem_cons_self
          rw [hnone y (w ++ after) hword.symm] at hy
          cases hy
        | cons b before =>
          obtain ⟨rfl, rfl⟩ := List.cons.inj htext
          have hlater := hlive.sign
          rw [scan_cons, hsign] at hlater
          exact absurd hlater h.silent.not_sign
      | @name w' _ h _ =>
        -- Both are the same sign, and their words are as long as can be.
        cases before with
        | nil =>
          obtain ⟨-, rfl⟩ := List.cons.inj htext
          obtain ⟨rfl, rfl⟩ := word_unique hlive.chars h.chars hlive.maximal h.maximal hword
          exact .inl ⟨rfl, rfl, rfl⟩
        | cons b before =>
          -- There is no second sign in a name.
          obtain ⟨-, rfl⟩ := List.cons.inj htext
          have hat := h.chars '@' (List.mem_append_right _ List.mem_cons_self)
          exact absurd hat (by decide)

end Mode

/-- The word is a name among the pieces, between the two texts. -/
def Holds (ps : List Piece) (before word after : List Char) : Prop :=
  ∃ front back, ps = front ++ .name word :: back ∧
    before = front.flatMap Piece.text ∧ after = back.flatMap Piece.text

/-- Without pieces there is no name. -/
theorem not_holds_nil {before w after : List Char} : ¬ Holds [] before w after := by
  rintro ⟨front, back, heq, -⟩
  cases front <;> cases heq

/-- A name is the first piece or one behind it. -/
theorem holds_cons {p : Piece} {ps : List Piece} {before w after : List Char} :
    Holds (p :: ps) before w after ↔
      (p = .name w ∧ before = [] ∧ after = ps.flatMap Piece.text) ∨
        ∃ more, before = p.text ++ more ∧ Holds ps more w after := by
  constructor
  · rintro ⟨front, back, heq, rfl, rfl⟩
    -- What stands in front of the piece decides which of the two it is.
    cases front with
    | nil =>
      obtain ⟨rfl, rfl⟩ := List.cons.inj heq
      exact .inl ⟨rfl, rfl, rfl⟩
    | cons q front =>
      obtain ⟨rfl, rfl⟩ := List.cons.inj heq
      exact .inr ⟨front.flatMap Piece.text, rfl, front, back, rfl, rfl, rfl⟩
  · rintro (⟨rfl, rfl, rfl⟩ | ⟨_, rfl, front, back, rfl, rfl, rfl⟩)
    · exact ⟨[], ps, rfl, rfl, rfl⟩
    · exact ⟨p :: front, back, rfl, rfl, rfl⟩

/-- A piece that is not the word only moves the places of what follows it. -/
theorem holds_behind {p : Piece} {ps : List Piece} {gap before w : List Char}
    (hp : p ≠ .name w) :
    (∃ more after, before = gap ++ more ∧ Holds (p :: ps) more w after) ↔
      ∃ more after, before = gap ++ p.text ++ more ∧ Holds ps more w after := by
  constructor
  · rintro ⟨_, after, rfl, hholds⟩
    rcases holds_cons.mp hholds with ⟨hname, -⟩ | ⟨more, rfl, hrest⟩
    · exact absurd hname hp
    · exact ⟨more, after, by rw [List.append_assoc], hrest⟩
  · rintro ⟨more, after, rfl, hholds⟩
    exact ⟨p.text ++ more, after, by rw [List.append_assoc],
      holds_cons.mpr (.inr ⟨more, rfl, hholds⟩)⟩

/-- The names among the pieces of a text are its live names, in their places. -/
theorem holds_pieces_iff {backslash : Bool} {m : Mode} {cs before w after : List Char}
    (h : m.Border backslash cs) :
    Holds (pieces backslash cs) before w after ↔
      cs = before ++ '@' :: (w ++ after) ∧ m.Live backslash before w after := by
  -- Each piece leaves a border, where the induction goes on in the mode that was reached.
  fun_induction pieces backslash cs generalizing m before with
  | case1 =>
    refine iff_of_false not_holds_nil ?_
    rintro ⟨heq, -⟩
    cases before <;> cases heq
  | case2 c cs ih =>
    have htaken : Mode.Taken backslash m (next backslash c cs).1 (next backslash c cs).2 :=
      Mode.taken_next (h c cs rfl)
    have happend := next_append backslash c cs
    rw [holds_cons, text_pieces]
    constructor
    -- From the pieces to the scanner: the first piece is what the scanner has taken.
    · rintro (⟨hname, rfl, rfl⟩ | ⟨more, rfl, hmore⟩)
      · rw [hname] at htaken happend
        refine ⟨happend.symm, ?_⟩
        cases htaken with
        | name hlive _ => exact hlive
      · obtain ⟨hrest, hlive⟩ := (ih htaken.border).mp hmore
        rw [List.append_assoc, ← hrest, happend]
        exact ⟨rfl, Mode.live_append.mpr hlive⟩
    -- And back: a live name is the first piece, or it is live behind the border.
    · rintro ⟨heq, hlive⟩
      rcases hlive.after_taken htaken (happend.trans heq) with
        ⟨hname, rfl, rfl⟩ | ⟨more, rfl, hrest⟩
      · exact .inl ⟨hname, rfl, rfl⟩
      · exact .inr ⟨more, rfl, (ih htaken.border).mpr ⟨hrest, Mode.live_append.mp hlive⟩⟩

end SqlService.Statement
