import Mathlib.Data.List.TakeWhile
import SqlService.Statement.Scan

/-!
# Closed texts

A text is closed if every quote and every comment that its scan opens is ended in it, a line comment
by the end of its line.  What follows a closed text is scanned as if it stood alone, as long as it
starts with a character that continues nothing (`neutral`).

Main statement: `pieces_append`.
-/

namespace SqlService.Statement

/-! ## §1 Ends of regions -/

/-- Whether the quotes that are open here are closed. -/
def quotedEnds (backslash : Bool) (quote : Char) : List Char → Bool
  | [] => false
  | [c] => c == quote
  | c :: d :: rest =>
    if backslash && c == '\\' then quotedEnds backslash quote rest
    else if c == quote then
      if d == quote then quotedEnds backslash quote rest else true
    else quotedEnds backslash quote (d :: rest)

/-- Whether the quote or comment that starts with `c`, if any, is ended. -/
def ends (backslash : Bool) (c : Char) (cs : List Char) : Bool :=
  match c, cs with
  | '\x27', cs => quotedEnds backslash c cs
  | '"', cs => quotedEnds backslash c cs
  | '\x60', cs => quotedEnds false c cs
  | '-', '-' :: rest => rest.contains '\n'
  | '/', '*' :: rest => (Text.cut? ['*', '/'] rest).isSome
  | _, _ => true

/-- Whether every quote and comment of the text is ended. -/
def closed (backslash : Bool) : List Char → Bool
  | [] => true
  | c :: cs => ends backslash c cs && closed backslash (next backslash c cs).2
termination_by cs => cs.length
decreasing_by
  have := length_le_of_next backslash c cs
  simp
  omega

/-- A character that neither continues a piece in front of it nor opens a region with it. -/
def neutral (c : Char) : Bool :=
  !Text.isWordChar c && !(['\x27', '"', '\x60', '-', '*', '@'].contains c)

/-! ## §2 What follows a piece -/

/-- The text may take the place of what follows the first piece of `c :: cs`. -/
def Fits (backslash : Bool) (c : Char) (cs rest : List Char) : Prop :=
  rest.head? = (next backslash c cs).2.head? ∨
    (ends backslash c cs = true ∧ (next backslash c cs).2.head? ≠ some '\n' ∧
      ∃ e tail, rest = e :: tail ∧ neutral e = true)

theorem quoted_swap {backslash : Bool} {quote : Char} {cs rest : List Char} (hq : quote ≠ '\\')
    (h : rest.head? = (quoted backslash quote cs).2.head? ∨
      (quotedEnds backslash quote cs = true ∧ ∃ e tail, rest = e :: tail ∧ e ≠ quote)) :
    quoted backslash quote ((quoted backslash quote cs).1 ++ rest) =
      ((quoted backslash quote cs).1, rest) := by
  fun_induction quoted backslash quote cs with
  | case1 =>
    rcases h with h | ⟨h, -⟩
    · rw [List.head?_eq_none_iff.mp h]
      rfl
    · cases h
  | case2 c =>
    rcases h with h | ⟨h, e, tail, rfl, he⟩
    · rw [List.head?_eq_none_iff.mp h]
      rfl
    · obtain rfl : c = quote := by simpa [quotedEnds] using h
      simp [quoted, hq, he]
  | case3 c d more hc ih =>
    have hrest := ih (by simpa [quotedEnds, hc] using h)
    simp only [List.cons_append, quoted, hc, if_true, hrest]
  | case4 c d more hc hquote hd ih =>
    have hrest := ih (by simpa [quotedEnds, hc, hquote, hd] using h)
    simp only [List.cons_append, quoted, hc, hquote, hd, if_true, Bool.false_eq_true, if_false,
      hrest]
  | case5 c d more hc hquote hd =>
    have hrest : ∃ e tail, rest = e :: tail ∧ e ≠ quote := by
      rcases h with h | ⟨-, h⟩
      · obtain ⟨tail, rfl⟩ := List.head?_eq_some_iff.mp h
        exact ⟨d, tail, rfl, by simpa using hd⟩
      · exact h
    obtain ⟨e, tail, rfl, he⟩ := hrest
    simp [quoted, hc, hquote, he]
  | case6 c d more hc hquote ih =>
    have hrest := ih (by simpa [quotedEnds, hc, hquote] using h)
    -- What is inside is not empty, so the first character still has one after it.
    cases hinside : (quoted backslash quote (d :: more)).1 with
    | nil =>
      cases more with
      | nil => simp [quoted] at hinside
      | cons x more =>
        simp only [quoted] at hinside
        split at hinside
        · cases hinside
        · split at hinside
          · split at hinside <;> cases hinside
          · cases hinside
    | cons x inside =>
      rw [hinside] at hrest
      simp only [List.cons_append] at hrest ⊢
      simp only [quoted, hc, hquote, Bool.false_eq_true, if_false, hrest]

/-- A run of characters ends where something follows that does not continue it. -/
theorem span_append {p : Char → Bool} {run rest : List Char} (hrun : ∀ c ∈ run, p c = true)
    (hrest : ∀ e tail, rest = e :: tail → p e = false) :
    (run ++ rest).takeWhile p = run ∧ (run ++ rest).dropWhile p = rest := by
  rw [List.takeWhile_append_of_pos hrun, List.dropWhile_append_of_pos hrun]
  cases rest with
  | nil => simp
  | cons e tail => simp [hrest e tail rfl]

theorem word_swap (cs : List Char) {rest : List Char}
    (h : ∀ e tail, rest = e :: tail → Text.isWordChar e = false) :
    word ((word cs).1 ++ rest) = ((word cs).1, rest) := by
  have hall : ∀ e ∈ (word cs).1, Text.isWordChar e = true := fun e he =>
    List.mem_takeWhile_imp he
  obtain ⟨htake, hdrop⟩ := span_append hall h
  exact Prod.ext htake hdrop

/-- What follows the first occurrence of a mark has no part in finding it. -/
theorem cut?_swap {mark cs before after : List Char} (rest : List Char)
    (h : Text.cut? mark cs = some (before, after)) :
    Text.cut? mark (before ++ mark ++ rest) = some (before, rest) := by
  induction cs generalizing before with
  | nil =>
    simp only [Text.cut?] at h
    split at h
    · next hmark =>
      cases h
      obtain rfl := List.isEmpty_iff.mp hmark
      cases rest <;> simp [Text.cut?]
    · cases h
  | cons c cs ih =>
    simp only [Text.cut?] at h
    split at h
    · next hp =>
      cases h
      cases mark with
      | nil => cases rest <;> simp [Text.cut?]
      | cons m mark => simp [Text.cut?]
    · next hp =>
      obtain ⟨⟨start, tail⟩, hstart, heq⟩ := Option.map_eq_some_iff.mp h
      cases heq
      have hcs := Text.eq_of_cut? hstart
      -- Where the mark does not start, it does not start with another rest either.
      have hno : mark.isPrefixOf (c :: (start ++ mark ++ rest)) = false := by
        rw [Bool.eq_false_iff]
        intro hc
        apply hp
        have hlong : mark <+: c :: (start ++ mark) := by
          have hwhole : c :: (start ++ mark) <+: c :: (start ++ mark ++ rest) :=
            ⟨rest, by simp⟩
          apply List.prefix_of_prefix_length_le (List.isPrefixOf_iff_prefix.mp hc) hwhole
          simp
          omega
        rw [List.isPrefixOf_iff_prefix, hcs]
        exact hlong.trans ⟨tail, by simp⟩
      simp only [List.cons_append, Text.cut?, hno, Bool.false_eq_true, if_false, ih hstart,
        Option.map_some]

theorem blockComment_swap {cs rest : List Char}
    (h : rest.head? = (blockComment cs).2.head? ∨ (Text.cut? ['*', '/'] cs).isSome = true) :
    blockComment ((blockComment cs).1 ++ rest) = ((blockComment cs).1, rest) := by
  unfold blockComment at h ⊢
  cases hcut : Text.cut? ['*', '/'] cs with
  | some p =>
    obtain ⟨inside, after⟩ := p
    simp only [cut?_swap rest hcut]
  | none =>
    simp only [hcut, Option.isSome_none, Bool.false_eq_true, or_false, List.head?_nil] at h
    rw [List.head?_eq_none_iff.mp h]
    simp only [List.append_nil, hcut]

theorem ne_of_neutral {e : Char} (h : neutral e = true) :
    e ≠ '\x27' ∧ e ≠ '"' ∧ e ≠ '\x60' ∧ e ≠ '-' ∧ e ≠ '*' ∧ e ≠ '@' ∧
      Text.isWordChar e = false := by
  simp only [neutral, Bool.and_eq_true, Bool.not_eq_true', List.contains_eq_mem, List.mem_cons,
    List.not_mem_nil, or_false, decide_eq_false_iff_not, not_or] at h
  exact ⟨h.2.1, h.2.2.1, h.2.2.2.1, h.2.2.2.2.1, h.2.2.2.2.2.1, h.2.2.2.2.2.2, h.1⟩

/-- What fits after a word does not continue it. -/
theorem not_word_of_fits {cs rest : List Char}
    (h : rest.head? = (word cs).2.head? ∨ ∃ e tail, rest = e :: tail ∧ neutral e = true) :
    ∀ e tail, rest = e :: tail → Text.isWordChar e = false := by
  rintro e tail rfl
  rcases h with h | ⟨e, tail, heq, he⟩
  · have hhead := List.head?_dropWhile_not Text.isWordChar cs
    rw [show cs.dropWhile Text.isWordChar = (word cs).2 from rfl, ← h] at hhead
    simpa using hhead
  · cases heq
    exact (ne_of_neutral he).2.2.2.2.2.2

theorem lineComment_swap {cs rest : List Char}
    (h : ∀ e tail, rest = e :: tail → (e != '\n') = false) :
    lineComment ((lineComment cs).1 ++ rest) = ((lineComment cs).1, rest) := by
  have hall : ∀ e ∈ (lineComment cs).1, (e != '\n') = true := fun e he =>
    List.mem_takeWhile_imp (p := (· != '\n')) he
  obtain ⟨htake, hdrop⟩ := span_append hall h
  exact Prod.ext htake hdrop

/-- The end of the line comes after a line comment. -/
theorem head?_lineComment {cs : List Char} (h : '\n' ∈ cs) :
    (lineComment cs).2.head? = some '\n' := by
  induction cs with
  | nil => cases h
  | cons c cs ih =>
    -- The comment stops at the first end of a line, here or in the rest.
    by_cases hc : c = '\n'
    · simp [lineComment, hc]
    · have hmem : '\n' ∈ cs := by
        rcases List.mem_cons.mp h with heq | hmem
        · exact absurd heq.symm hc
        · exact hmem
      have htail := ih hmem
      simpa [lineComment, hc] using htail

theorem next_plain {backslash : Bool} {c : Char} {cs : List Char} (h1 : c ≠ '\x27')
    (h2 : c ≠ '"') (h3 : c ≠ '\x60') (h4 : c ≠ '@') (h5 : ∀ rest, c = '-' → cs ≠ '-' :: rest)
    (h6 : ∀ rest, c = '/' → cs ≠ '*' :: rest) :
    next backslash c cs = (.plain [c], cs) := by
  unfold next
  split <;> simp_all

theorem next_at {backslash : Bool} {cs : List Char} (hat : ∀ rest, cs ≠ '@' :: rest)
    (hword : ∀ e tail, cs = e :: tail → Text.isWordChar e = false) :
    next backslash '@' cs = (.plain ['@'], cs) := by
  have hempty : word cs = ([], cs) := by
    cases cs with
    | nil => rfl
    | cons e tail => simp [word, hword e tail rfl]
  unfold next
  split <;> simp_all

theorem next_name {backslash : Bool} {x : Char} {w cs rest : List Char}
    (h : word cs = (x :: w, rest)) : next backslash '@' cs = (.name (x :: w), rest) := by
  have hat : ∀ tail, cs ≠ '@' :: tail := by
    rintro tail rfl
    simp [word, show Text.isWordChar '@' = false from by decide] at h
  unfold next
  split <;> simp_all

/-- The first piece stays the same when what follows it is exchanged for what fits. -/
theorem next_swap {backslash : Bool} {c : Char} {cs rest : List Char}
    (h : Fits backslash c cs rest) :
    next backslash c ((next backslash c cs).1.text.tail ++ rest) =
      ((next backslash c cs).1, rest) := by
  unfold Fits at h
  -- The three kinds of quotes differ in the mark and in whether a backslash escapes.
  have hquoted : ∀ (escapes : Bool) (quote : Char), quote ≠ '\\' → neutral quote = false →
      (rest.head? = (quoted escapes quote cs).2.head? ∨ (quotedEnds escapes quote cs = true ∧
        (quoted escapes quote cs).2.head? ≠ some '\n' ∧
          ∃ e tail, rest = e :: tail ∧ neutral e = true)) →
      region [quote] (quoted escapes quote ((quoted escapes quote cs).1 ++ rest)) =
        (.plain (quote :: (quoted escapes quote cs).1), rest) := by
    intro escapes quote hslash hquote hfits
    have hswap := quoted_swap hslash (hfits.imp_right fun ⟨hends, _, e, tail, heq, he⟩ =>
      ⟨hends, e, tail, heq, fun h => by rw [h, hquote] at he; cases he⟩)
    rw [hswap]
    rfl
  -- One case for each kind of piece.
  generalize hnext : next backslash c cs = r at h ⊢
  unfold next at hnext
  split at hnext
  case h_1 =>
    subst hnext
    exact hquoted backslash '\x27' (by decide) (by decide) h
  case h_2 =>
    subst hnext
    exact hquoted backslash '"' (by decide) (by decide) h
  case h_3 =>
    subst hnext
    exact hquoted false '\x60' (by decide) (by decide) h
  case h_4 more =>
    subst hnext
    have hline : ∀ e tail, rest = e :: tail → (e != '\n') = false := by
      rintro e tail rfl
      rcases h with h | ⟨hends, hnot, -⟩
      · have hhead := List.head?_dropWhile_not (· != '\n') more
        rw [show more.dropWhile (· != '\n') = (lineComment more).2 from rfl] at hhead
        rw [show (region ['-', '-'] (lineComment more)).2 = (lineComment more).2 from rfl] at h
        rw [← h] at hhead
        exact hhead
      · -- A line comment that is ended has the end of its line after it.
        exact absurd (head?_lineComment (by simpa [ends] using hends)) hnot
    show region _ (lineComment ((lineComment more).1 ++ rest)) = _
    rw [lineComment_swap hline]
    rfl
  case h_5 more =>
    subst hnext
    have hswap := blockComment_swap (h.imp_right And.left)
    show region _ (blockComment ((blockComment more).1 ++ rest)) = _
    rw [hswap]
    rfl
  case h_6 more =>
    subst hnext
    have hswap := word_swap more (not_word_of_fits (h.imp_right fun h => h.2.2))
    show region _ (word ((word more).1 ++ rest)) = _
    rw [hswap]
    rfl
  case h_7 hat =>
    cases hw : word cs with
    | mk w tail =>
      cases w with
      | nil =>
        -- A mark without a name after it is plain.
        rw [hw] at hnext
        subst hnext
        have hcs : (word cs).2 = cs := by
          have happend := word_append cs
          rwa [hw] at happend ⊢
        have hfits : rest.head? = (word cs).2.head? ∨
            ∃ e tail, rest = e :: tail ∧ neutral e = true :=
          h.imp (fun h => by rwa [hcs]) fun h => h.2.2
        have hnot := not_word_of_fits hfits
        refine next_at ?_ hnot
        rintro tail rfl
        rcases h with h | ⟨-, -, e, tail, heq, he⟩
        · obtain ⟨more, hmore⟩ := List.head?_eq_some_iff.mp h.symm
          exact hat more hmore
        · cases heq
          exact (ne_of_neutral he).2.2.2.2.2.1 rfl
      | cons x w =>
        rw [hw] at hnext
        subst hnext
        have hfits : rest.head? = (word cs).2.head? ∨
            ∃ e tail, rest = e :: tail ∧ neutral e = true :=
          h.imp (fun h => by rw [hw]; exact h) fun h => h.2.2
        have hswap := word_swap cs (not_word_of_fits hfits)
        rw [hw] at hswap
        exact next_name hswap
  case h_8 h1 h2 h3 h4 h5 h6 _ =>
    subst hnext
    apply next_plain h1 h2 h3 h4
    · -- What fits makes no comment of a sign.
      rintro tail rfl rfl
      rcases h with h | ⟨-, -, e, tail, heq, he⟩
      · obtain ⟨more, hmore⟩ := List.head?_eq_some_iff.mp h.symm
        exact h5 more rfl hmore
      · cases heq
        exact (ne_of_neutral he).2.2.2.1 rfl
    · rintro tail rfl rfl
      rcases h with h | ⟨-, -, e, tail, heq, he⟩
      · obtain ⟨more, hmore⟩ := List.head?_eq_some_iff.mp h.symm
        exact h6 more rfl hmore
      · cases heq
        exact (ne_of_neutral he).2.2.2.2.1 rfl

/-! ## §3 Composition -/

/-- A piece starts with the character that it was scanned at. -/
theorem text_next (backslash : Bool) (c : Char) (cs : List Char) :
    (next backslash c cs).1.text = c :: (next backslash c cs).1.text.tail := by
  have happend := next_append backslash c cs
  -- A piece without characters would leave the text as long as it was.
  cases htext : (next backslash c cs).1.text with
  | nil =>
    have hlength := length_le_of_next backslash c cs
    rw [htext, List.nil_append] at happend
    rw [happend, List.length_cons] at hlength
    omega
  | cons x tail =>
    rw [htext] at happend
    rw [(List.cons.inj happend).1]
    rfl

theorem tail_next_append (backslash : Bool) (c : Char) (cs : List Char) :
    (next backslash c cs).1.text.tail ++ (next backslash c cs).2 = cs := by
  have happend := next_append backslash c cs
  rw [text_next, List.cons_append] at happend
  exact (List.cons.inj happend).2

theorem quotedEnds_of_quoted_ne_nil {backslash : Bool} {quote : Char} {cs : List Char}
    (h : (quoted backslash quote cs).2 ≠ []) : quotedEnds backslash quote cs = true := by
  fun_induction quoted backslash quote cs with
  | case1 => exact absurd rfl h
  | case2 c => exact absurd rfl h
  | case3 c d more hc ih => simpa only [quotedEnds, hc, if_true] using ih h
  | case4 c d more hc hquote hd ih =>
    simpa only [quotedEnds, hc, hquote, hd, Bool.false_eq_true, if_false, if_true] using ih h
  | case5 c d more hc hquote hd =>
    simp only [quotedEnds, hc, hquote, hd, Bool.false_eq_true, if_false, if_true]
  | case6 c d more hc hquote ih =>
    simpa only [quotedEnds, hc, hquote, Bool.false_eq_true, if_false] using ih h

/-- A piece that something follows is ended. -/
theorem ends_of_next_ne_nil {backslash : Bool} {c : Char} {cs : List Char}
    (h : (next backslash c cs).2 ≠ []) : ends backslash c cs = true := by
  unfold ends
  -- A piece that is not ended runs to the end, so nothing would follow it.
  split
  · exact quotedEnds_of_quoted_ne_nil h
  · exact quotedEnds_of_quoted_ne_nil h
  · exact quotedEnds_of_quoted_ne_nil h
  · next more =>
    have hdrop : (lineComment more).2 ≠ [] := h
    rw [lineComment, ne_eq, List.dropWhile_eq_nil_iff] at hdrop
    rw [List.contains_iff_mem]
    by_contra hnone
    exact hdrop fun e he => bne_iff_ne.mpr fun heq => hnone (heq ▸ he)
  · next more =>
    have hcut : (blockComment more).2 ≠ [] := h
    unfold blockComment at hcut
    split at hcut
    · next hsome => rw [hsome]; rfl
    · exact absurd rfl hcut
  · rfl

/-- What follows a closed text is scanned by itself if it starts with a character that continues
nothing. -/
theorem pieces_append {backslash : Bool} {cs : List Char} (h : closed backslash cs = true)
    {e : Char} (he : neutral e = true) (rest : List Char) :
    pieces backslash (cs ++ e :: rest) = pieces backslash cs ++ pieces backslash (e :: rest) := by
  fun_induction closed backslash cs with
  | case1 => simp [pieces]
  | case2 c cs ih =>
    obtain ⟨hends, hrest⟩ := Bool.and_eq_true_iff.mp h
    -- What comes behind the piece fits: it is the rest of the text, or the new character.
    have hfits : Fits backslash c cs ((next backslash c cs).2 ++ e :: rest) := by
      cases hnext : (next backslash c cs).2 with
      | nil => exact .inr ⟨hends, by simp [hnext], e, rest, rfl, he⟩
      | cons x tail => exact .inl (by simp [hnext])
    have hswap := next_swap hfits
    rw [← List.append_assoc, tail_next_append] at hswap
    rw [List.cons_append, pieces, hswap, ih hrest, ← List.cons_append, ← pieces]

end SqlService.Statement
