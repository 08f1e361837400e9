import SqlService.Proofs.Statement.LiveNames

/-!
# Texts that end in a line comment

A text is settled if it leaves no quote and no block comment open.  Its last line may be a comment,
which is ended by the end of the line and by nothing else.  So what stands on a new line behind a
settled text is scanned by itself, and what stands on the same line may become part of a comment.

Main statements: `pieces_append_line` and `exists_line_comment`.
-/

namespace SqlService.Statement

/-- Whether every quote and every block comment of the text is ended; a comment on its last line is
left to the end of the line. -/
def settled (backslash : Bool) (cs : List Char) : Bool := closed backslash (cs ++ ['\n'])

variable {backslash : Bool} {c : Char} {cs : List Char}

/-! ## §1 Ends of lines -/

/-- The end of a line closes no quotes. -/
theorem quotedEnds_of_line {quote : Char} (hquote : quote ≠ '\n')
    (h : quotedEnds backslash quote (cs ++ ['\n']) = true) :
    quotedEnds backslash quote cs = true := by
  have hend : ('\n' == quote) = false := beq_eq_false_iff_ne.mpr hquote.symm
  -- By the recursion over the quotes, of which the last steps look at the new character.
  fun_induction quotedEnds backslash quote cs with
  | case1 => simp [quotedEnds, hend] at h
  | case2 c =>
    by_cases hc : (backslash && c == '\\') = true
    · simp [quotedEnds, hc] at h
    · by_cases hclose : (c == quote) = true
      · exact hclose
      · simp [quotedEnds, hc, hclose, hend] at h
  | case3 c d rest hc ih =>
    apply ih
    simpa [quotedEnds, hc] using h
  | case4 c d rest hc hclose hd ih =>
    apply ih
    simpa [quotedEnds, hc, hclose, hd] using h
  | case5 c d rest hc hclose hd => rfl
  | case6 c d rest hc hclose ih =>
    apply ih
    simpa [quotedEnds, hc, hclose] using h

/-- The end of a line closes no block comment. -/
theorem isSome_cut?_of_line (h : (Text.cut? ['*', '/'] (cs ++ ['\n'])).isSome = true) :
    (Text.cut? ['*', '/'] cs).isSome = true := by
  induction cs with
  | nil => exact absurd h (by decide)
  | cons c cs ih =>
    simp only [List.cons_append, Text.cut?] at h ⊢
    split
    · rfl
    · next hmark =>
      -- Where the mark does not start, the end of the line does not complete it.
      have hno : ['*', '/'].isPrefixOf (c :: (cs ++ ['\n'])) = false := by
        rw [Bool.eq_false_iff, ne_eq, List.isPrefixOf_iff_prefix, List.cons_prefix_cons]
        rintro ⟨rfl, hslash⟩
        apply hmark
        cases cs with
        | nil => exact absurd hslash (by decide)
        | cons d cs =>
          rw [List.cons_append, List.cons_prefix_cons] at hslash
          simp [← hslash.1]
      rw [hno, if_neg Bool.false_ne_true, Option.isSome_map] at h
      rw [Option.isSome_map]
      exact ih h

/-- What the end of a line ends is ended already, unless it is a line comment. -/
theorem ends_or_line (h : ends backslash c (cs ++ ['\n']) = true) :
    ends backslash c cs = true ∨ ∃ comment, c = '-' ∧ cs = '-' :: comment ∧ '\n' ∉ comment := by
  -- Only a line comment takes notice of the end of the line.
  by_cases hdash : ∃ comment, c = '-' ∧ cs = '-' :: comment
  · obtain ⟨comment, rfl, rfl⟩ := hdash
    by_cases hline : '\n' ∈ comment
    · exact .inl (by simpa [ends] using hline)
    · exact .inr ⟨comment, rfl, rfl, hline⟩
  · refine .inl ?_
    unfold ends
    split
    · exact quotedEnds_of_line (by decide) h
    · exact quotedEnds_of_line (by decide) h
    · exact quotedEnds_of_line (by decide) h
    · next comment => exact absurd ⟨comment, rfl, rfl⟩ hdash
    · next comment => exact isSome_cut?_of_line h
    · rfl

/-! ## §2 What stands behind a settled text -/

/-- A piece that something follows stays the same when more is put behind that. -/
theorem next_append_of_ne_nil (h : (next backslash c cs).2 ≠ []) (rest : List Char) :
    next backslash c (cs ++ rest) =
      ((next backslash c cs).1, (next backslash c cs).2 ++ rest) := by
  -- What follows the piece starts as before, so it fits.
  have hhead : ((next backslash c cs).2 ++ rest).head? = (next backslash c cs).2.head? := by
    cases hnext : (next backslash c cs).2 with
    | nil => exact absurd hnext h
    | cons d tail => rfl
  have hswap := next_swap (.inl hhead)
  rwa [← List.append_assoc, tail_next_append] at hswap

/-- A settled text is settled behind its first piece. -/
theorem settled_cons (h : settled backslash (c :: cs) = true) :
    ends backslash c (cs ++ ['\n']) = true ∧ settled backslash (next backslash c cs).2 = true := by
  rw [settled, List.cons_append, closed] at h
  obtain ⟨hends, hrest⟩ := Bool.and_eq_true_iff.mp h
  refine ⟨hends, ?_⟩
  cases hnext : (next backslash c cs).2 with
  | nil => simp [settled, closed, ends, next]
  | cons d tail =>
    rwa [next_append_of_ne_nil (by simp [hnext]), hnext] at hrest

theorem lineComment_run {run rest : List Char} (hrun : '\n' ∉ run)
    (hrest : ∀ e ∈ rest.head?, e = '\n') : lineComment (run ++ rest) = (run, rest) := by
  have hall : ∀ e ∈ run, (e != '\n') = true := fun e he =>
    bne_iff_ne.mpr fun heq => hrun (heq ▸ he)
  have hstop : ∀ e tail, rest = e :: tail → (e != '\n') = false := by
    rintro e tail rfl
    simp [hrest e rfl]
  have hspan := span_append hall hstop
  exact Prod.ext hspan.1 hspan.2

/-- A settled text that is not closed ends in a line comment, to which everything belongs that
follows it on the line. -/
theorem exists_line_comment (h : settled backslash cs = true) (hopen : closed backslash cs = false) :
    ∃ ps comment, pieces backslash cs = ps ++ [.plain ('-' :: '-' :: comment)] ∧
      ∀ more rest, '\n' ∉ more → (∀ e ∈ rest.head?, e = '\n') →
        pieces backslash (cs ++ (more ++ rest)) =
          ps ++ .plain ('-' :: '-' :: (comment ++ more)) :: pieces backslash rest := by
  -- By induction on the pieces, down to the one that is not closed.
  fun_induction closed backslash cs with
  | case1 => cases hopen
  | case2 c cs ih =>
    obtain ⟨hends, hrest⟩ := settled_cons h
    by_cases hnil : (next backslash c cs).2 = []
    · -- The piece that is left open is the last one.
      have hnot : ends backslash c cs = false := by simpa [hnil, closed] using hopen
      obtain ⟨comment, rfl, rfl, hline⟩ : ∃ comment, c = '-' ∧ cs = '-' :: comment ∧
          '\n' ∉ comment := (ends_or_line hends).resolve_left (by simp [hnot])
      have hcomment : ∀ more rest, '\n' ∉ more → (∀ e ∈ rest.head?, e = '\n') →
          next backslash '-' ('-' :: comment ++ (more ++ rest)) =
            (.plain ('-' :: '-' :: (comment ++ more)), rest) := by
        intro more rest hmore hrest
        have hrun : '\n' ∉ comment ++ more := fun he => (List.mem_append.mp he).elim hline hmore
        show region ['-', '-'] (lineComment (comment ++ (more ++ rest))) = _
        rw [← List.append_assoc, lineComment_run hrun hrest]
        rfl
      refine ⟨[], comment, ?_, fun more rest hmore hrest => ?_⟩
      · have halone := hcomment [] [] List.not_mem_nil (by simp)
        simp only [List.append_nil] at halone
        rw [pieces, halone, pieces, List.nil_append]
      · rw [List.cons_append, pieces, hcomment more rest hmore hrest, List.nil_append]
    · have hopen' : closed backslash (next backslash c cs).2 = false := by
        simpa [ends_of_next_ne_nil hnil] using hopen
      obtain ⟨ps, comment, hpieces, hall⟩ := ih hrest hopen'
      refine ⟨(next backslash c cs).1 :: ps, comment, ?_, fun more rest hmore hrest => ?_⟩
      · rw [pieces, hpieces, List.cons_append]
      · rw [List.cons_append, pieces, next_append_of_ne_nil hnil, hall more rest hmore hrest,
          List.cons_append]

/-- What stands on a new line behind a settled text is scanned by itself. -/
theorem pieces_append_line (h : settled backslash cs = true) (rest : List Char) :
    pieces backslash (cs ++ '\n' :: rest) = pieces backslash cs ++ pieces backslash ('\n' :: rest) := by
  -- A closed text is behind itself; an open one ends where the line does.
  cases hclosed : closed backslash cs with
  | true => exact pieces_append hclosed (by decide) rest
  | false =>
    obtain ⟨ps, comment, hpieces, hall⟩ := exists_line_comment h hclosed
    have hempty := hall [] ('\n' :: rest) List.not_mem_nil (by simp)
    rw [List.nil_append, List.append_nil] at hempty
    rw [hempty, hpieces, List.append_assoc, List.singleton_append]

end SqlService.Statement
