/-!
# Cutting texts apart

`pieces` cuts a list of characters at every separator, `cut?` around the first occurrence of a
mark, `cutLast?` at the last separator.  The forms on `String` go through the characters.
Main statement: joining what `pieces` returns gives the characters back (`join_pieces`).
-/

namespace SqlService.Text

/-! ## §1 Every separator -/

/-- The runs between separators; `n` separators give `n + 1` runs, empty ones included. -/
def pieces (isMark : Char → Bool) : List Char → List (List Char)
  | [] => [[]]
  | c :: cs =>
    if isMark c then [] :: pieces isMark cs
    else
      -- The first case does not arise, as there is always a run (`pieces_ne_nil`).
      match pieces isMark cs with
      | [] => [[c]]
      | run :: runs => (c :: run) :: runs

/-- The runs of a text between separators. -/
def split (isMark : Char → Bool) (s : String) : List String :=
  (pieces isMark s.toList).map String.ofList

/-- The runs of a text between occurrences of one character. -/
def splitChar (mark : Char) (s : String) : List String := split (· == mark) s

theorem pieces_ne_nil (isMark : Char → Bool) (cs : List Char) : pieces isMark cs ≠ [] := by
  induction cs with
  | nil => simp [pieces]
  | cons c cs ih =>
    rw [pieces]
    split
    · simp
    · split <;> simp_all

/-- Putting the separator back between the runs gives the text again. -/
theorem join_pieces (mark : Char) (cs : List Char) :
    List.intercalate [mark] (pieces (· == mark) cs) = cs := by
  induction cs with
  | nil => rfl
  | cons c cs ih =>
    have hne := pieces_ne_nil (· == mark) cs
    rw [pieces]
    cases hp : pieces (· == mark) cs with
    | nil => exact absurd hp hne
    | cons run runs =>
      rw [hp] at ih
      by_cases hc : c = mark
      · subst hc
        simp only [beq_self_eq_true, if_true]
        rw [List.intercalate] at ih ⊢
        simp only [List.intersperse, List.flatten_cons, List.nil_append, List.singleton_append]
        rw [ih]
      · have : (c == mark) = false := by simp [hc]
        simp only [this, Bool.false_eq_true, if_false]
        rw [List.intercalate] at ih ⊢
        cases runs <;> simp_all [List.intersperse]

theorem not_mark_of_mem_pieces {isMark : Char → Bool} {cs run : List Char}
    (hrun : run ∈ pieces isMark cs) {c : Char} (hc : c ∈ run) : isMark c = false := by
  induction cs generalizing run with
  | nil =>
    rw [pieces, List.mem_singleton] at hrun
    rw [hrun] at hc
    cases hc
  | cons d cs ih =>
    rw [pieces] at hrun
    split at hrun
    · rcases List.mem_cons.mp hrun with rfl | hrun
      · cases hc
      · exact ih hrun hc
    · next hd =>
      split at hrun
      · next hnil => exact absurd hnil (pieces_ne_nil isMark cs)
      · next first runs hp =>
        rcases List.mem_cons.mp hrun with rfl | hrun
        · rcases List.mem_cons.mp hc with rfl | hc
          · simpa using hd
          · exact ih (hp ▸ List.mem_cons_self) hc
        · exact ih (hp ▸ List.mem_cons_of_mem _ hrun) hc

theorem pieces_of_unmarked {isMark : Char → Bool} {cs : List Char}
    (h : ∀ c ∈ cs, isMark c = false) : pieces isMark cs = [cs] := by
  induction cs with
  | nil => rfl
  | cons c cs ih =>
    rw [pieces, h c List.mem_cons_self, ih fun d hd => h d (List.mem_cons_of_mem _ hd)]
    rfl

/-- A separator parts what stands before it from what stands after it. -/
theorem pieces_append_mark {isMark : Char → Bool} {mark : Char} (hmark : isMark mark = true)
    (cs ds : List Char) :
    pieces isMark (cs ++ mark :: ds) = pieces isMark cs ++ pieces isMark ds := by
  induction cs with
  | nil => simp [pieces, hmark]
  | cons c cs ih =>
    have hne := pieces_ne_nil isMark cs
    simp only [List.cons_append, pieces, ih]
    cases hp : pieces isMark cs with
    | nil => exact absurd hp hne
    | cons run runs => cases isMark c <;> rfl

/-! ## §2 One occurrence -/

/-- What stands before and after the first occurrence of `mark`. -/
def cut? (mark : List Char) : List Char → Option (List Char × List Char)
  | [] => if mark.isEmpty then some ([], []) else none
  | c :: cs =>
    if mark.isPrefixOf (c :: cs) then some ([], (c :: cs).drop mark.length)
    else (cut? mark cs).map fun p => (c :: p.1, p.2)

/-- What a cut returns is the text around the mark. -/
theorem eq_of_cut? {mark cs before after : List Char} (h : cut? mark cs = some (before, after)) :
    cs = before ++ mark ++ after := by
  induction cs generalizing before with
  | nil =>
    simp only [cut?] at h
    split at h <;> simp_all
  | cons c cs ih =>
    simp only [cut?] at h
    split at h
    · next hp =>
      obtain ⟨t, ht⟩ := List.isPrefixOf_iff_prefix.mp hp
      cases h
      rw [← ht]
      simp
    · simp only [Option.map_eq_some_iff, Prod.mk.injEq] at h
      obtain ⟨⟨start, tail⟩, hp, rfl, rfl⟩ := h
      simp [ih hp]

/-- Whether `mark` occurs in a text. -/
def occursIn (mark s : String) : Bool := (cut? mark.toList s.toList).isSome

/-- What stands before and after the first occurrence of `mark` in a text. -/
def cutText? (mark : String) (s : String) : Option (String × String) :=
  (cut? mark.toList s.toList).map fun p => (String.ofList p.1, String.ofList p.2)

/-- What stands before and after the last separator. -/
def cutLast? (isMark : Char → Bool) : List Char → Option (List Char × List Char)
  | [] => none
  | c :: cs =>
    match cutLast? isMark cs with
    | some p => some (c :: p.1, p.2)
    | none => if isMark c then some ([], cs) else none

/-! ## §3 Doubling a character -/

/-- The text with every occurrence of `mark` written twice. -/
def double (mark : Char) (s : String) : String :=
  String.ofList (s.toList.flatMap fun c => if c == mark then [mark, mark] else [c])

end SqlService.Text
