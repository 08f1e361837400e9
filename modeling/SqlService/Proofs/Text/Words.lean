import SqlService.Text.Ascii
import SqlService.Text.Split

/-!
# Words of a text

A letter is a letter in either case, so a text that agrees with another one up to case is made of
words where the other is.  A word that stands alone in a text is one of its pieces, and the pieces of
a text that was joined of others are these again.

Main statements: `all_isWordChar_of_sameWord`, `mem_pieces`, `cutLast?_append` and
`splitChar_joined`.
-/

namespace SqlService.Text

/-! ## §1 Letter case -/

theorem isWordChar_of_isAlpha {c : Char} (h : c.isAlpha = true) : isWordChar c = true := by
  simp [isWordChar, Char.isAlphanum, h]

theorem isWordChar_toLower (c : Char) : isWordChar c.toLower = isWordChar c := by
  unfold Char.toLower
  split
  · next h =>
    -- A capital and its small letter are both letters.
    have hcapital : c.isAlpha = true := by
      have hrange : c.isUpper = true := decide_eq_true h
      exact Bool.or_eq_true_iff.mpr (.inl hrange)
    have hsum : (c.val + 32).toNat = c.val.toNat + 32 :=
      (UInt32.toNat_add c.val 32).trans
        (Nat.mod_eq_of_lt (Nat.lt_of_le_of_lt (Nat.add_le_add_right h.2 32) (by decide)))
    have hsmall : ∀ hvalid, (Char.mk (c.val + 32) hvalid).isAlpha = true := by
      intro hvalid
      have hlow : 97 ≤ c.val + 32 := by
        rw [UInt32.le_iff_toNat_le, hsum]
        exact Nat.add_le_add_right h.1 32
      have hhigh : c.val + 32 ≤ 122 := by
        rw [UInt32.le_iff_toNat_le, hsum]
        exact Nat.add_le_add_right h.2 32
      have hrange : (Char.mk (c.val + 32) hvalid).isLower = true :=
        Bool.and_eq_true_iff.mpr ⟨decide_eq_true hlow, decide_eq_true hhigh⟩
      exact Bool.or_eq_true_iff.mpr (.inr hrange)
    rw [isWordChar_of_isAlpha hcapital]
    exact isWordChar_of_isAlpha (hsmall _)
  · rfl

theorem all_isWordChar_of_sameWord {a b : String} (h : sameWord a b = true) :
    a.toList.all isWordChar = b.toList.all isWordChar := by
  -- Lower case keeps every character a word character or none.
  have hlower : ∀ s, (lower s).toList.all isWordChar = s.toList.all isWordChar := by
    intro s
    simp only [lower, String.toList_map, List.all_map, Function.comp_def, isWordChar_toLower]
  rw [← hlower a, sameWord_iff.mp h, hlower]

/-! ## §2 Pieces -/

/-- A run that separators or the ends of the text enclose is a piece. -/
theorem mem_pieces {isMark : Char → Bool} {before run after : List Char}
    (hbefore : ∀ c ∈ before.getLast?, isMark c = true) (hrun : ∀ c ∈ run, isMark c = false)
    (hafter : ∀ c ∈ after.head?, isMark c = true) :
    run ∈ pieces isMark (before ++ run ++ after) := by
  -- Behind the last separator the run is the first piece.
  have hstart : run ∈ pieces isMark (run ++ after) := by
    cases after with
    | nil => simp [pieces_of_unmarked hrun]
    | cons mark after => simp [pieces_append_mark (hafter mark rfl), pieces_of_unmarked hrun]
  rw [List.append_assoc]
  rcases List.eq_nil_or_concat before with rfl | ⟨before, mark, rfl⟩
  · exact hstart
  · have hmark : isMark mark = true := hbefore mark (by simp)
    rw [List.concat_eq_append, List.append_assoc, List.singleton_append, pieces_append_mark hmark]
    exact List.mem_append_right _ hstart

/-! ## §3 The last separator -/

/-- What a cut at the last separator returns is the text around it. -/
theorem eq_of_cutLast? {isMark : Char → Bool} {cs before after : List Char}
    (h : cutLast? isMark cs = some (before, after)) :
    ∃ mark, isMark mark = true ∧ cs = before ++ mark :: after := by
  induction cs generalizing before with
  | nil => cases h
  | cons c cs ih =>
    unfold cutLast? at h
    -- A separator further back comes first, and this one is the last if there is none.
    cases hcut : cutLast? isMark cs with
    | some p =>
      rw [hcut] at h
      cases h
      obtain ⟨mark, hmark, rfl⟩ := ih hcut
      exact ⟨mark, hmark, rfl⟩
    | none =>
      simp only [hcut, Option.ite_none_right_eq_some, Option.some.injEq, Prod.mk.injEq] at h
      obtain ⟨hmark, rfl, rfl⟩ := h
      exact ⟨c, hmark, rfl⟩

theorem cutLast?_of_unmarked {isMark : Char → Bool} {cs : List Char}
    (h : ∀ c ∈ cs, isMark c = false) : cutLast? isMark cs = none := by
  induction cs with
  | nil => rfl
  | cons c cs ih =>
    obtain ⟨hc, hcs⟩ := List.forall_mem_cons.mp h
    simp [cutLast?, ih hcs, hc]

/-- A separator that no other follows is the last one. -/
theorem cutLast?_append {isMark : Char → Bool} {mark : Char} (hmark : isMark mark = true)
    (before : List Char) {after : List Char} (h : ∀ c ∈ after, isMark c = false) :
    cutLast? isMark (before ++ mark :: after) = some (before, after) := by
  induction before with
  | nil => simp [cutLast?, cutLast?_of_unmarked h, hmark]
  | cons c before ih => rw [List.cons_append, cutLast?, ih]

/-! ## §4 Joined texts -/

/-- What holds of the characters of all texts and of what joins them holds of those of the whole. -/
theorem forall_mem_intercalate {P : Char → Prop} {joiner : String} {texts : List String}
    (hjoiner : ∀ c ∈ joiner.toList, P c) (h : ∀ text ∈ texts, ∀ c ∈ text.toList, P c) :
    ∀ c ∈ (String.intercalate joiner texts).toList, P c := by
  induction texts with
  | nil => simp
  | cons text texts ih =>
    obtain ⟨hfirst, hrest⟩ := List.forall_mem_cons.mp h
    cases texts with
    | nil => simpa using hfirst
    | cons next texts =>
      -- A character is one of the first text, of what joins, or of the rest.
      intro c hc
      rw [String.intercalate_cons_cons, String.toList_append, String.toList_append,
        List.mem_append, List.mem_append] at hc
      exact hc.elim (fun hc => hc.elim (hfirst c) (hjoiner c)) (ih hrest c)

theorem splitChar_of_unmarked {mark : Char} {text : String} (h : mark ∉ text.toList) :
    splitChar mark text = [text] := by
  have hpieces : pieces (· == mark) text.toList = [text.toList] := by
    refine pieces_of_unmarked fun c hc => beq_eq_false_iff_ne.mpr ?_
    rintro rfl
    exact h hc
  rw [splitChar, split, hpieces, List.map_singleton, String.ofList_toList]

/-- What separators part is parted again when the texts have been joined with one. -/
theorem splitChar_joined {mark : Char} {joiner : String} (hjoiner : joiner.toList = [mark])
    {texts : List String} (hne : texts ≠ []) :
    splitChar mark (String.intercalate joiner texts) = texts.flatMap (splitChar mark) := by
  induction texts with
  | nil => exact absurd rfl hne
  | cons text texts ih =>
    cases texts with
    | nil => simp
    | cons next texts =>
      -- The separator between two texts is one of the whole.
      have hcut : ∀ rest : String, splitChar mark (text ++ joiner ++ rest) =
          splitChar mark text ++ splitChar mark rest := by
        intro rest
        have htext : (text ++ joiner ++ rest).toList = text.toList ++ mark :: rest.toList := by
          simp [hjoiner]
        rw [splitChar, split, htext, pieces_append_mark (by simp), List.map_append]
        rfl
      rw [String.intercalate_cons_cons, hcut, ih nofun]
      exact List.flatMap_cons.symm

theorem intercalate_concat (joiner : String) {texts : List String} (hne : texts ≠ [])
    (text : String) : String.intercalate joiner (texts ++ [text]) =
      String.intercalate joiner texts ++ joiner ++ text := by
  induction texts with
  | nil => exact absurd rfl hne
  | cons first texts ih =>
    cases texts with
    | nil => simp [String.append_assoc]
    | cons next texts =>
      have hrest := ih nofun
      rw [List.cons_append] at hrest ⊢
      rw [List.cons_append, String.intercalate_cons_cons, hrest, String.intercalate_cons_cons]
      simp only [String.append_assoc]

end SqlService.Text
