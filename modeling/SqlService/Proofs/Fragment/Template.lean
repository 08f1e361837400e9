import Mathlib.Data.List.Infix
import SqlService.Fragment.Template

/-!
# The parts of a template

`Template` says what a text consists of without a scanner: a reference goes from the first opening
mark to the first closing mark after it, and where no opening mark is ever closed the text is
literal to its end.  Every text has exactly one reading of this kind, the one that `segments` finds.

Main statement: `template_iff`.
-/

namespace SqlService

/-! ## §1 First occurrences -/

namespace Text

variable {mark cs before after : List Char}

theorem cut?_eq_none_iff (hmark : mark ≠ []) : cut? mark cs = none ↔ ¬ mark <:+: cs := by
  induction cs with
  | nil => simp [cut?, hmark]
  -- The mark stands at the front, or it stands in the rest.
  | cons c cs ih =>
    rw [cut?, List.infix_cons_iff, ← List.isPrefixOf_iff_prefix]
    split
    · next h => simp [h]
    · next h => simp [h, ih]

theorem prefix_dropLast (before mark after : List Char) :
    before ++ mark.dropLast <+: before ++ mark ++ after := by
  rw [List.append_assoc]
  exact (List.prefix_append_right_inj before).mpr
    ((List.dropLast_prefix mark).trans (List.prefix_append mark after))

/-- Up to the last character of the mark that is cut at there is no other. -/
theorem first_of_cut? (hmark : mark ≠ []) (h : cut? mark cs = some (before, after)) :
    ¬ mark <:+: before ++ mark.dropLast := by
  induction cs generalizing before with
  | nil => simp [cut?, hmark] at h
  | cons c cs ih =>
    rw [cut?] at h
    split at h
    · cases h
      -- The mark stands at the very front, and less than a mark has no mark in it.
      intro hinfix
      have hlength := hinfix.length_le
      rw [List.nil_append, List.length_dropLast] at hlength
      have hpos := List.length_pos_iff.mpr hmark
      omega
    · next hp =>
      obtain ⟨⟨front, back⟩, hcut, heq⟩ := Option.map_eq_some_iff.mp h
      cases heq
      rw [List.cons_append, List.infix_cons_iff]
      rintro (hstart | hlater)
      · -- A mark this early would have been found.
        apply hp
        rw [List.isPrefixOf_iff_prefix, eq_of_cut? hcut]
        exact hstart.trans (prefix_dropLast (c :: front) mark _)
      · exact ih hcut hlater

/-- A text is cut at the first occurrence of the mark. -/
theorem cut?_eq_some_iff (hmark : mark ≠ []) :
    cut? mark cs = some (before, after) ↔
      cs = before ++ mark ++ after ∧ ¬ mark <:+: before ++ mark.dropLast := by
  constructor
  · exact fun h => ⟨eq_of_cut? h, first_of_cut? hmark h⟩
  · rintro ⟨rfl, hfirst⟩
    induction before with
    | nil =>
      -- With nothing in front the text starts with the mark and is cut there.
      obtain ⟨m, ms, rfl⟩ := List.exists_cons_of_ne_nil hmark
      have hstart : (m :: ms).isPrefixOf (m :: (ms ++ after)) = true :=
        List.isPrefixOf_iff_prefix.mpr (List.prefix_append (m :: ms) after)
      rw [List.nil_append, List.cons_append, cut?, if_pos hstart, ← List.cons_append,
        List.drop_left]
    | cons c before ih =>
      rw [List.cons_append, List.infix_cons_iff, not_or] at hfirst
      obtain ⟨hstart, hlater⟩ := hfirst
      -- The mark does not stand at the front, as it would be an earlier one.
      rw [List.cons_append, List.cons_append, cut?, if_neg, ih hlater]
      · rfl
      · rw [List.isPrefixOf_iff_prefix]
        intro h
        apply hstart
        apply List.prefix_of_prefix_length_le h (prefix_dropLast (c :: before) mark after)
        rw [List.length_append, List.length_cons, List.length_dropLast]
        omega

/-- Nothing that a mark can be found behind is shorter than what stands before the first one. -/
theorem length_le_of_first {before' after' : List Char} (hmark : mark ≠ [])
    (h : before ++ mark ++ after = before' ++ mark ++ after')
    (hfirst : ¬ mark <:+: before ++ mark.dropLast) : before.length ≤ before'.length := by
  by_contra hshort
  apply hfirst
  -- Both texts in front begin the same text, so the shorter one with its mark begins the longer
  -- one.
  have hprefix : before' ++ mark <+: before ++ mark ++ after := h ▸ List.prefix_append _ after'
  have hlength : (before' ++ mark).length ≤ (before ++ mark.dropLast).length := by
    have hpos := List.length_pos_iff.mpr hmark
    rw [List.length_append, List.length_append, List.length_dropLast]
    omega
  exact (List.suffix_append before' mark).isInfix.trans
    (List.prefix_of_prefix_length_le hprefix (prefix_dropLast before mark after) hlength).isInfix

end Text

/-! ## §2 Templates -/

open Segment (openMark closeMark segments firstReference?)

/-- A text consists of the parts. -/
inductive Template : List Char → List Segment → Prop
  /-- A text in which no opening mark is closed is literal. -/
  | literal {cs : List Char}
      (hnone : ∀ before inner after, cs ≠ before ++ openMark ++ inner ++ closeMark ++ after) :
      Template cs [.literal cs]
  /-- A reference goes from the first opening mark to the first closing mark after it. -/
  | reference {before inner after : List Char} {rest : List Segment}
      (hopen : ¬ openMark <:+: before ++ openMark.dropLast)
      (hclose : ¬ closeMark <:+: inner ++ closeMark.dropLast) (hrest : Template after rest) :
      Template (before ++ openMark ++ inner ++ closeMark ++ after)
        (.literal before :: .reference (Text.trim (String.ofList inner)) :: rest)

theorem firstReference?_eq_some_iff {cs before after : List Char} {name : String} :
    firstReference? cs = some (before, name, after) ↔
      ∃ inner, cs = before ++ openMark ++ inner ++ closeMark ++ after ∧
        ¬ openMark <:+: before ++ openMark.dropLast ∧
        ¬ closeMark <:+: inner ++ closeMark.dropLast ∧ name = Text.trim (String.ofList inner) := by
  rw [firstReference?]
  constructor
  · intro h
    -- The text is cut twice, at the opening mark and behind it at the closing mark.
    cases hopen : Text.cut? openMark cs with
    | none => simp [hopen] at h
    | some found =>
      obtain ⟨front, behind⟩ := found
      cases hclose : Text.cut? closeMark behind with
      | none => simp [hopen, hclose] at h
      | some found =>
        obtain ⟨inner, back⟩ := found
        simp only [hopen, hclose, Option.some.injEq, Prod.mk.injEq] at h
        obtain ⟨rfl, rfl, rfl⟩ := h
        obtain ⟨rfl, hfirst⟩ := (Text.cut?_eq_some_iff (by decide)).mp hopen
        obtain ⟨rfl, hnext⟩ := (Text.cut?_eq_some_iff (by decide)).mp hclose
        exact ⟨inner, by simp, hfirst, hnext, rfl⟩
  · rintro ⟨inner, rfl, hopen, hclose, rfl⟩
    have hcut : Text.cut? openMark (before ++ openMark ++ inner ++ closeMark ++ after) =
        some (before, inner ++ closeMark ++ after) :=
      (Text.cut?_eq_some_iff (by decide)).mpr ⟨by simp, hopen⟩
    simp only [hcut, (Text.cut?_eq_some_iff (by decide)).mpr ⟨rfl, hclose⟩]

theorem firstReference?_eq_none_iff {cs : List Char} :
    firstReference? cs = none ↔
      ∀ before inner after, cs ≠ before ++ openMark ++ inner ++ closeMark ++ after := by
  rw [firstReference?]
  cases hopen : Text.cut? openMark cs with
  -- Without an opening mark there is none that is closed.
  | none =>
    have hnever := (Text.cut?_eq_none_iff (by decide)).mp hopen
    refine ⟨fun _ before inner after heq => hnever ?_, fun _ => rfl⟩
    exact ⟨before, inner ++ closeMark ++ after, by rw [heq]; simp⟩
  | some found =>
    obtain ⟨front, behind⟩ := found
    obtain ⟨rfl, hfirst⟩ := (Text.cut?_eq_some_iff (by decide)).mp hopen
    cases hclose : Text.cut? closeMark behind with
    | some found =>
      obtain ⟨inner, back⟩ := found
      have heq := Text.eq_of_cut? hclose
      -- Both marks are found, so there is a reference on either side.
      simp only [hclose, reduceCtorEq, false_iff, not_forall, not_not]
      exact ⟨front, inner, back, by rw [heq]; simp⟩
    | none =>
      have hnever := (Text.cut?_eq_none_iff (by decide)).mp hclose
      simp only [hclose, true_iff]
      intro before inner after heq
      apply hnever
      rw [List.append_assoc (before ++ openMark ++ inner),
        List.append_assoc (before ++ openMark)] at heq
      -- An opening mark that is closed does not stand before the first one.
      have hlength := Text.length_le_of_first (by decide) heq hfirst
      -- What stands behind a closed opening mark then ends the text behind the first one.
      have hinner : inner ++ (closeMark ++ after) <:+ front ++ openMark ++ behind :=
        heq ▸ List.suffix_append _ _
      have hsuffix : inner ++ (closeMark ++ after) <:+ behind := by
        apply List.suffix_of_suffix_length_le hinner (List.suffix_append _ behind)
        have hall := congrArg List.length heq
        simp only [List.length_append] at hall ⊢
        omega
      exact (List.infix_append inner closeMark after).trans
        (by simpa using hsuffix.isInfix)

theorem segments_of_none {cs : List Char} (h : firstReference? cs = none) :
    segments cs = [.literal cs] := by
  rw [segments]
  split
  · rfl
  · next hsome =>
    rw [h] at hsome
    cases hsome

theorem segments_of_some {cs before after : List Char} {name : String}
    (h : firstReference? cs = some (before, name, after)) :
    segments cs = .literal before :: .reference name :: segments after := by
  rw [segments]
  split
  · next hnone =>
    rw [h] at hnone
    cases hnone
  · next hsome =>
    rw [h] at hsome
    cases hsome
    rfl

theorem template_segments (cs : List Char) : Template cs (segments cs) := by
  -- By recursion on the length, as the rest behind the first reference is shorter.
  cases hfirst : firstReference? cs with
  | none =>
    rw [segments_of_none hfirst]
    exact .literal (firstReference?_eq_none_iff.mp hfirst)
  | some found =>
    obtain ⟨before, name, after⟩ := found
    have _shorter := Segment.length_lt_of_firstReference? hfirst
    rw [segments_of_some hfirst]
    obtain ⟨inner, rfl, hopen, hclose, rfl⟩ := firstReference?_eq_some_iff.mp hfirst
    exact .reference hopen hclose (template_segments after)
termination_by cs.length

/-- Every text has one reading as a template. -/
theorem template_iff {cs : List Char} {parts : List Segment} :
    Template cs parts ↔ parts = segments cs := by
  constructor
  -- By induction on the reading; its first part is the one that is found.
  · intro h
    induction h with
    | literal hnone => exact (segments_of_none (firstReference?_eq_none_iff.mpr hnone)).symm
    | reference hopen hclose hrest ih =>
      rw [ih]
      exact (segments_of_some (firstReference?_eq_some_iff.mpr
        ⟨_, rfl, hopen, hclose, rfl⟩)).symm
  · rintro rfl
    exact template_segments cs

end SqlService
