import SqlService.Filter.SortKey
import SqlService.Proofs.Text.Trimming

/-!
# Sort entries and their texts

The text of a sort entry is read back as the entry unless it is ambiguous: blanks at the ends of the
name are lost, an empty name leaves nothing in front of the direction, and an ascending name that
ends in a direction is taken for a shorter one.

Main statement: `SortKey.parse_text_iff`.
-/

namespace SqlService.SortKey

open Text (Trimmed isBlank sameWord trim)

variable {text name : String}

/-! ## §1 What is read -/

/-- The text is some text, a blank and a last word that is a direction in any case. -/
def EndsInDirection (text : String) : Prop :=
  ∃ before blank word, text = before ++ String.singleton blank ++ word ∧ isBlank blank = true ∧
    (sameWord word "asc" = true ∨ sameWord word "desc" = true)

/-- Without a blank there is no direction. -/
theorem parse_of_uncut (h : Text.cutLast? isBlank (trim text).toList = none) :
    parse text = asc (trim text) := by
  simp only [parse, h]

theorem parse_of_cutLast? {before word : List Char}
    (h : Text.cutLast? isBlank (trim text).toList = some (before, word)) :
    parse text =
      if sameWord (String.ofList word) "desc" then desc (String.ofList (Text.dropBlankEnd before))
      else if sameWord (String.ofList word) "asc" then
        asc (String.ofList (Text.dropBlankEnd before))
      else asc (trim text) := by
  simp only [parse, h]

/-- Without a direction at the end all of the text is the name. -/
theorem parse_of_not_endsInDirection (h : ¬ EndsInDirection (trim text)) :
    parse text = asc (trim text) := by
  cases hcut : Text.cutLast? isBlank (trim text).toList with
  | none => exact parse_of_uncut hcut
  | some p =>
    obtain ⟨before, word⟩ := p
    obtain ⟨blank, hblank, htext⟩ := Text.eq_of_cutLast? hcut
    have hends : ¬(sameWord (String.ofList word) "asc" = true ∨
        sameWord (String.ofList word) "desc" = true) := by
      refine fun hword => h ⟨String.ofList before, blank, String.ofList word, ?_, hblank, hword⟩
      simp [← String.toList_inj, htext]
    obtain ⟨hasc, hdesc⟩ := not_or.mp hends
    rw [parse_of_cutLast? hcut, if_neg hdesc, if_neg hasc]

/-- A direction at the end is taken off together with the blank in front of it. -/
theorem length_name_parse (h : EndsInDirection (trim text)) :
    (parse text).name.length < (trim text).length := by
  obtain ⟨before, blank, word, htext, hblank, hword⟩ := h
  -- No blank stands in the word, so the last one of the text stands in front of it.
  have hplain : ∀ c ∈ word.toList, isBlank c = false := by
    rcases hword with hword | hword <;> exact Text.not_isBlank_of_sameWord hword (by decide)
  have hcut : Text.cutLast? isBlank (trim text).toList = some (before.toList, word.toList) := by
    rw [htext, String.toList_append, String.toList_append, String.toList_singleton,
      List.append_assoc, List.singleton_append]
    exact Text.cutLast?_append hblank before.toList hplain
  have hshort : (String.ofList (Text.dropBlankEnd before.toList)).length < (trim text).length := by
    have hprefix := (Text.prefix_dropBlankEnd before.toList).length_le
    rw [htext, ← String.length_toList, String.toList_ofList, String.length_append,
      String.length_append, String.length_singleton]
    rw [String.length_toList] at hprefix
    omega
  rw [parse_of_cutLast? hcut, String.ofList_toList]
  by_cases hdesc : sameWord word "desc" = true
  · rw [if_pos hdesc]
    exact hshort
  · rw [if_neg hdesc, if_pos (hword.resolve_right hdesc)]
    exact hshort

/-- The direction stands alone where the name is blank. -/
theorem parse_descending_of_blank (h : Text.dropBlank name.toList = []) :
    parse (name ++ " DESC") = asc "DESC" := by
  have htrim : trim (name ++ " DESC") = "DESC" := by
    have hstart : Text.dropBlank (name ++ " DESC").toList = Text.dropBlank " DESC".toList := by
      rw [String.toList_append, Text.dropBlank, List.dropWhile_append, ← Text.dropBlank, h]
      rfl
    rw [← String.toList_inj, Text.toList_trim, hstart]
    decide
  have hplain : Text.cutLast? isBlank (trim (name ++ " DESC")).toList = none := by
    rw [htrim]
    decide
  rw [parse_of_uncut hplain, htrim]

/-- Of the text of a descending entry only blanks in front are lost. -/
theorem toList_trim_descending (h : Text.dropBlank name.toList ≠ []) :
    (trim (name ++ " DESC")).toList = Text.dropBlank name.toList ++ ' ' :: "DESC".toList := by
  have hstart : Text.dropBlank (name ++ " DESC").toList =
      Text.dropBlank name.toList ++ " DESC".toList := by
    rw [String.toList_append, Text.dropBlank, List.dropWhile_append, ← Text.dropBlank,
      if_neg (by simpa using h)]
  rw [Text.toList_trim, hstart, Text.dropBlankEnd_eq_self_iff.mpr (by simp; decide)]
  rfl

/-- The direction is taken off, and the name is trimmed. -/
theorem parse_descending (h : Text.dropBlank name.toList ≠ []) :
    parse (name ++ " DESC") = desc (trim name) := by
  have hdesc : sameWord "DESC" "desc" = true := by
    simp [sameWord, Text.lower, ← String.toList_inj]
  have hcut : Text.cutLast? isBlank (trim (name ++ " DESC")).toList =
      some (Text.dropBlank name.toList, "DESC".toList) := by
    rw [toList_trim_descending h]
    exact Text.cutLast?_append (by decide) _ (Text.not_isBlank_of_sameWord hdesc (by decide))
  rw [parse_of_cutLast? hcut, String.ofList_toList, if_pos hdesc]
  rfl

/-! ## §2 Reading back -/

theorem parse_text_ascending_iff :
    parse (asc name).text = asc name ↔ Trimmed name ∧ ¬ EndsInDirection name := by
  change parse name = asc name ↔ _
  rw [← Text.trim_eq_self_iff]
  constructor
  · intro hread
    have hname : (parse name).name = name := congrArg SortKey.name hread
    -- With a direction taken off, what is left would be shorter than the name.
    have hends : ¬ EndsInDirection (trim name) := by
      intro hends
      have hshort := length_name_parse hends
      rw [hname] at hshort
      exact absurd (Text.length_trim_le name) (Nat.not_le_of_lt hshort)
    have htrim : trim name = name := by
      rw [parse_of_not_endsInDirection hends] at hread
      exact congrArg SortKey.name hread
    exact ⟨htrim, htrim ▸ hends⟩
  · rintro ⟨htrim, hends⟩
    rw [parse_of_not_endsInDirection (htrim.symm ▸ hends), htrim]

theorem parse_text_descending_iff :
    parse (desc name).text = desc name ↔ Trimmed name ∧ name ≠ "" := by
  change parse (name ++ " DESC") = desc name ↔ _
  by_cases hblank : Text.dropBlank name.toList = []
  · -- A blank name that is trimmed is empty.
    rw [parse_descending_of_blank hblank]
    refine ⟨nofun, fun ⟨htrimmed, hne⟩ => absurd ?_ hne⟩
    rw [← String.toList_inj, ← Text.dropBlank_eq_self_iff.mpr htrimmed.first, hblank]
    rfl
  · have hne : name ≠ "" := by
      rintro rfl
      exact hblank rfl
    rw [parse_descending hblank, ← Text.trim_eq_self_iff]
    exact ⟨fun hread => ⟨congrArg SortKey.name hread, hne⟩, fun h => congrArg desc h.1⟩

/-- The text of an entry is read back as that entry exactly when no blank stands at either end of
the name, the name is not empty if the entry is descending, and it does not end in a direction if it
is ascending. -/
theorem parse_text_iff (s : SortKey) :
    parse s.text = s ↔ Trimmed s.name ∧ (s.descending = true → s.name ≠ "") ∧
      (s.descending = false → ¬ EndsInDirection s.name) := by
  obtain ⟨name, descending⟩ := s
  cases descending with
  | true => simpa [desc] using @parse_text_descending_iff name
  | false => simpa [asc] using @parse_text_ascending_iff name

end SqlService.SortKey
