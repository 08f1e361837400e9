import Mathlib.Data.List.TakeWhile
import SqlService.Proofs.Text.Words
import SqlService.Text.Blank

/-!
# Trimmed texts

A text is trimmed if no blank stands at either end of it; these are the texts that trimming leaves
as they are.  The characters of words are no blanks.

Main statement: `trim_eq_self_iff`.
-/

namespace SqlService.Text

/-- No blank stands at either end of the text. -/
structure Trimmed (s : String) : Prop where
  first : ∀ c ∈ s.toList.head?, isBlank c = false
  last : ∀ c ∈ s.toList.getLast?, isBlank c = false

variable {s word : String} {cs : List Char}

/-! ## §1 Words and blanks -/

theorem toNat_of_isWordChar {c : Char} (h : isWordChar c = true) :
    48 ≤ c.toNat ∧ c.toNat ≤ 122 := by
  unfold isWordChar Char.isAlphanum Char.isAlpha Char.isUpper Char.isLower Char.isDigit at h
  simp only [Bool.or_eq_true, Bool.and_eq_true, decide_eq_true_eq, beq_iff_eq, ge_iff_le,
    UInt32.le_iff_toNat_le] at h
  rcases h with ((⟨hlow, hhigh⟩ | ⟨hlow, hhigh⟩) | ⟨hlow, hhigh⟩) | rfl
  · exact ⟨Nat.le_trans (by decide) hlow, Nat.le_trans hhigh (by decide)⟩
  · exact ⟨Nat.le_trans (by decide) hlow, Nat.le_trans hhigh (by decide)⟩
  · exact ⟨Nat.le_trans (by decide) hlow, Nat.le_trans hhigh (by decide)⟩
  · decide

theorem isBlank_of_isWordChar {c : Char} (h : isWordChar c = true) : isBlank c = false := by
  obtain ⟨hlow, hhigh⟩ := toNat_of_isWordChar h
  simp only [isBlank, inRanges, blankRanges, List.any_cons, List.any_nil, Bool.or_false,
    Bool.or_eq_false_iff, Bool.and_eq_false_iff, decide_eq_false_iff_not]
  omega

theorem not_isBlank_of_sameWord {other : String} (h : sameWord word other = true)
    (hother : other.toList.all isWordChar = true) : ∀ c ∈ word.toList, isBlank c = false := by
  rw [← all_isWordChar_of_sameWord h, List.all_eq_true] at hother
  exact fun c hc => isBlank_of_isWordChar (hother c hc)

/-! ## §2 Trimming -/

theorem suffix_dropBlank (cs : List Char) : dropBlank cs <:+ cs := List.dropWhile_suffix isBlank

theorem prefix_dropBlankEnd (cs : List Char) : dropBlankEnd cs <+: cs := by
  rw [← List.reverse_suffix, dropBlankEnd, List.reverse_reverse]
  exact suffix_dropBlank cs.reverse

theorem length_trim_le (s : String) : (trim s).length ≤ s.length := by
  rw [← String.length_toList, ← String.length_toList, toList_trim]
  exact Nat.le_trans (prefix_dropBlankEnd _).length_le (suffix_dropBlank _).length_le

theorem dropBlank_eq_self_iff : dropBlank cs = cs ↔ ∀ c ∈ cs.head?, isBlank c = false := by
  cases cs with
  | nil => simp [dropBlank]
  | cons c cs => simp [dropBlank, List.dropWhile_eq_self_iff]

theorem dropBlankEnd_eq_self_iff :
    dropBlankEnd cs = cs ↔ ∀ c ∈ cs.getLast?, isBlank c = false := by
  rw [← List.head?_reverse, ← dropBlank_eq_self_iff, dropBlankEnd, List.reverse_eq_iff]

/-- Trimming leaves exactly the trimmed texts as they are. -/
theorem trim_eq_self_iff : trim s = s ↔ Trimmed s := by
  rw [← String.toList_inj, toList_trim]
  constructor
  · intro h
    -- Neither end can lose anything if the whole loses nothing.
    have hstart : dropBlank s.toList = s.toList := by
      refine (suffix_dropBlank _).eq_of_length
        (Nat.le_antisymm (suffix_dropBlank _).length_le ?_)
      exact Nat.le_trans (Nat.le_of_eq (congrArg List.length h).symm)
        (prefix_dropBlankEnd _).length_le
    rw [hstart] at h
    exact ⟨dropBlank_eq_self_iff.mp hstart, dropBlankEnd_eq_self_iff.mp h⟩
  · rintro ⟨hfirst, hlast⟩
    rw [dropBlank_eq_self_iff.mpr hfirst, dropBlankEnd_eq_self_iff.mpr hlast]

end SqlService.Text
