/-!
# ASCII letter case

Dialect names, type names and column names are compared without regard to the case of ASCII
letters; every other character stands for itself.  `lower` and `upper` map whole texts,
`sameWord` compares two of them, and `isWordChar` names the characters of a bare SQL word.
-/

namespace SqlService.Text

/-! ## §1 Case mapping -/

/-- The text with `A` to `Z` in lower case. -/
def lower (s : String) : String := s.map Char.toLower

/-- The text with `a` to `z` in upper case. -/
def upper (s : String) : String := s.map Char.toUpper

/-- Whether two texts agree once the case of ASCII letters is dropped. -/
def sameWord (a b : String) : Bool := lower a == lower b

theorem sameWord_iff {a b : String} : sameWord a b = true ↔ lower a = lower b := by
  simp [sameWord]

/-- Two texts are compared character by character. -/
theorem sameWord_iff_toList {a b : String} :
    sameWord a b = true ↔ a.toList.map Char.toLower = b.toList.map Char.toLower := by
  rw [sameWord_iff, lower, lower, ← String.toList_inj, String.toList_map, String.toList_map]

theorem sameWord_refl (a : String) : sameWord a a = true := by
  simp [sameWord]

theorem sameWord_comm (a b : String) : sameWord a b = sameWord b a := by
  simp [sameWord, Bool.beq_comm]

theorem sameWord_trans {a b c : String} (h : sameWord a b = true) (k : sameWord b c = true) :
    sameWord a c = true :=
  sameWord_iff.mpr ((sameWord_iff.mp h).trans (sameWord_iff.mp k))

/-! ## §2 Word characters -/

/-- Whether a character may stand in a bare SQL word: an ASCII letter, a digit or `_`. -/
def isWordChar (c : Char) : Bool := c.isAlphanum || c == '_'

end SqlService.Text
