import SqlService.Text.Ranges

/-!
# Blank characters

A blank is a character with the Unicode property `White_Space`.  `trim` drops blanks at both ends
of a text, `trimStart` and `trimEnd` at one of them.
-/

namespace SqlService.Text

/-! ## §1 The table -/

/-- The ranges of code points with the property `White_Space`, ends included. -/
def blankRanges : List (Nat × Nat) :=
  [(0x09, 0x0D), (0x20, 0x20), (0x85, 0x85), (0xA0, 0xA0), (0x1680, 0x1680), (0x2000, 0x200A),
   (0x2028, 0x2029), (0x202F, 0x202F), (0x205F, 0x205F), (0x3000, 0x3000)]

/-- Whether a character has the property `White_Space`. -/
def isBlank (c : Char) : Bool := inRanges blankRanges c

/-- The table holds the twenty-five code points of the property. -/
example : (blankRanges.map fun r => r.2 - r.1 + 1).sum = 25 := by decide

/-! ## §2 Trimming -/

/-- The characters without the blanks in front. -/
def dropBlank (cs : List Char) : List Char := cs.dropWhile isBlank

/-- The characters without the blanks at the end. -/
def dropBlankEnd (cs : List Char) : List Char := (dropBlank cs.reverse).reverse

/-- The text without blanks in front. -/
def trimStart (s : String) : String := String.ofList (dropBlank s.toList)

/-- The text without blanks at the end. -/
def trimEnd (s : String) : String := String.ofList (dropBlankEnd s.toList)

/-- The text without blanks at either end. -/
def trim (s : String) : String := String.ofList (dropBlankEnd (dropBlank s.toList))

@[simp] theorem toList_trimStart (s : String) : (trimStart s).toList = dropBlank s.toList := by
  simp [trimStart]

@[simp] theorem toList_trimEnd (s : String) : (trimEnd s).toList = dropBlankEnd s.toList := by
  simp [trimEnd]

@[simp] theorem toList_trim (s : String) :
    (trim s).toList = dropBlankEnd (dropBlank s.toList) := by
  simp [trim]

end SqlService.Text
