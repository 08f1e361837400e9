import SqlService.Text.CaseTables
import SqlService.Text.Ranges

/-!
# Lower case of any text

`lowerCase` maps every character to lower case by the Unicode rules: `İ` becomes `i` followed by a
combining dot above, and a capital sigma at the end of a word becomes the final sigma.  A sigma
ends a word when a cased character stands before it and none after it, ignorable characters in
between being passed over.  Main statement: on ASCII texts it agrees with the ASCII mapping of
each character (`lowerCaseFrom_ascii`).
-/

namespace SqlService.Text

/-! ## §1 Characters -/

/-- Whether the row maps the code point. -/
def rowHolds (row : Nat × Nat × Nat × Int) (n : Nat) : Bool :=
  row.1 ≤ n && n ≤ row.2.1 && (n - row.1) % row.2.2.1 == 0

/-- The simple lower-case mapping of one character; ASCII goes by its own rule. -/
def lowerChar (c : Char) : Char :=
  if c.toNat < 128 then c.toLower
  else
    match lowerCaseRows.find? (rowHolds · c.toNat) with
    | some row => Char.ofNat (Int.toNat (Int.ofNat c.toNat + row.2.2.2))
    | none => c

/-- Whether the first character that is not case-ignorable is cased. -/
def meetsCased (cs : List Char) : Bool :=
  match cs.dropWhile (inRanges caseIgnorableRanges) with
  | c :: _ => inRanges casedRanges c
  | [] => false

/-! ## §2 Texts -/

/-- The lower case of `rest`, where `before` holds the characters in front, nearest first. -/
def lowerCaseFrom (before : List Char) : List Char → List Char
  | [] => []
  | c :: rest =>
    -- The two characters whose lower case is not a matter of one character alone come first.
    let image :=
      if c == 'Σ' then [if meetsCased before && !meetsCased rest then 'ς' else 'σ']
      else if c == 'İ' then ['i', '\u0307']
      else [lowerChar c]
    image ++ lowerCaseFrom (c :: before) rest

/-- The text in lower case. -/
def lowerCase (s : String) : String := String.ofList (lowerCaseFrom [] s.toList)

theorem lowerCaseFrom_ascii (before cs : List Char) (h : ∀ c ∈ cs, c.toNat < 128) :
    lowerCaseFrom before cs = cs.map Char.toLower := by
  induction cs generalizing before with
  | nil => rfl
  | cons c cs ih =>
    have hc := h c (by simp)
    have hs : (c == 'Σ') = false := by
      rw [beq_eq_false_iff_ne]; rintro rfl; exact absurd hc (by decide)
    have hi : (c == 'İ') = false := by
      rw [beq_eq_false_iff_ne]; rintro rfl; exact absurd hc (by decide)
    rw [lowerCaseFrom, ih _ fun d hd => h d (by simp [hd])]
    simp [hs, hi, lowerChar, hc]

end SqlService.Text
