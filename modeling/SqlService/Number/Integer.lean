import SqlService.Text.Blank

/-!
# Whole numbers and their text

`Integer` is a whole number that fits a signed or an unsigned 64-bit word.  `readSigned?` and
`readUnsigned?` read decimal text with an optional sign into such words; both refuse text that
denotes a number out of range.  Main statement: what is written is read back
(`readDigits?_toDigits`).
-/

namespace SqlService

/-! ## §1 The two word ranges together -/

/-- A whole number from `-2^63` to `2^64 - 1`. -/
structure Integer where
  val : Int
  lower_bound : -0x8000000000000000 ≤ val
  upper_bound : val < 0x10000000000000000
  deriving DecidableEq, Repr

namespace Integer

/-- The number, if it is in range. -/
def ofInt? (i : Int) : Option Integer :=
  if h : -0x8000000000000000 ≤ i ∧ i < 0x10000000000000000 then some ⟨i, h.1, h.2⟩ else none

/-- A signed word as a number. -/
def ofInt64 (i : Int64) : Integer :=
  ⟨i.toInt, i.le_toInt, by have := i.toInt_lt; omega⟩

/-- An unsigned word as a number. -/
def ofUInt64 (n : UInt64) : Integer :=
  ⟨n.toNat, by omega, by have := n.toNat_lt; omega⟩

/-- The number as a signed word, if it fits one. -/
def toInt64? (i : Integer) : Option Int64 :=
  if i.val < 0x8000000000000000 then some (Int64.ofInt i.val) else none

/-- The number as an unsigned word, if it is not negative. -/
def toUInt64? (i : Integer) : Option UInt64 :=
  if 0 ≤ i.val then some (UInt64.ofNat i.val.toNat) else none

@[simp] theorem val_ofInt64 (i : Int64) : (ofInt64 i).val = i.toInt := rfl

@[simp] theorem val_ofUInt64 (n : UInt64) : (ofUInt64 n).val = n.toNat := rfl

theorem ofInt?_val (i : Integer) : ofInt? i.val = some i := by
  simp only [ofInt?, i.lower_bound, i.upper_bound, and_self, dif_pos]

theorem toInt64?_ofInt64 (i : Int64) : (ofInt64 i).toInt64? = some i := by
  have h : (ofInt64 i).val < 0x8000000000000000 := i.toInt_lt
  rw [toInt64?, if_pos h]
  simp

theorem toUInt64?_ofUInt64 (n : UInt64) : (ofUInt64 n).toUInt64? = some n := by
  simp [toUInt64?]

end Integer

/-! ## §2 Decimal text -/

namespace Decimal

/-- The value of a digit character. -/
def digitValue (c : Char) : Nat := c.toNat - 48

/-- The number that a run of digits denotes, most significant digit first, after `high`. -/
def valueFrom (high : Nat) (cs : List Char) : Nat :=
  cs.foldl (fun n c => 10 * n + digitValue c) high

/-- The number denoted by one or more digits and nothing else. -/
def readDigits? (cs : List Char) : Option Nat :=
  if cs.isEmpty || !cs.all Char.isDigit then none else some (valueFrom 0 cs)

/-- Reads digits with an optional `+` as a number below `bound`. -/
def readUnsigned? (bound : Nat) (s : String) : Option Nat :=
  let digits :=
    match s.toList with
    | '+' :: cs => cs
    | cs => cs
  (readDigits? digits).filter (· < bound)

/-- Reads digits with an optional sign as a signed word. -/
def readSigned? (s : String) : Option Int64 :=
  let value : Option Int :=
    match s.toList with
    | '+' :: cs => (readDigits? cs).map Int.ofNat
    | '-' :: cs => (readDigits? cs).map fun n => -Int.ofNat n
    | cs => (readDigits? cs).map Int.ofNat
  (value.filter fun i => decide (-0x8000000000000000 ≤ i ∧ i < 0x8000000000000000)).map Int64.ofInt

theorem valueFrom_append (n : Nat) (xs ys : List Char) :
    valueFrom n (xs ++ ys) = valueFrom (valueFrom n xs) ys := by
  simp [valueFrom]

theorem digitValue_digitChar {n : Nat} (h : n < 10) : digitValue n.digitChar = n := by
  simp [digitValue, Nat.toNat_digitChar_sub_48_of_lt_ten h]

theorem valueFrom_toDigits (n : Nat) : valueFrom 0 (Nat.toDigits 10 n) = n := by
  induction n using Nat.strongRecOn with
  | _ n ih =>
    by_cases h : n < 10
    · rw [Nat.toDigits_of_lt_base h]
      simp [valueFrom, digitValue_digitChar h]
    · rw [Nat.toDigits_of_base_le (by decide) (by omega), valueFrom_append, ih (n / 10) (by omega)]
      simp only [valueFrom, List.foldl_cons, List.foldl_nil]
      rw [digitValue_digitChar (Nat.mod_lt _ (by decide))]
      omega

/-- The decimal text of a number is read back as that number. -/
theorem readDigits?_toDigits (n : Nat) : readDigits? (Nat.toDigits 10 n) = some n := by
  have hall : (Nat.toDigits 10 n).all Char.isDigit = true := by
    rw [List.all_eq_true]
    exact fun c hc => Nat.isDigit_of_mem_toDigits (by decide) (by decide) hc
  have hne : (Nat.toDigits 10 n).isEmpty = false := by
    rw [List.isEmpty_eq_false_iff]
    exact Nat.toDigits_ne_nil
  simp [readDigits?, hall, hne, valueFrom_toDigits]

end Decimal

end SqlService
