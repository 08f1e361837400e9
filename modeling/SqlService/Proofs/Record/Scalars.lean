import SqlService.Scalar

/-!
# Scalars and the values that they are bound for

A scalar value that is bound to a parameter is read back as the same value, with one exception: a
whole number beyond the signed words has no scalar of its own and is bound as a double, like every
other number without a signed word that this is the nearest double of.

Main statement: `Scalar.kept_apart`.
-/

namespace SqlService

/-! ## §1 Numbers with and without a signed word -/

namespace Number

/-- The numbers with a signed word are the words. -/
theorem toInt64?_eq_some_iff {n : Number} {word : Int64} :
    n.toInt64? = some word ↔ n = .int (.ofInt64 word) := by
  constructor
  · intro h
    cases n with
    | float x hx => cases h
    | int i =>
      obtain ⟨val, lower, upper⟩ := i
      obtain ⟨hval, rfl⟩ : val < 0x8000000000000000 ∧ Int64.ofInt val = word := by
        simpa [toInt64?, Integer.toInt64?] using h
      have hword : (Int64.ofInt val).toInt = val := Int64.toInt_ofInt_of_le lower hval
      simp only [Integer.ofInt64, hword]
  · rintro rfl
    exact Integer.toInt64?_ofInt64 word

theorem toInt64?_int_eq_none_iff {i : Integer} :
    (int i).toInt64? = none ↔ 0x8000000000000000 ≤ i.val := by
  simp [toInt64?, Integer.toInt64?]

end Number

namespace Json

/-- Whether a value is neither an array nor an object. -/
def isScalar : Json → Bool
  | array _ => false
  | object _ => false
  | _ => true

/-- The value is a whole number beyond the signed words. -/
def Beyond (v : Json) : Prop := ∃ i : Integer, v = .number (.int i) ∧ 0x8000000000000000 ≤ i.val

/-- The values are numbers without a signed word that have the same nearest double. -/
def Blurred (v w : Json) : Prop :=
  ∃ m n : Number, v = .number m ∧ w = .number n ∧ m.toInt64? = none ∧ n.toInt64? = none ∧
    m.toBinary64 = n.toBinary64

theorem beyond_number_iff {n : Number} :
    (number n).Beyond ↔ ∃ i, n = .int i ∧ n.toInt64? = none := by
  constructor
  · rintro ⟨i, hi, hbeyond⟩
    cases hi
    exact ⟨i, rfl, Number.toInt64?_int_eq_none_iff.mpr hbeyond⟩
  · rintro ⟨i, rfl, hnone⟩
    exact ⟨i, rfl, Number.toInt64?_int_eq_none_iff.mp hnone⟩

/-- A double is never a whole number. -/
theorem ofBinary64_ne_int (x : Binary64) (i : Integer) : ofBinary64 x ≠ number (.int i) := by
  unfold ofBinary64 Number.ofBinary64?
  by_cases hx : x.isFinite = true <;> simp [hx]

theorem ofBinary64_of_finite {x : Binary64} (hx : x.isFinite = true) :
    ofBinary64 x = number (.float x hx) := by
  simp [ofBinary64, Number.ofBinary64?, hx]

end Json

/-! ## §2 Binding -/

namespace Scalar

theorem ofJson_of_some {n : Number} {word : Int64} (h : n.toInt64? = some word) :
    ofJson (.number n) = .int word := by
  simp [ofJson, h]

theorem ofJson_of_none {n : Number} (h : n.toInt64? = none) :
    ofJson (.number n) = .float n.toBinary64 := by
  simp [ofJson, h]

/-- A number is read back unless it is a whole number beyond the signed words. -/
theorem toJson_ofJson_number_iff {n : Number} :
    (ofJson (.number n)).toJson = .number n ↔ ¬ (Json.number n).Beyond := by
  rw [Json.beyond_number_iff]
  cases hn : n.toInt64? with
  | some word =>
    obtain rfl := Number.toInt64?_eq_some_iff.mp hn
    rw [ofJson_of_some hn]
    exact iff_of_true rfl (by simp)
  | none =>
    rw [ofJson_of_none hn]
    cases n with
    | int i => exact iff_of_false (Json.ofBinary64_ne_int _ i) (by simp)
    | float x hx => exact iff_of_true (Json.ofBinary64_of_finite hx) (by simp)

/-- Different numbers are bound alike only if one of them is beyond the signed words. -/
theorem ofJson_number_eq_iff {m n : Number} :
    ofJson (.number m) = ofJson (.number n) ↔ m = n ∨
      ((Json.number m).Beyond ∨ (Json.number n).Beyond) ∧
        (Json.number m).Blurred (.number n) := by
  constructor
  · intro h
    cases hm : m.toInt64? with
    | some word =>
      rw [ofJson_of_some hm] at h
      cases hn : n.toInt64? with
      | some word' =>
        rw [ofJson_of_some hn, Scalar.int.injEq] at h
        rw [Number.toInt64?_eq_some_iff.mp hm, Number.toInt64?_eq_some_iff.mp hn, h]
        exact .inl rfl
      | none => simp [ofJson_of_none hn] at h
    | none =>
      rw [ofJson_of_none hm] at h
      cases hn : n.toInt64? with
      | some word => simp [ofJson_of_some hn] at h
      | none =>
        rw [ofJson_of_none hn, Scalar.float.injEq] at h
        have hblurred : (Json.number m).Blurred (.number n) := ⟨m, n, rfl, rfl, hm, hn, h⟩
        -- Two doubles are the same number; otherwise one of the two is whole.
        cases m with
        | int i => exact .inr ⟨.inl (Json.beyond_number_iff.mpr ⟨i, rfl, hm⟩), hblurred⟩
        | float x hx =>
          cases n with
          | int j => exact .inr ⟨.inr (Json.beyond_number_iff.mpr ⟨j, rfl, hn⟩), hblurred⟩
          | float y hy =>
            obtain rfl : x = y := h
            exact .inl rfl
  · rintro (rfl | ⟨-, m', n', hm', hn', hm, hn, hsame⟩)
    · rfl
    · cases hm'
      cases hn'
      rw [ofJson_of_none hm, ofJson_of_none hn, hsame]

/-- Binding keeps scalar values apart, except for whole numbers beyond the signed words.  A scalar
value is read back as it was bound exactly if it is no such number; and two of them are bound as the
same scalar only if they are equal, or if one is such a number and both have no signed word and the
same nearest double. -/
theorem kept_apart (v w : Json) (hv : v.isScalar = true) (hw : w.isScalar = true) :
    ((ofJson v).toJson = v ↔ ¬ v.Beyond) ∧
      (ofJson v = ofJson w ↔ v = w ∨ (v.Beyond ∨ w.Beyond) ∧ v.Blurred w) := by
  constructor
  · cases v with
    | number n => exact toJson_ofJson_number_iff
    | array items => cases hv
    | object fields => cases hv
    | null | bool | string => exact iff_of_true rfl (by simp [Json.Beyond])
  · cases v with
    | number m =>
      cases w with
      | number n => rw [ofJson_number_eq_iff, Json.number.injEq]
      | array items => cases hw
      | object fields => cases hw
      | null | bool | string =>
        -- A number is bound as a number.
        refine iff_of_false ?_ (by simp [Json.Blurred])
        cases hm : m.toInt64? <;> simp [ofJson, hm]
    | array items => cases hv
    | object fields => cases hv
    | null | bool | string =>
      cases w with
      | array items => cases hw
      | object fields => cases hw
      | number n =>
        refine iff_of_false ?_ (by simp [Json.Blurred])
        cases hn : n.toInt64? <;> simp [ofJson, hn]
      | null | bool | string => simp [ofJson, Json.Blurred]

/-- The smallest whole number that no double has is bound as itself and not as its neighbour. -/
theorem doubleless_kept_apart :
    (ofJson (.ofUInt64 9007199254740993)).toJson = .ofUInt64 9007199254740993 ∧
      ofJson (.ofUInt64 9007199254740993) ≠ ofJson (.ofUInt64 9007199254740992) := by
  have hsigned : ∀ n : UInt64, n.toNat < 0x8000000000000000 → ¬ (Json.ofUInt64 n).Beyond := by
    rintro n hn ⟨i, hi, hbeyond⟩
    cases hi
    simp only [Integer.val_ofUInt64] at hbeyond
    omega
  have hlaws := kept_apart (.ofUInt64 9007199254740993) (.ofUInt64 9007199254740992) rfl rfl
  refine ⟨hlaws.1.mpr (hsigned _ (by decide)), fun hsame => ?_⟩
  rcases hlaws.2.mp hsame with heq | ⟨hbeyond, -⟩
  · simp [Json.ofUInt64, Integer.ofUInt64] at heq
  · exact hbeyond.elim (hsigned _ (by decide)) (hsigned _ (by decide))

/-- The first whole number beyond the signed words is read back as a double, and bound as the same
scalar as the next one. -/
theorem first_beyond_blurred :
    (ofJson (.ofUInt64 9223372036854775808)).toJson ≠ .ofUInt64 9223372036854775808 ∧
      Json.ofUInt64 9223372036854775808 ≠ .ofUInt64 9223372036854775809 ∧
      ofJson (.ofUInt64 9223372036854775808) = ofJson (.ofUInt64 9223372036854775809) := by
  have hbeyond : (Json.ofUInt64 9223372036854775808).Beyond := ⟨_, rfl, by decide⟩
  have hnearest : (Number.int (.ofUInt64 9223372036854775808)).toBinary64 =
      (Number.int (.ofUInt64 9223372036854775809)).toBinary64 := by decide +kernel
  refine ⟨fun h => toJson_ofJson_number_iff.mp h hbeyond, ?_, ?_⟩
  · simp [Json.ofUInt64, Integer.ofUInt64]
  · rw [Json.ofUInt64, Json.ofUInt64, ofJson_of_none rfl, ofJson_of_none rfl, hnearest]

end Scalar

end SqlService
