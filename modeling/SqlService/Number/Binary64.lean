/-!
# Double-precision numbers in exact arithmetic

A `Binary64` is a 64-bit pattern of the binary interchange format: a sign, eleven bits of exponent
and fifty-two of fraction.  A finite pattern stands for `± significand * 2 ^ scale / 2 ^ 1074`, so
every operation here is arithmetic on natural numbers followed by one rounding to the nearest
pattern, ties to an even significand.
-/

namespace SqlService

/-- A bit pattern of the double-precision format. -/
structure Binary64 where
  bits : UInt64
  deriving DecidableEq, Repr

namespace Binary64

/-! ## §1 The parts of a pattern -/

/-- Whether the sign bit is set. -/
def negative (x : Binary64) : Bool := 0x8000000000000000 ≤ x.bits.toNat

/-- The exponent field, from 0 to 2047. -/
def exponentField (x : Binary64) : Nat := x.bits.toNat / 0x10000000000000 % 2048

/-- The fraction field, below `2 ^ 52`. -/
def fraction (x : Binary64) : Nat := x.bits.toNat % 0x10000000000000

/-- Whether the pattern stands for a number: neither an infinity nor a NaN. -/
def isFinite (x : Binary64) : Bool := x.exponentField != 2047

/-- Whether the pattern stands for no number and no infinity. -/
def isNaN (x : Binary64) : Bool := x.exponentField == 2047 && x.fraction != 0

/-- The significand with its leading bit. -/
def significand (x : Binary64) : Nat :=
  if x.exponentField = 0 then x.fraction else x.fraction + 0x10000000000000

/-- The power of two that the significand is taken by, above the smallest unit `2 ^ -1074`. -/
def scale (x : Binary64) : Nat := x.exponentField - 1

/-- The magnitude of a finite pattern in units of `2 ^ -1074`. -/
def magnitude (x : Binary64) : Nat := x.significand * Nat.pow 2 x.scale

/-- Whether the pattern is one of the two zeros. -/
def isZero (x : Binary64) : Bool := x.bits.toNat % 0x8000000000000000 == 0

/-- Comparison of values: the two zeros agree, and a NaN agrees with nothing. -/
def sameValue (x y : Binary64) : Bool :=
  !x.isNaN && !y.isNaN && (x.bits == y.bits || (x.isZero && y.isZero))

/-! ## §2 Rounding -/

/-- The quotient to the nearest whole number, ties to even. -/
def roundDiv (num den : Nat) : Nat :=
  let q := num / den
  let twice := 2 * (num % den)
  if twice < den then q
  else if den < twice then q + 1
  else q + q % 2

/-- The magnitude field of the infinities, `2047 * 2 ^ 52`. -/
def infinityField : Nat := 0x7FF0000000000000

/-- The pattern of the given sign whose magnitude field is `m`, an infinity where `m` is too
large. -/
def ofMagnitudeBits (neg : Bool) (m : Nat) : Binary64 :=
  ⟨UInt64.ofNat ((if neg then 0x8000000000000000 else 0) + min m infinityField)⟩

/-- The pattern nearest to `num / den`, with the given sign.  The result is an infinity when the
quotient is too large. -/
def ofRatio (neg : Bool) (num den : Nat) : Binary64 :=
  -- The quotient in smallest units decides how many of its low bits are rounded away.
  let units := num * Nat.pow 2 1074
  let shift := (units / den).log2 - 52
  -- A carry out of the significand raises the exponent by itself.
  ofMagnitudeBits neg (shift * 0x10000000000000 + roundDiv units (den * Nat.pow 2 shift))

/-- The pattern nearest to a natural number. -/
def ofNat (n : Nat) : Binary64 := ofRatio false n 1

/-- The pattern nearest to a whole number; zero is positive. -/
def ofInt (i : Int) : Binary64 := ofRatio (decide (i < 0)) i.natAbs 1

/-- Positive infinity. -/
def infinity : Binary64 := ofMagnitudeBits false infinityField

/-- Negative infinity. -/
def negativeInfinity : Binary64 := ofMagnitudeBits true infinityField

/-- The quiet NaN without payload. -/
def nan : Binary64 := ⟨0x7FF8000000000000⟩

/-- The zero of the given sign. -/
def zero (neg : Bool) : Binary64 := ofMagnitudeBits neg 0

/-! ## §3 Arithmetic on finite patterns -/

/-- The pattern with the other sign. -/
def neg (x : Binary64) : Binary64 := ⟨x.bits ^^^ 0x8000000000000000⟩

/-- The rounded product of two finite patterns. -/
def mul (x y : Binary64) : Binary64 :=
  ofRatio (x.negative != y.negative) (x.magnitude * y.magnitude) (Nat.pow 2 2148)

/-- The rounded quotient of two finite patterns; the divisor is not zero. -/
def div (x y : Binary64) : Binary64 :=
  ofRatio (x.negative != y.negative) x.magnitude y.magnitude

/-- The whole part of a finite pattern, towards zero. -/
def truncate (x : Binary64) : Int :=
  let whole : Int := Int.ofNat (x.magnitude / Nat.pow 2 1074)
  if x.negative then -whole else whole

/-- The whole part as a signed word, the nearest end of the range if it does not fit and zero for
a NaN. -/
def toInt64 (x : Binary64) : Int64 :=
  if x.isNaN then 0
  else if !x.isFinite then (if x.negative then Int64.minValue else Int64.maxValue)
  else Int64.ofInt (max (-0x8000000000000000) (min 0x7FFFFFFFFFFFFFFF x.truncate))

example : ofNat 1 = ⟨0x3FF0000000000000⟩ := by decide +kernel
example : ofRatio true 1 10 = ⟨0xBFB999999999999A⟩ := by decide +kernel
example : ofNat 9007199254740993 = ofNat 9007199254740992 := by decide +kernel
example : ofRatio false (Nat.pow 10 400) 1 = infinity := by decide +kernel
example : (ofRatio false 5 (Nat.pow 10 324)).bits = 1 := by decide +kernel

end Binary64

end SqlService
