import SqlService.Number.Integer
import SqlService.Number.Binary64
import SqlService.Text.Ascii

/-!
# Number literals

Two grammars of number text.  `Literal` is a JSON number taken apart into its digits; its value is
a whole number where it fits a 64-bit word and a double otherwise.  `isFloatText` is the wider
grammar of floating-point text: a sign of either kind, a point at either end, and the words for
infinities and NaN.

A double is read in two steps.  The digits are collected while they fit an unsigned 64-bit word,
later ones only moving the point; the collected number is then scaled by a power of ten, each step
rounded to a double.
-/

namespace SqlService

/-- A JSON number: a whole number in a word range or a finite double. -/
inductive Number where
  | int (value : Integer)
  | float (value : Binary64) (finite : value.isFinite = true)
  deriving DecidableEq, Repr

namespace Number

/-- The double as a number, if it is finite. -/
def ofBinary64? (x : Binary64) : Option Number :=
  if h : x.isFinite = true then some (.float x h) else none

/-- The number as a signed word: only whole numbers that fit have one. -/
def toInt64? : Number → Option Int64
  | int i => i.toInt64?
  | float _ _ => none

/-- The number as an unsigned word: only whole numbers that fit have one. -/
def toUInt64? : Number → Option UInt64
  | int i => i.toUInt64?
  | float _ _ => none

/-- The nearest double. -/
def toBinary64 : Number → Binary64
  | int i => Binary64.ofInt i.val
  | float x _ => x

/-- The number as a signed word, a double losing its fraction and being cut to the range. -/
def truncate (n : Number) : Int64 :=
  match n.toInt64? with
  | some i => i
  | none => n.toBinary64.toInt64

/-- Equality of values: a whole number never equals a double, and the two zeros are equal. -/
def same : Number → Number → Bool
  | int i, int j => i == j
  | float x _, float y _ => x.sameValue y
  | _, _ => false

end Number

/-! ## §1 JSON literals -/

/-- The parts of a JSON number: `whole` and `decimals` hold digits, the exponent its sign and
digits. -/
structure Literal where
  negative : Bool
  whole : List Char
  decimals : Option (List Char)
  exponent : Option (Bool × List Char)

namespace Literal

/-- Digits collected into a 64-bit word: the word and how many digits it took.  The first digit
that does not fit ends the collection. -/
def collect (word taken : Nat) : List Char → Nat × Nat
  | [] => (word, taken)
  | c :: cs =>
    -- The bound is tested on every digit, so a digit after the first misfit never counts.
    let next := 10 * word + Decimal.digitValue c
    if next < UInt64.size then collect next (taken + 1) cs else (word, taken)

/-- A power of ten as a double, for exponents up to 308. -/
def tenTo (k : Nat) : Binary64 := Binary64.ofNat (Nat.pow 10 k)

/-- Divides by `10 ^ 308` until the exponent is in reach or nothing is left; `left` bounds the
number of divisions. -/
def scaleDown : Nat → Binary64 → Nat → Binary64
  | 0, f, _ => f
  | left + 1, f, k =>
    if k ≤ 308 then f.div (tenTo k)
    else if f.isZero then f
    else scaleDown left (f.div (tenTo 308)) (k - 308)

/-- The double `f * 10 ^ e`, or nothing when it is too large. -/
def scaled? (f : Binary64) (e : Int) : Option Binary64 :=
  if e < 0 then some (scaleDown (e.natAbs / 308 + 1) f e.natAbs)
  else if f.isZero then some f
  else if 308 < e then none
  else
    let g := f.mul (tenTo e.toNat)
    if g.isFinite then some g else none

/-- The double of a literal, or nothing when it is too large. -/
def toBinary64? (l : Literal) : Option Binary64 :=
  let decimals := l.decimals.getD []
  let whole := collect 0 0 l.whole
  -- The decimals go on where the whole part stopped, even if it stopped early.
  let all := collect whole.1 0 decimals
  let shift : Int := Int.ofNat (l.whole.length - whole.2) - Int.ofNat all.2
  let exponent : Int :=
    match l.exponent with
    | none => 0
    | some (minus, digits) =>
      let e := Int.ofNat (Decimal.valueFrom 0 digits)
      if minus then -e else e
  (scaled? (Binary64.ofNat all.1) (shift + exponent)).map fun f =>
    if l.negative then f.neg else f

/-- The value of a literal.  Without point and exponent it is a whole number where one of the two
word ranges holds it, `-0` excepted. -/
def toNumber? (l : Literal) : Option Number :=
  let whole : Option Number :=
    if l.decimals.isNone && l.exponent.isNone then
      let n := Decimal.valueFrom 0 l.whole
      -- Only a double can hold the sign of `-0`.
      if l.negative && n == 0 then none
      else (Integer.ofInt? (if l.negative then -Int.ofNat n else Int.ofNat n)).map Number.int
    else none
  match whole with
  | some n => some n
  | none => l.toBinary64?.bind Number.ofBinary64?

/-- Reads the exponent part, which must be all that is left. -/
def readExponent? : List Char → Option (Option (Bool × List Char))
  | [] => some none
  | mark :: cs =>
    if mark == 'e' || mark == 'E' then
      let signed : Bool × List Char :=
        match cs with
        | '+' :: ds => (false, ds)
        | '-' :: ds => (true, ds)
        | ds => (false, ds)
      if signed.2.isEmpty || !signed.2.all Char.isDigit then none else some (some signed)
    else none

/-- Reads a JSON number that takes up all of the characters: no leading zeros, a digit on each
side of a point, and a digit in every exponent. -/
def read? (cs : List Char) : Option Literal :=
  let signed : Bool × List Char :=
    match cs with
    | '-' :: ds => (true, ds)
    | ds => (false, ds)
  let whole := signed.2.takeWhile Char.isDigit
  let rest := signed.2.dropWhile Char.isDigit
  -- A zero in front is only allowed alone.
  if whole.isEmpty || (whole.head? == some '0' && whole.length != 1) then none
  else
    match rest with
    | '.' :: ds =>
      let decimals := ds.takeWhile Char.isDigit
      if decimals.isEmpty then none
      else (readExponent? (ds.dropWhile Char.isDigit)).map fun e =>
        ⟨signed.1, whole, some decimals, e⟩
    | ds => (readExponent? ds).map fun e => ⟨signed.1, whole, none, e⟩

end Literal

/-! ## §2 Floating-point text -/

/-- Whether the characters are digits with at most one point and at least one digit, and then
nothing or an exponent with at least one digit. -/
def isFloatDigits (cs : List Char) : Bool :=
  let whole := cs.takeWhile Char.isDigit
  let rest := cs.dropWhile Char.isDigit
  let after :=
    match rest with
    | '.' :: ds => ds
    | ds => ds
  let decimals := if rest.head? == some '.' then after.takeWhile Char.isDigit else []
  !(whole.isEmpty && decimals.isEmpty) &&
    (Literal.readExponent? (after.drop decimals.length)).isSome

/-- Whether the text denotes a floating-point number. -/
def isFloatText (s : String) : Bool :=
  let unsigned :=
    match s.toList with
    | '+' :: cs => cs
    | '-' :: cs => cs
    | cs => cs
  let word := Text.lower (String.ofList unsigned)
  isFloatDigits unsigned || word == "inf" || word == "infinity" || word == "nan"

example : ["1", "+.5", "5.", "1e5", "-inf", "NaN"].all isFloatText := by decide +kernel
example : ["", ".", "-", "e5", "1e", "1e+", "1_0", " 1"].all (!isFloatText ·) := by decide +kernel

end SqlService
