import SqlService.Number.Binary64

/-!
# The fewest digits that denote a double

`shortest` gives a finite, non-zero double as decimal digits and a power of ten: the fewest digits
whose nearest double is the given one, and of those the digits closest to its value, an exact tie
going to the even last digit.  `Layout` says where plain notation ends and exponents begin, and
`Layout.write` writes the text.
-/

namespace SqlService.Binary64

/-! ## §1 Candidates on one decimal grid -/

/-- A decimal number `digits * 10 ^ exponent`. -/
structure Digits where
  digits : Nat
  exponent : Int
  deriving DecidableEq, Repr

/-- A value `num / den` with the ends of the interval of numbers that round to it. -/
structure Interval where
  num : Nat
  low : Nat
  high : Nat
  den : Nat
  closed : Bool

/-- The interval of a finite double, in quarters of its last place over `2 ^ 1076`. -/
def interval (x : Binary64) : Interval :=
  let unit := Nat.pow 2 x.scale
  -- At a power of two the neighbour below is only half as far away.
  let below := if x.significand = 0x10000000000000 ∧ x.scale ≠ 0 then 1 else 2
  { num := 4 * x.magnitude
    low := 4 * x.magnitude - below * unit
    high := 4 * x.magnitude + 2 * unit
    den := Nat.pow 2 1076
    closed := x.significand % 2 == 0 }

/-- Whether `d * top / bottom` lies in the interval. -/
def Interval.holds (i : Interval) (d top bottom : Nat) : Bool :=
  let v := d * top * i.den
  if i.closed then i.low * bottom ≤ v && v ≤ i.high * bottom
  else i.low * bottom < v && v < i.high * bottom

/-- The candidate of the grid with step `top / bottom`: of the two neighbours of the value those
in the interval, and of two the nearer. -/
def Interval.candidate? (i : Interval) (top bottom : Nat) : Option Nat :=
  -- The neighbours of the value on the grid are `d` and `d + 1`.
  let d := i.num * bottom / (i.den * top)
  match i.holds d top bottom, i.holds (d + 1) top bottom with
  | false, false => none
  | true, false => some d
  | false, true => some (d + 1)
  | true, true =>
    let twice := 2 * (i.num * bottom)
    let middle := (2 * d + 1) * (top * i.den)
    if twice < middle then some d
    else if middle < twice then some (d + 1)
    else some (d + d % 2)

/-! ## §2 The search -/

/-- The number of decimal digits of a number. -/
def decimalLength (n : Nat) : Nat := (Nat.toDigits 10 n).length

/-- The place of the decimal point before the first digit of `num / den`: the least power of ten
above the value. -/
def pointPlace (num den : Nat) : Int :=
  -- A value below one has as many zeros after the point as its inverse has digits, less one.
  if num < den then 1 - Int.ofNat (decimalLength ((den - 1) / num))
  else Int.ofNat (decimalLength (num / den))

/-- Drops zeros at the end of the digits, at most `fuel` of them. -/
def dropZeros : Nat → Digits → Digits
  | 0, d => d
  | fuel + 1, d =>
    if d.digits ≠ 0 ∧ d.digits % 10 = 0 then dropZeros fuel ⟨d.digits / 10, d.exponent + 1⟩ else d

/-- The first grid from `count` digits on that has a candidate; `left` bounds the search. -/
def searchDigits (i : Interval) (place : Int) : Nat → Nat → Digits
  | 0, _ => ⟨0, 0⟩
  | left + 1, count =>
    let e := place - Int.ofNat count
    let top := Nat.pow 10 e.toNat
    let bottom := Nat.pow 10 (-e).toNat
    match i.candidate? top bottom with
    | some d => dropZeros 20 ⟨d, e⟩
    | none => searchDigits i place left (count + 1)

/-- The fewest digits that denote the magnitude of a finite, non-zero double. -/
def shortest (x : Binary64) : Digits :=
  let i := x.interval
  searchDigits i (pointPlace i.num i.den) 18 1

/-! ## §3 Text -/

/-- Which decimal exponents are written in plain notation. -/
structure Layout where
  plainFrom : Int
  plainTo : Int

/-- The text of a finite double: plain notation always has a point and a digit on each side of it,
an exponent always has a sign and no leading zero. -/
def Layout.write (layout : Layout) (x : Binary64) : String :=
  let sign := if x.negative then "-" else ""
  if x.isZero then sign ++ "0.0"
  else
    let d := x.shortest
    let text := Nat.toDigits 10 d.digits
    let place : Int := Int.ofNat text.length + d.exponent
    let e := place - 1
    let body : List Char :=
      if layout.plainFrom ≤ e ∧ e ≤ layout.plainTo then
        if 0 ≤ d.exponent then text ++ List.replicate d.exponent.toNat '0' ++ ['.', '0']
        else if 0 < place then text.take place.toNat ++ '.' :: text.drop place.toNat
        else '0' :: '.' :: List.replicate (-place).toNat '0' ++ text
      else
        let mantissa := if text.length ≤ 1 then text else text.take 1 ++ '.' :: text.drop 1
        let mark := if e < 0 then '-' else '+'
        mantissa ++ 'e' :: mark :: Nat.toDigits 10 e.natAbs
    sign ++ String.ofList body

end SqlService.Binary64
