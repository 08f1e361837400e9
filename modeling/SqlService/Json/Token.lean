import SqlService.Json.Basic

/-!
# JSON tokens

`Token.scan?` cuts JSON text into its tokens.  It refuses text that is no sequence of tokens: raw
control characters in strings, unknown escapes, malformed numbers.  A string with half of a
surrogate pair and a number out of range are tokens without a value.  Each step leaves less text
(`length_lt_of_next?`), which bounds the scan.
-/

namespace SqlService.Json

/-- A token of JSON text. -/
inductive Token where
  | openArray
  | closeArray
  | openObject
  | closeObject
  | comma
  | colon
  | null
  | bool (value : Bool)
  | number (value : Option Number)
  | string (value : Option String)

namespace Token

/-! ## §1 Strings -/

/-- The value of a hexadecimal digit. -/
def hexDigit? (c : Char) : Option Nat :=
  if c.isDigit then some (c.toNat - 48)
  else if 'a' ≤ c && c ≤ 'f' then some (c.toNat - 87)
  else if 'A' ≤ c && c ≤ 'F' then some (c.toNat - 55)
  else none

/-- The value of four hexadecimal digits. -/
def hexWord? (a b c d : Char) : Option Nat := do
  let a ← hexDigit? a
  let b ← hexDigit? b
  let c ← hexDigit? c
  let d ← hexDigit? d
  return ((a * 16 + b) * 16 + c) * 16 + d

/-- The character that a one-letter escape stands for. -/
def simpleEscape? : Char → Option Char
  | '"' => some '"'
  | '\\' => some '\\'
  | '/' => some '/'
  | 'b' => some '\x08'
  | 'f' => some '\x0c'
  | 'n' => some '\n'
  | 'r' => some '\r'
  | 't' => some '\t'
  | _ => none

/-- The characters of a string as code points, escaped ones possibly halves of surrogate pairs, up
to the closing quote, and the text after it. -/
def scanString? : List Char → Option (List Nat × List Char)
  | [] => none
  | '"' :: rest => some ([], rest)
  | '\\' :: 'u' :: a :: b :: c :: d :: rest =>
    match hexWord? a b c d, scanString? rest with
    | some w, some (ws, rest) => some (w :: ws, rest)
    | _, _ => none
  | '\\' :: e :: rest =>
    match simpleEscape? e, scanString? rest with
    | some c, some (ws, rest) => some (c.toNat :: ws, rest)
    | _, _ => none
  | c :: rest =>
    -- A backslash gets here only at the end of the text or before an incomplete `u` escape.
    if c.toNat < 0x20 || c == '\\' then none
    else
      match scanString? rest with
      | some (ws, rest) => some (c.toNat :: ws, rest)
      | none => none

/-- Whether the code point is the first half of a surrogate pair. -/
def isHighHalf (n : Nat) : Bool := 0xD800 ≤ n && n < 0xDC00

/-- Whether the code point is the second half of a surrogate pair. -/
def isLowHalf (n : Nat) : Bool := 0xDC00 ≤ n && n < 0xE000

/-- The characters of code points, pairs of halves joined; nothing if a half stands alone. -/
def joinHalves? : List Nat → Option (List Char)
  | [] => some []
  | [n] => if isHighHalf n || isLowHalf n then none else some [Char.ofNat n]
  | n :: m :: rest =>
    if isHighHalf n then
      if isLowHalf m then
        (joinHalves? rest).map (Char.ofNat (0x10000 + (n - 0xD800) * 0x400 + (m - 0xDC00)) :: ·)
      else none
    else if isLowHalf n then none
    else (joinHalves? (m :: rest)).map (Char.ofNat n :: ·)

/-! ## §2 One token -/

/-- Whether the character may stand in a number. -/
def isNumberChar (c : Char) : Bool :=
  c.isDigit || c == '-' || c == '+' || c == '.' || c == 'e' || c == 'E'

/-- The token that starts with the character, and the text after it.  Words and numbers are taken
to their longest extent. -/
def next? (c : Char) (rest : List Char) : Option (Token × List Char) :=
  match c with
  | '[' => some (openArray, rest)
  | ']' => some (closeArray, rest)
  | '\x7b' => some (openObject, rest)
  | '\x7d' => some (closeObject, rest)
  | ',' => some (comma, rest)
  | ':' => some (colon, rest)
  | '"' => (scanString? rest).map fun p => (string ((joinHalves? p.1).map String.ofList), p.2)
  | _ =>
    if c.isAlpha then
      let word := c :: rest.takeWhile Char.isAlpha
      let after := rest.dropWhile Char.isAlpha
      -- A word that runs on, such as `nullx`, is none of the three.
      if word = ['n', 'u', 'l', 'l'] then some (null, after)
      else if word = ['t', 'r', 'u', 'e'] then some (bool true, after)
      else if word = ['f', 'a', 'l', 's', 'e'] then some (bool false, after)
      else none
    else
      -- Whatever else a token cannot start with fails here, for it starts no number.
      (Literal.read? (c :: rest.takeWhile isNumberChar)).map fun l =>
        (number l.toNumber?, rest.dropWhile isNumberChar)

theorem length_scanString?_le {s : List Char} {ws : List Nat} {rest : List Char}
    (h : scanString? s = some (ws, rest)) : rest.length ≤ s.length := by
  fun_induction scanString? s generalizing ws rest with
  | case1 => simp at h
  | case2 rest' => cases h; simp
  | case3 a b c d rest' w ws' rest'' hr hh ih => cases h; have := ih hr; simp; omega
  | case4 => simp at h
  | case5 e rest' _ c ws' rest'' hr hc ih => cases h; have := ih hr; simp; omega
  | case6 => simp at h
  | case7 => simp at h
  | case8 c rest' _ _ _ hc ws' rest'' hr ih => cases h; have := ih hr; simp; omega
  | case9 => simp at h

theorem length_dropWhile_le (p : Char → Bool) (cs : List Char) :
    (cs.dropWhile p).length ≤ cs.length :=
  (List.dropWhile_suffix p).length_le

/-- What follows a token is no longer than what followed its first character. -/
theorem length_le_of_next? {c : Char} {rest after : List Char} {t : Token}
    (h : next? c rest = some (t, after)) : after.length ≤ rest.length := by
  simp only [next?] at h
  split at h
  case h_7 =>
    obtain ⟨⟨ws, tail⟩, hp, he⟩ := Option.map_eq_some_iff.mp h
    cases he
    exact length_scanString?_le hp
  case h_8 =>
    split at h
    · split at h
      · cases h; exact length_dropWhile_le _ _
      · split at h
        · cases h; exact length_dropWhile_le _ _
        · split at h
          · cases h; exact length_dropWhile_le _ _
          · simp at h
    · obtain ⟨l, -, he⟩ := Option.map_eq_some_iff.mp h
      cases he
      exact length_dropWhile_le _ _
  all_goals (cases h; exact Nat.le_refl _)

/-! ## §3 All tokens -/

/-- Whether the character may stand between tokens. -/
def isGap (c : Char) : Bool := c == ' ' || c == '\n' || c == '\t' || c == '\r'

/-- The tokens of a text. -/
def scan? : List Char → Option (List Token)
  | [] => some []
  | c :: rest =>
    if isGap c then scan? rest
    else
      match h : next? c rest with
      | none => none
      | some (t, after) =>
        have : after.length ≤ rest.length := length_le_of_next? h
        (scan? after).map (t :: ·)
termination_by s => s.length

end Token

end SqlService.Json
