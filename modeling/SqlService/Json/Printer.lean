import SqlService.Json.Basic
import SqlService.Number.Shortest

/-!
# Compact JSON text

`Json.compact` writes a value without spaces.  In strings only the quote, the backslash and the
controls below U+0020 are escaped.  A double is written with the fewest digits that denote it.
-/

namespace SqlService.Json

/-! ## §1 Scalars -/

/-- Doubles are written plainly for decimal exponents from -5 to 15. -/
def floatLayout : Binary64.Layout := ⟨-5, 15⟩

/-- The text of a number. -/
def numberText : Number → String
  | .int i => toString i.val
  | .float x _ => floatLayout.write x

/-- One character inside a string. -/
def escapeChar (c : Char) : List Char :=
  if c == '"' then ['\\', '"']
  else if c == '\\' then ['\\', '\\']
  else if 0x20 ≤ c.toNat then [c]
  else if c == '\n' then ['\\', 'n']
  else if c == '\r' then ['\\', 'r']
  else if c == '\t' then ['\\', 't']
  else if c.toNat == 0x08 then ['\\', 'b']
  else if c.toNat == 0x0C then ['\\', 'f']
  else ['\\', 'u', '0', '0', Nat.digitChar (c.toNat / 16), Nat.digitChar (c.toNat % 16)]

/-- The text of a string, quotes included. -/
def quoted (s : String) : String :=
  String.ofList ('"' :: (s.toList.flatMap escapeChar ++ ['"']))

/-! ## §2 Values -/

mutual

/-- The compact text of a value. -/
def compact : Json → String
  | null => "null"
  | bool b => if b then "true" else "false"
  | number n => numberText n
  | string s => quoted s
  | array items => "[" ++ String.intercalate "," (itemTexts items) ++ "]"
  | object fields => "\x7b" ++ String.intercalate "," (fieldTexts fields) ++ "\x7d"

/-- The compact texts of the items. -/
def itemTexts : List Json → List String
  | [] => []
  | x :: xs => compact x :: itemTexts xs

/-- The compact texts of the fields. -/
def fieldTexts : List (String × Json) → List String
  | [] => []
  | (n, x) :: fs => (quoted n ++ ":" ++ compact x) :: fieldTexts fs

end

end SqlService.Json
