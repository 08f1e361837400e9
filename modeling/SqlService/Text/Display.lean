import SqlService.Text.Ranges
import SqlService.Text.DisplayTable

/-!
# Texts on display

`displayText` writes a text between double quotes so that it can be told from any other: quotes,
backslashes and the usual controls have an escape of two characters, and every other character
that would not be seen is written by its number.
-/

namespace SqlService.Text

/-- Whether a character is written by its number. -/
def isUnseen (c : Char) : Bool :=
  c.toNat < 0x20 || c.toNat == 0x7F || inRanges unseenRanges c

/-- A character by its number, in hexadecimal digits. -/
def byNumber (c : Char) : String :=
  "\\u\x7b" ++ String.ofList (Nat.toDigits 16 c.toNat) ++ "\x7d"

/-- A character as it is displayed between double quotes. -/
def displayChar (c : Char) : String :=
  match c with
  | '"' => "\\\""
  | '\\' => "\\\\"
  | '\n' => "\\n"
  | '\r' => "\\r"
  | '\t' => "\\t"
  | '\x00' => "\\0"
  | c => if isUnseen c then byNumber c else c.toString

/-- A text as it is displayed, between double quotes. -/
def displayText (s : String) : String :=
  "\"" ++ String.intercalate "" (s.toList.map displayChar) ++ "\""

example : displayText "a\"b\\\tc" = "\"a\\\"b\\\\\\tc\"" := by decide +kernel
example : displayText "\x01é\u0301" = "\"\\u\x7b1\x7dé\\u\x7b301\x7d\"" := by decide +kernel

end SqlService.Text
