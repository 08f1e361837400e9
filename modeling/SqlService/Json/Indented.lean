import SqlService.Json.Printer

/-!
# Indented JSON text

`Json.indented` writes a value with one item or field per line, each level two blanks further in.
Empty arrays and objects stay on one line.
-/

namespace SqlService.Json

/-- A line break with the blanks of a level. -/
def lineBreak (level : Nat) : String := "\n" ++ String.ofList (List.replicate (2 * level) ' ')

/-- The texts of the parts of a container at a level, between its marks. -/
def container (level : Nat) (opening closing : String) (parts : List String) : String :=
  if parts.isEmpty then opening ++ closing
  else
    opening ++ lineBreak (level + 1) ++ String.intercalate ("," ++ lineBreak (level + 1)) parts ++
      lineBreak level ++ closing

mutual

/-- The text of a value that stands at a level. -/
def indentedAt (level : Nat) : Json → String
  | array items => container level "[" "]" (indentedItems (level + 1) items)
  | object fields => container level "\x7b" "\x7d" (indentedFields (level + 1) fields)
  | null => "null"
  | bool b => if b then "true" else "false"
  | number n => numberText n
  | string s => quoted s

/-- The texts of the items of an array. -/
def indentedItems (level : Nat) : List Json → List String
  | [] => []
  | x :: xs => indentedAt level x :: indentedItems level xs

/-- The texts of the fields of an object. -/
def indentedFields (level : Nat) : List (String × Json) → List String
  | [] => []
  | (n, x) :: fs => (quoted n ++ ": " ++ indentedAt level x) :: indentedFields level fs

end

/-- The indented text of a value. -/
def indented (v : Json) : String := indentedAt 0 v

end SqlService.Json
