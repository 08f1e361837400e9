import SqlService.Json.Document
import SqlService.Text.Ascii
import SqlService.Text.Blank
import SqlService.Text.Split

/-!
# Sort entries

A `SortKey` names a column and a direction.  Its text is the name, followed by `DESC` for the
descending direction; `parse` reads that text, and `ASC` as well, in any case.
-/

namespace SqlService

/-- One entry of a sort order. -/
structure SortKey where
  name : String
  descending : Bool := false
  deriving DecidableEq, Repr

namespace SortKey

/-- The ascending order of a column. -/
def asc (name : String) : SortKey := ⟨name, false⟩

/-- The descending order of a column. -/
def desc (name : String) : SortKey := ⟨name, true⟩

/-- The text of an entry. -/
def text (s : SortKey) : String := if s.descending then s.name ++ " DESC" else s.name

/-- Reads an entry: a word after the last blank that says `asc` or `desc` is the direction, and
anything else belongs to the name. -/
def parse (text : String) : SortKey :=
  let trimmed := Text.trim text
  match Text.cutLast? Text.isBlank trimmed.toList with
  | none => asc trimmed
  | some (name, word) =>
    -- Blanks between the name and the direction belong to neither.
    let name := String.ofList (Text.dropBlankEnd name)
    if Text.sameWord (String.ofList word) "desc" then desc name
    else if Text.sameWord (String.ofList word) "asc" then asc name
    else asc trimmed

/-- An entry is written to JSON as its text. -/
def toJson (s : SortKey) : Json := .string s.text

/-- Reads an entry from a JSON string. -/
def read? (d : Document) : Option SortKey := d.text?.map parse

/-- The entries of a comma-separated list, empty ones left out. -/
def parseList (text : String) : List SortKey :=
  (((Text.splitChar ',' text).map Text.trim).filter (· != "")).map parse

end SortKey

end SqlService
