/-!
# Tables of code points

A property of characters is a list of ranges of code points; `inRanges` looks a character up.
-/

namespace SqlService.Text

/-- Whether some range of the table holds the code point; the ends belong to a range. -/
def inRanges (table : List (Nat × Nat)) (c : Char) : Bool :=
  table.any fun r => r.1 ≤ c.toNat && c.toNat ≤ r.2

end SqlService.Text
