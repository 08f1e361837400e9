import SqlService.Statement.Scan
import SqlService.Scalar
import SqlService.Dialect

/-!
# Positional parameters

Statements are written with named parameters and run with positional ones.  `bind` replaces each
live name that has a value by the dialect's positional parameter and lists the values in the order
in which the engine expects them.  A name without a value stays as it is.  Where positional
parameters are numbered, a repeated name has the number of its first occurrence; elsewhere each
occurrence has its own value.
-/

namespace SqlService.Statement

/-- A statement with positional parameters and their values. -/
structure Bound where
  sql : String
  values : List Scalar
  deriving DecidableEq

/-- The number for one more occurrence of a name, and the names that have values after it. -/
def place (numbered : Bool) (bound : List String) (name : String) : Nat × List String :=
  if numbered && bound.contains name then (bound.idxOf name + 1, bound)
  else (bound.length + 1, bound ++ [name])

/-- The text of the pieces with positional parameters, and the names that have values after it,
where `bound` are those that have one before. -/
def bindPieces (d : Dialect) (params : Record) :
    List Piece → List String → List Char × List String
  | [], bound => ([], bound)
  | piece :: rest, bound =>
    match piece with
    | .name w =>
      let name := String.ofList w
      if params.contains name then
        -- A number that is already taken is used again only where parameters are numbered.
        let placed := place d.numbered bound name
        let r := bindPieces d params rest placed.2
        ((d.positional placed.1).toList ++ r.1, r.2)
      else
        let r := bindPieces d params rest bound
        (piece.text ++ r.1, r.2)
    | .plain _ =>
      let r := bindPieces d params rest bound
      (piece.text ++ r.1, r.2)

/-- The statement with positional parameters. -/
def bind (d : Dialect) (sql : String) (params : Record) : Bound :=
  let r := bindPieces d params (pieces d.backslashEscapes sql.toList) []
  ⟨String.ofList r.1, (r.2.filterMap params.get?).map Scalar.ofJson⟩

end SqlService.Statement
