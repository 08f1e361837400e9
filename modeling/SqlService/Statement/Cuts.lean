import SqlService.Text.Ascii
import SqlService.Text.Utf8

/-!
# Cutting a statement by byte positions

The pieces of a statement can be found on its bytes, without decoding characters: from the position
of a piece its end is computed, and the bytes in between are cut out.  Quotes, marks and word
characters are single bytes.  A backslash passes over one byte, whatever character that belongs to.
A cut inside a character, or an end that is not behind its position, gives no result (`scan?`).
-/

namespace SqlService.Statement

open Text (slice? find? nextBoundary?)

/-! ## §1 Ends -/

/-- The end of the quotes whose text goes on at a position. -/
def quotedEnd (bytes : List UInt8) (quote : UInt8) (backslash : Bool) (i : Nat) : Nat :=
  if h : i < bytes.length then
    if backslash && bytes[i] == '\\'.toUInt8 then quotedEnd bytes quote backslash (i + 2)
    else if bytes[i] == quote then
      -- A doubled quote is a quote inside the text and does not close it.
      if bytes[i + 1]? == some quote then quotedEnd bytes quote backslash (i + 2) else i + 1
    else quotedEnd bytes quote backslash (i + 1)
  else bytes.length
termination_by bytes.length - i

/-- The end of the word that goes on at a position. -/
def wordEnd (bytes : List UInt8) (i : Nat) : Nat :=
  if h : i < bytes.length then
    if Text.isWordChar (Char.ofNat bytes[i].toNat) then wordEnd bytes (i + 1) else i
  else i
termination_by bytes.length - i

/-- The end of a line comment, which leaves the end of the line out. -/
def lineEnd? (bytes : List UInt8) (i : Nat) : Option Nat :=
  (slice? bytes i bytes.length).map fun rest =>
    match find? ['\n'.toUInt8] rest with
    | some n => i + n
    | none => bytes.length

/-- The end of a block comment, with its closing mark. -/
def blockEnd? (bytes : List UInt8) (i : Nat) : Option Nat :=
  (slice? bytes (i + 2) bytes.length).map fun rest =>
    match find? ['*'.toUInt8, '/'.toUInt8] rest with
    | some n => i + 2 + n + 2
    | none => bytes.length

/-- The end of the piece that starts at a position. -/
def pieceEnd? (backslash : Bool) (bytes : List UInt8) (i : Nat) : Option Nat :=
  match bytes[i]? with
  | none => none
  | some x =>
    if x == '\x27'.toUInt8 || x == '"'.toUInt8 then some (quotedEnd bytes x backslash (i + 1))
    else if x == '\x60'.toUInt8 then some (quotedEnd bytes x false (i + 1))
    else if x == '-'.toUInt8 && bytes[i + 1]? == some '-'.toUInt8 then lineEnd? bytes i
    else if x == '/'.toUInt8 && bytes[i + 1]? == some '*'.toUInt8 then blockEnd? bytes i
    else if x == '@'.toUInt8 && bytes[i + 1]? == some '@'.toUInt8 then some (wordEnd bytes (i + 2))
    else if x == '@'.toUInt8 then some (wordEnd bytes (i + 1))
    else nextBoundary? bytes (i + 1)

/-! ## §2 Cuts -/

/-- What is cut out of the bytes of a statement. -/
inductive Cut where
  /-- Text that is copied as it stands. -/
  | plain (text : List UInt8)
  /-- The name of a live parameter, without its `@`. -/
  | name (word : List UInt8)
  deriving DecidableEq, Repr

/-- The cut from a position to the end of its piece. -/
def cutOut? (bytes : List UInt8) (i stop : Nat) : Option Cut := do
  let text ← slice? bytes i stop
  if bytes[i]? == some '@'.toUInt8 && bytes[i + 1]? != some '@'.toUInt8 then
    let word ← slice? bytes (i + 1) stop
    -- An `@` that no word follows is plain text.
    return if word.isEmpty then .plain text else .name word
  else return .plain text

/-- The cuts from a position on, if all of them can be made and each leads on. -/
def scan? (backslash : Bool) (bytes : List UInt8) (i : Nat) : Option (List Cut) :=
  if i < bytes.length then
    match pieceEnd? backslash bytes i with
    | none => none
    | some stop =>
      if i < stop then
        match cutOut? bytes i stop with
        | none => none
        | some cut => (scan? backslash bytes stop).map (cut :: ·)
      else none
  else some []
termination_by bytes.length - i

end SqlService.Statement
