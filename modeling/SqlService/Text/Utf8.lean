/-!
# Texts as bytes

The UTF-8 bytes of a text and the positions at which they may be cut.  The first byte of a character
says that it is one, so a position is between characters exactly if the byte there does not continue
one.  `slice?` cuts a part out and refuses positions inside a character.
-/

namespace SqlService.Text

/-- The UTF-8 bytes of some characters. -/
def utf8 (cs : List Char) : List UInt8 := cs.flatMap String.utf8EncodeChar

/-- The bytes that a text is stored as. -/
def bytes (s : String) : List UInt8 := s.toByteArray.data.toList

/-- Whether a byte continues a character that has started before it. -/
def continues (x : UInt8) : Bool := 0x80 ≤ x && x < 0xC0

/-- Whether no character goes on at a position. -/
def isBoundary (bytes : List UInt8) (i : Nat) : Bool :=
  match bytes[i]? with
  | some x => !continues x
  | none => i == bytes.length

/-- The bytes from one position to another, neither of which is inside a character. -/
def slice? (bytes : List UInt8) (i j : Nat) : Option (List UInt8) :=
  if i ≤ j && isBoundary bytes i && isBoundary bytes j then some ((bytes.drop i).take (j - i))
  else none

/-- The position of the first occurrence of `mark`. -/
def find? (mark : List UInt8) : List UInt8 → Option Nat
  | [] => if mark.isEmpty then some 0 else none
  | x :: xs => if mark.isPrefixOf (x :: xs) then some 0 else (find? mark xs).map (· + 1)

/-- The first position from `i` on that is between characters. -/
def nextBoundary? (bytes : List UInt8) (i : Nat) : Option Nat :=
  if isBoundary bytes i then some i
  else if i < bytes.length then nextBoundary? bytes (i + 1)
  else none
termination_by bytes.length - i

@[simp] theorem utf8_nil : utf8 [] = [] := rfl

@[simp] theorem utf8_cons (c : Char) (cs : List Char) :
    utf8 (c :: cs) = String.utf8EncodeChar c ++ utf8 cs :=
  List.flatMap_cons

@[simp] theorem utf8_append (cs ds : List Char) : utf8 (cs ++ ds) = utf8 cs ++ utf8 ds :=
  List.flatMap_append

/-- A text is stored as the bytes of its characters. -/
theorem bytes_eq_utf8 (s : String) : bytes s = utf8 s.toList := by
  rw [bytes, ← String.utf8Encode_toList, List.utf8Encode, List.toList_data_toByteArray]
  rfl

end SqlService.Text
