import SqlService.Proofs.Statement.Scanner
import SqlService.Statement.Binding

/-!
# Placeholders

A bound statement is the statement with positional parameters in some slots.  The slots are the
live names that have a value, and nothing else is touched, so that the names put back into the slots
give the statement again.

Main statement: `bind_replaces_live`.
-/

namespace SqlService.Statement

/-! ## §1 Slots -/

/-- A name that is bound, with the text between it and the one before, and the number of the
parameter that takes its place. -/
structure Slot where
  gap : List Char
  name : List Char
  number : Nat

namespace Slot

/-- The slot as it stands in the statement. -/
def written (s : Slot) : List Char := s.gap ++ '@' :: s.name

/-- The slot as it stands in the bound statement. -/
def placed (d : Dialect) (s : Slot) : List Char := s.gap ++ (d.positional s.number).toList

end Slot

/-- The slots of the pieces and the text after the last one, where `gap` is the text in front of the
pieces that belongs to no slot. -/
def slots (d : Dialect) (params : Record) :
    List Piece → List String → List Char → List Slot × List Char
  | [], _, gap => ([], gap)
  | .plain text :: ps, bound, gap => slots d params ps bound (gap ++ text)
  | .name w :: ps, bound, gap =>
    if params.contains (String.ofList w) then
      let slot := place d.numbered bound (String.ofList w)
      let r := slots d params ps slot.2 []
      (⟨gap, w, slot.1⟩ :: r.1, r.2)
    -- A name without a value is text like any other.
    else slots d params ps bound (gap ++ '@' :: w)

variable (d : Dialect) (params : Record)

/-- With the names in the slots it is the statement. -/
theorem written_slots (ps : List Piece) (bound : List String) (gap : List Char) :
    (slots d params ps bound gap).1.flatMap Slot.written ++ (slots d params ps bound gap).2 =
      gap ++ ps.flatMap Piece.text := by
  fun_induction slots d params ps bound gap with
  | case1 => simp
  | case2 text ps bound gap ih => simpa [Piece.text] using ih
  | case3 w ps bound gap hw slot r ih =>
    rw [List.flatMap_cons, List.append_assoc, ih]
    simp [Slot.written, Piece.text]
  | case4 w ps bound gap hw ih => simpa [Piece.text] using ih

/-- With the positional parameters in the slots it is the bound statement. -/
theorem placed_slots (ps : List Piece) (bound : List String) (gap : List Char) :
    (slots d params ps bound gap).1.flatMap (Slot.placed d) ++ (slots d params ps bound gap).2 =
      gap ++ (bindPieces d params ps bound).1 := by
  fun_induction slots d params ps bound gap with
  | case1 => simp [bindPieces]
  | case2 text ps bound gap ih => simpa [bindPieces, Piece.text] using ih
  | case3 w ps bound gap hw slot r ih =>
    rw [List.flatMap_cons, List.append_assoc, ih]
    simp [Slot.placed, bindPieces, hw, slot]
  | case4 w ps bound gap hw ih => simpa [bindPieces, Piece.text, hw] using ih

/-! ## §2 Places -/

/-- A slot of that name stands behind that text. -/
def Opens (ss : List Slot) (before name : List Char) : Prop :=
  ∃ front s back, ss = front ++ s :: back ∧ before = front.flatMap Slot.written ++ s.gap ∧
    name = s.name

theorem not_opens_nil {before w : List Char} : ¬ Opens [] before w := by
  rintro ⟨front, s, back, heq, -⟩
  cases front <;> cases heq

theorem opens_cons {s : Slot} {ss : List Slot} {before w : List Char} :
    Opens (s :: ss) before w ↔
      (before = s.gap ∧ w = s.name) ∨ ∃ more, before = s.written ++ more ∧ Opens ss more w := by
  constructor
  · rintro ⟨front, s', back, heq, rfl, rfl⟩
    -- The slot is the first one, or it is one of those behind the first.
    cases front with
    | nil =>
      obtain ⟨rfl, rfl⟩ := List.cons.inj heq
      exact .inl ⟨rfl, rfl⟩
    | cons q front =>
      obtain ⟨rfl, rfl⟩ := List.cons.inj heq
      refine .inr ⟨front.flatMap Slot.written ++ s'.gap, ?_, front, s', back, rfl, rfl, rfl⟩
      rw [List.flatMap_cons, List.append_assoc]
  · rintro (⟨rfl, rfl⟩ | ⟨_, rfl, front, s', back, rfl, rfl, rfl⟩)
    · exact ⟨[], s, ss, rfl, rfl, rfl⟩
    · refine ⟨s :: front, s', back, rfl, ?_, rfl⟩
      rw [List.flatMap_cons, List.append_assoc]

/-- The slots are the names that have a value. -/
theorem opens_slots_iff {ps : List Piece} {bound : List String} {gap before w : List Char} :
    Opens (slots d params ps bound gap).1 before w ↔
      (∃ more after, before = gap ++ more ∧ Holds ps more w after) ∧
        params.contains (String.ofList w) = true := by
  -- By induction on the pieces; plain ones only move the place on.
  induction ps generalizing bound gap before with
  | nil => simp [slots, not_opens_nil, not_holds_nil]
  | cons p ps ih =>
    cases p with
    | plain text =>
      have hplain : Piece.plain text ≠ .name w := nofun
      rw [slots, ih, holds_behind hplain, Piece.text]
    | name w' =>
      rw [slots]
      by_cases hw : params.contains (String.ofList w') = true
      · simp only [if_pos hw, opens_cons, ih]
        constructor
        · rintro (⟨rfl, rfl⟩ | ⟨more, rfl, ⟨_, after, rfl, hholds⟩, hcontains⟩)
          · exact ⟨⟨[], _, by simp, holds_cons.mpr (.inl ⟨rfl, rfl, rfl⟩)⟩, hw⟩
          · refine ⟨⟨'@' :: w' ++ more, after, ?_, ?_⟩, hcontains⟩
            · simp [Slot.written]
            · exact holds_cons.mpr (.inr ⟨more, rfl, hholds⟩)
        · rintro ⟨⟨_, after, rfl, hholds⟩, hcontains⟩
          rcases holds_cons.mp hholds with ⟨heq, rfl, -⟩ | ⟨more, rfl, hrest⟩
          · cases heq
            exact .inl ⟨by simp, rfl⟩
          · refine .inr ⟨more, ?_, ⟨more, after, rfl, hrest⟩, hcontains⟩
            simp [Slot.written, Piece.text]
      · rw [if_neg hw, ih]
        by_cases hname : Piece.name w' = .name w
        · -- A name without a value opens no slot.
          cases hname
          exact iff_of_false (fun h => hw h.2) fun h => hw h.2
        · rw [holds_behind hname, Piece.text]

/-- Binding exchanges the live names that have a value for positional parameters and copies every
other character in its place. -/
theorem bind_replaces_live (sql : String) : ∃ (ss : List Slot) (last : List Char),
    sql.toList = ss.flatMap Slot.written ++ last ∧
    (bind d sql params).sql.toList = ss.flatMap (Slot.placed d) ++ last ∧
    ∀ before name after, sql.toList = before ++ '@' :: (name ++ after) →
      (Opens ss before name ↔ Mode.text.Live d.backslashEscapes before name after ∧
        params.contains (String.ofList name) = true) := by
  refine ⟨(slots d params (pieces d.backslashEscapes sql.toList) [] []).1,
    (slots d params (pieces d.backslashEscapes sql.toList) [] []).2, ?_, ?_, ?_⟩
  · rw [written_slots, text_pieces, List.nil_append]
  · rw [placed_slots, List.nil_append, bind, String.toList_ofList]
  · intro before name after heq
    have hborder : Mode.text.Border d.backslashEscapes sql.toList := fun _ _ _ => rfl
    -- Slots are names among the pieces, and these are the live names of the scanner.
    rw [opens_slots_iff]
    apply and_congr_left
    intro _
    constructor
    · rintro ⟨_, after', rfl, hholds⟩
      obtain ⟨heq', hlive⟩ := (holds_pieces_iff hborder).mp hholds
      rw [heq'] at heq
      obtain rfl : after' = after := by simpa using heq
      exact hlive
    · intro hlive
      exact ⟨before, after, rfl, (holds_pieces_iff hborder).mpr ⟨heq, hlive⟩⟩

/-- The third of three signs starts a name; in quotes, in comments and after two signs there is
none. -/
example : (bind .mysql "'it\\'s @x', @@x, @@@x /*/ @x" (Dictionary.ofList [("x", .null)])).sql =
    "'it\\'s @x', @@x, @@? /*/ @x" := by
  decide +kernel

end SqlService.Statement
