import SqlService.Text.Blank
import SqlService.Text.Split

/-!
# Templates

The text of an item refers to other items by name between double braces.  `segments` cuts a text
into literal parts and references: a reference goes from the first pair of opening braces to the
next pair of closing ones, blanks around the name not counting; opening braces that are never
closed are literal.
-/

namespace SqlService

/-- A part of a template. -/
inductive Segment where
  | literal (text : List Char)
  | reference (name : String)
  deriving DecidableEq, Repr

namespace Segment

/-- The marks around a reference. -/
def openMark : List Char := ['\x7b', '\x7b']

/-- The marks around a reference. -/
def closeMark : List Char := ['\x7d', '\x7d']

/-- The first reference of a text: what stands before it, the name, and what follows. -/
def firstReference? (cs : List Char) : Option (List Char × String × List Char) :=
  match Text.cut? openMark cs with
  | none => none
  | some (before, rest) =>
    -- The closing pair is looked for behind the opening one.
    match Text.cut? closeMark rest with
    | none => none
    | some (inner, after) => some (before, Text.trim (String.ofList inner), after)

theorem length_lt_of_firstReference? {cs before after : List Char} {name : String}
    (h : firstReference? cs = some (before, name, after)) : after.length < cs.length := by
  unfold firstReference? at h
  split at h
  · simp at h
  · next front rest hopen =>
    split at h
    · simp at h
    · next inner tail hclose =>
      cases h
      have h1 := congrArg List.length (Text.eq_of_cut? hopen)
      have h2 := congrArg List.length (Text.eq_of_cut? hclose)
      simp [openMark, closeMark] at h1 h2
      omega

/-- The parts of a template. -/
def segments (cs : List Char) : List Segment :=
  match h : firstReference? cs with
  | none => [literal cs]
  | some (before, name, after) =>
    have : after.length < cs.length := length_lt_of_firstReference? h
    literal before :: reference name :: segments after
termination_by cs.length

end Segment

end SqlService
