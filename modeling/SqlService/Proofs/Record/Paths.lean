import SqlService.Record

/-!
# Paths into records

Setting a path walks through objects only and makes or replaces whatever else it meets, while reading
a path also goes through arrays.  What is set is read back, the last of several values set at a path
is the one that counts, and where nothing but objects stands on the way no path is touched that
parts from the one that is set.

Main statement: `Record.setPath_lens`.
-/

namespace SqlService

/-! ## §1 Setting twice -/

namespace Entries

/-- The second of two values set under a name takes the place of the first. -/
theorem put_put {α : Type} (name : String) (v w : α) (es : List (String × α)) :
    put name w (put name v es) = put name w es := by
  induction es with
  | nil => simp [put]
  | cons e es ih =>
    by_cases h : e.1 = name
    · simp [put, h]
    · simp [put, h, ih]

theorem under_object (fields : List (String × Json)) : under (some (.object fields)) = fields := rfl

/-- The second of two values set at some steps takes the place of the first. -/
theorem setSteps_setSteps (v w : Json) (steps : List String) (fields : List (String × Json)) :
    setSteps w steps (setSteps v steps fields) = setSteps w steps fields := by
  induction steps generalizing fields with
  | nil => rfl
  | cons step rest ih =>
    cases rest with
    | nil => exact put_put step v w fields
    | cons next more =>
      -- The object made by the first setting is the one that the second goes into.
      simp only [setSteps, find?_put_self, under_object, ih, put_put]

end Entries

/-! ## §2 What stands on the way -/

namespace Json

/-- The value that steps through objects alone lead to. -/
def descend? : List String → Json → Option Json
  | [], v => some v
  | step :: steps, object fields => (Entries.find? step fields).bind (descend? steps)
  | _ :: _, _ => none

/-- Of what is met on the way to the end of the steps, everything is an object. -/
def Passable (steps : List String) (v : Json) : Prop :=
  ∀ front, front <+: steps → front ≠ steps → ∀ w, descend? front v = some w →
    ∃ fields, w = object fields

theorem passable_empty (steps : List String) : Passable steps (object []) := by
  intro front _ _ w hw
  cases front with
  | nil => exact ⟨[], (Option.some.inj hw).symm⟩
  | cons step front => cases hw

/-- What the first of several steps leads to, if anything, is an object that the others pass
through. -/
theorem passable_cons_cons_iff {step next : String} {steps : List String}
    {fields : List (String × Json)} :
    Passable (step :: next :: steps) (object fields) ↔
      ∀ v, Entries.find? step fields = some v →
        ∃ inner, v = object inner ∧ Passable (next :: steps) v := by
  constructor
  · intro h v hv
    have hfirst : ∀ front, descend? (step :: front) (object fields) = descend? front v := by
      intro front
      rw [descend?, hv, Option.bind_some]
    obtain ⟨inner, rfl⟩ := h [step] ⟨next :: steps, rfl⟩ (by simp) v (hfirst [])
    refine ⟨inner, rfl, fun front hfront hne w hw => ?_⟩
    have hlonger : step :: front <+: step :: next :: steps :=
      List.cons_prefix_cons.mpr ⟨rfl, hfront⟩
    exact h (step :: front) hlonger (fun hsame => hne (List.cons.inj hsame).2) w
      ((hfirst front).trans hw)
  · intro h front hfront hne w hw
    rcases List.prefix_cons_iff.mp hfront with rfl | ⟨front, rfl, hrest⟩
    · exact ⟨fields, (Option.some.inj hw).symm⟩
    · obtain ⟨v, hv, hdescend⟩ := Option.bind_eq_some_iff.mp hw
      obtain ⟨inner, rfl, hinner⟩ := h v hv
      exact hinner front hrest (fun hsame => hne (congrArg (step :: ·) hsame)) w hdescend

theorem follow?_object (step : String) (steps : List String) (fields : List (String × Json)) :
    follow? (step :: steps) (object fields) = (Entries.find? step fields).bind (follow? steps) :=
  rfl

end Json

namespace Entries

open Json

/-- Setting a value leaves alone what other steps lead to, wherever they part from those set. -/
theorem follow?_setSteps_of_parted (value : Json) {steps others : List String}
    {fields : List (String × Json)} (hway : Passable steps (.object fields))
    (h : ¬ steps <+: others) (h' : ¬ others <+: steps) :
    follow? others (.object (setSteps value steps fields)) = follow? others (.object fields) := by
  induction steps generalizing others fields with
  | nil => exact absurd List.nil_prefix h
  | cons step rest ih =>
    cases others with
    | nil => exact absurd List.nil_prefix h'
    | cons other others =>
      cases rest with
      | nil =>
        have hne : other ≠ step := by
          rintro rfl
          exact h ⟨others, rfl⟩
        rw [setSteps, follow?_object, follow?_object, find?_put_of_ne hne]
      | cons next more =>
        rw [setSteps, follow?_object, follow?_object]
        by_cases hne : other = step
        · subst hne
          rw [List.cons_prefix_cons] at h h'
          have hrest : ¬ next :: more <+: others := fun hp => h ⟨rfl, hp⟩
          have hothers : ¬ others <+: next :: more := fun hp => h' ⟨rfl, hp⟩
          rw [find?_put_self, Option.bind_some]
          cases hv : find? other fields with
          | none =>
            -- A new object has nothing but what is set in it.
            have hnew : under none = [] := rfl
            rw [hnew, ih (passable_empty _) hrest hothers, Option.bind_none]
            cases others with
            | nil => exact absurd List.nil_prefix hothers
            | cons deeper others => rfl
          | some v =>
            obtain ⟨inner, rfl, hinner⟩ := passable_cons_cons_iff.mp hway v hv
            rw [under_object, ih hinner hrest hothers, Option.bind_some]
        · rw [find?_put_of_ne hne]

end Entries

/-! ## §3 Records -/

namespace Record

open Json (Passable)

/-- What is set at a path is read back there.  Of two values set at a path the second makes the same
record as it does alone, with the fields in the same order.  If everything on the way to the end of
a path is an object, setting the path leaves alone what is read at every path of which it is no
beginning and which is no beginning of it. -/
theorem setPath_lens :
    (∀ (r : Record) (p : String) (v : Json), getPath? (setPath r p v) p = some v) ∧
    (∀ (r : Record) (p : String) (v w : Json), setPath (setPath r p v) p w = setPath r p w) ∧
    ∀ (r : Record) (p q : String) (v : Json), Passable (steps p) (toJson r) →
      ¬ steps p <+: steps q → ¬ steps q <+: steps p →
      getPath? (setPath r p v) q = getPath? r q := by
  refine ⟨getPath?_setPath_self, fun r p v w => ?_, fun r p q v hway h h' => ?_⟩
  · exact Dictionary.ext (Entries.setSteps_setSteps v w (steps p) r.entries)
  · exact Entries.follow?_setSteps_of_parted v hway h h'

/-- An order with two items, and a note that is no object. -/
def order : Record where
  entries :=
    [("lines", .object [("items", .array [.object [("id", .string "a")], .object []])]),
      ("note", .string "-")]

/-- In the order a total is set beside the items, and the items stay as they are.  What is set below
the note replaces it, also when it is set again. -/
theorem order_lens :
    (Passable (steps "lines.total.net") (toJson order) ∧
      ¬ steps "lines.total.net" <+: steps "lines.items.0.id" ∧
      ¬ steps "lines.items.0.id" <+: steps "lines.total.net") ∧
    getPath? (setPath order "lines.total.net" (.bool true)) "lines.items.0.id" =
      some (.string "a") ∧
    getPath? (setPath order "note.." .null) "note.." = some .null ∧
    setPath (setPath order "note.." .null) "note.." (.bool true) =
      setPath order "note.." (.bool true) := by
  obtain ⟨hself, htwice, hparted⟩ := setPath_lens
  have hway : Passable (steps "lines.total.net") (toJson order) := by
    have hsteps : steps "lines.total.net" = ["lines", "total", "net"] := rfl
    rw [hsteps, toJson, Json.passable_cons_cons_iff]
    rintro lines ⟨⟩
    refine ⟨_, rfl, Json.passable_cons_cons_iff.mpr ?_⟩
    -- There is no total yet.
    rintro total ⟨⟩
  have h : ¬ steps "lines.total.net" <+: steps "lines.items.0.id" := by decide
  have h' : ¬ steps "lines.items.0.id" <+: steps "lines.total.net" := by decide
  exact ⟨⟨hway, h, h'⟩, hparted order _ _ _ hway h h', hself order _ _, htwice order _ _ _⟩

end Record

end SqlService
