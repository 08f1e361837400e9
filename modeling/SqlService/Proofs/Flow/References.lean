import SqlService.Flow.Step

/-!
# References among arguments

An argument is resolved in one pass: a text that starts with one sign is replaced by what its path
leads to in the state, and what is put there is not looked at again.  So the state is read at the
paths that occur and nowhere else, and an argument whose texts are escaped comes out as it was
before it was escaped.

Main statement: `Step.resolveArgs_faithful`.
-/

namespace SqlService

namespace Json

/-! ## §1 Positions -/

/-- The part of a value at a position, which counts items or fields on the way down to it. -/
def part? : List Nat → Json → Option Json
  | [], v => some v
  | i :: position, array items => items[i]?.bind (part? position)
  | i :: position, object fields => fields[i]?.bind fun e => part? position e.2
  | _ :: _, _ => none

/-- The text stands somewhere in the value; the names of fields do not count. -/
def Occurs (text : String) (v : Json) : Prop := ∃ position, part? position v = some (string text)

theorem occurs_string_iff {text s : String} : Occurs text (string s) ↔ s = text := by
  constructor
  · rintro ⟨position, h⟩
    cases position with
    | nil => exact string.inj (Option.some.inj h)
    | cons i position => cases h
  · rintro rfl
    exact ⟨[], rfl⟩

theorem occurs_array_iff {text : String} {items : List Json} :
    Occurs text (array items) ↔ ∃ x ∈ items, Occurs text x := by
  constructor
  · rintro ⟨position, h⟩
    cases position with
    | nil => cases h
    | cons i position =>
      obtain ⟨x, hx, hpart⟩ := Option.bind_eq_some_iff.mp h
      exact ⟨x, List.mem_of_getElem? hx, position, hpart⟩
  · rintro ⟨x, hx, position, hpart⟩
    obtain ⟨i, hi⟩ := List.getElem?_of_mem hx
    exact ⟨i :: position, Option.bind_eq_some_iff.mpr ⟨x, hi, hpart⟩⟩

theorem occurs_object_iff {text : String} {fields : List (String × Json)} :
    Occurs text (object fields) ↔ ∃ e ∈ fields, Occurs text e.2 := by
  constructor
  · rintro ⟨position, h⟩
    cases position with
    | nil => cases h
    | cons i position =>
      obtain ⟨e, he, hpart⟩ := Option.bind_eq_some_iff.mp h
      exact ⟨e, List.mem_of_getElem? he, position, hpart⟩
  · rintro ⟨e, he, position, hpart⟩
    obtain ⟨i, hi⟩ := List.getElem?_of_mem he
    exact ⟨i :: position, Option.bind_eq_some_iff.mpr ⟨e, hi, hpart⟩⟩

/-! ## §2 Resolving -/

/-- The text refers to the path: it is the path behind a single sign. -/
def RefersTo (text path : String) : Prop :=
  text.toList = '$' :: path.toList ∧ path.toList.head? ≠ some '$'

theorem resolveText_of_refersTo {text path : String} (h : RefersTo text path) (state : Record) :
    resolveText state text = (Record.getPath? state path).getD .null := by
  obtain ⟨htext, hpath⟩ := h
  unfold resolveText
  split
  · next rest htwo =>
    -- Behind the first sign there is no second one.
    rw [htext, List.cons.injEq] at htwo
    rw [htwo.2] at hpath
    exact absurd rfl hpath
  · next rest _ hone =>
    rw [htext, List.cons.injEq] at hone
    rw [← hone.2, String.ofList_toList]
  · next hnone => exact absurd htext (hnone _)

/-- A text that refers to no path stands for the same in every state. -/
theorem resolveText_congr {s s' : Record} {text : String}
    (h : ∀ path, RefersTo text path → Record.getPath? s path = Record.getPath? s' path) :
    resolveText s text = resolveText s' text := by
  by_cases hrefers : ∃ path, RefersTo text path
  · obtain ⟨path, hpath⟩ := hrefers
    rw [resolveText_of_refersTo hpath, resolveText_of_refersTo hpath, h path hpath]
  · unfold resolveText
    split
    · rfl
    -- A text with a single sign would refer to what stands behind it.
    · next rest hsingle htext =>
      refine absurd ⟨String.ofList rest, ?_, ?_⟩ hrefers
      · rw [htext, String.toList_ofList]
      · rw [String.toList_ofList]
        intro hhead
        obtain ⟨more, rfl⟩ := List.head?_eq_some_iff.mp hhead
        exact hsingle more rfl
    · rfl

theorem resolveItems_eq_map (state : Record) (items : List Json) :
    resolveItems state items = items.map (resolve state) := by
  induction items with
  | nil => rfl
  | cons x xs ih => rw [resolveItems, ih, List.map_cons]

theorem resolveFields_eq_map (state : Record) (fields : List (String × Json)) :
    resolveFields state fields = fields.map fun e => (e.1, resolve state e.2) := by
  induction fields with
  | nil => rfl
  | cons e fields ih => rw [resolveFields, ih, List.map_cons]

/-- What stands at a position is resolved by itself. -/
theorem part?_resolve (state : Record) {position : List Nat} {v w : Json}
    (h : part? position v = some w) : part? position (resolve state v) = some (resolve state w) := by
  -- By induction on the position: each step goes to an item or a field, which is resolved by
  -- itself.
  induction position generalizing v with
  | nil =>
    obtain rfl := Option.some.inj h
    rfl
  | cons i position ih =>
    cases v with
    | array items =>
      obtain ⟨x, hx, hpart⟩ := Option.bind_eq_some_iff.mp h
      rw [resolve, part?, resolveItems_eq_map, List.getElem?_map, hx]
      exact ih hpart
    | object fields =>
      obtain ⟨e, he, hpart⟩ := Option.bind_eq_some_iff.mp h
      rw [resolve, part?, resolveFields_eq_map, List.getElem?_map, he]
      exact ih hpart
    | _ => cases h

mutual

/-- States that agree on the paths that occur resolve a value to the same. -/
theorem resolve_congr {s s' : Record} (v : Json)
    (h : ∀ text path, Occurs text v → RefersTo text path →
      Record.getPath? s path = Record.getPath? s' path) : resolve s v = resolve s' v := by
  -- Only a text reads the state; the states agree on the paths of all parts.
  match v with
  | string text => exact resolveText_congr fun path => h text path (occurs_string_iff.mpr rfl)
  | array items =>
    refine congrArg array (resolveItems_congr items fun x hx text path htext => ?_)
    exact h text path (occurs_array_iff.mpr ⟨x, hx, htext⟩)
  | object fields =>
    refine congrArg object (resolveFields_congr fields fun e he text path htext => ?_)
    exact h text path (occurs_object_iff.mpr ⟨e, he, htext⟩)
  | null => rfl
  | bool b => rfl
  | number n => rfl

theorem resolveItems_congr {s s' : Record} (items : List Json)
    (h : ∀ x ∈ items, ∀ text path, Occurs text x → RefersTo text path →
      Record.getPath? s path = Record.getPath? s' path) :
    resolveItems s items = resolveItems s' items := by
  match items with
  | [] => rfl
  | x :: xs =>
    obtain ⟨hx, hxs⟩ := List.forall_mem_cons.mp h
    rw [resolveItems, resolveItems, resolve_congr x hx, resolveItems_congr xs hxs]

theorem resolveFields_congr {s s' : Record} (fields : List (String × Json))
    (h : ∀ e ∈ fields, ∀ text path, Occurs text e.2 → RefersTo text path →
      Record.getPath? s path = Record.getPath? s' path) :
    resolveFields s fields = resolveFields s' fields := by
  match fields with
  | [] => rfl
  | (name, x) :: fields =>
    obtain ⟨hx, hfields⟩ := List.forall_mem_cons.mp h
    rw [resolveFields, resolveFields, resolve_congr x hx, resolveFields_congr fields hfields]

end

/-! ## §3 Escaping -/

/-- The text with a sign in front of it if it starts with one. -/
def escapeText (text : String) : String :=
  if text.toList.head? = some '$' then "$" ++ text else text

mutual

/-- The value with every text in it escaped; the names of fields stay as they are. -/
def escape : Json → Json
  | string s => string (escapeText s)
  | array items => array (escapeItems items)
  | object fields => object (escapeFields fields)
  | null => null
  | bool b => bool b
  | number n => number n

/-- The items with every text in them escaped. -/
def escapeItems : List Json → List Json
  | [] => []
  | x :: xs => escape x :: escapeItems xs

/-- The fields with every text in their values escaped. -/
def escapeFields : List (String × Json) → List (String × Json)
  | [] => []
  | (n, x) :: fs => (n, escape x) :: escapeFields fs

end

theorem resolveText_escapeText (state : Record) (text : String) :
    resolveText state (escapeText text) = .string text := by
  by_cases hsign : text.toList.head? = some '$'
  -- A sign in front is doubled, and of two signs the first is dropped.
  · obtain ⟨rest, htext⟩ := List.head?_eq_some_iff.mp hsign
    have htwo : (escapeText text).toList = '$' :: '$' :: rest := by
      rw [escapeText, if_pos hsign, String.toList_append, htext]
      rfl
    unfold resolveText
    rw [htwo]
    show Json.string (String.ofList ('$' :: rest)) = _
    rw [← htext, String.ofList_toList]
  -- A text without one stays as it is, and it is read as it stands.
  · have hplain : escapeText text = text := if_neg hsign
    rw [hplain]
    unfold resolveText
    split
    · next htwo =>
      rw [htwo] at hsign
      exact absurd rfl hsign
    · next hone =>
      rw [hone] at hsign
      exact absurd rfl hsign
    · rfl

mutual

/-- An escaped value stands for the value itself, whatever the state is. -/
theorem resolve_escape (state : Record) (v : Json) : resolve state (escape v) = v := by
  match v with
  | string text => exact resolveText_escapeText state text
  | array items => exact congrArg array (resolveItems_escapeItems state items)
  | object fields => exact congrArg object (resolveFields_escapeFields state fields)
  | null => rfl
  | bool b => rfl
  | number n => rfl

theorem resolveItems_escapeItems (state : Record) (items : List Json) :
    resolveItems state (escapeItems items) = items := by
  match items with
  | [] => rfl
  | x :: xs =>
    rw [escapeItems, resolveItems, resolve_escape state x, resolveItems_escapeItems state xs]

theorem resolveFields_escapeFields (state : Record) (fields : List (String × Json)) :
    resolveFields state (escapeFields fields) = fields := by
  match fields with
  | [] => rfl
  | (name, x) :: fields =>
    rw [escapeFields, resolveFields, resolve_escape state x,
      resolveFields_escapeFields state fields]

end

end Json

/-! ## §4 Steps -/

namespace Step

open Json (Occurs RefersTo part?)

variable (step : Step)

/-- The arguments of a step are resolved as the object that they make up. -/
theorem toJson_resolveArgs (state : Record) :
    Record.toJson (step.resolveArgs state) = Json.resolve state (Record.toJson step.args) :=
  congrArg Json.object (Json.resolveFields_eq_map state step.args.entries).symm

theorem resolveArgs_congr {s s' : Record}
    (h : ∀ text path, Occurs text (Record.toJson step.args) → RefersTo text path →
      Record.getPath? s path = Record.getPath? s' path) :
    step.resolveArgs s = step.resolveArgs s' := by
  -- Two objects of the same fields are the same arguments.
  have hobject : Record.toJson (step.resolveArgs s) = Record.toJson (step.resolveArgs s') := by
    rw [toJson_resolveArgs, toJson_resolveArgs, Json.resolve_congr _ h]
  exact Dictionary.ext (Json.object.inj hobject)

/-- Where the arguments refer to a path, the resolved ones have just what it leads to. -/
theorem part?_resolveArgs {state : Record} {position : List Nat} {text path : String}
    (htext : part? position (Record.toJson step.args) = some (.string text))
    (hpath : RefersTo text path) :
    part? position (Record.toJson (step.resolveArgs state)) =
      some ((Record.getPath? state path).getD .null) := by
  rw [toJson_resolveArgs, Json.part?_resolve state htext, Json.resolve,
    Json.resolveText_of_refersTo hpath]

/-- An escaped argument comes out as what was escaped.  The arguments come out the same for all states
that agree on what the paths lead to that they refer to.  And where they refer to a path, there comes
out exactly what it leads to, whatever texts are in that. -/
theorem resolveArgs_faithful :
    (∀ (step : Step) (state : Record) (name : String) (v : Json),
      step.args.get? name = some v.escape → (step.resolveArgs state).get? name = some v) ∧
    (∀ (step : Step) (s s' : Record),
      (∀ text path, Occurs text (Record.toJson step.args) → RefersTo text path →
        Record.getPath? s path = Record.getPath? s' path) →
      step.resolveArgs s = step.resolveArgs s') ∧
    ∀ (step : Step) (state : Record) (position : List Nat) (text path : String),
      part? position (Record.toJson step.args) = some (.string text) → RefersTo text path →
      part? position (Record.toJson (step.resolveArgs state)) =
        some ((Record.getPath? state path).getD .null) := by
  refine ⟨fun step state name v h => ?_, fun step s s' => step.resolveArgs_congr,
    fun step state position text path => step.part?_resolveArgs⟩
  rw [resolveArgs, Dictionary.get?_map, h, Option.map_some, Json.resolve_escape]

/-- A step with texts that start with a sign, and with a reference below an item. -/
def greet : Step where
  name := "greet"
  kind := .function
  service := "echo"
  args := { entries := [
    ("text", .array [.string "$$5", .object [("$key", .string "$$$$")], .string "5"]),
    ("names", .array [.string "$input.name"])] }

/-- An input whose name looks like a reference, and a secret beside it. -/
def known (secret : String) : Record where
  entries := [("input", .object [("name", .string "$secret")]), ("secret", .string secret)]

/-- The texts come out without their escapes, and the name is not taken for a reference. -/
theorem greet_faithful :
    (greet.resolveArgs (known "x")).get? "text" =
      some (.array [.string "$5", .object [("$key", .string "$$$")], .string "5"]) ∧
    greet.resolveArgs (known "x") = greet.resolveArgs (known "y") ∧
    part? [1, 0] (Record.toJson (greet.resolveArgs (known "x"))) = some (.string "$secret") := by
  obtain ⟨hescaped, hagree, hreferred⟩ := resolveArgs_faithful
  have hrefers : RefersTo "$input.name" "input.name" := ⟨by decide, by decide⟩
  refine ⟨hescaped greet (known "x") "text" _ rfl, ?_, hreferred _ _ _ _ _ rfl hrefers⟩
  refine hagree greet (known "x") (known "y") fun text path htext hpath => ?_
  -- Of the four texts only one refers to a path.
  have htexts : text ∈ ["$$5", "$$$$", "5", "$input.name"] := by
    simpa [greet, Record.toJson, Json.occurs_object_iff, Json.occurs_array_iff,
      Json.occurs_string_iff, eq_comm, or_assoc] using htext
  obtain ⟨hsign, hsingle⟩ := hpath
  have hinput : path = "input.name" := by
    rw [← String.toList_inj]
    simp only [List.mem_cons, List.not_mem_nil, or_false] at htexts
    rcases htexts with rfl | rfl | rfl | rfl
    · rw [← (List.cons.inj hsign).2] at hsingle
      exact absurd rfl hsingle
    · rw [← (List.cons.inj hsign).2] at hsingle
      exact absurd rfl hsingle
    · cases (List.cons.inj hsign).1
    · exact (List.cons.inj hsign).2.symm
  rw [hinput]
  rfl

end Step

end SqlService
