import SqlService.Json.Basic

/-!
# Documents

A `Document` is JSON text taken apart, before anything is asked of it: fields may repeat, and parts
that are well formed but stand for no value (a string or a name with half of a surrogate pair, a
number out of range, nesting beyond the limit) are kept as such.  A reader may skip those parts but
not use them.  `Document.value?` is the value of a document, the last of repeated fields winning;
`Document.ofJson` is the document of a value.
-/

namespace SqlService

/-- The tree of a JSON text.  A field without a name is one whose name is no text. -/
inductive Document where
  | null
  | bool (value : Bool)
  | number (value : Number)
  | string (value : String)
  | array (items : List Document)
  | object (fields : List (Option String × Document))
  | unreadable
  deriving Inhabited

namespace Document

/-! ## §1 Values -/

mutual

/-- The value of a document, if every part of it stands for one. -/
def value? : Document → Option Json
  | null => some .null
  | bool b => some (.bool b)
  | number n => some (.number n)
  | string s => some (.string s)
  | array items => (values? items).map .array
  | object fields => (fieldValues? fields).map fun fs => .object (Entries.collect fs)
  | unreadable => none

/-- The values of the items. -/
def values? : List Document → Option (List Json)
  | [] => some []
  | d :: ds =>
    match value? d, values? ds with
    | some v, some vs => some (v :: vs)
    | _, _ => none

/-- The values of the fields with their names. -/
def fieldValues? : List (Option String × Document) → Option (List (String × Json))
  | [] => some []
  | (n, d) :: fs =>
    match n, value? d, fieldValues? fs with
    | some n, some v, some vs => some ((n, v) :: vs)
    | _, _, _ => none

end

mutual

/-- The document of a value. -/
def ofJson : Json → Document
  | .null => null
  | .bool b => bool b
  | .number n => number n
  | .string s => string s
  | .array items => array (ofItems items)
  | .object fields => object (ofFields fields)

/-- The documents of the items. -/
def ofItems : List Json → List Document
  | [] => []
  | x :: xs => ofJson x :: ofItems xs

/-- The documents of the fields. -/
def ofFields : List (String × Json) → List (Option String × Document)
  | [] => []
  | (n, x) :: fs => (some n, ofJson x) :: ofFields fs

end

/-! ## §2 Typed readings -/

/-- The text of a string. -/
def text? : Document → Option String
  | string s => some s
  | _ => none

/-- The truth value of a boolean. -/
def flag? : Document → Option Bool
  | bool b => some b
  | _ => none

/-- The unsigned 32-bit word of a number; doubles have none. -/
def word32? : Document → Option UInt32
  | number n => n.toUInt64?.bind fun w => if w.toNat < UInt32.size then some w.toUInt32 else none
  | _ => none

/-- The items of an array, each read by `read`. -/
def listOf? {α : Type} (read : Document → Option α) : Document → Option (List α)
  | array items => items.mapM read
  | _ => none

/-- A field whose name is text, with its value read by `read`. -/
def namedValue? {α : Type} (read : Document → Option α) :
    Option String × Document → Option (String × α)
  | (some n, d) => (read d).map fun v => (n, v)
  | (none, _) => none

/-- The fields of an object with their values read by `read`, the last of repeated names
winning. -/
def dictionaryOf? {α : Type} (read : Document → Option α) : Document → Option (Dictionary α)
  | object fields => (fields.mapM (namedValue? read)).map Dictionary.ofList
  | _ => none

/-- Nothing for null, and otherwise what `read` makes of the document. -/
def optionalOf? {α : Type} (read : Document → Option α) : Document → Option (Option α)
  | null => some none
  | d => (read d).map some

/-! ## §3 Structures -/

/-- The documents of one name among the fields. -/
def occurrences (name : String) (fields : List (Option String × Document)) : List Document :=
  fields.filterMap fun f => if f.1 = some name then some f.2 else none

/-- The document of a field that must not repeat: `none` if it repeats, `some none` if it is
absent. -/
def single? (name : String) (fields : List (Option String × Document)) :
    Option (Option Document) :=
  match occurrences name fields with
  | [] => some none
  | [d] => some (some d)
  | _ => none

/-- The parts of a structure with the given field names: those of an object, in which other fields
are skipped, or the items of an array in the order of the names, which may end early. -/
def parts? (names : List String) : Document → Option (List (Option Document))
  | object fields =>
    -- A name that is no text spoils the structure even if no part has that name.
    if fields.all fun f => f.1.isSome then names.mapM fun n => single? n fields else none
  | array items =>
    -- More items than parts are a fault; missing ones count as absent.
    if items.length ≤ names.length then
      some (items.map some ++ List.replicate (names.length - items.length) none)
    else none
  | _ => none

/-- A part that must be there. -/
def required? {α : Type} (read : Document → Option α) : Option Document → Option α
  | some d => read d
  | none => none

/-- A part that has a default. -/
def defaulted? {α : Type} (default : α) (read : Document → Option α) : Option Document → Option α
  | some d => read d
  | none => some default

/-- The constructor of an enumeration with its content: a string names one without content, an
object with one field names one with content. -/
def variant? : Document → Option (String × Option Document)
  | string s => some (s, none)
  | object [(some n, d)] => some (n, some d)
  | _ => none

/-- The name of a constructor without content; a content, if written, must be null. -/
def unitVariant? (d : Document) : Option String :=
  match d.variant? with
  | some (n, none) => some n
  | some (n, some null) => some n
  | _ => none

/-- The first part of an object or array is smaller than the whole. -/
theorem sizeOf_lt_of_mem_parts? {names : List String} {d e : Document}
    {ps : List (Option Document)} (h : d.parts? names = some ps) (he : some e ∈ ps) :
    sizeOf e < sizeOf d := by
  cases d with
  | object fields =>
    simp only [parts?] at h
    split at h
    · have key : ∀ (names : List String) (ps : List (Option Document)),
          names.mapM (fun n => single? n fields) = some ps → some e ∈ ps →
          ∃ f ∈ fields, f.2 = e := by
        intro names
        induction names with
        | nil => intro ps hp hm; simp at hp; subst hp; simp at hm
        | cons n ns ih =>
          intro ps hp hm
          rw [List.mapM_cons] at hp
          simp only [Option.pure_def, Option.bind_eq_bind, Option.bind_eq_some_iff] at hp
          obtain ⟨o, ho, os, hos, hps⟩ := hp
          cases hps
          rcases List.mem_cons.mp hm with rfl | hm
          · simp only [single?] at ho
            split at ho
            · simp at ho
            · next d hd =>
              cases ho
              have : e ∈ occurrences n fields := by rw [hd]; simp
              simp only [occurrences, List.mem_filterMap, Option.ite_none_right_eq_some,
                Option.some.injEq] at this
              obtain ⟨f, hf, -, hfe⟩ := this
              exact ⟨f, hf, hfe⟩
            · simp at ho
          · exact ih os hos hm
      obtain ⟨f, hf, rfl⟩ := key _ _ h he
      have h1 : sizeOf f < sizeOf fields := List.sizeOf_lt_of_mem hf
      have h2 : sizeOf f.2 < sizeOf f := by
        obtain ⟨n, e⟩ := f
        show sizeOf e < sizeOf (n, e)
        rw [Prod.mk.sizeOf_spec]
        omega
      simp
      omega
    · simp at h
  | array items =>
    simp only [parts?] at h
    split at h
    · cases h
      have : e ∈ items := by
        rcases List.mem_append.mp he with hm | hm
        · simpa using hm
        · simp [List.mem_replicate] at hm
      have := List.sizeOf_lt_of_mem this
      simp
      omega
    · simp at h
  | _ => simp [parts?] at h

end Document

end SqlService
