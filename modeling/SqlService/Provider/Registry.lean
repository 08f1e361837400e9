import SqlService.Provider.Definition
import SqlService.Text.Display
import SqlService.Error

/-!
# Registered providers

A `Registry` knows providers by dialect name, without regard to ASCII case.  Several names may
stand for one provider, and then share its default literals; registering a name again makes it
stand for another provider and changes nothing for the other names.
-/

namespace SqlService

/-- Providers, and the names that stand for them. -/
structure Registry where
  /-- The providers registered so far; a name stands for a position in this list. -/
  providers : List Provider := []
  names : Dictionary Nat := ∅

namespace Registry

/-- The registry in which the name stands for the provider at a position. -/
def bindName (r : Registry) (name : String) (position : Nat) : Registry :=
  { r with names := r.names.insert (Text.lower name) position }

/-- The registry with one more provider, under the name. -/
def register (r : Registry) (name : String) (p : Provider) : Registry :=
  { providers := r.providers ++ [p],
    names := r.names.insert (Text.lower name) r.providers.length }

/-- The position of the provider that a name stands for. -/
def position? (r : Registry) (name : String) : Option Nat := r.names.get? (Text.lower name)

/-- The provider that a name stands for. -/
def get (r : Registry) (name : String) : Except DataError Provider :=
  match (r.position? name).bind fun i => r.providers[i]? with
  | some p => .ok p
  | none => .error (.unknownProvider name)

/-- The registry in which `name` stands for the same provider as `known`. -/
def share (r : Registry) (name known : String) : Except DataError Registry :=
  match r.position? known with
  | some i => .ok (r.bindName name i)
  | none => .error (.unknownProvider known)

/-- Whether two names stand for the same provider; the first unknown one is an error. -/
def sameProvider (r : Registry) (a b : String) : Except DataError Bool :=
  match r.position? a, r.position? b with
  | none, _ => .error (.unknownProvider a)
  | _, none => .error (.unknownProvider b)
  | some i, some j => .ok (i == j)

/-- Sets a default literal of the provider that a name stands for. -/
def setDefault (r : Registry) (name dataType literal : String) : Except DataError Registry :=
  match r.position? name with
  | some i => .ok { r with providers := r.providers.modify i (·.setDefault dataType literal) }
  | none => .error (.unknownProvider name)

/-- Whether a name is registered. -/
def contains (r : Registry) (name : String) : Bool := (r.position? name).isSome

/-- The registered names in lower case and sorted. -/
def sortedNames (r : Registry) : List String := r.names.sorted.map (·.1)

/-- The three dialects under their names and aliases. -/
def standard : Registry :=
  { providers := [.stock .mysql, .stock .postgres, .stock .sqlite],
    names := Dictionary.ofList
      [("mysql", 0), ("postgres", 1), ("postgresql", 1), ("sqlite", 2), ("sqlite3", 2)] }

/-! ## Display -/

/-- The display form of a registry: its names. -/
def display (r : Registry) : String :=
  "ProviderRegistry \x7b providers: [" ++
    String.intercalate ", " (r.sortedNames.map Text.displayText) ++ "] \x7d"

end Registry

end SqlService
