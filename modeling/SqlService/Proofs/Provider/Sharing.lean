import SqlService.Provider.Registry

/-!
# Providers that several names stand for

A registry changes in four ways: a new provider gets a name, a provider that is there gets one more
name, a name comes to stand for the provider of another one, and a default literal is set through a
name.  Whatever the changes so far, what a name reads is told by them alone: `standsFor` says which
provider the name stands for, by the order of registration, and `lastSet?` which literal was last
set for it, through whatever names it had then.

Main statement: `defaults_by_provider`.
-/

namespace SqlService.Registry

/-! ## §1 Changes -/

/-- A change of a registry. -/
inductive Change where
  /-- A new provider is registered under the name. -/
  | register (name : String) (p : Provider)
  /-- The provider that was registered at the position is registered under the name, too. -/
  | attach (name : String) (position : Nat)
  /-- The name is to stand for the same provider as a known one. -/
  | share (name known : String)
  /-- A default literal is set through the name. -/
  | setDefault (name dataType literal : String)

/-- The name that a change gives to a provider. -/
def Change.names? : Change → Option String
  | register name _ => some name
  | attach name _ => some name
  | share name _ => some name
  | setDefault _ _ _ => none

/-- The registry after a change; one that cannot be made leaves it as it is. -/
def apply (r : Registry) : Change → Registry
  | .register name p => r.register name p
  | .attach name position => if position < r.providers.length then r.bindName name position else r
  | .share name known => (r.share name known).toOption.getD r
  | .setDefault name dataType literal => (r.setDefault name dataType literal).toOption.getD r

/-- The registry after the changes, of which the latest stands first. -/
def after : List Change → Registry
  | [] => {}
  | change :: earlier => (after earlier).apply change

/-! ## §2 What the changes say -/

/-- The providers in the order of their registration, as they were then. -/
def registered : List Change → List Provider
  | [] => []
  | .register _ p :: earlier => registered earlier ++ [p]
  | _ :: earlier => registered earlier

/-- The position of the provider that the name was last given to. -/
def standsFor (name : String) : List Change → Option Nat
  | [] => none
  | .register n _ :: earlier =>
    if Text.sameWord name n then some (registered earlier).length else standsFor name earlier
  | .attach n position :: earlier =>
    if Text.sameWord name n && position < (registered earlier).length then some position
    else standsFor name earlier
  | .share n known :: earlier =>
    -- What no provider has yet cannot be shared.
    if Text.sameWord name n then (standsFor known earlier).or (standsFor name earlier)
    else standsFor name earlier
  | .setDefault _ _ _ :: earlier => standsFor name earlier

/-- The literal that was last set for the data type of the provider at the position, through a name
that stood for it at that time. -/
def lastSet? (position : Nat) (dataType : String) : List Change → Option String
  | [] => none
  | .setDefault n t literal :: earlier =>
    if standsFor n earlier = some position ∧ Text.sameWord dataType t then some literal
    else lastSet? position dataType earlier
  | _ :: earlier => lastSet? position dataType earlier

/-- A name stands for a provider that has been registered. -/
theorem standsFor_lt {name : String} {position : Nat} {history : List Change}
    (h : standsFor name history = some position) : position < (registered history).length := by
  -- By induction on the history, for all names, since sharing looks at another one.
  induction history generalizing name with
  | nil => cases h
  | cons change earlier ih =>
    cases change with
    | register n p =>
      -- A registration adds a provider, at the position that its name comes to stand for.
      rw [registered, List.length_append, List.length_singleton]
      rw [standsFor] at h
      split at h
      · cases h
        exact Nat.lt_succ_self _
      · exact Nat.lt_succ_of_lt (ih h)
    -- Attaching names a position that is there already.
    | attach n i =>
      rw [standsFor] at h
      split at h
      · next hn =>
        cases h
        simp only [Bool.and_eq_true, decide_eq_true_eq] at hn
        exact hn.2
      · exact ih h
    | share n known =>
      rw [standsFor] at h
      split at h
      · rcases Option.or_eq_some_iff.mp h with h | ⟨-, h⟩
        · exact ih h
        · exact ih h
      · exact ih h
    | setDefault n t literal => exact ih h

/-- Nothing has been set for a provider that has not been registered. -/
theorem lastSet?_of_le {position : Nat} {dataType : String} {history : List Change}
    (h : (registered history).length ≤ position) : lastSet? position dataType history = none := by
  induction history with
  | nil => rfl
  -- Setting a literal goes through a name, which stands for a provider that was there before.
  | cons change earlier ih =>
    cases change with
    | register n p =>
      rw [registered, List.length_append] at h
      exact ih (by omega)
    | attach n i => exact ih h
    | share n known => exact ih h
    | setDefault n t literal =>
      have hother : standsFor n earlier ≠ some position := fun heq =>
        Nat.not_lt.mpr h (standsFor_lt heq)
      -- A name only stands for providers that are there, so this literal was set for another one.
      rw [lastSet?, if_neg fun hset => hother hset.1]
      exact ih h

/-! ## §3 What the registry holds -/

theorem position?_bindName (r : Registry) (name other : String) (position : Nat) :
    (r.bindName name position).position? other =
      if Text.sameWord other name then some position else r.position? other := by
  rw [position?, bindName, Dictionary.get?_insert]
  simp only [Text.sameWord_iff, position?]

theorem position?_register (r : Registry) (name other : String) (p : Provider) :
    (r.register name p).position? other =
      if Text.sameWord other name then some r.providers.length else r.position? other :=
  position?_bindName r name other r.providers.length

theorem get?_setDefault (p : Provider) (dataType other literal : String) :
    (p.setDefault dataType literal).defaults.get? other =
      if Text.sameWord other dataType then some literal else p.defaults.get? other :=
  p.defaults.get?_set dataType other literal

/-- The registry holds what the changes say. -/
structure Reflects (r : Registry) (history : List Change) : Prop where
  position : ∀ name, r.position? name = standsFor name history
  length : r.providers.length = (registered history).length
  literal : ∀ (i : Nat) (dataType : String), r.providers[i]?.map (·.defaults.get? dataType) =
    (registered history)[i]?.map fun p =>
      (lastSet? i dataType history).or (p.defaults.get? dataType)

namespace Reflects

variable {r : Registry} {history : List Change}

theorem empty : Reflects {} [] := ⟨fun _ => rfl, rfl, fun _ _ => rfl⟩

theorem register (h : Reflects r history) (name : String) (p : Provider) :
    Reflects (r.register name p) (.register name p :: history) where
  -- The name stands for the position behind all others, where the new provider is.
  position other := by rw [position?_register, h.length, h.position, standsFor]
  length := by simp [Registry.register, registered, h.length]
  literal i dataType := by
    show (r.providers ++ [p])[i]?.map _ = (registered history ++ [p])[i]?.map fun p =>
      (lastSet? i dataType history).or (p.defaults.get? dataType)
    rcases Nat.lt_or_ge i r.providers.length with hi | hi
    · rw [List.getElem?_append_left hi, List.getElem?_append_left (h.length ▸ hi), h.literal]
    · -- Nothing has been set for the new provider.
      rw [lastSet?_of_le (h.length ▸ hi), List.getElem?_append_right hi,
        List.getElem?_append_right (h.length ▸ hi), h.length]
      simp

/-- A change of names is reflected if it gives and takes the names that it should. -/
theorem renamed (h : Reflects r history) {r' : Registry} {change : Change}
    (hproviders : r'.providers = r.providers)
    (hposition : ∀ name, r'.position? name = standsFor name (change :: history))
    (hregistered : registered (change :: history) = registered history)
    (hlast : ∀ i dataType, lastSet? i dataType (change :: history) = lastSet? i dataType history) :
    Reflects r' (change :: history) where
  position := hposition
  length := by rw [hproviders, hregistered, h.length]
  literal i dataType := by rw [hproviders, hregistered, hlast, h.literal]

theorem attach (h : Reflects r history) (name : String) (i : Nat) :
    Reflects (r.apply (.attach name i)) (.attach name i :: history) := by
  rw [Registry.apply, h.length]
  -- A position that nothing has been registered at changes no name.
  by_cases hi : i < (registered history).length
  · rw [if_pos hi]
    refine h.renamed rfl (fun other => ?_) rfl fun _ _ => rfl
    rw [position?_bindName, h.position, standsFor]
    simp [hi]
  · rw [if_neg hi]
    refine h.renamed rfl (fun other => ?_) rfl fun _ _ => rfl
    rw [h.position, standsFor]
    simp [hi]

theorem share (h : Reflects r history) (name known : String) :
    Reflects (r.apply (.share name known)) (.share name known :: history) := by
  rw [Registry.apply, Registry.share, h.position]
  cases hknown : standsFor known history with
  -- The known name passes its position on, or there is nothing to share.
  | some i =>
    refine h.renamed rfl (fun other => ?_) rfl fun _ _ => rfl
    show (r.bindName name i).position? other = _
    rw [position?_bindName, h.position, standsFor, hknown, Option.some_or]
  | none =>
    refine h.renamed rfl (fun other => ?_) rfl fun _ _ => rfl
    show r.position? other = _
    rw [h.position, standsFor, hknown, Option.none_or, ite_self]

theorem setDefault (h : Reflects r history) (name dataType literal : String) :
    Reflects (r.apply (.setDefault name dataType literal))
      (.setDefault name dataType literal :: history) := by
  rw [Registry.apply, Registry.setDefault, h.position]
  cases hname : standsFor name history with
  | none =>
    -- Nothing is set through an unknown name.
    refine ⟨h.position, h.length, fun i t => ?_⟩
    rw [lastSet?, if_neg (by simp [hname])]
    exact h.literal i t
  | some i =>
    refine ⟨h.position, (List.length_modify _ _ _).trans h.length, fun j t => ?_⟩
    have hj := h.literal j t
    show (r.providers.modify i _)[j]?.map _ = (registered history)[j]?.map _
    rw [List.getElem?_modify, lastSet?, hname]
    -- The other providers have the literals that they had.
    by_cases hij : i = j
    · subst hij
      -- Only the literal of the type is another one.
      by_cases ht : Text.sameWord t dataType = true
      · have hsome := congrArg (Option.map fun _ => some literal) hj
        simpa [Function.comp_def, get?_setDefault, ht] using hsome
      · simpa [Function.comp_def, get?_setDefault, ht] using hj
    · simpa [hij] using hj

theorem apply (h : Reflects r history) (change : Change) :
    Reflects (r.apply change) (change :: history) := by
  cases change with
  | register name p => exact h.register name p
  | attach name i => exact h.attach name i
  | share name known => exact h.share name known
  | setDefault name dataType literal => exact h.setDefault name dataType literal

end Reflects

/-- After any changes the registry holds what they say. -/
theorem reflects_after (history : List Change) : Reflects (after history) history := by
  induction history with
  | nil => exact .empty
  | cons change earlier ih => exact ih.apply change

/-! ## §4 What a name reads -/

/-- What a name reads is read from the provider at its position. -/
theorem get_of_position? {r : Registry} {name : String} {i : Nat} {p : Provider}
    (h : r.position? name = some i) (hp : r.providers[i]? = some p) : r.get name = .ok p := by
  rw [get, h, Option.bind_some, hp]

theorem get_of_unknown {r : Registry} {name : String} (h : r.position? name = none) :
    r.get name = .error (.unknownProvider name) := by
  rw [get, h, Option.bind_none]

/-- A name that stands for the same provider as before reads the same. -/
theorem get_congr {r r' : Registry} {name : String}
    (hposition : r'.position? name = r.position? name)
    (hproviders : ∀ i, r.position? name = some i → r'.providers[i]? = r.providers[i]?) :
    r'.get name = r.get name := by
  rw [get, get, hposition]
  cases h : r.position? name with
  | none => rfl
  | some i => rw [Option.bind_some, Option.bind_some, hproviders i h]

namespace Reflects

variable {r : Registry} {history : List Change} {name : String}

/-- The literal that a name reads is the one that was last set, or else the first one. -/
theorem literal_get (h : Reflects r history) (name dataType : String) :
    (r.get name).map (·.defaults.get? dataType) =
      match standsFor name history with
      | none => .error (.unknownProvider name)
      | some i => .ok ((lastSet? i dataType history).or
          ((registered history)[i]?.bind (·.defaults.get? dataType))) := by
  cases hname : standsFor name history with
  | none =>
    -- An unknown name is unknown to the registry as well.
    rw [get_of_unknown ((h.position name).trans hname)]
    rfl
  | some i =>
    have hi := standsFor_lt hname
    -- The provider at the position is there, in the registry and in what was registered.
    have hlt : i < r.providers.length := h.length ▸ hi
    have hp : r.providers[i]? = some r.providers[i] := List.getElem?_eq_getElem hlt
    have hs : (registered history)[i]? = some (registered history)[i] :=
      List.getElem?_eq_getElem hi
    have hliteral := h.literal i dataType
    rw [hp, hs, Option.map_some, Option.map_some, Option.some.injEq] at hliteral
    rw [get_of_position? ((h.position name).trans hname) hp]
    show Except.ok (r.providers[i].defaults.get? dataType) = _
    rw [hliteral]
    simp only [hs, Option.bind_some]

/-- What is set through the names of another provider is not read. -/
theorem get_setDefault (h : Reflects r history) {other : String}
    (hother : standsFor other history ≠ standsFor name history) (dataType literal : String) :
    (r.apply (.setDefault other dataType literal)).get name = r.get name := by
  rw [Registry.apply, Registry.setDefault]
  rw [← h.position, ← h.position] at hother
  -- Only the provider of the other name is changed.
  cases hj : r.position? other with
  | none => rfl
  | some j =>
    refine get_congr rfl fun i hi => ?_
    have hij : j ≠ i := by
      rintro rfl
      exact hother (hj.trans hi.symm)
    show (r.providers.modify j _)[i]? = _
    simp [hij]

/-- What other names come to stand for is not read. -/
theorem get_renamed (h : Reflects r history) {change : Change} {other : String}
    (hchange : change.names? = some other) (hother : Text.sameWord name other = false) :
    (r.apply change).get name = r.get name := by
  have hbind : ∀ i, (r.bindName other i).get name = r.get name := fun i =>
    -- Whatever position the other name is given, it is the other one's.
    get_congr (by simp [position?_bindName, hother]) fun _ _ => rfl
  cases change with
  | register n p =>
    obtain rfl := Option.some.inj hchange
    refine get_congr (by simp [Registry.apply, position?_register, hother]) fun i hi => ?_
    -- The provider of the name keeps its position, as the new one comes behind all.
    have hlt := standsFor_lt ((h.position name).symm.trans hi)
    exact List.getElem?_append_left (h.length ▸ hlt)
  | attach n i =>
    obtain rfl := Option.some.inj hchange
    rw [Registry.apply]
    split
    · exact hbind i
    · rfl
  | share n known =>
    obtain rfl := Option.some.inj hchange
    rw [Registry.apply, Registry.share]
    cases r.position? known with
    | none => rfl
    | some i => exact hbind i
  | setDefault n t literal => cases hchange

end Reflects

/-- The changes that give a new registry the names of the three dialects. -/
def stocked : List Change :=
  [.share "sqlite3" "sqlite", .register "sqlite" (.stock .sqlite),
    .share "postgresql" "postgres", .register "postgres" (.stock .postgres),
    .register "mysql" (.stock .mysql)]

theorem providers_register (r : Registry) (name : String) (p : Provider) :
    (r.apply (.register name p)).providers = r.providers ++ [p] := rfl

theorem providers_share (r : Registry) (name known : String) :
    (r.apply (.share name known)).providers = r.providers := by
  rw [apply, share]
  cases r.position? known <;> rfl

theorem after_stocked : after stocked = standard := by
  -- The names and the providers are those of the standard registry, in the same order.
  have hnames : (after stocked).names = standard.names := Dictionary.ext (by decide +kernel)
  have hproviders : (after stocked).providers = standard.providers := by
    simp only [stocked, after, providers_register, providers_share]
    rfl
  exact congr (congrArg Registry.mk hproviders) hnames

/-- Default literals are shared by the names of a provider and kept apart from those of others.
After any changes of a registry, of the standard one too, a name reads the literal that was last set
for the type through any name that stood for its provider then, or else the literal that the
provider came with; it reads the same whatever is set for another provider, and whatever another
name comes to stand for. -/
theorem defaults_by_provider :
    standard = after stocked ∧ ∀ (history : List Change) (name : String),
      (∀ dataType, ((after history).get name).map (·.defaults.get? dataType) =
        match standsFor name history with
        | none => .error (.unknownProvider name)
        | some i => .ok ((lastSet? i dataType history).or
            ((registered history)[i]?.bind (·.defaults.get? dataType)))) ∧
      (∀ other dataType literal, standsFor other history ≠ standsFor name history →
        (after (.setDefault other dataType literal :: history)).get name =
          (after history).get name) ∧
      ∀ change other, Change.names? change = some other → Text.sameWord name other = false →
        (after (change :: history)).get name = (after history).get name := by
  refine ⟨after_stocked.symm, fun history name => ?_⟩
  have h := reflects_after history
  refine ⟨h.literal_get name, ?_, ?_⟩
  · exact fun other dataType literal hother => h.get_setDefault hother dataType literal
  · exact fun change other hchange hother => h.get_renamed hchange hother

/-- Changes under which a name keeps a provider that has lost its first name. -/
def mariaDb : List Change :=
  [.register "MySQL" (.stock .mysql), .setDefault "Maria" "INT" "'7'", .share "maria" "mysql",
    .register "mysql" (.stock .mysql)]

/-- What is set through the second name of a provider is read when the first one stands for another
provider, and what is set through the first one then is not. -/
theorem mariaDb_defaults :
    ((after mariaDb).get "MARIA").map (·.defaults.get? "int") = .ok (some "'7'") ∧
      ((after mariaDb).get "mysql").map (·.defaults.get? "int") = .ok (some "'0'") ∧
      (after (.setDefault "mysql" "int" "'1'" :: mariaDb)).get "MARIA" =
        (after mariaDb).get "MARIA" ∧
      (after (.register "sqlite" (.stock .sqlite) :: mariaDb)).get "MARIA" =
        (after mariaDb).get "MARIA" := by
  -- The words that differ in case only are the same names and the same type.
  have hupper : Text.sameWord "MARIA" "maria" = true := by simp [Text.sameWord_iff_toList]
  have hmixed : Text.sameWord "Maria" "maria" = true := by simp [Text.sameWord_iff_toList]
  have hnew : Text.sameWord "MARIA" "MySQL" = false := by
    simp [← Bool.not_eq_true, Text.sameWord_iff_toList]
  have hnewer : Text.sameWord "mysql" "MySQL" = true := by simp [Text.sameWord_iff_toList]
  have hsqlite : Text.sameWord "MARIA" "sqlite" = false := by
    simp [← Bool.not_eq_true, Text.sameWord_iff_toList]
  have htype : Text.sameWord "int" "INT" = true := by simp [Text.sameWord_iff_toList]
  -- The second name keeps the first provider; the first name stands for the new one.
  have hmaria : standsFor "MARIA" mariaDb = some 0 := by
    simp [mariaDb, standsFor, registered, hupper, hnew, Text.sameWord_refl]
  have hmysql : standsFor "mysql" mariaDb = some 1 := by
    simp [mariaDb, standsFor, registered, hnewer]
  have hset : lastSet? 0 "int" mariaDb = some "'7'" := by
    simp [mariaDb, lastSet?, standsFor, registered, hmixed, htype, Text.sameWord_refl]
  have hunset : lastSet? 1 "int" mariaDb = none := by
    simp [mariaDb, lastSet?, standsFor, registered, hmixed, Text.sameWord_refl]
  have hstock : (registered mariaDb)[1]?.bind (·.defaults.get? "int") = some "'0'" := by
    decide +kernel
  obtain ⟨hread, hother, hrenamed⟩ := defaults_by_provider.2 mariaDb "MARIA"
  refine ⟨?_, ?_, ?_, ?_⟩
  · rw [hread, hmaria]
    simp only [hset, Option.some_or]
  · rw [(defaults_by_provider.2 mariaDb "mysql").1, hmysql]
    simp only [hunset, Option.none_or, hstock]
  · exact hother "mysql" "int" "'1'" (by simp [hmaria, hmysql])
  · exact hrenamed _ "sqlite" rfl hsqlite

end SqlService.Registry
