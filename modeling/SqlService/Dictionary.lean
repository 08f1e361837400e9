/-!
# Ordered dictionaries

A dictionary maps names to values, each name once, and keeps its entries in order: a new name goes
to the end, a value set under a known name keeps its place, and removing an entry moves the last
one into the gap.  The operations are defined on lists of entries first, where documents with
nested objects use them directly; `Dictionary` carries the proof that no name occurs twice.

Main statements: what is read back after setting a name (`find?_put`, `get?_insert`), which names
there are then (`names_put`, `names_insert`), and that reading ignores the order
(`find?_eq_some_iff`).
-/

namespace SqlService

/-! ## §1 Lists of entries -/

namespace Entries

variable {α : Type}

/-- The names of the entries, in order. -/
def names (es : List (String × α)) : List String := es.map Prod.fst

/-- The value of the first entry of that name. -/
def find? (name : String) : List (String × α) → Option α
  | [] => none
  | (n, v) :: es => if n = name then some v else find? name es

/-- The entries with the value set under the name. -/
def put (name : String) (value : α) : List (String × α) → List (String × α)
  | [] => [(name, value)]
  | (n, v) :: es => if n = name then (n, value) :: es else (n, v) :: put name value es

/-- The entries without the name; the last entry takes the place that becomes free. -/
def remove (name : String) : List (String × α) → List (String × α)
  | [] => []
  | (n, v) :: es =>
    if n = name then
      -- The rest loses its last entry, which goes to the front of it.
      match es.getLast? with
      | some last => last :: es.dropLast
      | none => []
    else (n, v) :: remove name es

/-- The entries put in one after another. -/
def collect (es : List (String × α)) : List (String × α) :=
  es.foldl (fun done e => put e.1 e.2 done) []

@[simp] theorem find?_nil (name : String) : find? name ([] : List (String × α)) = none := rfl

/-- Nothing is found under a name that is not there. -/
theorem find?_eq_none_iff {name : String} {es : List (String × α)} :
    find? name es = none ↔ name ∉ names es := by
  induction es with
  | nil => simp [names]
  | cons e es ih =>
    by_cases h : e.1 = name
    · simp [find?, names, h]
    · simp only [find?, h, if_false, ih, names, List.map_cons, List.mem_cons]
      constructor
      · intro hn hc
        rcases hc with rfl | hc
        · exact h rfl
        · exact hn hc
      · exact fun hn hc => hn (Or.inr hc)

/-- A value that was set is found. -/
theorem find?_put_self (name : String) (value : α) (es : List (String × α)) :
    find? name (put name value es) = some value := by
  induction es with
  | nil => simp [put, find?]
  | cons e es ih => by_cases h : e.1 = name <;> simp [put, find?, h, ih]

/-- Setting a name does not change what is found under another. -/
theorem find?_put_of_ne {name other : String} (h : other ≠ name) (value : α)
    (es : List (String × α)) : find? other (put name value es) = find? other es := by
  induction es with
  | nil => simp [put, find?, Ne.symm h]
  | cons e es ih =>
    obtain ⟨n, v⟩ := e
    -- The first entry is the one that is replaced, or the search goes on behind it.
    by_cases he : n = name
    · subst he
      simp [put, find?, Ne.symm h]
    · by_cases ho : n = other <;> simp_all [put, find?]

/-- Reading after setting a name gives the value set, and under any other name what was there. -/
theorem find?_put (name other : String) (value : α) (es : List (String × α)) :
    find? other (put name value es) = if other = name then some value else find? other es := by
  by_cases h : other = name
  · subst h; simp [find?_put_self]
  · simp [h, find?_put_of_ne h]

/-- Setting a name adds it at the end unless it is there already. -/
theorem names_put (name : String) (value : α) (es : List (String × α)) :
    names (put name value es) = if name ∈ names es then names es else names es ++ [name] := by
  induction es with
  | nil => simp [put, names]
  | cons e es ih =>
    by_cases h : e.1 = name
    · simp [put, names, h]
    · have hne : ¬ name = e.1 := fun hc => h hc.symm
      simp only [put, h, if_false]
      simp only [names, List.map_cons] at ih ⊢
      rw [ih]
      by_cases hm : name ∈ es.map Prod.fst <;> simp [hm, hne]

/-- Setting keeps the names distinct. -/
theorem nodup_put {name : String} {value : α} {es : List (String × α)} (h : (names es).Nodup) :
    (names (put name value es)).Nodup := by
  rw [names_put]
  split
  · exact h
  · next hm =>
    rw [List.nodup_append]
    refine ⟨h, by simp, fun a ha b hb => ?_⟩
    rintro rfl
    exact hm (by simp_all)

/-- Removing keeps the names distinct, though it moves an entry. -/
theorem nodup_remove {name : String} {es : List (String × α)} (h : (names es).Nodup) :
    (names (remove name es)).Nodup := by
  -- Whatever is moved was there before.
  have mem_remove : ∀ {es : List (String × α)} {m : String},
      m ∈ names (remove name es) → m ∈ names es := by
    intro es m
    induction es with
    | nil => simp [remove]
    | cons e es ih =>
      simp only [remove]
      split
      · split
        · next last hl =>
          have hlast : last ∈ es := List.mem_of_getLast? hl
          intro hm
          simp only [names, List.map_cons, List.mem_cons] at hm ⊢
          rcases hm with rfl | hm
          · exact Or.inr (List.mem_map_of_mem hlast)
          · obtain ⟨x, hx, rfl⟩ := List.mem_map.mp hm
            exact Or.inr (List.mem_map_of_mem (List.dropLast_subset _ hx))
        · simp [names]
      · intro hm
        simp only [names, List.map_cons, List.mem_cons] at hm ⊢
        exact hm.imp_right ih
  induction es with
  | nil => simp [remove, names]
  | cons e es ih =>
    simp only [names, List.map_cons, List.nodup_cons] at h
    simp only [remove]
    split
    · split
      -- The last entry comes to the front, and its name is not among the others.
      · next last hl =>
        obtain ⟨front, rfl⟩ := List.getLast?_eq_some_iff.mp hl
        have hd := h.2
        rw [List.map_append, List.nodup_append] at hd
        simp only [names, List.map_cons, List.nodup_cons, List.dropLast_concat]
        refine ⟨fun hm => ?_, hd.1⟩
        exact hd.2.2 _ hm last.1 (by simp) rfl
      · simp [names]
    · simp only [names, List.map_cons, List.nodup_cons]
      exact ⟨fun hm => h.1 (mem_remove hm), ih h.2⟩

/-- With each name once, reading finds exactly the entry of that name. -/
theorem find?_eq_some_iff {name : String} {value : α} {es : List (String × α)}
    (h : (names es).Nodup) : find? name es = some value ↔ (name, value) ∈ es := by
  induction es with
  | nil => simp
  | cons e es ih =>
    -- The entry found first is the only one of its name.
    obtain ⟨n, v⟩ := e
    simp only [names, List.map_cons, List.nodup_cons] at h
    by_cases hn : n = name
    · subst hn
      have : (n, value) ∉ es := fun hm => h.1 (List.mem_map.mpr ⟨(n, value), hm, rfl⟩)
      simp [find?, this, eq_comm]
    · have hne : ¬ name = n := fun hc => hn hc.symm
      simp [find?, hn, hne, ih h.2]

/-- Collected entries have distinct names. -/
theorem nodup_collect (es : List (String × α)) : (names (collect es)).Nodup := by
  -- By induction on the entries, with what has been collected growing.
  have : ∀ (es done : List (String × α)), (names done).Nodup →
      (names (es.foldl (fun done e => put e.1 e.2 done) done)).Nodup := by
    intro es
    induction es with
    | nil => exact fun _ h => h
    | cons e es ih => exact fun done h => ih _ (nodup_put h)
  exact this es [] (by simp [names])

/-- A new name goes to the end. -/
theorem put_of_not_mem {name : String} {value : α} {es : List (String × α)}
    (h : name ∉ names es) : put name value es = es ++ [(name, value)] := by
  induction es with
  | nil => rfl
  | cons e es ih =>
    simp only [names, List.map_cons, List.mem_cons, not_or] at h
    have hne : ¬ e.1 = name := fun hc => h.1 hc.symm
    simp [put, hne, ih h.2]

/-- With each name once, the entries in front of an entry do not have its name. -/
theorem not_mem_names_of_nodup {e : String × α} {front back : List (String × α)}
    (h : (names (front ++ e :: back)).Nodup) : e.1 ∉ names front := by
  rw [names, List.map_append, List.nodup_append] at h
  exact fun hmem => h.2.2 e.1 hmem e.1 (by simp) rfl

/-- A name that is there keeps its place. -/
theorem put_append_cons {name : String} {value old : α} {front back : List (String × α)}
    (h : name ∉ names front) :
    put name value (front ++ (name, old) :: back) = front ++ (name, value) :: back := by
  induction front with
  | nil => simp [put]
  | cons e front ih =>
    simp only [names, List.map_cons, List.mem_cons, not_or] at h
    have hne : ¬ e.1 = name := fun hc => h.1 hc.symm
    simp [put, hne, ih h.2]

/-- Entries with each name once are collected as they stand. -/
theorem collect_of_nodup {es : List (String × α)} (h : (names es).Nodup) : collect es = es := by
  have : ∀ (es done : List (String × α)), (names (done ++ es)).Nodup →
      es.foldl (fun done e => put e.1 e.2 done) done = done ++ es := by
    intro es
    induction es with
    | nil => simp
    | cons e es ih =>
      intro done hd
      have hm : e.1 ∉ names done := not_mem_names_of_nodup hd
      rw [List.foldl_cons, put_of_not_mem hm, ih _ (by simpa using hd)]
      simp
  have := this es [] (by simpa using h)
  rw [List.nil_append] at this
  exact this

end Entries

/-! ## §2 Dictionaries -/

/-- Values under names, each name once, in order of insertion. -/
structure Dictionary (α : Type) where
  entries : List (String × α) := []
  distinct : (Entries.names entries).Nodup := by simp [Entries.names]

namespace Dictionary

variable {α : Type}

@[ext] theorem ext {d e : Dictionary α} (h : d.entries = e.entries) : d = e := by
  cases d; cases e; cases h; rfl

instance : EmptyCollection (Dictionary α) := ⟨{}⟩

instance : Inhabited (Dictionary α) := ⟨∅⟩

/-- The value under a name. -/
def get? (d : Dictionary α) (name : String) : Option α := Entries.find? name d.entries

/-- Whether the name has a value. -/
def contains (d : Dictionary α) (name : String) : Bool := (d.get? name).isSome

/-- The dictionary with the value set under the name. -/
def insert (d : Dictionary α) (name : String) (value : α) : Dictionary α :=
  ⟨Entries.put name value d.entries, Entries.nodup_put d.distinct⟩

/-- The dictionary without the name; the last entry takes its place. -/
def erase (d : Dictionary α) (name : String) : Dictionary α :=
  ⟨Entries.remove name d.entries, Entries.nodup_remove d.distinct⟩

/-- The names in order. -/
def names (d : Dictionary α) : List String := Entries.names d.entries

/-- The number of entries. -/
def size (d : Dictionary α) : Nat := d.entries.length

/-- Whether there are no entries. -/
def isEmpty (d : Dictionary α) : Bool := d.entries.isEmpty

/-- The dictionary of the entries, a later value replacing an earlier one of the same name. -/
def ofList (es : List (String × α)) : Dictionary α := ⟨Entries.collect es, Entries.nodup_collect es⟩

/-- The dictionary with every value replaced by its image. -/
def map {β : Type} (f : α → β) (d : Dictionary α) : Dictionary β :=
  ⟨d.entries.map fun e => (e.1, f e.2), by
    have : Entries.names (d.entries.map fun e => (e.1, f e.2)) = Entries.names d.entries := by
      simp [Entries.names, Function.comp_def]
    rw [this]
    exact d.distinct⟩

/-- The dictionary with all of the entries set, one after another. -/
def insertAll (d : Dictionary α) (es : List (String × α)) : Dictionary α :=
  es.foldl (fun d e => d.insert e.1 e.2) d

/-- The dictionary with the entries in order of their names, compared by code point. -/
def sorted (d : Dictionary α) : List (String × α) :=
  d.entries.mergeSort fun a b => decide (a.1 ≤ b.1)

/-- Reading after setting. -/
theorem get?_insert (d : Dictionary α) (name other : String) (value : α) :
    (d.insert name value).get? other = if other = name then some value else d.get? other :=
  Entries.find?_put name other value d.entries

/-- The names after setting. -/
theorem names_insert (d : Dictionary α) (name : String) (value : α) :
    (d.insert name value).names = if name ∈ d.names then d.names else d.names ++ [name] :=
  Entries.names_put name value d.entries

/-- A value set under a name that is there stands where the old one stood. -/
theorem entries_insert_of_split {d : Dictionary α} {name : String} {old : α}
    {front back : List (String × α)} (h : d.entries = front ++ (name, old) :: back) (value : α) :
    (d.insert name value).entries = front ++ (name, value) :: back := by
  have hnew : name ∉ Entries.names front := Entries.not_mem_names_of_nodup (h ▸ d.distinct)
  show Entries.put name value d.entries = _
  rw [h, Entries.put_append_cons hnew]

/-- Nothing is read under a name that is not there. -/
theorem get?_eq_none_iff {d : Dictionary α} {name : String} :
    d.get? name = none ↔ name ∉ d.names :=
  Entries.find?_eq_none_iff

/-- What is read is the entry of the name. -/
theorem get?_eq_some_iff {d : Dictionary α} {name : String} {value : α} :
    d.get? name = some value ↔ (name, value) ∈ d.entries :=
  Entries.find?_eq_some_iff d.distinct

/-- A name has a value if it is there. -/
theorem contains_iff {d : Dictionary α} {name : String} :
    d.contains name = true ↔ name ∈ d.names := by
  rw [contains, Option.isSome_iff_ne_none, ne_eq, get?_eq_none_iff, Classical.not_not]

/-- Every value is replaced by its image where it stands. -/
theorem get?_map {β : Type} (f : α → β) (d : Dictionary α) (name : String) :
    (d.map f).get? name = (d.get? name).map f := by
  have : ∀ es : List (String × α),
      Entries.find? name (es.map fun e => (e.1, f e.2)) = (Entries.find? name es).map f := by
    intro es
    induction es with
    | nil => rfl
    | cons e es ih => by_cases h : e.1 = name <;> simp [Entries.find?, h, ih]
  exact this d.entries

/-- Setting all entries of a dictionary gives them precedence over what was there. -/
theorem get?_insertAll (d e : Dictionary α) (name : String) :
    (d.insertAll e.entries).get? name = (e.get? name).or (d.get? name) := by
  have hall : ∀ (es : List (String × α)) (d : Dictionary α), (Entries.names es).Nodup →
      (d.insertAll es).get? name = (Entries.find? name es).or (d.get? name) := by
    intro es
    induction es with
    | nil => exact fun d _ => rfl
    | cons entry es ih =>
      intro d hnodup
      obtain ⟨n, v⟩ := entry
      obtain ⟨hn, hrest⟩ := List.nodup_cons.mp hnodup
      have htail := ih (d.insert n v) hrest
      rw [insertAll] at htail
      rw [insertAll, List.foldl_cons, htail, get?_insert, Entries.find?]
      by_cases h : n = name
      · have hnone : Entries.find? name es = none := Entries.find?_eq_none_iff.mpr (h ▸ hn)
        simp [h, hnone]
      · simp [h, Ne.symm h]
  exact hall e.entries d e.distinct

/-- A dictionary is rebuilt from its entries. -/
theorem ofList_entries (d : Dictionary α) : ofList d.entries = d :=
  ext (Entries.collect_of_nodup d.distinct)

end Dictionary

end SqlService
