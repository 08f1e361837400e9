import SqlService.Filter.Clause

/-!
# Filters that differ in their values

Two filters are alike if they differ at most in the values that they compare with, where lists of
members have the same length.  Alike filters compile to the same text, or fail with the same error,
and give out the same names: what a filter is compared with goes into the parameters only.

Main statement: `compile_alike`.
-/

namespace SqlService

/-! ## §1 Names -/

namespace Dictionary

variable {α : Type}

theorem contains_congr {d e : Dictionary α} (h : d.names = e.names) (name : String) :
    d.contains name = e.contains name := by
  rw [Bool.eq_iff_iff, contains_iff, contains_iff, h]

theorem names_insert_congr {d e : Dictionary α} (h : d.names = e.names) (name : String)
    (v w : α) : (d.insert name v).names = (e.insert name w).names := by
  rw [names_insert, names_insert, h]

/-- What names there are after setting entries does not depend on the values. -/
theorem names_insertAll_congr {d e : Dictionary α} {es es' : List (String × α)}
    (h : d.names = e.names) (hes : Entries.names es = Entries.names es') :
    (d.insertAll es).names = (e.insertAll es').names := by
  induction es generalizing d e es' with
  | nil =>
    obtain rfl : es' = [] := List.map_eq_nil_iff.mp hes.symm
    exact h
  | cons entry es ih =>
    obtain ⟨n, v⟩ := entry
    obtain ⟨⟨n', v'⟩, rest, rfl, hn, hrest⟩ := List.map_eq_cons_iff.mp hes.symm
    obtain rfl : n' = n := hn
    rw [insertAll, List.foldl_cons, insertAll, List.foldl_cons]
    exact ih (names_insert_congr h n' v v') hrest.symm

theorem ofList_eq_insertAll (es : List (String × α)) : ofList es = insertAll ∅ es := by
  have hentries : ∀ d : Dictionary α, (d.insertAll es).entries =
      es.foldl (fun done e => Entries.put e.1 e.2 done) d.entries := by
    induction es with
    | nil => exact fun d => rfl
    | cons e es ih => exact fun d => ih (d.insert e.1 e.2)
  exact ext (hentries ∅).symm

/-- What names there are in a dictionary of entries does not depend on the values. -/
theorem names_ofList_congr {es es' : List (String × α)}
    (h : Entries.names es = Entries.names es') : (ofList es).names = (ofList es').names := by
  rw [ofList_eq_insertAll, ofList_eq_insertAll]
  exact names_insertAll_congr rfl h

end Dictionary

/-- The numberings have given out the same names. -/
structure Numbering.Alike (n n' : Numbering) : Prop where
  counter : n.counter = n'.counter
  names : n.params.names = n'.params.names

theorem Numbering.Alike.bind {n n' : Numbering} (h : n.Alike n') (stem : String) (v v' : Json) :
    (n.bind stem v).Alike (n'.bind stem v') := by
  constructor
  · exact congrArg (· + 1) h.counter
  · have hname : n.nextName stem = n'.nextName stem := by
      rw [Numbering.nextName, h.counter, Numbering.nextName]
    rw [Numbering.bind, Numbering.bind, hname]
    exact Dictionary.names_insert_congr h.names _ v v'

/-! ## §2 Conditions -/

namespace Filter

mutual

/-- The filters differ at most in the values that they compare with. -/
inductive Alike : Filter → Filter → Prop where
  | compare (name : String) (op : CompareOp) {value value' : Json}
      (h : op = .inList → (members value).length = (members value').length) :
      Alike (.compare name op value) (.compare name op value')
  | logic (op : LogicOp) {children children' : List Filter} (h : AllAlike children children') :
      Alike (.logic op children) (.logic op children')

/-- Each filter of the first list is alike to the one at its place in the second. -/
inductive AllAlike : List Filter → List Filter → Prop where
  | nil : AllAlike [] []
  | cons {f f' : Filter} {fs fs' : List Filter} (h : Alike f f') (hrest : AllAlike fs fs') :
      AllAlike (f :: fs) (f' :: fs')

end

theorem length_boundValues {op : CompareOp} {value value' : Json}
    (h : op = .inList → (members value).length = (members value').length) :
    (boundValues op value).length = (boundValues op value').length := by
  cases op with
  | inList => simpa [boundValues] using h rfl
  | _ => rfl

theorem bindAll_alike (d : Dialect) (stem : String) {vs vs' : List Json} {n n' : Numbering}
    (hvs : vs.length = vs'.length) (hn : n.Alike n') :
    (bindAll d stem vs n).1 = (bindAll d stem vs' n').1 ∧
      (bindAll d stem vs n).2.Alike (bindAll d stem vs' n').2 := by
  induction vs generalizing vs' n n' with
  | nil =>
    obtain rfl : vs' = [] := List.length_eq_zero_iff.mp hvs.symm
    exact ⟨rfl, hn⟩
  | cons v vs ih =>
    obtain ⟨v', rest, rfl⟩ := List.exists_cons_of_length_eq_add_one hvs.symm
    obtain ⟨htexts, hrest⟩ := ih (Nat.succ.inj hvs) (hn.bind stem v v')
    have hname : n.nextName stem = n'.nextName stem := by
      rw [Numbering.nextName, hn.counter, Numbering.nextName]
    refine ⟨?_, hrest⟩
    rw [bindAll, bindAll, htexts, hname]

/-- The outcomes of compiling are the same but for the values that have been bound. -/
structure SameOutcome {α : Type} (x y : Except DataError α × Numbering) : Prop where
  result : x.1 = y.1
  numbering : x.2.Alike y.2

theorem SameOutcome.exists_eq {α : Type} {x y : Except DataError α × Numbering}
    (h : SameOutcome x y) : ∃ r n n', x = (r, n) ∧ y = (r, n') ∧ n.Alike n' :=
  ⟨x.1, x.2, y.2, rfl, Prod.ext h.result.symm rfl, h.numbering⟩

theorem AllAlike.length_eq {fs fs' : List Filter} (h : AllAlike fs fs') :
    fs.length = fs'.length := by
  match h with
  | .nil => rfl
  | .cons _ hrest => exact congrArg (· + 1) hrest.length_eq

theorem compile_joined (d : Dialect) (stem : String) {op : LogicOp} (hop : op ≠ .not) (f : Filter)
    (fs : List Filter) (n : Numbering) :
    (logic op (f :: fs)).compile d stem n =
      ((compileAll d stem (f :: fs) n).1.map (String.intercalate (joiner op)),
        (compileAll d stem (f :: fs) n).2) := by
  cases op with
  | not => exact absurd rfl hop
  | _ =>
    rw [compile]
    · split <;> next h => rw [h]; rfl
    all_goals exact fun h => by cases h

mutual

/-- Alike filters compile to the same text or fail with the same error, and give out the same
names. -/
theorem compile_alike (d : Dialect) (stem : String) {f f' : Filter} {n n' : Numbering}
    (h : Alike f f') (hn : n.Alike n') :
    SameOutcome (f.compile d stem n) (f'.compile d stem n') := by
  match f, h with
  | .compare name op value, .compare _ _ hvalues =>
    obtain ⟨htexts, hrest⟩ := bindAll_alike d stem (length_boundValues hvalues) hn
    rw [compile, compile, htexts]
    exact ⟨rfl, hrest⟩
  | .logic op [], .logic _ .nil =>
    -- Without children there is nothing to compile.
    cases op <;> exact ⟨rfl, hn⟩
  | .logic .not [child], .logic _ (.cons hchild .nil) =>
    obtain ⟨r, m, m', hx, hy, hm⟩ := (compile_alike d stem hchild hn).exists_eq
    rw [compile, compile, hx, hy]
    cases r <;> exact ⟨rfl, hm⟩
  | .logic .not (_ :: _ :: _), .logic _ (.cons _ (.cons _ hmore)) =>
    -- The error says how many children there are.
    rw [compile, compile]
    · refine ⟨?_, hn⟩
      simp only [List.length_cons, hmore.length_eq]
    all_goals exact fun _ h => by cases h
  | .logic .and (_ :: _), .logic _ (.cons hchild hchildren) =>
    have hparts := compileAll_alike d stem (.cons hchild hchildren) hn
    rw [compile_joined d stem (by decide), compile_joined d stem (by decide), hparts.result]
    exact ⟨rfl, hparts.numbering⟩
  | .logic .or (_ :: _), .logic _ (.cons hchild hchildren) =>
    have hparts := compileAll_alike d stem (.cons hchild hchildren) hn
    rw [compile_joined d stem (by decide), compile_joined d stem (by decide), hparts.result]
    exact ⟨rfl, hparts.numbering⟩

theorem compileAll_alike (d : Dialect) (stem : String) {fs fs' : List Filter} {n n' : Numbering}
    (h : AllAlike fs fs') (hn : n.Alike n') :
    SameOutcome (compileAll d stem fs n) (compileAll d stem fs' n') := by
  match fs, h with
  | [], .nil => exact ⟨rfl, hn⟩
  | f :: fs, .cons hfirst hfs =>
    obtain ⟨r, m, m', hx, hy, hm⟩ := (compile_alike d stem hfirst hn).exists_eq
    rw [compileAll, compileAll, hx, hy]
    cases r with
    | error e => exact ⟨rfl, hm⟩
    | ok text =>
      obtain ⟨r, _, _, hx, hy, hrest⟩ := (compileAll_alike d stem hfs hm).exists_eq
      simp only [hx, hy]
      cases r <;> exact ⟨rfl, hrest⟩

end

end Filter

end SqlService
