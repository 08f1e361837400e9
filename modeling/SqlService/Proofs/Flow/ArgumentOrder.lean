import Mathlib.Data.List.Induction
import Mathlib.Data.Nat.Digits.Defs
import SqlService.Flow.SqlArgs

/-!
# The order of arguments

The arguments of an SQL step are read one after another, and reading stops at the first that is
refused.  What is read all the same depends on each of the reserved arguments by itself and on
nothing else, so that the order of the arguments counts only for the order of the parameters.

Main statement: `SqlArgs.order_irrelevant`.
-/

namespace SqlService

/-- What is found under a name does not depend on the order of the entries. -/
theorem Dictionary.get?_eq_of_perm {α : Type} {d e : Dictionary α} (h : d.entries.Perm e.entries)
    (name : String) : e.get? name = d.get? name :=
  Option.ext fun v => by rw [get?_eq_some_iff, get?_eq_some_iff, h.mem_iff]

/-! ## §1 Numbers of rows and pages -/

namespace Decimal

/-- A run of digits denotes the number that has them, the last one as its lowest. -/
theorem valueFrom_zero (cs : List Char) :
    valueFrom 0 cs = Nat.ofDigits 10 (cs.map digitValue).reverse := by
  induction cs using List.reverseRecOn with
  | nil => rfl
  | append_singleton cs c ih =>
    rw [valueFrom_append, ih, List.map_append, List.reverse_append]
    simp only [valueFrom, List.foldl_cons, List.foldl_nil, List.map_cons, List.map_nil,
      List.reverse_singleton, List.singleton_append, Nat.ofDigits_cons]
    omega

theorem readDigits?_eq_some_iff {cs : List Char} {n : Nat} :
    readDigits? cs = some n ↔ cs ≠ [] ∧ (∀ c ∈ cs, c.isDigit = true) ∧
      Nat.ofDigits 10 (cs.map digitValue).reverse = n := by
  rw [readDigits?, ← valueFrom_zero]
  -- The three conditions are what is tested: something there, digits only, and their value.
  by_cases hcs : cs = []
  · simp [hcs]
  · by_cases hall : cs.all Char.isDigit = true
    · have hdigits : ∀ c ∈ cs, c.isDigit = true := List.all_eq_true.mp hall
      rw [hall, List.isEmpty_eq_false_iff.mpr hcs]
      exact ⟨fun h => ⟨hcs, hdigits, Option.some.inj h⟩, fun h => congrArg some h.2.2⟩
    · have hother : ¬ ∀ c ∈ cs, c.isDigit = true := fun h => hall (List.all_eq_true.mpr h)
      simp [hall, hother]

end Decimal

namespace Json

/-- The value spells the number: it is a whole number itself, or a text that has between blanks the
digits of the number in base ten, perhaps after a plus sign. -/
inductive Spells : Json → Nat → Prop where
  | number (i : Integer) (n : Nat) (h : i.val = n) : Spells (number (.int i)) n
  | digits (s : String) (ds : List Char)
      (h : (Text.trim s).toList = ds ∨ (Text.trim s).toList = '+' :: ds) (hsome : ds ≠ [])
      (hdigits : ∀ d ∈ ds, d.isDigit = true) :
      Spells (string s) (Nat.ofDigits 10 (ds.map Decimal.digitValue).reverse)

end Json

namespace Integer

theorem toUInt64?_eq_some_iff {i : Integer} {w : UInt64} :
    i.toUInt64? = some w ↔ i.val = w.toNat := by
  have hbound := i.upper_bound
  rw [toUInt64?]
  split
  · next hpos =>
    have hsize : i.val.toNat < UInt64.size := by simp only [UInt64.size]; omega
    rw [Option.some.injEq, ← UInt64.toNat_inj, UInt64.toNat_ofNat_of_lt' hsize]
    omega
  · next hneg =>
    -- A negative number is not of the type, and no value of the type is negative.
    constructor
    · intro h
      cases h
    · intro h
      omega

end Integer

namespace Decimal

/-- The sign is a plus if there is one. -/
theorem readUnsigned?_eq_some_iff {bound : Nat} {s : String} {n : Nat} :
    readUnsigned? bound s = some n ↔ n < bound ∧ ∃ ds,
      (s.toList = ds ∨ s.toList = '+' :: ds) ∧ readDigits? ds = some n := by
  rw [readUnsigned?, Option.filter_eq_some_iff, decide_eq_true_eq, and_comm]
  refine and_congr_right fun _ => ?_
  -- A text that starts with a plus is read behind it, and any other as it stands.
  split
  · next cs hcs =>
    constructor
    · exact fun h => ⟨cs, .inr hcs, h⟩
    · rintro ⟨ds, hds | hds, h⟩
      · -- A sign is no digit.
        have hsign := (readDigits?_eq_some_iff.mp h).2.1 '+' (by rw [← hds, hcs]; simp)
        cases hsign
      · rw [hcs, List.cons.injEq] at hds
        rwa [hds.2]
  · next hplain =>
    constructor
    · exact fun h => ⟨_, .inl rfl, h⟩
    · rintro ⟨ds, rfl | hds, h⟩
      · exact h
      · exact absurd hds (hplain ds)

end Decimal

namespace SqlArgs

open Json (Spells)

/-- A number of rows or a page is what the argument spells. -/
theorem readPageNumber_some_iff {name : String} {v : Json} {w : UInt64} :
    readPageNumber name v = .ok (some w) ↔ v.Spells w.toNat := by
  cases v with
  | number n =>
    cases n with
    | int i =>
      -- A whole number spells itself, if it is of the type.
      have hread : readPageNumber name (.number (.int i)) = .ok (some w) ↔
          i.toUInt64? = some w := by
        unfold readPageNumber
        dsimp only [Number.toUInt64?]
        cases i.toUInt64? <;> simp
      rw [hread, Integer.toUInt64?_eq_some_iff]
      constructor
      · exact .number i _
      · rintro ⟨⟩
        assumption
    -- A number with a fraction is refused, and it spells nothing.
    | float x h =>
      constructor
      · nofun
      · nofun
  | string s =>
    have hread : readPageNumber name (.string s) = .ok (some w) ↔
        Decimal.readUnsigned? UInt64.size (Text.trim s) = some w.toNat := by
      unfold readPageNumber
      dsimp only
      cases hn : Decimal.readUnsigned? UInt64.size (Text.trim s) with
      | none => simp
      | some n =>
        have hsize := (Decimal.readUnsigned?_eq_some_iff.mp hn).1
        rw [Except.ok.injEq, Option.some.injEq, Option.some.injEq, ← UInt64.toNat_inj,
          UInt64.toNat_ofNat_of_lt' hsize]
    rw [hread, Decimal.readUnsigned?_eq_some_iff]
    -- A text spells what its digits denote, and is accepted if that is of the type.
    constructor
    · rintro ⟨-, ds, hds, h⟩
      obtain ⟨hsome, hdigits, hvalue⟩ := Decimal.readDigits?_eq_some_iff.mp h
      rw [← hvalue]
      exact .digits s ds hds hsome hdigits
    · intro h
      generalize hn : w.toNat = n at h
      have hsize : n < UInt64.size := hn ▸ w.toNat_lt
      cases h with
      | digits _ ds hds hsome hdigits =>
        exact ⟨hsize, ds, hds, Decimal.readDigits?_eq_some_iff.mpr ⟨hsome, hdigits, rfl⟩⟩
  -- Nothing else is read as a number, and nothing else spells one.
  | _ =>
    constructor
    · nofun
    · nofun

/-- Only null stands for no number. -/
theorem readPageNumber_none_iff {name : String} {v : Json} :
    readPageNumber name v = .ok none ↔ v = .null := by
  constructor
  · intro h
    -- A number and a text that are read at all give a number and not its absence.
    cases v with
    | null => rfl
    | number n =>
      unfold readPageNumber at h
      dsimp only at h
      split at h <;> cases h
    | string s =>
      unfold readPageNumber at h
      dsimp only at h
      split at h <;> cases h
    | _ => cases h
  · rintro rfl
    rfl

/-! ## §2 Each argument by itself -/

/-- What is known about an argument after it was read, if it was given, and else what was known
before. -/
def taken {α : Type} (read : Json → Except FlowError α) (old : α) (v? : Option Json) :
    Except FlowError α :=
  match v? with
  | some v => read v
  | none => .ok old

/-- The arguments lead from what was read before to what is read after them: of each reserved one
the value is taken, and the others become parameters in their order. -/
structure Reads (es : List (String × Json)) (p q : Partly) : Prop where
  filter : taken readFilter p.filter (Entries.find? "filter" es) = .ok q.filter
  sorts : taken readSorts p.sorts (Entries.find? "sort" es) = .ok q.sorts
  pageIndex : taken (readPageNumber "pageIndex") p.pageIndex (Entries.find? "pageIndex" es) =
    .ok q.pageIndex
  pageSize : taken (readPageNumber "pageSize") p.pageSize (Entries.find? "pageSize" es) =
    .ok q.pageSize
  params : q.params.entries = p.params.entries ++ es.filter fun e => e.1 ∉ reserved

theorem taken_cons {α : Type} {read : Json → Except FlowError α} {name : String}
    {e : String × Json} {es : List (String × Json)} (hnew : e.1 ∉ Entries.names es) {old new : α} :
    taken read old (Entries.find? name (e :: es)) = .ok new ↔
      ∃ mid, taken read old (Entries.find? name [e]) = .ok mid ∧
        taken read mid (Entries.find? name es) = .ok new := by
  by_cases hname : e.1 = name
  -- A name that the first argument has is not given again.
  · have hnone : Entries.find? name es = none := Entries.find?_eq_none_iff.mpr (hname ▸ hnew)
    simp [Entries.find?, hname, hnone, taken]
  · simp [Entries.find?, hname, taken]

theorem Reads.nil (p : Partly) : Reads [] p p :=
  ⟨rfl, rfl, rfl, rfl, by simp⟩

theorem Reads.unique {es : List (String × Json)} {p q q' : Partly} (h : Reads es p q)
    (h' : Reads es p q') : q = q' := by
  -- Each reserved part is the one thing that is taken, and the parameters have the same entries.
  obtain ⟨filter, sorts, index, size, params⟩ := q
  obtain ⟨filter', sorts', index', size', params'⟩ := q'
  obtain rfl : filter = filter' := Except.ok.inj (h.filter.symm.trans h'.filter)
  obtain rfl : sorts = sorts' := Except.ok.inj (h.sorts.symm.trans h'.sorts)
  obtain rfl : index = index' := Except.ok.inj (h.pageIndex.symm.trans h'.pageIndex)
  obtain rfl : size = size' := Except.ok.inj (h.pageSize.symm.trans h'.pageSize)
  obtain rfl : params = params' := Dictionary.ext (h.params.trans h'.params.symm)
  rfl

/-- An argument leads on if what is set is taken from it. -/
theorem reads_iff_bind {α : Type} {p q : Partly} {e : String × Json} {x : Except FlowError α}
    {set : α → Partly} (hset : ∀ a, x = .ok a → Reads [e] p (set a))
    (htaken : Reads [e] p q → ∃ a, x = .ok a) :
    Reads [e] p q ↔ (do return set (← x)) = .ok q := by
  cases x with
  -- A value that cannot be read is not taken, and it stops the reading.
  | error err =>
    constructor
    · intro h
      obtain ⟨a, ha⟩ := htaken h
      cases ha
    · nofun
  | ok a =>
    constructor
    · exact fun h => congrArg Except.ok ((hset a rfl).unique h)
    · intro h
      exact Except.ok.inj h ▸ hset a rfl

/-- An argument of a new name leads to what is read of it. -/
theorem reads_single_iff {p q : Partly} {e : String × Json} (hnew : e.1 ∉ p.params.names) :
    Reads [e] p q ↔ p.read e = .ok q := by
  obtain ⟨name, v⟩ := e
  unfold Partly.read
  -- Each reserved name sets its own part and leaves the others and the parameters alone.
  split
  · next hname =>
    obtain rfl : name = "filter" := hname
    exact reads_iff_bind (fun f hf => ⟨hf, rfl, rfl, rfl, (List.append_nil _).symm⟩)
      fun h => ⟨_, h.filter⟩
  · next hname =>
    obtain rfl : name = "sort" := hname
    exact reads_iff_bind (fun f hf => ⟨rfl, hf, rfl, rfl, (List.append_nil _).symm⟩)
      fun h => ⟨_, h.sorts⟩
  · next hname =>
    obtain rfl : name = "pageIndex" := hname
    exact reads_iff_bind (fun f hf => ⟨rfl, rfl, hf, rfl, (List.append_nil _).symm⟩)
      fun h => ⟨_, h.pageIndex⟩
  · next hname =>
    obtain rfl : name = "pageSize" := hname
    exact reads_iff_bind (fun f hf => ⟨rfl, rfl, rfl, hf, (List.append_nil _).symm⟩)
      fun h => ⟨_, h.pageSize⟩
  · next hfilter hsort hindex hsize =>
    -- The argument is a parameter, and no reserved one is given.
    have hparameter : name ∉ reserved := by simp_all [reserved]
    have hnone : ∀ other ∈ reserved, Entries.find? other [(name, v)] = none := by
      intro other hother
      have hne : name ≠ other := fun hsame => hparameter (hsame ▸ hother)
      simp [Entries.find?, hne]
    have hentries : (p.params.insert name v).entries =
        p.params.entries ++ [(name, v)].filter fun e => e.1 ∉ reserved := by
      have hkept : ([(name, v)].filter fun e => e.1 ∉ reserved) = [(name, v)] := by
        simp [hparameter]
      rw [hkept]
      exact Entries.put_of_not_mem hnew
    have hreads : Reads [(name, v)] p { p with params := p.params.insert name v } := by
      refine ⟨?_, ?_, ?_, ?_, hentries⟩
      all_goals rw [hnone _ (by simp [reserved])]; rfl
    constructor
    · exact fun h => congrArg Except.ok (hreads.unique h)
    · intro h
      exact Except.ok.inj h ▸ hreads

/-- Arguments lead on where the first of them leads to. -/
theorem reads_cons_iff {p q : Partly} {e : String × Json} {es : List (String × Json)}
    (hnew : e.1 ∉ Entries.names es) : Reads (e :: es) p q ↔ ∃ m, Reads [e] p m ∧ Reads es m q := by
  have hsplit : ((e :: es).filter fun e => e.1 ∉ reserved) =
      ([e].filter fun e => e.1 ∉ reserved) ++ es.filter fun e => e.1 ∉ reserved :=
    List.filter_append [e] es
  constructor
  -- What is read first is taken of each reserved name by itself, and the rest goes on from there.
  · intro h
    obtain ⟨filter, hfilter, hfilter'⟩ := (taken_cons hnew).mp h.filter
    obtain ⟨sorts, hsorts, hsorts'⟩ := (taken_cons hnew).mp h.sorts
    obtain ⟨index, hindex, hindex'⟩ := (taken_cons hnew).mp h.pageIndex
    obtain ⟨size, hsize, hsize'⟩ := (taken_cons hnew).mp h.pageSize
    have hparams := h.params
    rw [hsplit, ← List.append_assoc] at hparams
    -- In between stand the parameters that the first argument adds.
    have hdistinct : (Entries.names
        (p.params.entries ++ [e].filter fun e => e.1 ∉ reserved)).Nodup := by
      have hall := q.params.distinct
      rw [hparams, Entries.names, List.map_append] at hall
      exact (List.nodup_append.mp hall).1
    exact ⟨⟨filter, sorts, index, size, ⟨_, hdistinct⟩⟩,
      ⟨hfilter, hsorts, hindex, hsize, rfl⟩, ⟨hfilter', hsorts', hindex', hsize', hparams⟩⟩
  · rintro ⟨m, h, h'⟩
    refine ⟨(taken_cons hnew).mpr ⟨_, h.filter, h'.filter⟩,
      (taken_cons hnew).mpr ⟨_, h.sorts, h'.sorts⟩,
      (taken_cons hnew).mpr ⟨_, h.pageIndex, h'.pageIndex⟩,
      (taken_cons hnew).mpr ⟨_, h.pageSize, h'.pageSize⟩, ?_⟩
    rw [h'.params, h.params, hsplit, List.append_assoc]

/-! ## §3 All arguments -/

/-- Reading new arguments one after another leads to what each of them says by itself. -/
theorem foldlM_read_iff {es : List (String × Json)} (hes : (Entries.names es).Nodup)
    {p q : Partly} (hnew : ∀ e ∈ es, e.1 ∉ p.params.names) :
    es.foldlM Partly.read p = .ok q ↔ Reads es p q := by
  -- By induction on the arguments, with what has been read so far growing.
  induction es generalizing p with
  | nil =>
    constructor
    · intro h
      exact Except.ok.inj h ▸ .nil p
    · exact fun h => congrArg Except.ok ((Reads.nil p).unique h)
  | cons e es ih =>
    obtain ⟨he, hrest⟩ := List.nodup_cons.mp hes
    obtain ⟨henew, hesnew⟩ := List.forall_mem_cons.mp hnew
    -- What comes after the first argument is new after it, too.
    have hnext : ∀ m, Reads [e] p m → (es.foldlM Partly.read m = .ok q ↔ Reads es m q) := by
      intro m hm
      refine ih hrest fun e' he' hmem => ?_
      rw [Dictionary.names, Entries.names, hm.params, List.map_append, List.mem_append] at hmem
      rcases hmem with hmem | hmem
      · exact hesnew e' he' hmem
      · obtain ⟨e'', he'', hsame⟩ := List.mem_map.mp hmem
        obtain rfl := List.mem_singleton.mp (List.mem_filter.mp he'').1
        exact he (hsame ▸ List.mem_map_of_mem he')
    rw [List.foldlM_cons, reads_cons_iff he]
    constructor
    · intro h
      cases hm : p.read e with
      | error err =>
        rw [hm] at h
        cases h
      | ok m =>
        rw [hm] at h
        have hreads := (reads_single_iff henew).mpr hm
        exact ⟨m, hreads, (hnext m hreads).mp h⟩
    · rintro ⟨m, hm, h⟩
      rw [(reads_single_iff henew).mp hm]
      exact (hnext m hm).mpr h

/-- The arguments say together what each of them says by itself. -/
theorem parse_ok_iff {args : Record} {parsed : SqlArgs} :
    parse args = .ok parsed ↔ ∃ q, Reads args.entries {} q ∧ q.finish = parsed := by
  have hread : ∀ q, args.entries.foldlM Partly.read {} = .ok q ↔ Reads args.entries {} q :=
    fun q => foldlM_read_iff args.distinct fun e _ => List.not_mem_nil
  rw [parse]
  -- Reading starts with nothing, so every name is new.
  constructor
  · intro h
    cases hq : args.entries.foldlM Partly.read {} with
    | error err =>
      rw [hq] at h
      cases h
    | ok q =>
      rw [hq] at h
      exact ⟨q, (hread q).mp hq, Except.ok.inj h⟩
  · rintro ⟨q, hq, rfl⟩
    rw [(hread q).mpr hq]
    rfl

/-! ## §4 Their order -/

/-- The arguments that are no reserved ones can be parameters. -/
theorem nodup_kept (args : Record) :
    (Entries.names (args.entries.filter fun e => e.1 ∉ reserved)).Nodup :=
  args.distinct.sublist (List.filter_sublist.map Prod.fst)

/-- In another order the arguments say the same, only with their parameters in this order. -/
theorem Reads.rearranged {args args' : Record} (h : args.entries.Perm args'.entries) {q : Partly}
    (hq : Reads args.entries {} q) : ∃ q', Reads args'.entries {} q' ∧
      q' = { q with params := q'.params } ∧ q.params.entries.Perm q'.params.entries := by
  have hfound : ∀ name, Entries.find? name args'.entries = Entries.find? name args.entries :=
    Dictionary.get?_eq_of_perm h
  refine ⟨{ q with params := ⟨_, nodup_kept args'⟩ }, ?_, rfl, ?_⟩
  -- The reserved ones are found by their names; the parameters stand in the new order.
  · refine ⟨?_, ?_, ?_, ?_, rfl⟩
    · exact hfound "filter" ▸ hq.filter
    · exact hfound "sort" ▸ hq.sorts
    · exact hfound "pageIndex" ▸ hq.pageIndex
    · exact hfound "pageSize" ▸ hq.pageSize
  · rw [hq.params]
    exact h.filter _

/-- A value is taken if there is none, or if what there is can be read. -/
theorem exists_taken_iff {α : Type} {read : Json → Except FlowError α} {old : α}
    {v? : Option Json} :
    (∃ new, taken read old v? = .ok new) ↔ ∀ v, v? = some v → ∃ new, read v = .ok new := by
  cases v? with
  | none => simp [taken]
  | some v => simp [taken]

/-- The arguments are accepted if each of the reserved ones can be read by itself. -/
theorem exists_parse_iff {args : Record} :
    (∃ parsed, parse args = .ok parsed) ↔
      (∀ v, args.get? "filter" = some v → ∃ filter, readFilter v = .ok filter) ∧
      (∀ v, args.get? "sort" = some v → ∃ sorts, readSorts v = .ok sorts) ∧
      (∀ v, args.get? "pageIndex" = some v → ∃ n, readPageNumber "pageIndex" v = .ok n) ∧
      ∀ v, args.get? "pageSize" = some v → ∃ n, readPageNumber "pageSize" v = .ok n := by
  constructor
  -- The four are independent, so what is known after all arguments is put together from them.
  · rintro ⟨parsed, h⟩
    obtain ⟨q, hq, -⟩ := parse_ok_iff.mp h
    exact ⟨exists_taken_iff.mp ⟨_, hq.filter⟩, exists_taken_iff.mp ⟨_, hq.sorts⟩,
      exists_taken_iff.mp ⟨_, hq.pageIndex⟩, exists_taken_iff.mp ⟨_, hq.pageSize⟩⟩
  · rintro ⟨hfilter, hsorts, hindex, hsize⟩
    obtain ⟨filter, hfilter⟩ := exists_taken_iff.mpr hfilter
    obtain ⟨sorts, hsorts⟩ := exists_taken_iff.mpr hsorts
    obtain ⟨index, hindex⟩ := exists_taken_iff.mpr hindex
    obtain ⟨size, hsize⟩ := exists_taken_iff.mpr hsize
    exact ⟨_, parse_ok_iff.mpr ⟨⟨filter, sorts, index, size, ⟨_, nodup_kept args⟩⟩,
      ⟨hfilter, hsorts, hindex, hsize, rfl⟩, rfl⟩⟩

/-- The argument is there and is not null. -/
def Given (args : Record) (name : String) : Prop := ∃ v, args.get? name = some v ∧ v ≠ .null

/-- The argument is there and spells the number. -/
def GivenAs (args : Record) (name : String) (n : Nat) : Prop :=
  ∃ v, args.get? name = some v ∧ v.Spells n

theorem taken_some_iff {args : Record} {name : String} {w : UInt64} :
    taken (readPageNumber name) none (args.get? name) = .ok (some w) ↔
      GivenAs args name w.toNat := by
  unfold taken GivenAs
  cases args.get? name with
  | none => simp
  | some v => simp [readPageNumber_some_iff]

theorem taken_none_iff {args : Record} {name : String} :
    taken (readPageNumber name) none (args.get? name) = .ok none ↔ ¬ Given args name := by
  unfold taken Given
  cases args.get? name with
  | none => simp
  | some v => simp [readPageNumber_none_iff]

theorem ne_none_iff_given {args : Record} {name : String} {n? : Option UInt64}
    (h : taken (readPageNumber name) none (args.get? name) = .ok n?) :
    n? ≠ none ↔ Given args name := by
  rw [ne_eq, ← Classical.not_not (a := Given args name), ← taken_none_iff, h, Except.ok.injEq]

theorem eq_some_iff_givenAs {args : Record} {name : String} {n? : Option UInt64} {w : UInt64}
    (h : taken (readPageNumber name) none (args.get? name) = .ok n?) :
    n? = some w ↔ GivenAs args name w.toNat := by
  rw [← taken_some_iff, h, Except.ok.injEq]

/-- A page is both of its numbers. -/
theorem finish_page_iff {q : Partly} {index size : UInt64} :
    q.finish.page = some (index, size) ↔ q.pageIndex = some index ∧ q.pageSize = some size := by
  unfold Partly.finish
  cases q.pageIndex <;> cases q.pageSize <;> simp

theorem finish_page_ne_none_iff {q : Partly} :
    q.finish.page ≠ none ↔ q.pageIndex ≠ none ∧ q.pageSize ≠ none := by
  unfold Partly.finish
  cases q.pageIndex <;> cases q.pageSize <;> simp

/-- None of the parameters has a reserved name. -/
theorem Reads.get?_params {args : Record} {q : Partly} (h : Reads args.entries {} q) {name : String}
    (hname : name ∈ reserved) : q.params.get? name = none := by
  -- A parameter is an argument that was kept, and those with a reserved name are not.
  refine Dictionary.get?_eq_none_iff.mpr fun hmem => ?_
  obtain ⟨e, he, rfl⟩ := List.mem_map.mp hmem
  rw [h.params, List.mem_append, List.mem_filter, decide_eq_true_eq] at he
  rcases he with he | he
  · cases he
  · exact he.2 hname

/-- Arguments that are accepted in one order are accepted in every other. -/
theorem exists_parse_of_perm {args args' : Record} (hperm : args.entries.Perm args'.entries)
    (h : ∃ parsed, parse args = .ok parsed) : ∃ parsed, parse args' = .ok parsed := by
  obtain ⟨parsed, h⟩ := h
  obtain ⟨q, hq, -⟩ := parse_ok_iff.mp h
  obtain ⟨q', hq', -⟩ := hq.rearranged hperm
  exact ⟨_, parse_ok_iff.mpr ⟨q', hq', rfl⟩⟩

/-- Arguments in two orders are both accepted or both refused, and then say the same but for the
order of the parameters.  They are accepted if each of the reserved ones can be read by itself.  Once
accepted, the parameters are the arguments of all other names in their order, none of them has a
reserved name, and there is a page if both of its numbers are given and not null, which is then what
they spell. -/
theorem order_irrelevant :
    (∀ args args' : Record, args.entries.Perm args'.entries →
      ((∃ parsed, parse args = .ok parsed) ↔ ∃ parsed, parse args' = .ok parsed) ∧
      ∀ parsed parsed', parse args = .ok parsed → parse args' = .ok parsed' →
        parsed'.filter = parsed.filter ∧ parsed'.sorts = parsed.sorts ∧
        parsed'.page = parsed.page ∧ parsed.params.entries.Perm parsed'.params.entries) ∧
    (∀ args : Record, (∃ parsed, parse args = .ok parsed) ↔
      (∀ v, args.get? "filter" = some v → ∃ filter, readFilter v = .ok filter) ∧
      (∀ v, args.get? "sort" = some v → ∃ sorts, readSorts v = .ok sorts) ∧
      (∀ v, args.get? "pageIndex" = some v → ∃ n, readPageNumber "pageIndex" v = .ok n) ∧
      ∀ v, args.get? "pageSize" = some v → ∃ n, readPageNumber "pageSize" v = .ok n) ∧
    ∀ (args : Record) (parsed : SqlArgs), parse args = .ok parsed →
      parsed.params.entries = args.entries.filter (fun e => e.1 ∉ reserved) ∧
      (∀ name ∈ reserved, parsed.params.get? name = none) ∧
      (parsed.page ≠ none ↔ Given args "pageIndex" ∧ Given args "pageSize") ∧
      ∀ index size, parsed.page = some (index, size) ↔
        GivenAs args "pageIndex" index.toNat ∧ GivenAs args "pageSize" size.toNat := by
  refine ⟨fun args args' hperm => ⟨?_, fun parsed parsed' h h' => ?_⟩,
    fun args => exists_parse_iff, fun args parsed h => ?_⟩
  · exact ⟨exists_parse_of_perm hperm, exists_parse_of_perm hperm.symm⟩
  · obtain ⟨q, hq, rfl⟩ := parse_ok_iff.mp h
    obtain ⟨q', hq', rfl⟩ := parse_ok_iff.mp h'
    obtain ⟨r, hr, hsame, hparams⟩ := hq.rearranged hperm
    -- Only one thing can be read of the arguments in the other order.
    obtain rfl := hr.unique hq'
    rw [hsame]
    exact ⟨rfl, rfl, rfl, hparams⟩
  · obtain ⟨q, hq, rfl⟩ := parse_ok_iff.mp h
    refine ⟨hq.params, fun name hname => hq.get?_params hname, ?_, fun index size => ?_⟩
    · rw [finish_page_ne_none_iff, ne_none_iff_given hq.pageIndex, ne_none_iff_given hq.pageSize]
    · rw [finish_page_iff, eq_some_iff_givenAs hq.pageIndex, eq_some_iff_givenAs hq.pageSize]

/-- The second page of the members of a club. -/
def secondPage : Record where
  entries := [("club", .string "chess"), ("pageSize", .ofInt64 10), ("sort", .string "name"),
    ("filter", .null), ("pageIndex", .string " +02 ")]

/-- The arguments of the page in another order. -/
def pageSecond : Record where
  entries := [("pageIndex", .string " +02 "), ("filter", .null), ("sort", .string "name"),
    ("pageSize", .ofInt64 10), ("club", .string "chess")]

/-- The page is the same in both orders, and its numbers are what the arguments spell. -/
theorem secondPage_order_irrelevant :
    secondPage.entries.Perm pageSecond.entries ∧
    (∃ parsed parsed', parse secondPage = .ok parsed ∧ parse pageSecond = .ok parsed' ∧
      parsed'.page = parsed.page ∧ parsed.page = some (2, 10) ∧
      parsed.params.entries = [("club", .string "chess")]) ∧
    GivenAs secondPage "pageIndex" 2 ∧ GivenAs secondPage "pageSize" 10 := by
  obtain ⟨horder, -, hparsed⟩ := order_irrelevant
  -- One page is the other from back to front.
  have hperm : secondPage.entries.Perm pageSecond.entries := (List.reverse_perm _).symm
  obtain ⟨parsed, h⟩ : ∃ parsed, parse secondPage = .ok parsed := ⟨_, rfl⟩
  obtain ⟨parsed', h'⟩ := (horder _ _ hperm).1.mp ⟨parsed, h⟩
  obtain ⟨-, -, hpage, -⟩ := (horder _ _ hperm).2 parsed parsed' h h'
  obtain ⟨hparams, -, -, hspelled⟩ := hparsed secondPage parsed h
  have htwo : parsed.page = some (2, 10) := by
    obtain rfl := Except.ok.inj h
    rfl
  obtain ⟨hindex, hsize⟩ := (hspelled 2 10).mp htwo
  exact ⟨hperm, ⟨parsed, parsed', h, h', hpage, htwo, hparams⟩, hindex, hsize⟩

end SqlArgs

end SqlService
