import SqlService.Proofs.Filter.Numbering
import SqlService.Proofs.Query.BoundValues

/-!
# Parameters of filtered statements

A filtered statement has the parameters that its filter generates and, behind them, those of the
caller.  They are put into one dictionary, where a name that both have would lose one of its values.
Such a name is found before, so that the two sets of names never meet.

Main statement: `filtered_merges`.
-/

namespace SqlService

/-- Entries under new names are added at the end. -/
theorem Dictionary.entries_insertAll {α : Type} {d : Dictionary α} {es : List (String × α)}
    (hes : (Entries.names es).Nodup) (hnew : ∀ name ∈ Entries.names es, name ∉ d.names) :
    (d.insertAll es).entries = d.entries ++ es := by
  induction es generalizing d with
  | nil => simp [insertAll]
  | cons e es ih =>
    obtain ⟨n, v⟩ := e
    obtain ⟨hn, hrest⟩ := List.nodup_cons.mp hes
    obtain ⟨hfirst, hlater⟩ := List.forall_mem_cons.mp hnew
    have hput : (d.insert n v).entries = d.entries ++ [(n, v)] := Entries.put_of_not_mem hfirst
    have hnames : (d.insert n v).names = d.names ++ [n] := by
      rw [names_insert]
      exact if_neg hfirst
    -- The names that follow are not the one that has just been added.
    have hstill : ∀ name ∈ Entries.names es, name ∉ (d.insert n v).names := by
      intro name hname hmem
      rw [hnames] at hmem
      rcases List.mem_append.mp hmem with hmem | hmem
      · exact hlater name hname hmem
      · rw [List.mem_singleton.mp hmem] at hname
        exact hn hname
    have htail := ih hrest hstill
    rw [insertAll] at htail
    rw [insertAll, List.foldl_cons, htail, hput, List.append_assoc]
    rfl

namespace Query

variable {q : Query} {f : Filter}

/-! ## §1 Outcomes -/

/-- The values of the filter in the order of the generated names. -/
theorem filterValues_of_filter (hfilter : q.filter = some f) : q.filterValues = f.values := by
  rw [filterValues, hfilter]

/-- The parameters that the filter generates. -/
def generatedParams (q : Query) : Record := (Numbering.bindMany {} q.stem q.filterValues).params

theorem entries_generatedParams (q : Query) :
    q.generatedParams.entries = q.generated.zip q.filterValues :=
  Numbering.entries_bindMany q.stem q.filterValues

theorem names_generatedParams (q : Query) : q.generatedParams.names = q.generated :=
  Numbering.names_bindMany q.stem q.filterValues

/-- A malformed filter is refused for its first malformed node, before the names are compared. -/
theorem filtered_of_malformed (hfilter : q.filter = some f) (hf : ¬ f.WellFormed) :
    ∃ fault, f.nodes.findSome? Filter.fault? = some fault ∧
      q.filtered = .error (.invalidFilter fault) := by
  cases hfault : f.nodes.findSome? Filter.fault? with
  | none =>
    -- Without a fault the filter would be well formed.
    have hsound : Filter.verdict f.nodes = .ok () := by rw [Filter.verdict, hfault]
    exact absurd ((Filter.wellFormed_iff f).mpr hsound) hf
  | some fault =>
    refine ⟨fault, rfl, ?_⟩
    have hverdict : Filter.verdict f.nodes = .error (.invalidFilter fault) := by
      rw [Filter.verdict, hfault]
    have hresult : (f.compile q.dialect q.stem {}).1 = .error (.invalidFilter fault) := by
      rw [← Filter.map_eq_error_iff, (Filter.compile_reaches q.dialect q.stem f {}).1, hverdict]
    obtain ⟨numbering, hcompile⟩ : ∃ numbering, f.compile q.dialect q.stem {} =
        (.error (.invalidFilter fault), numbering) := ⟨_, Prod.ext hresult rfl⟩
    unfold filtered
    rw [hfilter]
    simp only [hcompile]

/-- A well-formed filter leaves one question open: whether a generated name is the caller's. -/
theorem filtered_of_wellFormed (hfilter : q.filter = some f) (hf : f.WellFormed) :
    q.filtered =
      match q.generated.find? q.params.contains with
      | some name => .error (.parameterCollision name)
      | none =>
        .ok ⟨withCondition q.sql (f.condition q.dialect q.stem 0),
          q.generatedParams.insertAll q.params.entries⟩ := by
  have hparams : (Numbering.bindMany {} q.stem f.values).params = q.generatedParams := by
    rw [generatedParams, filterValues_of_filter hfilter]
  unfold filtered
  rw [hfilter]
  cases hfound : q.generated.find? q.params.contains <;>
    simp only [Filter.compile_eq q.dialect q.stem f {} hf, hparams, names_generatedParams, hfound]

/-- The collision that is reported is the first generated name that the caller uses. -/
theorem filtered_eq_collision_iff (hfilter : q.filter = some f) (hf : f.WellFormed)
    {name : String} :
    q.filtered = .error (.parameterCollision name) ↔
      q.params.contains name = true ∧ ∃ before after, q.generated = before ++ name :: after ∧
        ∀ other ∈ before, q.params.contains other = false := by
  -- The search stops at the first name that the caller uses.
  have hfound : q.generated.find? q.params.contains = some name ↔
      q.params.contains name = true ∧ ∃ before after, q.generated = before ++ name :: after ∧
        ∀ other ∈ before, q.params.contains other = false := by
    simp [List.find?_eq_some_iff_append]
  rw [← hfound, filtered_of_wellFormed hfilter hf]
  cases q.generated.find? q.params.contains <;> simp

theorem filtered_of_fresh (hfilter : q.filter = some f) (hf : f.WellFormed)
    (hfresh : ∀ name ∈ q.generated, q.params.contains name = false) :
    q.filtered = .ok ⟨withCondition q.sql (f.condition q.dialect q.stem 0),
      q.generatedParams.insertAll q.params.entries⟩ := by
  have hnone : q.generated.find? q.params.contains = none :=
    List.find?_eq_none.mpr (by simpa using hfresh)
  rw [filtered_of_wellFormed hfilter hf, hnone]

/-! ## §2 The merge -/

/-- Where the names do not meet, nothing is overwritten. -/
theorem entries_merged (hfresh : ∀ name ∈ q.generated, q.params.contains name = false) :
    (q.generatedParams.insertAll q.params.entries).entries =
      q.generated.zip q.filterValues ++ q.params.entries := by
  -- No name of the caller is a generated one, so all of them are added behind.
  have hnew : ∀ name ∈ Entries.names q.params.entries, name ∉ q.generatedParams.names := by
    intro name hname hmem
    rw [names_generatedParams] at hmem
    have hcontains : q.params.contains name = true := Dictionary.contains_iff.mpr hname
    rw [hfresh name hmem] at hcontains
    cases hcontains
  rw [Dictionary.entries_insertAll q.params.distinct hnew, entries_generatedParams]

/-- Parameters that hold each generated name with the value beside it give the values back. -/
theorem map_generated {params : Record}
    (h : ∀ e ∈ q.generated.zip q.filterValues, e ∈ params.entries) :
    q.generated.map params.get? = q.filterValues.map some := by
  have hlength : q.generated.length = q.filterValues.length := Numbering.length_names _ _ _
  calc q.generated.map params.get?
      = ((q.generated.zip q.filterValues).map Prod.fst).map params.get? := by
        rw [List.map_fst_zip hlength.le]
    _ = (q.generated.zip q.filterValues).map fun e => some e.2 := by
        rw [List.map_map]
        apply List.map_congr_left
        intro e he
        exact Dictionary.get?_eq_some_iff.mpr (h e he)
    _ = ((q.generated.zip q.filterValues).map Prod.snd).map some := by
        rw [List.map_map]
        rfl
    _ = q.filterValues.map some := by rw [List.map_snd_zip hlength.ge]

/-- Without a filter the base and the caller's parameters stay as they are.  A malformed filter is
refused whatever the parameters.  With a well-formed one the first generated name that is also one
of the caller's is refused; if there is none, the generated parameters come first, in order, and
then the caller's in theirs, and each name keeps its value. -/
theorem filtered_merges (q : Query) :
    (q.filter = none → q.filtered = .ok ⟨q.sql, q.params⟩) ∧
    ∀ f, q.filter = some f →
      (¬ f.WellFormed → ∃ fault, f.nodes.findSome? Filter.fault? = some fault ∧
        ∀ params, { q with params := params }.filtered = .error (.invalidFilter fault)) ∧
      (f.WellFormed →
        (∀ name, q.filtered = .error (.parameterCollision name) ↔
          q.params.contains name = true ∧ ∃ before after, q.generated = before ++ name :: after ∧
            ∀ other ∈ before, q.params.contains other = false) ∧
        ((∀ name ∈ q.generated, q.params.contains name = false) →
          ∃ s, q.filtered = .ok s ∧
            s.params.entries = q.generated.zip q.filterValues ++ q.params.entries ∧
            q.generated.map s.params.get? = q.filterValues.map some ∧
            ∀ name ∈ q.params.names, s.params.get? name = q.params.get? name)) := by
  refine ⟨fun hnone => ?_, fun f hfilter => ⟨fun hf => ?_, fun hf =>
    ⟨fun name => filtered_eq_collision_iff hfilter hf, fun hfresh => ?_⟩⟩⟩
  · unfold filtered
    rw [hnone]
  · obtain ⟨fault, hfault, -⟩ := filtered_of_malformed hfilter hf
    refine ⟨fault, hfault, fun params => ?_⟩
    -- The fault is one of the filter, whatever is bound.
    obtain ⟨fault', hfault', herror⟩ :=
      filtered_of_malformed (q := { q with params := params }) hfilter hf
    rw [hfault] at hfault'
    cases hfault'
    exact herror
  · have hentries := entries_merged hfresh
    refine ⟨_, filtered_of_fresh hfilter hf hfresh, hentries, map_generated fun e he => ?_,
      fun name hname => ?_⟩
    · rw [hentries]
      exact List.mem_append_left _ he
    · -- The caller's values were put in last.
      obtain ⟨v, hv⟩ := Option.isSome_iff_exists.mp (Dictionary.contains_iff.mpr hname)
      show (q.generatedParams.insertAll q.params.entries).get? name = _
      rw [Dictionary.get?_insertAll, hv, Option.some_or]

/-- A filter with three values over a base with a parameter of its own. -/
def invoices : Query where
  dialect := .postgres
  sql := "SELECT * FROM invoices WHERE tenant = @tenant"
  filter := some (.logic .or [.compare "state" .inList (.string "open,late"),
    .logic .not [.compare "note" .contains (.string "paid")]])
  params := Dictionary.ofList [("tenant", .string "acme")]

/-- Two of the generated names are the caller's, the later one first. -/
def invoicesTaken : Query :=
  { invoices with params := Dictionary.ofList [("P3", .null), ("P2", .null)] }

/-- The same, but there is nothing to negate. -/
def invoicesMalformed : Query :=
  { invoicesTaken with filter := some (.logic .or [.logic .not []]) }

theorem invoices_merge :
    (∃ s, invoices.filtered = .ok s ∧ s.params.entries =
      [("P1", .string "open"), ("P2", .string "late"), ("P3", .string "paid"),
        ("tenant", .string "acme")]) ∧
    invoicesTaken.filtered = .error (.parameterCollision "P2") ∧
    invoicesMalformed.filtered = .error (.invalidFilter (.negationArity 0)) := by
  obtain ⟨-, hmerges⟩ := (filtered_merges invoices).2 _ rfl
  obtain ⟨s, hs, hentries, -⟩ := (hmerges (by decide)).2 (by decide +kernel)
  obtain ⟨-, hrefuses⟩ := (filtered_merges invoicesTaken).2 _ rfl
  obtain ⟨hmalformed, -⟩ := (filtered_merges invoicesMalformed).2 _ rfl
  obtain ⟨fault, hfault, herror⟩ := hmalformed (by decide)
  refine ⟨⟨s, hs, hentries⟩, ?_, ?_⟩
  · exact ((hrefuses (by decide)).1 "P2").mpr
      ⟨by decide +kernel, ["P1"], ["P3"], by decide +kernel, by decide +kernel⟩
  · cases hfault
    exact herror _

end Query

end SqlService
