import Mathlib.Data.List.Basic
import SqlService.Proofs.Filter.Parameters
import SqlService.Proofs.Text.Words
import SqlService.Query.Basic

/-!
# Values of composed queries

A query is composed of a base statement, a condition, an order and a page.  None of the seams
between them continues what stands in front of it, so the composed statement has the names of the
base and then those of the filter, and is bound to their values in this order.

Main statement: `bound_values`.
-/

namespace SqlService

open Statement (Mentions Seam inert liveNames)

namespace Query

/-- The values that the filter of a query binds, from left to right. -/
def filterValues (q : Query) : List Json :=
  match q.filter with
  | some f => f.values
  | none => []

/-- What is expected of the parts of a query: a closed base whose names the caller has bound, a
well-formed filter, and plain words for columns and generated names. -/
structure Composable (q : Query) : Prop where
  closed : Statement.closed q.dialect.backslashEscapes q.sql.toList = true
  bound : ∀ n ∈ liveNames q.dialect.backslashEscapes q.sql.toList, q.params.contains n = true
  wellFormed : ∀ f, q.filter = some f → f.WellFormed
  columns : ∀ f, q.filter = some f → ∀ leaf ∈ f.leaves, Text.isWord leaf.1 = true
  sorts : ∀ s ∈ q.sorts, Text.isWord s.name = true
  stem : Text.isWord q.stem = true

/-! ## §1 Names of composed statements -/

variable {backslash : Bool} {names more : List String}

theorem withCondition_mentions {sql condition : String} (h : Mentions backslash sql.toList names)
    (hcondition : Mentions backslash condition.toList more) :
    Mentions backslash (withCondition sql condition).toList (names ++ more) := by
  unfold withCondition
  -- The condition follows a derived table or the base itself; the seam starts with a literal both
  -- times.
  split
  · have hfrom : ∀ e ∈ "SELECT * FROM (".toList, inert e = true := by simp [inert]
    have hwhere : ∀ e ∈ ") N WHERE ".toList, inert e = true := by simp [inert]
    have hseam : Seam (") N WHERE ".toList ++ condition.toList) :=
      Statement.seam_append (by decide) _
    have hall := (h.append hseam (hcondition.prepend hwhere)).prepend hfrom
    simpa only [String.toList_append, List.append_assoc] using hall
  · have hwhere : ∀ e ∈ "\nWHERE ".toList, inert e = true := by simp [inert]
    have hseam : Seam ("\nWHERE ".toList ++ condition.toList) :=
      Statement.seam_append (by decide) _
    have hall := h.append hseam (hcondition.prepend hwhere)
    simpa only [String.toList_append, List.append_assoc] using hall

/-- A clause that starts with a literal and is inert throughout mentions nothing. -/
theorem clause_mentions {sql : String} (clause : String) (h : Mentions backslash sql.toList names)
    (hseam : Seam clause.toList) (hclause : ∀ c ∈ clause.toList, inert c = true) :
    Mentions backslash (sql ++ clause).toList names := by
  rw [String.toList_append]
  exact h.extend hseam hclause

theorem sort_inert {s : SortKey} (h : Text.isWord s.name = true) :
    ∀ c ∈ s.text.toList, inert c = true := by
  have hname : ∀ c ∈ s.name.toList, inert c = true := fun c hc =>
    Statement.inert_of_isWordChar (List.all_eq_true.mp h c hc)
  have hdesc : ∀ c ∈ " DESC".toList, inert c = true := by simp [inert]
  intro c hc
  unfold SortKey.text at hc
  split at hc
  · rw [String.toList_append, List.mem_append] at hc
    exact hc.elim (hname c) (hdesc c)
  · exact hname c hc

theorem order_mentions {sql : String} {sorts : List SortKey}
    (h : Mentions backslash sql.toList names) (hsorts : ∀ s ∈ sorts, Text.isWord s.name = true) :
    Mentions backslash (sql ++ orderClause sorts).toList names := by
  -- The keys of an order are plain words with commas between.
  have hlist : ∀ c ∈ (String.intercalate "," (sorts.map SortKey.text)).toList, inert c = true := by
    apply Text.forall_mem_intercalate
    · simp [inert]
    · intro text htext
      obtain ⟨s, hs, rfl⟩ := List.mem_map.mp htext
      exact sort_inert (hsorts s hs)
  unfold orderClause
  split
  · rwa [String.append_empty]
  · apply clause_mentions _ h
    · rw [String.toList_append]
      exact Statement.seam_append (by decide) _
    · intro c hc
      have horder : ∀ c ∈ "\nORDER BY ".toList, inert c = true := by simp [inert]
      rw [String.toList_append, List.mem_append] at hc
      exact hc.elim (horder c) (hlist c)

theorem number_inert (n : Nat) : ∀ c ∈ (toString n).toList, inert c = true := fun _ hc =>
  Statement.inert_of_isWordChar (Statement.isWordChar_of_mem_toString hc)

theorem page_mentions (d : Dialect) {sql : String} (offset limit : UInt64)
    (h : Mentions backslash sql.toList names) :
    Mentions backslash (d.page sql offset limit).toList names := by
  -- The two ways to write a page differ in the order of the numbers and in what stands between.
  have hlimit : ∀ c ∈ "\nLIMIT ".toList, inert c = true := by simp [inert]
  have hclause : ∀ (m n : Nat) (between : String), (∀ c ∈ between.toList, inert c = true) →
      Mentions backslash
        (sql ++ ("\nLIMIT " ++ toString m ++ between ++ toString n)).toList names := by
    intro m n between hbetween
    apply clause_mentions _ h
    · rw [String.append_assoc, String.append_assoc, String.toList_append]
      exact Statement.seam_append (by decide) _
    · intro c hc
      simp only [String.toList_append, List.mem_append] at hc
      rcases hc with ((hc | hc) | hc) | hc
      · exact hlimit c hc
      · exact number_inert m c hc
      · exact hbetween c hc
      · exact number_inert n c hc
  have hcomma := hclause offset.toNat limit.toNat "," (by simp [inert])
  have hoffset := hclause limit.toNat offset.toNat " OFFSET " (by simp [inert])
  cases d with
  | mysql => simpa only [Dialect.page, String.append_assoc] using hcomma
  | postgres => simpa only [Dialect.page, String.append_assoc] using hoffset
  | sqlite => simpa only [Dialect.page, String.append_assoc] using hoffset

/-! ## §2 Composed statements -/

/-- The names that the filter of a query generates. -/
def generated (q : Query) : List String := Numbering.names q.stem 0 q.filterValues.length

/-- The statement has the names of the base and then the generated ones, which the caller does not
use, and its parameters are the caller's and then the generated ones. -/
structure Composes (q : Query) (s : BoundStatement) : Prop where
  mentions : Mentions q.dialect.backslashEscapes s.sql.toList
    (liveNames q.dialect.backslashEscapes q.sql.toList ++ q.generated)
  params : ∀ n, s.params.get? n =
    (q.params.get? n).or ((Numbering.bindMany {} q.stem q.filterValues).params.get? n)
  fresh : ∀ n ∈ q.generated, q.params.get? n = none

theorem composes_of_filtered {q : Query} {s : BoundStatement} (hq : q.Composable)
    (h : q.filtered = .ok s) : q.Composes s := by
  -- Nothing in a closed base runs on into what comes behind it.
  have hbase := Mentions.of_closed hq.closed
  unfold filtered at h
  cases hfilter : q.filter with
  | none =>
    -- Without a filter the statement is the base with the caller's parameters.
    have hvalues : q.filterValues = [] := by rw [filterValues, hfilter]
    have hgenerated : q.generated = [] := by rw [generated, hvalues]; rfl
    rw [hfilter] at h
    obtain rfl : (⟨q.sql, q.params⟩ : BoundStatement) = s := Except.ok.inj h
    constructor
    case mentions => rwa [hgenerated, List.append_nil]
    case params =>
      intro n
      rw [hvalues]
      exact Option.or_none.symm
    case fresh =>
      rw [hgenerated]
      exact fun n hn => absurd hn List.not_mem_nil
  | some f =>
    -- The filter is compiled from a fresh numbering, so its names are the generated ones.
    have hvalues : q.filterValues = f.values := by rw [filterValues, hfilter]
    have hgenerated : (Numbering.bindMany {} q.stem f.values).params.names = q.generated := by
      rw [generated, hvalues, Numbering.names_bindMany]
    have hcondition : Mentions q.dialect.backslashEscapes (f.condition q.dialect q.stem 0).toList
        (Numbering.names q.stem 0 f.values.length) :=
      Filter.condition_mentions hq.stem f (hq.columns f hfilter) 0
    rw [hfilter] at h
    simp only [Filter.compile_eq q.dialect q.stem f {} (hq.wellFormed f hfilter), hgenerated] at h
    split at h
    · -- A generated name that the caller uses is refused.
      cases h
    · next hnone =>
      have hfresh : ∀ n ∈ q.generated, q.params.get? n = none := by
        intro n hn
        have hcontains := List.find?_eq_none.mp hnone n hn
        simpa [Dictionary.contains] using hcontains
      obtain rfl := Except.ok.inj h
      constructor
      case mentions =>
        rw [generated, hvalues]
        exact withCondition_mentions hbase hcondition
      case params =>
        intro n
        rw [hvalues]
        exact Dictionary.get?_insertAll _ _ n
      case fresh => exact hfresh

theorem composes_of_build {q : Query} {s : BoundStatement} (hq : q.Composable)
    (h : q.build = .ok s) : q.Composes s := by
  unfold build at h
  cases hfiltered : q.filtered with
  | error e =>
    rw [hfiltered] at h
    cases h
  | ok filtered =>
    -- The order and the page come behind the filtered statement and mention nothing.
    have hcomposes := composes_of_filtered hq hfiltered
    have horder := order_mentions hcomposes.mentions hq.sorts
    rw [hfiltered] at h
    simp only [bind, Except.bind] at h
    split at h
    · cases hoffset : q.offset with
      | error e =>
        rw [hoffset] at h
        cases h
      | ok offset =>
        rw [hoffset] at h
        obtain rfl := Except.ok.inj h
        exact ⟨page_mentions _ offset q.pageSize horder, hcomposes.params, hcomposes.fresh⟩
    · obtain rfl := Except.ok.inj h
      exact ⟨horder, hcomposes.params, hcomposes.fresh⟩

/-- A composed statement is bound to the values of its base and then to those of its filter, and no
name is left live in its text. -/
theorem bound_values {q : Query} {built : BoundStatement} (hq : q.Composable)
    (h : q.build = .ok built) :
    (Statement.bind q.dialect built.sql built.params).values =
        (Statement.bind q.dialect q.sql q.params).values ++ q.filterValues.map Scalar.ofJson ∧
      liveNames q.dialect.backslashEscapes
        (Statement.bind q.dialect built.sql built.params).sql.toList = [] := by
  have hcomposes := composes_of_build hq h
  -- The names of the statement are those of the base and then the generated ones.
  have hnames := hcomposes.mentions.liveNames_eq
  have hgenerated : ∀ n ∈ q.generated, built.params.get? n =
      (Numbering.bindMany {} q.stem q.filterValues).params.get? n := by
    intro n hn
    rw [hcomposes.params, hcomposes.fresh n hn, Option.none_or]
  -- The caller's values stay, as no generated name is one of the caller's.
  have hcaller : ∀ n, q.params.contains n = true → built.params.get? n = q.params.get? n := by
    intro n hn
    rw [Dictionary.contains, Option.isSome_iff_exists] at hn
    obtain ⟨v, hv⟩ := hn
    rw [hcomposes.params, hv, Option.some_or]
  have hbound : ∀ n ∈ q.generated, built.params.contains n = true := by
    intro n hn
    rw [generated, ← Numbering.names_bindMany] at hn
    rw [Dictionary.contains, hgenerated n (by rwa [generated, ← Numbering.names_bindMany])]
    exact Dictionary.contains_iff.mpr hn
  have hbase : ∀ n ∈ liveNames q.dialect.backslashEscapes q.sql.toList,
      built.params.contains n = true := by
    intro n hn
    rw [Dictionary.contains, hcaller n (hq.bound n hn)]
    exact hq.bound n hn
  constructor
  · let first := Statement.boundBy q.dialect.numbered q.params
      (liveNames q.dialect.backslashEscapes q.sql.toList) []
    have hfirst : ∀ n ∈ first, q.params.contains n = true := by
      intro n hn
      rcases Statement.mem_boundBy hn with hn | hn
      · exact hq.bound n hn
      · cases hn
    -- The base binds what it binds alone, and every generated name comes after that.
    have hsame : Statement.boundBy q.dialect.numbered built.params
        (liveNames q.dialect.backslashEscapes q.sql.toList) [] = first :=
      Statement.boundBy_congr fun n hn => (hbase n hn).trans (hq.bound n hn).symm
    have hnew : ∀ n ∈ q.generated, n ∉ first := by
      intro n hn hmem
      have hcontains := hfirst n hmem
      rw [Dictionary.contains, hcomposes.fresh n hn] at hcontains
      cases hcontains
    have hall : Statement.boundBy q.dialect.numbered built.params q.generated first =
        first ++ q.generated :=
      Statement.boundBy_of_nodup hbound (Numbering.nodup_names _ _ _) hnew
    have hvalues := Numbering.values_bindMany q.stem q.filterValues
    rw [Statement.values_bind, Statement.values_bind, hnames, Statement.boundBy_append, hsame, hall,
      List.filterMap_append, List.map_append,
      List.filterMap_congr fun n hn => hcaller n (hfirst n hn),
      List.filterMap_congr fun n hn => hgenerated n hn]
    rw [show q.generated = Numbering.names q.stem 0 q.filterValues.length from rfl, hvalues]
  · -- Every live name has a value, those of the base from the caller.
    rw [Statement.liveNames_bind, hnames, List.filter_eq_nil_iff]
    intro n hn
    rcases List.mem_append.mp hn with hn | hn
    · simp [hbase n hn]
    · simp [hbound n hn]

/-- A page of a filtered and sorted query over a base with a condition and a literal of its own. -/
def orders : Query where
  dialect := .mysql
  sql := "SELECT '@x' FROM orders WHERE paid = @paid"
  filter := some (.logic .and
    [.compare "note" .contains (.string "gift"), .compare "state" .inList (.string "new,sent")])
  sorts := [.desc "placed"]
  pageIndex := 2
  pageSize := 10
  params := Dictionary.ofList [("paid", .bool true)]

/-- The page of orders is bound to the caller's value and then to those of the filter. -/
theorem orders_bound : ∃ built, orders.build = .ok built ∧
    (Statement.bind .mysql built.sql built.params).values =
      [.bool true, .text "gift", .text "new", .text "sent"] := by
  have hcomposable : orders.Composable := by
    constructor
    case closed => decide +kernel
    case bound => decide +kernel
    case wellFormed =>
      intro f hf
      cases hf
      decide +kernel
    case columns =>
      intro f hf
      cases hf
      decide +kernel
    case sorts => decide
    case stem => decide
  have hbase : (Statement.bind .mysql orders.sql orders.params).values = [.bool true] := by
    decide +kernel
  refine ⟨_, rfl, ?_⟩
  apply (bound_values hcomposable rfl).1.trans
  rw [show orders.dialect = .mysql from rfl, hbase]
  decide +kernel

end Query

end SqlService
