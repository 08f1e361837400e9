import SqlService.Flow.SqlArgs
import SqlService.Proofs.Filter.SortText
import SqlService.Proofs.Query.Sending
import SqlService.Proofs.Text.Lists

/-!
# Sort arguments

A sort order is an argument in the form of one text or of a list of texts, and a query writes its
order as one text.  A list of texts orders as the text does that joins them with commas, and the
order that a query writes is read back if each of its entries is.

Main statement: `SqlArgs.sorts_agree`.
-/

namespace SqlService

/-! ## §1 Lists of entries -/

namespace SortKey

/-- The entry can stand in a list: its name is not empty and has no comma, and its text is read back
as the entry. -/
structure Listed (s : SortKey) : Prop where
  nonempty : s.name ≠ ""
  unbroken : ',' ∉ s.name.toList
  readBack : parse s.text = s

theorem parseList_eq (text : String) : parseList text = (Text.items text).map parse := rfl

/-- Joined lists have the entries of each of them, in order. -/
theorem parseList_intercalate (texts : List String) :
    parseList (String.intercalate "," texts) = texts.flatMap parseList := by
  rw [parseList_eq, Text.items_intercalate, List.map_flatMap]
  rfl

theorem Listed.trim_text {s : SortKey} (h : s.Listed) : Text.trim s.text = s.text := by
  obtain ⟨name, descending⟩ := s
  cases descending with
  | true =>
    have hfirst := (parse_text_descending_iff.mp h.readBack).1.first
    have hstart : Text.dropBlank name.toList = name.toList := Text.dropBlank_eq_self_iff.mpr hfirst
    -- The name is not empty and starts with no blank, so not all of it is dropped.
    have hblank : Text.dropBlank name.toList ≠ [] := by
      rw [hstart]
      exact fun hempty => h.nonempty (String.toList_eq_nil_iff.mp hempty)
    rw [← String.toList_inj]
    change (Text.trim (name ++ " DESC")).toList = (name ++ " DESC").toList
    rw [toList_trim_descending hblank, hstart, String.toList_append]
    rfl
  | false => exact Text.trim_eq_self_iff.mpr (parse_text_ascending_iff.mp h.readBack).1

/-- The text of an entry that can stand in a list is one item of it. -/
theorem Listed.listable {s : SortKey} (h : s.Listed) : Text.Listable s.text where
  nonempty := by
    unfold text
    split
    · exact fun hempty => h.nonempty (String.append_eq_empty_iff.mp hempty).1
    · exact h.nonempty
  trimmed := h.trim_text
  unbroken := by
    unfold text
    -- What marks a descending entry has no comma.
    split
    · rw [String.toList_append, List.mem_append, not_or]
      exact ⟨h.unbroken, by decide⟩
    · exact h.unbroken

/-- Entries that can stand in a list are read back from it. -/
theorem parseList_texts {sorts : List SortKey} (h : ∀ s ∈ sorts, s.Listed) :
    parseList (String.intercalate "," (sorts.map text)) = sorts := by
  have hitems : Text.items (String.intercalate "," (sorts.map text)) = sorts.map text :=
    Text.items_of_joined (List.forall_mem_map.mpr fun s hs => (h s hs).listable)
  have hread : ∀ s ∈ sorts, (parse ∘ text) s = id s := by
    intro s hs
    rw [Function.comp_apply, (h s hs).readBack, id]
  rw [parseList_eq, hitems, List.map_map, List.map_congr_left hread, List.map_id]

end SortKey

/-! ## §2 The argument -/

/-- Whatever is set under a name comes to stand in the same place. -/
theorem Entries.exists_put_eq {α : Type} (name : String) (es : List (String × α)) :
    ∃ front back, ∀ value, put name value es = front ++ (name, value) :: back := by
  induction es with
  | nil => exact ⟨[], [], fun _ => rfl⟩
  | cons e es ih =>
    -- The value replaces the first entry of its name, or the search goes on behind it.
    by_cases h : e.1 = name
    · exact ⟨[], es, fun value => by simp [put, h]⟩
    · obtain ⟨front, back, hput⟩ := ih
      exact ⟨e :: front, back, fun value => by simp [put, h, hput]⟩

namespace SqlArgs

theorem readSortItems_strings (texts : List String) :
    readSortItems (texts.map .string) = .ok (texts.flatMap SortKey.parseList) := by
  induction texts with
  | nil => rfl
  | cons text texts ih =>
    rw [List.map_cons, readSortItems, ih]
    rfl

/-- Of the sort argument only what is read counts, also for whether the arguments are refused. -/
theorem parse_insert_sort_congr {v w : Json} (h : readSorts v = readSorts w) (args : Record) :
    parse (args.insert "sort" v) = parse (args.insert "sort" w) := by
  have hread : ∀ p : Partly, p.read ("sort", v) = p.read ("sort", w) := by
    intro p
    simp only [Partly.read, h]
  -- The arguments are read one after the other, and only the step at this place could differ.
  obtain ⟨front, back, hput⟩ := Entries.exists_put_eq "sort" args.entries
  have hfold : (args.insert "sort" v).entries.foldlM Partly.read {} =
      (args.insert "sort" w).entries.foldlM Partly.read {} := by
    simp only [Dictionary.insert, hput, List.foldlM_append, List.foldlM_cons, hread]
  rw [parse, parse, hfold]

end SqlArgs

/-! ## §3 The written order -/

namespace Query

/-- What is written behind the order for the page. -/
def pageClause (q : Query) (offset : UInt64) : String :=
  if q.isPaged then q.dialect.page "" offset q.pageSize else ""

/-- The order is written behind the filtered statement, with the page after it. -/
theorem build_orders {q : Query} {b : BoundStatement} (hsorts : q.sorts ≠ [])
    (h : q.build = .ok b) :
    ∃ base offset, q.filtered = .ok base ∧ q.offset = .ok offset ∧
      b.sql = base.sql ++ "\nORDER BY " ++ String.intercalate "," (q.sorts.map SortKey.text) ++
        q.pageClause offset := by
  rw [build_eq] at h
  cases hfiltered : q.filtered with
  | error e => rw [hfiltered] at h; cases h
  | ok base =>
    -- The statement is only built when both the filtered one and the offset are there.
    cases hoffset : q.offset with
    | error e => rw [hfiltered, hoffset] at h; cases h
    | ok offset =>
      rw [hfiltered, hoffset] at h
      obtain rfl := Except.ok.inj h
      refine ⟨base, offset, rfl, rfl, ?_⟩
      have horder : orderClause q.sorts =
          "\nORDER BY " ++ String.intercalate "," (q.sorts.map SortKey.text) := by
        rw [orderClause, if_neg (by simpa using hsorts)]
      -- The page is written behind the order in the same way as behind nothing.
      have hclauses : q.clauses offset = orderClause q.sorts ++ q.pageClause offset := by
        unfold clauses pageClause
        split
        · rw [← Dialect.page_append, String.append_empty]
        · rw [String.append_empty]
      show base.sql ++ q.clauses offset = _
      rw [hclauses, horder]
      simp only [String.append_assoc]

end Query

/-- A list of texts orders as the text that joins them with commas, in whatever arguments they
stand.  Entries that can stand in a list are read back from the text that joins theirs with commas,
and this is what a query writes after `ORDER BY`. -/
theorem SqlArgs.sorts_agree :
    (∀ texts : List String, ∃ sorts,
      readSorts (.array (texts.map .string)) = .ok sorts ∧
      readSorts (.string (String.intercalate "," texts)) = .ok sorts ∧
      ∀ args : Record, parse (args.insert "sort" (.array (texts.map .string))) =
        parse (args.insert "sort" (.string (String.intercalate "," texts)))) ∧
    (∀ sorts : List SortKey, (∀ s ∈ sorts, s.Listed) →
      readSorts (.string (String.intercalate "," (sorts.map SortKey.text))) = .ok sorts) ∧
    ∀ (q : Query) (b : BoundStatement), q.sorts ≠ [] → q.build = .ok b →
      ∃ base offset, q.filtered = .ok base ∧ q.offset = .ok offset ∧
        b.sql = base.sql ++ "\nORDER BY " ++ String.intercalate "," (q.sorts.map SortKey.text) ++
          q.pageClause offset := by
  refine ⟨fun texts => ?_, fun sorts hsorts => ?_, fun q b => Query.build_orders⟩
  -- Both arguments are read item by item, and a comma joins what two items are read as.
  · have harray : readSorts (.array (texts.map .string)) =
        .ok (SortKey.parseList (String.intercalate "," texts)) := by
      rw [SortKey.parseList_intercalate]
      exact readSortItems_strings texts
    exact ⟨_, harray, rfl, parse_insert_sort_congr harray⟩
  · exact congrArg Except.ok (SortKey.parseList_texts hsorts)

/-- The second page of posts, the latest first. -/
def latestPosts : Query where
  dialect := .mysql
  sql := "SELECT * FROM posts"
  sorts := [.desc "created at", .asc "title"]
  pageIndex := 2
  pageSize := 10

/-- The order of the posts is written with the statement and read back from there; in a list the
texts may have blanks and commas of their own. -/
theorem latestPosts_sorts_agree :
    (∀ s ∈ latestPosts.sorts, s.Listed) ∧
    (∃ b base offset, latestPosts.build = .ok b ∧ latestPosts.filtered = .ok base ∧
      latestPosts.offset = .ok offset ∧
      b.sql = base.sql ++ "\nORDER BY " ++ "created at DESC,title" ++
        latestPosts.pageClause offset) ∧
    SqlArgs.readSorts (.string "created at DESC,title") = .ok latestPosts.sorts ∧
    SqlArgs.readSorts (.array [.string "", .string "created at  desc, title,"]) =
      SqlArgs.readSorts (.string ",created at  desc, title,") := by
  obtain ⟨hlists, hread, hwritten⟩ := SqlArgs.sorts_agree
  -- Both entries can stand in a list.
  have hcreated : (SortKey.desc "created at").Listed :=
    ⟨by decide, by decide, SortKey.parse_text_descending_iff.mpr
      ⟨Text.trim_eq_self_iff.mp (by decide), by decide⟩⟩
  have htitle : (SortKey.asc "title").Listed :=
    ⟨by decide, by decide, SortKey.parse_of_uncut (by decide)⟩
  have hlisted : ∀ s ∈ latestPosts.sorts, s.Listed :=
    List.forall_mem_cons.mpr ⟨hcreated, List.forall_mem_singleton.mpr htitle⟩
  have htext : String.intercalate "," (latestPosts.sorts.map SortKey.text) =
      "created at DESC,title" := rfl
  obtain ⟨b, hbuild⟩ : ∃ b, latestPosts.build = .ok b := ⟨_, rfl⟩
  obtain ⟨base, offset, hbase, hoffset, hsql⟩ := hwritten latestPosts b nofun hbuild
  obtain ⟨sorts, harray, hjoined, -⟩ := hlists ["", "created at  desc, title,"]
  refine ⟨hlisted, ⟨b, base, offset, hbuild, hbase, hoffset, htext ▸ hsql⟩, ?_,
    harray.trans hjoined.symm⟩
  exact htext ▸ hread latestPosts.sorts hlisted

end SqlService
