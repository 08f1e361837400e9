import SqlService.Proofs.Effect.Contract
import SqlService.Proofs.Fragment.Expansion

/-!
# The memory of expanded texts

What is remembered of an item is what it expands to on its own.  As long as that holds of every
answer, expansion ends in the same text or the same failure as without memory, and it only adds what
is true.  A store of items starts with nothing remembered and forgets everything when an item is
added, so nobody can tell that it remembers anything.

Main statement: `memory_invisible`.
-/

namespace SqlService

open Program (Upholds)

namespace Fragment

/-! ## §1 Expansion with memory -/

/-- The text is what the item of the name expands to on its own. -/
def Expands (items : Dictionary Item) (name text : String) : Prop :=
  expansion items [] name = .ok text

/-- What is said to be remembered is true. -/
def Recalled (items : Dictionary Item) : (q : Request) → q.Reply → Prop
  | .remembered name, reply => ∀ text, (reply : Option String) = some text → Expands items name text
  | _, _ => True

/-- What is to be remembered is true. -/
def Learned (items : Dictionary Item) : Request → Prop
  | .remember name text => Expands items name text
  | _ => True

/-- The program ends in the given result if what is remembered is true, and it stays so. -/
abbrev Yields (items : Dictionary Item) {α : Type} (t : Attempt DataError α)
    (r : Except DataError α) : Prop :=
  Upholds (Recalled items) (Learned items) (· = r) t.run

variable {items : Dictionary Item} {α β : Type}

theorem Yields.bind {t : Attempt DataError α} {f : α → Attempt DataError β}
    {r : Except DataError α} {g : α → Except DataError β} (ht : Yields items t r)
    (hf : ∀ a, r = .ok a → Yields items (f a) (g a)) : Yields items (t >>= f) (r >>= g) := by
  apply Upholds.bind ht
  · rintro a rfl
    exact hf a rfl
  · rintro e rfl
    rfl

theorem yields_return (a : α) : Yields items (pure a) (.ok a) := rfl

theorem yields_throw (e : DataError) : Yields items (throw e : Attempt DataError α) (.error e) :=
  rfl

/-- A template is expanded as without memory where its references are. -/
theorem yields_expandAll {stack : List String} {segments : List Segment}
    (h : ∀ other, .reference other ∈ segments →
      Yields items (expand items stack other) (expansion items stack other)) :
    Yields items (expandAll items stack segments) (expansionAll items stack segments) := by
  -- Without memory the same steps are made: only a reference expands something.
  induction segments with
  | nil =>
    rw [expandAll, expansionAll]
    exact yields_return ""
  | cons s rest ih =>
    have hrest := ih fun other hmem => h other (List.mem_cons_of_mem _ hmem)
    cases s with
    | literal cs =>
      rw [expandAll, expansionAll]
      exact hrest.bind fun after _ => yields_return _
    | reference other =>
      rw [expandAll, expansionAll]
      exact (h other List.mem_cons_self).bind fun inner _ =>
        hrest.bind fun after _ => yields_return _

theorem upholds_remembered (name : String) :
    Upholds (Recalled items) (Learned items)
      (fun r => ∃ known, r = .ok known ∧ ∀ text, known = some text → Expands items name text)
      (remembered name).run :=
  ⟨True.intro, fun known hr => ⟨known, rfl, hr⟩⟩

/-- Remembering a text is in order if it is what the item expands to. -/
theorem yields_remember {name text : String} (h : Expands items name text) :
    Yields items (remember name text) (.ok ()) :=
  ⟨h, fun _ _ => rfl⟩

/-- With a true memory an item is expanded as without memory, under items that lead to it. -/
theorem yields_expand {stack : List String} {name : String}
    (hstack : ∀ m ∈ stack, Reaches items m name) :
    Yields items (expand items stack name) (expansion items stack name) := by
  rw [expand]
  refine (upholds_remembered name).bind ?_ fun e he => by obtain ⟨_, heq, -⟩ := he; cases heq
  rintro known ⟨known', heq, hknown⟩
  obtain rfl := Except.ok.inj heq
  cases known with
  | some text =>
    -- Memory knows nothing of the stack, which makes no difference to what expands.
    exact (expansion_under (hknown text rfl) hstack).symm
  | none =>
    dsimp only
    split
    · next hn =>
      rw [expansion_cycle hn]
      exact yields_throw _
    · next hn =>
      split
      · next hi =>
        rw [expansion_unknown hn hi]
        exact yields_throw _
      · next item hi =>
        -- The parts are expanded under one item more, which leads to each of their references.
        have _smaller := unopened_lt hi hn
        have hall : Yields items
            (expandAll items (stack ++ [name]) (Segment.segments item.text.toList))
            (expansionAll items (stack ++ [name]) (Segment.segments item.text.toList)) :=
          yields_expandAll fun other hmem =>
            yields_expand (reaches_of_refers hstack ⟨item, hi, hmem⟩)
        rw [expansion_item hn hi]
        refine Upholds.bind hall (fun text htext => ?_) fun e he => he
        -- What expands under the stack expands on its own, so it may be remembered.
        have hexpands : Expands items name text :=
          expansion_under ((expansion_item hn hi).trans htext.symm) (by simp)
        rw [← htext]
        exact (yields_remember hexpands).bind fun _ _ => yields_return text
termination_by unopened items stack

/-- Everything that is remembered is true. -/
def Truthful (items : Dictionary Item) (memory : Dictionary String) : Prop :=
  ∀ name text, memory.get? name = some text → Expands items name text

theorem truthful_empty : Truthful items ∅ := fun _ _ h => nomatch h

theorem Truthful.insert {memory : Dictionary String} (h : Truthful items memory)
    {name text : String} (htext : Expands items name text) :
    Truthful items (memory.insert name text) := by
  intro other known hknown
  rw [Dictionary.get?_insert] at hknown
  -- What is found is either the text just kept or one that was kept before.
  split at hknown
  · next heq =>
    rw [heq, ← Option.some.inj hknown]
    exact htext
  · exact h other known hknown

/-- In a world with a true memory, what yields a result ends in it and the memory stays true. -/
theorem Yields.run {t : Attempt DataError α} {r : Except DataError α} (ht : Yields items t r)
    {w : Offline} (hw : Truthful items w.memory) :
    (Program.run Offline.respond t.run w).1 = r ∧
      Truthful items (Program.run Offline.respond t.run w).2.memory := by
  -- Answers come from the memory, and it only changes by what is to be remembered.
  have hreply : ∀ (w : Offline) (q : Request), Truthful items w.memory →
      Recalled items q (Offline.respond w q).1 := by
    intro w q hw
    cases q
    case remembered name => exact hw name
    all_goals exact True.intro
  have hkeep : ∀ (w : Offline) (q : Request), Truthful items w.memory → Learned items q →
      Truthful items (Offline.respond w q).2.memory := by
    intro w q hw hq
    cases q
    case remember name text => exact hw.insert hq
    all_goals exact hw
  exact Upholds.run hreply hkeep ht hw

end Fragment

/-! ## §2 Stores -/

/-- The last one of the items that has the name. -/
def Item.last? (items : List Item) (name : String) : Option Item :=
  items.reverse.find? fun i => i.name == name

theorem Item.last?_cons (i : Item) (items : List Item) (name : String) :
    last? (i :: items) name =
      (last? items name).or (if i.name == name then some i else none) := by
  rw [last?, last?, List.reverse_cons, List.find?_append, List.find?_singleton]

namespace ItemStore

/-- Something that is done with a store. -/
inductive Call where
  | add (item : Item)
  | resolve (name : String)
  deriving DecidableEq, Repr

/-- The item that is added. -/
def Call.item? : Call → Option Item
  | add item => some item
  | resolve _ => none

/-- The store after a call. -/
def after (s : ItemStore) : Call → ItemStore
  | .add item => s.add item
  | .resolve name => (s.resolve name).2

/-- A new store with the items added in their order. -/
def holding (items : List Item) : ItemStore := (items.map Call.add).foldl after {}

open Fragment (Truthful truthful_empty expansion)

variable {s : ItemStore}

/-- A store with a true memory resolves as one without memory would, and stays true. -/
theorem resolve_of_truthful (h : Truthful s.items s.memory) (name : String) :
    (s.resolve name).1 = expansion s.items [] name ∧
      Truthful s.items (s.resolve name).2.memory :=
  (Fragment.yields_expand (by simp)).run h

/-- A call keeps the memory true. -/
theorem truthful_after (h : Truthful s.items s.memory) (c : Call) :
    Truthful (s.after c).items (s.after c).memory := by
  cases c with
  -- An item that is added makes the store forget everything, so nothing untrue is left.
  | add item => exact truthful_empty
  | resolve name => exact (resolve_of_truthful h name).2

theorem truthful_afterAll (h : Truthful s.items s.memory) (calls : List Call) :
    Truthful (calls.foldl after s).items (calls.foldl after s).memory := by
  induction calls generalizing s with
  | nil => exact h
  | cons c calls ih => exact ih (truthful_after h c)

/-- After some calls a store has the items that were added last. -/
theorem get?_items_afterAll (s : ItemStore) (calls : List Call) (name : String) :
    (calls.foldl after s).items.get? name =
      (Item.last? (calls.filterMap Call.item?) name).or (s.items.get? name) := by
  induction calls generalizing s with
  | nil => rfl
  | cons c calls ih =>
    rw [List.foldl_cons, ih]
    -- The last of the items to be added wins, and then what the store had before.
    cases c with
    | add item =>
      have hget : (s.after (.add item)).items.get? name =
          (if item.name == name then some item else none).or (s.items.get? name) := by
        rw [after, add, Dictionary.get?_insert]
        by_cases h : name = item.name
        · rw [if_pos h, if_pos (by simp [h])]
          rfl
        · rw [if_neg h, if_neg fun heq => h (beq_iff_eq.mp heq).symm]
          rfl
      rw [hget, List.filterMap_cons, Call.item?, Item.last?_cons, Option.or_assoc]
    | resolve name' => rfl

theorem get?_items_holding (items : List Item) (name : String) :
    (holding items).items.get? name = Item.last? items name := by
  have hitems : (items.map Call.add).filterMap Call.item? = items := by
    rw [List.filterMap_map]
    exact List.filterMap_some
  rw [holding, get?_items_afterAll, hitems]
  exact Option.or_none

/-- What a store answers does not tell what it remembers: after any calls, failed ones included, a
name resolves as in a new store that holds the same items. -/
theorem memory_invisible (calls : List Call) (items : List Item)
    (hitems : ∀ n, Item.last? items n = Item.last? (calls.filterMap Call.item?) n)
    (name : String) :
    ((calls.foldl after {}).resolve name).1 = ((holding items).resolve name).1 := by
  have hafter := truthful_afterAll (s := {}) truthful_empty calls
  have hnew : Truthful (holding items).items (holding items).memory :=
    truthful_afterAll (s := {}) truthful_empty (items.map Call.add)
  -- Both resolve as without memory, and they have the same items.
  have hsame : ∀ n, (calls.foldl after {}).items.get? n = (holding items).items.get? n := by
    intro n
    rw [get?_items_holding, hitems, get?_items_afterAll]
    exact Option.or_none
  rw [(resolve_of_truthful hafter name).1, (resolve_of_truthful hnew name).1]
  exact Fragment.expansion_congr hsame [] name

/-- Fragments of which one is replaced after it has been remembered, in part by an expansion that
failed at a name that is not there. -/
def report : List Call :=
  [.add ⟨"rows", "users", "", false, .query⟩,
    .add ⟨"all", "SELECT * FROM \x7b\x7brows\x7d\x7d", "", false, .query⟩,
    .add ⟨"some", "\x7b\x7ball\x7d\x7d \x7b\x7bwhere\x7d\x7d", "", false, .query⟩,
    .resolve "some", .resolve "all", .add ⟨"rows", "people", "", false, .query⟩, .resolve "some"]

/-- The items that the report is left with. -/
def reportItems : List Item :=
  [⟨"some", "\x7b\x7ball\x7d\x7d \x7b\x7bwhere\x7d\x7d", "", false, .query⟩,
    ⟨"rows", "people", "", false, .query⟩,
    ⟨"all", "SELECT * FROM \x7b\x7brows\x7d\x7d", "", false, .query⟩]

theorem report_invisible :
    (∀ n, Item.last? reportItems n = Item.last? (report.filterMap Call.item?) n) ∧
      ((report.foldl after {}).resolve "all").1 = ((holding reportItems).resolve "all").1 := by
  have hitems : ∀ n, Item.last? reportItems n = Item.last? (report.filterMap Call.item?) n := by
    intro n
    by_cases hrows : n = "rows"
    · subst hrows
      rfl
    · by_cases hall : n = "all"
      · subst hall
        rfl
      · by_cases hsome : n = "some"
        · subst hsome
          rfl
        · simp [Item.last?, report, reportItems, List.filterMap, Call.item?, Ne.symm hrows,
            Ne.symm hall, Ne.symm hsome]
  exact ⟨hitems, memory_invisible report reportItems hitems "all"⟩

end ItemStore

end SqlService
