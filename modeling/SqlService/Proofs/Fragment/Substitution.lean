import Mathlib.Algebra.Order.BigOperators.Group.List
import Mathlib.Algebra.Order.Ring.Nat
import Mathlib.Data.List.Chain
import Mathlib.Order.Monotone.Basic
import SqlService.Proofs.Effect.Bounds
import SqlService.Proofs.Fragment.Memory
import SqlService.Proofs.Fragment.Template

/-!
# Expansion as substitution

A name is `Complete` if every name that it reaches by references has an item and none of them is on
a loop.  Exactly such names expand, namely to their text with what each reference expands to in its
place.  For any other name the way to the error goes at each item to the leftmost reference that is
not complete, until it comes to a name without an item or to one that it has been at.

Main statement: `resolve_substitutes`.
-/

namespace SqlService

namespace Fragment

variable {items : Dictionary Item} {stack : List String} {name other text : String}

/-! ## §1 What expands -/

/-- Every name that is reached has an item, and none of them reaches itself. -/
structure Complete (items : Dictionary Item) (name : String) : Prop where
  defined : ∀ other, Relation.ReflTransGen (Refers items) name other →
    (items.get? other).isSome = true
  acyclic : ∀ other, Relation.ReflTransGen (Refers items) name other → ¬ Reaches items other other

theorem Complete.of_refers (h : Complete items name) (href : Refers items name other) :
    Complete items other where
  defined m hm := h.defined m (.head href hm)
  acyclic m hm := h.acyclic m (.head href hm)

/-- The text of a part when every reference has been replaced. -/
def filled (own : String → String) : Segment → List Char
  | .literal cs => cs
  | .reference name => (own name).toList

/-- Where its references expand, a template expands to its parts in their order. -/
theorem expansionAll_filled {own : String → String} {segments : List Segment}
    (h : ∀ other, .reference other ∈ segments → expansion items stack other = .ok (own other)) :
    expansionAll items stack segments = .ok (String.ofList (segments.flatMap (filled own))) := by
  -- By induction on the parts; only a reference asks for what another item expands to.
  induction segments with
  | nil =>
    rw [expansionAll]
    rfl
  | cons s rest ih =>
    have hrest := ih fun other hmem => h other (List.mem_cons_of_mem _ hmem)
    cases s with
    | literal cs =>
      rw [expansionAll, hrest, List.flatMap_cons, filled, String.ofList_append]
      rfl
    | reference other =>
      rw [expansionAll, hrest, h other List.mem_cons_self, List.flatMap_cons, filled,
        String.ofList_append, String.ofList_toList]
      rfl

/-- Whatever leads to a complete name does not keep it from expanding. -/
theorem Complete.expands {stack : List String} {name : String} (h : Complete items name)
    (hstack : ∀ m ∈ stack, Reaches items m name) : ∃ text,
    expansion items stack name = .ok text := by
  -- Everything under expansion leads to the name, which is on no loop, so it is not among that.
  have hn : name ∉ stack := fun hmem => h.acyclic name .refl (hstack name hmem)
  obtain ⟨item, hitem⟩ := Option.isSome_iff_exists.mp (h.defined name .refl)
  have _smaller := unopened_lt hitem hn
  -- Its references expand under one item more, by recursion on the items that are left.
  have hreferences : ∀ other, .reference other ∈ Segment.segments item.text.toList →
      ∃ inner, expansion items (stack ++ [name]) other = .ok inner := by
    intro other hmem
    have href : Refers items name other := ⟨item, hitem, hmem⟩
    exact (h.of_refers href).expands (reaches_of_refers hstack href)
  choose! own hown using hreferences
  exact ⟨_, (expansion_item hn hitem).trans (expansionAll_filled hown)⟩
termination_by unopened items stack

/-- What expands under some items expands on its own. -/
theorem expands_of_expansion (h : expansion items stack name = .ok text) :
    Expands items name text :=
  expansion_under h (by simp)

theorem expands_of_reaches (h : Expands items name text)
    (hreach : Relation.ReflTransGen (Refers items) name other) :
    ∃ inner, Expands items other inner := by
  induction hreach with
  | refl => exact ⟨text, h⟩
  | tail _ href ih =>
    obtain ⟨inner, hinner⟩ := ih
    obtain ⟨last, hlast⟩ := expansion_of_refers hinner href
    exact ⟨last, expands_of_expansion hlast⟩

/-- Exactly the complete names expand. -/
theorem complete_iff : Complete items name ↔ ∃ text, Expands items name text := by
  constructor
  · exact fun h => h.expands (by simp)
  · rintro ⟨text, h⟩
    -- Whatever is reached expands on its own: so it has an item, and it is not on a loop.
    refine ⟨fun other hreach => ?_, fun other hreach => ?_⟩
    · obtain ⟨inner, hinner⟩ := expands_of_reaches h hreach
      obtain ⟨-, item, hitem, -⟩ := item_of_expansion hinner
      rw [hitem]
      rfl
    · obtain ⟨inner, hinner⟩ := expands_of_reaches h hreach
      exact not_reaches_self hinner

/-- What a name expands to is its text with every reference replaced by what that expands to. -/
theorem Expands.substitutes (h : Expands items name text) :
    ∃ item own, items.get? name = some item ∧
      (∀ other, .reference other ∈ Segment.segments item.text.toList →
        Expands items other (own other)) ∧
      text.toList = (Segment.segments item.text.toList).flatMap (filled own) := by
  obtain ⟨hn, item, hitem, hall⟩ := item_of_expansion h
  -- The references expand under the name, and then in the same way on their own.
  have hreferences : ∀ other, .reference other ∈ Segment.segments item.text.toList →
      ∃ inner, expansion items ([] ++ [name]) other = .ok inner :=
    fun other hmem => expansion_of_mem hall hmem
  choose! own hown using hreferences
  refine ⟨item, own, hitem, fun other hmem => expands_of_expansion (hown other hmem), ?_⟩
  have htext := Except.ok.inj (hall.symm.trans (expansionAll_filled hown))
  rw [htext, String.toList_ofList]

/-! ## §2 What does not expand -/

/-- The other name is the leftmost reference of the one that is not complete. -/
def Breaks (items : Dictionary Item) (name other : String) : Prop :=
  ∃ item before after, items.get? name = some item ∧
    Segment.segments item.text.toList = before ++ .reference other :: after ∧
    (∀ sound, .reference sound ∈ before → Complete items sound) ∧ ¬ Complete items other

/-- There is only one leftmost reference. -/
theorem Breaks.unique {other' : String} (h : Breaks items name other)
    (h' : Breaks items name other') : other = other' := by
  obtain ⟨item, before, after, hitem, hsplit, hbefore, hother⟩ := h
  obtain ⟨item', before', after', hitem', hsplit', hbefore', hother'⟩ := h'
  obtain rfl : item = item' := Option.some.inj (hitem.symm.trans hitem')
  -- One of the two parts in front is as long as the other or longer.
  rcases List.append_eq_append_iff.mp (hsplit.symm.trans hsplit') with
    ⟨between, rfl, hrest⟩ | ⟨between, rfl, hrest⟩
  · cases between with
    | nil =>
      obtain ⟨heq, -⟩ := List.cons.inj hrest
      exact Segment.reference.inj heq
    -- If it is longer, the one reference stands in front of the other, where all are complete.
    | cons part between =>
      obtain ⟨rfl, -⟩ := List.cons.inj hrest
      exact absurd (hbefore' other (by simp)) hother
  · cases between with
    | nil =>
      obtain ⟨heq, -⟩ := List.cons.inj hrest
      exact (Segment.reference.inj heq).symm
    | cons part between =>
      obtain ⟨rfl, -⟩ := List.cons.inj hrest
      exact absurd (hbefore other' (by simp)) hother'

/-- A template fails at its first part, which is then a reference, or behind it. -/
theorem error_of_cons {s : Segment} {rest : List Segment} {e : DataError}
    (h : expansionAll items stack (s :: rest) = .error e) :
    (∃ other, s = .reference other ∧ expansion items stack other = .error e) ∨
      ((∀ other, s = .reference other → ∃ inner, expansion items stack other = .ok inner) ∧
        expansionAll items stack rest = .error e) := by
  cases s with
  | literal cs =>
    rw [expansionAll] at h
    -- A literal does not fail, so the failure comes from the rest.
    cases hrest : expansionAll items stack rest with
    | ok after =>
      rw [hrest] at h
      cases h
    | error e' =>
      rw [hrest] at h
      cases h
      refine .inr ⟨fun other hother => ?_, rfl⟩
      cases hother
  | reference first =>
    rw [expansionAll] at h
    -- A reference is expanded before the rest is looked at.
    cases hfirst : expansion items stack first with
    | error e' =>
      rw [hfirst] at h
      cases h
      exact .inl ⟨first, rfl, hfirst⟩
    | ok inner =>
      cases hrest : expansionAll items stack rest with
      | ok after =>
        rw [hfirst, hrest] at h
        cases h
      | error e' =>
        rw [hfirst, hrest] at h
        cases h
        refine .inr ⟨fun other hother => ?_, rfl⟩
        cases hother
        exact ⟨inner, hfirst⟩

/-- A template fails with its first reference that fails. -/
theorem reference_of_error {segments : List Segment} {e : DataError}
    (h : expansionAll items stack segments = .error e) :
    ∃ before other after, segments = before ++ .reference other :: after ∧
      (∀ sound, .reference sound ∈ before →
        ∃ inner, expansion items stack sound = .ok inner) ∧
      expansion items stack other = .error e := by
  induction segments with
  | nil =>
    rw [expansionAll] at h
    cases h
  | cons s rest ih =>
    -- Either the first part fails, or it does not and the rest fails.
    rcases error_of_cons h with ⟨other, rfl, hother⟩ | ⟨hfirst, hrest⟩
    · exact ⟨[], other, rest, rfl, by simp, hother⟩
    · obtain ⟨before, other, after, rfl, hbefore, hother⟩ := ih hrest
      refine ⟨s :: before, other, after, rfl, fun sound hmem => ?_, hother⟩
      rcases List.mem_cons.mp hmem with heq | hmem
      · exact hfirst sound heq.symm
      · exact hbefore sound hmem

/-- The error is met at the end of the way over the names: it is a name without an item, or one that
the way has been at. -/
def EndsIn (items : Dictionary Item) (way : List String) (last : String) (e : DataError) : Prop :=
  (last ∉ way ∧ items.get? last = none ∧ e = .unknownItem last) ∨
    (last ∈ way ∧ e = .fragmentCycle (way ++ [last]))

/-- From a name that does not expand a way of leftmost references leads to the error. -/
theorem breaks_of_error {stack : List String} {name : String} {e : DataError}
    (hstack : ∀ m ∈ stack, Reaches items m name) (hnodup : stack.Nodup)
    (h : expansion items stack name = .error e) :
    ∃ way last, (way ++ [last]).head? = some name ∧
      (way ++ [last]).IsChain (Breaks items) ∧ (stack ++ way).Nodup ∧
      EndsIn items (stack ++ way) last e := by
  -- The way ends at a name that is under expansion already or that has no item.
  by_cases hn : name ∈ stack
  · rw [expansion_cycle hn] at h
    cases h
    exact ⟨[], name, rfl, .singleton name, by simpa using hnodup, .inr (by simpa using hn)⟩
  · cases hitem : items.get? name with
    | none =>
      rw [expansion_unknown hn hitem] at h
      cases h
      exact ⟨[], name, rfl, .singleton name, by simpa using hnodup, .inl (by simp [hn, hitem])⟩
    | some item =>
      have _smaller := unopened_lt hitem hn
      rw [expansion_item hn hitem] at h
      -- Otherwise it goes on to the first reference that fails, one item deeper.
      obtain ⟨before, other, after, hsplit, hbefore, hother⟩ := reference_of_error h
      have href : Refers items name other := ⟨item, hitem, by rw [hsplit]; simp⟩
      have hunder := reaches_of_refers hstack href
      have hbreaks : Breaks items name other := by
        -- What stands in front of it expands, so it is complete.
        refine ⟨item, before, after, hitem, hsplit, fun sound hmem => ?_, fun hcomplete => ?_⟩
        · obtain ⟨inner, hinner⟩ := hbefore sound hmem
          exact complete_iff.mpr ⟨inner, expands_of_expansion hinner⟩
        · obtain ⟨inner, hinner⟩ := hcomplete.expands hunder
          rw [hinner] at hother
          cases hother
      have hnodup' : (stack ++ [name]).Nodup := by
        simpa [List.nodup_append] using ⟨hnodup, fun a ha heq => hn (heq ▸ ha)⟩
      obtain ⟨way, last, hhead, hchain, hdistinct, hend⟩ :=
        breaks_of_error hunder hnodup' hother
      rw [List.append_assoc] at hdistinct hend
      refine ⟨name :: way, last, rfl, ?_, hdistinct, hend⟩
      -- The name comes in front of the way from its reference, which starts where the name breaks.
      refine hchain.cons fun m hm => ?_
      rw [hhead] at hm
      exact Option.some.inj hm ▸ hbreaks
termination_by unopened items stack

/-! ## §3 Requests -/

/-- The number of parts of all texts together. -/
def width (items : Dictionary Item) : Nat :=
  (items.entries.map fun e => (Segment.segments e.2.text.toList).length).sum

/-- How many requests an expansion makes at most, where so many items are not under expansion. -/
def expandBound (width : Nat) : Nat → Nat
  | 0 => 1
  | unopened + 1 => 2 + width * expandBound width unopened

theorem expandBound_mono (width : Nat) : Monotone (expandBound width) := by
  apply monotone_nat_of_le_succ
  intro u
  induction u with
  | zero =>
    rw [expandBound, expandBound]
    omega
  | succ u ih =>
    rw [expandBound, expandBound]
    exact Nat.add_le_add_left (Nat.mul_le_mul_left width ih) 2

theorem length_le_width {item : Item} (h : items.get? name = some item) :
    (Segment.segments item.text.toList).length ≤ width items :=
  List.le_sum_of_mem (List.mem_map.mpr ⟨(name, item), Dictionary.get?_eq_some_iff.mp h, rfl⟩)

theorem atMost_expandAll {bound : Nat} {segments : List Segment}
    (h : ∀ other, (expand items stack other).run.AtMost bound) :
    (expandAll items stack segments).run.AtMost (segments.length * bound) := by
  induction segments with
  | nil =>
    rw [expandAll]
    exact (Program.atMost_done _).mono (Nat.zero_le _)
  | cons s rest ih =>
    -- Every part takes at most its share, and a literal takes nothing.
    rw [List.length_cons, Nat.add_mul, Nat.one_mul, Nat.add_comm]
    cases s with
    | literal cs =>
      rw [expandAll]
      exact (ih.bind fun after => Program.atMost_done _).mono (Nat.le_add_left _ _)
    | reference other =>
      rw [expandAll]
      exact (h other).bind fun inner => ih.bind fun after => Program.atMost_done _

/-- An expansion ends after a number of requests that depends on the items only, in whatever way it
is told what is remembered. -/
theorem atMost_expand (stack : List String) (name : String) :
    (expand items stack name).run.AtMost (expandBound (width items) (unopened items stack)) := by
  -- A name is asked for once and kept once; between the two its parts are expanded.
  have hask : (remembered name).run.AtMost 1 := Program.AtMost.ask fun r => Program.atMost_done _
  have hkeep : ∀ text, (remember name text).run.AtMost 1 := fun text =>
    Program.AtMost.ask fun r => Program.atMost_done _
  have hone : 1 ≤ expandBound (width items) (unopened items stack) :=
    expandBound_mono (width items) (Nat.zero_le _)
  rw [expand]
  refine (hask.bind (n := expandBound (width items) (unopened items stack) - 1)
    fun known => ?_).mono (by omega)
  have hsilent : ∀ r : Except DataError String,
      Program.AtMost (expandBound (width items) (unopened items stack) - 1) (.done r) :=
    fun r => (Program.atMost_done r).mono (Nat.zero_le _)
  cases known with
  | some text => exact hsilent _
  | none =>
    dsimp only
    split
    · exact hsilent _
    · next hn =>
      split
      · exact hsilent _
      · next item hi =>
        have _smaller := unopened_lt hi hn
        -- One item more is under expansion, so the bound for its references is a smaller one.
        obtain ⟨u, hu⟩ := Nat.exists_eq_succ_of_ne_zero (Nat.ne_zero_of_lt _smaller)
        have hbelow : ∀ other, (expand items (stack ++ [name]) other).run.AtMost
            (expandBound (width items) u) := fun other =>
          (atMost_expand (stack ++ [name]) other).mono
            (expandBound_mono (width items) (by omega))
        have hall := (atMost_expandAll hbelow).mono
          (Nat.mul_le_mul_right (expandBound (width items) u) (length_le_width hi))
        rw [hu, Nat.succ_eq_add_one, expandBound]
        exact (hall.bind fun text => (hkeep text).bind fun _ => Program.atMost_done _).mono
          (by omega)
termination_by unopened items stack

end Fragment

/-! ## §4 Stores -/

namespace ItemStore

open Fragment

/-- After any calls a store resolves the names that are complete among its items, each to its text
with every reference replaced by what that resolves to; the parts of the text are those of a
template.  Any other name is refused for what is found at the end of the way over the leftmost
references that are not complete. -/
theorem resolve_substitutes {s : ItemStore} {calls : List Call} (hs : calls.foldl after {} = s)
    (name : String) :
    (∀ n, s.items.get? n = Item.last? (calls.filterMap Call.item?) n) ∧
    (∀ cs parts, Template cs parts ↔ parts = Segment.segments cs) ∧
    (expand s.items [] name).run.AtMost (expandBound (width s.items) (unopened s.items [])) ∧
    ((∃ text, (s.resolve name).1 = .ok text) ↔ Complete s.items name) ∧
    (∀ text, (s.resolve name).1 = .ok text → ∃ item parts own,
      s.items.get? name = some item ∧ Template item.text.toList parts ∧
      (∀ other, .reference other ∈ parts → (s.resolve other).1 = .ok (own other)) ∧
      text.toList = parts.flatMap (filled own)) ∧
    (∀ e, (s.resolve name).1 = .error e → ∃ way last, (way ++ [last]).head? = some name ∧
      (way ++ [last]).IsChain (Breaks s.items) ∧ way.Nodup ∧ EndsIn s.items way last e) ∧
    ∀ n other other', Breaks s.items n other → Breaks s.items n other' → other = other' := by
  have htrue : Truthful s.items s.memory := hs ▸ truthful_afterAll (s := {}) truthful_empty calls
  -- What is remembered is true after any calls, so a name resolves as without memory.
  have hresolve : ∀ n, (s.resolve n).1 = expansion s.items [] n := fun n =>
    (resolve_of_truthful htrue n).1
  refine ⟨fun n => ?_, fun _ _ => template_iff, atMost_expand [] name, ?_, fun text h => ?_,
    fun e h => ?_, fun _ _ _ => Breaks.unique⟩
  · rw [← hs, get?_items_afterAll]
    exact Option.or_none
  · rw [hresolve]
    exact complete_iff.symm
  · rw [hresolve] at h
    obtain ⟨item, own, hitem, hown, htext⟩ := Expands.substitutes h
    exact ⟨item, _, own, hitem, template_segments _,
      fun other hmem => (hresolve other).trans (hown other hmem), htext⟩
  · rw [hresolve] at h
    obtain ⟨way, last, hhead, hchain, hnodup, hend⟩ := breaks_of_error (by simp) .nil h
    exact ⟨way, last, hhead, hchain, hnodup, hend⟩

/-- A sound fragment that ends in marks that are never closed, and two fragments on a loop. -/
def circular : List Call :=
  [.add ⟨"rows", "users", "", false, .query⟩,
    .add ⟨"both", "\x7b\x7b rows \x7d\x7d, \x7b\x7brows\x7d\x7d \x7b\x7b", "", false, .query⟩,
    .add ⟨"all", "\x7b\x7bboth\x7d\x7d \x7b\x7bsome\x7d\x7d", "", false, .query⟩,
    .add ⟨"some", "\x7b\x7ball\x7d\x7d", "", false, .query⟩]

theorem expansion_circular_both {stack : List String} (h : "both" ∉ stack)
    (hrows : "rows" ∉ stack ++ ["both"]) :
    expansion (circular.foldl after {}).items stack "both" = .ok "users, users \x7b\x7b" := by
  have hsegments : Segment.segments
      "\x7b\x7b rows \x7d\x7d, \x7b\x7brows\x7d\x7d \x7b\x7b".toList =
        [.literal [], .reference "rows", .literal ", ".toList, .reference "rows",
          .literal " \x7b\x7b".toList] := by
    decide +kernel
  have husers : Segment.segments "users".toList = [.literal "users".toList] := by decide +kernel
  -- The fragment has two references to one that is plain text.
  rw [expansion_item h rfl, hsegments]
  simp only [expansionAll]
  rw [expansion_item hrows rfl, husers]
  simp only [expansionAll]
  rfl

theorem expansion_circular_all :
    expansion (circular.foldl after {}).items [] "all" =
      .error (.fragmentCycle ["all", "some", "all"]) := by
  have hall : Segment.segments "\x7b\x7bboth\x7d\x7d \x7b\x7bsome\x7d\x7d".toList =
      [.literal [], .reference "both", .literal " ".toList, .reference "some", .literal []] := by
    decide +kernel
  have hsome : Segment.segments "\x7b\x7ball\x7d\x7d".toList =
      [.literal [], .reference "all", .literal []] := by
    decide +kernel
  -- The sound reference is expanded first; the other one comes back to where it started.
  rw [expansion_item (by decide) rfl, hall]
  simp only [expansionAll]
  rw [expansion_circular_both (by decide) (by decide), expansion_item (by decide) rfl, hsome]
  simp only [expansionAll]
  rw [expansion_cycle (by decide)]
  rfl

theorem circular_substitutes :
    Complete (circular.foldl after {}).items "both" ∧
      ((circular.foldl after {}).resolve "all").1 = .error (.fragmentCycle ["all", "some", "all"]) ∧
      ∃ way last, (way ++ [last]).head? = some "all" ∧
        (way ++ [last]).IsChain (Breaks (circular.foldl after {}).items) ∧ way.Nodup ∧
        EndsIn (circular.foldl after {}).items way last
          (.fragmentCycle ["all", "some", "all"]) := by
  have htrue := truthful_afterAll (s := {}) truthful_empty circular
  have hboth := (resolve_of_truthful htrue "both").1.trans
    (expansion_circular_both (by decide) (by decide))
  have hall := (resolve_of_truthful htrue "all").1.trans expansion_circular_all
  obtain ⟨-, -, -, hcomplete, -, -, -⟩ := resolve_substitutes rfl "both"
  obtain ⟨-, -, -, -, -, hrefused, -⟩ := resolve_substitutes rfl "all"
  exact ⟨hcomplete.mp ⟨_, hboth⟩, hall, hrefused _ hall⟩

end ItemStore

end SqlService
