import Mathlib.Data.List.Nodup
import SqlService.Proofs.Flow.Log

/-!
# Invocations of flows

A flow may be invoked many times in a run, by other flows or by itself, and the steps of all the
invocations stand in one log.  The positions that lead to a step tell them apart: no two steps of a
run stand at the same place.  What a step finds in the state is made up by its own invocation alone,
out of the input and of what the earlier steps of the invocation have put there, one after another
and all of them completed.

Main statements: `RunLog.nodup_place` and `RunLog.follows`.
-/

namespace SqlService

theorem Dictionary.insertAll_append {α : Type} (d : Dictionary α) (front back : List (String × α)) :
    d.insertAll (front ++ back) = (d.insertAll front).insertAll back :=
  List.foldl_append

/-! ## §1 Places -/

namespace Start

/-- The positions that lead to the step, its own first. -/
def place (x : Start) : List Nat := x.position :: x.callers

/-- The step is one of the same invocation, at an earlier position. -/
def Precedes (x y : Start) : Prop := x.callers = y.callers ∧ x.position < y.position

instance (x y : Start) : Decidable (x.Precedes y) :=
  inferInstanceAs (Decidable (x.callers = y.callers ∧ x.position < y.position))

/-- What the step puts into the state of its flow: its output, if it has one. -/
def put (x : Start) : List (String × Json) :=
  match x.outcome with
  | .ok v => [(x.step.name, v)]
  | .error _ => []

/-- The state that the step leaves to the next one. -/
def left (x : Start) : Record := x.state.insertAll x.put

/-- The steps of the log that precede this one. -/
def earlier (log : List Start) (y : Start) : List Start :=
  log.filter fun x => decide (x.Precedes y)

/-- What has been put into the state before the step. -/
def outputs (log : List Start) (y : Start) : List (String × Json) := (earlier log y).flatMap put

theorem mem_earlier_iff {log : List Start} {x y : Start} :
    x ∈ earlier log y ↔ x ∈ log ∧ x.Precedes y := by
  rw [earlier, List.mem_filter, decide_eq_true_iff]

theorem earlier_append (front back : List Start) (y : Start) :
    earlier (front ++ back) y = earlier front y ++ earlier back y :=
  List.filter_append front back

/-- The predecessors of a step in a log of three parts. -/
theorem earlier_parts (x y : Start) (inner more : List Start) :
    earlier (x :: (inner ++ more)) y = earlier [x] y ++ (earlier inner y ++ earlier more y) := by
  rw [← earlier_append, ← earlier_append, List.singleton_append]

/-- No step precedes one of another invocation. -/
theorem earlier_eq_nil {log : List Start} {y : Start} (h : ∀ x ∈ log, x.callers ≠ y.callers) :
    earlier log y = [] :=
  List.filter_eq_nil_iff.mpr fun x hx => by
    rw [decide_eq_true_iff]
    exact fun hprecedes => h x hx hprecedes.1

end Start

/-! ## §2 Arrangements -/

/-- The state in which a flow starts. -/
def Flow.initial (input : Json) : Record := Dictionary.ofList [("input", input)]

/-- How the steps that are left of an invocation stand in a log, from a position and a state on:
each in front of what it starts in turn, and the others behind that if it has completed. -/
inductive Arranged : List Nat → String → Nat → Record → List Start → Prop where
  | nil (callers : List Nat) (name : String) (position : Nat) (state : Record) :
      Arranged callers name position state []
  | cons {x : Start} {inner more : List Start}
      (hkind : inner ≠ [] → x.step.kind = .flow)
      (hinner : Arranged x.place x.step.service 0 (Flow.initial (Record.toJson x.args)) inner)
      (hdone : more ≠ [] → ∃ v, x.outcome = .ok v)
      (hmore : Arranged x.callers x.flow (x.position + 1) x.left more) :
      Arranged x.callers x.flow x.position x.state (x :: (inner ++ more))

section Logs

open Program (Event)

variable {services : Services} {c c' : Context} {acts : List Act} {r : Except FlowError Json}
  {log : List Start}

/-- The steps of a flow are arranged so if those of nested flows are. -/
theorem StepsTrace.arranged {nested : List Nat → Nat → String → Json → Trace} {callers : List Nat}
    {name : String} {offset position : Nat} {state : Record} {last : Json} {steps : List Step}
    (hnested : ∀ callers offset name input c acts r c' log,
      nested callers offset name input c acts r c' log →
      Arranged callers name 0 (Flow.initial input) log)
    (h : StepsTrace services nested callers name offset position state last steps c acts r c' log) :
    Arranged callers name position state log := by
  -- Only a step that runs a flow starts others in turn.
  have hinner : ∀ {offset position : Nat} {step : Step} {args : Record} {c c' : Context}
      {acts : List Act} {r : Except FlowError Json} {log : List Start},
      StepTrace services (nested (position :: callers) offset) step args c acts r c' log →
      (log ≠ [] → step.kind = .flow) ∧
        Arranged (position :: callers) step.service 0 (Flow.initial (Record.toJson args)) log := by
    intro offset position step args c c' acts r log h
    cases h with
    | sql => exact ⟨fun hne => absurd rfl hne, .nil _ _ _ _⟩
    | function => exact ⟨fun hne => absurd rfl hne, .nil _ _ _ _⟩
    | flow hkind h => exact ⟨fun _ => hkind, hnested _ _ _ _ _ _ _ _ _ h⟩
  induction h with
  | done => exact .nil _ _ _ _
  | cancelled => exact .nil _ _ _ _
  | @failed offset position state last step steps c c' acts e log h =>
    obtain ⟨hkind, harranged⟩ := hinner h
    let x : Start := ⟨callers, position, name, step, state, offset, c, acts.map Act.event,
      .error e, c'⟩
    have hlast : Arranged callers name position state (x :: (log ++ [])) :=
      .cons (x := x) hkind harranged (fun hne => absurd rfl hne) (.nil _ _ _ _)
    rwa [List.append_nil] at hlast
  | @next offset position state last output step steps c c1 c' acts rest r log more h hrest ih =>
    obtain ⟨hkind, harranged⟩ := hinner h
    exact .cons (x := ⟨callers, position, name, step, state, offset, c, acts.map Act.event,
      .ok output, c1⟩) hkind harranged (fun _ => ⟨output, rfl⟩) ih

theorem FlowTrace.arranged {levels offset : Nat} {callers : List Nat} {name : String}
    {input : Json} (h : FlowTrace services levels callers offset name input c acts r c' log) :
    Arranged callers name 0 (Flow.initial input) log := by
  induction levels generalizing callers offset name input c acts r c' log with
  | zero =>
    obtain ⟨-, -, -, rfl⟩ := h
    exact .nil _ _ _ _
  | succ levels ih =>
    rcases h with ⟨e, -, -, -, -, rfl⟩ | ⟨flow, -, h⟩
    · exact .nil _ _ _ _
    · exact h.arranged fun callers offset name input c acts r c' log => ih

theorem RunLog.arranged {root : String} {input : Json} {events : List Event}
    {result : ServiceResult} (h : RunLog services root input events result log) :
    Arranged [] root 0 (Flow.initial input) log := by
  obtain ⟨acts, h, -⟩ := h
  cases h with
  | intro h hlast => exact h.arranged

end Logs

/-! ## §3 Steps at different places -/

namespace Arranged

variable {callers : List Nat} {name : String} {position : Nat} {state : Record} {log : List Start}

/-- All that stands in the log is at a position of the invocation or below one. -/
theorem spread (h : Arranged callers name position state log) :
    ∀ y ∈ log, ∃ i, position ≤ i ∧ (i :: callers) <:+ y.place := by
  -- What a step starts in turn is below the step, wherever it is there.
  induction h with
  | nil => exact fun y hy => nomatch hy
  | @cons x inner more hkind hinner hdone hmore ihinner ihmore =>
    intro y hy
    rcases List.mem_cons.mp hy with rfl | hy
    · exact ⟨y.position, Nat.le_refl _, List.suffix_rfl⟩
    · rcases List.mem_append.mp hy with hy | hy
      · obtain ⟨i, -, hi⟩ := ihinner y hy
        exact ⟨x.position, Nat.le_refl _, (List.suffix_cons i x.place).trans hi⟩
      · obtain ⟨i, hle, hi⟩ := ihmore y hy
        exact ⟨i, Nat.le_of_succ_le hle, hi⟩

theorem callers_suffix (h : Arranged callers name position state log) :
    ∀ y ∈ log, callers <:+ y.callers := by
  intro y hy
  obtain ⟨i, -, hi⟩ := h.spread y hy
  rcases List.suffix_cons_iff.mp hi with heq | hsuffix
  · exact (List.cons.inj heq).2 ▸ List.suffix_rfl
  · exact (List.suffix_cons i callers).trans hsuffix

/-- Nothing stands below two positions of one invocation. -/
theorem position_eq {i k : Nat} {place : List Nat} (hi : (i :: callers) <:+ place)
    (hk : (k :: callers) <:+ place) : i = k :=
  (List.cons.inj ((List.suffix_of_suffix_length_le hi hk (Nat.le_refl _)).eq_of_length rfl)).1

variable {x y z : Start} {inner more : List Start}

/-- What a step starts in turn belongs to other invocations than the step. -/
theorem callers_ne_of_inner
    (hinner : Arranged x.place x.step.service 0 (Flow.initial (Record.toJson x.args)) inner)
    (hy : y ∈ inner) : x.callers ≠ y.callers := by
  intro heq
  have hlonger : x.place.length ≤ y.callers.length := (hinner.callers_suffix y hy).length_le
  rw [← heq, Start.place, List.length_cons] at hlonger
  omega

/-- The steps that come after another one in its invocation are at later positions. -/
theorem position_lt_of_more (hmore : Arranged x.callers x.flow (x.position + 1) x.left more)
    (hz : z ∈ more) (heq : z.callers = x.callers) : x.position < z.position := by
  obtain ⟨i, hlt, hi⟩ := hmore.spread z hz
  rw [Start.place, heq] at hi
  have hsame : i = z.position := position_eq hi List.suffix_rfl
  omega

theorem callers_ne_place (hmore : Arranged x.callers x.flow (x.position + 1) x.left more)
    (hz : z ∈ more) : x.callers ≠ z.place := by
  intro heq
  have hlonger : x.callers.length ≤ z.callers.length := (hmore.callers_suffix z hz).length_le
  rw [heq, Start.place, List.length_cons] at hlonger
  omega

section Parts

variable (hinner : Arranged x.place x.step.service 0 (Flow.initial (Record.toJson x.args)) inner)
  (hmore : Arranged x.callers x.flow (x.position + 1) x.left more)

include hinner hmore

/-- What a step starts in turn belongs to other invocations than all that comes after it. -/
theorem callers_ne_of_more (hy : y ∈ inner) (hz : z ∈ more) : y.callers ≠ z.callers := by
  intro heq
  obtain ⟨i, hlt, hi⟩ := hmore.spread z hz
  have hbelow : x.place <:+ z.place := by
    have hy : x.place <:+ y.callers := hinner.callers_suffix y hy
    rw [heq] at hy
    exact hy.trans (List.suffix_cons z.position z.callers)
  have hsame : x.position = i := position_eq hbelow hi
  omega

/-- The first step has no predecessor. -/
theorem earlier_first : Start.earlier (x :: (inner ++ more)) x = [] := by
  refine List.filter_eq_nil_iff.mpr fun z hz => ?_
  rw [decide_eq_true_iff]
  rintro ⟨hcallers, hlt⟩
  rcases List.mem_cons.mp hz with rfl | hz
  · exact Nat.lt_irrefl _ hlt
  · rcases List.mem_append.mp hz with hz | hz
    · exact hinner.callers_ne_of_inner hz hcallers.symm
    · exact Nat.lt_asymm hlt (hmore.position_lt_of_more hz hcallers)

/-- What a step starts in turn has all its predecessors there. -/
theorem earlier_inner (hy : y ∈ inner) :
    Start.earlier (x :: (inner ++ more)) y = Start.earlier inner y := by
  have hfirst : Start.earlier [x] y = [] :=
    Start.earlier_eq_nil (List.forall_mem_singleton.mpr (hinner.callers_ne_of_inner hy))
  have hlater : Start.earlier more y = [] :=
    Start.earlier_eq_nil fun z hz => (hinner.callers_ne_of_more hmore hy hz).symm
  rw [Start.earlier_parts, hfirst, hlater, List.append_nil, List.nil_append]

/-- What comes later has none of its predecessors among what the first step starts in turn. -/
theorem earlier_more (hy : y ∈ more) :
    Start.earlier (x :: (inner ++ more)) y = Start.earlier [x] y ++ Start.earlier more y := by
  have hinside : Start.earlier inner y = [] :=
    Start.earlier_eq_nil fun z hz => hinner.callers_ne_of_more hmore hz hy
  rw [Start.earlier_parts, hinside, List.nil_append]

/-- The first step precedes a later one of the same invocation. -/
theorem earlier_more_of_eq (hy : y ∈ more) (hcallers : y.callers = x.callers) :
    Start.earlier (x :: (inner ++ more)) y = x :: Start.earlier more y := by
  have hprecedes : x.Precedes y := ⟨hcallers.symm, hmore.position_lt_of_more hy hcallers⟩
  have hfirst : Start.earlier [x] y = [x] := List.filter_cons_of_pos (decide_eq_true hprecedes)
  rw [earlier_more hinner hmore hy, hfirst, List.singleton_append]

theorem earlier_more_of_ne (hy : y ∈ more) (hcallers : x.callers ≠ y.callers) :
    Start.earlier (x :: (inner ++ more)) y = Start.earlier more y := by
  have hfirst : Start.earlier [x] y = [] :=
    Start.earlier_eq_nil (List.forall_mem_singleton.mpr hcallers)
  rw [earlier_more hinner hmore hy, hfirst, List.nil_append]

end Parts

/-- No two steps stand at the same place. -/
theorem nodup_place (h : Arranged callers name position state log) :
    (log.map Start.place).Nodup := by
  induction h with
  | nil => exact List.nodup_nil
  | @cons x inner more hkind hinner hdone hmore ihinner ihmore =>
    rw [List.map_cons, List.map_append, List.nodup_cons, List.nodup_append, List.mem_append]
    refine ⟨?_, ihinner, ihmore, ?_⟩
    -- The first step is neither below itself nor at a later position.
    · rintro (h | h)
      · obtain ⟨y, hy, heq⟩ := List.mem_map.mp h
        exact hinner.callers_ne_of_inner hy (List.cons.inj heq).2.symm
      · obtain ⟨z, hz, heq⟩ := List.mem_map.mp h
        obtain ⟨hposition, hcallers⟩ := List.cons.inj heq
        exact absurd hposition.symm (Nat.ne_of_lt (hmore.position_lt_of_more hz hcallers))
    · intro a ha b hb heq
      obtain ⟨y, hy, rfl⟩ := List.mem_map.mp ha
      obtain ⟨z, hz, rfl⟩ := List.mem_map.mp hb
      exact hinner.callers_ne_of_more hmore hy hz (List.cons.inj heq).2

end Arranged

/-! ## §4 What a step finds -/

namespace Start

/-- The step comes after others of its flow, which begin at a position and in a state: all positions
in between are taken, all steps there have completed, and the state is the one that they leave. -/
structure Follows (y : Start) (first : Nat) (state : Record) (before : List Start) : Prop where
  positions : before.map Start.position = List.range' first (y.position - first)
  flow : ∀ x ∈ before, x.flow = y.flow
  completed : ∀ x ∈ before, ∃ v, x.outcome = .ok v
  state_eq : y.state = state.insertAll (before.flatMap put)

/-- The step that a flow begins with follows none. -/
theorem follows_nil (y : Start) : y.Follows y.position y.state [] where
  positions := by
    rw [Nat.sub_self]
    rfl
  flow := nofun
  completed := nofun
  state_eq := rfl

/-- One more step in front of those that are followed. -/
theorem Follows.cons {x y : Start} {before : List Start}
    (h : y.Follows (x.position + 1) x.left before) (hflow : x.flow = y.flow)
    (hcompleted : ∃ v, x.outcome = .ok v) (hlt : x.position < y.position) :
    y.Follows x.position x.state (x :: before) where
  positions := by
    have hcount : y.position - x.position = y.position - (x.position + 1) + 1 := by omega
    rw [hcount, List.range'_succ, List.map_cons, h.positions]
  flow := List.forall_mem_cons.mpr ⟨hflow, h.flow⟩
  completed := List.forall_mem_cons.mpr ⟨hcompleted, h.completed⟩
  state_eq := by
    rw [h.state_eq, left, List.flatMap_cons, Dictionary.insertAll_append]

end Start

/-- A step of the invocation itself follows the earlier ones of it, and any other step follows those
of an invocation that a step of the log runs. -/
theorem Arranged.follows {callers : List Nat} {name : String} {position : Nat} {state : Record}
    {log : List Start} (h : Arranged callers name position state log) :
    ∀ y ∈ log,
      (y.callers = callers ∧ y.flow = name ∧
        y.Follows position state (Start.earlier log y)) ∨
      ∃ x ∈ log, x.step.kind = .flow ∧ y.callers = x.place ∧ y.flow = x.step.service ∧
        y.Follows 0 (Flow.initial (Record.toJson x.args)) (Start.earlier log y) := by
  induction h with
  | nil => exact fun y hy => nomatch hy
  | @cons x inner more hkind hinner hdone hmore ihinner ihmore =>
    intro y hy
    rcases List.mem_cons.mp hy with rfl | hy
    · rw [earlier_first hinner hmore]
      exact .inl ⟨rfl, rfl, y.follows_nil⟩
    · rcases List.mem_append.mp hy with hy | hy
      · rw [earlier_inner hinner hmore hy]
        -- Of the nested flows the outermost is the one that the first step runs.
        rcases ihinner y hy with ⟨hcallers, hflow, hfollows⟩ | ⟨z, hz, hfollows⟩
        · exact .inr ⟨x, List.mem_cons_self, hkind (List.ne_nil_of_mem hy), hcallers, hflow,
            hfollows⟩
        · exact .inr ⟨z, List.mem_cons_of_mem _ (List.mem_append_left _ hz), hfollows⟩
      · rcases ihmore y hy with ⟨hcallers, hflow, hfollows⟩ | ⟨z, hz, hzkind, hcallers, hrest⟩
        · rw [earlier_more_of_eq hinner hmore hy hcallers]
          exact .inl ⟨hcallers, hflow, hfollows.cons hflow.symm (hdone (List.ne_nil_of_mem hy))
            (hmore.position_lt_of_more hy hcallers)⟩
        · rw [earlier_more_of_ne hinner hmore hy (hcallers ▸ hmore.callers_ne_place hz)]
          exact .inr ⟨z, List.mem_cons_of_mem _ (List.mem_append_right _ hz), hzkind, hcallers,
            hrest⟩

/-! ## §5 Runs -/

/-- The input of the flow that a step belongs to: that of the run for the root, and for any other
flow the arguments of the step that runs it. -/
inductive Start.Input (input : Json) (log : List Start) (y : Start) : Json → Prop where
  | root (h : y.callers = []) : Start.Input input log y input
  | nested {x : Start} (hx : x ∈ log) (hkind : x.step.kind = .flow)
      (hcallers : y.callers = x.place) (hflow : y.flow = x.step.service) :
      Start.Input input log y (Record.toJson x.args)

/-- A step belongs to one flow with one input. -/
theorem Start.Input.unique {input v w : Json} {log : List Start} {y : Start}
    (hplace : (log.map place).Nodup) (hv : y.Input input log v) (hw : y.Input input log w) :
    v = w := by
  cases hv with
  | root hroot =>
    cases hw with
    | root => rfl
    | nested _ _ hcallers => exact absurd (hroot.symm.trans hcallers) nofun
  | nested hx _ hcallers =>
    cases hw with
    | root hroot => exact absurd (hroot.symm.trans hcallers) nofun
    | nested hx' _ hcallers' =>
      rw [List.inj_on_of_nodup_map hplace hx hx' (hcallers.symm.trans hcallers')]

open Program (Event)

variable {services : Services} {root : String} {input : Json} {events : List Event}
  {result : ServiceResult} {log : List Start}

/-- In a run no two steps stand at the same place. -/
theorem RunLog.nodup_place (h : RunLog services root input events result log) :
    (log.map Start.place).Nodup := h.arranged.nodup_place

/-- In a run every step follows all the earlier ones of its invocation, from the input on. -/
theorem RunLog.follows (h : RunLog services root input events result log) {y : Start}
    (hy : y ∈ log) :
    ∃ own, y.Input input log own ∧ y.Follows 0 (Flow.initial own) (Start.earlier log y) := by
  rcases h.arranged.follows y hy with ⟨hcallers, -, hfollows⟩ | ⟨x, hx, hkind, hcallers, hflow, hf⟩
  · exact ⟨input, .root hcallers, hfollows⟩
  · exact ⟨_, .nested hx hkind hcallers hflow, hf⟩

end SqlService
