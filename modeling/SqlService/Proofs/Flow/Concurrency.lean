import SqlService.Proofs.Effect.Interleaving
import SqlService.Proofs.Flow.Parts
import SqlService.Proofs.Flow.Trace

/-!
# Concurrent runs

Runs over the same services share what is remembered of expanded items, and nothing else.  What a
run reads there is what it would have worked out by itself, and what it writes is true of the items,
also if it fails on the way.  So a run whose functions are pure is determined by the answers to its
own calls, whatever other runs do in between.

Main statement: `Services.runs_undisturbed`.
-/

namespace SqlService

/-! ## §1 Pure functions -/

namespace Functions

/-- What the functions do depends on their arguments only. -/
def Pure (fs : Functions) : Prop :=
  ∀ name f, fs.byName.get? name = some f → ∀ args m n, f args m = f args n

theorem Pure.invoke {fs : Functions} (h : fs.Pure) (name : String) (args : Record) (m n : Nat) :
    fs.invoke name args m = fs.invoke name args n := by
  unfold Functions.invoke
  cases hf : fs.byName.get? name with
  | none => rfl
  | some f =>
    dsimp only
    rw [h name f hf args m n]

theorem samples_pure : samples.Pure := by
  intro name f hf
  have hmem : (name, f) ∈ Entries.collect _ := Dictionary.get?_eq_some_iff.mp hf
  rw [Entries.collect_of_nodup (by decide)] at hmem
  simp only [List.mem_cons, Prod.mk.injEq, List.not_mem_nil, or_false] at hmem
  rcases hmem with h | h | h | h | h | h | h | h | h <;> exact h.2 ▸ fun _ _ _ => rfl

end Functions

/-! ## §2 Determined tasks -/

theorem Request.isCall_of_name? {q : Request} {name : String} (h : q.name? = some name) :
    q.isCall = true := by
  cases q <;> first | rfl | cases h

theorem Request.isCall_of_isMemory {q : Request} (h : q.isMemory = true) : q.isCall = false := by
  cases q <;> first | rfl | cases h

namespace FlowM

variable {items : Dictionary Item} {α β : Type}

/-- The task is determined in every context. -/
def Determined (items : Dictionary Item) (t : FlowM α) : Prop :=
  ∀ c, SqlService.Determined items (t.runIn c)

namespace Determined

/-- A task that makes no request. -/
theorem of_silent {t : FlowM α} (h : ∀ c, ∃ x, t.runIn c = .done x) : t.Determined items := by
  intro c
  obtain ⟨x, hx⟩ := h c
  rw [hx]
  exact .done x

theorem bind {t : FlowM α} {f : α → FlowM β} (ht : t.Determined items)
    (hf : ∀ a, (f a).Determined items) : (t >>= f).Determined items := by
  intro c
  rw [runIn_bind]
  refine (ht c).andThen fun r => ?_
  obtain ⟨x, c1⟩ := r
  cases x with
  | ok a => exact hf a c1
  | error e => exact .done _

theorem request {q : Request} (h : q.isCall = true) : (FlowM.request q).Determined items :=
  fun _ => .call h fun _ => .done _

/-- A look around that makes no difference to what follows. -/
theorem observe_bind {f : Nat → FlowM α} (hsame : ∀ m n, f m = f n)
    (hf : (f 0).Determined items) : (FlowM.request .observe >>= f).Determined items :=
  fun c => .observe (fun m n => congrArg (runIn · c) (hsame m n)) (hf c)

theorem attempt {a : Attempt DataError α} (h : SqlService.Determined items a.run) :
    (FlowM.attempt a).Determined items :=
  fun _ => h.andThen fun r => by cases r <;> exact .done _

theorem ensureTransaction (name : String) (s : Session) :
    (FlowM.ensureTransaction name s).Determined items := by
  intro c
  have hs : SqlService.Determined items s.ensureTransaction := by
    unfold Session.ensureTransaction
    split
    · exact .done _
    · split
      · exact .done _
      · exact .call rfl fun reply => by cases reply <;> exact .done _
  exact hs.andThen fun r => .done _

theorem markingFailure {t : FlowM α} (ht : t.Determined items) :
    (Services.markingFailure t).Determined items := by
  intro c
  refine (ht c).andThen fun r => ?_
  obtain ⟨x, c1⟩ := r
  cases x <;> exact .done _

/-- A pure function does not make anything of what is around it. -/
theorem runFunction {services : Services} (hpure : services.functions.Pure) (step : Step)
    (args : Record) : (services.runFunction step args).Determined items := by
  unfold Services.runFunction
  -- The look around does not tell the function anything, so it is looked at once for all.
  refine observe_bind (fun m n => ?_) ?_
  · rw [hpure.invoke step.service args m n]
  · dsimp only
    -- What the function does is either to cancel the run or nothing that takes a request.
    split
    · refine (request (q := .cancel) rfl).bind fun _ => of_silent fun c => ?_
      split <;> exact ⟨_, rfl⟩
    · refine of_silent fun c => ?_
      split <;> exact ⟨_, rfl⟩

end Determined

end FlowM

/-- Whatever a flow does is determined, if its functions are pure. -/
theorem Parts.determined {services : Services} (hpure : services.functions.Pure) {α : Type}
    {t : FlowM α} (h : Parts services t) : t.Determined services.items := by
  induction h with
  | silent h => exact .of_silent h
  | connect name settings => exact .request rfl
  | transaction name s => exact .ensureTransaction name s
  | expansion name =>
    -- Whatever of the memory is there, the item expands as without memory.
    refine .attempt (.of_upholds (Fragment.yields_expand (by simp)) ?_)
    exact fun events r h e he =>
      Request.isCall_of_isMemory (Fragment.expand_memory _ _ _ events r h e he)
  | statements h =>
    refine .attempt (.of_calls fun events r hruns e he => ?_)
    exact Request.isCall_of_name? (Request.name?_of_statement? (h events r hruns e he))
  | function step args => exact .runFunction hpure step args
  | look hset _ ih =>
    refine (FlowM.Determined.request rfl).bind fun stop => ?_
    cases stop with
    | true => exact hset ▸ .of_silent fun c => ⟨_, rfl⟩
    | false => exact ih
  | bind _ _ iht ihf => exact iht.bind ihf
  | marking _ ih => exact ih.markingFailure

/-! ## §3 Runs -/

/-- Ending the sessions takes only calls. -/
theorem Context.determined_finalize (items : Dictionary Item) (c : Context) :
    Determined items c.finalize := by
  refine .of_calls fun events c' h e he => ?_
  obtain ⟨name, s, -, -, hq⟩ := mem_of_runs_finalize h he
  exact Request.isCall_of_name? (Session.finishes_of_mem_endings hq).2.2

namespace Services

/-- A run is determined, if its functions are pure. -/
theorem run_determined {services : Services} (hpure : services.functions.Pure) (flow : String)
    (input : Json) : Determined services.items (services.run flow input) := by
  have hexecute : (services.execute flow input).Determined services.items :=
    ((parts_runFlow _ flow input).determined hpure).markingFailure
  exact (hexecute {}).andThen fun r =>
    (r.2.determined_finalize services.items).andThen fun _ => .done _

/-- Runs over the same services do not disturb each other.  They take turns in any order, one
request at a time, and share a memory that any calls on its store have left behind; every other
request is answered by what the run has called for.  Whatever turns have been taken, each run has
made calls that it makes alone, from the first one on, and once it has ended it has made all of them
and its result is the one that it has alone.  A run whose turn comes again and again ends. -/
theorem runs_undisturbed {ι : Type} [DecidableEq ι] (services : Services)
    (hpure : services.functions.Pure) (history : List ItemStore.Call)
    (hitems : services.items = (history.foldl ItemStore.after {}).items)
    (flows : ι → String × Json) (answers : ι → Answers) (around : Nat) (i : ι) :
    let memory := (history.foldl ItemStore.after {}).memory
    let programs := fun i => services.run (flows i).1 (flows i).2
    let alone := (programs i).run (serve (answers i) around) (memory, [])
    let shared := (Shared.initial memory programs).after answers
    (∀ turns, ((shared turns).jobs i).calls <+: alone.2.2 ∧
      ∀ result, ((shared turns).jobs i).program = .done result →
        result = alone.1 ∧ ((shared turns).jobs i).calls = alone.2.2) ∧
    ∀ schedule : Nat → ι × Nat, (∀ n, ∃ k, (schedule (n + k)).1 = i) →
      ∃ n result, ((shared ((List.range n).map schedule)).jobs i).program = .done result := by
  -- The store has been used before, but what it remembers is true.
  intro memory programs alone shared
  have hmemory : Fragment.Truthful services.items memory :=
    hitems ▸ ItemStore.truthful_afterAll Fragment.truthful_empty history
  exact Shared.undisturbed hmemory (fun i => run_determined hpure (flows i).1 (flows i).2)
    answers around i

end Services

namespace Cart

/-- The part that the texts of both items have in common. -/
def mine : Item := { name := "mine", text := "WHERE owner = 7" }

def clearMine : Item :=
  { name := "clear", text := "DELETE FROM cart \x7b\x7bmine\x7d\x7d", connection := "main",
    kind := .execute }

def listMine : Item :=
  { name := "list", text := "SELECT * FROM cart \x7b\x7bmine\x7d\x7d", connection := "main",
    readOnly := true }

/-- What was done with the items before: they were added, and no text was asked for. -/
def past : List ItemStore.Call := [.add mine, .add clearMine, .add listMine]

/-- The services of an owner, with functions that steps could invoke. -/
def owned : Services :=
  { services with
    items := (past.foldl ItemStore.after {}).items
    flows := Dictionary.ofList
      [("empty", { name := "empty",
                   steps := [{ name := "cleared", kind := .sql, service := "clear" }] }),
        ("show", { name := "show",
                   steps := [{ name := "listed", kind := .sql, service := "list" }] })]
    functions := .samples }

/-- Two runs: the first empties the cart, the second lists it. -/
def visits (first : Bool) : String × Json := (if first then "empty" else "show", .null)

/-- The runs take turns. -/
def alternating (n : Nat) : Bool × Nat := (n % 2 == 0, n)

/-- What happens when an item is expanded for the first time, and the common part with it. -/
def expanding (name text : String) : List Program.Event :=
  [⟨.remembered name, none⟩, ⟨.remembered "mine", none⟩, ⟨.remember "mine" mine.text, ()⟩,
    ⟨.remember name text, ()⟩]

theorem runs_expanding (item : Item) {front : List Char}
    (hi : owned.items.get? item.name = some item) (hname : item.name ≠ "mine")
    (hsegments : Segment.segments item.text.toList =
      [.literal front, .reference "mine", .literal []]) :
    (Fragment.expand owned.items [] item.name).run.Runs
      (expanding item.name (String.ofList front ++ mine.text))
      (.ok (String.ofList front ++ mine.text)) := by
  -- The item that both refer to is literal text, and it is expanded under the item that refers to
  -- it.
  have hmine : Segment.segments mine.text.toList = [.literal mine.text.toList] := by
    decide +kernel
  have hliteral : (Fragment.expandAll owned.items ([item.name] ++ ["mine"])
      [.literal mine.text.toList]).run.Runs [] (.ok mine.text) := by
    simpa only [String.ofList_toList, String.append_empty] using
      Fragment.runs_expandAll_literal mine.text.toList (Fragment.runs_expandAll_nil _ _)
  have hpart : (Fragment.expand owned.items [item.name] "mine").run.Runs
      [⟨.remembered "mine", none⟩, ⟨.remember "mine" mine.text, ()⟩] (.ok mine.text) :=
    Fragment.runs_expand_of_forgotten (by simpa using hname.symm) rfl (hmine ▸ hliteral)
  have hrest : (Fragment.expandAll owned.items [item.name] [.literal []]).run.Runs [] (.ok "") :=
    Fragment.runs_expandAll_literal [] (Fragment.runs_expandAll_nil _ _)
  have hall : (Fragment.expandAll owned.items ([] ++ [item.name])
      (Segment.segments item.text.toList)).run.Runs
      [⟨.remembered "mine", none⟩, ⟨.remember "mine" mine.text, ()⟩]
      (.ok (String.ofList front ++ mine.text)) := by
    have hparts :=
      Fragment.runs_expandAll_literal front (Fragment.runs_expandAll_reference hpart hrest)
    rw [String.append_empty] at hparts
    rw [hsegments]
    exact hparts
  exact Fragment.runs_expand_of_forgotten List.not_mem_nil hi hall

/-- What happens when the cart is emptied. -/
def clearing : List Program.Event :=
  ⟨.isCancelled, false⟩ :: (expanding "clear" "DELETE FROM cart WHERE owner = 7" ++
    [⟨.connect "main" settings, .ok "shop"⟩, ⟨.begin link, .ok ()⟩,
      ⟨.execute link "DELETE FROM cart WHERE owner = 7" ∅, .ok (1 : UInt64)⟩,
      ⟨.commit link, .ok ()⟩, ⟨.close link, .ok ()⟩])

/-- What happens when the cart is listed. -/
def showing : List Program.Event :=
  ⟨.isCancelled, false⟩ :: (expanding "list" "SELECT * FROM cart WHERE owner = 7" ++
    [⟨.connect "main" settings, .ok "shop"⟩,
      ⟨.query link "SELECT * FROM cart WHERE owner = 7" ∅, .ok ([] : List Record)⟩,
      ⟨.close link, .ok ()⟩])

theorem runs_clearing :
    Program.Runs (owned.run "empty" .null) clearing (.ofOutcome (.ok (.ofUInt64 1))) := by
  have hsegments : Segment.segments clearMine.text.toList =
      [.literal "DELETE FROM cart ".toList, .reference "mine", .literal []] := by decide +kernel
  have hexpand := runs_expanding clearMine rfl (by decide) hsegments
  have hclear : FlowM.Runs (owned.runSql "clear" ∅) {} ((clearing.drop 1).take 7)
      (.ok (.ofUInt64 1)) context := by
    refine FlowM.runs_ofData_bind_iff.mpr (.inl ⟨_, rfl, ?_⟩)
    refine FlowM.runs_attempt_bind_iff.mpr (.inl ⟨_, _, _, rfl, hexpand, ?_⟩)
    refine FlowM.runs_lift_bind_iff.mpr (.inl ⟨_, rfl, ?_⟩)
    refine FlowM.runs_bind_iff.mpr (.inl ⟨_, _, _, _, rfl, runs_openSession, ?_⟩)
    refine .ask (.begin link) _ (.ok ()) _ _ ?_
    exact .ask (.execute link _ ∅) _ (.ok (1 : UInt64)) _ _ (.done _)
  exact Services.runs_iff_traces.mpr ⟨_, _, .intro
    (.inr ⟨_, rfl, .next (.sql rfl hclear) (.done _ _ _ _ _)⟩)
    (runs_finalize (.ok ()) (.ok ())), rfl⟩

/-- The context after the listing. -/
def shown : Context := ({} : Context).set "main" { link, dialect := .mysql, executed := 1 }

theorem runs_showing :
    Program.Runs (owned.run "show" .null) showing (.ofOutcome (.ok (.array []))) := by
  have hsegments : Segment.segments listMine.text.toList =
      [.literal "SELECT * FROM cart ".toList, .reference "mine", .literal []] := by decide +kernel
  have hexpand := runs_expanding listMine rfl (by decide) hsegments
  have hshow : FlowM.Runs (owned.runSql "list" ∅) {} ((showing.drop 1).take 6)
      (.ok (.array [])) shown := by
    refine FlowM.runs_ofData_bind_iff.mpr (.inl ⟨_, rfl, ?_⟩)
    refine FlowM.runs_attempt_bind_iff.mpr (.inl ⟨_, _, _, rfl, hexpand, ?_⟩)
    refine FlowM.runs_lift_bind_iff.mpr (.inl ⟨_, rfl, ?_⟩)
    refine FlowM.runs_bind_iff.mpr (.inl ⟨_, _, _, _, rfl, runs_openSession, ?_⟩)
    exact .ask (.query link _ ∅) _ (.ok ([] : List Record)) _ _ (.done _)
  have hlast : shown.finalize.Runs [⟨.close link, .ok ()⟩] shown.ended :=
    .ask (.close link) _ (.ok ()) _ _ (.done _)
  exact Services.runs_iff_traces.mpr ⟨_, _, .intro
    (.inr ⟨_, rfl, .next (.sql rfl hshow) (.done _ _ _ _ _)⟩) hlast, rfl⟩

end Cart

/-- Two runs that both expand their items, and both remember what the items have in common: each of
them makes the calls and comes to the result that it has alone. -/
theorem cart_undisturbed :
    let memory := (Cart.past.foldl ItemStore.after {}).memory
    let programs := fun first => Cart.owned.run (Cart.visits first).1 (Cart.visits first).2
    let alone := fun first =>
      (programs first).run (serve (fun _ => Cart.replies) 0) (memory, [])
    let shared := (Shared.initial memory programs).after fun _ _ => Cart.replies
    (∀ first, ∃ n result,
      let job := (shared ((List.range n).map Cart.alternating)).jobs first
      job.program = .done result ∧ result = (alone first).1 ∧ job.calls = (alone first).2.2) ∧
    memory.names = [] ∧ (alone true).2.1.names = ["mine", "clear"] ∧
      (alone false).2.1.names = ["mine", "list"] := by
  -- Turns that alternate come to each of the two runs again, at the next turn or the one after.
  intro memory programs alone shared
  have hfair : ∀ first n, ∃ k, (Cart.alternating (n + k)).1 = first := by
    intro first n
    cases first with
    | true => exact ⟨n % 2, by simp only [Cart.alternating, beq_iff_eq]; omega⟩
    | false => exact ⟨(n + 1) % 2, by simp only [Cart.alternating, beq_eq_false_iff_ne]; omega⟩
  refine ⟨fun first => ?_, rfl, ?_, ?_⟩
  · obtain ⟨hsame, hends⟩ := Services.runs_undisturbed Cart.owned Functions.samples_pure Cart.past
      rfl Cart.visits (fun _ _ => Cart.replies) 0 first
    obtain ⟨n, result, hdone⟩ := hends Cart.alternating (hfair first)
    exact ⟨n, result, hdone, (hsame _).2 result hdone⟩
  · have hreplied : Program.Replied (serve (fun _ => Cart.replies) 0) (memory, []) Cart.clearing
        (_, _) :=
      ⟨rfl, rfl, rfl, rfl, rfl, rfl, rfl, rfl, rfl, rfl, rfl⟩
    rw [show alone true = _ from (Cart.runs_clearing.of_replied hreplied).1]
    rfl
  · have hreplied : Program.Replied (serve (fun _ => Cart.replies) 0) (memory, []) Cart.showing
        (_, _) :=
      ⟨rfl, rfl, rfl, rfl, rfl, rfl, rfl, rfl, rfl⟩
    rw [show alone false = _ from (Cart.runs_showing.of_replied hreplied).1]
    rfl

end SqlService
