import Mathlib.Logic.Function.Basic
import SqlService.Proofs.Fragment.Memory

/-!
# Interleaved programs

Several programs run at once, one request of one of them at a time and in any order.  They share the
memory of expanded texts, which each of them reads and writes in between what the others do; every
other request is answered by what the program has itself asked for so far.  A program that is led to
one end by every true memory gets there whatever the others do, and the memory stays true.

Main statement: `Shared.undisturbed`.
-/

namespace SqlService

open Program (Event)
open Fragment (Recalled Learned Truthful)

variable {α β : Type}

/-! ## §1 Serving one program -/

/-- What answers the calls of a program: whatever is asked for in the light of all its calls
before. -/
abbrev Answers : Type := List Event → (q : Request) → q.Reply

/-- Whether a request is answered by the program's own calls: those to the memory that it shares
and the looks around it are not. -/
def Request.isCall : Request → Bool
  | remembered _ => false
  | remember _ _ => false
  | observe => false
  | _ => true

/-- Serves a request of a program that has made some calls before, with a memory and what a function
would find around it. -/
def serve (answers : Answers) (around : Nat) (w : Dictionary String × List Event) :
    (q : Request) → q.Reply × Dictionary String × List Event
  | .remembered item => (w.1.get? item, w)
  | .remember item text => ((), w.1.insert item text, w.2)
  | .observe => (around, w)
  | q => (answers w.2 q, w.1, w.2 ++ [⟨q, answers w.2 q⟩])

theorem serve_call (answers : Answers) (around : Nat) (memory : Dictionary String)
    (calls : List Event) {q : Request} (h : q.isCall = true) :
    serve answers around (memory, calls) q =
      (answers calls q, memory, calls ++ [⟨q, answers calls q⟩]) := by
  cases q <;> first | rfl | cases h

/-! ## §2 Where a program is led -/

/-- With a true memory the program makes calls until they are all of `calls'`, whatever else is
remembered and whatever functions find around them, and ends in the result; and what it remembers is
true. -/
def LeadsTo (items : Dictionary Item) (answers : Answers) (calls' : List Event) (a : α) :
    Program α → List Event → Prop
  | .done b, calls => calls = calls' ∧ b = a
  | .ask q next, calls =>
    if q.isCall then
      LeadsTo items answers calls' a (next (answers calls q)) (calls ++ [⟨q, answers calls q⟩])
    else
      Learned items q ∧
        ∀ r, Recalled items q r → LeadsTo items answers calls' a (next r) calls

/-- Wherever the program starts, it is led somewhere. -/
def Determined (items : Dictionary Item) (p : Program α) : Prop :=
  ∀ answers calls, ∃ calls' a, LeadsTo items answers calls' a p calls

variable {items : Dictionary Item} {answers : Answers} {calls calls' calls'' : List Event} {a : α}
  {b : β}

theorem leadsTo_done (a : α) : LeadsTo items answers calls a (.done a) calls := ⟨rfl, rfl⟩

theorem leadsTo_call {q : Request} {next : q.Reply → Program α} (h : q.isCall = true) :
    LeadsTo items answers calls' a (.ask q next) calls ↔
      LeadsTo items answers calls' a (next (answers calls q))
        (calls ++ [⟨q, answers calls q⟩]) := by
  rw [LeadsTo, if_pos h]

theorem leadsTo_aside {q : Request} {next : q.Reply → Program α} (h : q.isCall = false) :
    LeadsTo items answers calls' a (.ask q next) calls ↔
      Learned items q ∧
        ∀ r, Recalled items q r → LeadsTo items answers calls' a (next r) calls := by
  rw [LeadsTo, if_neg (by simp [h])]

theorem LeadsTo.andThen {p : Program α} {f : α → Program β}
    (hp : LeadsTo items answers calls' a p calls)
    (hf : LeadsTo items answers calls'' b (f a) calls') :
    LeadsTo items answers calls'' b (p.andThen f) calls := by
  -- By induction on the first program; a request that is no call leaves the calls as they are.
  induction p generalizing calls with
  | done c =>
    obtain ⟨rfl, rfl⟩ := hp
    exact hf
  | ask q next ih =>
    cases hq : q.isCall with
    | true =>
      rw [leadsTo_call hq] at hp
      exact (leadsTo_call hq).mpr (ih _ hp)
    | false =>
      obtain ⟨hlearned, hnext⟩ := (leadsTo_aside hq).mp hp
      exact (leadsTo_aside hq).mpr ⟨hlearned, fun r hr => ih r (hnext r hr)⟩

/-- Whatever is asked for may be answered in a way that is true. -/
theorem exists_recalled (items : Dictionary Item) (q : Request) : ∃ r, Recalled items q r := by
  cases q
  case remembered name => exact ⟨none, fun _ h => by cases h⟩
  all_goals
    obtain ⟨r⟩ := Request.nonempty_reply _
    exact ⟨r, trivial⟩

/-- Calls are only added. -/
theorem LeadsTo.isPrefix {p : Program α} (h : LeadsTo items answers calls' a p calls) :
    calls <+: calls' := by
  induction p generalizing calls with
  | done c =>
    obtain ⟨rfl, -⟩ := h
    exact List.prefix_rfl
  | ask q next ih =>
    cases hq : q.isCall with
    | true => exact (List.prefix_append _ _).trans (ih _ ((leadsTo_call hq).mp h))
    | false =>
      -- Some true answer leads on, and it leaves the calls alone.
      obtain ⟨r, hr⟩ := exists_recalled items q
      exact ih r (((leadsTo_aside hq).mp h).2 r hr)

/-- Serving one request leads on to the same end, and the memory stays true. -/
theorem LeadsTo.served {q : Request} {next : q.Reply → Program α}
    (h : LeadsTo items answers calls' a (.ask q next) calls) {memory : Dictionary String}
    (hmemory : Truthful items memory) (around : Nat) :
    let served := serve answers around (memory, calls) q
    LeadsTo items answers calls' a (next served.1) served.2.2 ∧ Truthful items served.2.1 := by
  cases hq : q.isCall with
  | true =>
    rw [serve_call answers around memory calls hq]
    exact ⟨(leadsTo_call hq).mp h, hmemory⟩
  | false =>
    obtain ⟨hlearned, hnext⟩ := (leadsTo_aside hq).mp h
    -- What is not a call is answered by the memory or by what is around.
    cases q with
    | remembered item => exact ⟨hnext _ fun text htext => hmemory item text htext, hmemory⟩
    | remember item text => exact ⟨hnext () trivial, hmemory.insert hlearned⟩
    | observe => exact ⟨hnext around trivial, hmemory⟩
    | _ => cases hq

/-- A program that runs alone with a true memory gets to where it is led. -/
theorem LeadsTo.run {p : Program α} (h : LeadsTo items answers calls' a p calls)
    {memory : Dictionary String} (hmemory : Truthful items memory) (around : Nat) :
    (p.run (serve answers around) (memory, calls)).1 = a ∧
      (p.run (serve answers around) (memory, calls)).2.2 = calls' := by
  -- By induction on the program, with a memory that stays true.
  induction p generalizing memory calls with
  | done b =>
    obtain ⟨rfl, rfl⟩ := h
    exact ⟨rfl, rfl⟩
  | ask q next ih =>
    obtain ⟨hnext, htrue⟩ := h.served hmemory around
    exact ih _ hnext htrue

/-! ## §3 Determined programs -/

namespace Determined

theorem done (a : α) : Determined items (.done a) := fun _ calls => ⟨calls, a, leadsTo_done a⟩

theorem andThen {p : Program α} {f : α → Program β} (hp : Determined items p)
    (hf : ∀ a, Determined items (f a)) : Determined items (p.andThen f) := by
  intro answers calls
  obtain ⟨calls', a, h⟩ := hp answers calls
  obtain ⟨calls'', b, hnext⟩ := hf a answers calls'
  exact ⟨calls'', b, h.andThen hnext⟩

theorem call {q : Request} {next : q.Reply → Program α} (hq : q.isCall = true)
    (hnext : ∀ r, Determined items (next r)) : Determined items (.ask q next) := by
  intro answers calls
  obtain ⟨calls', a, h⟩ := hnext _ answers _
  exact ⟨calls', a, (leadsTo_call hq).mpr h⟩

/-- A look around that makes no difference. -/
theorem observe {next : Nat → Program α} (hsame : ∀ m n, next m = next n)
    (hnext : Determined items (next 0)) : Determined items (.ask .observe next) := by
  intro answers calls
  obtain ⟨calls', a, h⟩ := hnext answers calls
  exact ⟨calls', a, (leadsTo_aside rfl).mpr ⟨trivial, fun around _ => hsame 0 around ▸ h⟩⟩

/-- A program all of whose requests are answered by its own calls. -/
theorem of_calls {p : Program α} (h : p.Only fun q => q.isCall = true) : Determined items p := by
  induction p with
  | done a => exact done a
  | ask q next ih => exact call h.first fun r => ih r (h.next r)

/-- A program that only asks for what is remembered, and ends in the same result whatever that
is. -/
theorem of_upholds {p : Program α} {a : α}
    (hp : Program.Upholds (Recalled items) (Learned items) (· = a) p)
    (hmemory : p.Only fun q => q.isCall = false) : Determined items p := by
  intro answers calls
  refine ⟨calls, a, ?_⟩
  -- By induction on the program, none of whose requests is a call.
  induction p with
  | done b => exact ⟨rfl, hp⟩
  | ask q next ih =>
    exact (leadsTo_aside hmemory.first).mpr
      ⟨hp.1, fun r hr => ih r (hp.2 r hr) (hmemory.next r)⟩

end Determined

/-! ## §4 Programs that share a memory -/

/-- A program on its way, with the calls that it has made. -/
structure Job (α : Type) where
  program : Program α
  calls : List Event := []

/-- Programs on their way and the memory that they share. -/
structure Shared (ι α : Type) where
  memory : Dictionary String
  jobs : ι → Job α

namespace Shared

variable {ι : Type} [DecidableEq ι]

/-- Programs that have not started. -/
def initial (memory : Dictionary String) (programs : ι → Program α) : Shared ι α :=
  ⟨memory, fun i => { program := programs i }⟩

/-- What a turn leaves: the program whose turn it is has one request served, if it has not ended.
The turn says what a function finds around it. -/
def next (answers : ι → Answers) (s : Shared ι α) (turn : ι × Nat) : Shared ι α :=
  match (s.jobs turn.1).program with
  | .done _ => s
  | .ask q next =>
    let served := serve (answers turn.1) turn.2 (s.memory, (s.jobs turn.1).calls) q
    ⟨served.2.1, Function.update s.jobs turn.1 ⟨next served.1, served.2.2⟩⟩

/-- What turns leave, one after another. -/
def after (answers : ι → Answers) (s : Shared ι α) (turns : List (ι × Nat)) : Shared ι α :=
  turns.foldl (next answers) s

variable {answers : ι → Answers} {s : Shared ι α} {i : ι}

theorem next_of_done {turn : ι × Nat} {a : α} (h : (s.jobs turn.1).program = .done a) :
    s.next answers turn = s := by
  simp only [next, h]

theorem next_of_ask (answers : ι → Answers) {turn : ι × Nat} {q : Request}
    {cont : q.Reply → Program α}
    (h : (s.jobs turn.1).program = .ask q cont) :
    let served := serve (answers turn.1) turn.2 (s.memory, (s.jobs turn.1).calls) q
    (s.next answers turn).memory = served.2.1 ∧
      (s.next answers turn).jobs turn.1 = ⟨cont served.1, served.2.2⟩ := by
  simp only [next, h, true_and]
  exact Function.update_self ..

/-- The programs whose turn it is not stay as they are. -/
theorem jobs_next_of_ne {turn : ι × Nat} (h : turn.1 ≠ i) :
    (s.next answers turn).jobs i = s.jobs i := by
  unfold next
  split
  · rfl
  · exact Function.update_of_ne (Ne.symm h) _ _

/-- The memory is true, and every program is led to its end. -/
structure Led (items : Dictionary Item) (answers : ι → Answers) (ends : ι → List Event × α)
    (s : Shared ι α) : Prop where
  memory : Truthful items s.memory
  jobs : ∀ i, LeadsTo items (answers i) (ends i).1 (ends i).2 (s.jobs i).program (s.jobs i).calls

/-- A turn leads every program on to its end. -/
theorem Led.next {ends : ι → List Event × α} (h : s.Led items answers ends) (turn : ι × Nat) :
    (s.next answers turn).Led items answers ends := by
  cases hprogram : (s.jobs turn.1).program with
  | done a =>
    rw [next_of_done hprogram]
    exact h
  | ask q cont =>
    obtain ⟨hmemory, hjob⟩ := next_of_ask answers hprogram
    obtain ⟨hnext, htrue⟩ := (hprogram ▸ h.jobs turn.1).served h.memory turn.2
    refine ⟨hmemory ▸ htrue, fun i => ?_⟩
    -- The program whose turn it is has been served, and no other one has changed.
    by_cases hi : turn.1 = i
    · subst hi
      rw [hjob]
      exact hnext
    · rw [jobs_next_of_ne hi]
      exact h.jobs i

theorem Led.after {ends : ι → List Event × α} (h : s.Led items answers ends)
    (turns : List (ι × Nat)) : (s.after answers turns).Led items answers ends := by
  induction turns generalizing s with
  | nil => exact h
  | cons turn turns ih => exact ih (h.next turn)

/-- A program whose turn comes again and again ends. -/
theorem exists_done (answers : ι → Answers) (s : Shared ι α) (schedule : Nat → ι × Nat)
    (hfair : ∀ n, ∃ k, (schedule (n + k)).1 = i) :
    ∃ n a, ((s.after answers ((List.range n).map schedule)).jobs i).program = .done a := by
  have hsucc : ∀ n, s.after answers ((List.range (n + 1)).map schedule) =
      (s.after answers ((List.range n).map schedule)).next answers (schedule n) := by
    intro n
    rw [List.range_succ, List.map_append, after, List.foldl_append]
    rfl
  -- The induction is on what is left of the program, at whatever time.
  suffices h : ∀ (p : Program α) (n : Nat),
      ((s.after answers ((List.range n).map schedule)).jobs i).program = p →
      ∃ n a, ((s.after answers ((List.range n).map schedule)).jobs i).program = .done a from
    h _ 0 rfl
  intro p
  induction p with
  | done a => exact fun n hn => ⟨n, a, hn⟩
  | ask q cont ih =>
    intro n hn
    obtain ⟨k, hk⟩ := hfair n
    -- Until its turn comes it stays as it is.
    induction k generalizing n with
    | zero =>
      obtain rfl : (schedule n).1 = i := hk
      exact ih _ (n + 1) (by rw [hsucc, (next_of_ask answers hn).2])
    | succ k ihk =>
      by_cases hi : (schedule n).1 = i
      · subst hi
        exact ih _ (n + 1) (by rw [hsucc, (next_of_ask answers hn).2])
      · refine ihk (n + 1) (by rw [hsucc, jobs_next_of_ne hi]; exact hn) ?_
        rw [← hk]
        congr 2
        omega

/-- Programs that are determined do not disturb each other.  Whatever turns they have had, what each
of them has called for is the beginning of what it calls for alone, and once it has ended its calls
and its result are those that it has alone.  A program whose turn comes again and again ends. -/
theorem undisturbed {items : Dictionary Item} {memory : Dictionary String}
    (hmemory : Truthful items memory) {programs : ι → Program α}
    (hprograms : ∀ i, Determined items (programs i)) (answers : ι → Answers) (around : Nat)
    (i : ι) :
    let alone := (programs i).run (serve (answers i) around) (memory, [])
    let shared := (initial memory programs).after answers
    (∀ turns, ((shared turns).jobs i).calls <+: alone.2.2 ∧
      ∀ a, ((shared turns).jobs i).program = .done a →
        a = alone.1 ∧ ((shared turns).jobs i).calls = alone.2.2) ∧
    ∀ schedule : Nat → ι × Nat, (∀ n, ∃ k, (schedule (n + k)).1 = i) →
      ∃ n a, ((shared ((List.range n).map schedule)).jobs i).program = .done a := by
  intro alone shared
  -- Each program is led to the end that it has alone, whatever the others do to the memory.
  choose calls result hled using fun i => hprograms i (answers i) []
  have hinitial : (initial memory programs).Led items answers fun i => (calls i, result i) :=
    ⟨hmemory, hled⟩
  have halone : alone.1 = result i ∧ alone.2.2 = calls i := (hled i).run hmemory around
  refine ⟨fun turns => ?_, fun schedule hfair => exists_done answers _ schedule hfair⟩
  have hjob := (hinitial.after turns).jobs i
  rw [halone.1, halone.2]
  refine ⟨hjob.isPrefix, fun a hdone => ?_⟩
  have hjob' : LeadsTo items (answers i) (calls i) (result i) (.done a)
      ((shared turns).jobs i).calls := hdone ▸ hjob
  exact ⟨hjob'.2, hjob'.1⟩

end Shared

end SqlService
