import SqlService.Proofs.Effect.Runs

/-!
# The cancel signal

A world is looked at twice: with a signal that is never set, and with one that is set after some
number of requests, or when a program asks for it, and stays set.  Up to the first look that comes
when the signal is set, a program does the same in both; there it finds the signal set.

Main statements: `transcript_signalled` and `look_signalled`.
-/

namespace SqlService.Program

variable {α World : Type} (respond : World → (q : Request) → q.Reply × World)

/-! ## §1 Two worlds -/

/-- The world in which the signal is never set. -/
def quiet (w : World) : (q : Request) → q.Reply × World
  | .isCancelled => (false, w)
  | q => respond w q

/-- The world in which the signal is set from a moment on, that many requests away, or from when it
is asked for; in all else it answers as without a signal. -/
def signalled (w : World × Nat) : (q : Request) → q.Reply × (World × Nat)
  | .isCancelled => (w.2 == 0, w.1, w.2 - 1)
  | .cancel => ((), (respond w.1 .cancel).2, 0)
  | q => ((respond w.1 q).1, (respond w.1 q).2, w.2 - 1)

/-- How many requests away the moment is after one more request. -/
def away (moment : Nat) : Request → Nat
  | .cancel => 0
  | _ => moment - 1

/-- Other requests than looks are answered as without a signal. -/
theorem signalled_eq {q : Request} (h : q ≠ .isCancelled) (w : World) (moment : Nat) :
    signalled respond (w, moment) q =
      ((quiet respond w q).1, (quiet respond w q).2, away moment q) := by
  cases q with
  | isCancelled => exact absurd rfl h
  | _ => rfl

/-! ## §2 Looks -/

/-- The positions of the looks that find the signal not set, where the first event is the `i`-th. -/
def passes (i : Nat) : List Event → List Nat
  | [] => []
  | ⟨.isCancelled, false⟩ :: rest => i :: passes (i + 1) rest
  | _ :: rest => passes (i + 1) rest

theorem passes_append (i : Nat) (first rest : List Event) :
    passes i (first ++ rest) = passes i first ++ passes (i + first.length) rest := by
  fun_induction passes i first with
  | case1 i => rfl
  | case2 i events ih =>
    rw [List.cons_append, passes, ih, List.length_cons, Nat.add_right_comm, List.cons_append,
      Nat.add_assoc]
  | case3 i e events he ih =>
    rw [List.cons_append, passes.eq_3 _ _ _ he, ih, List.length_cons, Nat.add_right_comm,
      Nat.add_assoc]

/-- Where nothing looks at the signal, no look is passed. -/
theorem passes_eq_nil {events : List Event} (h : ∀ e ∈ events, e.request ≠ .isCancelled)
    (i : Nat) : passes i events = [] := by
  fun_induction passes i events with
  | case1 i => rfl
  | case2 i events ih => exact absurd rfl (h _ List.mem_cons_self)
  | case3 i e events he ih => exact ih fun x hx => h x (List.mem_cons_of_mem _ hx)

/-- Counting from the next number moves each position by one. -/
theorem passes_succ (i : Nat) (events : List Event) :
    passes (i + 1) events = (passes i events).map (· + 1) := by
  fun_induction passes i events with
  | case1 i => rfl
  | case2 i events ih => rw [passes, ih, List.map_cons]
  | case3 i e events he ih => rw [passes.eq_3 _ _ _ he, ih]

/-- Whether the signal is set when the event at the position happens: it is from the moment on, and
from when it has been asked for. -/
def isSet (moment : Nat) (events : List Event) (i : Nat) : Bool :=
  moment ≤ i || (events.take i).any fun e => e.request matches .cancel

theorem isSet_zero (moment : Nat) (events : List Event) :
    isSet (moment + 1) events 0 = false := by
  simp [isSet]

theorem isSet_cons (moment : Nat) (e : Event) (events : List Event) (i : Nat) :
    isSet moment (e :: events) (i + 1) = isSet (away moment e.request) events i := by
  obtain ⟨q, r⟩ := e
  cases q <;> simp [isSet, away]

/-- The position of the first look that comes when the signal is set. -/
def firstSet? (moment : Nat) (events : List Event) : Option Nat :=
  (passes 0 events).find? (isSet moment events)

/-- Behind an event that passes no look at a set signal the first one is looked for in the rest. -/
theorem firstSet?_cons {moment : Nat} {e : Event} (events : List Event)
    (h : e.request = .isCancelled → 0 < moment) :
    firstSet? moment (e :: events) = (firstSet? (away moment e.request) events).map (· + 1) := by
  have hrest : (passes 1 events).find? (isSet moment (e :: events)) =
      (firstSet? (away moment e.request) events).map (· + 1) := by
    rw [passes_succ, List.find?_map, firstSet?]
    congr 2
    funext i
    exact isSet_cons moment e events i
  obtain ⟨q, r⟩ := e
  by_cases hlook : q = .isCancelled
  · subst hlook
    cases r with
    | true => exact hrest
    | false =>
      obtain ⟨moment, rfl⟩ := Nat.exists_eq_succ_of_ne_zero (Nat.pos_iff_ne_zero.mp (h rfl))
      rw [firstSet?, passes, List.find?_cons_of_neg (by simp [isSet_zero])]
      exact hrest
  · rw [firstSet?, passes.eq_3 _ _ _ fun he => hlook (congrArg Event.request he)]
    exact hrest

/-! ## §3 Programs -/

/-- Up to the first look that comes when the signal is set, a program does the same as without the
signal, and there it finds it set; if there is none it does the same to its end. -/
theorem transcript_signalled (p : Program α) (w : World) (moment : Nat) :
    match firstSet? moment (p.transcript (quiet respond) w) with
    | none =>
      p.transcript (signalled respond) (w, moment) = p.transcript (quiet respond) w ∧
        (p.run (signalled respond) (w, moment)).1 = (p.run (quiet respond) w).1
    | some i => ∃ rest, p.transcript (signalled respond) (w, moment) =
        (p.transcript (quiet respond) w).take i ++ ⟨.isCancelled, true⟩ :: rest := by
  induction p generalizing w moment with
  | done a => exact ⟨rfl, rfl⟩
  | ask q next ih =>
    -- After the same reply, what follows decides.
    have hnext : ∀ {w' : World} {r : q.Reply}, quiet respond w q = (r, w') →
        signalled respond (w, moment) q = (r, w', away moment q) →
        (q = .isCancelled → 0 < moment) →
        match firstSet? moment ((ask q next).transcript (quiet respond) w) with
        | none =>
          (ask q next).transcript (signalled respond) (w, moment) =
              (ask q next).transcript (quiet respond) w ∧
            ((ask q next).run (signalled respond) (w, moment)).1 =
              ((ask q next).run (quiet respond) w).1
        | some i => ∃ rest, (ask q next).transcript (signalled respond) (w, moment) =
            ((ask q next).transcript (quiet respond) w).take i ++ ⟨.isCancelled, true⟩ :: rest := by
      intro w' r hquiet hsignalled hmoment
      have htail := ih r w' (away moment q)
      simp only [transcript, run, hquiet, hsignalled]
      rw [firstSet?_cons _ hmoment]
      cases hfirst : firstSet? (away moment q) ((next r).transcript (quiet respond) w') with
      | none =>
        rw [hfirst] at htail
        exact ⟨congrArg _ htail.1, htail.2⟩
      | some i =>
        rw [hfirst] at htail
        obtain ⟨rest, hrest⟩ := htail
        exact ⟨rest, congrArg _ hrest⟩
    by_cases hlook : q = .isCancelled
    · subst hlook
      cases moment with
      | zero => exact ⟨_, rfl⟩
      | succ moment => exact hnext rfl rfl fun _ => Nat.succ_pos moment
    · exact hnext rfl (signalled_eq respond hlook w moment) fun h => absurd h hlook

/-- A look finds out whether the signal is set. -/
theorem look_signalled (p : Program α) (w : World) (moment : Nat) {i : Nat} {stop : Bool}
    (h : (p.transcript (signalled respond) (w, moment))[i]? = some ⟨.isCancelled, stop⟩) :
    isSet moment (p.transcript (signalled respond) (w, moment)) i = stop := by
  induction p generalizing w moment i with
  | done a => cases h
  | ask q next ih =>
    rw [transcript] at h ⊢
    cases i with
    | zero =>
      obtain ⟨rfl, hreply⟩ := Event.mk.inj (Option.some.inj h)
      obtain rfl : (moment == 0) = stop := eq_of_heq hreply
      cases moment <;> simp [isSet]
    | succ i =>
      have haway : (signalled respond (w, moment) q).2.2 = away moment q := by
        cases q <;> rfl
      rw [isSet_cons, ← haway]
      exact ih _ _ _ h

end SqlService.Program
