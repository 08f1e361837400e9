import SqlService.Proofs.Effect.Runs

/-!
# Bounds on requests

Every run of a program ends; a bound says that there is a number of requests that none of its runs
goes beyond, whatever the replies are.

Main statements: the bounds of composites (`AtMost.andThen`, `AtMost.bind`).
-/

namespace SqlService.Program

variable {α β ε : Type} {m n : Nat}

/-- Whatever the replies are, the program makes at most so many requests. -/
def AtMost (bound : Nat) (p : Program α) : Prop :=
  ∀ events a, Runs p events a → events.length ≤ bound

theorem AtMost.mono {p : Program α} (hp : p.AtMost m) (h : m ≤ n) : p.AtMost n :=
  fun events a hr => Nat.le_trans (hp events a hr) h

theorem atMost_done (a : α) : AtMost 0 (.done a) := by
  intro events b h
  rw [(runs_done_iff.mp h).1]
  exact Nat.le_refl 0

theorem AtMost.ask {q : Request} {next : q.Reply → Program α} (h : ∀ r, (next r).AtMost n) :
    (Program.ask q next).AtMost (1 + n) := by
  intro events a hr
  obtain ⟨r, rest, rfl, hrest⟩ := runs_ask_iff.mp hr
  have hlength := h r rest a hrest
  rw [List.length_cons]
  omega

theorem AtMost.andThen {p : Program α} {f : α → Program β} (hp : p.AtMost m)
    (hf : ∀ a, (f a).AtMost n) : (p.andThen f).AtMost (m + n) := by
  intro events b h
  obtain ⟨first, second, a, rfl, h1, h2⟩ := runs_andThen.mp h
  rw [List.length_append]
  exact Nat.add_le_add (hp first a h1) (hf a second b h2)

/-- An attempt after another makes no more requests than both together. -/
theorem AtMost.bind {t : Attempt ε α} {f : α → Attempt ε β} (ht : t.run.AtMost m)
    (hf : ∀ a, (f a).run.AtMost n) : (t >>= f).run.AtMost (m + n) := by
  apply AtMost.andThen (f := ExceptT.bindCont f) ht
  intro r
  cases r with
  | ok a => exact hf a
  | error e => exact (atMost_done _).mono (Nat.zero_le n)

end SqlService.Program
