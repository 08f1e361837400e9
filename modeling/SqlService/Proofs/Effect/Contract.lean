import SqlService.Proofs.Effect.Runs

/-!
# Contracts of programs

A program keeps a contract if all its requests are as they should be and its result is, as long as
the replies so far were as they should be.  Contracts of composites are put together from those of
their parts, and a contract speaks both about the runs of a program and about what a world does that
keeps an invariant.

Main statements: `Upholds.run`, `Upholds.runs`.
-/

namespace SqlService.Program

variable {α β ε : Type} {rely : (q : Request) → q.Reply → Prop} {guarantee : Request → Prop}

/-- As long as replies are relied on, the requests are guaranteed and the result is as it should
be. -/
def Upholds (rely : (q : Request) → q.Reply → Prop) (guarantee : Request → Prop)
    (post : α → Prop) : Program α → Prop
  | done a => post a
  | ask q next => guarantee q ∧ ∀ r, rely q r → Upholds rely guarantee post (next r)

theorem Upholds.andThen {p : Program α} {f : α → Program β} {mid : α → Prop} {post : β → Prop}
    (hp : Upholds rely guarantee mid p) (hf : ∀ a, mid a → Upholds rely guarantee post (f a)) :
    Upholds rely guarantee post (p.andThen f) := by
  induction p with
  | done a => exact hf a hp
  | ask q next ih => exact ⟨hp.1, fun r hr => ih r (hp.2 r hr)⟩

/-- An attempt after another: the second only follows a value, a failure is the result. -/
theorem Upholds.bind {t : Attempt ε α} {f : α → Attempt ε β} {mid : Except ε α → Prop}
    {post : Except ε β → Prop} (ht : Upholds rely guarantee mid t.run)
    (hok : ∀ a, mid (.ok a) → Upholds rely guarantee post (f a).run)
    (herror : ∀ e, mid (.error e) → post (.error e)) :
    Upholds rely guarantee post (t >>= f).run := by
  apply Upholds.andThen (f := ExceptT.bindCont f) ht
  intro r hr
  cases r with
  | ok a => exact hok a hr
  | error e => exact herror e hr

/-- In a world that keeps an invariant under what is guaranteed, and under it gives replies that can
be relied on, the result is as it should be and the invariant is kept. -/
theorem Upholds.run {World : Type} {respond : World → (q : Request) → q.Reply × World}
    {Inv : World → Prop} (hreply : ∀ w q, Inv w → rely q (respond w q).1)
    (hkeep : ∀ w q, Inv w → guarantee q → Inv (respond w q).2) {p : Program α}
    {post : α → Prop} (hp : Upholds rely guarantee post p) {w : World} (hw : Inv w) :
    post (p.run respond w).1 ∧ Inv (p.run respond w).2 := by
  induction p generalizing w with
  | done a => exact ⟨hp, hw⟩
  | ask q next ih => exact ih _ (hp.2 _ (hreply w q hw)) (hkeep w q hw hp.1)

/-- A run whose replies can be relied on makes the requests that are guaranteed and ends as it
should. -/
theorem Upholds.runs {p : Program α} {post : α → Prop} (hp : Upholds rely guarantee post p)
    {events : List Event} {a : α} (h : Runs p events a)
    (hrely : ∀ e ∈ events, rely e.request e.reply) :
    post a ∧ ∀ e ∈ events, guarantee e.request := by
  induction h with
  | done a => exact ⟨hp, fun e he => nomatch he⟩
  | ask q next r events a _ ih =>
    obtain ⟨hpost, hrest⟩ := ih (hp.2 r (hrely ⟨q, r⟩ List.mem_cons_self))
      fun e he => hrely e (List.mem_cons_of_mem _ he)
    refine ⟨hpost, fun e he => ?_⟩
    rcases List.mem_cons.mp he with rfl | he
    · exact hp.1
    · exact hrest e he

end SqlService.Program
