import SqlService.Proofs.Effect.Runs
import SqlService.Query.Run

/-!
# What an insert sends

An insert sends its statement, and where the identity of the row is read back by a statement of its
own, that one right after it if it has succeeded.

Main statement: `runs_insert_iff`.
-/

namespace SqlService

open Program (Event)

namespace Link

variable {l : Link} {sql : String} {params : Record} {events : List Event}

theorem runs_execute_iff {r : Except DataError UInt64} :
    Program.Runs (l.execute sql params).run events r ↔ events = [⟨.execute l sql params, r⟩] :=
  Program.runs_request_iff

theorem runs_scalar_iff {r : Except DataError Json} :
    Program.Runs (l.scalar sql params).run events r ↔ events = [⟨.scalar l sql params, r⟩] :=
  Program.runs_request_iff

end Link

namespace Program

variable {α β ε : Type}

/-- What becomes of an attempt whose value is only mapped. -/
theorem runs_attempt_map_iff {t : Attempt ε α} {f : α → β} {events : List Event}
    {r : Except ε β} :
    Runs (do let a ← t; pure (f a) : Attempt ε β).run events r ↔
      ∃ x, Runs t.run events x ∧ r = x.map f := by
  -- What is mapped asks for nothing more.
  rw [runs_attempt_bind_iff]
  constructor
  · rintro (⟨first, second, a, rfl, ht, hdone⟩ | ⟨e, ht, rfl⟩)
    · obtain ⟨rfl, rfl⟩ := runs_attempt_pure_iff.mp hdone
      rw [List.append_nil]
      exact ⟨.ok a, ht, rfl⟩
    · exact ⟨.error e, ht, rfl⟩
  · rintro ⟨x, ht, rfl⟩
    cases x with
    | ok a => exact .inl ⟨events, [], a, by simp, ht, runs_attempt_pure_iff.mpr ⟨rfl, rfl⟩⟩
    | error e => exact .inr ⟨e, ht, rfl⟩

end Program

namespace Table

/-- What may come of an insert. -/
inductive Inserting (t : Table) (p : Provider) (values : Record) (l : Link) :
    List Event → Except DataError (Option Json) → Prop where
  /-- No column is filled by the database. -/
  | plain (reply : Except DataError UInt64) (h : (p.insertStatement t).identity = none) :
      Inserting t p values l
        [⟨.execute l (p.insertStatement t).sql (t.insertParams values), reply⟩]
        (reply.map fun _ => none)
  /-- The insert returns the identity. -/
  | returning (reply : Except DataError Json)
      (h : (p.insertStatement t).identity = some .returning) :
      Inserting t p values l
        [⟨.scalar l (p.insertStatement t).sql (t.insertParams values), reply⟩] (reply.map some)
  /-- The insert fails before the identity is asked for. -/
  | refused (sql : String) (e : DataError)
      (h : (p.insertStatement t).identity = some (.followUp sql)) :
      Inserting t p values l
        [⟨.execute l (p.insertStatement t).sql (t.insertParams values), .error e⟩] (.error e)
  /-- The identity is asked for after the insert. -/
  | fetched (sql : String) (count : UInt64) (reply : Except DataError Json)
      (h : (p.insertStatement t).identity = some (.followUp sql)) :
      Inserting t p values l
        [⟨.execute l (p.insertStatement t).sql (t.insertParams values), .ok count⟩,
          ⟨.scalar l sql ∅, reply⟩] (reply.map some)

theorem runs_insert_iff {t : Table} {p : Provider} {values : Record} {l : Link}
    {events : List Event} {r : Except DataError (Option Json)} :
    Program.Runs (t.insert p values l).run events r ↔ Inserting t p values l events r := by
  unfold insert
  -- One case for each way of getting an identity, in both directions.
  cases hidentity : (p.insertStatement t).identity with
  | none =>
    simp only [hidentity, Program.runs_attempt_map_iff, Link.runs_execute_iff]
    constructor
    · rintro ⟨reply, rfl, rfl⟩
      exact .plain reply hidentity
    · intro h
      cases h with
      | plain reply _ => exact ⟨reply, rfl, rfl⟩
      | _ => simp_all
  | some fetch =>
    cases fetch with
    | returning =>
      simp only [hidentity, Program.runs_attempt_map_iff, Link.runs_scalar_iff]
      constructor
      · rintro ⟨reply, rfl, rfl⟩
        exact .returning reply hidentity
      · intro h
        cases h with
        | returning reply _ => exact ⟨reply, rfl, rfl⟩
        | _ => simp_all
    | followUp sql =>
      simp only [hidentity]
      rw [Program.runs_attempt_bind_iff]
      simp only [Link.runs_execute_iff, Program.runs_attempt_map_iff, Link.runs_scalar_iff]
      constructor
      · rintro (⟨first, second, count, rfl, rfl, reply, rfl, rfl⟩ | ⟨e, rfl, rfl⟩)
        · exact .fetched sql count reply hidentity
        · exact .refused sql e hidentity
      · intro h
        cases h with
        | refused _ e _ => exact .inr ⟨e, rfl, rfl⟩
        | fetched sql' count reply hsql =>
          rw [hidentity] at hsql
          cases hsql
          exact .inl ⟨_, _, count, rfl, rfl, reply, rfl, rfl⟩
        | _ => simp_all

end Table

end SqlService
