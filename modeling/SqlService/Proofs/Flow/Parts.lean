import SqlService.Proofs.Flow.Task

/-!
# The parts of a flow

Whatever a flow does is put together from a few kinds of tasks: it opens connections and enters
transactions, expands items, runs statements, calls functions and looks at the cancel signal before
a step.  What holds of these and of what is made up of them holds of every flow, at every level of
nesting.

Main statement: `Services.parts_runFlow`.
-/

namespace SqlService

/-- A task that is made up of the things that flows do with the given services. -/
inductive Parts (services : Services) : {α : Type} → FlowM α → Prop where
  /-- No request is made. -/
  | silent {α : Type} {t : FlowM α} (h : ∀ c, ∃ x, t.runIn c = .done x) : Parts services t
  | connect (name : String) (settings : Settings) :
      Parts services (FlowM.request (.connect name settings))
  | transaction (name : String) (s : Session) : Parts services (FlowM.ensureTransaction name s)
  | expansion (name : String) :
      Parts services (FlowM.attempt (Fragment.expand services.items [] name))
  | statements {α : Type} {link : Link} {a : Attempt DataError α}
      (h : a.run.Only fun q => q.statement? = some link) : Parts services (FlowM.attempt a)
  | function (step : Step) (args : Record) : Parts services (services.runFunction step args)
  /-- The signal is looked at, and if it is set nothing else is done. -/
  | look {α : Type} {f : Bool → FlowM α} (hset : f true = throw .cancelled)
      (h : Parts services (f false)) : Parts services (FlowM.request .isCancelled >>= f)
  | bind {α β : Type} {t : FlowM α} {f : α → FlowM β} (ht : Parts services t)
      (hf : ∀ a, Parts services (f a)) : Parts services (t >>= f)
  | marking {α : Type} {t : FlowM α} (ht : Parts services t) :
      Parts services (Services.markingFailure t)

namespace Parts

variable {services : Services} {α : Type}

theorem pure (a : α) : Parts services (Pure.pure a : FlowM α) := .silent fun _ => ⟨_, rfl⟩

theorem throw (e : FlowError) : Parts services (MonadExcept.throw e : FlowM α) :=
  .silent fun _ => ⟨_, rfl⟩

theorem lift (x : Except FlowError α) : Parts services (liftM x : FlowM α) :=
  .silent fun c => by cases x <;> exact ⟨_, rfl⟩

theorem ofData (x : Except DataError α) : Parts services (FlowM.ofData x) :=
  .silent fun c => by cases x <;> exact ⟨_, rfl⟩

theorem openSession (name : String) : Parts services (FlowM.openSession services name) := by
  unfold FlowM.openSession
  refine bind (.silent fun c => ⟨_, rfl⟩) fun c => ?_
  split
  · exact pure _
  · refine (lift _).bind fun settings => ?_
    refine (ofData _).bind fun provider => ?_
    refine (connect name settings).bind fun reply => ?_
    split
    · exact throw _
    · exact .silent fun c => ⟨_, rfl⟩

end Parts

namespace Services

variable {services : Services}

theorem parts_runSql (service : String) (args : Record) :
    Parts services (services.runSql service args) := by
  unfold runSql
  refine (Parts.ofData _).bind fun item => ?_
  refine (Parts.expansion item.name).bind fun sql => ?_
  refine (Parts.lift _).bind fun parsed => ?_
  refine (Parts.openSession item.connection).bind fun session => ?_
  have hstatements : ∀ link, Parts services
      (FlowM.attempt (runQuery item.kind (stepQuery session.dialect sql parsed) link)) :=
    fun link => .statements (runQuery_statements _ _ link).1
  dsimp only
  split
  · refine (Parts.lift session.openLink).bind fun link => ?_
    exact (hstatements link).bind fun answer => .silent fun c => ⟨_, rfl⟩
  · refine (Parts.transaction item.connection session).bind fun link => ?_
    refine (Parts.lift _).bind fun link => ?_
    exact (hstatements link).bind fun answer => .silent fun c => ⟨_, rfl⟩

theorem parts_runStep {nested : String → Json → FlowM Json}
    (hnested : ∀ name input, Parts services (nested name input)) (step : Step) (args : Record) :
    Parts services (services.runStep nested step args) := by
  unfold runStep
  split
  · exact parts_runSql _ _
  · exact .function step args
  · exact hnested _ _

theorem parts_runSteps {nested : String → Json → FlowM Json}
    (hnested : ∀ name input, Parts services (nested name input)) (state : Record) (last : Json)
    (steps : List Step) : Parts services (services.runSteps nested state last steps) := by
  induction steps generalizing state last with
  | nil => exact .pure last
  | cons step steps ih =>
    exact .look rfl ((Parts.marking (parts_runStep hnested step _)).bind fun output => ih _ _)

/-- A flow has only such parts, at whatever level of nesting it runs. -/
theorem parts_runFlow (levels : Nat) (name : String) (input : Json) :
    Parts services (services.runFlow levels name input) := by
  -- A nested flow runs at a lower level, so the induction is on the levels.
  induction levels generalizing name input with
  | zero => exact .throw _
  | succ levels ih => exact (Parts.lift _).bind fun flow => parts_runSteps ih _ _ _

end Services

end SqlService
