import SqlService.Proofs.Flow.Invocation
import SqlService.Proofs.Flow.References
import SqlService.Proofs.Text.Words

/-!
# References to outputs

A step refers to the output of an earlier step of its flow by that step's name, and to the input of
the flow by `input`.  What it refers to depends on nothing but its own invocation.  A reference is a
dotted path, though, so the output of a step that has a dot in its name cannot be referred to.

Main statement: `Services.outputs_referenced`.
-/

namespace SqlService

open Program (Event)

/-! ## §1 Names as references -/

/-- A name that a reference can lead to: no further sign at its front, and a single step. -/
structure Referable (name : String) : Prop where
  unsigned : name.toList.head? ≠ some '$'
  undotted : '.' ∉ name.toList

theorem Referable.getPath?_eq {name : String} (h : Referable name) (state : Record) :
    Record.getPath? state name = state.get? name := by
  have hsteps : Record.steps name = [name] := Text.splitChar_of_unmarked h.undotted
  rw [Record.getPath?, hsteps]
  exact Option.bind_fun_some (state.get? name)

namespace Dictionary

variable {α : Type} {d : Dictionary α} {front back : List (String × α)} {name : String} {v : α}

theorem get?_insertAll_of_ne (h : ∀ e ∈ back, e.1 ≠ name) :
    (d.insertAll back).get? name = d.get? name := by
  induction back generalizing d with
  | nil => rfl
  | cons e back ih =>
    obtain ⟨hfirst, hrest⟩ := List.forall_mem_cons.mp h
    have htail : (d.insertAll (e :: back)).get? name = (d.insert e.1 e.2).get? name := ih hrest
    rw [htail, get?_insert, if_neg hfirst.symm]

/-- The last of the values that are set under a name is the one that it has. -/
theorem get?_insertAll_last (h : ∀ e ∈ back, e.1 ≠ name) :
    (d.insertAll (front ++ (name, v) :: back)).get? name = some v := by
  have hback : d.insertAll (front ++ (name, v) :: back) =
      ((d.insertAll front).insert name v).insertAll back := insertAll_append d front _
  rw [hback, get?_insertAll_of_ne h, get?_insert, if_pos rfl]

end Dictionary

/-! ## §2 What is found under a name -/

namespace Start

open Json (RefersTo part?)

variable {x y : Start} {before : List Start} {state : Record}

/-- Wherever the arguments of the step refer to the path, the resolved ones have the value. -/
def Resolves (y : Start) (path : String) (v : Json) : Prop :=
  ∀ position text, part? position (Record.toJson y.step.args) = some (.string text) →
    RefersTo text path → part? position (Record.toJson y.args) = some v

theorem resolves_of_get? {name : String} {v : Json} (hname : Referable name)
    (h : y.state.get? name = some v) : y.Resolves name v := by
  intro position text htext hrefers
  have hpart : part? position (Record.toJson y.args) =
      some ((Record.getPath? y.state name).getD .null) :=
    y.step.part?_resolveArgs htext hrefers
  rw [hpart, hname.getPath?_eq, h, Option.getD_some]

theorem name_of_mem_put {e : String × Json} (h : e ∈ x.put) : e.1 = x.step.name := by
  unfold put at h
  split at h
  · rw [List.mem_singleton.mp h]
  · cases h

theorem put_of_completed {v : Json} (h : x.outcome = .ok v) : x.put = [(x.step.name, v)] := by
  rw [put, h]

namespace Follows

theorem sorted {first : Nat} (h : y.Follows first state before) :
    before.Pairwise fun x z => x.position < z.position := by
  have hpositions : (before.map Start.position).Pairwise (· < ·) := by
    rw [h.positions]
    exact List.pairwise_lt_range'
  exact List.pairwise_map.mp hpositions

/-- Every earlier position is that of a step which is followed. -/
theorem exists_position (h : y.Follows 0 state before) {i : Nat} (hi : i < y.position) :
    ∃ x ∈ before, x.position = i := by
  have hmem : i ∈ before.map Start.position := by
    rw [h.positions, List.mem_range'_1]
    omega
  exact List.mem_map.mp hmem

/-- The last completed step of a name has its output there. -/
theorem get?_of_last {first : Nat} {v : Json} (h : y.Follows first state before)
    (hx : x ∈ before) (hv : x.outcome = .ok v)
    (hlast : ∀ z ∈ before, x.position < z.position → z.step.name ≠ x.step.name) :
    y.state.get? x.step.name = some v := by
  obtain ⟨front, back, rfl⟩ := List.append_of_mem hx
  -- What is put there behind the step is at later positions, and so under other names.
  have hback : ∀ e ∈ back.flatMap put, e.1 ≠ x.step.name := by
    intro e he
    obtain ⟨z, hz, hput⟩ := List.mem_flatMap.mp he
    have hlater : x.position < z.position :=
      List.rel_of_pairwise_cons (List.pairwise_append.mp h.sorted).2.1 hz
    rw [name_of_mem_put hput]
    exact hlast z (List.mem_append_right _ (List.mem_cons_of_mem _ hz)) hlater
  rw [h.state_eq, List.flatMap_append, List.flatMap_cons, put_of_completed hv]
  exact Dictionary.get?_insertAll_last hback

/-- A name that no step has keeps what it has at the start. -/
theorem get?_of_unnamed {first : Nat} {name : String} (h : y.Follows first state before)
    (hnone : ∀ x ∈ before, x.step.name ≠ name) : y.state.get? name = state.get? name := by
  rw [h.state_eq]
  refine Dictionary.get?_insertAll_of_ne fun e he => ?_
  obtain ⟨x, hx, hput⟩ := List.mem_flatMap.mp he
  rw [name_of_mem_put hput]
  exact hnone x hx

end Follows

end Start

/-! ## §3 Runs -/

/-- In every log of a run no two steps stand at the same place.  Of the invocation of a step all
earlier steps of the flow have been started, and have completed.  The name of one of them refers to
its output, unless a step in between has the same name, and `input` refers to the input of the
invocation, unless one of them is named so.  The input and the outputs of the invocation determine
what any value resolves to there: it is the same wherever they are the same, whatever else is run by
the services and whichever these are. -/
theorem Services.outputs_referenced (services : Services) (root : String) (input : Json)
    (events : List Event) (result : ServiceResult)
    (h : Program.Runs (services.run root input) events result) :
    (∃ log, RunLog services root input events result log) ∧
    ∀ log, RunLog services root input events result log →
      (log.map Start.place).Nodup ∧
      ∀ y ∈ log,
        (∃ flow, services.flow y.flow = .ok flow ∧ flow.steps[y.position]? = some y.step ∧
          ∀ i < y.position, ∃ x ∈ log, x.Precedes y ∧ x.position = i ∧
            flow.steps[i]? = some x.step ∧ ∃ v, x.outcome = .ok v) ∧
        (∀ x ∈ log, x.Precedes y → Referable x.step.name →
          (∀ z ∈ log, x.Precedes z → z.Precedes y → z.step.name ≠ x.step.name) →
          ∀ v, x.outcome = .ok v → y.Resolves x.step.name v) ∧
        ∃ own, y.Input input log own ∧
          ((∀ x ∈ log, x.Precedes y → x.step.name ≠ "input") → y.Resolves "input" own) ∧
          ∀ services' root' input' events' result' log',
            RunLog services' root' input' events' result' log' →
            ∀ y' ∈ log', y'.Input input' log' own → y'.outputs log' = y.outputs log →
              ∀ v, Json.resolve y'.state v = Json.resolve y.state v := by
  refine ⟨runs_iff_logs.mp h, fun log hlog => ⟨hlog.nodup_place, fun y hy => ?_⟩⟩
  obtain ⟨own, hown, hfollows⟩ := hlog.follows hy
  refine ⟨?_, ?_, own, hown, ?_, ?_⟩
  · obtain ⟨flow, hflow, hstep⟩ := (hlog.placed y hy).listed
    -- Every position before the step is taken by one that it follows, of the same flow.
    refine ⟨flow, hflow, hstep, fun i hi => ?_⟩
    obtain ⟨x, hx, rfl⟩ := hfollows.exists_position hi
    obtain ⟨hmem, hprecedes⟩ := Start.mem_earlier_iff.mp hx
    obtain ⟨flow', hflow', hstep'⟩ := (hlog.placed x hmem).listed
    rw [hfollows.flow x hx, hflow] at hflow'
    cases hflow'
    exact ⟨x, hmem, hprecedes, rfl, hstep', hfollows.completed x hx⟩
  · intro x hx hprecedes hname hbetween v hv
    refine Start.resolves_of_get? hname (hfollows.get?_of_last ?_ hv fun z hz hlt => ?_)
    · exact Start.mem_earlier_iff.mpr ⟨hx, hprecedes⟩
    · obtain ⟨hmem, hbefore⟩ := Start.mem_earlier_iff.mp hz
      exact hbetween z hmem ⟨hprecedes.1.trans hbefore.1.symm, hlt⟩ hbefore
  · intro hnone
    have hinput : Referable "input" := ⟨by decide, by decide⟩
    refine Start.resolves_of_get? hinput ((hfollows.get?_of_unnamed fun x hx => ?_).trans rfl)
    obtain ⟨hmem, hprecedes⟩ := Start.mem_earlier_iff.mp hx
    exact hnone x hmem hprecedes
  · intro services' root' input' events' result' log' hlog' y' hy' hown' houtputs v
    obtain ⟨own', hinput', hfollows'⟩ := hlog'.follows hy'
    -- The states are made up alike, of the same input and the same outputs.
    obtain rfl : own' = own := hinput'.unique hlog'.nodup_place hown'
    have hstate : y'.state = y.state := by
      rw [hfollows'.state_eq, hfollows.state_eq]
      exact congrArg _ houtputs
    rw [hstate]

/-! ## §4 A greeting

A flow loads a user and lets another flow load one under the same name before it greets the first. -/

namespace Greeting

open Json (RefersTo part?)

/-- Loads the user that the input of the flow asks for. -/
def load (name : String) : Step where
  name := name
  kind := .function
  service := "echo"
  args := Dictionary.ofList [("id", .string "$input.id")]

def lead : Step where
  name := "team"
  kind := .flow
  service := "team"
  args := Dictionary.ofList [("id", .string "8")]

def greet (name : String) : Step where
  name := "greet"
  kind := .function
  service := "echo"
  args := Dictionary.ofList [("user", .string ("$" ++ name))]

/-- Services where both flows load their users by a step of the name. -/
def services (name : String) : Services where
  flows := Dictionary.ofList
    [("welcome", { name := "welcome", steps := [load name, lead, greet name] }),
      ("team", { name := "team", steps := [load name] })]
  functions := .samples

def user (id : String) : Json := .object [("id", .string id)]

/-- A step that answers with its arguments. -/
def echoed (callers : List Nat) (position : Nat) (flow : String) (step : Step) (state : Record)
    (offset : Nat) : Start :=
  ⟨callers, position, flow, step, state, offset, {}, [⟨.observe, (0 : Nat)⟩],
    .ok (Record.toJson (step.resolveArgs state)), {}⟩

/-- The first step. -/
def first (name : String) : Start :=
  echoed [] 0 "welcome" (load name) (Flow.initial (user "7")) 0

/-- The state after the first step. -/
def loaded (name : String) : Record := (Flow.initial (user "7")).insert name (user "7")

/-- The second step, which runs the nested flow. -/
def second (name : String) : Start :=
  ⟨[], 1, "welcome", lead, loaded name, 2, {}, [⟨.isCancelled, false⟩, ⟨.observe, (0 : Nat)⟩],
    .ok (user "8"), {}⟩

/-- The step of the nested flow. -/
def inner (name : String) : Start := echoed [1] 0 "team" (load name) (Flow.initial (user "8")) 3

/-- The last step, which greets the user of the name. -/
def greeted (name : String) : Start :=
  echoed [] 2 "welcome" (greet name) ((loaded name).insert "team" (user "8")) 5

def log (name : String) : List Start := [first name, second name, inner name, greeted name]

theorem runs_echo (name : String) {step : Step} (hservice : step.service = "echo")
    (args : Record) :
    FlowM.Runs ((services name).runFunction step args) {} [⟨.observe, (0 : Nat)⟩]
      (.ok (Record.toJson args)) {} := by
  refine FlowM.runs_request_bind_iff.mpr ⟨(0 : Nat), [], rfl, ?_⟩
  rw [hservice]
  exact .done _

theorem logged (name : String) :
    ∃ events result, RunLog (services name) "welcome" (user "7") events result (log name) := by
  -- The steps from the inside out: each echoes its arguments, and the flow of the team is nested.
  have hecho : ∀ {nested step args}, step.kind = .function → step.service = "echo" →
      StepTrace (services name) nested step args {} (Act.forItem none [⟨.observe, (0 : Nat)⟩])
        (.ok (Record.toJson args)) {} [] :=
    fun hkind hservice => .function hkind (runs_echo name hservice _)
  have hteam : FlowTrace (services name) maxDepth [1] 3 "team" (user "8") {} _ (.ok (user "8")) {}
      [inner name] :=
    .inr ⟨_, rfl, .next (hecho rfl rfl) (.done _ _ _ _ _)⟩
  have hlead : StepTrace (services name) (FlowTrace (services name) maxDepth [1] 3) lead
      (lead.resolveArgs (loaded name)) {} _ (.ok (user "8")) {} [inner name] :=
    .flow rfl hteam
  have hgreet : StepsTrace (services name) (FlowTrace (services name) maxDepth) [] "welcome" 5 2
      ((loaded name).insert "team" (user "8")) (user "8") [greet name] {} _
      (.ok (Record.toJson (greeted name).args)) {} [greeted name] :=
    .next (hecho rfl rfl) (.done _ _ _ _ _)
  have hrest : StepsTrace (services name) (FlowTrace (services name) maxDepth) [] "welcome" 2 1
      (loaded name) (user "7") [lead, greet name] {} _
      (.ok (Record.toJson (greeted name).args)) {} (log name).tail :=
    (StepsTrace.next hlead hgreet :)
  have hwelcome : FlowTrace (services name) (maxDepth + 1) [] 0 "welcome" (user "7") {} _
      (.ok (Record.toJson (greeted name).args)) {} (log name) :=
    .inr ⟨_, rfl, .next (hecho rfl rfl) hrest⟩
  exact ⟨_, _, _, .intro hwelcome (.done _), rfl⟩

/-- Between the first step and the last there is only one of another name. -/
theorem between {name : String} (hname : name ≠ "team") :
    ∀ z ∈ log name, (first name).Precedes z → z.Precedes (greeted name) →
      z.step.name ≠ (first name).step.name := by
  simp only [log, List.forall_mem_cons]
  refine ⟨fun h => absurd h.2 (Nat.lt_irrefl _), fun _ _ => hname.symm,
    fun h => absurd h.1 nofun, fun _ h => absurd h.2 (Nat.lt_irrefl _), nofun⟩

/-- The greeting gets the user of its own flow. -/
theorem greeted_user :
    ∃ events result, Program.Runs ((services "user").run "welcome" (user "7")) events result ∧
      part? [0] (Record.toJson (greeted "user").args) = some (user "7") ∧
      (greeted "user").Resolves "input" (user "7") := by
  obtain ⟨events, result, hlog⟩ := logged "user"
  have hruns : Program.Runs ((services "user").run "welcome" (user "7")) events result :=
    Services.runs_iff_logs.mpr ⟨log "user", hlog⟩
  obtain ⟨-, hall⟩ := Services.outputs_referenced _ _ _ _ _ hruns
  have hmem : greeted "user" ∈ log "user" := by simp [log]
  -- What the greeting resolves: outputs of earlier steps, and the input of its own flow.
  obtain ⟨-, hsteps, own, hown, hinput, -⟩ := (hall _ hlog).2 (greeted "user") hmem
  refine ⟨events, result, hruns, ?_, ?_⟩
  · have hname : Referable (first "user").step.name := ⟨by decide, by decide⟩
    have hreads : (greeted "user").Resolves (first "user").step.name (user "7") :=
      hsteps (first "user") (by simp [log]) ⟨rfl, by decide⟩ hname (between (by decide)) _ rfl
    exact hreads [0] "$user" rfl ⟨by decide, by decide⟩
  · obtain rfl : own = user "7" :=
      hown.unique (hall _ hlog).1 (.root rfl)
    refine hinput ?_
    simp only [log, List.forall_mem_cons]
    exact ⟨fun _ => by decide, fun _ => by decide, fun _ => by decide, fun _ => by decide, nofun⟩

/-- A name with a dot in it leads nowhere, so the greeting does not get what its flow has loaded. -/
theorem dotted_unreferable :
    ¬ ∀ (services : Services) root input events result log,
      RunLog services root input events result log →
      ∀ x ∈ log, ∀ y ∈ log, x.Precedes y → x.step.name.toList.head? ≠ some '$' →
        (∀ z ∈ log, x.Precedes z → z.Precedes y → z.step.name ≠ x.step.name) →
        ∀ v, x.outcome = .ok v → y.Resolves x.step.name v := by
  intro h
  obtain ⟨events, result, hlog⟩ := logged "load.user"
  -- The greeting would get the output of the first step; what it gets is null.
  have hreads : (greeted "load.user").Resolves "load.user" (user "7") :=
    h _ _ _ _ _ _ hlog (first "load.user") (by simp [log]) (greeted "load.user") (by simp [log])
      ⟨rfl, by decide⟩ (by decide) (between (by decide)) _ rfl
  have hgreeted : part? [0] (Record.toJson (greeted "load.user").args) = some (user "7") :=
    hreads [0] "$load.user" rfl ⟨by decide, by decide⟩
  have hnull : part? [0] (Record.toJson (greeted "load.user").args) = some .null := rfl
  rw [hnull] at hgreeted
  cases hgreeted

end Greeting

end SqlService
