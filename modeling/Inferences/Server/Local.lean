import Inferences.Engine.Survival
import Inferences.Server.Drain

/-!
# The local workload

`LocalInference` puts the engine behind the server. A monitor, in a task of its
own, looks at the status of the engine again and again and publishes what it
finds to the health registry; the cleanup that `serve` polls is a shutdown call
of the engine. Here the server, the engine, the monitor and the registry take
their steps in any order, next to whatever else uses the engine.

* `health_reported`: what the health routes say is what `serve` and the last
  look of the monitor have found.
* `serve_ends_sidecar`: when `serve` has returned without an error, no sidecar
  is left, and none is launched any more.
-/

namespace Inferences.Server

open Schedule

/-! ## Health -/

/-- Why the process is not ready. -/
inductive ReadinessReason
  | ProcessNotRunning
  | ComponentUnavailable

/-- The text of the reason. -/
def ReadinessReason.as_str : ReadinessReason → String
  | ProcessNotRunning => "process_not_running"
  | ComponentUnavailable => "component_unavailable"

/-- What is known of the health at one moment. -/
structure HealthSnapshot where
  live : Bool
  ready : Bool
  reason : Option ReadinessReason

/-- The components of the registry. The state of the process stands in the
    server. -/
structure HealthRegistry where
  components : List (String × Bool) := []

namespace HealthRegistry

/-- A component that is not ready yet; one that is known stays as it is. -/
def register_component (self : HealthRegistry) (name : String) : HealthRegistry :=
  if self.components.any (·.1 = name) then self
  else { components := self.components ++ [(name, false)] }

/-- The state of a component, and whether the component is known. -/
def set_component_ready (self : HealthRegistry) (name : String) (ready : Bool) :
    HealthRegistry × Bool :=
  if self.components.any (·.1 = name) then
    ({ components := self.components.map fun component =>
        if component.1 = name then (component.1, ready) else component }, true)
  else (self, false)

/-- The health at this moment. -/
def snapshot (self : HealthRegistry) (process : ProcessState) : HealthSnapshot :=
  let process_ready := decide (process = .Running)
  let components_ready := self.components.all (·.2)
  { live := decide (process ≠ .Stopped)
    ready := process_ready && components_ready
    reason :=
      if process_ready && components_ready then none
      else if !process_ready then some .ProcessNotRunning
      else some .ComponentUnavailable }

end HealthRegistry

/-- What a health route answers. -/
structure HealthReply where
  code : Nat
  status : String
  reason : Option String
  deriving DecidableEq

/-! ## The workload -/

/-- The name of the one component. -/
def COMPONENT_NAME : String := "inference-runtime"

/-- The monitor of the engine: about to look at it, through the status call
    `call` once there is one; waiting before the next look; or ended. -/
inductive Monitor
  | looking (call : Option Nat)
  | waiting
  | ended

/-- The monitor has ended. -/
def Monitor.is_ended : Monitor → Bool
  | .ended => true
  | _ => false

/-- The server with its workload: `cleanup` is the shutdown call that the
    cleanup awaits. -/
structure LocalInference where
  server : InferenceServer
  engine : Engine.GenerationEngine
  health : HealthRegistry
  monitor : Monitor := .looking none
  cleanup : Option Nat := none

/-- What the world answers to the monitor: to its call, whether its sleep is
    over, and whether the sleep is looked at before the stop token. -/
structure MonitorChoice where
  answer : Engine.Choice
  elapsed : Bool
  elapsed_first : Bool

/-- A step of the server, where a poll of the cleanup is answered by `answer`;
    of anything else that uses the engine; or of the monitor. -/
inductive LocalAct
  | server (act : Act) (answer : Engine.Choice)
  | engine (act : Engine.Act)
  | monitor (choice : MonitorChoice)

namespace LocalInference

/-- `InferenceServer::with_limits`, for this workload. -/
def with_limits (limits : ServerLimits) (engine : Engine.GenerationEngine) : LocalInference where
  server := .with_limits limits
  engine := engine
  health := ({} : HealthRegistry).register_component COMPONENT_NAME

/-- The answer of the liveness route. -/
def live (self : LocalInference) : HealthReply :=
  let snapshot := self.health.snapshot self.server.process
  { code := if snapshot.live then 200 else 503
    status := if snapshot.live then "live" else "stopped"
    reason := none }

/-- The answer of the readiness route. -/
def ready (self : LocalInference) : HealthReply :=
  let snapshot := self.health.snapshot self.server.process
  { code := if snapshot.ready then 200 else 503
    status := if snapshot.ready then "ready" else "not_ready"
    reason := snapshot.reason.map (·.as_str) }

/-- `WorkloadContext::set_ready`. -/
def set_ready (self : LocalInference) (ready : Bool) : LocalInference :=
  { self with health := (self.health.set_component_ready COMPONENT_NAME ready).1 }

variable (parsers : Parsers)

/-- One poll of the status call `j`: the engine, and what the call returns. -/
def poll_status (engine : Engine.GenerationEngine) (j : Nat) (answer : Engine.Choice) :
    Engine.GenerationEngine × Option Bool :=
  let engine := engine.step parsers.from_slice (.poll_call j answer)
  match engine.calls[j]? with
  | some (.status_returned ready) => (engine, some ready)
  | _ => (engine, none)

/-- One poll of the monitor. -/
def poll_monitor (self : LocalInference) (choice : MonitorChoice) : LocalInference :=
  match self.monitor with
  | .looking none =>
    { self with engine := self.engine.step parsers.from_slice .status
                monitor := .looking (some self.engine.calls.length) }
  | .looking (some j) =>
    match poll_status parsers self.engine j choice.answer with
    | (engine, some ready) => { { self with engine }.set_ready ready with monitor := .waiting }
    | (engine, none) => { self with engine }
  | .waiting =>
    if self.server.shared.gate.stopped && !(choice.elapsed && choice.elapsed_first) then
      { self.set_ready false with monitor := .ended }
    else if choice.elapsed then { self with monitor := .looking none }
    else self
  | .ended => self

/-- One poll of `LocalInference::shutdown`, which awaits that of the engine. -/
def poll_shutdown (self : LocalInference) (answer : Engine.Choice) : LocalInference :=
  match self.cleanup with
  | none =>
    let j := self.engine.calls.length
    let engine := self.engine.step parsers.from_slice .shutdown
    { self with engine := engine.step parsers.from_slice (.poll_call j answer), cleanup := some j }
  | some j => { self with engine := self.engine.step parsers.from_slice (.poll_call j answer) }

/-- The cleanup is complete. -/
def cleaned (self : LocalInference) : Bool :=
  match self.cleanup with
  | none => false
  | some j => match self.engine.calls[j]? with
    | some .shutdown_returned => true
    | _ => false

/-- The cleanup is dropped when `serve` returns. -/
def drop_cleanup (self : LocalInference) : LocalInference :=
  match self.server.serve, self.cleanup with
  | .returned _, some j =>
    { self with engine := self.engine.step parsers.from_slice (.abandon j) }
  | _, _ => self

/-- One poll of `serve`. -/
def poll_serve (self : LocalInference) (choice : ServeChoice) (answer : Engine.Choice) :
    LocalInference :=
  if (self.server.poll_serve choice).cleanup.polled = self.server.cleanup.polled then
    { self with server := self.server.poll_serve choice }
  else
    -- this is a poll of the cleanup
    let self := self.poll_shutdown parsers answer
    let cleaned := self.cleaned
    { self with server := self.server.poll_serve { choice with cleaned } }.drop_cleanup parsers

/-- The calls of the monitor and of the cleanup are theirs alone, and nobody else
    shuts the engine down. -/
def others (self : LocalInference) : Engine.Act → Bool
  | .shutdown => false
  | .poll_call j _ | .abandon j =>
    (match self.monitor with
      | .looking (some i) => i ≠ j
      | _ => true) && self.cleanup ≠ some j
  | _ => true

/-- The program after one act. -/
def step (self : LocalInference) : LocalAct → LocalInference
  | .server (.serve choice) answer => self.poll_serve parsers choice answer
  | .server act _ => { self with server := self.server.step parsers act }
  | .engine act =>
    if self.others act then { self with engine := self.engine.step parsers.from_slice act }
    else self
  | .monitor choice => self.poll_monitor parsers choice

/-- What the monitor has found when a look of it ends. -/
def look (self : LocalInference) : LocalAct → List Bool
  | .monitor choice => match self.monitor with
    | .looking (some j) => (poll_status parsers self.engine j choice.answer).2.toList
    | _ => []
  | _ => []

end LocalInference

/-! ## The server alone -/

/-- What a request does to the gate neither opens nor closes it. -/
theorem Passes.accepting {gate gate' : ShutdownGate} (h : Passes gate gate') :
    gate'.phase = .Accepting ↔ gate.phase = .Accepting := by
  cases h with
  | stay => rfl
  | enter gate' henter =>
    obtain ⟨-, rfl⟩ := ShutdownGate.try_enter_eq_some henter
    rfl
  | leave =>
    refine ⟨fun h => ?_, fun h => by simp [ShutdownGate.leave, h]⟩
    by_contra hclosed
    exact ShutdownGate.closed_leave hclosed h

namespace InferenceServer

variable {parsers : Parsers} {server : InferenceServer}

/-- The state of the process and the gate, by where `serve` waits. -/
def Lifecycle (server : InferenceServer) : Prop :=
  match server.serve with
  | .running => server.process = .Running ∧ server.shared.gate.phase = .Accepting
  | .returned _ => server.process = .Stopped ∧ server.shared.gate.phase ≠ .Accepting
  | _ => server.process = .Draining ∧ server.shared.gate.phase ≠ .Accepting

/-- A gate that moves as it may keeps the lifecycle. -/
theorem Lifecycle.passes {shared : Shared} {requests : List Request} (h : Lifecycle server)
    (hpasses : Passes server.shared.gate shared.gate) :
    Lifecycle { server with shared, requests } := by
  unfold Lifecycle at h ⊢
  cases hserve : server.serve with
  | _ =>
    rw [hserve] at h
    simpa only [ne_eq, hpasses.accepting] using h

theorem lifecycle_poll_workload_shutdown {deadline : Nat} {by_token : Bool}
    {outcome : DrainOutcome} {http_timed_out : Bool} {result : Except ServeError Unit}
    {choice : ServeChoice} (hprocess : server.process = .Draining)
    (hgate : by_token = true → server.shared.gate.phase ≠ .Accepting) :
    Lifecycle (server.poll_workload_shutdown deadline by_token outcome http_timed_out result
      choice) := by
  have hclosed (b : Bool) (hb : by_token = false → b = true) :
      (if b then server.shared.gate.stop_now else server.shared.gate).phase ≠ .Accepting := by
    cases b
    · cases by_token
      · cases hb rfl
      · exact hgate rfl
    · exact ShutdownGate.closed_stop_now _
  have hb : by_token = false →
      ((by_token && (outcome = .Forced || http_timed_out)) || !by_token) = true := by
    rintro rfl
    rfl
  unfold poll_workload_shutdown
  dsimp only
  split
  · exact ⟨rfl, hclosed _ hb⟩
  split
  · exact ⟨rfl, hclosed _ hb⟩
  · exact ⟨hprocess, hclosed _ hb⟩

theorem lifecycle_poll_serve (h : Lifecycle server) (choice : ServeChoice) :
    Lifecycle (server.poll_serve choice) := by
  unfold poll_serve
  split
  · rename_i hserve
    split
    · have hclosed := ShutdownGate.closed_begin_drain server.shared.gate
      rcases hdrain : server.shared.gate.begin_drain with ⟨gate, outcome⟩
      rw [hdrain] at hclosed
      cases outcome <;> exact ⟨rfl, hclosed⟩
    · split
      · exact lifecycle_poll_workload_shutdown rfl nofun
      · exact h
  · rename_i hserve
    rw [Lifecycle, hserve] at h
    split
    · exact h
    split
    · exact ⟨h.1, ShutdownGate.closed_stop_now _⟩
    · rw [Lifecycle, hserve]
      exact h
  · rename_i hserve
    rw [Lifecycle, hserve] at h
    split
    · exact lifecycle_poll_workload_shutdown h.1 fun _ => h.2
    split
    · exact lifecycle_poll_workload_shutdown h.1 fun _ => h.2
    · rw [Lifecycle, hserve]
      exact h
  · rename_i hserve
    rw [Lifecycle, hserve] at h
    dsimp only
    split
    · exact ⟨rfl, h.2⟩
    split
    · exact ⟨rfl, h.2⟩
    · rw [Lifecycle]
      dsimp only
      rw [hserve]
      exact h
  · exact h

/-- Every act keeps the lifecycle. -/
theorem lifecycle_step (parsers : Parsers) (h : Lifecycle server) (act : Act) :
    Lifecycle (server.step parsers act) := by
  have hrequest (i : Nat) (step : Request → Shared × Request)
      (hpasses : ∀ request, Passes server.shared.gate (step request).1.gate) :
      Lifecycle (server.with_request i step) := by
    unfold with_request
    split
    · exact h
    · exact h.passes (hpasses _)
  cases act with
  | arrive is_mcp headers upload => exact h.passes .stay
  | poll i choice =>
    exact hrequest i _ fun request => passes_polled
      (poll_polled parsers server.limits request server.shared choice)
  | drop i => exact hrequest i _ fun request => passes_drop request server.shared
  | serve choice => exact lifecycle_poll_serve h choice
  | tick time => exact h

/-- A shutdown that has begun goes on. -/
theorem not_running_step (parsers : Parsers) (h : Lifecycle server)
    (hserve : server.serve ≠ .running) (act : Act) :
    (server.step parsers act).serve ≠ .running := by
  cases act with
  | arrive is_mcp headers upload => exact hserve
  | poll i choice =>
    rw [step, with_request]
    split <;> exact hserve
  | drop i =>
    rw [step, with_request]
    split <;> exact hserve
  | serve choice =>
    have hafter := lifecycle_poll_serve h choice
    have hclosed : server.shared.gate.phase ≠ .Accepting := by
      revert h
      unfold Lifecycle
      cases hphase : server.serve with
      | running => exact absurd hphase hserve
      | _ => exact fun h => h.2
    intro hrunning
    rw [Lifecycle, show (server.poll_serve choice).serve = .running from hrunning] at hafter
    exact closed_poll_serve hclosed hafter.2
  | tick time => exact hserve

/-- The cleanup is completed when a poll of it says so. -/
theorem completed_poll_serve {choice : ServeChoice}
    (h : (server.poll_serve choice).cleanup.completed = some true) :
    server.cleanup.completed = some true ∨ choice.cleaned = true ∧
      (server.poll_serve choice).cleanup.polled ≠ server.cleanup.polled := by
  have hcleanup (deadline : Nat) (by_token : Bool) (outcome : DrainOutcome)
      (http_timed_out : Bool) (result : Except ServeError Unit) (server : InferenceServer)
      (h : (server.poll_workload_shutdown deadline by_token outcome http_timed_out result
        choice).cleanup.completed = some true) :
      server.cleanup.completed = some true ∨ choice.cleaned = true ∧
        (server.poll_workload_shutdown deadline by_token outcome http_timed_out result
          choice).cleanup.polled ≠ server.cleanup.polled := by
    revert h
    unfold poll_workload_shutdown
    dsimp only
    split
    · rename_i hcleaned
      exact fun _ => .inr ⟨hcleaned, Nat.succ_ne_self _⟩
    split
    · exact nofun
    · exact .inl
  revert h
  unfold poll_serve
  split
  · split
    · exact .inl
    · split
      · exact hcleanup _ _ _ _ _ { server with process := .Draining }
      · exact .inl
  · split
    · exact .inl
    split <;> exact .inl
  · split
    · exact hcleanup _ _ _ _ _ server
    split
    · exact hcleanup _ _ _ _ _ server
    · exact .inl
  · dsimp only
    split
    · rename_i hcleaned
      exact fun _ => .inr ⟨hcleaned, Nat.succ_ne_self _⟩
    split
    · exact nofun
    · exact .inl
  · exact .inl

/-- When `serve` has returned without an error, the cleanup was completed. -/
def Concluded (server : InferenceServer) : Prop :=
  server.serve = .returned (.ok ()) → server.cleanup.completed = some true

theorem concluded_stop (forced completed : Bool) (result : Except ServeError Unit) :
    (server.stop forced result completed).Concluded := by
  unfold stop Concluded
  intro h
  cases forced
  · cases completed
    · cases h
    · rfl
  · cases h

theorem concluded_poll_workload_shutdown (deadline : Nat) (by_token : Bool)
    (outcome : DrainOutcome) (http_timed_out : Bool) (result : Except ServeError Unit)
    (choice : ServeChoice) : (server.poll_workload_shutdown deadline by_token outcome
      http_timed_out result choice).Concluded := by
  unfold poll_workload_shutdown
  dsimp only
  split
  · exact concluded_stop _ _ _
  split
  · exact concluded_stop _ _ _
  · exact nofun

theorem concluded_poll_serve (h : server.Concluded) (choice : ServeChoice) :
    (server.poll_serve choice).Concluded := by
  unfold poll_serve
  split
  · split
    · rcases server.shared.gate.begin_drain with ⟨gate, outcome⟩
      cases outcome <;> exact nofun
    · split
      · exact concluded_poll_workload_shutdown _ _ _ _ _ _
      · exact h
  · split
    · exact nofun
    split
    · exact nofun
    · exact h
  · split
    · exact concluded_poll_workload_shutdown _ _ _ _ _ _
    split
    · exact concluded_poll_workload_shutdown _ _ _ _ _ _
    · exact h
  · rename_i hserve
    dsimp only
    split
    · exact concluded_stop _ _ _
    split
    · exact concluded_stop _ _ _
    · exact h
  · exact h

/-- Every act keeps the conclusion of the cleanup. -/
theorem concluded_step (parsers : Parsers) (h : server.Concluded) (act : Act) :
    (server.step parsers act).Concluded := by
  cases act with
  | arrive is_mcp headers upload => exact h
  | poll i choice =>
    rw [step, with_request]
    split <;> exact h
  | drop i =>
    rw [step, with_request]
    split <;> exact h
  | serve choice => exact concluded_poll_serve h choice
  | tick time => exact h

/-- Only a poll of the shutdown changes the cleanup. -/
theorem completed_step (parsers : Parsers) {act : Act} (hact : ∀ choice, act ≠ .serve choice) :
    (server.step parsers act).cleanup = server.cleanup := by
  cases act with
  | arrive is_mcp headers upload => rfl
  | poll i choice =>
    rw [step, with_request]
    split <;> rfl
  | drop i =>
    rw [step, with_request]
    split <;> rfl
  | serve choice => exact absurd rfl (hact choice)
  | tick time => rfl

end InferenceServer

namespace LocalInference

variable {parsers : Parsers} {self : LocalInference} {limits : ServerLimits}

/-! ## The parts -/

/-- Dropping the cleanup is nothing to the server. -/
theorem server_drop_cleanup : (self.drop_cleanup parsers).server = self.server := by
  unfold drop_cleanup
  split <;> rfl

/-- Nor is a poll of it. -/
theorem server_poll_shutdown (answer : Engine.Choice) :
    (self.poll_shutdown parsers answer).server = self.server := by
  unfold poll_shutdown
  split <;> rfl

/-- Nor is a poll of the monitor. -/
theorem server_poll_monitor (choice : MonitorChoice) :
    (self.poll_monitor parsers choice).server = self.server := by
  unfold poll_monitor
  split
  · rfl
  · split <;> rfl
  · split
    · rfl
    split <;> rfl
  · rfl

/-- What the steps of the server keep, holds of it here. -/
theorem server_step {P : InferenceServer → Prop}
    (hstep : ∀ server act, P server → P (server.step parsers act)) (h : P self.server)
    (act : LocalAct) : P (self.step parsers act).server := by
  cases act with
  | server act answer =>
    cases act with
    | serve choice =>
      rw [step, poll_serve]
      split
      · exact hstep _ (.serve choice) h
      · rw [server_drop_cleanup, server_poll_shutdown]
        exact hstep _ (.serve _) h
    | arrive is_mcp headers upload => exact hstep _ (.arrive is_mcp headers upload) h
    | poll i choice => exact hstep _ (.poll i choice) h
    | drop i => exact hstep _ (.drop i) h
    | tick time => exact hstep _ (.tick time) h
  | engine act =>
    rw [step]
    split <;> exact h
  | monitor choice =>
    rw [step, server_poll_monitor]
    exact h

section

variable {P : Engine.GenerationEngine → Prop}
  (hstep : ∀ engine act, P engine → P (engine.step parsers.from_slice act))

include hstep

/-- What every act of the engine keeps, dropping the cleanup keeps. -/
theorem engine_drop_cleanup (h : P self.engine) : P (self.drop_cleanup parsers).engine := by
  unfold drop_cleanup
  split
  · dsimp only
    exact hstep _ _ h
  · exact h

/-- A poll of it keeps the same. -/
theorem engine_poll_shutdown (h : P self.engine) (answer : Engine.Choice) :
    P (self.poll_shutdown parsers answer).engine := by
  unfold poll_shutdown
  split
  · dsimp only
    exact hstep _ _ (hstep _ _ h)
  · dsimp only
    exact hstep _ _ h

/-- What the steps of the engine keep, holds of it here. -/
theorem engine_step (h : P self.engine) (act : LocalAct) :
    P (self.step parsers act).engine := by
  have hstatus (j : Nat) (answer : Engine.Choice) :
      P (poll_status parsers self.engine j answer).1 := by
    unfold poll_status
    dsimp only
    split <;>
    · dsimp only
      exact hstep _ _ h
  cases act with
  | server act answer =>
    cases act with
    | serve choice =>
      rw [step, poll_serve]
      split
      · exact h
      · exact engine_drop_cleanup hstep (engine_poll_shutdown hstep h answer)
    | _ => exact h
  | engine act =>
    rw [step]
    split
    · exact hstep _ _ h
    · exact h
  | monitor choice =>
    rw [step, poll_monitor]
    split
    · dsimp only
      exact hstep _ _ h
    · rename_i j _
      have hpoll := hstatus j choice.answer
      split <;>
      · rename_i hfound
        rw [hfound] at hpoll
        exact hpoll
    · split
      · exact h
      split <;> exact h
    · exact h

end

/-! ## The calls of the engine -/

section Calls

variable {from_slice : Bytes → Option Json.Value} {engine : Engine.GenerationEngine} {j : Nat}
  {call : Engine.Call}

open Engine (Call)

/-- A call that nobody polls or gives up stays as it is. -/
theorem call_step (hj : engine.calls[j]? = some call) {act : Engine.Act}
    (hpoll : ∀ choice, act ≠ .poll_call j choice) (habandon : act ≠ .abandon j) :
    (engine.step from_slice act).calls[j]? = some call := by
  have happend (call' : Call) : (engine.calls ++ [call'])[j]? = some call := by
    rwa [List.getElem?_append_left (List.getElem?_eq_some_iff.1 hj).1]
  have hset (i : Nat) (hi : i ≠ j) (f : Call → Engine.Shared × Call) :
      (engine.with_call i f).calls[j]? = some call := by
    unfold Engine.GenerationEngine.with_call
    split
    · exact hj
    · dsimp only
      rwa [List.getElem?_set_ne hi]
  cases act with
  | generate request =>
    rwa [Engine.GenerationEngine.step, Engine.GenerationEngine.calls_generate]
  | poll i choice => rwa [Engine.GenerationEngine.step, Engine.GenerationEngine.calls_with_task]
  | signal i signal => rwa [Engine.GenerationEngine.step, Engine.GenerationEngine.calls_with_task]
  | status => exact happend _
  | shutdown => exact happend _
  | poll_call i choice => exact hset i (fun h => hpoll choice (h ▸ rfl)) _
  | abandon i => exact hset i (fun h => habandon (h ▸ rfl)) _
  | exit child => exact hj

/-- What a poll makes of the call. -/
theorem call_poll_call (hj : engine.calls[j]? = some call) (choice : Engine.Choice) :
    (engine.step from_slice (.poll_call j choice)).calls[j]? =
      some (Engine.GenerationEngine.poll_call engine.shared j choice call).2 := by
  rw [Engine.GenerationEngine.step, Engine.GenerationEngine.with_call, hj]
  exact List.getElem?_set_self (List.getElem?_eq_some_iff.1 hj).1

/-- A call that does not wait for a look at the engine never does. -/
theorem other_call_step (hj : engine.calls[j]? = some call) (hcall : call ≠ .status_locking)
    (act : Engine.Act) :
    ∃ call', (engine.step from_slice act).calls[j]? = some call' ∧ call' ≠ .status_locking := by
  by_cases hpoll : ∃ choice, act = .poll_call j choice
  · obtain ⟨choice, rfl⟩ := hpoll
    refine ⟨_, call_poll_call hj choice, ?_⟩
    cases call with
    | status_locking => exact absurd rfl hcall
    | shutdown_locking =>
      rw [Engine.GenerationEngine.poll_call]
      split
      · split <;> simp
      · simp
    | shutdown_terminating child =>
      rw [Engine.GenerationEngine.poll_call]
      split <;> simp
    | _ => simp [Engine.GenerationEngine.poll_call]
  by_cases habandon : act = .abandon j
  · obtain rfl := habandon
    rw [Engine.GenerationEngine.step, Engine.GenerationEngine.with_call, hj]
    refine ⟨_, List.getElem?_set_self (List.getElem?_eq_some_iff.1 hj).1, ?_⟩
    cases call with
    | status_locking => exact absurd rfl hcall
    | _ => simp [Engine.GenerationEngine.abandon]
  · exact ⟨call, call_step hj (fun choice h => hpoll ⟨choice, h⟩) habandon, hcall⟩

/-- A poll of a status call: it goes on waiting, or has found whether a sidecar
    runs. -/
theorem poll_status_cases (parsers : Parsers) (hj : engine.calls[j]? = some .status_locking)
    (answer : Engine.Choice) :
    poll_status parsers engine j answer =
        (engine.step parsers.from_slice (.poll_call j answer), none) ∧
      (engine.step parsers.from_slice (.poll_call j answer)).calls[j]? = some .status_locking ∨
    ∃ ready, poll_status parsers engine j answer =
        (engine.step parsers.from_slice (.poll_call j answer), some ready) ∧
      (ready = true → ∃ child, engine.shared.running = some child) := by
  have hcall : (engine.step parsers.from_slice (.poll_call j answer)).calls[j]? =
      some (Engine.GenerationEngine.poll_call engine.shared j answer .status_locking).2 :=
    call_poll_call hj answer
  rw [Engine.GenerationEngine.poll_call] at hcall
  split at hcall
  · dsimp only at hcall
    refine .inr ⟨_, by rw [poll_status, hcall], fun hready => ?_⟩
    rw [Bool.and_eq_true] at hready
    exact Option.isSome_iff_exists.1 hready.1
  · exact .inl ⟨by rw [poll_status, hcall], hcall⟩

end Calls

/-- The call of the monitor waits for its look at the engine, and that of the
    cleanup is another one. -/
structure Calling (host : LocalInference) : Prop where
  monitor : ∀ j, host.monitor = .looking (some j) →
    host.engine.calls[j]? = some .status_locking
  cleanup : ∀ j, host.cleanup = some j →
    ∃ call, host.engine.calls[j]? = some call ∧ call ≠ .status_locking

/-- A step of the engine that leaves the call of the monitor alone. -/
theorem Calling.engine {host : LocalInference} (h : Calling host) {act : Engine.Act}
    (hact : ∀ j, host.monitor = .looking (some j) →
      (∀ choice, act ≠ .poll_call j choice) ∧ act ≠ .abandon j) :
    Calling { host with engine := host.engine.step parsers.from_slice act } := by
  refine ⟨fun j hj => ?_, fun j hj => ?_⟩
  · exact call_step (h.monitor j hj) (hact j hj).1 (hact j hj).2
  · obtain ⟨call, hcall, hother⟩ := h.cleanup j hj
    exact other_call_step hcall hother act

/-- The monitor and the cleanup are at different calls. -/
theorem Calling.distinct {host : LocalInference} (h : Calling host) {i j : Nat}
    (hi : host.monitor = .looking (some i)) (hj : host.cleanup = some j) : j ≠ i := by
  rintro rfl
  obtain ⟨call, hcall, hother⟩ := h.cleanup j hj
  rw [h.monitor j hi] at hcall
  exact hother (Option.some.inj hcall).symm

/-- A step of the engine on a call that is not that of the monitor. -/
theorem Calling.other {host : LocalInference} (h : Calling host) {j : Nat}
    (hj : ∀ i, host.monitor = .looking (some i) → j ≠ i) {act : Engine.Act}
    (hact : act = .abandon j ∨ ∃ choice, act = .poll_call j choice) :
    Calling { host with engine := host.engine.step parsers.from_slice act } := by
  refine h.engine fun i hi => ⟨fun choice heq => hj i hi ?_, fun heq => hj i hi ?_⟩
  · rcases hact with rfl | ⟨choice', rfl⟩
    · cases heq
    · exact (Engine.Act.poll_call.inj heq).1
  · rcases hact with rfl | ⟨choice', rfl⟩
    · exact Engine.Act.abandon.inj heq
    · cases heq

theorem calling_drop_cleanup {host : LocalInference} (h : Calling host) :
    Calling (host.drop_cleanup parsers) := by
  unfold drop_cleanup
  split
  · rename_i j _ hj
    exact h.other (fun i hi => h.distinct hi hj) (.inl rfl)
  · exact h

theorem calling_poll_shutdown {host : LocalInference} (h : Calling host)
    (answer : Engine.Choice) : Calling (host.poll_shutdown parsers answer) := by
  unfold poll_shutdown
  split
  · have hbefore : Calling { host with
        engine := host.engine.step parsers.from_slice .shutdown
        cleanup := some host.engine.calls.length } := by
      refine ⟨fun j hj => ?_, fun j hj => ?_⟩
      · exact call_step (h.monitor j hj) (by simp) (by simp)
      · obtain rfl : host.engine.calls.length = j := Option.some.inj hj
        exact ⟨.shutdown_locking, by simp [Engine.GenerationEngine.step], by simp⟩
    exact hbefore.other (fun i hi => hbefore.distinct hi rfl) (.inr ⟨answer, rfl⟩)
  · rename_i j hj
    exact h.other (fun i hi => h.distinct hi hj) (.inr ⟨answer, rfl⟩)

theorem calling_poll_monitor {host : LocalInference} (h : Calling host)
    (choice : MonitorChoice) : Calling (host.poll_monitor parsers choice) := by
  unfold poll_monitor
  cases hmonitor : host.monitor with
  | looking call =>
    cases call with
    | none =>
      refine ⟨fun j hj => ?_, fun j hj => ?_⟩
      · obtain rfl : host.engine.calls.length = j := by simpa using hj
        simp [Engine.GenerationEngine.step]
      · obtain ⟨call, hcall, hother⟩ := h.cleanup j hj
        exact ⟨call, call_step hcall (by simp) (by simp), hother⟩
    | some i =>
      have hcleanup (j : Nat) (hj : host.cleanup = some j) :
          ∃ call, (host.engine.step parsers.from_slice (.poll_call i choice.answer)).calls[j]? =
            some call ∧ call ≠ .status_locking := by
        obtain ⟨call, hcall, hother⟩ := h.cleanup j hj
        exact other_call_step hcall hother _
      dsimp only
      rcases poll_status_cases parsers (h.monitor i hmonitor) choice.answer with
        ⟨hpoll, hcall⟩ | ⟨ready, hpoll, -⟩
      · rw [hpoll]
        refine ⟨fun j hj => ?_, hcleanup⟩
        obtain rfl : i = j := by simpa using hj
        exact hcall
      · rw [hpoll]
        exact ⟨by simp, hcleanup⟩
  | waiting =>
    dsimp only
    split
    · exact ⟨by simp, h.cleanup⟩
    split
    · exact ⟨by simp, h.cleanup⟩
    · exact h
  | ended => exact h

/-- Every act leaves them so. -/
theorem calling_step {host : LocalInference} (h : Calling host) (act : LocalAct) :
    Calling (host.step parsers act) := by
  cases act with
  | server act answer =>
    cases act with
    | serve choice =>
      rw [step, poll_serve]
      split
      · exact ⟨h.monitor, h.cleanup⟩
      · have hpolled : Calling (host.poll_shutdown parsers answer) :=
          calling_poll_shutdown h answer
        exact calling_drop_cleanup ⟨hpolled.monitor, hpolled.cleanup⟩
    | _ => exact ⟨h.monitor, h.cleanup⟩
  | engine act =>
    rw [step]
    split
    · rename_i hothers
      refine h.engine fun j hj => ⟨?_, ?_⟩
      · rintro choice rfl
        simp [others, hj] at hothers
      · rintro rfl
        simp [others, hj] at hothers
    · exact h
  | monitor choice => exact calling_poll_monitor h choice

/-! ## Health in runs -/

/-- What the monitor has published, after the looks `looks`: what it has found
    last, until it has ended; and then the server does not admit any more. -/
structure Published (host : LocalInference) (looks : List Bool) : Prop where
  components : host.health.components =
    [(COMPONENT_NAME, !host.monitor.is_ended && looks.getLastD false)]
  ended : host.monitor.is_ended = true → host.server.serve ≠ .running

/-- The one component has the state that was set. -/
theorem components_set_ready {b : Bool} (h : self.health.components = [(COMPONENT_NAME, b)])
    (ready : Bool) : (self.set_ready ready).health.components = [(COMPONENT_NAME, ready)] := by
  simp [set_ready, HealthRegistry.set_component_ready, h]

/-- The monitor publishes what it saw last. -/
theorem published_poll_monitor {looks : List Bool} (h : Published self looks)
    (hstopped : self.server.shared.gate.stopped = true → self.server.serve ≠ .running)
    (choice : MonitorChoice) :
    Published (self.poll_monitor parsers choice)
      (looks ++ self.look parsers (.monitor choice)) := by
  obtain ⟨hcomponents, hended⟩ := h
  unfold poll_monitor look
  cases hmonitor : self.monitor with
  | looking call =>
    rw [hmonitor] at hcomponents
    cases call with
    | none =>
      dsimp only
      rw [List.append_nil]
      exact ⟨hcomponents, nofun⟩
    | some j =>
      dsimp only
      rcases poll_status parsers self.engine j choice.answer with ⟨engine, found⟩
      cases found with
      | none =>
        rw [Option.toList_none, List.append_nil]
        exact ⟨hcomponents, nofun⟩
      | some ready =>
        refine ⟨?_, nofun⟩
        rw [Option.toList_some, List.getLastD_concat]
        exact components_set_ready hcomponents ready
  | waiting =>
    rw [hmonitor] at hcomponents
    dsimp only
    rw [List.append_nil]
    split
    · rename_i hstop
      rw [Bool.and_eq_true] at hstop
      exact ⟨components_set_ready hcomponents false, fun _ => hstopped hstop.1⟩
    split
    · exact ⟨hcomponents, nofun⟩
    · exact ⟨hmonitor ▸ hcomponents, hmonitor ▸ nofun⟩
  | ended =>
    rw [hmonitor] at hcomponents hended
    dsimp only
    rw [List.append_nil]
    exact ⟨hmonitor ▸ hcomponents, hmonitor ▸ hended⟩

/-- The parts of the whole that the health routes rest on. -/
structure Sound (limits : ServerLimits) (host : LocalInference) (looks : List Bool) : Prop where
  server : InferenceServer.Inv limits host.server
  lifecycle : InferenceServer.Lifecycle host.server
  published : Published host looks
  calling : Calling host

theorem Sound.not_running_of_stopped {looks : List Bool} (h : Sound limits self looks)
    (hstopped : self.server.shared.gate.stopped = true) : self.server.serve ≠ .running := by
  obtain ⟨outcome, hphase⟩ := h.server.gate.stopped.1 hstopped
  intro hserve
  have hlifecycle := h.lifecycle
  rw [InferenceServer.Lifecycle, hserve] at hlifecycle
  rw [hphase] at hlifecycle
  cases hlifecycle.2

/-- A shutdown that has begun goes on. -/
theorem not_running_step (hlifecycle : self.server.Lifecycle)
    (hserve : self.server.serve ≠ .running) (act : LocalAct) :
    (self.step parsers act).server.serve ≠ .running := by
  have hstep : ∀ (server : InferenceServer) (act : Act),
      server.Lifecycle ∧ server.serve ≠ .running →
      (server.step parsers act).Lifecycle ∧ (server.step parsers act).serve ≠ .running :=
    fun _ act h => ⟨InferenceServer.lifecycle_step parsers h.1 act,
      InferenceServer.not_running_step parsers h.1 h.2 act⟩
  have hafter : (self.step parsers act).server.Lifecycle ∧
      (self.step parsers act).server.serve ≠ .running :=
    server_step hstep ⟨hlifecycle, hserve⟩ act
  exact hafter.2

/-- Only the monitor touches the registry, and itself. -/
theorem health_step {act : LocalAct} (hact : ∀ choice, act ≠ .monitor choice) :
    (self.step parsers act).health = self.health ∧
      (self.step parsers act).monitor = self.monitor ∧ self.look parsers act = [] := by
  have hserve (self : LocalInference) :
      (self.drop_cleanup parsers).health = self.health ∧
        (self.drop_cleanup parsers).monitor = self.monitor := by
    unfold drop_cleanup
    split <;> exact ⟨rfl, rfl⟩
  have hshutdown (answer : Engine.Choice) :
      (self.poll_shutdown parsers answer).health = self.health ∧
        (self.poll_shutdown parsers answer).monitor = self.monitor := by
    unfold poll_shutdown
    split <;> exact ⟨rfl, rfl⟩
  cases act with
  | server act answer =>
    cases act with
    | serve choice =>
      rw [step, poll_serve]
      split
      · exact ⟨rfl, rfl, rfl⟩
      · obtain ⟨hhealth, hmonitor⟩ := hserve
          { self.poll_shutdown parsers answer with
            server := (self.poll_shutdown parsers answer).server.poll_serve
              { choice with cleaned := (self.poll_shutdown parsers answer).cleaned } }
        exact ⟨hhealth.trans (hshutdown answer).1, hmonitor.trans (hshutdown answer).2, rfl⟩
    | _ => exact ⟨rfl, rfl, rfl⟩
  | engine act =>
    rw [step]
    split <;> exact ⟨rfl, rfl, rfl⟩
  | monitor choice => exact absurd rfl (hact choice)

/-- Every act keeps the invariant. -/
theorem sound_step {looks : List Bool} (h : Sound limits self looks) (act : LocalAct) :
    Sound limits (self.step parsers act) (looks ++ self.look parsers act) := by
  have hinv : ∀ (server : InferenceServer) (act : Act), InferenceServer.Inv limits server →
      InferenceServer.Inv limits (server.step parsers act) :=
    fun _ act h => InferenceServer.inv_step parsers h act
  have hlifecycle : ∀ (server : InferenceServer) (act : Act), server.Lifecycle →
      (server.step parsers act).Lifecycle :=
    fun _ act h => InferenceServer.lifecycle_step parsers h act
  refine ⟨server_step hinv h.server act, server_step hlifecycle h.lifecycle act, ?_,
    calling_step h.calling act⟩
  by_cases hact : ∃ choice, act = .monitor choice
  · obtain ⟨choice, rfl⟩ := hact
    exact published_poll_monitor h.published h.not_running_of_stopped choice
  · have hhealth : (self.step parsers act).health = self.health ∧
        (self.step parsers act).monitor = self.monitor ∧ self.look parsers act = [] :=
      health_step fun choice h => hact ⟨choice, h⟩
    obtain ⟨hhealth, hmonitor, hlook⟩ := hhealth
    rw [hlook, List.append_nil]
    refine ⟨?_, fun hended => ?_⟩
    · rw [hhealth, hmonitor]
      exact h.published.components
    · rw [hmonitor] at hended
      exact not_running_step h.lifecycle (h.published.ended hended) act

/-- A new program meets the invariant. -/
theorem sound_with_limits (limits : ServerLimits) (engine : Engine.GenerationEngine) :
    Sound limits (with_limits limits engine) [] where
  server := InferenceServer.inv_with_limits limits
  lifecycle := ⟨rfl, rfl⟩
  published := ⟨rfl, nofun⟩
  calling := ⟨nofun, nofun⟩

/-- What the health routes say, after the looks `looks`. The server is live up
    to the return of `serve`. It is ready as long as its shutdown has not begun
    and the last look of the monitor has found a sidecar that runs; then it
    admits requests. Else the reason says which of the two it is. Once the
    shutdown has begun, it is never ready again. -/
structure HealthReport (parsers : Parsers) (host : LocalInference) (looks : List Bool) :
    Prop where
  live : host.live.code = 200 ↔ ∀ result, host.server.serve ≠ .returned result
  ready : host.ready.code = 200 ↔ host.server.serve = .running ∧ looks.getLast? = some true
  admitting : host.ready.code = 200 → host.server.shared.gate.phase = .Accepting
  found : ∀ act, true ∈ host.look parsers act → ∃ child, host.engine.shared.running = some child
  unavailable : host.server.serve = .running → looks.getLast? ≠ some true →
    host.ready = ⟨503, "not_ready", some "component_unavailable"⟩
  shutting_down : host.server.serve ≠ .running → ∀ later,
    (run (step parsers) host later).ready = ⟨503, "not_ready", some "process_not_running"⟩

/-- The process is live until it has stopped. -/
theorem live_code : self.live.code = 200 ↔ self.server.process ≠ .Stopped := by
  unfold live HealthRegistry.snapshot
  cases self.server.process <;> simp

theorem ready_of_running (hprocess : self.server.process = .Running) : self.ready =
    if self.health.components.all (·.2) then ⟨200, "ready", none⟩
    else ⟨503, "not_ready", some "component_unavailable"⟩ := by
  unfold ready HealthRegistry.snapshot
  rw [hprocess]
  cases self.health.components.all (·.2) <;> rfl

theorem ready_of_not_running (hprocess : self.server.process ≠ .Running) :
    self.ready = ⟨503, "not_ready", some "process_not_running"⟩ := by
  unfold ready HealthRegistry.snapshot
  cases hcase : self.server.process with
  | Running => exact absurd hcase hprocess
  | _ => rfl

theorem process_of_not_running (h : self.server.Lifecycle) (hserve : self.server.serve ≠ .running) :
    self.server.process ≠ .Running := by
  revert h
  unfold InferenceServer.Lifecycle
  cases hcase : self.server.serve with
  | running => exact absurd hcase hserve
  | _ =>
    intro h
    rw [h.1]
    exact nofun

theorem process_eq_stopped (h : self.server.Lifecycle) :
    self.server.process = .Stopped ↔ ∃ result, self.server.serve = .returned result := by
  revert h
  unfold InferenceServer.Lifecycle
  cases self.server.serve with
  | returned result => exact fun h => ⟨fun _ => ⟨result, rfl⟩, fun _ => h.1⟩
  | _ => exact fun h => ⟨fun hstopped => by simp [h.1] at hstopped, nofun⟩

/-- A look that finds the engine ready finds a sidecar. -/
theorem running_of_look (h : Calling self) {act : LocalAct} (hact : true ∈ self.look parsers act) :
    ∃ child, self.engine.shared.running = some child := by
  cases act with
  | monitor choice =>
    rw [look] at hact
    cases hmonitor : self.monitor with
    | looking call =>
      cases call with
      | none => simp [hmonitor] at hact
      | some j =>
        rw [hmonitor] at hact
        dsimp only at hact
        rcases poll_status_cases parsers (h.monitor j hmonitor) choice.answer with
          ⟨hpoll, -⟩ | ⟨found, hpoll, hfound⟩
        · simp [hpoll] at hact
        · rw [hpoll] at hact
          obtain rfl : found = true := by simpa using hact
          exact hfound rfl
    | _ => simp [hmonitor] at hact
  | _ => cases hact

/-- The invariant gives the report. -/
theorem Sound.report {looks : List Bool} (h : Sound limits self looks) :
    HealthReport parsers self looks := by
  have hrunning (hserve : self.server.serve = .running) : self.server.process = .Running ∧
      self.server.shared.gate.phase = .Accepting := by
    have hlifecycle := h.lifecycle
    rwa [InferenceServer.Lifecycle, hserve] at hlifecycle
  have hready (hserve : self.server.serve = .running) : self.ready =
      if looks.getLast? = some true then ⟨200, "ready", none⟩
      else ⟨503, "not_ready", some "component_unavailable"⟩ := by
    have hlast : self.health.components.all (·.2) = looks.getLastD false := by
      rw [h.published.components,
        Bool.eq_false_iff.2 fun hended => h.published.ended hended hserve]
      simp
    rw [ready_of_running (hrunning hserve).1, hlast, List.getLastD_eq_getLast?]
    cases looks.getLast? with
    | none => rfl
    | some found => cases found <;> rfl
  refine ⟨?_, ?_, ?_, ?_, ?_, ?_⟩
  · rw [live_code, ne_eq, process_eq_stopped h.lifecycle, not_exists]
  · by_cases hserve : self.server.serve = .running
    · rw [hready hserve]
      split <;> simp [*]
    · rw [ready_of_not_running (process_of_not_running h.lifecycle hserve)]
      simp [hserve]
  · intro hcode
    by_cases hserve : self.server.serve = .running
    · exact (hrunning hserve).2
    · rw [ready_of_not_running (process_of_not_running h.lifecycle hserve)] at hcode
      cases hcode
  · exact fun act hact => running_of_look h.calling hact
  · intro hserve hlast
    rw [hready hserve, if_neg hlast]
  · intro hserve later
    have hlifecycle : ∀ (server : InferenceServer) (act : Act), server.Lifecycle →
        (server.step parsers act).Lifecycle :=
      fun _ act h => InferenceServer.lifecycle_step parsers h act
    have hstep : ∀ (host : LocalInference) (act : LocalAct),
        host.server.Lifecycle ∧ host.server.serve ≠ .running →
        (host.step parsers act).server.Lifecycle ∧
          (host.step parsers act).server.serve ≠ .running :=
      fun host act h => ⟨server_step hlifecycle h.1 act, not_running_step h.1 h.2 act⟩
    obtain ⟨hlifecycle, hlater⟩ := invariant hstep ⟨h.lifecycle, hserve⟩ later
    exact ready_of_not_running (process_of_not_running hlifecycle hlater)

/-- The health routes report what `serve` and the monitor have found. -/
theorem health_reported (parsers : Parsers) (limits : ServerLimits)
    (engine : Engine.GenerationEngine) (acts : List LocalAct) :
    HealthReport parsers (run (step parsers) (with_limits limits engine) acts)
      (outputs (step parsers) (look parsers) (with_limits limits engine) acts) := by
  have hstep : ∀ (host : LocalInference) act looks, Sound limits host looks →
      Sound limits (host.step parsers act) (looks ++ host.look parsers act) :=
    fun _ act _ h => sound_step h act
  have hsound := invariant_outputs hstep (sound_with_limits limits engine) acts
  exact Sound.report hsound

/-! ## The end of the sidecar -/

/-- When the cleanup is completed, the custody of the sidecar is closed. -/
structure Ending (host : LocalInference) : Prop where
  inv : host.engine.Inv
  closed : host.server.cleanup.completed = some true → Custody.Closed host.engine.custody
  concluded : host.server.Concluded

/-- An engine that launches nothing any more, after `launched` launches. -/
structure Retired (launched : Nat) (engine : Engine.GenerationEngine) : Prop where
  inv : engine.Inv
  closed : Custody.Closed engine.custody
  launched : engine.shared.launched = launched

theorem retired_step {launched : Nat} (engine : Engine.GenerationEngine) (act : Engine.Act)
    (h : Retired launched engine) : Retired launched (engine.step parsers.from_slice act) := by
  have hsteps := (Engine.GenerationEngine.custody_step parsers.from_slice h.inv.locked act).2
  obtain ⟨hclosed, hmade⟩ := Custody.closed_steps h.closed hsteps
  exact ⟨Engine.GenerationEngine.inv_step _ h.inv act, hclosed, hmade.trans h.launched⟩

theorem inv_step (engine : Engine.GenerationEngine) (act : Engine.Act) (h : engine.Inv) :
    (engine.step parsers.from_slice act).Inv :=
  Engine.GenerationEngine.inv_step parsers.from_slice h act

/-- When the cleanup is done, custody is closed. -/
theorem closed_of_cleaned (h : self.engine.Inv) (hcleaned : self.cleaned = true) :
    Custody.Closed self.engine.custody := by
  unfold cleaned at hcleaned
  split at hcleaned
  · cases hcleaned
  · split at hcleaned
    · rename_i hcall
      exact h.answers .shutdown_returned (List.mem_of_getElem? hcall)
    · cases hcleaned

/-- Only a poll of the cleanup completes it. -/
theorem completed_of_step {act : LocalAct}
    (hact : ∀ choice answer, act ≠ .server (.serve choice) answer) :
    (self.step parsers act).server.cleanup = self.server.cleanup := by
  cases act with
  | server act answer =>
    cases act with
    | serve choice => exact absurd rfl (hact choice answer)
    | arrive is_mcp headers upload => rfl
    | poll i choice =>
      have hact : ∀ choice', Act.poll i choice ≠ .serve choice' := by simp
      exact InferenceServer.completed_step parsers hact
    | drop i =>
      have hact : ∀ choice', Act.drop i ≠ .serve choice' := by simp
      exact InferenceServer.completed_step parsers hact
    | tick time => rfl
  | engine act =>
    rw [step]
    split <;> rfl
  | monitor choice => rw [step, server_poll_monitor]

/-- So it is when the server says that it is. -/
theorem closed_step (h : Ending self) (act : LocalAct)
    (hcompleted : (self.step parsers act).server.cleanup.completed = some true) :
    Custody.Closed (self.step parsers act).engine.custody := by
  by_cases hbefore : self.server.cleanup.completed = some true
  · have hretired : Retired self.engine.shared.launched self.engine :=
      ⟨h.inv, h.closed hbefore, rfl⟩
    exact (engine_step retired_step hretired act).closed
  by_cases hact : ∃ choice answer, act = .server (.serve choice) answer
  · obtain ⟨choice, answer, rfl⟩ := hact
    revert hcompleted
    rw [step, poll_serve]
    split
    · intro hcompleted
      rename_i hpolled
      obtain hdone | ⟨-, hne⟩ := InferenceServer.completed_poll_serve hcompleted
      · exact absurd hdone hbefore
      · exact absurd hpolled hne
    · intro hcompleted
      rw [server_drop_cleanup, server_poll_shutdown] at hcompleted
      obtain hdone | ⟨hcleaned, -⟩ := InferenceServer.completed_poll_serve hcompleted
      · exact absurd hdone hbefore
      · have hinv : (self.poll_shutdown parsers answer).engine.Inv :=
          engine_poll_shutdown inv_step h.inv answer
        have hretired : Retired (self.poll_shutdown parsers answer).engine.shared.launched
            (self.poll_shutdown parsers answer).engine :=
          ⟨hinv, closed_of_cleaned hinv hcleaned, rfl⟩
        have hdropped (server : InferenceServer) :
            Retired (self.poll_shutdown parsers answer).engine.shared.launched
              ({ self.poll_shutdown parsers answer with server }.drop_cleanup parsers).engine :=
          engine_drop_cleanup retired_step hretired
        exact (hdropped _).closed
  · rw [completed_of_step fun choice answer heq => hact ⟨choice, answer, heq⟩] at hcompleted
    exact absurd hcompleted hbefore

/-- Every act keeps what is known of the end. -/
theorem ending_step (h : Ending self) (act : LocalAct) : Ending (self.step parsers act) := by
  have hconcluded : ∀ (server : InferenceServer) (act : Act), server.Concluded →
      (server.step parsers act).Concluded :=
    fun _ act h => InferenceServer.concluded_step parsers h act
  exact ⟨engine_step inv_step h.inv act, closed_step h act, server_step hconcluded h.concluded act⟩

theorem ending_with_limits {config : Engine.EngineConfig} {attempt : Nat}
    {engine : Engine.GenerationEngine}
    (hstart : Engine.GenerationEngine.start config attempt = .ok engine) (limits : ServerLimits) :
    Ending (with_limits limits engine) :=
  ⟨Engine.GenerationEngine.inv_start hstart, nofun, nofun⟩

theorem calling_with_limits (limits : ServerLimits) (engine : Engine.GenerationEngine) :
    Calling (with_limits limits engine) := ⟨nofun, nofun⟩

/-- Once the cleanup is completed, nothing of the sidecar is left at any time,
    and no look finds one. -/
theorem Ending.gone {host : LocalInference} (h : Ending host) (hcalling : Calling host)
    (hserve : host.server.serve = .returned (.ok ())) (later : List LocalAct) :
    Engine.GenerationEngine.Gone (run (step parsers) host later).engine
        host.engine.shared.launched ∧
      true ∉ outputs (step parsers) (look parsers) host later := by
  have hretired : Retired host.engine.shared.launched host.engine :=
    ⟨h.inv, h.closed (h.concluded hserve), rfl⟩
  have hlater : ∀ (s : LocalInference) act given,
      Retired host.engine.shared.launched s.engine ∧ Calling s ∧ true ∉ given →
      Retired host.engine.shared.launched (s.step parsers act).engine ∧
        Calling (s.step parsers act) ∧ true ∉ given ++ s.look parsers act := by
    rintro s act given ⟨hretired, hcalling, hgiven⟩
    refine ⟨engine_step retired_step hretired act, calling_step hcalling act, fun hmem => ?_⟩
    rcases List.mem_append.1 hmem with hmem | hmem
    · exact hgiven hmem
    · obtain ⟨child, hrunning⟩ := running_of_look hcalling hmem
      rw [show s.engine.shared.running = none from hretired.closed.empty] at hrunning
      cases hrunning
  obtain ⟨hfinal, -, hlooks⟩ :=
    invariant_outputs hlater ⟨hretired, hcalling, List.not_mem_nil⟩ later
  exact ⟨hfinal.launched ▸ hfinal.inv.gone hfinal.closed, hlooks⟩

/-- When `serve` has returned without an error, nothing of the sidecar is left,
    and from then on none is launched and no look finds one. -/
theorem serve_ends_sidecar (parsers : Parsers) {config : Engine.EngineConfig} {attempt : Nat}
    {engine : Engine.GenerationEngine}
    (hstart : Engine.GenerationEngine.start config attempt = .ok engine) (limits : ServerLimits)
    (acts later : List LocalAct) :
    let host := run (step parsers) (with_limits limits engine) acts
    host.server.serve = .returned (.ok ()) →
      Engine.GenerationEngine.Gone (run (step parsers) host later).engine
        host.engine.shared.launched ∧
      true ∉ outputs (step parsers) (look parsers) host later := by
  intro host hserve
  have hending : ∀ (host : LocalInference) act, Ending host → Ending (host.step parsers act) :=
    fun _ act h => ending_step h act
  have hcalling : ∀ (host : LocalInference) act, Calling host → Calling (host.step parsers act) :=
    fun _ act h => calling_step h act
  have hcalling : Calling host := invariant hcalling (calling_with_limits limits engine) acts
  exact (invariant hending (ending_with_limits hstart limits) acts).gone hcalling hserve later

/-- A server that is shut down at once. -/
theorem serve_ends_sidecar_idle :
    let answer : Engine.Choice :=
      { permit := true, lock := true, exited := .ok false, prepared := .ok (), launch := none
        probe := none, elapsed := false, late := false, terminated := true, remaining := none
        response := none, next := none }
    let ended : ServeChoice :=
      { shutdown := true, http_ended := some (.ok ()), cleaned := false, lag := 0 }
    let monitor : LocalAct := .monitor { answer, elapsed := true, elapsed_first := false }
    let host := run (step InferenceServer.no_parsers)
      (with_limits InferenceServer.small_limits Engine.GenerationEngine.small_engine)
      [.server (.serve ended) answer, .server (.serve ended) answer,
        .server (.serve ended) answer]
    host.server.serve = .returned (.ok ()) ∧
      Engine.GenerationEngine.Gone (run (step InferenceServer.no_parsers) host [monitor]).engine
        host.engine.shared.launched := by
  intro answer ended monitor host
  have hserve : host.server.serve = .returned (.ok ()) := by rfl
  exact ⟨hserve, (serve_ends_sidecar InferenceServer.no_parsers
    Engine.GenerationEngine.start_small InferenceServer.small_limits
      [.server (.serve ended) answer, .server (.serve ended) answer,
        .server (.serve ended) answer] [monitor] hserve).1⟩

end LocalInference

end Inferences.Server
