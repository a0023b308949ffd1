import Inferences.Engine.Sidecar
import Inferences.Permits

/-!
# The permits of the engine

A generation takes an admission permit when it is admitted and the execution
permit when the lane is its own, and gives both back when `run_generation`
returns, wherever that is (`Polled.permits`). So the permits are accounted for
at any time (`lane_accounting`): those that are free and those that running
generations hold are all there are.
-/

namespace Inferences.Engine

open Json Schedule Permits

/-! ## One poll -/

theorem clear_running_permits (shared : Shared) :
    shared.clear_running.admitted = shared.admitted ∧
      shared.clear_running.execution = shared.execution := by
  unfold Shared.clear_running
  split <;> exact ⟨rfl, rfl⟩

namespace Task

variable {from_slice : Bytes → Option Value} {i : Nat} {shared shared' : Shared}
  {self : Task}

/-- A step of a task that takes from the free permits what it gets in hand. -/
structure Balanced (shared : Shared) (phase : Phase) (r : Shared × Task) : Prop where
  admitted : r.1.admitted + r.2.phase.admitted.toNat = shared.admitted + phase.admitted.toNat
  execution : r.1.execution + r.2.phase.executing.toNat = shared.execution + phase.executing.toNat

/-- The lock is taken with both permits held. -/
theorem Phase.permits_of_locked {phase : Phase} (h : phase.locked = true) :
    phase.admitted = true ∧ phase.executing = true := by
  cases phase <;> first | exact ⟨rfl, rfl⟩ | cases h

/-- A task that leaves gives its permits back. -/
theorem leave_permits (self : Task) (shared : Shared) :
    (self.leave shared).admitted = shared.admitted + self.phase.admitted.toNat ∧
      (self.leave shared).execution = shared.execution + self.phase.executing.toNat := by
  unfold leave
  cases self.phase <;> exact ⟨rfl, rfl⟩

/-- A task that fails keeps the balance. -/
theorem balanced_fail (self : Task) (shared : Shared) (e : EngineError) :
    Balanced shared self.phase (self.fail shared e) :=
  ⟨(leave_permits self shared).1, (leave_permits self shared).2⟩

theorem balanced_clear_running {phase : Phase} {r : Shared × Task}
    (h : Balanced shared.clear_running phase r) : Balanced shared phase r := by
  obtain ⟨hadmitted, hexecution⟩ := clear_running_permits shared
  exact ⟨by rw [← hadmitted, h.admitted], by rw [← hexecution, h.execution]⟩

/-- Moving between two places where the permits are the same. -/
theorem balanced_move {phase : Phase} {r : Shared × Task}
    (hadmitted : r.1.admitted = shared.admitted) (hexecution : r.1.execution = shared.execution)
    (hphase : phase.admitted = true ∧ phase.executing = true)
    (hphase' : r.2.phase.admitted = true ∧ r.2.phase.executing = true) :
    Balanced shared phase r :=
  ⟨by rw [hadmitted, hphase.1, hphase'.1], by rw [hexecution, hphase.2, hphase'.2]⟩

/-- What follows a chunk keeps the balance. -/
theorem balanced_proceed (shared : Shared)
    (hphase : self.phase.admitted = true ∧ self.phase.executing = true) (after : After)
    (events : List GenerationEvent) :
    Balanced shared self.phase (self.proceed shared after events) := by
  cases events with
  | cons => exact balanced_move rfl rfl hphase ⟨rfl, rfl⟩
  | nil =>
    cases after with
    | read => exact balanced_move rfl rfl hphase ⟨rfl, rfl⟩
    | fail e => exact balanced_fail self shared e
    | succeed => exact ⟨(leave_permits self shared).1, (leave_permits self shared).2⟩

/-- So does the reading of a chunk. -/
theorem balanced_consume (shared : Shared)
    (hphase : self.phase.admitted = true ∧ self.phase.executing = true) (progress : Progress)
    (buffer : Bytes) (value : Option (Except Unit Bytes)) :
    Balanced shared self.phase (self.consume from_slice shared progress buffer value) := by
  unfold consume finish
  split
  · exact balanced_proceed shared hphase ..
  · exact balanced_fail ..
  · split
    · exact balanced_proceed shared hphase ..
    · split <;> exact balanced_proceed shared hphase ..

/-- What a poll takes from the free permits is what the task gets in hand. -/
theorem Polled.permits {r : Shared × Task} (h : Polled from_slice i shared self r) :
    Balanced shared self.phase r := by
  cases h with
  | wait => exact ⟨rfl, rfl⟩
  | fail e => exact balanced_fail ..
  | fail_clear e => exact balanced_clear_running (balanced_fail ..)
  | enter hphase hfree =>
    rw [hphase]
    exact ⟨rfl, Nat.sub_add_cancel hfree⟩
  | connect hphase => exact balanced_move rfl rfl (hphase ▸ ⟨rfl, rfl⟩) ⟨rfl, rfl⟩
  | begin_launch hphase =>
    exact balanced_clear_running (balanced_move rfl rfl (hphase ▸ ⟨rfl, rfl⟩) ⟨rfl, rfl⟩)
  | launch_again attempt hphase => exact balanced_move rfl rfl (hphase ▸ ⟨rfl, rfl⟩) ⟨rfl, rfl⟩
  | back_off attempt hphase => exact balanced_move rfl rfl (hphase ▸ ⟨rfl, rfl⟩) ⟨rfl, rfl⟩
  | launch attempt phase hphase _ hlocked =>
    exact balanced_move rfl rfl (hphase ▸ ⟨rfl, rfl⟩) (Phase.permits_of_locked hlocked)
  | watch child phase hphase hlocked =>
    exact balanced_move rfl rfl (Phase.permits_of_locked (Phase.locked_of_child hphase))
      (Phase.permits_of_locked hlocked)
  | ready attempt child hphase => exact balanced_move rfl rfl (hphase ▸ ⟨rfl, rfl⟩) ⟨rfl, rfl⟩
  | drop attempt child readiness hphase =>
    exact balanced_move rfl rfl (hphase ▸ ⟨rfl, rfl⟩) ⟨rfl, rfl⟩
  | post hphase => exact balanced_move rfl rfl (hphase ▸ ⟨rfl, rfl⟩) ⟨rfl, rfl⟩
  | respond hphase => exact balanced_move rfl rfl (hphase ▸ ⟨rfl, rfl⟩) ⟨rfl, rfl⟩
  | consume progress buffer value hphase =>
    exact balanced_consume shared (hphase ▸ ⟨rfl, rfl⟩) progress buffer value
  | send event events after hphase =>
    have hsending : self.phase.admitted = true ∧ self.phase.executing = true := hphase ▸ ⟨rfl, rfl⟩
    exact @balanced_proceed { self with channel := self.channel ++ [Except.ok event] } shared
      hsending after events
  | report e hphase =>
    rw [hphase]
    exact ⟨rfl, rfl⟩
  | forget e hphase =>
    rw [hphase]
    exact ⟨rfl, rfl⟩

end Task

/-! ## The engine -/

namespace GenerationEngine

/-- Both pools of permits are accounted for. -/
structure Balanced (engine : GenerationEngine) : Prop where
  admission : Accounted (·.phase.admitted)
    (engine.config.max_concurrent + engine.config.queue_capacity) engine.shared.admitted
    engine.tasks
  lane : Accounted (·.phase.executing) engine.config.max_concurrent engine.shared.execution
    engine.tasks

variable {engine : GenerationEngine}

/-- A step of one task keeps the balance of the engine when it keeps its own. -/
theorem balanced_with_task {i : Nat} {step : Task → Shared × Task} (h : Balanced engine)
    (hstep : ∀ task, engine.tasks[i]? = some task →
      Task.Balanced engine.shared task.phase (step task)) :
    Balanced (engine.with_task i step) := by
  unfold with_task
  split
  · exact h
  · rename_i task hi
    exact ⟨h.admission.set hi (hstep task hi).admitted, h.lane.set hi (hstep task hi).execution⟩

/-- A step of a call takes and gives no permit. -/
theorem balanced_with_call {j : Nat} {step : Call → Shared × Call} (h : Balanced engine)
    (hstep : ∀ call, (step call).1.admitted = engine.shared.admitted ∧
      (step call).1.execution = engine.shared.execution) :
    Balanced (engine.with_call j step) := by
  unfold with_call
  split
  · exact h
  · rename_i call hj
    obtain ⟨hadmitted, hexecution⟩ := hstep call
    refine ⟨?_, ?_⟩
    · simpa only [hadmitted] using h.admission
    · simpa only [hexecution] using h.lane

theorem poll_call_permits (shared : Shared) (j : Nat) (choice : Choice) (call : Call) :
    (poll_call shared j choice call).1.admitted = shared.admitted ∧
      (poll_call shared j choice call).1.execution = shared.execution := by
  cases call with
  | status_locking =>
    have hstatus (ready : Bool) :
        (if ready then shared else shared.clear_running).admitted = shared.admitted ∧
          (if ready then shared else shared.clear_running).execution = shared.execution := by
      cases ready
      · exact clear_running_permits shared
      · exact ⟨rfl, rfl⟩
    rw [poll_call]
    split
    · exact hstatus _
    · exact ⟨rfl, rfl⟩
  | shutdown_locking =>
    rw [poll_call]
    split
    · split <;> exact ⟨rfl, rfl⟩
    · exact ⟨rfl, rfl⟩
  | shutdown_terminating child =>
    rw [poll_call]
    split <;> exact ⟨rfl, rfl⟩
  | _ => exact ⟨rfl, rfl⟩

theorem abandon_permits (shared : Shared) (call : Call) :
    (abandon shared call).1.admitted = shared.admitted ∧
      (abandon shared call).1.execution = shared.execution := by
  cases call <;> exact ⟨rfl, rfl⟩

/-- A generation that is refused changes nothing. -/
theorem generate_error {request : Except EngineError NormalizedRequest} {e : EngineError}
    (h : (engine.generate request).2 = .error e) : (engine.generate request).1 = engine := by
  unfold generate at h ⊢
  split
  · rfl
  · split
    · rfl
    · split
      · rfl
      · simp_all

/-- A generation that is admitted takes one permit. -/
theorem balanced_generate (h : Balanced engine) (request : Except EngineError NormalizedRequest) :
    Balanced (engine.generate request).1 := by
  unfold generate
  split
  · exact h
  split
  · exact h
  split
  · exact h
  · rename_i hfree
    exact ⟨h.admission.append (Nat.sub_add_cancel (Nat.pos_of_ne_zero hfree)),
      h.lane.append (Nat.add_zero _)⟩

/-- Every act keeps the balance. -/
theorem balanced_step (from_slice : Bytes → Option Value) (h : Balanced engine) (act : Act) :
    Balanced (engine.step from_slice act) := by
  cases act with
  | generate request => exact balanced_generate h request
  | poll i choice =>
    exact balanced_with_task h fun task _ =>
      (Task.poll_polled from_slice task i engine.shared choice).permits
  | signal i signal =>
    have hstep (task : Task) :
        Task.Balanced engine.shared task.phase (engine.shared, task.signal signal) := by
      have hphase := signal_phase task signal
      exact ⟨by simp only [hphase], by simp only [hphase]⟩
    exact balanced_with_task h fun task _ => hstep task
  | status => exact ⟨h.admission, h.lane⟩
  | shutdown => exact ⟨h.admission, h.lane⟩
  | poll_call j choice => exact balanced_with_call h (poll_call_permits engine.shared j choice)
  | abandon j => exact balanced_with_call h (abandon_permits engine.shared)
  | exit child => exact ⟨h.admission, h.lane⟩

/-- The configuration stays. -/
theorem config_step (from_slice : Bytes → Option Value) (engine : GenerationEngine) (act : Act) :
    (engine.step from_slice act).config = engine.config := by
  cases act with
  | generate request =>
    unfold step generate
    dsimp only
    repeat' split
    all_goals rfl
  | poll | signal =>
    unfold step with_task
    dsimp only
    split <;> rfl
  | poll_call | abandon =>
    unfold step with_call
    dsimp only
    split <;> rfl
  | status | shutdown | exit => rfl

/-! ## Whole runs -/

/-- The generation has ended: `run_generation` has returned. -/
def ended (task : Task) : Prop := task.phase = .ended ∨ ∃ e, task.phase = .failing e

/-- The accounts of an engine: the admission permits, free or held, are all
    there are, and at most one generation is in the lane; a request is refused
    for want of a permit only when all are held, and a refused one takes none;
    a generation that has ended holds none, and when all have, all are free. -/
structure LaneAccounting (config : EngineConfig) (engine : GenerationEngine) : Prop where
  admission : engine.shared.admitted + engine.tasks.countP (·.phase.admitted) =
    config.max_concurrent + config.queue_capacity
  lane : engine.tasks.countP (·.phase.executing) ≤ 1
  overloaded : ∀ request, (∀ e, request = .error e → ∃ message, e = .InvalidRequest message) →
    (engine.generate request).2 = .error .Overloaded →
    engine.tasks.countP (·.phase.admitted) = config.max_concurrent + config.queue_capacity
  refused : ∀ request e, (engine.generate request).2 = .error e →
    (engine.generate request).1 = engine
  ended : ∀ task ∈ engine.tasks, ended task →
    task.phase.admitted = false ∧ task.phase.executing = false
  free : (∀ task ∈ engine.tasks, GenerationEngine.ended task) →
    engine.shared.admitted = config.max_concurrent + config.queue_capacity ∧
      engine.shared.execution = config.max_concurrent

/-- A task that has ended holds no permit. -/
theorem permits_of_ended {task : Task} (h : ended task) :
    task.phase.admitted = false ∧ task.phase.executing = false := by
  rcases h with h | ⟨e, h⟩ <;> rw [h] <;> exact ⟨rfl, rfl⟩

/-- A request is overloaded when no permit is free. -/
theorem generate_overloaded {request : Except EngineError NormalizedRequest}
    (hrequest : ∀ e, request = .error e → ∃ message, e = .InvalidRequest message)
    (h : (engine.generate request).2 = .error .Overloaded) : engine.shared.admitted = 0 := by
  unfold generate at h
  split at h
  · cases h
  · cases request with
    | error e =>
      obtain ⟨message, rfl⟩ := hrequest e rfl
      cases h
    | ok request =>
      dsimp only at h
      split at h
      · assumption
      · cases h

/-- The balance gives the result. -/
theorem Balanced.accounting (h : Balanced engine) (hvalid : engine.config.max_concurrent = 1) :
    LaneAccounting engine.config engine where
  admission := h.admission
  lane := hvalid ▸ h.lane.countP_le
  overloaded _ hrequest hover := h.admission.all_held (generate_overloaded hrequest hover)
  refused _ _ herror := generate_error herror
  ended _ _ hended := permits_of_ended hended
  free hall := ⟨h.admission.all_free fun task hmem => (permits_of_ended (hall task hmem)).1,
    h.lane.all_free fun task hmem => (permits_of_ended (hall task hmem)).2⟩

/-- A new engine has all its permits. -/
theorem balanced_start {config : EngineConfig} {attempt : Nat}
    (h : start config attempt = .ok engine) :
    Balanced engine ∧ engine.config = config ∧ config.max_concurrent = 1 := by
  obtain ⟨rfl, hvalid⟩ := start_eq_ok h
  refine ⟨⟨rfl, rfl⟩, rfl, ?_⟩
  rw [EngineConfig.validate] at hvalid
  split at hvalid
  · cases hvalid
  · simp_all

/-- The permits of a started engine, after any acts. -/
theorem lane_accounting (from_slice : Bytes → Option Value) {config : EngineConfig} {attempt : Nat}
    (hstart : start config attempt = .ok engine) (acts : List Act) :
    LaneAccounting config (run (step from_slice) engine acts) := by
  obtain ⟨hbalanced, rfl, hone⟩ := balanced_start hstart
  have hstep : ∀ (s : GenerationEngine) act, Balanced s ∧ s.config = engine.config →
      Balanced (s.step from_slice act) ∧ (s.step from_slice act).config = engine.config :=
    fun s act h => ⟨balanced_step from_slice h.1 act, (config_step from_slice s act).trans h.2⟩
  obtain ⟨hrun, hconfig⟩ := invariant hstep ⟨hbalanced, rfl⟩ acts
  rw [← hconfig]
  exact hrun.accounting (hconfig ▸ hone)

/-- An engine with room for two generations, which are admitted; the lane is
    taken by the first, and a third request is refused. -/
theorem lane_accounting_full :
    let config : EngineConfig :=
      { max_prompt_bytes := 8192, max_messages := 16, max_output_tokens := 64, queue_capacity := 1
        max_concurrent := 1, event_capacity := 8, startup_timeout := .from_secs 1
        shutdown_timeout := .from_secs 1 }
    let request : Except EngineError NormalizedRequest := .ok ⟨.Completion "", 1, 0, 1, none, []⟩
    ∃ engine, start config 0 = .ok engine ∧
      let full := run (step fun _ => none) engine [.generate request, .generate request]
      LaneAccounting config full ∧ full.shared.admitted = 0 := by
  intro config request
  have hstart := start_of_fits 0 (show config.validate = .ok () from rfl) rfl (by decide)
  exact ⟨_, hstart, lane_accounting _ hstart [.generate request, .generate request], rfl⟩

end GenerationEngine

end Inferences.Engine
