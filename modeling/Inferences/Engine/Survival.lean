import Inferences.Engine.Sidecar

/-!
# What ends a live sidecar

The sidecar in `lifecycle.running` serves all generations. Generations and
`status` calls ask it whether it has exited, and each has its own way with an
error for an answer: a generation fails and leaves the sidecar where it is
(`same_poll`), a `status` call drops it, and kills it so.

Where no `status` call gets an error about a live sidecar, only a shutdown call
takes one away, and only there (`live_child_spared_iff`).
-/

namespace Inferences.Engine

open Json Schedule

namespace Task

variable {from_slice : Bytes → Option Value} {i : Nat} {shared : Shared} {self : Task}
  {choice : Choice}

/-- A child that runs is kept. -/
theorem same_ensure_running (hphase : self.phase = .locking) {child : Child}
    (hrunning : shared.running = some child) (hexited : choice.exited ≠ .ok true) :
    Same shared (self.ensure_running i shared choice).1 := by
  unfold ensure_running
  rw [hrunning]
  dsimp only
  split
  · exact same_leave shared (by rw [hphase]; rfl)
  · exact ⟨_, _, rfl⟩
  · next htrue => exact absurd htrue hexited

/-- So it is when the connection begins. -/
theorem same_connection (hphase : self.phase = .connecting) {child : Child}
    (hrunning : shared.running = some child) (hexited : choice.exited ≠ .ok true) :
    Same shared (self.connection shared choice).1 := by
  have hfail : ∀ e, Same shared (self.fail shared e).1 := fun e =>
    same_leave shared (by rw [hphase]; rfl)
  unfold connection
  rw [hrunning]
  dsimp only
  split
  · exact hfail _
  · next htrue => exact absurd htrue hexited
  · split
    · exact hfail _
    · exact hfail _
    · exact ⟨_, _, rfl⟩

/-- Elsewhere the sidecar is only touched with the lock. -/
theorem Polled.same {r : Shared × Task} (h : Polled from_slice i shared self r)
    (hlocked : self.phase.locked = false) (hlocking : self.phase ≠ .locking)
    (hconnecting : self.phase ≠ .connecting) : Same shared r.1 := by
  cases h with
  | fail e => exact same_leave shared hlocked
  | fail_clear e hphase => exact absurd hphase (by simp [hlocking, hconnecting])
  | begin_launch hphase => exact absurd hphase hlocking
  | launch_again attempt hphase => simp [hphase, Phase.locked] at hlocked
  | launch attempt phase hphase => simp [hphase, Phase.locked] at hlocked
  | ready attempt child hphase => simp [hphase, Phase.locked] at hlocked
  | drop attempt child readiness hphase => simp [hphase, Phase.locked] at hlocked
  | consume progress buffer value =>
    exact (outside_consume from_slice shared hlocked progress buffer value).1
  | send event events after =>
    exact (outside_proceed shared
      (show Phase.locked { self with channel := self.channel ++ [Except.ok event] }.phase = false
        from hlocked) after events).1
  | _ => exact ⟨_, _, rfl⟩

/-- A task without the lock, that does not hear that the sidecar has exited,
    leaves it alone. -/
theorem same_poll (from_slice : Bytes → Option Value) (i : Nat)
    (hlocked : self.phase.locked = false) {child : Child}
    (hrunning : shared.running = some child) (hexited : choice.exited ≠ .ok true) :
    Same shared (self.poll from_slice i shared choice).1 := by
  have hsame : Same shared shared := ⟨_, _, rfl⟩
  -- a wait for the lock is interrupted by a stop, and else goes on where the lock is free
  by_cases hlocking : self.phase = .locking
  · unfold poll
    rw [hlocking]
    dsimp only
    split
    · exact same_leave shared hlocked
    · unfold advance
      dsimp only
      split
      · exact same_ensure_running hlocking hrunning hexited
      · exact hsame
  by_cases hconnecting : self.phase = .connecting
  · unfold poll
    rw [hconnecting]
    dsimp only
    split
    · exact same_leave shared hlocked
    · unfold advance
      dsimp only
      split
      · exact same_connection hconnecting hrunning hexited
      · exact hsame
  exact (poll_polled from_slice self i shared choice).same hlocked hlocking hconnecting

end Task

namespace GenerationEngine

variable {from_slice : Bytes → Option Value} {engine : GenerationEngine} {child : Child}

/-- What the exit query of a process is relied on for: it does not answer that
    a process has exited which has not. -/
def Truthful (engine : GenerationEngine) : Act → Prop
  | .poll _ choice | .poll_call _ choice => choice.exited = .ok true →
    ∀ child, engine.shared.running = some child → child ∉ engine.shared.alive
  | _ => True

/-- A `status` call that asks a live sidecar gets an answer, not an error. -/
def StatusAnswered (engine : GenerationEngine) : Act → Prop
  | .poll_call j choice => engine.calls[j]? = some .status_locking → choice.lock = true →
    engine.shared.owner = none → ∀ child, engine.shared.running = some child →
    child ∈ engine.shared.alive → ∀ e, choice.exited ≠ .error e
  | _ => True

/-- After the act the live sidecar is still in `lifecycle.running`, and alive
    unless it exited by itself; or a shutdown call has taken it. -/
def Spared (engine : GenerationEngine) (act : Act) (engine' : GenerationEngine) : Prop :=
  ∀ child, engine.shared.running = some child → child ∈ engine.shared.alive →
    (∃ j choice, act = .poll_call j choice ∧ engine.calls[j]? = some .shutdown_locking) ∨
    engine'.shared.running = some child ∧ (child ∈ engine'.shared.alive ∨ act = .exit child)

/-- While a sidecar is in `lifecycle.running`, the lock has no owner. -/
theorem Inv.free (h : Inv engine) (hrunning : engine.shared.running = some child) :
    engine.shared.owner = none := by
  by_contra howner
  have hhand : engine.custody.hand ≠ none := by simpa [custody] using howner
  have hplace : engine.shared.running = none := h.owned.exclusive hhand
  rw [hrunning] at hplace
  cases hplace

/-- While a child stands in its place, no task has the lock. -/
theorem Inv.task_without_lock (h : Inv engine) (hrunning : engine.shared.running = some child)
    {i : Nat} {task : Task} (hi : engine.tasks[i]? = some task) : task.phase.locked = false := by
  by_contra hlocked
  have howner := (owner_of_locked h.locked hi (by simpa using hlocked)).1
  rw [h.free hrunning] at howner
  cases howner

/-- While a child stands in its place, no call has one. -/
theorem Inv.call_without_child (h : Inv engine) (hrunning : engine.shared.running = some child)
    {j : Nat} {call : Call} (hj : engine.calls[j]? = some call) : call.child = none := by
  by_contra hchild
  have howner := (h.locked (.call j)).1 (by
    rw [holds_call hj]
    exact Option.isSome_iff_ne_none.2 hchild)
  rw [h.free hrunning] at howner
  cases howner

/-- A call that has no child, does not hear that the sidecar has exited and
    gets no error from it leaves the sidecar alone, unless it shuts down. -/
theorem poll_call_shared {shared : Shared} {j : Nat} {choice : Choice} {call : Call}
    (hchild : call.child = none) (hshutdown : call ≠ .shutdown_locking)
    (hrunning : shared.running = some child)
    (hexited : call = .status_locking → choice.lock = true → shared.owner = none →
      choice.exited = .ok false) :
    (poll_call shared j choice call).1 = shared := by
  cases call with
  | status_locking =>
    rw [poll_call]
    split
    · next hgranted =>
      rw [Bool.and_eq_true, Option.isNone_iff_eq_none] at hgranted
      simp [hrunning, hexited rfl hgranted.1 hgranted.2]
    · rfl
  | shutdown_locking => exact absurd rfl hshutdown
  | shutdown_terminating child => cases hchild
  | _ => rfl

theorem abandon_shared {shared : Shared} {call : Call} (hchild : call.child = none) :
    (abandon shared call).1 = shared := by
  cases call with
  | shutdown_terminating child => cases hchild
  | _ => rfl

/-- One act spares a live sidecar. -/
theorem spared_step (from_slice : Bytes → Option Value) (h : Inv engine) {act : Act}
    (hquery : Truthful engine act) (hstatus : StatusAnswered engine act) :
    Spared engine act (engine.step from_slice act) := by
  intro child hrunning halive
  have hself : engine.shared.running = some child ∧
      (child ∈ engine.shared.alive ∨ act = .exit child) := ⟨hrunning, .inl halive⟩
  cases act with
  | generate request =>
    refine .inr ?_
    rw [step]
    unfold generate
    repeat' split
    all_goals exact hself
  | poll i choice =>
    refine .inr ?_
    rw [step, with_task]
    split
    · exact hself
    · next task hi =>
      -- The child is alive, so `try_wait` does not say that it has exited.
      have hexited : choice.exited ≠ .ok true := fun htrue => hquery htrue child hrunning halive
      obtain ⟨admitted, execution, hshared⟩ :=
        Task.same_poll from_slice i (h.task_without_lock hrunning hi) hrunning hexited
      dsimp only
      rw [hshared]
      exact hself
  | signal i signal =>
    refine .inr ?_
    rw [step, with_task]
    split
    · exact hself
    · exact hself
  | status => exact .inr hself
  | shutdown => exact .inr hself
  | poll_call j choice =>
    rw [step, with_call]
    split
    · exact .inr hself
    · next call hj =>
      -- Only a shutdown takes the child.
      by_cases hshutdown : call = .shutdown_locking
      · exact .inl ⟨j, choice, rfl, hshutdown ▸ hj⟩
      · refine .inr ?_
        have hshared : (poll_call engine.shared j choice call).1 = engine.shared := by
          refine poll_call_shared (h.call_without_child hrunning hj) hshutdown hrunning ?_
          rintro rfl hlock hfree
          cases hexited : choice.exited with
          | error e => exact absurd hexited (hstatus hj hlock hfree child hrunning halive e)
          | ok exited =>
            cases exited with
            | false => rfl
            | true => exact absurd halive (hquery hexited child hrunning)
        dsimp only
        rw [hshared]
        exact hself
  | abandon j =>
    refine .inr ?_
    rw [step, with_call]
    split
    · exact hself
    · next call hj =>
      dsimp only
      rw [abandon_shared (h.call_without_child hrunning hj)]
      exact hself
  | exit other =>
    refine .inr ⟨hrunning, ?_⟩
    by_cases hother : other = child
    · exact .inr (by rw [hother])
    · exact .inl (by simp [step, Shared.drop_child, halive, Ne.symm hother])

/-- An act that spares a live sidecar is not a `status` call that gets an error
    about it. -/
theorem answered_of_spared (from_slice : Bytes → Option Value) {act : Act}
    (h : Spared engine act (engine.step from_slice act)) : StatusAnswered engine act := by
  cases act with
  | poll_call j choice =>
    intro hj hlock hfree child hrunning halive e hexited
    obtain ⟨j', choice', hact, hj'⟩ | ⟨hrunning', -⟩ := h child hrunning halive
    · cases hact
      rw [hj] at hj'
      cases hj'
    · -- the sidecar is dropped
      have hstep : (engine.step from_slice (.poll_call j choice)).shared =
          engine.shared.clear_running := by
        rw [step, with_call, hj]
        simp [poll_call, hlock, hfree, hexited]
      rw [hstep, (clear_running_frame engine.shared).2.2.2] at hrunning'
      cases hrunning'
  | _ => trivial

/-- In the runs in which no `status` call gets an error about a live sidecar,
    and in no others, only a shutdown call takes one out of
    `lifecycle.running`. -/
theorem live_child_spared_iff (from_slice : Bytes → Option Value) {config : EngineConfig}
    {attempt : Nat} (hstart : start config attempt = .ok engine) {acts : List Act}
    (hquery : Along (step from_slice) Truthful engine acts) :
    Along (step from_slice) (fun s act => Spared s act (s.step from_slice act)) engine acts ↔
      Along (step from_slice) StatusAnswered engine acts := by
  have hinv : ∀ (s : GenerationEngine) act, Inv s → Inv (s.step from_slice act) :=
    fun _ act h => inv_step from_slice h act
  constructor
  · intro hspared
    exact hspared.imp hinv (fun _ _ _ h => answered_of_spared from_slice h) (inv_start hstart)
  · intro hstatus
    exact (hquery.and hstatus).imp hinv (fun _ _ h hC => spared_step from_slice h hC.1 hC.2)
      (inv_start hstart)

/-! ## A status call -/

/-- A configuration with room for five generations. -/
def small_config : EngineConfig where
  max_prompt_bytes := 8192
  max_messages := 16
  max_output_tokens := 64
  queue_capacity := 4
  max_concurrent := 1
  event_capacity := 8
  startup_timeout := .from_secs 1
  shutdown_timeout := .from_secs 1

/-- An engine with its sidecar running. -/
def small_engine : GenerationEngine where
  config := small_config
  shared := { admitted := 5, execution := 1, running := some 0, launched := 1, alive := [0] }

/-- The small engine is what the start makes. -/
theorem start_small : start small_config 0 = .ok small_engine :=
  start_of_fits 0 rfl rfl (by decide)

/-- A call of `status`, with the answer to its question. -/
def ask_status (exited : Except EngineError Bool) : List Act :=
  [.status, .poll_call 0
    { permit := false, lock := true, exited, prepared := .ok (), launch := none, probe := none
      elapsed := false, late := false, terminated := false, remaining := none, response := none
      next := none }]

theorem truthful_ask_status {exited : Except EngineError Bool} (h : exited ≠ .ok true) :
    Along (step fun _ => none) Truthful small_engine (ask_status exited) :=
  ⟨trivial, fun htrue => absurd htrue h, trivial⟩

theorem live_child_spared_iff_small :
    Along (step fun _ => none) (fun s act => Spared s act (s.step (fun _ => none) act)) small_engine
        (ask_status (.ok false)) ↔
      Along (step fun _ => none) StatusAnswered small_engine (ask_status (.ok false)) :=
  live_child_spared_iff (fun _ => none) start_small (truthful_ask_status (by decide))

/-- A `status` call that gets an error kills the sidecar. -/
theorem status_error_kills :
    start small_config 0 = .ok small_engine ∧
    Along (step fun _ => none) Truthful small_engine (ask_status (.error .RuntimeUnavailable)) ∧
    (run (step fun _ => none) small_engine (ask_status (.error .RuntimeUnavailable))).shared.alive =
      [] ∧
    ¬ Along (step fun _ => none) (fun s act => Spared s act (s.step (fun _ => none) act))
      small_engine (ask_status (.error .RuntimeUnavailable)) := by
  refine ⟨start_small, truthful_ask_status (by decide), rfl, ?_⟩
  rintro ⟨-, hspared, -⟩
  obtain ⟨j, choice, hact, hj⟩ | ⟨hrunning, -⟩ := hspared 0 rfl List.mem_cons_self
  · cases hact
    cases hj
  · cases hrunning

end GenerationEngine

end Inferences.Engine
