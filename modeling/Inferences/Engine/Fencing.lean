import Inferences.Engine.Delivery
import Inferences.Engine.Sidecar

/-!
# Stops

A stop goes first at every place where a generation waits, also where it waits
for room in its channel. So once a generation is stopped (`Task.stopped`), no
poll puts an event into the channel any more: what is left to put is the one
error it ends with (`stop_fences`).
-/

namespace Inferences.Engine

open Json Schedule

variable {from_slice : Bytes → Option Value} {i : Nat} {shared shared' : Shared} {task task' : Task}

/-- After a stop, with `before` put into the channel at that time: nothing was
    put since then, or the error the task has ended with. -/
def Fenced (before : List Item) (task : Task) : Prop :=
  task.put = before ∨ task.phase = .ended ∧ ∃ e, task.put = before ++ [.error e]

/-! ## Stops are for good -/

/-- A task with at least the stop signals of another. -/
structure Signalled (task task' : Task) : Prop where
  cancelled : task.cancelled = true → task'.cancelled = true
  expired : task.expired = true → task'.expired = true
  disconnected : task.disconnected = true → task'.disconnected = true

/-- What stops a task: a cancel, a deadline, a client that is gone, the shutdown. -/
theorem stopped_iff : task.stopped shared ≠ none ↔
    task.cancelled = true ∨ task.expired = true ∨ task.disconnected = true ∨
      shared.shutdown = true := by
  unfold Task.stopped
  cases task.cancelled <;> cases task.expired <;> cases task.disconnected <;>
    cases shared.shutdown <;> simp

/-- A task that is stopped stays stopped. -/
theorem stopped_mono (hsignals : Signalled task task')
    (hshutdown : shared.shutdown = true → shared'.shutdown = true)
    (h : task.stopped shared ≠ none) : task'.stopped shared' ≠ none := by
  rw [stopped_iff] at h ⊢
  exact h.imp hsignals.cancelled (.imp hsignals.expired (.imp hsignals.disconnected hshutdown))

/-- A poll takes no signal back. -/
theorem signalled_polled {r : Shared × Task} (h : Task.Polled from_slice i shared task r) :
    Signalled task r.2 := by
  obtain ⟨phase, channel, hkept⟩ := h.kept
  rw [hkept]
  exact ⟨id, id, id⟩

/-- Nor does a signal. -/
theorem signalled_signal (task : Task) (signal : Signal) : Signalled task (task.signal signal) := by
  cases signal with
  | cancel => exact ⟨fun _ => rfl, id, id⟩
  | expire => exact ⟨id, fun _ => rfl, id⟩
  | disconnect => exact ⟨id, id, fun _ => rfl⟩
  | close =>
    rw [Task.signal]
    split <;> exact ⟨id, id, id⟩
  | recv =>
    rw [Task.signal]
    split
    · exact ⟨id, id, id⟩
    · split <;> exact ⟨id, id, id⟩

theorem shutdown_leave (task : Task) (shared : Shared) :
    (task.leave shared).shutdown = shared.shutdown := by
  unfold Task.leave
  cases task.phase <;> rfl

theorem shutdown_clear_running (shared : Shared) :
    shared.clear_running.shutdown = shared.shutdown :=
  (GenerationEngine.clear_running_frame shared).2.1

theorem shutdown_proceed (shared : Shared) (after : After) (events : List GenerationEvent) :
    (task.proceed shared after events).1.shutdown = shared.shutdown := by
  cases events with
  | cons => rfl
  | nil =>
    cases after with
    | read => rfl
    | fail e => exact shutdown_leave task shared
    | succeed => exact shutdown_leave task shared

theorem shutdown_consume (shared : Shared) (progress : Progress) (buffer : Bytes)
    (value : Option (Except Unit Bytes)) :
    (task.consume from_slice shared progress buffer value).1.shutdown = shared.shutdown := by
  unfold Task.consume Task.finish
  split
  · exact shutdown_proceed ..
  · exact shutdown_leave task shared
  · split
    · exact shutdown_proceed ..
    · split <;> exact shutdown_proceed ..

/-- No poll of a task takes the shutdown back. -/
theorem shutdown_polled {r : Shared × Task} (h : Task.Polled from_slice i shared task r) :
    r.1.shutdown = shared.shutdown := by
  cases h with
  | fail e => exact shutdown_leave task shared
  | fail_clear e => exact (shutdown_leave task _).trans (shutdown_clear_running shared)
  | begin_launch => exact shutdown_clear_running shared
  | consume progress buffer value => exact shutdown_consume ..
  | send event events after => exact shutdown_proceed ..
  | _ => rfl

/-- A call does not take the shutdown back. -/
theorem shutdown_poll_call (shared : Shared) (j : Nat) (choice : Choice) (call : Call) :
    (GenerationEngine.poll_call shared j choice call).1.shutdown = shared.shutdown := by
  cases call with
  | status_locking =>
    have hstatus (ready : Bool) :
        (if ready then shared else shared.clear_running).shutdown = shared.shutdown := by
      cases ready
      · exact shutdown_clear_running shared
      · rfl
    rw [GenerationEngine.poll_call]
    split
    · exact hstatus _
    · rfl
  | shutdown_locking =>
    rw [GenerationEngine.poll_call]
    split
    · split <;> rfl
    · rfl
  | shutdown_terminating child =>
    rw [GenerationEngine.poll_call]
    split <;> rfl
  | _ => rfl

/-! ## One poll -/

/-- What is put in the channel is put by a move of its own. -/
theorem put_proceed (shared : Shared) (after : After) (events : List GenerationEvent) :
    (task.proceed shared after events).2.put = task.put := by
  cases events with
  | cons => rfl
  | nil => cases after <;> rfl

theorem put_consume (shared : Shared) (progress : Progress) (buffer : Bytes)
    (value : Option (Except Unit Bytes)) :
    (task.consume from_slice shared progress buffer value).2.put = task.put := by
  unfold Task.consume Task.finish
  split
  · exact put_proceed ..
  · rfl
  · split
    · exact put_proceed ..
    · split <;> exact put_proceed ..

/-- A poll of a stopped task puts nothing, or ends it with an error. -/
theorem fenced_polled {r : Shared × Task} (hstop : task.stopped shared ≠ none)
    (h : Task.Polled from_slice i shared task r) : Fenced task.put r.2 := by
  cases h with
  | consume progress buffer value => exact .inl (put_consume ..)
  | send event events after hphase hnone => exact absurd hnone hstop
  | report e hphase =>
    refine .inr ⟨rfl, e, ?_⟩
    simp [Task.put]
  | _ => exact .inl rfl

/-- A signal puts nothing; it may move what was put to its consumer. -/
theorem put_signal (task : Task) (signal : Signal) : (task.signal signal).put = task.put := by
  cases signal with
  | recv =>
    unfold Task.signal
    dsimp only
    split
    · rfl
    · split
      · rename_i item channel hchannel
        simp [Task.put, hchannel]
      · rfl
      · rfl
  | close =>
    rw [Task.signal]
    split <;> rfl
  | _ => rfl

/-- A task that is stopped sends nothing more but one error. -/
theorem Fenced.poll {before : List Item} {r : Shared × Task} (h : Fenced before task)
    (hstop : task.stopped shared ≠ none) (hpolled : Task.Polled from_slice i shared task r) :
    Fenced before r.2 := by
  rcases h with rfl | ⟨hended, hput⟩
  · exact fenced_polled hstop hpolled
  · rw [hpolled.of_ended hended]
    exact .inr ⟨hended, hput⟩

/-- A signal sends nothing. -/
theorem Fenced.signal {before : List Item} (h : Fenced before task) (signal : Signal) :
    Fenced before (task.signal signal) := by
  unfold Fenced
  rw [put_signal, GenerationEngine.signal_phase]
  exact h

/-! ## Whole runs -/

namespace GenerationEngine

variable {engine : GenerationEngine}

/-- The task `i` is stopped, and fenced since it had put `before`. -/
def FencedAt (i : Nat) (before : List Item) (engine : GenerationEngine) : Prop :=
  ∃ task, engine.tasks[i]? = some task ∧ task.stopped engine.shared ≠ none ∧ Fenced before task

/-- A new generation leaves the others where they are. -/
theorem getElem?_generate (request : Except EngineError NormalizedRequest)
    (hi : engine.tasks[i]? = some task) :
    (engine.generate request).1.tasks[i]? = some task := by
  unfold generate
  split
  · exact hi
  split
  · exact hi
  split
  · exact hi
  · exact List.getElem?_append_left (List.getElem?_eq_some_iff.1 hi).1 |>.trans hi

theorem shutdown_generate (request : Except EngineError NormalizedRequest)
    (h : engine.shared.shutdown = true) : (engine.generate request).1.shared.shutdown = true := by
  unfold generate
  rw [if_pos h]
  exact h

/-- A step of a task: the task `i` is the one that steps, or as it was. -/
theorem fencedAt_with_task {before : List Item} {j : Nat} {step : Task → Shared × Task}
    (h : FencedAt i before engine)
    (hshutdown : ∀ task, engine.shared.shutdown = true → (step task).1.shutdown = true)
    (hsignals : ∀ task, Signalled task (step task).2)
    (hstep : ∀ task, task.stopped engine.shared ≠ none → Fenced before task →
      Fenced before (step task).2) :
    FencedAt i before (engine.with_task j step) := by
  obtain ⟨task, hi, hstop, hfenced⟩ := h
  unfold with_task
  split
  · exact ⟨task, hi, hstop, hfenced⟩
  · rename_i other hj
    by_cases hij : j = i
    · subst hij
      obtain rfl := Option.some.inj (hj.symm.trans hi)
      refine ⟨(step other).2, ?_, stopped_mono (hsignals other) (hshutdown other) hstop,
        hstep other hstop hfenced⟩
      exact List.getElem?_set_self (List.getElem?_eq_some_iff.1 hi).1
    · refine ⟨task, ?_, stopped_mono ⟨id, id, id⟩ (hshutdown other) hstop, hfenced⟩
      exact (List.getElem?_set_ne hij).trans hi

/-- A step of a call: the tasks are as they were. -/
theorem fencedAt_with_call {before : List Item} {j : Nat} {step : Call → Shared × Call}
    (h : FencedAt i before engine)
    (hshutdown : ∀ call, engine.shared.shutdown = true → (step call).1.shutdown = true) :
    FencedAt i before (engine.with_call j step) := by
  obtain ⟨task, hi, hstop, hfenced⟩ := h
  unfold with_call
  split
  · exact ⟨task, hi, hstop, hfenced⟩
  · rename_i call hj
    exact ⟨task, hi, stopped_mono ⟨id, id, id⟩ (hshutdown call) hstop, hfenced⟩

/-- No act sends anything for a task that is stopped, but one error. -/
theorem fencedAt_step (from_slice : Bytes → Option Value) {before : List Item}
    (h : FencedAt i before engine) (act : Act) :
    FencedAt i before (engine.step from_slice act) := by
  cases act with
  | generate request =>
    obtain ⟨task, hi, hstop, hfenced⟩ := h
    refine ⟨task, getElem?_generate request hi, ?_, hfenced⟩
    refine stopped_mono ⟨id, id, id⟩ (fun hshutdown => ?_) hstop
    exact shutdown_generate request hshutdown
  | poll j choice =>
    have hpolled (task : Task) : Task.Polled from_slice j engine.shared task
        (task.poll from_slice j engine.shared choice) := Task.poll_polled ..
    exact fencedAt_with_task h (fun task => (shutdown_polled (hpolled task)).trans)
      (fun task => signalled_polled (hpolled task))
      fun task hstop hfenced => hfenced.poll hstop (hpolled task)
  | signal j signal =>
    exact fencedAt_with_task h (fun _ => id) (fun task => signalled_signal task signal)
      fun task _ hfenced => hfenced.signal signal
  | status => exact h
  | shutdown =>
    obtain ⟨task, hi, hstop, hfenced⟩ := h
    exact ⟨task, hi, stopped_mono ⟨id, id, id⟩ (fun _ => rfl) hstop, hfenced⟩
  | poll_call j choice =>
    exact fencedAt_with_call h fun call => (shutdown_poll_call engine.shared j choice call).trans
  | abandon j => exact fencedAt_with_call h fun call => by cases call <;> exact id
  | exit child =>
    obtain ⟨task, hi, hstop, hfenced⟩ := h
    exact ⟨task, hi, stopped_mono ⟨id, id, id⟩ id hstop, hfenced⟩

/-- Once a generation is stopped, by its caller, its deadline, its consumer or
    the shutdown of the engine, nothing is put into its channel but one error,
    with which the stream closes. -/
theorem stop_fences (from_slice : Bytes → Option Value) (engine : GenerationEngine)
    (acts later : List Act) (i : Nat) {task : Task}
    (hi : (run (step from_slice) engine acts).tasks[i]? = some task)
    (hstop : task.stopped (run (step from_slice) engine acts).shared ≠ none) :
    ∃ task', (run (step from_slice) engine (acts ++ later)).tasks[i]? = some task' ∧
      Fenced task.put task' := by
  have hstep : ∀ (s : GenerationEngine) act, FencedAt i task.put s →
      FencedAt i task.put (s.step from_slice act) := fun _ act h => fencedAt_step from_slice h act
  obtain ⟨task', hi', -, hfenced⟩ := invariant hstep ⟨task, hi, hstop, .inl rfl⟩ later
  exact ⟨task', by rw [run_append, hi'], hfenced⟩

/-- A generation that is stopped before its first poll, and polled twice. -/
theorem stop_fences_cancelled :
    let engine : GenerationEngine :=
      { config := { max_prompt_bytes := 8192, max_messages := 16, max_output_tokens := 64
                    queue_capacity := 1, max_concurrent := 1, event_capacity := 8
                    startup_timeout := .from_secs 1, shutdown_timeout := .from_secs 1 }
        shared := { admitted := 2, execution := 1 } }
    let choice : Choice :=
      { permit := true, lock := true, exited := .ok false, prepared := .ok (), launch := none
        probe := none, elapsed := false, late := false, terminated := true, remaining := none
        response := none, next := none }
    let stopped := [.generate (.ok ⟨.Completion "", 1, 0, 1, none, []⟩), .signal 0 .cancel]
    ∃ task', (run (step fun _ => none) engine
        (stopped ++ [.poll 0 choice, .poll 0 choice])).tasks[0]? = some task' ∧
          Fenced [] task' := by
  intro engine choice stopped
  exact stop_fences (fun _ => none) engine stopped [.poll 0 choice, .poll 0 choice] 0 rfl
    (stopped_iff.2 (.inl rfl))

end GenerationEngine

end Inferences.Engine
