import Inferences.Engine.Fencing

/-!
# A stopped generation lets go

Once a generation is stopped, by its caller, its deadline, its consumer or the
shutdown of the engine, two of its own polls are enough for it to give back its
permits, the lifecycle lock and the child it was launching (`stop_releases`),
whatever the sidecar, the network and the other tasks do. The first may have to
leave the health check; the second fails the generation. What is left is its
error, which waits for room in the channel with nothing in hand.
-/

namespace Inferences.Engine

open Json Schedule

/-- The polls of a stopped task up to its failure. -/
def Phase.polls_left : Phase → Nat
  | failing _ | ended => 0
  | probing .. | napping .. => 2
  | _ => 1

/-- Two polls are enough. -/
theorem Phase.polls_left_le (phase : Phase) : phase.polls_left ≤ 2 := by
  cases phase <;> simp [Phase.polls_left]

/-- A poll of the task `i`. -/
def Act.polls (i : Nat) : Act → Bool
  | .poll j _ => j == i
  | _ => false

/-- A generation that holds nothing: no permit, no lock and no child. -/
structure Released (task : Task) : Prop where
  admitted : task.phase.admitted = false
  executing : task.phase.executing = false
  locked : task.phase.locked = false
  child : task.phase.child = none

/-- With no poll left, all is released. -/
theorem released_of_polls_left {task : Task} (h : task.phase.polls_left = 0) : Released task := by
  cases hphase : task.phase with
  | failing e => exact ⟨by rw [hphase]; rfl, by rw [hphase]; rfl, by rw [hphase]; rfl,
      by rw [hphase]; rfl⟩
  | ended => exact ⟨by rw [hphase]; rfl, by rw [hphase]; rfl, by rw [hphase]; rfl,
      by rw [hphase]; rfl⟩
  | _ => simp [hphase, Phase.polls_left] at h

variable {from_slice : Bytes → Option Value} {task : Task} {shared : Shared} {i : Nat}

/-- Each poll of a stopped task takes it closer to its failure. -/
theorem polls_left_poll (hstop : task.stopped shared ≠ none) (i : Nat) (choice : Choice) :
    (task.poll from_slice i shared choice).2.phase.polls_left ≤ task.phase.polls_left - 1 := by
  obtain ⟨e, he⟩ := Option.ne_none_iff_exists'.1 hstop
  rw [Task.poll]
  cases hphase : task.phase with
  | failing e' =>
    dsimp only
    unfold Task.send_error
    split
    · exact le_rfl
    split
    · rw [hphase]
      exact le_rfl
    · exact le_rfl
  | ended =>
    dsimp only
    rw [hphase]
    exact le_rfl
  | _ =>
    rw [he]
    exact le_rfl

namespace GenerationEngine

variable {engine : GenerationEngine}

/-- How many polls the task `i` is from its failure, once it is stopped. -/
def polls_left (i : Nat) (engine : GenerationEngine) : Nat :=
  (engine.tasks[i]?).elim 0 fun task => task.phase.polls_left

/-- The generation `i` was asked for, and is stopped. -/
def StoppedAt (i : Nat) (engine : GenerationEngine) : Prop :=
  ∃ before, FencedAt i before engine

theorem stoppedAt_of_stopped (hi : engine.tasks[i]? = some task)
    (hstop : task.stopped engine.shared ≠ none) : StoppedAt i engine :=
  ⟨task.put, task, hi, hstop, .inl rfl⟩

/-- A task that is stopped stays stopped. -/
theorem StoppedAt.step (h : StoppedAt i engine) (from_slice : Bytes → Option Value) (act : Act) :
    StoppedAt i (engine.step from_slice act) :=
  h.imp fun _ hfenced => fencedAt_step from_slice hfenced act

/-- A step of the task `j` that takes it, if it is the task `i`, no further from
    its failure. -/
theorem polls_left_with_task {j : Nat} {step : Task → Shared × Task} {bound : Nat}
    (hother : j ≠ i → engine.polls_left i ≤ bound)
    (hself : ∀ task, engine.tasks[i]? = some task → (step task).2.phase.polls_left ≤ bound)
    (hi : i < engine.tasks.length) : (engine.with_task j step).polls_left i ≤ bound := by
  have hhere := List.getElem?_eq_getElem hi
  unfold with_task polls_left
  by_cases hij : j = i
  · subst hij
    rw [hhere]
    dsimp only
    rw [List.getElem?_set_self hi]
    exact hself _ hhere
  · split
    · exact hother hij
    · dsimp only
      rw [List.getElem?_set_ne hij]
      exact hother hij

theorem polls_left_with_call (j : Nat) (step : Call → Shared × Call) :
    (engine.with_call j step).polls_left i = engine.polls_left i := by
  unfold with_call
  split <;> rfl

theorem StoppedAt.here (h : StoppedAt i engine) : i < engine.tasks.length := by
  obtain ⟨_, _, hi, -⟩ := h
  exact (List.getElem?_eq_some_iff.1 hi).1

theorem StoppedAt.stopped (h : StoppedAt i engine) (hi : engine.tasks[i]? = some task) :
    task.stopped engine.shared ≠ none := by
  obtain ⟨_, task', hi', hstop, -⟩ := h
  obtain rfl := Option.some.inj (hi'.symm.trans hi)
  exact hstop

/-- A poll of its own is one less. -/
theorem StoppedAt.polls_left_poll (h : StoppedAt i engine) (choice : Choice) :
    (engine.step from_slice (.poll i choice)).polls_left i ≤ engine.polls_left i - 1 := by
  refine polls_left_with_task (fun hne => absurd rfl hne) (fun task hi => ?_) h.here
  rw [polls_left, hi]
  exact Engine.polls_left_poll (h.stopped hi) i choice

/-- No other act adds a poll. -/
theorem StoppedAt.polls_left_le (h : StoppedAt i engine) (from_slice : Bytes → Option Value)
    (act : Act) : (engine.step from_slice act).polls_left i ≤ engine.polls_left i := by
  cases act with
  | generate request =>
    have hhere := List.getElem?_eq_getElem h.here
    rw [GenerationEngine.step, polls_left, getElem?_generate request hhere, polls_left, hhere]
  | poll j choice =>
    refine polls_left_with_task (fun _ => le_rfl) (fun task hi => ?_) h.here
    rw [polls_left, hi]
    exact (Engine.polls_left_poll (h.stopped hi) j choice).trans (Nat.sub_le _ _)
  | signal j signal =>
    refine polls_left_with_task (fun _ => le_rfl) (fun task hi => ?_) h.here
    rw [polls_left, hi]
    exact (congrArg _ (signal_phase task signal)).le
  | status => exact le_rfl
  | shutdown => exact le_rfl
  | poll_call j choice => exact (polls_left_with_call j _).le
  | abandon j => exact (polls_left_with_call j _).le
  | exit child => exact le_rfl

/-- A generation that is stopped holds nothing after two more of its own polls,
    whatever happens between them. -/
theorem stop_releases (from_slice : Bytes → Option Value) (engine : GenerationEngine)
    (acts later : List Act) (i : Nat) (task : Task)
    (hi : (run (step from_slice) engine acts).tasks[i]? = some task)
    (hstop : task.stopped (run (step from_slice) engine acts).shared ≠ none)
    (hpolls : 2 ≤ later.countP (Act.polls i)) :
    ∃ task', (run (step from_slice) engine (acts ++ later)).tasks[i]? = some task' ∧
      Released task' := by
  have hstep : ∀ (engine : GenerationEngine) (act : Act), StoppedAt i engine →
      StoppedAt i (engine.step from_slice act) := fun _ act h => h.step from_slice act
  have hle : ∀ (engine : GenerationEngine) (act : Act), StoppedAt i engine →
      (engine.step from_slice act).polls_left i ≤ engine.polls_left i :=
    fun _ act h => h.polls_left_le from_slice act
  have hlt : ∀ (engine : GenerationEngine) (act : Act), StoppedAt i engine →
      act.polls i = true → (engine.step from_slice act).polls_left i ≤ engine.polls_left i - 1 := by
    intro engine act h hact
    cases act with
    | poll j choice => exact eq_of_beq hact ▸ h.polls_left_poll choice
    | _ => cases hact
  have hstopped := stoppedAt_of_stopped hi hstop
  have hcount := countdown hstep hle hlt hstopped later
  obtain ⟨_, task', hi', -⟩ := invariant hstep hstopped later
  have hstart : (run (step from_slice) engine acts).polls_left i ≤ 2 := by
    rw [polls_left, hi]
    exact task.phase.polls_left_le
  rw [polls_left, hi'] at hcount
  refine ⟨task', by rw [run_append, hi'], released_of_polls_left ?_⟩
  have hsum := Nat.sub_le_sub_left hpolls ((run (step from_slice) engine acts).polls_left i)
  exact Nat.le_zero.1 (hcount.trans (by omega))

/-- A generation that is cancelled during the health check of a sidecar it has
    launched. -/
theorem stop_releases_probing :
    let engine : GenerationEngine :=
      { config := { max_prompt_bytes := 8192, max_messages := 16, max_output_tokens := 64
                    queue_capacity := 1, max_concurrent := 1, event_capacity := 8
                    startup_timeout := .from_secs 1, shutdown_timeout := .from_secs 1 }
        shared := { admitted := 2, execution := 1 } }
    let choice : Choice :=
      { permit := true, lock := true, exited := .ok false, prepared := .ok ()
        launch := some (.ok ()), probe := none, elapsed := false, late := false
        terminated := false, remaining := none, response := none, next := none }
    let acts := .generate (.ok ⟨.Completion "", 1, 0, 1, none, []⟩) ::
      List.replicate 3 (.poll 0 choice) ++ [.signal 0 .cancel]
    ∃ task', (run (step fun _ => none) engine
        (acts ++ [.poll 0 choice, .poll 0 choice])).tasks[0]? = some task' ∧ Released task' := by
  intro engine choice acts
  exact stop_releases (fun _ => none) engine acts [.poll 0 choice, .poll 0 choice] 0 _ rfl
    (stopped_iff.2 (.inl rfl)) (by decide)

end GenerationEngine

end Inferences.Engine
