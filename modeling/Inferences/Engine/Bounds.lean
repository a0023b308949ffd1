import Inferences.Engine.Release
import Inferences.Permits

/-!
# What generations can use up

A generation that finds no sidecar launches one, up to three times
(`LAUNCH_ATTEMPTS`). Whatever the sidecars do, crash at once, never become
healthy or exit between two requests, an engine launches no more than three for
each generation it has admitted (`launches_bounded`). `status` calls and
shutdowns launch none.

Nor can a sidecar make a generation that waits for its next chunk hold more
than a line of its response, or a channel grow past its capacity
(`memory_bounded`).
-/

namespace Inferences.Engine

open Json Schedule Permits

/-! ## Launches -/

/-- The launches of a generation by the time it waits there, at most. -/
def Phase.launches : Phase → Nat
  | lane | locking => 0
  | backoff attempt | launching attempt => attempt
  | probing attempt _ | napping attempt _ | terminating attempt _ _ => attempt + 1
  | _ => LAUNCH_ATTEMPTS

/-- The attempt is one of those there are. -/
def Phase.Counted : Phase → Prop
  | backoff attempt | launching attempt | probing attempt _ | napping attempt _
  | terminating attempt _ _ => attempt < LAUNCH_ATTEMPTS
  | _ => True

/-- A task launches no more than the attempts it has. -/
theorem Phase.Counted.launches_le {phase : Phase} (h : phase.Counted) :
    phase.launches ≤ LAUNCH_ATTEMPTS := by
  cases phase with
  | backoff attempt => exact Nat.le_of_lt h
  | launching attempt => exact Nat.le_of_lt h
  | probing attempt child => exact h
  | napping attempt child => exact h
  | terminating attempt child readiness => exact h
  | lane => exact Nat.zero_le _
  | locking => exact Nat.zero_le _
  | _ => exact le_rfl

/-- A step of a task that had launched `spent` sidecars: it launches no more
    than its phase accounts for. -/
structure Spends (shared : Shared) (spent : Nat) (r : Shared × Task) : Prop where
  counted : r.2.phase.Counted
  launched : r.1.launched + spent ≤ shared.launched + r.2.phase.launches

variable {from_slice : Bytes → Option Value} {i : Nat} {shared shared' : Shared} {self : Task}
  {choice : Choice} {spent attempt : Nat} {child : Child}

theorem launched_drop_child (shared : Shared) (child : Child) :
    (shared.drop_child child).launched = shared.launched := rfl

theorem launched_clear_running (shared : Shared) :
    shared.clear_running.launched = shared.launched := by
  unfold Shared.clear_running
  split <;> rfl

theorem launched_leave (self : Task) (shared : Shared) :
    (self.leave shared).launched = shared.launched := by
  unfold Task.leave
  cases self.phase <;> rfl

/-- A step that launches nothing. -/
theorem spends_of_le {r : Shared × Task} (hcounted : r.2.phase.Counted)
    (hlaunched : r.1.launched = shared.launched) (hspent : spent ≤ r.2.phase.launches) :
    Spends shared spent r :=
  ⟨hcounted, hlaunched ▸ Nat.add_le_add_left hspent _⟩

/-- What is spent counts from the number of launches alone. -/
theorem Spends.congr {r : Shared × Task} (h : Spends shared' spent r)
    (hlaunched : shared'.launched = shared.launched) : Spends shared spent r :=
  ⟨h.counted, hlaunched ▸ h.launched⟩

theorem spends_fail (hspent : spent ≤ LAUNCH_ATTEMPTS) (e : EngineError) :
    Spends shared spent (self.fail shared e) :=
  spends_of_le trivial (launched_leave self shared) hspent

/-- An attempt launches one child at most. -/
theorem spends_start_attempt (hspent : spent ≤ attempt) (hattempt : attempt < LAUNCH_ATTEMPTS) :
    Spends shared spent (self.start_attempt i shared choice attempt) := by
  unfold Task.start_attempt
  split
  · exact spends_fail (hspent.trans (Nat.le_of_lt hattempt)) _
  · exact spends_of_le hattempt rfl hspent

/-- The next attempt is within the attempts. -/
theorem spends_next_attempt (hspent : spent ≤ attempt + 1) (hattempt : attempt < LAUNCH_ATTEMPTS) :
    Spends shared spent (self.next_attempt shared attempt) := by
  unfold Task.next_attempt
  split
  · rename_i hnext
    exact spends_of_le hnext rfl hspent
  · exact spends_fail (hspent.trans hattempt) _

theorem spends_check_child (hspent : spent ≤ attempt + 1) (hattempt : attempt < LAUNCH_ATTEMPTS) :
    Spends shared spent (self.check_child shared choice attempt child) := by
  unfold Task.check_child
  split <;> exact spends_of_le hattempt rfl hspent

/-- The first attempt is within the attempts. -/
theorem spends_ensure_running : Spends shared 0 (self.ensure_running i shared choice) := by
  unfold Task.ensure_running
  split
  · exact spends_start_attempt le_rfl (by decide)
  · split
    · exact spends_fail (Nat.zero_le _) _
    · exact spends_of_le trivial rfl (Nat.zero_le _)
    · exact (spends_start_attempt le_rfl (by decide)).congr (launched_clear_running shared)

theorem spends_launched (hattempt : attempt < LAUNCH_ATTEMPTS)
    (result : Except EngineError Unit) :
    Spends shared attempt (self.launched shared choice attempt result) := by
  cases result with
  | error e => exact spends_next_attempt (Nat.le_succ _) hattempt
  | ok answer =>
    -- the launch that the attempt accounts for
    have hcheck : Spends { shared with
          launched := shared.launched + 1, alive := shared.alive ++ [shared.launched] }
        (attempt + 1) (self.launched shared choice attempt (.ok answer)) :=
      spends_check_child le_rfl hattempt
    exact ⟨hcheck.counted, by have := hcheck.launched; dsimp only at this; omega⟩

theorem spends_probed (hattempt : attempt < LAUNCH_ATTEMPTS) (healthy : Bool) :
    Spends shared (attempt + 1) (self.probed shared choice attempt child healthy) := by
  cases healthy with
  | true => exact spends_of_le trivial rfl hattempt
  | false =>
    rw [Task.probed]
    split <;> exact spends_of_le hattempt rfl le_rfl

theorem spends_terminated (hattempt : attempt < LAUNCH_ATTEMPTS) (readiness : EngineError) :
    Spends shared (attempt + 1) (self.terminated shared attempt child readiness) := by
  unfold Task.terminated
  split
  · exact spends_fail hattempt _
  · exact spends_fail hattempt _
  · exact spends_fail hattempt _
  · exact (spends_next_attempt le_rfl hattempt).congr (launched_drop_child shared child)

/-- Where the sidecar was there, nothing more is launched. -/
theorem spends_done {r : Shared × Task} (hlaunched : r.1.launched = shared.launched)
    (hphase : r.2.phase.launches = LAUNCH_ATTEMPTS ∧ r.2.phase.Counted) :
    Spends shared LAUNCH_ATTEMPTS r :=
  spends_of_le hphase.2 hlaunched hphase.1.ge

/-- Once connected, nothing more is launched. -/
theorem spends_connection : Spends shared LAUNCH_ATTEMPTS (self.connection shared choice) := by
  unfold Task.connection
  split
  · exact spends_fail le_rfl _
  · split
    · exact spends_fail le_rfl _
    · exact (spends_fail le_rfl _).congr (launched_clear_running shared)
    · split
      · exact spends_fail le_rfl _
      · exact spends_fail le_rfl _
      · exact spends_done rfl ⟨rfl, trivial⟩

theorem spends_proceed (self : Task) (shared : Shared) (after : After)
    (events : List GenerationEvent) :
    Spends shared LAUNCH_ATTEMPTS (self.proceed shared after events) := by
  cases events with
  | cons event events => exact spends_done rfl ⟨rfl, trivial⟩
  | nil =>
    cases after with
    | read progress buffer => exact spends_done rfl ⟨rfl, trivial⟩
    | fail e => exact spends_fail le_rfl e
    | succeed => exact spends_done (launched_leave self shared) ⟨rfl, trivial⟩

theorem spends_consume (self : Task) (shared : Shared) (progress : Progress) (buffer : Bytes)
    (value : Option (Except Unit Bytes)) :
    Spends shared LAUNCH_ATTEMPTS (self.consume from_slice shared progress buffer value) := by
  unfold Task.consume Task.finish
  split
  · exact spends_proceed ..
  · exact spends_fail le_rfl _
  · split
    · exact spends_proceed ..
    · split <;> exact spends_proceed ..

/-- A wait that is over, or not. -/
theorem spends_advance {phase : Phase} (hphase : self.phase = phase) (hcounted : phase.Counted) :
    Spends shared phase.launches (self.advance from_slice i shared choice phase) := by
  have hwait : Spends shared phase.launches (shared, self) :=
    spends_of_le (hphase ▸ hcounted) rfl (hphase ▸ le_rfl)
  unfold Task.advance
  split
  · split
    · exact spends_of_le trivial rfl le_rfl
    · exact hwait
  · split
    · exact spends_ensure_running
    · exact hwait
  · split
    · exact spends_start_attempt le_rfl hcounted
    · exact hwait
  · split
    · exact spends_launched hcounted _
    · exact hwait
  · split
    · exact spends_terminated hcounted _
    · exact hwait
  · split
    · exact spends_connection
    · exact hwait
  · split
    · exact spends_done rfl ⟨rfl, trivial⟩
    · exact spends_fail le_rfl _
    · exact hwait
  · split
    · exact spends_consume ..
    · exact hwait
  · unfold Task.send_event
    split
    · exact spends_fail le_rfl _
    split
    · exact hwait
    · exact spends_proceed ..
  · exact hwait

/-- A poll keeps within the attempts of its task. -/
theorem spends_poll (from_slice : Bytes → Option Value) (i : Nat) (shared : Shared)
    (choice : Choice) (hcounted : self.phase.Counted) :
    Spends shared self.phase.launches (self.poll from_slice i shared choice) := by
  have hwait : Spends shared self.phase.launches (shared, self) := spends_of_le hcounted rfl le_rfl
  unfold Task.poll
  split
  · rename_i e hphase
    unfold Task.send_error
    rw [hphase]
    split
    · exact spends_done rfl ⟨rfl, trivial⟩
    split
    · exact hphase ▸ hwait
    · exact spends_done rfl ⟨rfl, trivial⟩
  · exact hwait
  · rename_i attempt child hphase
    rw [hphase] at hcounted ⊢
    split
    · exact spends_of_le hcounted rfl le_rfl
    · exact spends_probed hcounted _
    · exact hphase ▸ hwait
  · rename_i attempt child hphase
    rw [hphase] at hcounted ⊢
    split
    · exact spends_of_le hcounted rfl le_rfl
    · split
      · exact spends_check_child le_rfl hcounted
      · exact hphase ▸ hwait
  · split
    · exact spends_fail hcounted.launches_le _
    · exact spends_advance rfl hcounted

/-- What holds of the launches of an engine that had launched `base` sidecars. -/
structure Spent (base : Nat) (engine : GenerationEngine) : Prop where
  counted : ∀ task ∈ engine.tasks, task.phase.Counted
  launched : engine.shared.launched ≤ base + (engine.tasks.map (·.phase.launches)).sum

variable {base : Nat} {engine : GenerationEngine}

/-- A step of one task keeps the sum when it keeps its own count. -/
theorem spent_with_task (h : Spent base engine) (i : Nat) {step : Task → Shared × Task}
    (hstep : ∀ task, task.phase.Counted → Spends engine.shared task.phase.launches (step task)) :
    Spent base (engine.with_task i step) := by
  refine ⟨forall_with_task h.counted fun task hcounted => (hstep task hcounted).counted, ?_⟩
  unfold GenerationEngine.with_task
  split
  · exact h.launched
  · rename_i task hi
    have hspends := (hstep task (h.counted task (List.mem_of_getElem? hi))).launched
    have hsum := sum_map_set_add (fun task : Task => task.phase.launches) hi (b := (step task).2)
    have hlaunched := h.launched
    dsimp only
    omega

theorem spent_with_call (h : Spent base engine) (j : Nat) {step : Call → Shared × Call}
    (hstep : ∀ call, (step call).1.launched = engine.shared.launched) :
    Spent base (engine.with_call j step) := by
  unfold GenerationEngine.with_call
  split
  · exact h
  · exact ⟨h.counted, (hstep _).symm ▸ h.launched⟩

/-- A call launches nothing. -/
theorem launched_poll_call (shared : Shared) (j : Nat) (choice : Choice) (call : Call) :
    (GenerationEngine.poll_call shared j choice call).1.launched = shared.launched := by
  cases call with
  | status_locking =>
    have hstatus (ready : Bool) :
        (if ready then shared else shared.clear_running).launched = shared.launched := by
      cases ready
      · exact launched_clear_running shared
      · rfl
    rw [GenerationEngine.poll_call]
    split
    · exact hstatus _
    · rfl
  | shutdown_locking =>
    rw [GenerationEngine.poll_call]
    split
    · split <;> rfl
    · rfl
  | shutdown_terminating child =>
    rw [GenerationEngine.poll_call]
    split <;> rfl
  | _ => rfl

/-- Every act keeps the sum. -/
theorem spent_step (from_slice : Bytes → Option Value) (h : Spent base engine) (act : Act) :
    Spent base (engine.step from_slice act) := by
  cases act with
  | generate request =>
    unfold GenerationEngine.step GenerationEngine.generate
    dsimp only
    split
    · exact h
    split
    · exact h
    split
    · exact h
    refine ⟨fun task hmem => ?_, ?_⟩
    · rcases List.mem_append.1 hmem with hmem | hmem
      · exact h.counted task hmem
      · rw [List.mem_singleton.1 hmem]
        trivial
    · rw [List.map_append, List.sum_append]
      exact h.launched.trans (Nat.add_le_add_left (Nat.le_add_right _ _) _)
  | poll i choice =>
    exact spent_with_task h i fun task => spends_poll from_slice i engine.shared choice
  | signal i signal =>
    change Spent base (engine.with_task i fun task => (engine.shared, task.signal signal))
    refine spent_with_task h i fun task hcounted => ?_
    have hphase := GenerationEngine.signal_phase task signal
    exact spends_of_le (hphase ▸ hcounted) rfl (hphase ▸ le_rfl)
  | status => exact ⟨h.counted, h.launched⟩
  | shutdown => exact ⟨h.counted, h.launched⟩
  | poll_call j choice => exact spent_with_call h j (launched_poll_call engine.shared j choice)
  | abandon j => exact spent_with_call h j fun call => by cases call <;> rfl
  | exit child => exact ⟨h.counted, h.launched⟩

/-- An engine launches at most three sidecars for each generation it has
    admitted. -/
theorem launches_bounded (from_slice : Bytes → Option Value) (config : EngineConfig)
    (shared : Shared) (acts : List Act) :
    let engine := run (GenerationEngine.step from_slice) { config, shared } acts
    engine.shared.launched ≤ shared.launched + engine.tasks.length * LAUNCH_ATTEMPTS := by
  intro engine
  have hstep : ∀ (engine : GenerationEngine) (act : Act), Spent shared.launched engine →
      Spent shared.launched (engine.step from_slice act) :=
    fun _ act h => spent_step from_slice h act
  have hinit : Spent shared.launched { config, shared } := ⟨by simp, by simp⟩
  obtain ⟨hcounted, hlaunched⟩ := invariant hstep hinit acts
  have hsum : (engine.tasks.map (·.phase.launches)).sum ≤
      (engine.tasks.map (·.phase.launches)).length • LAUNCH_ATTEMPTS := by
    refine List.sum_le_card_nsmul _ _ fun n hn => ?_
    obtain ⟨task, hmem, rfl⟩ := List.mem_map.1 hn
    exact (hcounted task hmem).launches_le
  rw [List.length_map, smul_eq_mul] at hsum
  exact hlaunched.trans (Nat.add_le_add_left hsum _)

/-! ## Memory -/

/-- The bytes of the response that a task keeps for its next chunk. -/
def Phase.buffer : Phase → Bytes
  | reading _ buffer | sending _ _ (.read _ buffer) => buffer
  | _ => []

/-- What a task keeps of its response and of its events. -/
structure Bounded (config : EngineConfig) (task : Task) : Prop where
  capacity : task.event_capacity = config.event_capacity
  channel : task.channel.length ≤ task.event_capacity
  buffer : task.phase.buffer.length ≤ MAX_SSE_LINE_BYTES

/-- What is left of a line is no longer than what was there. -/
theorem pending_length_le (buffer : Bytes) : (Lines.pending LF buffer).length ≤ buffer.length := by
  induction buffer using Lines.induction_on_lines LF with
  | tail buffer h => rw [Lines.pending_of_notMem h]
  | line line rest hline ih =>
    rw [Lines.pending_line hline, List.length_append, List.length_cons]
    omega

/-- A chunk that is taken leaves no more than a line in the buffer. -/
theorem feed_buffer_le {request : NormalizedRequest} {progress next : Progress}
    {buffer chunk left : Bytes} {deltas : List String}
    (h : feed from_slice request progress buffer chunk = (deltas, .ok (next, left))) :
    left.length ≤ MAX_SSE_LINE_BYTES := by
  rw [feed] at h
  split at h
  · cases h
  · rename_i hfits
    rw [drain_eq] at h
    dsimp only at h
    rcases hlines : (consume_lines from_slice request progress
      (Lines.complete LF (buffer ++ chunk))).2 with e | last
    · rw [hlines] at h
      cases h
    · rw [hlines] at h
      cases h
      have hle := pending_length_le (buffer ++ chunk)
      rw [List.length_append] at hle
      omega

/-- The buffer of what comes after the events. -/
def After.buffer : After → Bytes
  | .read _ buffer => buffer
  | _ => []

/-- What is left in the buffer after a chunk is within the bound. -/
theorem proceed_buffer_le (self : Task) (shared : Shared) {after : After}
    (h : after.buffer.length ≤ MAX_SSE_LINE_BYTES) (events : List GenerationEvent) :
    (self.proceed shared after events).2.phase.buffer.length ≤ MAX_SSE_LINE_BYTES := by
  cases events with
  | nil =>
    cases after with
    | read progress buffer => exact h
    | _ => exact Nat.zero_le _
  | cons event events =>
    cases after with
    | read progress buffer => exact h
    | _ => exact Nat.zero_le _

theorem finish_buffer_le (self : Task) (shared : Shared) (deltas : List String)
    (progress : Progress) (buffer : Bytes) :
    (self.finish shared deltas progress buffer).2.phase.buffer.length ≤ MAX_SSE_LINE_BYTES := by
  rw [Task.finish]
  rcases conclude progress buffer with ⟨events, e | ⟨⟩⟩ <;>
    exact proceed_buffer_le self shared (Nat.zero_le _) _

/-- So it is after any reading. -/
theorem consume_buffer_le (from_slice : Bytes → Option Value) (self : Task) (shared : Shared)
    (progress : Progress) (buffer : Bytes) (value : Option (Except Unit Bytes)) :
    (self.consume from_slice shared progress buffer value).2.phase.buffer.length ≤
      MAX_SSE_LINE_BYTES := by
  unfold Task.consume
  split
  · exact finish_buffer_le ..
  · exact Nat.zero_le _
  · split
    · exact proceed_buffer_le self shared (Nat.zero_le _) _
    · rename_i hfeed
      split
      · exact finish_buffer_le ..
      · exact proceed_buffer_le self shared (feed_buffer_le hfeed) _

variable {config : EngineConfig} {task : Task}

/-- A move that sends nothing. -/
theorem Bounded.move (h : Bounded config task) {phase : Phase}
    (hbuffer : phase.buffer.length ≤ MAX_SSE_LINE_BYTES) :
    Bounded config { task with phase } := ⟨h.capacity, h.channel, hbuffer⟩

/-- A move that sends one item, where there is room. -/
theorem Bounded.push (h : Bounded config task) (hroom : task.full = false) {phase : Phase}
    (hbuffer : phase.buffer.length ≤ MAX_SSE_LINE_BYTES) (item : Item) :
    Bounded config { task with channel := task.channel ++ [item], phase } := by
  refine ⟨h.capacity, ?_, hbuffer⟩
  rw [Task.full, decide_eq_false_iff_not] at hroom
  rw [List.length_append, List.length_singleton]
  exact Nat.lt_of_not_le hroom

theorem Bounded.proceed (h : Bounded config task) {after : After}
    (hafter : after.buffer.length ≤ MAX_SSE_LINE_BYTES) (shared : Shared)
    (events : List GenerationEvent) : Bounded config (task.proceed shared after events).2 := by
  have hbuffer := proceed_buffer_le task shared hafter events
  cases events with
  | cons event events => exact h.move hbuffer
  | nil => cases after <;> exact h.move hbuffer

theorem Bounded.consume (h : Bounded config task) (shared : Shared) (progress : Progress)
    (buffer : Bytes) (value : Option (Except Unit Bytes)) :
    Bounded config (task.consume from_slice shared progress buffer value).2 := by
  have hbuffer := consume_buffer_le from_slice task shared progress buffer value
  have hchannel : (task.consume from_slice shared progress buffer value).2.channel =
      task.channel := by
    unfold Task.consume Task.finish
    have hproceed (after : After) (events : List GenerationEvent) :
        (task.proceed shared after events).2.channel = task.channel := by
      cases events <;> [skip; rfl]
      cases after <;> rfl
    split
    · exact hproceed ..
    · rfl
    · split
      · exact hproceed ..
      · split <;> exact hproceed ..
  obtain ⟨phase, channel, hkept⟩ :
      task.Kept (task.consume from_slice shared progress buffer value).2 :=
    Task.kept_consume task shared progress buffer value
  rw [hkept] at hbuffer hchannel ⊢
  exact ⟨h.capacity, hchannel ▸ h.channel, hbuffer⟩

theorem buffer_of_locked {phase : Phase} (h : phase.locked = true) : phase.buffer = [] := by
  cases phase <;> first | rfl | cases h

/-- A poll keeps within the bounds. -/
theorem bounded_poll (from_slice : Bytes → Option Value) (h : Bounded config task) (i : Nat)
    (shared : Shared) (choice : Choice) :
    Bounded config (task.poll from_slice i shared choice).2 := by
  by_cases hsending : ∃ event events after, task.phase = .sending event events after
  · -- where room in the channel counts
    obtain ⟨event, events, after, hphase⟩ := hsending
    have hafter : after.buffer.length ≤ MAX_SSE_LINE_BYTES := by
      have hbuffer := h.buffer
      rw [hphase] at hbuffer
      cases after with
      | read progress buffer => exact hbuffer
      | _ => exact Nat.zero_le _
    rw [Task.poll, hphase]
    dsimp only
    split
    · exact h.move (Nat.zero_le _)
    rw [Task.advance, Task.send_event]
    split
    · exact h.move (Nat.zero_le _)
    split
    · exact h
    · rename_i hroom
      exact (h.push (eq_false_of_ne_true hroom) h.buffer _).proceed hafter shared events
  by_cases hfailing : ∃ e, task.phase = .failing e
  · obtain ⟨e, hphase⟩ := hfailing
    rw [Task.poll, hphase]
    dsimp only
    unfold Task.send_error
    split
    · exact h.move (Nat.zero_le _)
    split
    · exact h
    · rename_i hroom
      exact h.push (eq_false_of_ne_true hroom) (Nat.zero_le _) _
  generalize hr : task.poll from_slice i shared choice = r
  have hpolled : Task.Polled from_slice i shared task r :=
    hr ▸ Task.poll_polled from_slice task i shared choice
  cases hpolled with
  | wait => exact h
  | launch attempt phase _ _ hlocked => exact h.move (buffer_of_locked hlocked ▸ Nat.zero_le _)
  | watch child phase _ hlocked => exact h.move (buffer_of_locked hlocked ▸ Nat.zero_le _)
  | consume progress buffer value => exact h.consume shared progress buffer value
  | send event events after hphase => exact absurd ⟨event, events, after, hphase⟩ hsending
  | report e hphase => exact absurd ⟨e, hphase⟩ hfailing
  | forget e hphase => exact absurd ⟨e, hphase⟩ hfailing
  | _ => exact h.move (Nat.zero_le _)

/-- So does a signal. -/
theorem bounded_signal (h : Bounded config task) (signal : Signal) :
    Bounded config (task.signal signal) := by
  cases signal with
  | close =>
    rw [Task.signal]
    split <;> exact ⟨h.capacity, h.channel, h.buffer⟩
  | recv =>
    unfold Task.signal
    dsimp only
    split
    · exact h
    · split
      · rename_i item channel hchannel
        have hroom := h.channel
        rw [hchannel, List.length_cons] at hroom
        exact ⟨h.capacity, Nat.le_of_succ_le hroom, h.buffer⟩
      · exact ⟨h.capacity, h.channel, h.buffer⟩
      · exact h
  | _ => exact ⟨h.capacity, h.channel, h.buffer⟩

/-- The tasks of an engine with this policy. -/
structure AllBounded (config : EngineConfig) (engine : GenerationEngine) : Prop where
  policy : engine.config = config
  bounded : ∀ task ∈ engine.tasks, Bounded config task

/-- Every act keeps all tasks within their bounds. -/
theorem allBounded_step (from_slice : Bytes → Option Value) (h : AllBounded config engine)
    (act : Act) : AllBounded config (engine.step from_slice act) := by
  have htask (i : Nat) (step : Task → Shared × Task)
      (hstep : ∀ task, Bounded config task → Bounded config (step task).2) :
      AllBounded config (engine.with_task i step) := by
    refine ⟨?_, forall_with_task h.bounded hstep⟩
    unfold GenerationEngine.with_task
    split <;> exact h.policy
  have hcall (j : Nat) (step : Call → Shared × Call) :
      AllBounded config (engine.with_call j step) := by
    unfold GenerationEngine.with_call
    split <;> exact ⟨h.policy, h.bounded⟩
  cases act with
  | generate request =>
    unfold GenerationEngine.step GenerationEngine.generate
    dsimp only
    split
    · exact h
    split
    · exact h
    split
    · exact h
    refine ⟨h.policy, fun task hmem => ?_⟩
    rcases List.mem_append.1 hmem with hmem | hmem
    · exact h.bounded task hmem
    · rw [List.mem_singleton.1 hmem]
      exact ⟨by rw [h.policy], Nat.zero_le _, Nat.zero_le _⟩
  | poll i choice =>
    exact htask i _ fun task htask => bounded_poll from_slice htask i engine.shared choice
  | signal i signal =>
    exact htask i (fun task => (engine.shared, task.signal signal)) fun task htask =>
      bounded_signal htask signal
  | status => exact ⟨h.policy, h.bounded⟩
  | shutdown => exact ⟨h.policy, h.bounded⟩
  | poll_call j choice => exact hcall j _
  | abandon j => exact hcall j _
  | exit child => exact ⟨h.policy, h.bounded⟩

/-- What an engine keeps of its responses and of its events. -/
structure MemoryBounded (config : EngineConfig) (engine : GenerationEngine) : Prop where
  channel : ∀ task ∈ engine.tasks, task.channel.length ≤ config.event_capacity
  buffer : ∀ task ∈ engine.tasks, ∀ progress buffer, task.phase = .reading progress buffer →
    buffer.length ≤ MAX_SSE_LINE_BYTES

/-- Whatever the sidecars send and however slow the consumers are, a generation
    keeps no more events than its channel holds, and one line of its response
    while it waits for the next chunk. -/
theorem memory_bounded (from_slice : Bytes → Option Value) (config : EngineConfig)
    (shared : Shared) (acts : List Act) :
    MemoryBounded config (run (GenerationEngine.step from_slice) { config, shared } acts) := by
  have hbounded : ∀ (engine : GenerationEngine) (act : Act), AllBounded config engine →
      AllBounded config (engine.step from_slice act) :=
    fun _ act h => allBounded_step from_slice h act
  have hrun := invariant hbounded ⟨rfl, by simp⟩ acts (s := { config, shared })
  refine ⟨fun task hmem => ?_, fun task hmem progress buffer hphase => ?_⟩
  · rw [← (hrun.bounded task hmem).capacity]
    exact (hrun.bounded task hmem).channel
  · have hbuffer := (hrun.bounded task hmem).buffer
    rwa [hphase] at hbuffer

end Inferences.Engine
