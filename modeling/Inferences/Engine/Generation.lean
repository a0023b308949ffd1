import Inferences.Engine.Sse
import Mathlib

/-!
# Generations

A generation runs in a task of its own (`run_generation`): it waits for the
execution lane, makes sure that the sidecar runs, posts its request, decodes
the response and sends the events into a bounded channel, which its consumer
reads. A `Phase` is a place where the task can wait. One poll of the task
(`Task.poll`) finds out whether the wait is over and, if so, goes on to the
next place.

Nearly every wait is a biased `select!`: a stop (`Task.stopped`) goes first.
The rest of what a poll depends on is the state the tasks share (`Shared`) and
what the rest of the world answers (`Choice`).
-/

namespace Inferences.Engine

open Json

/-- How often the sidecar is started for one generation, at most. -/
def LAUNCH_ATTEMPTS : Nat := 3

/-- The number of a sidecar process, in order of launch. -/
abbrev Child := Nat

/-- Who can hold the lifecycle lock. -/
inductive Actor
  | task (i : Nat)
  | call (j : Nat)
  deriving DecidableEq

/-- The state the tasks share: the shutdown token, the free permits, the
    lifecycle lock and what it guards, and the sidecars: how many were launched
    and which of them have not exited, been terminated or been dropped. -/
structure Shared where
  shutdown : Bool := false
  admitted : Nat
  execution : Nat
  owner : Option Actor := none
  running : Option Child := none
  launched : Nat := 0
  alive : List Child := []

/-- Dropping the handle of a child, which kills it. -/
def Shared.drop_child (self : Shared) (child : Child) : Shared :=
  { self with alive := self.alive.filter (· ≠ child) }

/-- `lifecycle.running = None`. -/
def Shared.clear_running (self : Shared) : Shared :=
  match self.running with
  | none => self
  | some child => { self.drop_child child with running := none }

/-- What the world answers to one poll: whether the semaphore and the lock are
    handed over when free, what the child, the launcher and the network say, and
    which timers are over. -/
structure Choice where
  permit : Bool
  lock : Bool
  exited : Except EngineError Bool
  prepared : Except EngineError Unit
  launch : Option (Except EngineError Unit)
  probe : Option Bool
  elapsed : Bool
  late : Bool
  terminated : Bool
  remaining : Option Nat
  response : Option (Except Unit Nat)
  next : Option (Option (Except Unit Bytes))

/-- What a task does once the events it has to send are sent. -/
inductive After
  | read (self : Progress) (buffer : Bytes)
  | fail (e : EngineError)
  | succeed

/-- Where a task waits: for the lane; in `ensure_running`, for the lock and then
    with it, between attempts, for the launcher, for a health probe, before the
    next one, and for the end of a child; in `connection`, for the lock; for the
    response and its chunks; for room to send an event, or its error. -/
inductive Phase
  | lane
  | locking
  | backoff (attempt : Nat)
  | launching (attempt : Nat)
  | probing (attempt : Nat) (child : Child)
  | napping (attempt : Nat) (child : Child)
  | terminating (attempt : Nat) (child : Child) (readiness : EngineError)
  | connecting
  | posting
  | reading (self : Progress) (buffer : Bytes)
  | sending (event : GenerationEvent) (events : List GenerationEvent) (after : After)
  | failing (e : EngineError)
  | ended

/-- The phase holds the lifecycle lock. -/
def Phase.locked : Phase → Bool
  | backoff _ | launching _ | probing .. | napping .. | terminating .. => true
  | _ => false

/-- The child a phase holds. -/
def Phase.child : Phase → Option Child
  | probing _ child | napping _ child | terminating _ child _ => some child
  | _ => none

/-- A task with a child in hand holds the lock. -/
theorem Phase.locked_of_child {phase : Phase} {child : Child} (h : phase.child = some child) :
    phase.locked = true := by
  cases phase <;> first | rfl | cases h

theorem Phase.child_of_locked {phase : Phase} (h : phase.locked = false) : phase.child = none := by
  cases phase <;> first | rfl | cases h

/-- The phase holds the admission permit, the execution permit. -/
def Phase.admitted : Phase → Bool
  | failing _ | ended => false
  | _ => true

/-- The generation holds the permit to execute. -/
def Phase.executing : Phase → Bool
  | lane | failing _ | ended => false
  | _ => true

/-- A generation: its request, its stop signals, its task and its channel, with
    what its consumer has received. -/
structure Task where
  request : NormalizedRequest
  event_capacity : Nat
  cancelled : Bool := false
  expired : Bool := false
  disconnected : Bool := false
  closed : Bool := false
  phase : Phase := .lane
  channel : List Item := []
  received : List Item := []
  is_over : Bool := false

namespace Task

/-- The stop that wins a biased `select!`. -/
def stopped (self : Task) (shared : Shared) : Option EngineError :=
  if self.cancelled then some .Cancelled
  else if self.expired then some .DeadlineExceeded
  else if self.disconnected then some .Cancelled
  else if shared.shutdown then some .ShuttingDown
  else none

/-- A task goes on only while the server does. -/
theorem running_of_not_stopped {self : Task} {shared : Shared} (h : self.stopped shared = none) :
    shared.shutdown = false := by
  unfold stopped at h
  split_ifs at h with _ _ _ hshutdown
  simpa using hshutdown

/-- What is given back when `run_generation` returns. -/
def leave (self : Task) (shared : Shared) : Shared :=
  let shared := match self.phase.child with
    | some child => shared.drop_child child
    | none => shared
  { shared with
    admitted := if self.phase.admitted then shared.admitted + 1 else shared.admitted
    execution := if self.phase.executing then shared.execution + 1 else shared.execution
    owner := if self.phase.locked then none else shared.owner }

/-- `run_generation` returns an error, which is to be sent. -/
def fail (self : Task) (shared : Shared) (e : EngineError) : Shared × Task :=
  (self.leave shared, { self with phase := .failing e })

/-- `sender.send`: whether the channel is closed, and the room in it. -/
def full (self : Task) : Bool := self.event_capacity ≤ self.channel.length

/-! ## Making sure that the sidecar runs -/

/-- An attempt to launch begins: a port and a bearer are made up. -/
def start_attempt (self : Task) (i : Nat) (shared : Shared) (choice : Choice) (attempt : Nat) :
    Shared × Task :=
  match choice.prepared with
  | .error e => self.fail shared e
  | .ok () => ({ shared with owner := some (.task i) }, { self with phase := .launching attempt })

/-- An attempt is over without a sidecar. -/
def next_attempt (self : Task) (shared : Shared) (attempt : Nat) : Shared × Task :=
  if attempt + 1 < LAUNCH_ATTEMPTS then (shared, { self with phase := .backoff (attempt + 1) })
  else self.fail shared .RuntimeUnavailable

/-- The top of the loop of `wait_until_ready`. -/
def check_child (self : Task) (shared : Shared) (choice : Choice) (attempt : Nat) (child : Child) :
    Shared × Task :=
  match choice.exited with
  | .error e => (shared, { self with phase := .terminating attempt child e })
  | .ok true => (shared, { self with phase := .terminating attempt child .RuntimeUnavailable })
  | .ok false => (shared, { self with phase := .probing attempt child })

/-- The lock is there: `ensure_running` looks at the sidecar it guards. -/
def ensure_running (self : Task) (i : Nat) (shared : Shared) (choice : Choice) : Shared × Task :=
  match shared.running with
  | none => self.start_attempt i shared choice 0
  | some _ =>
    match choice.exited with
    | .error e => self.fail shared e
    | .ok false => (shared, { self with phase := .connecting })
    | .ok true => self.start_attempt i shared.clear_running choice 0

/-- The launcher has answered. -/
def launched (self : Task) (shared : Shared) (choice : Choice) (attempt : Nat) :
    Except EngineError Unit → Shared × Task
  | .error _ => self.next_attempt shared attempt
  | .ok () =>
    let child := shared.launched
    let shared := { shared with launched := child + 1, alive := shared.alive ++ [child] }
    self.check_child shared choice attempt child

/-- The health probe has been answered, well or not. -/
def probed (self : Task) (shared : Shared) (choice : Choice) (attempt : Nat) (child : Child) :
    Bool → Shared × Task
  | true => ({ shared with running := some child, owner := none },
      { self with phase := .connecting })
  | false =>
    if choice.late then
      (shared, { self with phase := .terminating attempt child .RuntimeUnavailable })
    else (shared, { self with phase := .napping attempt child })

/-- The child has been terminated, for want of `readiness`. -/
def terminated (self : Task) (shared : Shared) (attempt : Nat) (child : Child)
    (readiness : EngineError) : Shared × Task :=
  match readiness with
  | .Cancelled | .DeadlineExceeded | .ShuttingDown => self.fail shared readiness
  | _ => self.next_attempt (shared.drop_child child) attempt

/-! ## Exchanging with the sidecar -/

/-- The lock is there: `connection` looks at the sidecar, and the request is
    posted. -/
def connection (self : Task) (shared : Shared) (choice : Choice) : Shared × Task :=
  match shared.running with
  | none => self.fail shared .RuntimeUnavailable
  | some _ =>
    match choice.exited with
    | .error e => self.fail shared e
    | .ok true => self.fail shared.clear_running .RuntimeUnavailable
    | .ok false =>
      match choice.remaining with
      | none => self.fail shared .Configuration
      | some 0 => self.fail shared .DeadlineExceeded
      | some _ => (shared, { self with phase := .posting })

/-- Sending events, and then going on. -/
def proceed (self : Task) (shared : Shared) (after : After) :
    List GenerationEvent → Shared × Task
  | event :: events => (shared, { self with phase := .sending event events after })
  | [] =>
    match after with
    | .read progress buffer => (shared, { self with phase := .reading progress buffer })
    | .fail e => self.fail shared e
    | .succeed => (self.leave shared, { self with phase := .ended })

/-- The end of the response: the last events, or an error. -/
def finish (self : Task) (shared : Shared) (deltas : List String) (progress : Progress)
    (buffer : Bytes) : Shared × Task :=
  let (events, result) := conclude progress buffer
  self.proceed shared (match result with
    | .ok () => .succeed
    | .error e => .fail e) (deltas.map .Delta ++ events)

/-- What the stream of the response yields. -/
def consume (from_slice : Bytes → Option Value) (self : Task) (shared : Shared)
    (progress : Progress) (buffer : Bytes) : Option (Except Unit Bytes) → Shared × Task
  | none => self.finish shared [] progress buffer
  | some (.error ()) => self.fail shared .RuntimeUnavailable
  | some (.ok chunk) =>
    match feed from_slice self.request progress buffer chunk with
    | (deltas, .error e) => self.proceed shared (.fail e) (deltas.map .Delta)
    | (deltas, .ok (progress, buffer)) =>
      if progress.done then self.finish shared deltas progress buffer
      else self.proceed shared (.read progress buffer) (deltas.map .Delta)

/-- `send_event`, when no stop wins. -/
def send_event (self : Task) (shared : Shared) (event : GenerationEvent)
    (events : List GenerationEvent) (after : After) : Shared × Task :=
  if self.closed then self.fail shared .Cancelled
  else if self.full then (shared, self)
  else { self with channel := self.channel ++ [Except.ok event] }.proceed shared after events

/-- The error of a generation is sent, unless nobody is left to receive it. -/
def send_error (self : Task) (shared : Shared) (e : EngineError) : Shared × Task :=
  if self.closed then (shared, { self with phase := .ended })
  else if self.full then (shared, self)
  else (shared, { self with channel := self.channel ++ [.error e], phase := .ended })

/-! ## Polls -/

/-- A wait that no stop interrupts, where a stop would make the task fail. -/
def advance (from_slice : Bytes → Option Value) (self : Task) (i : Nat) (shared : Shared)
    (choice : Choice) : Phase → Shared × Task
  | .lane =>
    if choice.permit && 0 < shared.execution then
      ({ shared with execution := shared.execution - 1 }, { self with phase := .locking })
    else (shared, self)
  | .locking =>
    if choice.lock && shared.owner.isNone then self.ensure_running i shared choice
    else (shared, self)
  | .backoff attempt =>
    if choice.elapsed then self.start_attempt i shared choice attempt else (shared, self)
  | .launching attempt =>
    match choice.launch with
    | some result => self.launched shared choice attempt result
    | none => (shared, self)
  | .terminating attempt child readiness =>
    if choice.terminated then self.terminated shared attempt child readiness
    else (shared, self)
  | .connecting =>
    if choice.lock && shared.owner.isNone then self.connection shared choice
    else (shared, self)
  | .posting =>
    match choice.response with
    | some (.ok 200) => (shared, { self with phase := .reading {} [] })
    | some _ => self.fail shared .RuntimeUnavailable
    | none => (shared, self)
  | .reading progress buffer =>
    match choice.next with
    | some value => self.consume from_slice shared progress buffer value
    | none => (shared, self)
  | .sending event events after => self.send_event shared event events after
  | _ => (shared, self)

/-- One poll of the task `i`. A stop during a health check is handed to the
    caller of `wait_until_ready`, which terminates the child first. -/
def poll (from_slice : Bytes → Option Value) (self : Task) (i : Nat) (shared : Shared)
    (choice : Choice) : Shared × Task :=
  match self.phase with
  | .failing e => self.send_error shared e
  | .ended => (shared, self)
  | .probing attempt child =>
    match self.stopped shared, choice.probe with
    | some e, _ => (shared, { self with phase := .terminating attempt child e })
    | none, some healthy => self.probed shared choice attempt child healthy
    | none, none => (shared, self)
  | .napping attempt child =>
    match self.stopped shared with
    | some e => (shared, { self with phase := .terminating attempt child e })
    | none =>
      if choice.elapsed then self.check_child shared choice attempt child else (shared, self)
  | phase =>
    match self.stopped shared with
    | some e => self.fail shared e
    | none => self.advance from_slice i shared choice phase

/-! ## What a poll can do -/

/-- The outcomes of a poll of the task `i`, by where it waited. -/
inductive Polled (from_slice : Bytes → Option Value) (i : Nat) (shared : Shared) (self : Task) :
    Shared × Task → Prop
  | wait : Polled from_slice i shared self (shared, self)
  | fail (e : EngineError) (hphase : self.phase.admitted = true) :
      Polled from_slice i shared self (self.fail shared e)
  | fail_clear (e : EngineError) (hphase : self.phase = .locking ∨ self.phase = .connecting)
      (hfree : shared.owner = none) :
      Polled from_slice i shared self (self.fail shared.clear_running e)
  | enter (hphase : self.phase = .lane) (hfree : 0 < shared.execution) :
      Polled from_slice i shared self
        ({ shared with execution := shared.execution - 1 }, { self with phase := .locking })
  | connect (hphase : self.phase = .locking) :
      Polled from_slice i shared self (shared, { self with phase := .connecting })
  | begin_launch (hphase : self.phase = .locking) (hstop : self.stopped shared = none)
      (hfree : shared.owner = none) : Polled from_slice i shared self
        ({ shared.clear_running with owner := some (.task i) }, { self with phase := .launching 0 })
  | launch_again (attempt : Nat) (hphase : self.phase = .backoff attempt) :
      Polled from_slice i shared self
        ({ shared with owner := some (.task i) }, { self with phase := .launching attempt })
  | back_off (attempt : Nat) (hphase : self.phase = .launching attempt) :
      Polled from_slice i shared self (shared, { self with phase := .backoff (attempt + 1) })
  | launch (attempt : Nat) (phase : Phase) (hphase : self.phase = .launching attempt)
      (hstop : self.stopped shared = none) (hlocked : phase.locked = true)
      (hchild : phase.child = some shared.launched) :
      Polled from_slice i shared self
        ({ shared with
            launched := shared.launched + 1, alive := shared.alive ++ [shared.launched] },
          { self with phase })
  | watch (child : Child) (phase : Phase) (hphase : self.phase.child = some child)
      (hlocked : phase.locked = true) (hchild : phase.child = some child) :
      Polled from_slice i shared self (shared, { self with phase })
  | ready (attempt : Nat) (child : Child) (hphase : self.phase = .probing attempt child)
      (hstop : self.stopped shared = none) : Polled from_slice i shared self
        ({ shared with running := some child, owner := none }, { self with phase := .connecting })
  | drop (attempt : Nat) (child : Child) (readiness : EngineError)
      (hphase : self.phase = .terminating attempt child readiness) :
      Polled from_slice i shared self
        (shared.drop_child child, { self with phase := .backoff (attempt + 1) })
  | post (hphase : self.phase = .connecting) :
      Polled from_slice i shared self (shared, { self with phase := .posting })
  | respond (hphase : self.phase = .posting) :
      Polled from_slice i shared self (shared, { self with phase := .reading {} [] })
  | consume (progress : Progress) (buffer : Bytes) (value : Option (Except Unit Bytes))
      (hphase : self.phase = .reading progress buffer) :
      Polled from_slice i shared self (self.consume from_slice shared progress buffer value)
  | send (event : GenerationEvent) (events : List GenerationEvent) (after : After)
      (hphase : self.phase = .sending event events after) (hstop : self.stopped shared = none) :
      Polled from_slice i shared self
        ({ self with channel := self.channel ++ [Except.ok event] }.proceed shared after events)
  | report (e : EngineError) (hphase : self.phase = .failing e) :
      Polled from_slice i shared self
        (shared, { self with channel := self.channel ++ [.error e], phase := .ended })
  | forget (e : EngineError) (hphase : self.phase = .failing e) (hclosed : self.closed = true) :
      Polled from_slice i shared self (shared, { self with phase := .ended })

variable {from_slice : Bytes → Option Value} {i : Nat} {shared : Shared} {self : Task}
  {choice : Choice}

/-- An attempt to start the sidecar is a move. -/
theorem polled_start_attempt (hphase : self.phase = .locking) (hstop : self.stopped shared = none)
    (hfree : shared.owner = none) :
    Polled from_slice i shared self (self.start_attempt i shared.clear_running choice 0) := by
  unfold start_attempt
  split
  · exact .fail_clear _ (.inl hphase) hfree
  · exact .begin_launch hphase hstop hfree

theorem clear_running_of_none (h : shared.running = none) : shared.clear_running = shared := by
  simp [Shared.clear_running, h]

theorem polled_ensure_running (hphase : self.phase = .locking) (hstop : self.stopped shared = none)
    (hfree : shared.owner = none) :
    Polled from_slice i shared self (self.ensure_running i shared choice) := by
  unfold ensure_running
  split
  · rename_i hrunning
    have hstart : Polled from_slice i shared self
        (self.start_attempt i shared.clear_running choice 0) :=
      polled_start_attempt hphase hstop hfree
    rwa [clear_running_of_none hrunning] at hstart
  · split
    · exact .fail _ (by rw [hphase]; rfl)
    · exact .connect hphase
    · exact polled_start_attempt hphase hstop hfree

/-- Dropping a child twice is dropping it once. -/
theorem drop_child_idem (shared : Shared) (child : Child) :
    (shared.drop_child child).drop_child child = shared.drop_child child := by
  simp [Shared.drop_child, List.filter_filter]

/-- The look at the child is a move. -/
theorem polled_check_child {attempt : Nat} {child : Child}
    (hchild : self.phase.child = some child) :
    Polled from_slice i shared self (self.check_child shared choice attempt child) := by
  unfold check_child
  split <;> exact .watch child _ hchild rfl rfl

/-- The outcome of a launch is a move. -/
theorem polled_launched {attempt : Nat} {result : Except EngineError Unit}
    (hphase : self.phase = .launching attempt) (hstop : self.stopped shared = none) :
    Polled from_slice i shared self (self.launched shared choice attempt result) := by
  cases result with
  | error e =>
    rw [launched, next_attempt]
    split
    · exact .back_off attempt hphase
    · exact .fail _ (by rw [hphase]; rfl)
  | ok =>
    rw [launched, check_child]
    split <;> exact .launch attempt _ hphase hstop rfl rfl

/-- The outcome of a probe is a move. -/
theorem polled_probed {attempt : Nat} {child : Child} {healthy : Bool}
    (hphase : self.phase = .probing attempt child) (hstop : self.stopped shared = none) :
    Polled from_slice i shared self (self.probed shared choice attempt child healthy) := by
  have hchild : self.phase.child = some child := by rw [hphase]; rfl
  cases healthy with
  | true => exact .ready attempt child hphase hstop
  | false =>
    rw [probed]
    split <;> exact .watch child _ hchild rfl rfl

theorem polled_terminated {attempt : Nat} {child : Child} {readiness : EngineError}
    (hphase : self.phase = .terminating attempt child readiness) :
    Polled from_slice i shared self (self.terminated shared attempt child readiness) := by
  have hadmitted : self.phase.admitted = true := by rw [hphase]; rfl
  unfold terminated
  split
  · exact .fail _ hadmitted
  · exact .fail _ hadmitted
  · exact .fail _ hadmitted
  · rw [next_attempt]
    split
    · exact .drop attempt child readiness hphase
    · have hfail : self.fail (shared.drop_child child) .RuntimeUnavailable =
          self.fail shared .RuntimeUnavailable := by
        simp [fail, leave, hphase, Phase.child, drop_child_idem]
      rw [hfail]
      exact .fail _ hadmitted

/-- The first move on the connection. -/
theorem polled_connection (hphase : self.phase = .connecting) (hfree : shared.owner = none) :
    Polled from_slice i shared self (self.connection shared choice) := by
  have hadmitted : self.phase.admitted = true := by rw [hphase]; rfl
  unfold connection
  split
  · exact .fail _ hadmitted
  · split
    · exact .fail _ hadmitted
    · exact .fail_clear _ (.inr hphase) hfree
    · split
      · exact .fail _ hadmitted
      · exact .fail _ hadmitted
      · exact .post hphase

/-- The wait for a place in the channel. -/
theorem polled_send_event {event : GenerationEvent} {events : List GenerationEvent} {after : After}
    (hphase : self.phase = .sending event events after) (hstop : self.stopped shared = none) :
    Polled from_slice i shared self (self.send_event shared event events after) := by
  unfold send_event
  split
  · exact .fail _ (by rw [hphase]; rfl)
  split
  · exact .wait
  · exact .send event events after hphase hstop

theorem polled_send_error {e : EngineError} (hphase : self.phase = .failing e) :
    Polled from_slice i shared self (self.send_error shared e) := by
  unfold send_error
  split
  · exact .forget e hphase ‹_›
  split
  · exact .wait
  · exact .report e hphase

/-- Every phase makes one of the moves. -/
theorem polled_advance {phase : Phase} (hphase : self.phase = phase)
    (hstop : self.stopped shared = none) :
    Polled from_slice i shared self (self.advance from_slice i shared choice phase) := by
  unfold advance
  split
  · split
    · exact .enter hphase (by simp_all)
    · exact .wait
  · split
    · exact polled_ensure_running hphase hstop (by simp_all)
    · exact .wait
  · split
    · unfold start_attempt
      split
      · exact .fail _ (by rw [hphase]; rfl)
      · exact .launch_again _ hphase
    · exact .wait
  · split
    · exact polled_launched hphase hstop
    · exact .wait
  · split
    · exact polled_terminated hphase
    · exact .wait
  · split
    · exact polled_connection hphase (by simp_all)
    · exact .wait
  · split
    · exact .respond hphase
    · exact .fail _ (by rw [hphase]; rfl)
    · exact .wait
  · split
    · exact .consume _ _ _ hphase
    · exact .wait
  · exact polled_send_event hphase hstop
  · exact .wait

/-- A poll makes one of the moves, or stops. -/
theorem poll_polled (from_slice : Bytes → Option Value) (self : Task) (i : Nat) (shared : Shared)
    (choice : Choice) : Polled from_slice i shared self (self.poll from_slice i shared choice) := by
  have hselect : ∀ phase, self.phase = phase → phase.admitted = true →
      Polled from_slice i shared self (match self.stopped shared with
        | some e => self.fail shared e
        | none => self.advance from_slice i shared choice phase) := by
    intro phase hphase hadmitted
    split
    · exact .fail _ (hphase ▸ hadmitted)
    · exact polled_advance hphase ‹_›
  unfold poll
  cases hphase : self.phase with
  | failing e => exact polled_send_error hphase
  | ended => exact .wait
  | probing attempt child =>
    have hchild : self.phase.child = some child := by rw [hphase]; rfl
    dsimp only
    split
    · exact .watch child _ hchild rfl rfl
    · exact polled_probed hphase ‹_›
    · exact .wait
  | napping attempt child =>
    have hchild : self.phase.child = some child := by rw [hphase]; rfl
    dsimp only
    split
    · exact .watch child _ hchild rfl rfl
    · split
      · exact polled_check_child hchild
      · exact .wait
  | _ => exact hselect _ hphase rfl

/-! ### What a poll leaves alone -/

/-- A poll only moves the task and adds to its channel. -/
def Kept (self task : Task) : Prop := ∃ phase channel, task = { self with phase, channel }

theorem kept_proceed (self : Task) (shared : Shared) (after : After)
    (events : List GenerationEvent) : self.Kept (self.proceed shared after events).2 := by
  cases events with
  | cons => exact ⟨_, _, rfl⟩
  | nil => cases after <;> exact ⟨_, _, rfl⟩

/-- What is read changes the phase alone. -/
theorem kept_consume (self : Task) (shared : Shared) (progress : Progress) (buffer : Bytes)
    (value : Option (Except Unit Bytes)) :
    self.Kept (self.consume from_slice shared progress buffer value).2 := by
  unfold consume finish
  split
  · exact kept_proceed ..
  · exact ⟨_, _, rfl⟩
  · split
    · exact kept_proceed ..
    · split <;> exact kept_proceed ..

/-- A poll keeps what the task was started with. -/
theorem Polled.kept {r : Shared × Task} (h : Polled from_slice i shared self r) :
    self.Kept r.2 := by
  cases h with
  | consume progress buffer value => exact kept_consume ..
  | send event events after =>
    obtain ⟨phase, channel, h⟩ := kept_proceed
      { self with channel := self.channel ++ [Except.ok event] } shared after events
    exact ⟨phase, channel, h⟩
  | _ => exact ⟨_, _, rfl⟩

/-- Permits aside, the state the tasks share is as it was. -/
def Same (shared shared' : Shared) : Prop :=
  ∃ admitted execution, shared' = { shared with admitted, execution }

/-- A task without the lock leaves nothing behind in what is shared. -/
theorem same_leave (shared : Shared) (hlocked : self.phase.locked = false) :
    Same shared (self.leave shared) := by
  unfold leave
  rw [hlocked, Phase.child_of_locked hlocked]
  exact ⟨_, _, rfl⟩

/-- A task without the lock that sends events or goes on stays without it. -/
theorem outside_proceed (shared : Shared) (hlocked : self.phase.locked = false) (after : After)
    (events : List GenerationEvent) :
    let r := self.proceed shared after events
    Same shared r.1 ∧ r.2.phase.locked = false := by
  cases events with
  | cons => exact ⟨⟨_, _, rfl⟩, rfl⟩
  | nil =>
    cases after with
    | read => exact ⟨⟨_, _, rfl⟩, rfl⟩
    | fail e => exact ⟨same_leave shared hlocked, rfl⟩
    | succeed => exact ⟨same_leave shared hlocked, rfl⟩

/-- The reading of the response does not touch the sidecar. -/
theorem outside_consume (from_slice : Bytes → Option Value) (shared : Shared)
    (hlocked : self.phase.locked = false) (progress : Progress) (buffer : Bytes)
    (value : Option (Except Unit Bytes)) :
    let r := self.consume from_slice shared progress buffer value
    Same shared r.1 ∧ r.2.phase.locked = false := by
  dsimp only
  unfold consume finish
  split
  · exact outside_proceed shared hlocked ..
  · exact ⟨same_leave shared hlocked, rfl⟩
  · split
    · exact outside_proceed shared hlocked ..
    · split <;> exact outside_proceed shared hlocked ..

/-- A task that has ended does nothing. -/
theorem Polled.of_ended {r : Shared × Task} (h : Polled from_slice i shared self r)
    (hended : self.phase = .ended) : r = (shared, self) := by
  cases h with
  | wait => rfl
  | fail e hphase => simp [hended, Phase.admitted] at hphase
  | fail_clear e hphase => simp [hended] at hphase
  | watch child phase hphase => simp [hended, Phase.child] at hphase
  | _ => simp_all

end Task

end Inferences.Engine
