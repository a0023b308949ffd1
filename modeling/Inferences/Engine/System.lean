import Inferences.Duration
import Inferences.Engine.Generation
import Inferences.Schedule

/-!
# The engine

The engine admits generations (`GenerationEngine.generate`), each in a task of its own,
and answers `status` and `shutdown` calls; all of them compete for the
lifecycle lock. One act (`Act`) is a poll of a task or a call, a new one, a
signal to a task, or something its consumer does; acts come in any order.
-/

namespace Inferences.Engine

open Json Schedule Time

/-- Resource and lifecycle policy. -/
structure EngineConfig where
  max_prompt_bytes : Nat
  max_messages : Nat
  max_output_tokens : UInt32
  queue_capacity : Nat
  max_concurrent : Nat
  event_capacity : Nat
  startup_timeout : Duration
  shutdown_timeout : Duration

/-- The configuration when nothing else is said. -/
def EngineConfig.default : EngineConfig where
  max_prompt_bytes := 65536
  max_messages := 128
  max_output_tokens := 1024
  queue_capacity := 8
  max_concurrent := 1
  event_capacity := 32
  startup_timeout := .from_secs 60
  shutdown_timeout := .from_secs 10

/-- The bounds of the configuration are positive, and one generation runs at a time. -/
def EngineConfig.validate (self : EngineConfig) : Except EngineError Unit :=
  if self.max_prompt_bytes = 0 || self.max_messages = 0 || self.max_output_tokens = 0
      || self.max_concurrent ≠ 1 || self.event_capacity = 0
      || self.startup_timeout.is_zero || self.shutdown_timeout.is_zero then
    .error .Configuration
  else .ok ()

/-- A `status` or `shutdown` call: waiting for the lock, with it while the
    child is terminated, returned, or given up by its caller. -/
inductive Call
  | status_locking
  | status_returned (ready : Bool)
  | shutdown_locking
  | shutdown_terminating (child : Child)
  | shutdown_returned
  | abandoned
  deriving DecidableEq

/-- The child a call holds. -/
def Call.child : Call → Option Child
  | shutdown_terminating child => some child
  | _ => none

/-- The engine, with the generations and the calls it has been asked for. -/
structure GenerationEngine where
  config : EngineConfig
  shared : Shared
  tasks : List Task := []
  calls : List Call := []

/-- `usize::checked_add`. -/
def usize_checked_add (a b : Nat) : Option Nat := if a + b < 2 ^ 64 then some (a + b) else none

/-- The time that the launch attempts may take in all. -/
def startup_deadline (config : EngineConfig) : Option Duration :=
  (config.startup_timeout.checked_mul LAUNCH_ATTEMPTS.toUInt32).bind
    (·.checked_add (.from_secs 2))

/-- `start`: the sidecar was found healthy at the launch attempt `attempt`. -/
def GenerationEngine.start (config : EngineConfig) (attempt : Nat) :
    Except EngineError GenerationEngine := do
  config.validate
  let admitted ← (usize_checked_add config.max_concurrent config.queue_capacity).elim
    (.error .Configuration) .ok
  if (startup_deadline config).isNone then throw .Configuration
  return { config, shared := { admitted, execution := config.max_concurrent
                               running := some attempt, launched := attempt + 1
                               alive := [attempt] } }

namespace GenerationEngine

/-- Admitting one request, which `normalize_request` has accepted or refused:
    the number of its task, or the error. -/
def generate (self : GenerationEngine) (request : Except EngineError NormalizedRequest) :
    GenerationEngine × Except EngineError Nat :=
  if self.shared.shutdown then (self, .error .ShuttingDown)
  else match request with
    | .error e => (self, .error e)
    | .ok request =>
      if self.shared.admitted = 0 then (self, .error .Overloaded)
      else
        ({ self with
            shared := { self.shared with admitted := self.shared.admitted - 1 }
            tasks := self.tasks ++ [{ request, event_capacity := self.config.event_capacity }] },
          .ok self.tasks.length)

/-- One poll of the call `j`. -/
def poll_call (self : Shared) (j : Nat) (choice : Choice) : Call → Shared × Call
  | .status_locking =>
    if choice.lock && self.owner.isNone then
      let ready := self.running.isSome && choice.exited matches .ok false
      (if ready then self else self.clear_running, .status_returned ready)
    else (self, .status_locking)
  | .shutdown_locking =>
    if choice.lock && self.owner.isNone then
      match self.running with
      | none => (self, .shutdown_returned)
      | some child =>
        ({ self with running := none, owner := some (.call j) }, .shutdown_terminating child)
    else (self, .shutdown_locking)
  | .shutdown_terminating child =>
    if choice.terminated then ({ self.drop_child child with owner := none }, .shutdown_returned)
    else (self, .shutdown_terminating child)
  | call => (self, call)

/-- The caller drops a call, with what it holds. -/
def abandon (self : Shared) : Call → Shared × Call
  | .status_returned ready => (self, .status_returned ready)
  | .shutdown_returned => (self, .shutdown_returned)
  | .shutdown_terminating child => ({ self.drop_child child with owner := none }, .abandoned)
  | _ => (self, .abandoned)

end GenerationEngine

/-- What a consumer does next to its stream: it cancels the generation, lets
    its deadline pass, drops the stream (the signal first, then the receiver)
    or receives. -/
inductive Signal
  | cancel
  | expire
  | disconnect
  | close
  | recv

/-- What a signal does to a task. -/
def Task.signal (self : Task) : Signal → Task
  | .cancel => { self with cancelled := true }
  | .expire => { self with expired := true }
  | .disconnect => { self with disconnected := true }
  | .close => if self.disconnected then { self with closed := true } else self
  | .recv =>
    if self.disconnected then self
    else match self.channel, self.phase with
      | item :: channel, _ => { self with channel, received := self.received ++ [item] }
      | [], .ended => { self with is_over := true }
      | [], _ => self

/-- An act of the engine, or of its environment. -/
inductive Act
  | generate (request : Except EngineError NormalizedRequest)
  | poll (i : Nat) (choice : Choice)
  | signal (i : Nat) (signal : Signal)
  | status
  | shutdown
  | poll_call (j : Nat) (choice : Choice)
  | abandon (j : Nat)
  | exit (child : Child)

namespace GenerationEngine

/-- The state of the engine after a step of one of its tasks, or calls. -/
def with_task (self : GenerationEngine) (i : Nat)
    (step : Task → Shared × Task) : GenerationEngine :=
  match self.tasks[i]? with
  | none => self
  | some task =>
    let (shared, task) := step task
    { self with shared, tasks := self.tasks.set i task }

/-- One call of the engine makes a step. -/
def with_call (self : GenerationEngine) (j : Nat)
    (step : Call → Shared × Call) : GenerationEngine :=
  match self.calls[j]? with
  | none => self
  | some call =>
    let (shared, call) := step call
    { self with shared, calls := self.calls.set j call }

/-- The engine after one act. -/
def step (from_slice : Bytes → Option Value) (self : GenerationEngine) : Act → GenerationEngine
  | .generate request => (self.generate request).1
  | .poll i choice => self.with_task i fun task => task.poll from_slice i self.shared choice
  | .signal i signal => self.with_task i fun task => (self.shared, task.signal signal)
  | .status => { self with calls := self.calls ++ [.status_locking] }
  | .shutdown =>
    { self with shared := { self.shared with shutdown := true }
                calls := self.calls ++ [.shutdown_locking] }
  | .poll_call j choice => self.with_call j (poll_call self.shared j choice)
  | .abandon j => self.with_call j (abandon self.shared)
  | .exit child => { self with shared := self.shared.drop_child child }

end GenerationEngine

end Inferences.Engine
