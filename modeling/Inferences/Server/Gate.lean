import Mathlib

/-!
# The shutdown gate

The gate counts the operations it has admitted and that are still live. A
drain stops the admission and is over when the last of them is; `stop_now`
ends it at once. Either way the gate is then stopped for good, and its stop
token cancelled.

A guard that is dropped cancels the token right after it has left the state
of the gate; the two are one step here.
-/

namespace Inferences.Server

/-- How a drain ended. -/
inductive DrainOutcome
  | Graceful
  | Forced
  deriving DecidableEq

namespace ShutdownGate

/-- What the gate does with requests. -/
inductive Phase
  | Accepting
  | Draining
  | Stopped (outcome : DrainOutcome)
  deriving DecidableEq

end ShutdownGate

/-- The state of a gate, and whether its stop token is cancelled. -/
structure ShutdownGate where
  phase : ShutdownGate.Phase := .Accepting
  active : Nat := 0
  stopped : Bool := false

namespace ShutdownGate

/-- Admitting one operation: the gate with it, or nothing. -/
def try_enter (self : ShutdownGate) : Option ShutdownGate :=
  if self.phase ≠ .Accepting then none
  else if self.active + 1 < 2 ^ 64 then some { self with active := self.active + 1 }
  else none

/-- Dropping the guard of an operation. -/
def leave (self : ShutdownGate) : ShutdownGate :=
  let active := self.active - 1
  if active = 0 ∧ self.phase = .Draining then
    { phase := .Stopped .Graceful, active, stopped := true }
  else { self with active }

/-- The gate is stopped; a drain that has ended keeps its outcome. -/
def stop_now (self : ShutdownGate) : ShutdownGate :=
  { self with
    phase := match self.phase with
      | .Stopped outcome => .Stopped outcome
      | _ => .Stopped .Forced
    stopped := true }

/-- The start of a drain: the gate after it, and the outcome if it is over. -/
def begin_drain (self : ShutdownGate) : ShutdownGate × Option DrainOutcome :=
  match self.phase with
  | .Stopped outcome => (self, some outcome)
  | _ =>
    if self.active = 0 then
      ({ self with phase := .Stopped .Graceful, stopped := true }, some .Graceful)
    else ({ self with phase := .Draining }, none)

/-- How the drain ended. -/
def terminal_outcome (self : ShutdownGate) : DrainOutcome :=
  match self.phase with
  | .Stopped outcome => outcome
  | _ => .Forced

/-- The stop token is cancelled when the gate is stopped, and nothing is live
    after a graceful drain. -/
structure Sound (gate : ShutdownGate) : Prop where
  stopped : gate.stopped = true ↔ ∃ outcome, gate.phase = .Stopped outcome
  drained : gate.phase = .Stopped .Graceful → gate.active = 0
  draining : gate.phase = .Draining → gate.active ≠ 0

variable {self gate : ShutdownGate}

theorem try_enter_eq_some (h : self.try_enter = some gate) :
    self.phase = .Accepting ∧ gate = { self with active := self.active + 1 } := by
  rw [try_enter] at h
  split at h
  · cases h
  · rename_i hphase
    split at h
    · exact ⟨not_not.1 hphase, (Option.some.inj h).symm⟩
    · cases h

theorem Sound.try_enter (h : Sound self) (henter : self.try_enter = some gate) : Sound gate := by
  obtain ⟨hphase, rfl⟩ := try_enter_eq_some henter
  exact ⟨h.stopped, by simp [hphase], by simp [hphase]⟩

theorem Sound.leave (h : Sound self) : Sound self.leave := by
  unfold ShutdownGate.leave
  dsimp only
  split
  · rename_i hlast
    exact ⟨by simp, fun _ => hlast.1, by simp⟩
  · rename_i hlast
    refine ⟨h.stopped, fun hphase => ?_, fun hphase hzero => hlast ⟨hzero, hphase⟩⟩
    rw [h.drained hphase]

theorem Sound.stop_now (h : Sound self) : Sound self.stop_now := by
  unfold ShutdownGate.stop_now
  cases hphase : self.phase with
  | Stopped outcome =>
    refine ⟨by simp, fun hgraceful => h.drained ?_, by simp⟩
    rw [hphase]
    exact hgraceful
  | _ => exact ⟨by simp, by simp, by simp⟩

theorem Sound.begin_drain (h : Sound self) : Sound self.begin_drain.1 := by
  unfold ShutdownGate.begin_drain
  split
  · exact h
  · rename_i hphase
    split
    · rename_i hzero
      exact ⟨by simp, fun _ => hzero, by simp⟩
    · rename_i hzero
      refine ⟨?_, by simp, fun _ => hzero⟩
      simp only [reduceCtorEq, exists_false, iff_false]
      intro hstopped
      obtain ⟨outcome, hout⟩ := h.stopped.1 hstopped
      exact hphase outcome hout

/-- An operation that enters and leaves changes nothing. -/
theorem leave_of_try_enter (h : self.try_enter = some gate) : gate.leave = self := by
  obtain ⟨hphase, rfl⟩ := try_enter_eq_some h
  obtain ⟨phase, active, stopped⟩ := self
  obtain rfl : phase = .Accepting := hphase
  simp [ShutdownGate.leave]

theorem active_leave (self : ShutdownGate) : self.leave.active = self.active - 1 := by
  unfold ShutdownGate.leave
  dsimp only
  split <;> rfl

theorem active_begin_drain (self : ShutdownGate) : self.begin_drain.1.active = self.active := by
  unfold ShutdownGate.begin_drain
  split
  · rfl
  · split <;> rfl

/-- A gate that admits nothing more stays so. -/
theorem closed_leave (h : self.phase ≠ .Accepting) : self.leave.phase ≠ .Accepting := by
  unfold ShutdownGate.leave
  dsimp only
  split
  · simp
  · exact h

theorem closed_stop_now (self : ShutdownGate) : self.stop_now.phase ≠ .Accepting := by
  unfold ShutdownGate.stop_now
  cases self.phase <;> simp

theorem closed_begin_drain (self : ShutdownGate) : self.begin_drain.1.phase ≠ .Accepting := by
  unfold ShutdownGate.begin_drain
  split
  · rename_i hphase
    rw [hphase]
    simp
  · split <;> simp

/-- A gate that is stopped stays so, with its outcome. -/
theorem stopped_leave {outcome : DrainOutcome} (h : self.phase = .Stopped outcome) :
    self.leave.phase = .Stopped outcome := by
  simp [ShutdownGate.leave, h]

theorem try_enter_of_stopped {outcome : DrainOutcome} (h : self.phase = .Stopped outcome) :
    self.try_enter = none := by
  simp [ShutdownGate.try_enter, h]

theorem Sound.try_enter_of_stopped_token (h : Sound self) (hstopped : self.stopped = true) :
    self.try_enter = none := by
  obtain ⟨outcome, hphase⟩ := h.stopped.1 hstopped
  exact ShutdownGate.try_enter_of_stopped hphase

/-- A drain that is over at once has stopped the gate. -/
theorem begin_drain_eq_some {outcome : DrainOutcome} (h : self.begin_drain.2 = some outcome) :
    self.begin_drain.1.phase = .Stopped outcome := by
  unfold ShutdownGate.begin_drain at h ⊢
  split
  · rename_i hphase
    rw [hphase] at h
    rw [hphase, Option.some.inj h]
  · rename_i hphase
    split
    · rename_i hzero
      split at h
      · exact absurd ‹_› (hphase _)
      · rw [if_pos hzero] at h
        rw [← Option.some.inj h]
    · rename_i hzero
      split at h
      · exact absurd ‹_› (hphase _)
      · rw [if_neg hzero] at h
        cases h

end ShutdownGate

end Inferences.Server
