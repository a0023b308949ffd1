import Inferences.Custody
import Inferences.Engine.System

/-!
# One sidecar

The sidecar is a resource in the custody of the lifecycle lock: the lock's
holder launches children and has at most one in hand, `lifecycle.running` is
the place where it leaves one for the others. Every act of the engine is a few
steps of that resource (`custody_step`), so at most one child is alive at any
time, and after a shutdown call has returned there is none and none will be
launched (`single_sidecar`).
-/

namespace Inferences.Engine

open Json Schedule

namespace GenerationEngine

/-- The actor holds the lifecycle lock, by where it waits. -/
def holds (self : GenerationEngine) : Actor → Bool
  | .task i => self.tasks[i]?.elim false (·.phase.locked)
  | .call j => self.calls[j]?.elim false (·.child.isSome)

/-- The child an actor has in hand. -/
def in_hand (self : GenerationEngine) : Actor → Option Child
  | .task i => self.tasks[i]?.bind (·.phase.child)
  | .call j => self.calls[j]?.bind Call.child

/-- The sidecar as a resource in custody. -/
def custody (self : GenerationEngine) : Custody.State where
  stopped := self.shared.shutdown
  hand := self.shared.owner.map self.in_hand
  place := self.shared.running
  made := self.shared.launched
  live := self.shared.alive

/-- The owner of the lock is the one actor that waits with it. -/
def Locked (self : GenerationEngine) : Prop :=
  ∀ actor, self.holds actor = true ↔ self.shared.owner = some actor

/-- A change of one actor, which then holds the lock or not, and a child or none. -/
structure Changed (engine engine' : GenerationEngine) (actor : Actor) (locked : Bool)
    (child : Option Child) : Prop where
  holds : engine'.holds actor = locked
  in_hand : engine'.in_hand actor = child
  others : ∀ a, a ≠ actor → engine'.holds a = engine.holds a ∧ engine'.in_hand a = engine.in_hand a

variable {engine engine' : GenerationEngine} {actor : Actor} {child : Option Child}

/-- An actor without the lock that stays without it. -/
theorem Changed.outside (hc : Changed engine engine' actor false child) (h : Locked engine)
    (hout : engine.holds actor = false) (howner : engine'.shared.owner = engine.shared.owner) :
    Locked engine' ∧ engine'.custody.hand = engine.custody.hand := by
  have hne : engine.shared.owner ≠ some actor := fun e => by
    rw [(h actor).2 e] at hout
    cases hout
  refine ⟨fun a => ?_, ?_⟩
  · rw [howner]
    by_cases ha : a = actor
    · subst ha
      simp [hc.holds, hne]
    · rw [(hc.others a ha).1]
      exact h a
  · rw [custody, custody, howner]
    cases ho : engine.shared.owner with
    | none => rfl
    | some a => exact congrArg some (hc.others a fun e => hne (e ▸ ho)).2

/-- An actor that has the lock afterwards. -/
theorem Changed.inside (hc : Changed engine engine' actor true child) (h : Locked engine)
    (hfree : engine.shared.owner = none ∨ engine.shared.owner = some actor)
    (howner : engine'.shared.owner = some actor) :
    Locked engine' ∧ engine'.custody.hand = some child := by
  refine ⟨fun a => ?_, ?_⟩
  · rw [howner]
    by_cases ha : a = actor
    · subst ha
      simp [hc.holds]
    · have hne : engine.shared.owner ≠ some a := by
        rcases hfree with hfree | hfree <;> simp [hfree, Ne.symm ha]
      rw [(hc.others a ha).1, h a]
      simp [hne, Ne.symm ha]
  · simp [custody, howner, hc.in_hand]

/-- An actor that gives the lock back. -/
theorem Changed.back (hc : Changed engine engine' actor false child) (h : Locked engine)
    (hfree : engine.shared.owner = none ∨ engine.shared.owner = some actor)
    (howner : engine'.shared.owner = none) :
    Locked engine' ∧ engine'.custody.hand = none := by
  refine ⟨fun a => ?_, by simp [custody, howner]⟩
  rw [howner]
  by_cases ha : a = actor
  · subst ha
    simp [hc.holds]
  · have hne : engine.shared.owner ≠ some a := by
      rcases hfree with hfree | hfree <;> simp [hfree, Ne.symm ha]
    rw [(hc.others a ha).1, h a]
    simp [hne]

/-- A step of a task is a change of that actor. -/
theorem changed_task {i : Nat} {task : Task} (hi : engine.tasks[i]? = some task)
    (shared : Shared) (task' : Task) :
    Changed engine { engine with shared, tasks := engine.tasks.set i task' } (.task i)
      task'.phase.locked task'.phase.child where
  holds := by
    have hlt := (List.getElem?_eq_some_iff.1 hi).1
    simp [holds, hlt]
  in_hand := by
    have hlt := (List.getElem?_eq_some_iff.1 hi).1
    simp [in_hand, hlt]
  others a ha := by
    cases a with
    | call j => exact ⟨rfl, rfl⟩
    | task k =>
      have hk : i ≠ k := fun e => ha (e ▸ rfl)
      simp [holds, in_hand, hk]

/-- A step of a call is a change of that actor. -/
theorem changed_call {j : Nat} {call : Call} (hj : engine.calls[j]? = some call)
    (shared : Shared) (call' : Call) :
    Changed engine { engine with shared, calls := engine.calls.set j call' } (.call j)
      call'.child.isSome call'.child where
  holds := by
    have hlt := (List.getElem?_eq_some_iff.1 hj).1
    simp [holds, hlt]
  in_hand := by
    have hlt := (List.getElem?_eq_some_iff.1 hj).1
    simp [in_hand, hlt]
  others a ha := by
    cases a with
    | task i => exact ⟨rfl, rfl⟩
    | call k =>
      have hk : j ≠ k := fun e => ha (e ▸ rfl)
      simp [holds, in_hand, hk]

/-! ## Polls -/

theorem set_self {α : Type*} {as : List α} {i : Nat} {a : α} (h : as[i]? = some a) :
    as.set i a = as := by
  obtain ⟨hlt, rfl⟩ := List.getElem?_eq_some_iff.1 h
  exact List.set_getElem_self hlt

/-- Emptying the place, with the lock free. -/
theorem clear_running_step (hfree : engine.shared.owner = none) :
    Custody.Step engine.custody
      { engine.custody with place := none, live := engine.shared.clear_running.alive } := by
  have hnone : engine.custody.hand = none := by simp [custody, hfree]
  have hstep := Custody.Step.clear hnone
  cases hr : engine.shared.running with
  | none => simpa [Shared.clear_running, hr, custody, Custody.State.drop] using hstep
  | some child =>
    simpa [Shared.clear_running, Shared.drop_child, hr, custody, Custody.State.drop] using hstep

/-- The state the tasks share, once the sidecar it guards is gone. -/
theorem clear_running_frame (shared : Shared) :
    shared.clear_running.owner = shared.owner ∧ shared.clear_running.shutdown = shared.shutdown ∧
      shared.clear_running.launched = shared.launched ∧ shared.clear_running.running = none := by
  cases hr : shared.running <;> simp [Shared.clear_running, Shared.drop_child, hr]

variable {from_slice : Bytes → Option Value} {i : Nat} {task : Task}

/-- A task holds the place while it has the lock. -/
theorem holds_task (hi : engine.tasks[i]? = some task) :
    engine.holds (.task i) = task.phase.locked := by
  simp [holds, hi]

/-- A task that waits with the lock owns it, with its child in hand. -/
theorem owner_of_locked (h : Locked engine) (hi : engine.tasks[i]? = some task)
    (hlocked : task.phase.locked = true) : engine.shared.owner = some (.task i) ∧
      engine.custody.hand = some task.phase.child := by
  have howner := (h (.task i)).1 (by rw [holds_task hi, hlocked])
  exact ⟨howner, by simp [custody, howner, in_hand, hi]⟩

/-- A step of a task that is nothing to the custody of the sidecar. -/
theorem custody_outside {shared : Shared} {task' : Task} (h : Locked engine)
    (hi : engine.tasks[i]? = some task) (hout : task.phase.locked = false)
    (hout' : task'.phase.locked = false) (hsame : Task.Same engine.shared shared) :
    let engine' := { engine with shared, tasks := engine.tasks.set i task' }
    Locked engine' ∧ engine'.custody = engine.custody := by
  obtain ⟨admitted, execution, rfl⟩ := hsame
  have hc := changed_task hi { engine.shared with admitted, execution } task'
  rw [hout'] at hc
  obtain ⟨hlocked, hhand⟩ := hc.outside h (by rw [holds_task hi, hout]) rfl
  exact ⟨hlocked, Custody.State.ext rfl hhand rfl rfl rfl⟩

/-- A step of a task that has the lock before and after. -/
theorem custody_inside {shared : Shared} {task' : Task} (h : Locked engine)
    (hi : engine.tasks[i]? = some task) (hin : task.phase.locked = true)
    (hin' : task'.phase.locked = true) (howner : shared.owner = some (.task i)) :
    let engine' := { engine with shared, tasks := engine.tasks.set i task' }
    Locked engine' ∧ engine'.custody.hand = some task'.phase.child := by
  have hc := changed_task hi shared task'
  rw [hin'] at hc
  exact hc.inside h (.inr (owner_of_locked h hi hin).1) howner

/-- A task that fails drops the child in its hand. -/
theorem custody_fail (h : Locked engine) (hi : engine.tasks[i]? = some task) (e : EngineError) :
    let r := task.fail engine.shared e
    let engine' := { engine with shared := r.1, tasks := engine.tasks.set i r.2 }
    Locked engine' ∧ Custody.Steps engine.custody engine'.custody := by
  cases hphase : task.phase.locked with
  | false =>
    have hsame := Task.same_leave engine.shared hphase
    have hout' : Phase.locked { task with phase := .failing e }.phase = false := rfl
    obtain ⟨hlocked, hcustody⟩ := custody_outside h hi hphase hout' hsame
    exact ⟨hlocked, hcustody ▸ .refl⟩
  | true =>
    obtain ⟨howner, hhand⟩ := owner_of_locked h hi hphase
    have hc := changed_task hi (task.leave engine.shared) { task with phase := .failing e }
    obtain ⟨hlocked, hhand'⟩ := hc.back h (.inr howner) (by simp [Task.leave, hphase])
    have hcustody : custody { engine with
        shared := task.leave engine.shared
        tasks := engine.tasks.set i { task with phase := .failing e } } =
          { engine.custody.drop task.phase.child with hand := none } := by
      refine Custody.State.ext ?_ hhand' ?_ ?_ ?_ <;>
        cases hchild : task.phase.child <;> simp [custody, Task.leave, hchild] <;> rfl
    exact ⟨hlocked, .single (hcustody ▸ .release task.phase.child hhand)⟩

/-- An actor that empties the place, with the lock free. -/
theorem Changed.cleared (hc : Changed engine engine' actor false child) (h : Locked engine)
    (hfree : engine.shared.owner = none)
    (hsame : Task.Same engine.shared.clear_running engine'.shared) :
    Locked engine' ∧ Custody.Steps engine.custody engine'.custody := by
  obtain ⟨howner, hshutdown, hlaunched, hrunning⟩ := clear_running_frame engine.shared
  obtain ⟨admitted, execution, hsame⟩ := hsame
  have hfree' : engine'.shared.owner = none := by
    rw [hsame]
    exact howner.trans hfree
  obtain ⟨hlocked, hhand⟩ := hc.back h (.inl hfree) hfree'
  have hnone : engine.custody.hand = none := by simp [custody, hfree]
  refine ⟨hlocked, ?_⟩
  convert Relation.ReflTransGen.single (clear_running_step hfree) using 1
  refine Custody.State.ext ?_ (hhand.trans hnone.symm) ?_ ?_ ?_ <;>
    simp [custody, hsame, hshutdown, hlaunched, hrunning]

/-- A task that finds the sidecar gone, and fails. -/
theorem custody_fail_clear (h : Locked engine) (hi : engine.tasks[i]? = some task)
    (hout : task.phase.locked = false) (hfree : engine.shared.owner = none) (e : EngineError) :
    let r := task.fail engine.shared.clear_running e
    let engine' := { engine with shared := r.1, tasks := engine.tasks.set i r.2 }
    Locked engine' ∧ Custody.Steps engine.custody engine'.custody :=
  (changed_task hi _ { task with phase := .failing e }).cleared h hfree
    (Task.same_leave engine.shared.clear_running hout)

/-- One poll of a task, as steps of the sidecar's custody. -/
theorem polled_custody {r : Shared × Task} (h : Locked engine)
    (hi : engine.tasks[i]? = some task) (hpolled : Task.Polled from_slice i engine.shared task r) :
    let engine' := { engine with shared := r.1, tasks := engine.tasks.set i r.2 }
    Locked engine' ∧ Custody.Steps engine.custody engine'.custody := by
  have hsame : Task.Same engine.shared engine.shared := ⟨_, _, rfl⟩
  -- a task that waits without the lock, before and after
  have houtside : ∀ {shared task'}, task.phase.locked = false → task'.phase.locked = false →
      Task.Same engine.shared shared →
        let engine' := { engine with shared, tasks := engine.tasks.set i task' }
        Locked engine' ∧ Custody.Steps engine.custody engine'.custody := by
    intro shared task' hout hout' hsame
    obtain ⟨hlocked, hcustody⟩ := custody_outside h hi hout hout' hsame
    exact ⟨hlocked, hcustody ▸ .refl⟩
  -- a task that waits with the lock, before and after
  have hinside : ∀ {shared task'}, task.phase.locked = true → task'.phase.locked = true →
      shared.owner = some (.task i) →
      Custody.Steps engine.custody ⟨shared.shutdown, some task'.phase.child, shared.running,
        shared.launched, shared.alive⟩ →
        let engine' := { engine with shared, tasks := engine.tasks.set i task' }
        Locked engine' ∧ Custody.Steps engine.custody engine'.custody := by
    intro shared task' hin hin' howner hsteps
    obtain ⟨hlocked, hhand⟩ := custody_inside h hi hin hin' howner
    refine ⟨hlocked, ?_⟩
    convert hsteps using 1
    exact Custody.State.ext rfl hhand rfl rfl rfl
  have hself : task.phase.locked = true → engine.custody = ⟨engine.shared.shutdown,
      some task.phase.child, engine.shared.running, engine.shared.launched, engine.shared.alive⟩ :=
    fun hin => Custody.State.ext rfl (owner_of_locked h hi hin).2 rfl rfl rfl
  cases hpolled with
  | wait =>
    dsimp only
    rw [set_self hi]
    exact ⟨h, .refl⟩
  | fail e hphase => exact custody_fail h hi e
  | fail_clear e hphase hfree =>
    refine custody_fail_clear h hi ?_ hfree e
    rcases hphase with hphase | hphase <;> rw [hphase] <;> rfl
  | enter hphase => exact houtside (by rw [hphase]; rfl) rfl ⟨_, _, rfl⟩
  | connect hphase => exact houtside (by rw [hphase]; rfl) rfl hsame
  | post hphase => exact houtside (by rw [hphase]; rfl) rfl hsame
  | respond hphase => exact houtside (by rw [hphase]; rfl) rfl hsame
  | report e hphase => exact houtside (by rw [hphase]; rfl) rfl hsame
  | forget e hphase => exact houtside (by rw [hphase]; rfl) rfl hsame
  | consume progress buffer value hphase =>
    have hout : task.phase.locked = false := by rw [hphase]; rfl
    obtain ⟨hsame, hout'⟩ :=
      Task.outside_consume from_slice engine.shared hout progress buffer value
    exact houtside hout hout' hsame
  | send event events after hphase =>
    have hout : task.phase.locked = false := by rw [hphase]; rfl
    have hr := Task.outside_proceed engine.shared
      (show Phase.locked { task with channel := task.channel ++ [Except.ok event] }.phase = false
        from hout) after events
    exact houtside hout hr.2 hr.1
  | begin_launch hphase hstop hfree =>
    obtain ⟨-, hshutdown, hlaunched, hrunning⟩ := clear_running_frame engine.shared
    have hc := changed_task hi { engine.shared.clear_running with owner := some (.task i) }
      { task with phase := .launching 0 }
    obtain ⟨hlocked, hhand⟩ := hc.inside h (.inl hfree) rfl
    have hnone : engine.custody.hand = none := by simp [custody, hfree]
    refine ⟨hlocked, ?_⟩
    have hsteps := (Relation.ReflTransGen.single (clear_running_step hfree)).tail
      (.take hnone rfl (Task.running_of_not_stopped hstop))
    convert hsteps using 1
    exact Custody.State.ext hshutdown hhand hrunning hlaunched rfl
  | launch_again attempt hphase =>
    have hin : task.phase.locked = true := by rw [hphase]; rfl
    refine hinside hin rfl rfl ?_
    rw [hself hin, hphase]
    exact .refl
  | back_off attempt hphase =>
    have hin : task.phase.locked = true := by rw [hphase]; rfl
    refine hinside hin rfl (owner_of_locked h hi hin).1 ?_
    rw [hself hin, hphase]
    exact .refl
  | launch attempt phase hphase hstop hlocked hchild =>
    have hin : task.phase.locked = true := by rw [hphase]; rfl
    refine hinside hin hlocked (owner_of_locked h hi hin).1 ?_
    rw [hself hin, hphase]
    simp only [hchild]
    exact .single (.make rfl (Task.running_of_not_stopped hstop))
  | watch child phase hphase hlocked hchild =>
    have hin : task.phase.locked = true := Phase.locked_of_child hphase
    refine hinside hin hlocked (owner_of_locked h hi hin).1 ?_
    rw [hself hin, hphase]
    simp only [hchild]
    exact .refl
  | ready attempt child hphase hstop =>
    have hin : task.phase.locked = true := by rw [hphase]; rfl
    obtain ⟨howner, hhand⟩ := owner_of_locked h hi hin
    rw [hphase] at hhand
    have hc := changed_task hi { engine.shared with running := some child, owner := none }
      { task with phase := .connecting }
    obtain ⟨hlocked, hhand'⟩ := hc.back h (.inr howner) rfl
    refine ⟨hlocked, ?_⟩
    convert Relation.ReflTransGen.single (Custody.Step.put child hhand) using 1
    exact Custody.State.ext rfl hhand' rfl rfl rfl
  | drop attempt child readiness hphase =>
    have hin : task.phase.locked = true := by rw [hphase]; rfl
    refine hinside hin rfl (owner_of_locked h hi hin).1 ?_
    rw [hself hin, hphase]
    exact .single (.drop (some child) rfl)

/-! ## Calls -/

/-- A call holds the place while it has a child. -/
theorem holds_call {j : Nat} {call : Call} (hj : engine.calls[j]? = some call) :
    engine.holds (.call j) = call.child.isSome := by
  simp [holds, hj]

/-- A call that is without a child before and after. -/
theorem custody_call_outside {j : Nat} {call call' : Call} (h : Locked engine)
    (hj : engine.calls[j]? = some call) (hout : call.child = none) (hout' : call'.child = none) :
    let engine' := { engine with calls := engine.calls.set j call' }
    Locked engine' ∧ Custody.Steps engine.custody engine'.custody := by
  have hc := changed_call hj engine.shared call'
  rw [hout'] at hc
  obtain ⟨hlocked, hhand⟩ := hc.outside h (by rw [holds_call hj, hout]; rfl) rfl
  have hcustody : custody { engine with calls := engine.calls.set j call' } = engine.custody :=
    Custody.State.ext rfl hhand rfl rfl rfl
  exact ⟨hlocked, hcustody ▸ .refl⟩

/-- The end of a shutdown call that has a child, as the call or its caller ends it. -/
theorem custody_call_release {j : Nat} {call' : Call} {child : Child} (h : Locked engine)
    (hj : engine.calls[j]? = some (.shutdown_terminating child)) (hout' : call'.child = none) :
    let engine' := { engine with shared := { engine.shared.drop_child child with owner := none }
                                 calls := engine.calls.set j call' }
    Locked engine' ∧ Custody.Steps engine.custody engine'.custody := by
  have howner := (h (.call j)).1 (by rw [holds_call hj]; rfl)
  have hhand : engine.custody.hand = some (some child) := by
    simp [custody, howner, in_hand, hj, Call.child]
  have hc := changed_call hj { engine.shared.drop_child child with owner := none } call'
  rw [hout'] at hc
  obtain ⟨hlocked, hhand'⟩ := hc.back h (.inr howner) rfl
  refine ⟨hlocked, ?_⟩
  convert Relation.ReflTransGen.single (Custody.Step.release (some child) hhand) using 1
  exact Custody.State.ext rfl hhand' rfl rfl rfl

/-- A shutdown call takes the child away. -/
theorem custody_call_withdraw {j : Nat} {call : Call} {child : Child} (h : Locked engine)
    (hj : engine.calls[j]? = some call) (hfree : engine.shared.owner = none)
    (hrunning : engine.shared.running = some child) :
    let engine' := { engine with
      shared := { engine.shared with running := none, owner := some (.call j) }
      calls := engine.calls.set j (.shutdown_terminating child) }
    Locked engine' ∧ Custody.Steps engine.custody engine'.custody := by
  have hc := changed_call hj { engine.shared with running := none, owner := some (.call j) }
    (.shutdown_terminating child)
  obtain ⟨hlocked, hhand⟩ := hc.inside h (.inl hfree) rfl
  have hnone : engine.custody.hand = none := by simp [custody, hfree]
  refine ⟨hlocked, ?_⟩
  convert Relation.ReflTransGen.single (Custody.Step.withdraw child hnone hrunning) using 1
  exact Custody.State.ext rfl hhand rfl rfl rfl

/-- One poll of a call, as steps of the sidecar's custody. -/
theorem poll_call_custody {j : Nat} {call : Call} (h : Locked engine)
    (hj : engine.calls[j]? = some call) (choice : Choice) :
    let r := poll_call engine.shared j choice call
    let engine' := { engine with shared := r.1, calls := engine.calls.set j r.2 }
    Locked engine' ∧ Custody.Steps engine.custody engine'.custody := by
  unfold poll_call
  split
  · split
    · rename_i hgranted
      have hfree : engine.shared.owner = none := by simp_all
      generalize (engine.shared.running.isSome && _) = ready
      cases ready with
      | true => exact custody_call_outside h hj rfl rfl
      | false =>
        exact (changed_call hj _ (.status_returned false)).cleared h hfree ⟨_, _, rfl⟩
    · exact custody_call_outside h hj rfl rfl
  · split
    · rename_i hgranted
      have hfree : engine.shared.owner = none := by simp_all
      split
      · exact custody_call_outside h hj rfl rfl
      · exact custody_call_withdraw h hj hfree ‹_›
    · exact custody_call_outside h hj rfl rfl
  · split
    · exact custody_call_release h hj rfl
    · dsimp only
      rw [set_self hj]
      exact ⟨h, .refl⟩
  · dsimp only
    rw [set_self hj]
    exact ⟨h, .refl⟩

/-- A call given up by its caller, as steps of the sidecar's custody. -/
theorem abandon_custody {j : Nat} {call : Call} (h : Locked engine)
    (hj : engine.calls[j]? = some call) :
    let r := abandon engine.shared call
    let engine' := { engine with shared := r.1, calls := engine.calls.set j r.2 }
    Locked engine' ∧ Custody.Steps engine.custody engine'.custody := by
  cases call with
  | shutdown_terminating child => exact custody_call_release h hj rfl
  | _ => exact custody_call_outside h hj rfl rfl

/-! ## Acts -/

theorem signal_phase (task : Task) (signal : Signal) : (task.signal signal).phase = task.phase := by
  unfold Task.signal
  repeat' split
  all_goals rfl

/-- An act that changes for no actor whether it has the lock and what it has
    in hand. -/
theorem custody_unmoved (h : Locked engine)
    (hsame : ∀ a, engine'.holds a = engine.holds a ∧ engine'.in_hand a = engine.in_hand a)
    (howner : engine'.shared.owner = engine.shared.owner) :
    Locked engine' ∧ engine'.custody.hand = engine.custody.hand := by
  have hhand : engine'.in_hand = engine.in_hand := funext fun a => (hsame a).2
  refine ⟨fun a => ?_, by rw [custody, custody, howner, hhand]⟩
  rw [howner, (hsame a).1]
  exact h a

/-- A signal changes nothing in what any actor holds. -/
theorem same_signal (hi : engine.tasks[i]? = some task) (signal : Signal) (a : Actor) :
    let engine' := { engine with tasks := engine.tasks.set i (task.signal signal) }
    engine'.holds a = engine.holds a ∧ engine'.in_hand a = engine.in_hand a := by
  have hc := changed_task hi engine.shared (task.signal signal)
  rw [signal_phase] at hc
  by_cases ha : a = .task i
  · subst ha
    exact ⟨hc.holds.trans (holds_task hi).symm, hc.in_hand.trans (by simp [in_hand, hi])⟩
  · exact hc.others a ha

/-- Appending what reads as nothing does. -/
theorem read_append {α β : Type*} (read : Option α → β) (as : List α) {a : α}
    (ha : read (some a) = read none) (k : Nat) : read (as ++ [a])[k]? = read as[k]? := by
  rcases Nat.lt_trichotomy k as.length with hk | rfl | hk
  · rw [List.getElem?_append_left hk]
  · rw [List.getElem?_concat_length, List.getElem?_eq_none (Nat.le_refl _), ha]
  · rw [List.getElem?_eq_none (by simp; omega), List.getElem?_eq_none (by omega)]

/-- A new generation is without the lock, and so is a new call. -/
theorem same_generate (engine : GenerationEngine) (shared : Shared)
    (hlocked : task.phase.locked = false) (a : Actor) :
    let engine' := { engine with shared, tasks := engine.tasks ++ [task] }
    engine'.holds a = engine.holds a ∧ engine'.in_hand a = engine.in_hand a := by
  cases a with
  | call j => exact ⟨rfl, rfl⟩
  | task k =>
    exact ⟨read_append (fun task : Option Task => task.elim false (·.phase.locked)) engine.tasks
        hlocked k,
      read_append (fun task : Option Task => task.bind (·.phase.child)) engine.tasks
        (Phase.child_of_locked hlocked) k⟩

/-- Nor does a new call. -/
theorem same_call (engine : GenerationEngine) (shared : Shared) {call : Call}
    (hchild : call.child = none) (a : Actor) :
    let engine' := { engine with shared, calls := engine.calls ++ [call] }
    engine'.holds a = engine.holds a ∧ engine'.in_hand a = engine.in_hand a := by
  cases a with
  | task i => exact ⟨rfl, rfl⟩
  | call k =>
    exact ⟨read_append (fun call : Option Call => call.elim false (·.child.isSome)) engine.calls
        (by simp [hchild]) k,
      read_append (fun call : Option Call => call.bind Call.child) engine.calls hchild k⟩

/-- Every act of the engine is a few steps of the sidecar's custody. -/
theorem custody_step (from_slice : Bytes → Option Value) (h : Locked engine) (act : Act) :
    Locked (engine.step from_slice act) ∧
      Custody.Steps engine.custody (engine.step from_slice act).custody := by
  -- an act that is nothing to the custody
  have hunmoved : ∀ {engine' : GenerationEngine}, Locked engine' ∧
      engine'.custody.hand = engine.custody.hand → Task.Same engine.shared engine'.shared →
        Locked engine' ∧ Custody.Steps engine.custody engine'.custody := by
    rintro engine' ⟨hlocked, hhand⟩ ⟨admitted, execution, hsame⟩
    have hcustody : engine'.custody = engine.custody := by
      refine Custody.State.ext ?_ hhand ?_ ?_ ?_ <;> rw [custody, hsame] <;> rfl
    exact ⟨hlocked, hcustody ▸ .refl⟩
  cases act with
  | generate request =>
    rw [step]
    unfold generate
    split
    · exact ⟨h, .refl⟩
    split
    · exact ⟨h, .refl⟩
    split
    · exact ⟨h, .refl⟩
    · exact hunmoved (custody_unmoved h (same_generate engine _ rfl) rfl) ⟨_, _, rfl⟩
  | poll i choice =>
    rw [step, with_task]
    split
    · exact ⟨h, .refl⟩
    · exact polled_custody h ‹_› (Task.poll_polled ..)
  | signal i signal =>
    rw [step, with_task]
    split
    · exact ⟨h, .refl⟩
    · exact hunmoved (custody_unmoved h (same_signal ‹_› signal) rfl) ⟨_, _, rfl⟩
  | status => exact hunmoved (custody_unmoved h (same_call engine _ rfl) rfl) ⟨_, _, rfl⟩
  | shutdown =>
    have hsame := same_call engine { engine.shared with shutdown := true }
      (show Call.shutdown_locking.child = none from rfl)
    obtain ⟨hlocked, hhand⟩ := custody_unmoved h hsame rfl
    refine ⟨hlocked, ?_⟩
    convert Relation.ReflTransGen.single (show Custody.Step engine.custody _ from .stop) using 1
    exact Custody.State.ext rfl hhand rfl rfl rfl
  | poll_call j choice =>
    rw [step, with_call]
    split
    · exact ⟨h, .refl⟩
    · exact poll_call_custody h ‹_› choice
  | abandon j =>
    rw [step, with_call]
    split
    · exact ⟨h, .refl⟩
    · exact abandon_custody h ‹_›
  | exit child => exact ⟨h, .single (.expire child)⟩

/-! ## Runs -/

/-- What a shutdown call has done so far: it has stopped the engine and, once
    it has returned, closed the custody of the sidecar. -/
def Answers (self : GenerationEngine) : Call → Prop
  | .shutdown_locking | .shutdown_terminating _ => self.shared.shutdown = true
  | .shutdown_returned => Custody.Closed self.custody
  | _ => True

/-- The invariant of an engine. -/
structure Inv (engine : GenerationEngine) : Prop where
  locked : Locked engine
  owned : Custody.Owned engine.custody
  answers : ∀ call ∈ engine.calls, engine.Answers call

/-- What a call has done stays done. -/
theorem answers_steps {call : Call} (h : engine.Answers call)
    (hsteps : Custody.Steps engine.custody engine'.custody) : engine'.Answers call := by
  cases call with
  | shutdown_locking =>
    exact Custody.stopped_steps (show engine.custody.stopped = true from h) hsteps
  | shutdown_terminating child =>
    exact Custody.stopped_steps (show engine.custody.stopped = true from h) hsteps
  | shutdown_returned => exact (Custody.closed_steps h hsteps).1
  | _ => trivial

/-- A poll of a call makes the call answer for itself. -/
theorem answers_poll_call {j : Nat} {call : Call} (h : Inv engine)
    (hj : engine.calls[j]? = some call) (choice : Choice) :
    let r := poll_call engine.shared j choice call
    Answers { engine with shared := r.1, calls := engine.calls.set j r.2 } r.2 := by
  have hanswers := h.answers call (List.mem_of_getElem? hj)
  obtain ⟨hlocked, hsteps⟩ := poll_call_custody h.locked hj choice
  have howned := Custody.owned_steps h.owned hsteps
  cases call with
  | status_locking =>
    simp only [poll_call]
    split <;> trivial
  | shutdown_locking =>
    revert howned
    simp only [poll_call]
    split
    · rename_i hgranted
      have hfree : engine.shared.owner = none := by simp_all
      split
      · exact fun howned => howned.closed hanswers (by simp [custody, hfree]) ‹_›
      · exact fun _ => hanswers
    · exact fun _ => hanswers
  | shutdown_terminating child =>
    have howner := (h.locked (.call j)).1 (by rw [holds_call hj]; rfl)
    have hempty : engine.shared.running = none := h.owned.exclusive (by simp [custody, howner])
    revert howned
    simp only [poll_call]
    split
    · exact fun howned => howned.closed hanswers rfl hempty
    · exact fun _ => hanswers
  | shutdown_returned => exact (Custody.closed_steps hanswers hsteps).1
  | _ => trivial

/-- A call that is dropped drops its child. -/
theorem answers_abandon {j : Nat} {call : Call} (h : Inv engine)
    (hj : engine.calls[j]? = some call) :
    let r := abandon engine.shared call
    Answers { engine with shared := r.1, calls := engine.calls.set j r.2 } r.2 := by
  have hanswers := h.answers call (List.mem_of_getElem? hj)
  cases call with
  | shutdown_returned =>
    exact (Custody.closed_steps hanswers (abandon_custody h.locked hj).2).1
  | _ => trivial

theorem calls_with_task (f : Task → Shared × Task) :
    (engine.with_task i f).calls = engine.calls := by
  unfold with_task
  split <;> rfl

theorem calls_generate (request : Except EngineError NormalizedRequest) :
    (engine.generate request).1.calls = engine.calls := by
  unfold generate
  repeat' split
  all_goals rfl

/-- Every act keeps the invariant. -/
theorem inv_step (from_slice : Bytes → Option Value) (h : Inv engine) (act : Act) :
    Inv (engine.step from_slice act) := by
  obtain ⟨hlocked, hsteps⟩ := custody_step from_slice h.locked act
  refine ⟨hlocked, Custody.owned_steps h.owned hsteps, ?_⟩
  -- Calls that do not move are answered as before.
  have hold : ∀ call ∈ engine.calls, (engine.step from_slice act).Answers call :=
    fun call hmem => answers_steps (h.answers call hmem) hsteps
  cases act with
  | generate request => rwa [step, calls_generate]
  | poll i choice => rwa [step, calls_with_task]
  | signal i signal => rwa [step, calls_with_task]
  | status =>
    intro call hmem
    rcases List.mem_append.1 hmem with hmem | hmem
    · exact hold call hmem
    · rw [List.mem_singleton.1 hmem]
      trivial
  | shutdown =>
    intro call hmem
    rcases List.mem_append.1 hmem with hmem | hmem
    · exact hold call hmem
    · rw [List.mem_singleton.1 hmem]
      rfl
  | poll_call j choice =>
    revert hold
    rw [step, with_call]
    split
    · exact id
    · intro hold call hmem
      rcases List.mem_or_eq_of_mem_set hmem with hmem | rfl
      · exact hold call hmem
      · exact answers_poll_call h ‹_› choice
  | abandon j =>
    revert hold
    rw [step, with_call]
    split
    · exact id
    · intro hold call hmem
      rcases List.mem_or_eq_of_mem_set hmem with hmem | rfl
      · exact hold call hmem
      · exact answers_abandon h ‹_›
  | exit child => exact hold

/-- What the start of an engine makes. -/
theorem start_eq_ok {config : EngineConfig} {attempt : Nat}
    (h : start config attempt = .ok engine) : engine =
      { config, shared := { admitted := config.max_concurrent + config.queue_capacity
                            execution := config.max_concurrent, running := some attempt
                            launched := attempt + 1, alive := [attempt] } } ∧
      config.validate = .ok () := by
  unfold start at h
  cases hvalid : config.validate with
  | error e =>
    rw [hvalid] at h
    cases h
  | ok =>
    rw [hvalid] at h
    cases hadd : usize_checked_add config.max_concurrent config.queue_capacity with
    | none =>
      rw [hadd] at h
      cases h
    | some admitted =>
      simp only [hadd, Option.elim_some, bind, Except.bind] at h
      split at h
      · cases h
      · cases h
        obtain rfl : config.max_concurrent + config.queue_capacity = admitted := by
          unfold usize_checked_add at hadd
          split at hadd
          · exact Option.some.inj hadd
          · cases hadd
        exact ⟨rfl, rfl⟩

/-- A new engine meets the invariant. -/
theorem inv_start {config : EngineConfig} {attempt : Nat}
    (h : start config attempt = .ok engine) : Inv engine := by
  obtain ⟨rfl, -⟩ := start_eq_ok h
  refine ⟨fun actor => ?_, ⟨by simp [custody], ?_, ?_⟩, by simp⟩
  · cases actor <;> simp [holds]
  · simp [custody, Custody.State.keeper]
  · simp [custody, Custody.State.keeper]

/-- Nothing of the sidecar is left, and nothing will be, if it was launched
    `launched` times. -/
structure Gone (engine : GenerationEngine) (launched : Nat) : Prop where
  running : engine.shared.running = none
  alive : engine.shared.alive = []
  in_hand : ∀ actor, engine.in_hand actor = none
  launched : engine.shared.launched = launched

/-- At most one sidecar is alive, the one in `lifecycle.running` is the last
    one launched, and after a shutdown call has returned there is none at any
    time. -/
structure SingleSidecar (from_slice : Bytes → Option Value) (engine : GenerationEngine) : Prop where
  single : engine.shared.alive.length ≤ 1
  latest : ∀ child, engine.shared.running = some child → child + 1 = engine.shared.launched
  finished : .shutdown_returned ∈ engine.calls → ∀ acts,
    Gone (run (step from_slice) engine acts) engine.shared.launched

/-- Once custody is closed, all children are gone. -/
theorem Inv.gone (h : Inv engine) (hclosed : Custody.Closed engine.custody) :
    Gone engine engine.shared.launched := by
  have hfree : engine.shared.owner = none := by simpa [custody] using hclosed.free
  refine ⟨hclosed.empty, hclosed.dead, fun actor => ?_, rfl⟩
  have hout : engine.holds actor = false := by
    simpa [hfree] using h.locked actor
  cases actor with
  | task i =>
    cases hi : engine.tasks[i]? with
    | none => simp [in_hand, hi]
    | some task =>
      have hphase : task.phase.locked = false := by simpa [holds, hi] using hout
      simpa [in_hand, hi] using Phase.child_of_locked hphase
  | call j =>
    cases hj : engine.calls[j]? with
    | none => simp [in_hand, hj]
    | some call => simpa [holds, in_hand, hj] using hout

/-- Once closed, the custody of the sidecar stays closed. -/
theorem gone_run (from_slice : Bytes → Option Value) (h : Inv engine)
    (hclosed : Custody.Closed engine.custody) (acts : List Act) :
    Gone (run (step from_slice) engine acts) engine.shared.launched := by
  have hstep : ∀ s act, (Inv s ∧ Custody.Closed s.custody ∧ s.custody.made = engine.custody.made) →
      Inv (s.step from_slice act) ∧ Custody.Closed (s.step from_slice act).custody ∧
        (s.step from_slice act).custody.made = engine.custody.made := by
    rintro s act ⟨hinv, hclosed, hmade⟩
    have hsteps := (custody_step from_slice hinv.locked act).2
    obtain ⟨hclosed', hmade'⟩ := Custody.closed_steps hclosed hsteps
    exact ⟨inv_step from_slice hinv act, hclosed', hmade'.trans hmade⟩
  obtain ⟨hinv, hclosed', hmade⟩ := invariant hstep ⟨h, hclosed, rfl⟩ acts
  have hgone := hinv.gone hclosed'
  rwa [show (run (step from_slice) engine acts).shared.launched = engine.shared.launched
    from hmade] at hgone

/-- The invariant gives the result. -/
theorem Inv.one_child (from_slice : Bytes → Option Value) (h : Inv engine) :
    SingleSidecar from_slice engine := by
  refine ⟨h.owned.length_le, fun child hrunning => ?_, fun hmem acts => ?_⟩
  · have hfree : engine.custody.hand = none := by
      by_contra hhand
      exact absurd (hrunning.symm.trans (h.owned.exclusive hhand)) (by simp)
    exact h.owned.latest child (by rwa [Custody.State.keeper, hfree])
  · exact gone_run from_slice h (h.answers _ hmem) acts

/-- However the acts on a started engine interleave, it has a single sidecar. -/
theorem single_sidecar (from_slice : Bytes → Option Value) {config : EngineConfig} {attempt : Nat}
    (hstart : start config attempt = .ok engine) (acts : List Act) :
    SingleSidecar from_slice (run (step from_slice) engine acts) := by
  have hstep : ∀ (s : GenerationEngine) act, Inv s → Inv (s.step from_slice act) :=
    fun _ act h => inv_step from_slice h act
  exact (invariant hstep (inv_start hstart) acts).one_child from_slice

theorem start_of_fits {config : EngineConfig} {admitted : Nat} (attempt : Nat)
    (hvalid : config.validate = .ok ())
    (hadd : usize_checked_add config.max_concurrent config.queue_capacity = some admitted)
    (hfits : (startup_deadline config).isNone = false) :
    start config attempt = .ok
      { config, shared := { admitted, execution := config.max_concurrent, running := some attempt
                            launched := attempt + 1, alive := [attempt] } } := by
  rw [start, hvalid, hadd, hfits]
  rfl

/-- A sidecar that has exited, the launch of another for a generation, and one
    shutdown call, from its start to its return. -/
theorem single_sidecar_shutdown :
    let config : EngineConfig :=
      { max_prompt_bytes := 8192, max_messages := 16, max_output_tokens := 64, queue_capacity := 4
        max_concurrent := 1, event_capacity := 8, startup_timeout := .from_secs 1
        shutdown_timeout := .from_secs 1 }
    let choice : Choice :=
      { permit := true, lock := true, exited := .ok false, prepared := .ok ()
        launch := some (.ok ()), probe := some true, elapsed := false, late := false
        terminated := true, remaining := none, response := none, next := none }
    let acts := [.exit 0, .generate (.ok ⟨.Completion "", 1, 0, 1, none, []⟩), .poll 0 choice,
      .poll 0 { choice with exited := .ok true }, .poll 0 choice, .poll 0 choice, .shutdown,
      .poll_call 0 choice, .poll_call 0 choice]
    ∃ engine, start config 0 = .ok engine ∧ SingleSidecar (fun _ => none)
      (run (step fun _ => none) engine acts) ∧
      (run (step fun _ => none) engine (acts.take 6)).shared.running = some 1 ∧
      .shutdown_returned ∈ (run (step fun _ => none) engine acts).calls := by
  intro config choice acts
  have hstart := start_of_fits 0 (show config.validate = .ok () from rfl) rfl (by decide)
  exact ⟨_, hstart, single_sidecar _ hstart acts, by decide +kernel, by decide +kernel⟩

end GenerationEngine

end Inferences.Engine
