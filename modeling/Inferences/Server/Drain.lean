import Inferences.Server.Admission

/-!
# The end of the server

When the shutdown token stops `serve`, the workload is cleaned up once, after
the gate is stopped and its stop token cancelled; no admitted request is live
then, unless the drain was forced (`graceful_drain`). What the gate is when the
cleanup begins follows from how the drain ended (`Closing`).

The deadline bounds the waits, not the work: a cleanup that completes in its
first poll counts as completed whatever the time is (`graceful_drain_late`).
-/

namespace Inferences.Server

open Json Http Permits Schedule

/-! ## The gate in the hands of the requests -/

/-- A request enters the gate, leaves it, or does neither. -/
inductive Passes (gate : ShutdownGate) : ShutdownGate → Prop
  | stay : Passes gate gate
  | enter (gate' : ShutdownGate) (h : gate.try_enter = some gate') : Passes gate gate'
  | leave : Passes gate gate.leave

/-- A request that leaves is one step of the gate. -/
theorem passes_leave (request : Request) (shared : Shared) :
    Passes shared.gate (request.leave shared).gate := by
  rw [Request.leave]
  cases request.phase.admitted
  · exact .stay
  · exact .leave

/-- A move of a request is one step of the gate, or none. -/
theorem passes_polled {parsers : Parsers} {limits : ServerLimits} {shared : Shared}
    {request : Request} {choice : Choice} {r : Shared × Request}
    (h : Polled parsers limits shared request choice r) : Passes shared.gate r.1.gate := by
  cases h with
  | enter self' gate _ _ hgate => exact .enter gate hgate
  | fail => exact passes_leave request shared
  | finish => exact passes_leave request shared
  | _ => exact .stay

/-- A request that is dropped leaves, if it had entered. -/
theorem passes_drop (request : Request) (shared : Shared) :
    Passes shared.gate (request.drop shared).1.gate := by
  unfold Request.drop
  split
  · exact .stay
  · exact .stay
  · exact .stay
  · exact passes_leave request shared

variable {gate gate' : ShutdownGate}

/-- A request keeps the gate sound. -/
theorem Passes.sound (h : Passes gate gate') (hsound : gate.Sound) : gate'.Sound := by
  cases h with
  | stay => exact hsound
  | enter gate' henter => exact hsound.try_enter henter
  | leave => exact hsound.leave

/-- The outcome of a drain stays. -/
theorem Passes.stopped {outcome : DrainOutcome} (h : Passes gate gate')
    (hphase : gate.phase = .Stopped outcome) : gate'.phase = .Stopped outcome := by
  cases h with
  | stay => exact hphase
  | enter gate' henter =>
    rw [ShutdownGate.try_enter_of_stopped hphase] at henter
    cases henter
  | leave => exact ShutdownGate.stopped_leave hphase

namespace InferenceServer

/-! ## What holds of a server at any time -/

/-- What holds when the cleanup is polled for the first time, of a server that
    its shutdown token has stopped. -/
structure FirstPoll.Sound (first : FirstPoll) : Prop where
  stopped : first.by_token = true → first.stopped = true
  live : first.by_token = true → first.outcome = .Graceful → first.live = 0
  force : first.by_token = true →
    (first.force = true ↔ first.outcome = .Forced ∨ first.http_timed_out = true)

/-- The gate is stopped, as the drain has ended. -/
def Closing (gate : ShutdownGate) (outcome : DrainOutcome) : Prop :=
  gate.stopped = true ∧ (outcome = .Graceful → gate.phase = .Stopped .Graceful)

/-- What holds of the cleanup, by where `serve` waits. -/
def CleanupSound (server : InferenceServer) : Prop :=
  match server.serve with
  | .running | .draining .. => server.cleanup = {} ∧ server.process ≠ .Stopped
  | .closing _ outcome => server.cleanup = {} ∧ server.process ≠ .Stopped ∧
      Closing server.shared.gate outcome
  | .cleaning _ forced result => server.process ≠ .Stopped ∧ server.shared.gate.stopped = true ∧
      server.cleanup.started = 1 ∧ 0 < server.cleanup.polled ∧
      server.cleanup.completed = none ∧
      ∃ first, server.cleanup.first = some first ∧ FirstPoll.Sound first ∧
        (first.by_token = true → forced = first.force ∧ result = .ok ())
  | .returned result => server.shared.gate.stopped = true ∧
      server.cleanup.started = 1 ∧ 0 < server.cleanup.polled ∧
      ∃ first completed, server.cleanup.first = some first ∧ FirstPoll.Sound first ∧
        server.cleanup.completed = some completed ∧
        (first.by_token = true → result =
          if first.force then .error .http_timed_out
          else if completed then .ok () else .error .workload_timed_out)

/-- The invariant of a server. -/
structure Inv (limits : ServerLimits) (server : InferenceServer) : Prop where
  accounts : Accounts limits server
  gate : server.shared.gate.Sound
  cleanup : CleanupSound server

variable {limits : ServerLimits} {server : InferenceServer}

/-- What a request does to the server leaves the cleanup alone. -/
theorem CleanupSound.passes {shared : Shared} {requests : List Request} (h : CleanupSound server)
    (hsound : server.shared.gate.Sound) (hpasses : Passes server.shared.gate shared.gate) :
    CleanupSound { server with shared, requests } := by
  have hstopped (hs : server.shared.gate.stopped = true) : shared.gate.stopped = true := by
    obtain ⟨outcome, hphase⟩ := hsound.stopped.1 hs
    exact (hpasses.sound hsound).stopped.2 ⟨outcome, hpasses.stopped hphase⟩
  unfold CleanupSound at h ⊢
  cases hserve : server.serve with
  | running => rw [hserve] at h; exact h
  | draining => rw [hserve] at h; exact h
  | closing deadline outcome =>
    rw [hserve] at h
    exact ⟨h.1, h.2.1, hstopped h.2.2.1, fun ho => hpasses.stopped (h.2.2.2 ho)⟩
  | cleaning deadline forced result =>
    rw [hserve] at h
    exact ⟨h.1, hstopped h.2.1, h.2.2⟩
  | returned result =>
    rw [hserve] at h
    exact ⟨hstopped h.1, h.2⟩

/-- The end of the cleanup. -/
theorem cleanupSound_stop {forced completed : Bool} {result : Except ServeError Unit}
    (hgate : server.shared.gate.stopped = true) (hstarted : server.cleanup.started = 1)
    (hpolled : 0 < server.cleanup.polled) {first : FirstPoll}
    (hfirst : server.cleanup.first = some first) (hsound : FirstPoll.Sound first)
    (hforced : first.by_token = true → forced = first.force ∧ result = .ok ()) :
    CleanupSound (server.stop forced result completed) := by
  refine ⟨hgate, hstarted, hpolled, first, completed, hfirst, hsound, rfl, fun htoken => ?_⟩
  obtain ⟨rfl, rfl⟩ := hforced htoken
  rfl

/-- The first poll of the cleanup. -/
theorem cleanupSound_poll_workload_shutdown {deadline : Nat} {by_token : Bool}
    {outcome : DrainOutcome} {http_timed_out : Bool} {result : Except ServeError Unit}
    {choice : ServeChoice} (hcleanup : server.cleanup = {}) (hprocess : server.process ≠ .Stopped)
    (hsound : server.shared.gate.Sound)
    (hactive : server.shared.gate.active = server.requests.countP (·.phase.admitted))
    (htoken : by_token = true → Closing server.shared.gate outcome ∧ result = .ok ()) :
    CleanupSound (server.poll_workload_shutdown deadline by_token outcome http_timed_out result
      choice) := by
  unfold poll_workload_shutdown
  dsimp only
  -- The gate is stopped by now, and nothing is live after a graceful drain.
  have hstopped (forced : Bool) : (if forced || !by_token then server.shared.gate.stop_now
      else server.shared.gate).stopped = true := by
    cases forced with
    | true => rfl
    | false =>
      cases hb : by_token with
      | false => rfl
      | true => exact (htoken hb).1.1
  have hlive : by_token = true → outcome = .Graceful →
      server.requests.countP (·.phase.admitted) = 0 := by
    intro hb ho
    rw [← hactive]
    exact hsound.drained ((htoken hb).1.2 ho)
  have hforce : by_token = true → ((by_token && (outcome = .Forced || http_timed_out)) = true ↔
      outcome = .Forced ∨ http_timed_out = true) := by
    rintro rfl
    simp
  have hstart : server.cleanup.started + 1 = 1 ∧ server.cleanup.polled + 1 = 1 ∧
      server.cleanup.completed = none := by
    rw [hcleanup]
    exact ⟨rfl, rfl, rfl⟩
  split
  · exact cleanupSound_stop (hstopped _) hstart.1 (Nat.succ_pos _) rfl
      ⟨fun _ => hstopped _, hlive, hforce⟩ fun hb => ⟨rfl, (htoken hb).2⟩
  split
  · exact cleanupSound_stop (hstopped _) hstart.1 (Nat.succ_pos _) rfl
      ⟨fun _ => hstopped _, hlive, hforce⟩ fun hb => ⟨rfl, (htoken hb).2⟩
  · exact ⟨hprocess, hstopped _, hstart.1, Nat.succ_pos _, hstart.2.2, _, rfl,
      ⟨fun _ => hstopped _, hlive, hforce⟩, fun hb => ⟨rfl, (htoken hb).2⟩⟩

/-- A drain that is over leaves the gate as its outcome says. -/
theorem closing_of_stopped {gate : ShutdownGate} (hsound : gate.Sound)
    (hstopped : gate.stopped = true) : Closing gate gate.terminal_outcome := by
  refine ⟨hstopped, fun ho => ?_⟩
  obtain ⟨outcome, hphase⟩ := hsound.stopped.1 hstopped
  rw [ShutdownGate.terminal_outcome] at ho
  rw [hphase] at ho ⊢
  exact congrArg _ ho

/-- A drain with no request to wait for is over at once. -/
theorem closing_begin_drain {gate : ShutdownGate} (hsound : gate.Sound) {outcome : DrainOutcome}
    (h : gate.begin_drain.2 = some outcome) : Closing gate.begin_drain.1 outcome := by
  have hphase := ShutdownGate.begin_drain_eq_some h
  refine ⟨hsound.begin_drain.stopped.2 ⟨outcome, hphase⟩, fun ho => ?_⟩
  rw [hphase, ho]

/-- A poll of the shutdown keeps what is known of the cleanup. -/
theorem cleanupSound_poll_serve (h : Inv limits server) (choice : ServeChoice) :
    CleanupSound (server.poll_serve choice) := by
  have hcleanup := h.cleanup
  rw [CleanupSound] at hcleanup
  unfold poll_serve
  cases hserve : server.serve with
  | running =>
    rw [hserve] at hcleanup
    dsimp only at hcleanup ⊢
    split
    · unfold CleanupSound
      -- The drain begins; with no request in it, it is over at once.
      cases hover : server.shared.gate.begin_drain.2 with
      | none => exact ⟨hcleanup.1, by simp⟩
      | some outcome =>
        exact ⟨hcleanup.1, by simp, closing_begin_drain h.gate hover⟩
    · split
      · exact cleanupSound_poll_workload_shutdown hcleanup.1 (by simp) h.gate h.accounts.active
          (by simp)
      · exact h.cleanup
  | draining deadline drain_deadline =>
    rw [hserve] at hcleanup
    dsimp only at hcleanup ⊢
    split
    · rename_i hstopped
      exact ⟨hcleanup.1, hcleanup.2, closing_of_stopped h.gate hstopped⟩
    split
    · exact ⟨hcleanup.1, hcleanup.2, rfl, by simp⟩
    · exact h.cleanup
  | closing deadline outcome =>
    rw [hserve] at hcleanup
    dsimp only at hcleanup ⊢
    split
    · exact cleanupSound_poll_workload_shutdown hcleanup.1 hcleanup.2.1 h.gate h.accounts.active
        fun _ => ⟨hcleanup.2.2, rfl⟩
    split
    · exact cleanupSound_poll_workload_shutdown hcleanup.1 hcleanup.2.1 h.gate h.accounts.active
        fun _ => ⟨hcleanup.2.2, rfl⟩
    · exact h.cleanup
  | cleaning deadline forced result =>
    rw [hserve] at hcleanup
    -- The first poll was made; only the end of the cleanup is open.
    obtain ⟨hprocess, hgate, hstarted, hpolled, hcompleted, first, hfirst, hsound, hforced⟩ :=
      hcleanup
    dsimp only
    split
    · exact cleanupSound_stop hgate hstarted (Nat.succ_pos _) hfirst hsound hforced
    split
    · exact cleanupSound_stop hgate hstarted (Nat.succ_pos _) hfirst hsound hforced
    · exact ⟨hprocess, hgate, hstarted, Nat.succ_pos _, hcompleted, first, hfirst, hsound, hforced⟩
  | returned result => exact h.cleanup

/-- It keeps the gate sound. -/
theorem sound_poll_serve (h : server.shared.gate.Sound) (choice : ServeChoice) :
    (server.poll_serve choice).shared.gate.Sound := by
  have hgate {gate : ShutdownGate} (hs : gate.Sound) (b : Bool) :
      (if b then gate.stop_now else gate).Sound := by
    cases b
    · exact hs
    · exact hs.stop_now
  have hshutdown (server : InferenceServer) (hs : server.shared.gate.Sound) (deadline : Nat)
      (by_token : Bool) (outcome : DrainOutcome) (http_timed_out : Bool)
      (result : Except ServeError Unit) :
      (server.poll_workload_shutdown deadline by_token outcome http_timed_out result
        choice).shared.gate.Sound := by
    unfold poll_workload_shutdown
    dsimp only
    split
    · exact hgate hs _
    split
    · exact hgate hs _
    · exact hgate hs _
  unfold poll_serve
  split
  · split
    · exact h.begin_drain
    · split
      · exact hshutdown { server with process := .Draining } h ..
      · exact h
  · split
    · exact h
    split
    · exact h.stop_now
    · exact h
  · split
    · exact hshutdown _ h ..
    split
    · exact hshutdown _ h ..
    · exact h
  · dsimp only
    split
    · exact h
    split
    · exact h
    · exact h
  · exact h

/-- Every act keeps the invariant. -/
theorem inv_step (parsers : Parsers) (h : Inv limits server) (act : Act) :
    Inv limits (server.step parsers act) := by
  have haccounts := accounts_step parsers h.accounts act
  -- A step of a request passes the gate, or does not touch it.
  have hrequest (i : Nat) (step : Request → Shared × Request)
      (hpasses : ∀ request, Passes server.shared.gate (step request).1.gate) :
      (server.with_request i step).shared.gate.Sound ∧
        CleanupSound (server.with_request i step) := by
    unfold with_request
    split
    · exact ⟨h.gate, h.cleanup⟩
    · rename_i request hi
      exact ⟨(hpasses request).sound h.gate, h.cleanup.passes h.gate (hpasses request)⟩
  cases act with
  | arrive is_mcp headers upload => exact ⟨haccounts, h.gate, h.cleanup.passes h.gate .stay⟩
  | poll i choice =>
    obtain ⟨hgate, hcleanup⟩ := hrequest i _ fun request => passes_polled
      (poll_polled parsers server.limits request server.shared choice)
    exact ⟨haccounts, hgate, hcleanup⟩
  | drop i =>
    obtain ⟨hgate, hcleanup⟩ := hrequest i _ fun request => passes_drop request server.shared
    exact ⟨haccounts, hgate, hcleanup⟩
  | serve choice =>
    exact ⟨haccounts, sound_poll_serve h.gate choice, cleanupSound_poll_serve h choice⟩
  | tick time => exact ⟨haccounts, h.gate, h.cleanup⟩

/-- A new server meets the invariant. -/
theorem inv_with_limits (limits : ServerLimits) : Inv limits (with_limits limits) where
  accounts := accounts_with_limits limits
  gate := ⟨by simp [with_limits], by simp [with_limits], by simp [with_limits]⟩
  cleanup := ⟨rfl, by simp [with_limits]⟩

/-! ## The drain -/

/-- How a server ends that its shutdown token has stopped: when the cleanup is
    first polled, the stop token is cancelled, and no admitted request is live
    unless the drain was forced; then the force token is cancelled, and `serve`
    returns that it has timed out. The cleanup is started once, and polled;
    nothing is admitted from then on. `serve` succeeds only when the drain was
    graceful, the server did not time out and the cleanup was completed; and
    the process counts as stopped only once the cleanup was completed or
    abandoned. -/
structure GracefulDrain (server : InferenceServer) : Prop where
  stopped : ∀ first, server.cleanup.first = some first → first.by_token = true →
    first.stopped = true
  live : ∀ first, server.cleanup.first = some first → first.by_token = true →
    first.live = 0 ∨ first.outcome = .Forced ∧ first.force = true ∧
      ∀ result, server.serve = .returned result → result = .error .http_timed_out
  once : server.cleanup.started ≤ 1 ∧ ∀ result, server.serve = .returned result →
    server.cleanup.started = 1 ∧ 0 < server.cleanup.polled
  closed : server.cleanup.first.isSome → server.shared.gate.try_enter = none
  succeeded : ∀ first, server.cleanup.first = some first → first.by_token = true →
    server.serve = .returned (.ok ()) → first.outcome = .Graceful ∧
      first.http_timed_out = false ∧ server.cleanup.completed = some true
  published : server.process = .Stopped → server.cleanup.completed.isSome

/-- `serve` succeeds only after a graceful drain and a whole cleanup. -/
theorem FirstPoll.Sound.of_ok {first : FirstPoll} {completed : Bool} (h : FirstPoll.Sound first)
    (hb : first.by_token = true) (hok : (if first.force then .error .http_timed_out
      else if completed then .ok () else .error .workload_timed_out : Except ServeError Unit) =
        .ok ()) :
    first.outcome = .Graceful ∧ first.http_timed_out = false ∧ completed = true := by
  cases hforce : first.force with
  | true => simp [hforce] at hok
  | false =>
    have hunforced : ¬ (first.outcome = .Forced ∨ first.http_timed_out = true) := by
      rw [← h.force hb, hforce]
      exact Bool.false_ne_true
    rw [hforce, if_neg Bool.false_ne_true] at hok
    obtain ⟨hgraceful, hintime⟩ := not_or.1 hunforced
    refine ⟨?_, Bool.eq_false_iff.2 hintime, ?_⟩
    · cases ho : first.outcome with
      | Graceful => rfl
      | Forced => exact absurd ho hgraceful
    · cases completed with
      | true => rfl
      | false => simp at hok

/-- The invariant gives the result. -/
theorem Inv.graceful (h : Inv limits server) : GracefulDrain server := by
  have hcleanup := h.cleanup
  have hnothing (hempty : server.cleanup = {}) : server.cleanup.started ≤ 1 ∧
      server.cleanup.first = none := by
    rw [hempty]
    exact ⟨Nat.zero_le 1, rfl⟩
  -- Before the cleanup begins there is nothing to say.
  have hbefore (hempty : server.cleanup = {}) (hprocess : server.process ≠ .Stopped)
      (hserve : ∀ result, server.serve ≠ .returned result) : GracefulDrain server := by
    obtain ⟨hstarted, hfirst⟩ := hnothing hempty
    refine ⟨?_, ?_, ⟨hstarted, ?_⟩, ?_, ?_, fun hs => absurd hs hprocess⟩
    · intro first hf
      rw [hfirst] at hf
      cases hf
    · intro first hf
      rw [hfirst] at hf
      cases hf
    · exact fun result hr => absurd hr (hserve result)
    · intro hf
      rw [hfirst] at hf
      cases hf
    · exact fun first _ _ hr => absurd hr (hserve _)
  rw [CleanupSound] at hcleanup
  cases hserve : server.serve with
  | running =>
    rw [hserve] at hcleanup
    exact hbefore hcleanup.1 hcleanup.2 (by simp [hserve])
  | draining deadline drain_deadline =>
    rw [hserve] at hcleanup
    exact hbefore hcleanup.1 hcleanup.2 (by simp [hserve])
  | closing deadline outcome =>
    rw [hserve] at hcleanup
    exact hbefore hcleanup.1 hcleanup.2.1 (by simp [hserve])
  | cleaning deadline forced result =>
    rw [hserve] at hcleanup
    obtain ⟨hprocess, hgate, hstarted, hpolled, hcompleted, first, hfirst, hsound, hforced⟩ :=
      hcleanup
    refine ⟨?_, ?_, ⟨hstarted.le, ?_⟩, ?_, ?_, fun hs => absurd hs hprocess⟩
    · intro first' hf
      obtain rfl : first = first' := Option.some.inj (hfirst.symm.trans hf)
      exact hsound.stopped
    · intro first' hf hb
      obtain rfl : first = first' := Option.some.inj (hfirst.symm.trans hf)
      cases ho : first.outcome with
      | Graceful => exact .inl (hsound.live hb ho)
      | Forced => exact .inr ⟨rfl, (hsound.force hb).2 (.inl ho), by simp [hserve]⟩
    · simp [hserve]
    · exact fun _ => h.gate.try_enter_of_stopped_token hgate
    · simp [hserve]
  | returned result =>
    rw [hserve] at hcleanup
    obtain ⟨hgate, hstarted, hpolled, first, completed, hfirst, hsound, hcompleted, hresult⟩ :=
      hcleanup
    refine ⟨?_, ?_, ⟨hstarted.le, fun _ _ => ⟨hstarted, hpolled⟩⟩, ?_, ?_, ?_⟩
    · intro first' hf
      obtain rfl : first = first' := Option.some.inj (hfirst.symm.trans hf)
      exact hsound.stopped
    · intro first' hf hb
      obtain rfl : first = first' := Option.some.inj (hfirst.symm.trans hf)
      cases ho : first.outcome with
      | Graceful => exact .inl (hsound.live hb ho)
      | Forced =>
        have hforce : first.force = true := (hsound.force hb).2 (.inl ho)
        refine .inr ⟨rfl, hforce, fun result' hr => ?_⟩
        obtain rfl : result = result' := ServePhase.returned.inj (hserve.symm.trans hr)
        rw [hresult hb, if_pos hforce]
    · exact fun _ => h.gate.try_enter_of_stopped_token hgate
    · intro first' hf hb hr
      obtain rfl : first = first' := Option.some.inj (hfirst.symm.trans hf)
      have hok : result = .ok () := ServePhase.returned.inj (hserve.symm.trans hr)
      rw [hresult hb] at hok
      obtain ⟨hgraceful, hintime, rfl⟩ := hsound.of_ok hb hok
      exact ⟨hgraceful, hintime, hcompleted⟩
    · exact fun _ => Option.isSome_of_mem hcompleted

/-- A drain is as it should be, whatever the requests and the cleanup do. -/
theorem graceful_drain (parsers : Parsers) (limits : ServerLimits) (acts : List Act) :
    GracefulDrain (run (step parsers) (with_limits limits) acts) := by
  have hstep : ∀ (s : InferenceServer) act, Inv limits s → Inv limits (s.step parsers act) :=
    fun _ act h => inv_step parsers h act
  exact (invariant hstep (inv_with_limits limits) acts).graceful

/-- The server and the cleanup are polled a second late, and the cleanup counts as
    completed. -/
theorem graceful_drain_late :
    ∃ first, (run (step no_parsers) (with_limits small_limits)
      [.serve shut_down, .tick (2 * 10 ^ 9),
        .serve ⟨true, some (.ok ()), true, 0⟩]).cleanup.first = some first ∧
      first.by_token = true ∧
      (run (step no_parsers) (with_limits small_limits)
        [.serve shut_down, .tick (2 * 10 ^ 9),
          .serve ⟨true, some (.ok ()), true, 0⟩]).serve = .returned (.ok ()) ∧
      ¬ (run (step no_parsers) (with_limits small_limits)
        [.serve shut_down, .tick (2 * 10 ^ 9),
          .serve ⟨true, some (.ok ()), true, 0⟩]).cleanup.ended < first.deadline :=
  ⟨_, rfl, rfl, rfl, by decide⟩

end InferenceServer

end Inferences.Server
