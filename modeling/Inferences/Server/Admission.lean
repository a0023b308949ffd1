import Inferences.Permits
import Inferences.Server.Workload

/-!
# What requests hold

A request holds a work guard, an admission permit and an execution permit by
where it waits, and a poll takes from the server what it gets in hand
(`Polled.balanced`). So the guards and the permits are accounted for at any
time (`http_accounting`).

The body of a request is buffered once the request is admitted, except that of
a request to `/mcp`, which is read before the gate. Without such requests, the
bodies are bounded by the admission (`bodies_bounded`), and with them they are
not (`bodies_bounded_mcp`).
-/

namespace Inferences.Server

open Json Http Permits Schedule

/-! ## What a poll can do -/

/-- The request that comes to the gate: a request to `/mcp` with its body read. -/
def Preloaded (max_bytes : Nat) (self self' : Request) : Prop :=
  self.is_mcp = false ∧ self' = self ∨ self.phase = .preloading ∧ ∃ bytes mcp_id,
    to_bytes self.upload max_bytes = .ok bytes ∧
      self' = { self with upload := .ok bytes, mcp_id }

/-- The outcomes of a poll of a request, by where it waited. -/
inductive Polled (parsers : Parsers) (limits : ServerLimits) (shared : Shared) (self : Request)
    (choice : Choice) : Shared × Request → Prop
  | wait : Polled parsers limits shared self choice (shared, self)
  | preload (hphase : self.phase = .arriving) (hmcp : self.is_mcp = true) :
      Polled parsers limits shared self choice (shared, { self with phase := .preloading })
  | refuse (status : Nat) (message : String) (hphase : self.phase = .preloading)
      (hstatus : status = 504 ∨ status = 413 ∧ choice.uploaded = true ∧
        to_bytes self.upload limits.max_request_bytes = .error ()) :
      Polled parsers limits shared self choice
        (shared, self.answer (Mcp.outer_error none message status).reply)
  | turn_away (self' : Request) (status : Nat) (code message : String)
      (hphase : self.phase = .arriving ∧ self.is_mcp = false ∨ self.phase = .preloading)
      (hself : Preloaded limits.max_request_bytes self self')
      (hstatus : status = 503 ∨ status = 500 ∨ status = 429 ∧ shared.admitted = 0) :
      Polled parsers limits shared self choice
        (shared, self'.answer (workload_error self'.is_mcp self'.mcp_id status code message))
  | enter (self' : Request) (gate : ShutdownGate)
      (hphase : self.phase = .arriving ∧ self.is_mcp = false ∨ self.phase = .preloading)
      (hself : Preloaded limits.max_request_bytes self self')
      (hgate : shared.gate.try_enter = some gate) (hfree : 0 < shared.admitted) :
      Polled parsers limits shared self choice
        ({ shared with gate, admitted := shared.admitted - 1 }, { self' with phase := .reading })
  | fail (status : Nat) (code message : String)
      (hphase : self.phase = .reading ∨ self.phase = .queueing)
      (hstatus : status = 503 ∨ status = 504 ∨ status = 413 ∧ self.phase = .reading ∧
        to_bytes self.upload limits.max_request_bytes = .error ()) :
      Polled parsers limits shared self choice (self.fail shared status code message)
  | read (body : Bytes) (hphase : self.phase = .reading)
      (hbody : to_bytes self.upload limits.max_request_bytes = .ok body) :
      Polled parsers limits shared self choice (shared, { self with body, phase := .queueing })
  | execute (hphase : self.phase = .queueing) (hfree : 0 < shared.execution) :
      Polled parsers limits shared self choice
        ({ shared with execution := shared.execution - 1 }, { self with phase := .handling })
  | respond (reply : Reply) (hphase : self.phase = .handling)
      (hreply : self.run_workload_handler parsers.parse parsers.body_limit shared choice =
        some reply) :
      Polled parsers limits shared self choice (shared, { self with phase := .streaming reply })
  | finish (reply : Reply) (hphase : self.phase = .streaming reply) :
      Polled parsers limits shared self choice
        (self.leave shared, { self with phase := .finished reply })

variable {parsers : Parsers} {limits : ServerLimits} {shared : Shared} {self : Request}
  {choice : Choice}

/-- A request without permits leaves nothing behind. -/
theorem leave_of_not_admitted (shared : Shared) (h : self.phase.admitted = false)
    (h' : self.phase.executing = false) : self.leave shared = shared := by
  rw [Request.leave, h, h']
  rfl

/-- The way through the gate is a move. -/
theorem polled_enter {self' : Request}
    (hphase : self.phase = .arriving ∧ self.is_mcp = false ∨ self.phase = .preloading)
    (hself : Preloaded limits.max_request_bytes self self') :
    Polled parsers limits shared self choice (self'.enter shared choice) := by
  have hout : self'.phase.admitted = false ∧ self'.phase.executing = false := by
    have hsame : self'.phase = self.phase := by
      rcases hself with ⟨-, rfl⟩ | ⟨-, bytes, mcp_id, -, rfl⟩ <;> rfl
    rw [hsame]
    rcases hphase with ⟨h, -⟩ | h <;> rw [h] <;> exact ⟨rfl, rfl⟩
  -- A request that is turned away has changed nothing.
  have hfail (status : Nat) (code message : String)
      (hstatus : status = 503 ∨ status = 500 ∨ status = 429 ∧ shared.admitted = 0) :
      Polled parsers limits shared self choice (self'.fail shared status code message) := by
    rw [Request.fail, leave_of_not_admitted shared hout.1 hout.2]
    exact .turn_away self' status code message hphase hself hstatus
  unfold Request.enter
  split
  · exact hfail 503 _ _ (.inl rfl)
  · rename_i gate hgate
    rw [ShutdownGate.leave_of_try_enter hgate]
    split
    · rename_i hzero
      exact hfail 429 _ _ (.inr (.inr ⟨rfl, hzero⟩))
    · rename_i hfree
      split
      · exact hfail 500 _ _ (.inr (.inl rfl))
      · exact .enter self' gate hphase hself hgate (Nat.pos_of_ne_zero hfree)

/-- The reading of a body before the gate is a move. -/
theorem polled_preload (hphase : self.phase = .preloading) :
    Polled parsers limits shared self choice (self.preload_mcp_request parsers.from_slice
      limits.max_request_bytes shared choice) := by
  unfold Request.preload_mcp_request
  split
  · rename_i huploaded
    split
    · rename_i bytes hbytes
      exact polled_enter (.inr hphase) (.inr ⟨hphase, bytes, _, hbytes, rfl⟩)
    · rename_i hbytes
      exact .refuse 413 _ hphase (.inr ⟨rfl, huploaded, hbytes⟩)
  · split
    · exact .refuse 504 _ hphase (.inl rfl)
    · exact .wait

/-- The reading of a body behind the gate is a move. -/
theorem polled_read (hphase : self.phase = .reading) :
    Polled parsers limits shared self choice
      (self.read_request_body limits.max_request_bytes shared choice) := by
  unfold Request.read_request_body
  split
  · exact .fail 503 _ _ (.inl hphase) (.inl rfl)
  split
  · split
    · rename_i body hbody
      exact .read body hphase hbody
    · rename_i hbody
      exact .fail 413 _ _ (.inl hphase) (.inr (.inr ⟨rfl, hphase, hbody⟩))
  split
  · exact .fail 504 _ _ (.inl hphase) (.inr (.inl rfl))
  · exact .wait

/-- The wait for a permit to execute is a move. -/
theorem polled_acquire (hphase : self.phase = .queueing) :
    Polled parsers limits shared self choice (self.acquire_execution shared choice) := by
  unfold Request.acquire_execution
  split
  · exact .fail 503 _ _ (.inr hphase) (.inl rfl)
  split
  · rename_i hpermit
    rw [Bool.and_eq_true, decide_eq_true_eq] at hpermit
    exact .execute hphase hpermit.2
  split
  · exact .fail 504 _ _ (.inr hphase) (.inr (.inl rfl))
  · exact .wait

/-- A poll makes one of the moves. -/
theorem poll_polled (parsers : Parsers) (limits : ServerLimits) (self : Request) (shared : Shared)
    (choice : Choice) : Polled parsers limits shared self choice
      (self.poll parsers.from_slice parsers.parse parsers.body_limit limits shared choice) := by
  unfold Request.poll
  split
  · rename_i hphase
    split
    · exact .preload hphase ‹_›
    · rename_i hmcp
      have hmcp := Bool.eq_false_iff.2 hmcp
      exact polled_enter (.inl ⟨hphase, hmcp⟩) (.inl ⟨hmcp, rfl⟩)
  · exact polled_preload ‹_›
  · exact polled_read ‹_›
  · exact polled_acquire ‹_›
  · split
    · exact .respond _ ‹_› ‹_›
    · exact .wait
  · split
    · exact .finish _ ‹_›
    · exact .wait
  · exact .wait

/-! ## The accounts of one request -/

/-- A step of a request that takes from the server what it gets in hand. -/
structure Balanced (shared : Shared) (phase : Phase) (r : Shared × Request) : Prop where
  admitted : r.1.admitted + r.2.phase.admitted.toNat = shared.admitted + phase.admitted.toNat
  execution : r.1.execution + r.2.phase.executing.toNat = shared.execution + phase.executing.toNat
  active : phase.admitted.toNat ≤ shared.gate.active →
    r.1.gate.active + phase.admitted.toNat = shared.gate.active + r.2.phase.admitted.toNat

/-- A request that is over has given everything back. -/
theorem balanced_leave (shared : Shared) {request : Request}
    (h : request.phase.admitted = false) (h' : request.phase.executing = false) :
    Balanced shared self.phase (self.leave shared, request) := by
  refine ⟨?_, ?_, fun hactive => ?_⟩
  · rw [h, Request.leave]
    cases self.phase.admitted <;> rfl
  · rw [h', Request.leave]
    cases self.phase.executing <;> rfl
  · rw [h, Request.leave]
    cases hphase : self.phase.admitted with
    | false => rfl
    | true =>
      rw [hphase] at hactive
      simp only [if_true, ShutdownGate.active_leave]
      exact Nat.sub_add_cancel hactive

/-- A move that keeps the permits of the request keeps the balance. -/
theorem balanced_move {phase : Phase} {request : Request}
    (h : request.phase.admitted = phase.admitted) (h' : request.phase.executing = phase.executing) :
    Balanced shared phase (shared, request) :=
  ⟨by rw [h], by rw [h'], fun _ => by rw [h]⟩

/-- Every move keeps the balance: a permit is taken from the pool, or given back. -/
theorem Polled.balanced {r : Shared × Request} (h : Polled parsers limits shared self choice r) :
    Balanced shared self.phase r := by
  cases h with
  | wait => exact balanced_move rfl rfl
  | preload hphase => exact balanced_move (hphase ▸ rfl) (hphase ▸ rfl)
  | refuse status message hphase => exact balanced_move (hphase ▸ rfl) (hphase ▸ rfl)
  | turn_away self' status code message hphase =>
    rcases hphase with ⟨hphase, -⟩ | hphase <;>
      exact balanced_move (hphase ▸ rfl) (hphase ▸ rfl)
  | enter self' gate hphase _ hgate hfree =>
    obtain ⟨-, rfl⟩ := ShutdownGate.try_enter_eq_some hgate
    have hout : self.phase.admitted = false ∧ self.phase.executing = false := by
      rcases hphase with ⟨h, -⟩ | h <;> rw [h] <;> exact ⟨rfl, rfl⟩
    refine ⟨?_, ?_, fun _ => ?_⟩
    · rw [hout.1]
      exact Nat.sub_add_cancel hfree
    · rw [hout.2]
      rfl
    · rw [hout.1]
      rfl
  | fail status code message => exact balanced_leave shared rfl rfl
  | read body hphase => exact balanced_move (hphase ▸ rfl) (hphase ▸ rfl)
  | execute hphase hfree =>
    rw [hphase]
    exact ⟨rfl, Nat.sub_add_cancel hfree, fun _ => rfl⟩
  | respond reply hphase => exact balanced_move (hphase ▸ rfl) (hphase ▸ rfl)
  | finish reply => exact balanced_leave shared rfl rfl

/-- A request that is dropped gives its permits back. -/
theorem balanced_drop (self : Request) (shared : Shared) :
    Balanced shared self.phase (self.drop shared) := by
  unfold Request.drop
  split
  · exact balanced_move rfl rfl
  · exact balanced_move rfl rfl
  · exact balanced_move rfl rfl
  · exact balanced_leave shared rfl rfl

/-! ## The accounts of the server -/

namespace InferenceServer

variable {server : InferenceServer}

/-- The most requests that can be admitted at a time. -/
def capacity (limits : ServerLimits) : Nat := limits.max_concurrent_requests + limits.queue_capacity

/-- The guards and the permits of a server are accounted for. -/
structure Accounts (limits : ServerLimits) (server : InferenceServer) : Prop where
  policy : server.limits = limits
  admission : Accounted (·.phase.admitted) (capacity limits) server.shared.admitted server.requests
  execution : Accounted (·.phase.executing) limits.max_concurrent_requests
    server.shared.execution server.requests
  active : server.shared.gate.active = server.requests.countP (·.phase.admitted)

theorem usize_saturating_add_limits (limits : ServerLimits) :
    usize_saturating_add limits.max_concurrent_requests limits.queue_capacity =
      capacity limits := by
  have hrequests := limits.requests_bounded.2
  have hqueue := limits.queue_bounded.2
  simp only [MAX_CONCURRENT_REQUESTS, MAX_QUEUE_CAPACITY] at hrequests hqueue
  rw [usize_saturating_add, MAX_USIZE, capacity]
  omega

/-- A new server has all its permits. -/
theorem accounts_with_limits (limits : ServerLimits) : Accounts limits (with_limits limits) where
  policy := rfl
  admission := usize_saturating_add_limits limits
  execution := rfl
  active := rfl

/-- A step of one request keeps the accounts when it keeps the balance. -/
theorem accounts_with_request {limits : ServerLimits} {i : Nat}
    {step : Request → Shared × Request} (h : Accounts limits server)
    (hstep : ∀ request, server.requests[i]? = some request →
      Server.Balanced server.shared request.phase (step request)) :
    Accounts limits (server.with_request i step) := by
  unfold with_request
  split
  · exact h
  · rename_i request hi
    obtain ⟨hadmitted, hexecution, hactive⟩ := hstep request hi
    refine ⟨h.policy, h.admission.set hi hadmitted, h.execution.set hi hexecution, ?_⟩
    have hcount := countP_set_add (·.phase.admitted) hi (b := (step request).2)
    have hin : request.phase.admitted.toNat ≤ server.shared.gate.active := by
      rw [h.active]
      cases hheld : request.phase.admitted with
      | false => exact Nat.zero_le _
      | true => exact List.countP_pos_iff.2 ⟨request, List.mem_of_getElem? hi, hheld⟩
    have := hactive hin
    rw [h.active] at this
    dsimp only
    omega

/-- A change of the server that is nothing to the accounts. -/
theorem Accounts.congr {limits : ServerLimits} {server' : InferenceServer}
    (h : Accounts limits server) (hlimits : server'.limits = server.limits)
    (hrequests : server'.requests = server.requests)
    (hadmitted : server'.shared.admitted = server.shared.admitted)
    (hexecution : server'.shared.execution = server.shared.execution)
    (hactive : server'.shared.gate.active = server.shared.gate.active) :
    Accounts limits server' where
  policy := hlimits.trans h.policy
  admission := by rw [hadmitted, hrequests]; exact h.admission
  execution := by rw [hexecution, hrequests]; exact h.execution
  active := by rw [hactive, hrequests]; exact h.active

/-- What `serve` leaves alone: the requests, the permits and the guards. -/
structure Served (server server' : InferenceServer) : Prop where
  policy : server'.limits = server.limits
  requests : server'.requests = server.requests
  admitted : server'.shared.admitted = server.shared.admitted
  execution : server'.shared.execution = server.shared.execution
  active : server'.shared.gate.active = server.shared.gate.active

theorem served_poll_workload_shutdown (server : InferenceServer) (deadline : Nat) (by_token : Bool)
    (outcome : DrainOutcome) (http_timed_out : Bool) (result : Except ServeError Unit)
    (choice : ServeChoice) : Served server (server.poll_workload_shutdown deadline by_token outcome
      http_timed_out result choice) := by
  have hgate (b : Bool) : (if b then server.shared.gate.stop_now else server.shared.gate).active =
      server.shared.gate.active := by
    cases b <;> rfl
  unfold poll_workload_shutdown
  dsimp only
  split
  · exact ⟨rfl, rfl, rfl, rfl, hgate _⟩
  split
  · exact ⟨rfl, rfl, rfl, rfl, hgate _⟩
  · exact ⟨rfl, rfl, rfl, rfl, hgate _⟩

/-- The shutdown takes and gives no permit. -/
theorem served_poll_serve (server : InferenceServer) (choice : ServeChoice) :
    Served server (server.poll_serve choice) := by
  have hself : Served server server := ⟨rfl, rfl, rfl, rfl, rfl⟩
  unfold poll_serve
  split
  · split
    · exact ⟨rfl, rfl, rfl, rfl, ShutdownGate.active_begin_drain _⟩
    · split
      · obtain ⟨hl, hr, ha, he, hg⟩ := served_poll_workload_shutdown
          { server with process := .Draining } (server.now + server.limits.shutdown_timeout)
          false .Forced false _ choice
        exact ⟨hl, hr, ha, he, hg⟩
      · exact hself
  · split
    · exact ⟨rfl, rfl, rfl, rfl, rfl⟩
    split
    · exact ⟨rfl, rfl, rfl, rfl, rfl⟩
    · exact hself
  · split
    · exact served_poll_workload_shutdown ..
    split
    · exact served_poll_workload_shutdown ..
    · exact hself
  · dsimp only
    split
    · exact ⟨rfl, rfl, rfl, rfl, rfl⟩
    split
    · exact ⟨rfl, rfl, rfl, rfl, rfl⟩
    · exact ⟨rfl, rfl, rfl, rfl, rfl⟩
  · exact hself

/-- Every act keeps the accounts. -/
theorem accounts_step (parsers : Parsers) {limits : ServerLimits} (h : Accounts limits server)
    (act : Act) : Accounts limits (server.step parsers act) := by
  cases act with
  | arrive is_mcp headers upload =>
    refine ⟨h.policy, h.admission.append rfl, h.execution.append rfl, ?_⟩
    rw [step, countP_append_singleton]
    exact h.active
  | poll i choice =>
    exact accounts_with_request h fun request _ =>
      (poll_polled parsers server.limits request server.shared choice).balanced
  | drop i => exact accounts_with_request h fun request _ => balanced_drop request server.shared
  | serve choice =>
    obtain ⟨hl, hr, ha, he, hg⟩ := served_poll_serve server choice
    exact h.congr hl hr ha he hg
  | tick time => exact h.congr rfl rfl rfl rfl rfl

/-- The accounts of a server: the requests being handled or answered are within
    the concurrency, and those admitted within the capacity; what is free and
    what they hold is all there is. A poll answers 429 early only when all
    admission permits are held. A request that has an answer from its handler
    holds everything up to the end of its body, and once no request is live,
    everything is free. -/
structure HttpAccounting (parsers : Parsers) (limits : ServerLimits) (server : InferenceServer) :
    Prop where
  handling : server.requests.countP (·.phase.executing) ≤ limits.max_concurrent_requests
  admission : server.requests.countP (·.phase.admitted) ≤ capacity limits
  admitted : server.shared.admitted + server.requests.countP (·.phase.admitted) = capacity limits
  execution : server.shared.execution + server.requests.countP (·.phase.executing) =
    limits.max_concurrent_requests
  active : server.shared.gate.active = server.requests.countP (·.phase.admitted)
  overloaded : ∀ i choice (request request' : Request) reply, server.requests[i]? = some request →
    (∀ reply, request.phase ≠ .answered reply) →
    (server.step parsers (.poll i choice)).requests[i]? = some request' →
    request'.phase = .answered reply → reply.status = 429 →
    server.requests.countP (·.phase.admitted) = capacity limits
  held : ∀ request ∈ server.requests, ∀ reply, request.phase = .streaming reply →
    request.phase.admitted = true ∧ request.phase.executing = true
  idle : (∀ request ∈ server.requests, request.phase.live = false) →
    server.shared.admitted = capacity limits ∧
      server.shared.execution = limits.max_concurrent_requests ∧ server.shared.gate.active = 0

/-- A request that is over holds no permit. -/
theorem permits_of_over {phase : Phase} (h : phase.live = false) :
    phase.admitted = false ∧ phase.executing = false := by
  cases phase <;> first | exact ⟨rfl, rfl⟩ | cases h

/-- Both forms of an error have its status. -/
theorem status_workload_error (is_mcp : Bool) (mcp_id : Option Value) (status : Nat)
    (code message : String) :
    (workload_error is_mcp mcp_id status code message).status = status := by
  cases is_mcp <;> rfl

/-- A poll that answers 429 has found no permit. -/
theorem overloaded_polled {shared : Shared} {request : Request} {choice : Choice}
    {r : Shared × Request} {reply : Reply} (h : Polled parsers limits shared request choice r)
    (hbefore : ∀ reply, request.phase ≠ .answered reply) (hafter : r.2.phase = .answered reply)
    (hstatus : reply.status = 429) : shared.admitted = 0 := by
  cases h with
  | wait => exact absurd hafter (hbefore reply)
  | refuse status message hphase h =>
    cases hafter
    obtain rfl : status = 429 := hstatus
    simp at h
  | turn_away self' status code message hphase hself h =>
    cases hafter
    rw [status_workload_error] at hstatus
    subst hstatus
    rcases h with h | h | h
    · cases h
    · cases h
    · exact h.2
  | fail status code message hphase h =>
    cases hafter
    rw [status_workload_error] at hstatus
    subst hstatus
    simp at h
  | _ => cases hafter

theorem getElem?_with_request {i : Nat} {step : Request → Shared × Request} {request : Request}
    (hi : server.requests[i]? = some request) :
    (server.with_request i step).requests[i]? = some (step request).2 := by
  unfold with_request
  rw [hi]
  exact List.getElem?_set_self (List.getElem?_eq_some_iff.1 hi).1

/-- What the accounts say of the requests. -/
theorem Accounts.accounting (parsers : Parsers) {limits : ServerLimits}
    (h : Accounts limits server) : HttpAccounting parsers limits server where
  handling := h.execution.countP_le
  admission := h.admission.countP_le
  admitted := h.admission
  execution := h.execution
  active := h.active
  overloaded i choice request request' reply hi hbefore hi' hafter hstatus := by
    rw [step, getElem?_with_request hi] at hi'
    obtain rfl := Option.some.inj hi'
    exact h.admission.all_held <| overloaded_polled
      (poll_polled parsers server.limits request server.shared choice) hbefore hafter hstatus
  held request _ reply hphase := by
    rw [hphase]
    exact ⟨rfl, rfl⟩
  idle hover := by
    have hnone := fun request hmem => permits_of_over (hover request hmem)
    refine ⟨h.admission.all_free fun request hmem => (hnone request hmem).1,
      h.execution.all_free fun request hmem => (hnone request hmem).2, ?_⟩
    rw [h.active]
    exact List.countP_eq_zero.2 fun request hmem => by simp [(hnone request hmem).1]

/-- The guards and the permits of a server, after any acts. -/
theorem http_accounting (parsers : Parsers) (limits : ServerLimits) (acts : List Act) :
    HttpAccounting parsers limits (run (step parsers) (with_limits limits) acts) := by
  have hstep : ∀ (s : InferenceServer) act, Accounts limits s →
    Accounts limits (s.step parsers act) :=
    fun _ act h => accounts_step parsers h act
  exact (invariant hstep (accounts_with_limits limits) acts).accounting parsers

/-! ## Buffered bodies -/

/-- The bodies being buffered are within the capacity, and none is of a request
    that arrived at a closed gate. -/
structure BodiesBounded (limits : ServerLimits) (server : InferenceServer) : Prop where
  bounded : server.requests.countP (·.phase.buffering) ≤ capacity limits
  closed : ∀ request ∈ server.requests, request.late_arrival = true →
    request.phase.buffering = false

/-- A request that arrives does not go to `/mcp`. -/
def NotMcp (_ : InferenceServer) (act : Act) : Prop :=
  ∀ headers upload, act ≠ .arrive true headers upload

/-- A request that is read behind the gate only, and not at all if it arrived at
    a closed gate. -/
structure BehindGate (gate : ShutdownGate) (request : Request) : Prop where
  not_mcp : request.is_mcp = false
  phase : request.phase ≠ .preloading
  late : request.late_arrival = true → gate.phase ≠ .Accepting ∧ request.phase.admitted = false

variable {limits : ServerLimits}

theorem closed_request_leave {request : Request} {shared : Shared}
    (h : shared.gate.phase ≠ .Accepting) : (request.leave shared).gate.phase ≠ .Accepting := by
  rw [Request.leave]
  cases request.phase.admitted
  · exact h
  · exact ShutdownGate.closed_leave h

/-- No poll of a request opens the gate. -/
theorem closed_polled {shared : Shared} {request : Request} {choice : Choice}
    {r : Shared × Request} (h : Polled parsers limits shared request choice r)
    (hclosed : shared.gate.phase ≠ .Accepting) : r.1.gate.phase ≠ .Accepting := by
  cases h with
  | enter self' gate _ _ hgate => exact absurd (ShutdownGate.try_enter_eq_some hgate).1 hclosed
  | fail => exact closed_request_leave hclosed
  | finish => exact closed_request_leave hclosed
  | _ => exact hclosed

/-- A gate that stays shut keeps the requests behind it. -/
theorem BehindGate.mono {gate gate' : ShutdownGate} {request : Request}
    (h : BehindGate gate request)
    (hclosed : gate.phase ≠ .Accepting → gate'.phase ≠ .Accepting) : BehindGate gate' request :=
  ⟨h.not_mcp, h.phase, fun hlate => ⟨hclosed (h.late hlate).1, (h.late hlate).2⟩⟩

/-- A move does not take a request past a gate that is shut. -/
theorem BehindGate.polled {shared : Shared} {request : Request} {choice : Choice}
    {r : Shared × Request} (h : BehindGate shared.gate request)
    (hpolled : Polled parsers limits shared request choice r) : BehindGate r.1.gate r.2 := by
  have hclosed := closed_polled hpolled
  -- A late request waits for nothing behind the gate.
  have hlate {request' : Request} (hphase : request'.phase.admitted = request.phase.admitted)
      (hsame : request'.late_arrival = request.late_arrival) :
      request'.late_arrival = true →
        r.1.gate.phase ≠ .Accepting ∧ request'.phase.admitted = false :=
    fun hl => ⟨hclosed (h.late (hsame ▸ hl)).1, hphase ▸ (h.late (hsame ▸ hl)).2⟩
  have hover {request' : Request} (hphase : request'.phase.admitted = false)
      (hsame : request'.late_arrival = request.late_arrival) :
      request'.late_arrival = true →
        r.1.gate.phase ≠ .Accepting ∧ request'.phase.admitted = false :=
    fun hl => ⟨hclosed (h.late (hsame ▸ hl)).1, hphase⟩
  cases hpolled with
  | wait => exact h.mono hclosed
  | preload hphase hmcp => rw [h.not_mcp] at hmcp; cases hmcp
  | refuse status message hphase => exact absurd hphase h.phase
  | turn_away self' status code message hphase hself =>
    rcases hself with ⟨-, rfl⟩ | ⟨hphase, -⟩
    · exact ⟨h.not_mcp, nofun, hover rfl rfl⟩
    · exact absurd hphase h.phase
  | enter self' gate hphase hself hgate =>
    rcases hself with ⟨-, rfl⟩ | ⟨hphase, -⟩
    · refine ⟨h.not_mcp, nofun, fun hl => absurd ?_ (h.late hl).1⟩
      exact (ShutdownGate.try_enter_eq_some hgate).1
    · exact absurd hphase h.phase
  | fail => exact ⟨h.not_mcp, nofun, hover rfl rfl⟩
  | read body hphase => exact ⟨h.not_mcp, nofun, hlate (by rw [hphase]; rfl) rfl⟩
  | execute hphase => exact ⟨h.not_mcp, nofun, hlate (by rw [hphase]; rfl) rfl⟩
  | respond reply hphase => exact ⟨h.not_mcp, nofun, hlate (by rw [hphase]; rfl) rfl⟩
  | finish => exact ⟨h.not_mcp, nofun, hover rfl rfl⟩

theorem closed_drop {shared : Shared} {request : Request} (h : shared.gate.phase ≠ .Accepting) :
    (request.drop shared).1.gate.phase ≠ .Accepting := by
  unfold Request.drop
  split
  · exact h
  · exact h
  · exact h
  · exact closed_request_leave h

theorem BehindGate.drop {shared : Shared} {request : Request} (h : BehindGate shared.gate request) :
    BehindGate (request.drop shared).1.gate (request.drop shared).2 := by
  unfold Request.drop
  split
  · exact h
  · exact h
  · exact h
  · exact ⟨h.not_mcp, nofun, fun hl => ⟨closed_request_leave (h.late hl).1, rfl⟩⟩

/-- The gate of a server after a step of one of its requests. -/
theorem behindGate_with_request {i : Nat} {step : Request → Shared × Request}
    (h : ∀ request ∈ server.requests, BehindGate server.shared.gate request)
    (hstep : ∀ request, BehindGate server.shared.gate request →
      BehindGate (step request).1.gate (step request).2)
    (hclosed : ∀ request, server.shared.gate.phase ≠ .Accepting →
      (step request).1.gate.phase ≠ .Accepting) :
    ∀ request ∈ (server.with_request i step).requests,
      BehindGate (server.with_request i step).shared.gate request := by
  unfold with_request
  split
  · exact h
  · rename_i request hi
    intro request' hmem
    rcases List.mem_or_eq_of_mem_set hmem with hmem | rfl
    · exact (h request' hmem).mono (hclosed request)
    · exact hstep request (h request (List.mem_of_getElem? hi))

theorem closed_poll_workload_shutdown {deadline : Nat} {by_token : Bool} {outcome : DrainOutcome}
    {http_timed_out : Bool} {result : Except ServeError Unit} {choice : ServeChoice}
    (h : server.shared.gate.phase ≠ .Accepting) :
    (server.poll_workload_shutdown deadline by_token outcome http_timed_out result
      choice).shared.gate.phase ≠ .Accepting := by
  have hgate (b : Bool) :
      (if b then server.shared.gate.stop_now else server.shared.gate).phase ≠ .Accepting := by
    cases b
    · exact h
    · exact ShutdownGate.closed_stop_now _
  unfold poll_workload_shutdown
  dsimp only
  split
  · exact hgate _
  split
  · exact hgate _
  · exact hgate _

/-- The shutdown does not open the gate again. -/
theorem closed_poll_serve {choice : ServeChoice} (h : server.shared.gate.phase ≠ .Accepting) :
    (server.poll_serve choice).shared.gate.phase ≠ .Accepting := by
  unfold poll_serve
  split
  · split
    · exact ShutdownGate.closed_begin_drain _
    · split
      · exact @closed_poll_workload_shutdown { server with process := .Draining } _ _ _ _ _ _ h
      · exact h
  · split
    · exact h
    split
    · exact ShutdownGate.closed_stop_now _
    · exact h
  · split
    · exact closed_poll_workload_shutdown h
    split
    · exact closed_poll_workload_shutdown h
    · exact h
  · dsimp only
    split
    · exact h
    split
    · exact h
    · exact h
  · exact h

/-- No act takes a request past a gate that is shut. -/
theorem behindGate_step (parsers : Parsers) {act : Act} (hact : NotMcp server act)
    (h : ∀ request ∈ server.requests, BehindGate server.shared.gate request) :
    ∀ request ∈ (server.step parsers act).requests,
      BehindGate (server.step parsers act).shared.gate request := by
  cases act with
  | arrive is_mcp headers upload =>
    intro request hmem
    rcases List.mem_append.1 hmem with hmem | hmem
    · exact h request hmem
    · rw [List.mem_singleton.1 hmem]
      refine ⟨?_, nofun, fun hlate => ⟨of_decide_eq_true hlate, rfl⟩⟩
      cases is_mcp with
      | false => rfl
      | true => exact absurd rfl (hact headers upload)
  | poll i choice =>
    have hpolled := fun request => poll_polled parsers server.limits request server.shared choice
    exact behindGate_with_request h (fun request hr => hr.polled (hpolled request))
      fun request => closed_polled (hpolled request)
  | drop i =>
    exact behindGate_with_request h (fun request hr => hr.drop) fun request => closed_drop
  | serve choice =>
    intro request hmem
    have hrequests : (server.poll_serve choice).requests = server.requests :=
      (served_poll_serve server choice).requests
    rw [step, hrequests] at hmem
    exact (h request hmem).mono closed_poll_serve
  | tick time => exact h

/-- Behind the gate, only admitted requests have their bodies buffered. -/
theorem BehindGate.buffering {gate : ShutdownGate} {request : Request}
    (h : BehindGate gate request) :
    request.phase.buffering = request.phase.admitted := by
  have hphase := h.phase
  cases hp : request.phase with
  | preloading => exact absurd hp hphase
  | _ => rfl

/-- While no request goes to `/mcp`, the bodies being buffered are bounded by the
    admission. -/
theorem bodies_bounded (parsers : Parsers) (limits : ServerLimits) {acts : List Act}
    (hacts : Along (step parsers) NotMcp (with_limits limits) acts) :
    BodiesBounded limits (run (step parsers) (with_limits limits) acts) := by
  have hstep : ∀ (s : InferenceServer) act, NotMcp s act →
      (Accounts limits s ∧ ∀ request ∈ s.requests, BehindGate s.shared.gate request) →
      Accounts limits (s.step parsers act) ∧
        ∀ request ∈ (s.step parsers act).requests,
          BehindGate (s.step parsers act).shared.gate request :=
    fun _ act hact h => ⟨accounts_step parsers h.1 act, behindGate_step parsers hact h.2⟩
  obtain ⟨haccounts, hbehind⟩ := hacts.invariant hstep ⟨accounts_with_limits limits, nofun⟩
  refine ⟨?_, fun request hmem hlate => ?_⟩
  · rw [List.countP_congr fun request hmem => by rw [(hbehind request hmem).buffering]]
    exact haccounts.admission.countP_le
  · rw [(hbehind request hmem).buffering]
    exact ((hbehind request hmem).late hlate).2

/-- Limits of one request at a time and one more in the queue. -/
def small_limits : ServerLimits where
  max_request_bytes := 1024
  queue_capacity := 1
  max_concurrent_requests := 1
  request_timeout := 10 ^ 9
  shutdown_timeout := 10 ^ 9
  bytes_bounded := by decide
  queue_bounded := by decide
  requests_bounded := by decide
  request_timeout_bounded := by decide
  shutdown_timeout_bounded := by decide

/-- Nothing can be parsed. -/
def no_parsers : Parsers := ⟨fun _ => none, fun _ => none, 2097152⟩

/-- A world in which nothing has happened yet. -/
def nothing : Choice :=
  { uploaded := false, late := false, context := true, permit := true, handled := none
    next := none }

/-- The shutdown token is cancelled. -/
def shut_down : ServeChoice := { shutdown := true, http_ended := none, cleaned := false, lag := 0 }

/-- Three requests to a completion route, where two can be admitted. -/
theorem bodies_bounded_completion :
    BodiesBounded small_limits (run (step no_parsers) (with_limits small_limits)
      [.arrive false (fun _ => none) (.ok []), .arrive false (fun _ => none) (.ok []),
        .arrive false (fun _ => none) (.ok []), .poll 0 nothing, .poll 1 nothing,
        .poll 2 nothing]) :=
  bodies_bounded no_parsers small_limits
    ⟨fun _ _ => by simp, fun _ _ => by simp, fun _ _ => by simp, fun _ _ => by simp,
      fun _ _ => by simp, fun _ _ => by simp, trivial⟩

/-- Three requests to `/mcp` have their bodies buffered where two requests can be
    admitted; and one does after the gate has closed. -/
theorem bodies_bounded_mcp :
    ¬ BodiesBounded small_limits (run (step no_parsers) (with_limits small_limits)
        [.arrive true (fun _ => none) (.ok []), .arrive true (fun _ => none) (.ok []),
          .arrive true (fun _ => none) (.ok []), .poll 0 nothing, .poll 1 nothing,
          .poll 2 nothing]) ∧
      ¬ BodiesBounded small_limits (run (step no_parsers) (with_limits small_limits)
        [.serve shut_down, .arrive true (fun _ => none) (.ok []), .poll 0 nothing]) := by
  refine ⟨fun h => absurd h.bounded (by decide), fun h => ?_⟩
  have hmem := List.Mem.head (a := (run (step no_parsers) (with_limits small_limits)
    [.serve shut_down, .arrive true (fun _ => none) (.ok []), .poll 0 nothing]).requests.head
      (by decide)) []
  exact absurd (h.closed _ hmem rfl) (by decide)

end InferenceServer

end Inferences.Server
