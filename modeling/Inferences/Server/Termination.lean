import Inferences.Server.Admission

/-!
# The shutdown is bounded

Once its shutdown token is cancelled, or the HTTP server has ended, `serve`
returns: when the shutdown timeout is over, at most three more polls are left
of it, whatever the requests, the server and the cleanup of the workload do
(`serve_returns`). The timeout of the drain starts a little after that of the
whole shutdown, at the next look at the clock.
-/

namespace Inferences.Server

open Schedule

/-- The polls of a shutdown whose deadlines are over. -/
def ServePhase.polls_left : ServePhase → Nat
  | running => 4
  | draining .. => 3
  | closing .. => 2
  | cleaning .. => 1
  | returned _ => 0

/-- The shutdown has begun, and its deadlines are no later than `bound`. -/
def ServePhase.Due (bound : Nat) : ServePhase → Prop
  | running => False
  | draining deadline drain_deadline => deadline ≤ bound ∧ drain_deadline ≤ bound
  | closing deadline _ | cleaning deadline _ _ => deadline ≤ bound
  | returned _ => True

/-- The time that passes in a run. -/
def elapsed : List Act → Nat
  | [] => 0
  | .tick time :: acts => time + elapsed acts
  | _ :: acts => elapsed acts

/-- A poll of `serve`. -/
def Act.serves : Act → Bool
  | .serve _ => true
  | _ => false

namespace InferenceServer

variable {parsers : Parsers} {server : InferenceServer} {bound : Nat}

/-- The polls that are left of `serve`. -/
def polls_left (server : InferenceServer) : Nat := server.serve.polls_left

theorem now_poll_workload_shutdown (server : InferenceServer) (deadline : Nat) (by_token : Bool)
    (outcome : DrainOutcome) (http_timed_out : Bool) (result : Except ServeError Unit)
    (choice : ServeChoice) : (server.poll_workload_shutdown deadline by_token outcome
      http_timed_out result choice).now = server.now := by
  unfold poll_workload_shutdown
  dsimp only
  split
  · rfl
  split <;> rfl

/-- The shutdown does not move the clock. -/
theorem now_poll_serve (server : InferenceServer) (choice : ServeChoice) :
    (server.poll_serve choice).now = server.now := by
  unfold poll_serve
  split
  · split
    · rfl
    · split
      · exact now_poll_workload_shutdown ..
      · rfl
  · split
    · rfl
    split <;> rfl
  · split
    · exact now_poll_workload_shutdown ..
    split
    · exact now_poll_workload_shutdown ..
    · rfl
  · dsimp only
    split
    · rfl
    split <;> rfl
  · rfl

/-- A step of a request leaves `serve` and the clock alone. -/
theorem with_request_frame (server : InferenceServer) (i : Nat)
    (step : Request → Shared × Request) :
    (server.with_request i step).serve = server.serve ∧
      (server.with_request i step).now = server.now ∧
      (server.with_request i step).limits = server.limits := by
  unfold with_request
  split <;> exact ⟨rfl, rfl, rfl⟩

/-- The cleanup is polled: it is over, or goes on up to the deadline. -/
theorem serve_poll_workload_shutdown (server : InferenceServer) (deadline : Nat) (by_token : Bool)
    (outcome : DrainOutcome) (http_timed_out : Bool) (result : Except ServeError Unit)
    (choice : ServeChoice) :
    let server' := server.poll_workload_shutdown deadline by_token outcome http_timed_out result
      choice
    (∃ result, server'.serve = .returned result) ∨
      ∃ forced result, server'.serve = .cleaning deadline forced result := by
  unfold poll_workload_shutdown
  dsimp only
  split
  · exact .inl ⟨_, rfl⟩
  split
  · exact .inl ⟨_, rfl⟩
  · exact .inr ⟨_, _, rfl⟩

/-- A poll of a shutdown keeps its deadlines. -/
theorem due_poll_serve (h : server.serve.Due bound) (choice : ServeChoice) :
    (server.poll_serve choice).serve.Due bound := by
  -- The cleanup keeps the deadline it is started with.
  have hcleanup (deadline : Nat) (hdeadline : deadline ≤ bound) (outcome : DrainOutcome)
      (http_timed_out : Bool) : (server.poll_workload_shutdown deadline true outcome
        http_timed_out (.ok ()) choice).serve.Due bound := by
    rcases serve_poll_workload_shutdown server deadline true outcome http_timed_out (.ok ()) choice
      with ⟨result, heq⟩ | ⟨forced, result, heq⟩
    · rw [heq]
      trivial
    · rw [heq]
      exact hdeadline
  unfold poll_serve
  cases hserve : server.serve with
  | running => rw [hserve] at h; exact h.elim
  | draining deadline drain_deadline =>
    rw [hserve] at h
    dsimp only
    split
    · exact h.1
    split
    · exact h.1
    · rw [hserve]
      exact h
  | closing deadline outcome =>
    rw [hserve] at h
    dsimp only
    split
    · exact hcleanup deadline h outcome false
    split
    · exact hcleanup deadline h outcome true
    · rw [hserve]
      exact h
  | cleaning deadline forced result =>
    rw [hserve] at h
    dsimp only
    split
    · trivial
    split
    · trivial
    · exact h
  | returned result =>
    rw [hserve] at h
    dsimp only
    rw [hserve]
    exact h

/-- Once its deadlines are over, each poll takes a shutdown closer to its end. -/
theorem polls_left_poll_serve (h : server.serve.Due bound) (hnow : bound ≤ server.now)
    (choice : ServeChoice) :
    (server.poll_serve choice).polls_left ≤ server.polls_left - 1 := by
  unfold polls_left
  have hcleanup (deadline : Nat) (outcome : DrainOutcome) (http_timed_out : Bool) :
      (server.poll_workload_shutdown deadline true outcome http_timed_out (.ok ())
        choice).serve.polls_left ≤ 1 := by
    rcases serve_poll_workload_shutdown server deadline true outcome http_timed_out (.ok ()) choice
      with ⟨result, heq⟩ | ⟨forced, result, heq⟩ <;>
    · rw [heq]
      simp [ServePhase.polls_left]
  unfold poll_serve
  cases hserve : server.serve with
  | running => rw [hserve] at h; exact h.elim
  | draining deadline drain_deadline =>
    rw [hserve] at h
    dsimp only
    split
    · exact le_rfl
    split
    · exact le_rfl
    · rename_i hlate
      exact absurd (h.2.trans hnow) hlate
  | closing deadline outcome =>
    rw [hserve] at h
    have hdeadline : deadline ≤ server.now := Nat.le_trans h hnow
    dsimp only
    split
    · exact hcleanup deadline outcome false
    · exact hcleanup deadline outcome true
  | cleaning deadline forced result =>
    rw [hserve] at h
    have hdeadline : deadline ≤ server.now := Nat.le_trans h hnow
    dsimp only
    split
    · exact le_rfl
    · exact le_rfl
  | returned result =>
    rw [hserve]
    exact le_rfl

/-! ## Runs -/

/-- What is due by a time stays due by it. -/
theorem due_step (parsers : Parsers) (h : server.serve.Due bound) (act : Act) :
    (server.step parsers act).serve.Due bound := by
  cases act with
  | arrive is_mcp headers upload => exact h
  | poll i choice => exact (with_request_frame server i _).1 ▸ h
  | drop i => exact (with_request_frame server i _).1 ▸ h
  | serve choice => exact due_poll_serve h choice
  | tick time => exact h

/-- Only a tick moves the clock. -/
theorem now_step (parsers : Parsers) (server : InferenceServer) (act : Act) :
    (server.step parsers act).now = server.now + elapsed [act] := by
  cases act with
  | arrive is_mcp headers upload => rfl
  | poll i choice => exact (with_request_frame server i _).2.1
  | drop i => exact (with_request_frame server i _).2.1
  | serve choice => exact now_poll_serve server choice
  | tick time => rfl

theorem elapsed_cons (act : Act) (acts : List Act) :
    elapsed (act :: acts) = elapsed [act] + elapsed acts := by
  cases act <;> simp only [elapsed] <;> omega

/-- The clock shows the time that has passed. -/
theorem now_run (parsers : Parsers) (server : InferenceServer) (acts : List Act) :
    (run (step parsers) server acts).now = server.now + elapsed acts := by
  induction acts generalizing server with
  | nil => rfl
  | cons act acts ih => rw [run_cons, ih, now_step, elapsed_cons act acts, Nat.add_assoc]

/-- A shutdown whose deadlines are over. -/
structure Overdue (bound : Nat) (server : InferenceServer) : Prop where
  due : server.serve.Due bound
  now : bound ≤ server.now

/-- What is overdue stays so. -/
theorem Overdue.step (h : Overdue bound server) (parsers : Parsers) (act : Act) :
    Overdue bound (server.step parsers act) :=
  ⟨due_step parsers h.due act, by rw [now_step]; exact h.now.trans (Nat.le_add_right _ _)⟩

/-- No act adds a poll. -/
theorem Overdue.polls_left_le (h : Overdue bound server) (parsers : Parsers) (act : Act) :
    (server.step parsers act).polls_left ≤ server.polls_left := by
  cases act with
  | arrive is_mcp headers upload => exact le_rfl
  | poll i choice => exact (congrArg ServePhase.polls_left (with_request_frame server i _).1).le
  | drop i => exact (congrArg ServePhase.polls_left (with_request_frame server i _).1).le
  | serve choice => exact (polls_left_poll_serve h.due h.now choice).trans (Nat.sub_le _ _)
  | tick time => exact le_rfl

/-- The start of a shutdown, by its token or by the end of the server. -/
theorem due_of_started (hrunning : server.serve = .running) {choice : ServeChoice}
    (hstart : choice.shutdown = true ∨ choice.http_ended.isSome = true) :
    (server.poll_serve choice).serve.Due
      (server.now + server.limits.shutdown_timeout + choice.lag) := by
  have hcleanup (server' : InferenceServer) (deadline : Nat)
      (hdeadline : deadline ≤ server.now + server.limits.shutdown_timeout + choice.lag)
      (result : Except ServeError Unit) :
      (server'.poll_workload_shutdown deadline false .Forced false result choice).serve.Due
        (server.now + server.limits.shutdown_timeout + choice.lag) := by
    rcases serve_poll_workload_shutdown server' deadline false .Forced false result choice
      with ⟨result, heq⟩ | ⟨forced, result, heq⟩
    · rw [heq]
      trivial
    · rw [heq]
      exact hdeadline
  unfold poll_serve
  rw [hrunning]
  dsimp only
  split
  · split
    · exact Nat.le_add_right _ _
    · exact ⟨Nat.le_add_right _ _, by omega⟩
  · rename_i hshutdown
    obtain ⟨ended, hended⟩ := Option.isSome_iff_exists.1 (hstart.resolve_left hshutdown)
    rw [hended]
    exact hcleanup _ _ (Nat.le_add_right _ _) _

/-- A shutdown ends: when its timeout has passed, after three more polls of
    `serve` at most, whatever else happens. -/
theorem serve_returns (parsers : Parsers) (server : InferenceServer) (choice : ServeChoice)
    (waited rest : List Act) (hrunning : server.serve = .running)
    (hstart : choice.shutdown = true ∨ choice.http_ended.isSome = true)
    (hwaited : server.limits.shutdown_timeout + choice.lag ≤ elapsed waited)
    (hpolls : 3 ≤ rest.countP Act.serves) :
    ∃ result, (run (step parsers) server (.serve choice :: waited ++ rest)).serve =
      .returned result := by
  have hdue := due_of_started hrunning hstart
  have hkeep : ∀ (s : InferenceServer) (act : Act),
      s.serve.Due (server.now + server.limits.shutdown_timeout + choice.lag) →
      (s.step parsers act).serve.Due (server.now + server.limits.shutdown_timeout + choice.lag) :=
    fun _ act h => due_step parsers h act
  -- the deadlines are over when the wait is
  have hoverdue : Overdue (server.now + server.limits.shutdown_timeout + choice.lag)
      (run (step parsers) (server.poll_serve choice) waited) := by
    refine ⟨invariant hkeep hdue waited, ?_⟩
    rw [now_run, now_poll_serve]
    omega
  have hstep : ∀ (s : InferenceServer) (act : Act),
      Overdue (server.now + server.limits.shutdown_timeout + choice.lag) s →
      Overdue (server.now + server.limits.shutdown_timeout + choice.lag) (s.step parsers act) :=
    fun _ act h => h.step parsers act
  have hle : ∀ (s : InferenceServer) (act : Act),
      Overdue (server.now + server.limits.shutdown_timeout + choice.lag) s →
      (s.step parsers act).polls_left ≤ s.polls_left :=
    fun _ act h => h.polls_left_le parsers act
  have hlt : ∀ (s : InferenceServer) (act : Act),
      Overdue (server.now + server.limits.shutdown_timeout + choice.lag) s → act.serves = true →
      (s.step parsers act).polls_left ≤ s.polls_left - 1 := by
    intro s act h hact
    cases act with
    | serve choice => exact polls_left_poll_serve h.due h.now choice
    | _ => cases hact
  have hcount := countdown hstep hle hlt hoverdue rest
  have hthree : (run (step parsers) (server.poll_serve choice) waited).polls_left ≤ 3 := by
    unfold polls_left
    have hphase := hoverdue.due
    cases hserve : (run (step parsers) (server.poll_serve choice) waited).serve with
    | running => rw [hserve] at hphase; exact hphase.elim
    | _ => simp [ServePhase.polls_left]
  rw [List.cons_append, run_cons, run_append]
  change ∃ result, (run (step parsers) (run (step parsers) (server.poll_serve choice) waited)
    rest).serve = .returned result
  cases hserve : (run (step parsers) (run (step parsers) (server.poll_serve choice) waited)
    rest).serve with
  | returned result => exact ⟨result, rfl⟩
  | _ =>
    rw [polls_left, hserve] at hcount
    simp only [ServePhase.polls_left] at hcount hthree
    omega

/-- A server whose drain hangs: a request it has admitted is never polled again. -/
theorem serve_returns_hanging :
    let admitted := run (step no_parsers) (with_limits small_limits)
      [.arrive false (fun _ => none) (.ok []), .poll 0 nothing]
    ∃ result, (run (step no_parsers) admitted (.serve shut_down :: [.tick (2 * 10 ^ 9)] ++
      List.replicate 3 (.serve { shut_down with shutdown := false }))).serve =
        .returned result := by
  intro admitted
  exact serve_returns no_parsers admitted shut_down [.tick (2 * 10 ^ 9)]
    (List.replicate 3 (.serve { shut_down with shutdown := false })) rfl (.inl rfl) (by decide)
    (by decide)

end InferenceServer

end Inferences.Server
