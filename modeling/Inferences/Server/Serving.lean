import Inferences.Server.Local

/-!
# The program that serves

`serve` of the program runs the HTTP server and the gRPC server over one engine
and one shutdown token. It polls both until the first of them returns, cancels
the token, and then awaits the other, unless one of them fails. The gRPC server
has a token of its own for its requests, and a monitor of its own for its
health. Everything takes its steps in any order, next to the signal that asks
for the shutdown.

* `stops_together`: the program returns as its two servers do; whichever returns
  first has the other one told to stop; and once the program has returned
  without an error, nothing is left of the sidecar and no server says that it
  is ready.
* `grpc_health_reported`: what the health service of the gRPC server says is
  what the last look at the engine has found.
-/

namespace Inferences.Server

open Schedule

/-! ## The gRPC server -/

/-- The errors the gRPC `serve` returns. -/
inductive GrpcError
  | timed_out
  | server
  deriving DecidableEq

/-- Where the gRPC `serve` waits: for the first look at the engine, through the
    status call `call` once there is one; for the end of the server or of its
    shutdown token; for the end of the server up to a deadline; for its monitor.
    Or it has returned. -/
inductive GrpcPhase
  | publishing (call : Option Nat)
  | running
  | stopping (deadline : Nat)
  | joining (result : Except GrpcError Unit)
  | returned (result : Except GrpcError Unit)

/-- The gRPC server: whether its requests are told to stop, whether its service
    is reported as serving, once there is a report, and its monitor, once that
    is spawned. -/
structure GrpcServer where
  phase : GrpcPhase := .publishing none
  request_shutdown : Bool := false
  serving : Option Bool := none
  monitor : Option Monitor := none

/-- What the world answers to a poll of the gRPC `serve`: to its first look,
    whether the reflection service can be built, whether and how the server has
    ended, and whether the token is looked at before that. -/
structure GrpcChoice where
  answer : Engine.Choice
  built : Bool
  ended : Option (Except Unit Unit)
  token_first : Bool

/-! ## The program -/

/-- The error of one of the two servers. -/
inductive ProgramError
  | http (error : ServeError)
  | grpc (error : GrpcError)
  deriving DecidableEq

/-- Where `serve` of the program waits: for the first of the two servers, or for
    the one that is left. Or it has returned. -/
inductive ProgramPhase
  | both
  | http
  | grpc
  | returned (result : Except ProgramError Unit)
  deriving DecidableEq

/-- `cancelled` is the token that both servers are given. -/
structure Program where
  host : LocalInference
  grpc : GrpcServer := {}
  cancelled : Bool := false
  phase : ProgramPhase := .both

/-- The signal for the shutdown; a poll of the HTTP or of the gRPC `serve`, by
    that of the program; a poll of the gRPC monitor; a step of anything else. -/
inductive ProgramAct
  | signal
  | http (choice : ServeChoice) (answer : Engine.Choice)
  | grpc (choice : GrpcChoice)
  | grpc_monitor (answer : Engine.Choice) (elapsed : Bool)
  | host (act : LocalAct)

namespace Program

variable (parsers : Parsers)

/-- One poll of the status call `j` of the gRPC server. -/
def poll_status (self : Program) (j : Nat) (answer : Engine.Choice) :
    LocalInference × Option Bool :=
  let host := self.host.step parsers (.engine (.poll_call j answer))
  match host.engine.calls[j]? with
  | some (.status_returned ready) => (host, some ready)
  | _ => (host, none)

/-- One poll of the gRPC `serve`. A timeout looks at what it waits for first. -/
def poll_grpc_serve (self : Program) (choice : GrpcChoice) : Program :=
  match self.grpc.phase with
  | .publishing none =>
    { self with
      host := self.host.step parsers (.engine .status)
      grpc := { self.grpc with phase := .publishing (some self.host.engine.calls.length) } }
  | .publishing (some j) =>
    match self.poll_status parsers j choice.answer with
    | (host, some ready) =>
      { self with
        host := host
        grpc := { self.grpc with
          serving := some ready
          monitor := some .waiting
          phase := if choice.built then .running else .returned (.error .server) } }
    | (host, none) => { self with host }
  | .running =>
    if self.cancelled && (choice.token_first || choice.ended.isNone) then
      let deadline := self.host.server.now + self.host.server.limits.shutdown_timeout
      { self with grpc := { self.grpc with request_shutdown := true, phase := .stopping deadline } }
    else match choice.ended with
      | some result =>
        { self with grpc := { self.grpc with
          request_shutdown := true, phase := .joining (result.mapError fun _ => .server) } }
      | none => self
  | .stopping deadline =>
    match choice.ended with
    | some result =>
      { self with grpc := { self.grpc with
        phase := .joining (result.mapError fun _ => .server) } }
    | none =>
      if deadline ≤ self.host.server.now then
        { self with grpc := { self.grpc with phase := .joining (.error .timed_out) } }
      else self
  | .joining result =>
    match self.grpc.monitor with
    | some .ended => { self with grpc := { self.grpc with phase := .returned result } }
    | _ => self
  | .returned _ => self

/-- One poll of the gRPC monitor, which looks at its token first. -/
def poll_grpc_monitor (self : Program) (answer : Engine.Choice) (elapsed : Bool) : Program :=
  match self.grpc.monitor with
  | some (.looking none) =>
    let monitor := some (.looking (some self.host.engine.calls.length))
    { self with
      host := self.host.step parsers (.engine .status), grpc := { self.grpc with monitor } }
  | some (.looking (some j)) =>
    match self.poll_status parsers j answer with
    | (host, some ready) =>
      { self with host, grpc := { self.grpc with serving := some ready, monitor := some .waiting } }
    | (host, none) => { self with host }
  | some .waiting =>
    if self.grpc.request_shutdown then
      { self with grpc := { self.grpc with serving := some false, monitor := some .ended } }
    else if elapsed then { self with grpc := { self.grpc with monitor := some (.looking none) } }
    else self
  | _ => self

/-- One poll of the HTTP `serve`: its token is that of the program. -/
def poll_http_serve (self : Program) (choice : ServeChoice) (answer : Engine.Choice) : Program :=
  let shutdown := self.cancelled && (choice.shutdown || choice.http_ended.isNone)
  { self with host := self.host.step parsers (.server (.serve { choice with shutdown }) answer) }

/-- The program polls the HTTP `serve`. -/
def poll_http (self : Program) (choice : ServeChoice) (answer : Engine.Choice) : Program :=
  match self.phase with
  | .both =>
    let self := self.poll_http_serve parsers choice answer
    match self.host.server.serve with
    | .returned (.error error) =>
      { self with cancelled := true, phase := .returned (.error (.http error)) }
    | .returned (.ok ()) => { self with cancelled := true, phase := .grpc }
    | _ => self
  | .http =>
    let self := self.poll_http_serve parsers choice answer
    match self.host.server.serve with
    | .returned result => { self with phase := .returned (result.mapError .http) }
    | _ => self
  | _ => self

/-- The program polls the gRPC `serve`. -/
def poll_grpc (self : Program) (choice : GrpcChoice) : Program :=
  match self.phase with
  | .both =>
    let self := self.poll_grpc_serve parsers choice
    match self.grpc.phase with
    | .returned (.error error) =>
      { self with cancelled := true, phase := .returned (.error (.grpc error)) }
    | .returned (.ok ()) => { self with cancelled := true, phase := .http }
    | _ => self
  | .grpc =>
    let self := self.poll_grpc_serve parsers choice
    match self.grpc.phase with
    | .returned result => { self with phase := .returned (result.mapError .grpc) }
    | _ => self
  | _ => self

/-- Only the program polls the HTTP `serve`, and only the gRPC server its own
    call. -/
def others (self : Program) : LocalAct → Bool
  | .server (.serve _) _ => false
  | .engine (.poll_call j _) | .engine (.abandon j) =>
    (match self.grpc.phase with
      | .publishing (some i) => i ≠ j
      | _ => true) &&
    match self.grpc.monitor with
      | some (.looking (some i)) => i ≠ j
      | _ => true
  | _ => true

/-- The program after one act. -/
def step (self : Program) : ProgramAct → Program
  | .signal => { self with cancelled := true }
  | .http choice answer => self.poll_http parsers choice answer
  | .grpc choice => self.poll_grpc parsers choice
  | .grpc_monitor answer elapsed => self.poll_grpc_monitor parsers answer elapsed
  | .host act => if self.others act then { self with host := self.host.step parsers act } else self

/-- What the gRPC `serve` has found when its look ends. -/
def look_grpc_serve (self : Program) (choice : GrpcChoice) : List Bool :=
  match self.grpc.phase with
  | .publishing (some j) => (self.poll_status parsers j choice.answer).2.toList
  | _ => []

/-- What the gRPC server has found when a look of it ends. -/
def look (self : Program) : ProgramAct → List Bool
  | .grpc choice => match self.phase with
    | .both | .grpc => self.look_grpc_serve parsers choice
    | _ => []
  | .grpc_monitor answer _ => match self.grpc.monitor with
    | some (.looking (some j)) => (self.poll_status parsers j answer).2.toList
    | _ => []
  | _ => []

variable {parsers : Parsers} {self : Program}

/-! ## The workload in the program -/

theorem serve_with_request {server : InferenceServer} (i : Nat)
    (step : Request → Shared × Request) : (server.with_request i step).serve = server.serve := by
  unfold InferenceServer.with_request
  split <;> rfl

/-- A step of the workload that is no poll of `serve` leaves it where it waits. -/
theorem serve_step {host : LocalInference} {act : LocalAct}
    (hact : ∀ choice answer, act ≠ .server (.serve choice) answer) :
    (host.step parsers act).server.serve = host.server.serve := by
  cases act with
  | server act answer =>
    cases act with
    | serve choice => exact absurd rfl (hact choice answer)
    | arrive is_mcp headers upload => rfl
    | poll i choice => exact serve_with_request i _
    | drop i => exact serve_with_request i _
    | tick time => rfl
  | engine act =>
    rw [LocalInference.step]
    split <;> rfl
  | monitor choice => rw [LocalInference.step, LocalInference.server_poll_monitor]

theorem poll_status_fst (parsers : Parsers) (self : Program) (j : Nat)
    (answer : Engine.Choice) :
    (self.poll_status parsers j answer).1 =
      self.host.step parsers (.engine (.poll_call j answer)) := by
  unfold poll_status
  dsimp only
  split <;> rfl

/-- A poll of the HTTP `serve` leaves the gRPC server alone. -/
theorem poll_http_frame (parsers : Parsers) (self : Program) (choice : ServeChoice)
    (answer : Engine.Choice) : (self.poll_http parsers choice answer).grpc = self.grpc ∧
      ((self.poll_http parsers choice answer).host = self.host ∨
        (self.poll_http parsers choice answer).host =
          (self.poll_http_serve parsers choice answer).host) := by
  unfold poll_http
  split
  · dsimp only
    split <;> exact ⟨rfl, .inr rfl⟩
  · dsimp only
    split <;> exact ⟨rfl, .inr rfl⟩
  · exact ⟨rfl, .inl rfl⟩

/-- The program does not poll the gRPC `serve`, or its poll shows. -/
theorem poll_grpc_frame (parsers : Parsers) (self : Program) (choice : GrpcChoice) :
    (self.poll_grpc parsers choice).host = self.host ∧
        (self.poll_grpc parsers choice).grpc = self.grpc ∧
        self.look parsers (.grpc choice) = [] ∨
      (self.poll_grpc parsers choice).host = (self.poll_grpc_serve parsers choice).host ∧
        (self.poll_grpc parsers choice).grpc = (self.poll_grpc_serve parsers choice).grpc ∧
        self.look parsers (.grpc choice) = self.look_grpc_serve parsers choice := by
  unfold poll_grpc look
  split
  · dsimp only
    split <;> exact .inr ⟨rfl, rfl, rfl⟩
  · dsimp only
    split <;> exact .inr ⟨rfl, rfl, rfl⟩
  · exact .inl ⟨rfl, rfl, rfl⟩

section

variable {P : LocalInference → Prop}
  (hstep : ∀ host act, P host → P (host.step parsers act))

include hstep

theorem host_poll_grpc_serve (h : P self.host) (choice : GrpcChoice) :
    P (self.poll_grpc_serve parsers choice).host := by
  have hstatus (j : Nat) : P (self.poll_status parsers j choice.answer).1 :=
    poll_status_fst parsers self j choice.answer ▸ hstep _ _ h
  unfold poll_grpc_serve
  split
  · exact hstep _ (.engine .status) h
  · rename_i j _
    have hpoll := hstatus j
    split <;>
    · rename_i hfound
      rw [hfound] at hpoll
      exact hpoll
  · split
    · exact h
    · split <;> exact h
  · split
    · exact h
    · split <;> exact h
  · split <;> exact h
  · exact h

theorem host_poll_grpc_monitor (h : P self.host) (answer : Engine.Choice) (elapsed : Bool) :
    P (self.poll_grpc_monitor parsers answer elapsed).host := by
  have hstatus (j : Nat) : P (self.poll_status parsers j answer).1 :=
    poll_status_fst parsers self j answer ▸ hstep _ _ h
  unfold poll_grpc_monitor
  split
  · exact hstep _ (.engine .status) h
  · rename_i j _
    have hpoll := hstatus j
    split <;>
    · rename_i hfound
      rw [hfound] at hpoll
      exact hpoll
  · split
    · exact h
    · split <;> exact h
  · exact h

/-- What the steps of the workload keep, holds of it here. -/
theorem host_step (h : P self.host) (act : ProgramAct) : P (self.step parsers act).host := by
  cases act with
  | signal => exact h
  | http choice answer =>
    have hpoll : P (self.poll_http_serve parsers choice answer).host :=
      hstep _ (.server (.serve _) answer) h
    obtain ⟨-, hhost | hhost⟩ := poll_http_frame parsers self choice answer
    · exact hhost ▸ h
    · exact hhost ▸ hpoll
  | grpc choice =>
    obtain ⟨hhost, -⟩ | ⟨hhost, -⟩ := poll_grpc_frame parsers self choice
    · exact hhost ▸ h
    · exact hhost ▸ host_poll_grpc_serve hstep h choice
  | grpc_monitor answer elapsed => exact host_poll_grpc_monitor hstep h answer elapsed
  | host act =>
    rw [step]
    split
    · exact hstep _ _ h
    · exact h

end

/-- The steps of the program are steps of the workload. -/
theorem host_run (parsers : Parsers) (self : Program) (acts : List ProgramAct) :
    ∃ acts', (run (step parsers) self acts).host =
      run (LocalInference.step parsers) self.host acts' := by
  have hstep : ∀ (program : Program) (act : ProgramAct),
      (∃ acts', program.host = run (LocalInference.step parsers) self.host acts') →
      ∃ acts', (program.step parsers act).host =
        run (LocalInference.step parsers) self.host acts' := by
    intro program act h
    refine host_step (P := fun host => ∃ acts', host =
      run (LocalInference.step parsers) self.host acts') ?_ h act
    rintro _ act ⟨acts', rfl⟩
    exact ⟨acts' ++ [act], by rw [run_append, run_cons, run_nil]⟩
  exact invariant hstep ⟨[], rfl⟩ acts

/-! ## The two servers -/

/-- The gRPC server leaves the HTTP server alone. -/
theorem serve_poll_grpc_serve (parsers : Parsers) (self : Program) (choice : GrpcChoice) :
    (self.poll_grpc_serve parsers choice).host.server.serve = self.host.server.serve := by
  have hstatus (j : Nat) :
      (self.poll_status parsers j choice.answer).1.server.serve = self.host.server.serve := by
    rw [poll_status_fst, serve_step (by simp)]
  unfold poll_grpc_serve
  split
  · exact serve_step (by simp)
  · rename_i j _
    have hpoll := hstatus j
    split <;>
    · rename_i hfound
      rw [hfound] at hpoll
      exact hpoll
  · split
    · rfl
    · split <;> rfl
  · split
    · rfl
    · split <;> rfl
  · split <;> rfl
  · rfl

theorem poll_grpc_monitor_cases (parsers : Parsers) (self : Program) (answer : Engine.Choice)
    (elapsed : Bool) :
    let program := self.poll_grpc_monitor parsers answer elapsed
    program.host.server.serve = self.host.server.serve ∧ program.grpc.phase = self.grpc.phase ∧
      program.cancelled = self.cancelled ∧ program.phase = self.phase := by
  have hstatus (j : Nat) :
      (self.poll_status parsers j answer).1.server.serve = self.host.server.serve := by
    rw [poll_status_fst, serve_step (by simp)]
  dsimp only
  unfold poll_grpc_monitor
  split
  · exact ⟨serve_step (by simp), rfl, rfl, rfl⟩
  · rename_i j _
    have hpoll := hstatus j
    split <;>
    · rename_i hfound
      rw [hfound] at hpoll
      exact ⟨hpoll, rfl, rfl, rfl⟩
  · split
    · exact ⟨rfl, rfl, rfl, rfl⟩
    · split <;> exact ⟨rfl, rfl, rfl, rfl⟩
  · exact ⟨rfl, rfl, rfl, rfl⟩

/-- It leaves the cancellation and the program alone. -/
theorem poll_grpc_serve_frame (parsers : Parsers) (self : Program) (choice : GrpcChoice) :
    (self.poll_grpc_serve parsers choice).cancelled = self.cancelled ∧
      (self.poll_grpc_serve parsers choice).phase = self.phase := by
  unfold poll_grpc_serve
  split
  · exact ⟨rfl, rfl⟩
  · split <;> exact ⟨rfl, rfl⟩
  · split
    · exact ⟨rfl, rfl⟩
    · split <;> exact ⟨rfl, rfl⟩
  · split
    · exact ⟨rfl, rfl⟩
    · split <;> exact ⟨rfl, rfl⟩
  · split <;> exact ⟨rfl, rfl⟩
  · exact ⟨rfl, rfl⟩

/-- Where the servers are, by where the program waits. -/
def Waits (http : ServePhase) (grpc : GrpcPhase) (cancelled : Bool) : ProgramPhase → Prop
  | .both => (∀ result, http ≠ .returned result) ∧ ∀ result, grpc ≠ .returned result
  | .http => cancelled = true ∧ (∀ result, http ≠ .returned result) ∧ grpc = .returned (.ok ())
  | .grpc => cancelled = true ∧ http = .returned (.ok ()) ∧ ∀ result, grpc ≠ .returned result
  | .returned (.ok ()) =>
    cancelled = true ∧ http = .returned (.ok ()) ∧ grpc = .returned (.ok ())
  | .returned (.error (.http error)) =>
    cancelled = true ∧ http = .returned (.error error) ∧ ∀ error, grpc ≠ .returned (.error error)
  | .returned (.error (.grpc error)) =>
    cancelled = true ∧ grpc = .returned (.error error) ∧ ∀ error, http ≠ .returned (.error error)

/-- The program waits as its servers are. -/
def Together (program : Program) : Prop :=
  Waits program.host.server.serve program.grpc.phase program.cancelled program.phase

/-- A cancellation ends no wait for the other server. -/
theorem Waits.cancel {http : ServePhase} {grpc : GrpcPhase} {cancelled : Bool}
    {phase : ProgramPhase} (h : Waits http grpc cancelled phase) : Waits http grpc true phase := by
  unfold Waits at h ⊢
  split <;> simp_all

/-- A poll of the HTTP server keeps the two together. -/
theorem together_poll_http (h : Together self) (choice : ServeChoice) (answer : Engine.Choice) :
    Together (self.poll_http parsers choice answer) := by
  unfold Together at h
  unfold poll_http
  split
  · rename_i hphase
    rw [hphase] at h
    have hgrpc : ∀ result, self.grpc.phase ≠ .returned result := h.2
    dsimp only
    split
    · rename_i hserve
      exact ⟨rfl, hserve, fun _ => hgrpc _⟩
    · rename_i hserve
      exact ⟨rfl, hserve, hgrpc⟩
    · rename_i herror hok
      rw [Together, show (self.poll_http_serve parsers choice answer).phase = .both from hphase]
      refine ⟨fun result hserve => ?_, hgrpc⟩
      cases result with
      | error error => exact herror error hserve
      | ok => exact hok hserve
  · rename_i hphase
    rw [hphase] at h
    obtain ⟨hcancelled, -, hgrpc⟩ := h
    dsimp only
    split
    · rename_i result hserve
      cases result with
      | error error => exact ⟨hcancelled, hserve, by simp [poll_http_serve, hgrpc]⟩
      | ok => exact ⟨hcancelled, hserve, hgrpc⟩
    · rename_i hserve
      rw [Together, show (self.poll_http_serve parsers choice answer).phase = .http from hphase]
      exact ⟨hcancelled, hserve, hgrpc⟩
  · exact h

/-- So does a poll of the gRPC server. -/
theorem together_poll_grpc (h : Together self) (choice : GrpcChoice) :
    Together (self.poll_grpc parsers choice) := by
  have hserve := serve_poll_grpc_serve parsers self choice
  obtain ⟨hcancel, hphase'⟩ := poll_grpc_serve_frame parsers self choice
  unfold Together at h
  unfold poll_grpc
  split
  · rename_i hphase
    rw [hphase] at h
    have hhttp : ∀ result, self.host.server.serve ≠ .returned result := h.1
    dsimp only
    split
    · rename_i hgrpc
      exact ⟨rfl, hgrpc, fun _ => hserve ▸ hhttp _⟩
    · rename_i hgrpc
      exact ⟨rfl, fun _ => hserve ▸ hhttp _, hgrpc⟩
    · rename_i herror hok
      rw [Together, hphase', hphase, hserve]
      refine ⟨hhttp, fun result hgrpc => ?_⟩
      cases result with
      | error error => exact herror error hgrpc
      | ok => exact hok hgrpc
  · rename_i hphase
    rw [hphase] at h
    obtain ⟨hcancelled, hhttp, -⟩ := h
    rw [← hcancel] at hcancelled
    rw [← hserve] at hhttp
    dsimp only
    split
    · rename_i result hgrpc
      cases result with
      | error error => exact ⟨hcancelled, hgrpc, by simp [hhttp]⟩
      | ok => exact ⟨hcancelled, hhttp, hgrpc⟩
    · rename_i hgrpc
      rw [Together, hphase', hphase]
      exact ⟨hcancelled, hhttp, hgrpc⟩
  · exact h

/-- Every act keeps the two together. -/
theorem together_step (h : Together self) (act : ProgramAct) :
    Together (self.step parsers act) := by
  cases act with
  | signal => exact h.cancel
  | http choice answer => exact together_poll_http h choice answer
  | grpc choice => exact together_poll_grpc h choice
  | grpc_monitor answer elapsed =>
    obtain ⟨hserve, hgrpc, hcancelled, hphase⟩ :=
      poll_grpc_monitor_cases parsers self answer elapsed
    rw [Together, step, hserve, hgrpc, hcancelled, hphase]
    exact h
  | host act =>
    rw [step]
    split
    · rename_i hothers
      have hact : ∀ choice answer, act ≠ .server (.serve choice) answer := by
        rintro choice answer rfl
        cases hothers
      rw [Together]
      dsimp only
      rw [serve_step hact]
      exact h
    · exact h

/-- The gRPC `serve` returns without an error after its monitor, which reports
    at its end that the service is not serving. -/
structure Joined (grpc : GrpcServer) : Prop where
  ended : grpc.monitor = some .ended → grpc.serving = some false
  returned : grpc.phase = .returned (.ok ()) → grpc.monitor = some .ended

theorem joined_poll_grpc_serve (parsers : Parsers) (h : Joined self.grpc) (choice : GrpcChoice) :
    Joined (self.poll_grpc_serve parsers choice).grpc := by
  unfold poll_grpc_serve
  split
  · exact ⟨h.ended, nofun⟩
  · split
    · refine ⟨nofun, ?_⟩
      dsimp only
      split <;> exact nofun
    · exact h
  · split
    · exact ⟨h.ended, nofun⟩
    · split
      · exact ⟨h.ended, nofun⟩
      · exact h
  · split
    · exact ⟨h.ended, nofun⟩
    · split
      · exact ⟨h.ended, nofun⟩
      · exact h
  · split
    · rename_i hmonitor
      exact ⟨h.ended, fun _ => hmonitor⟩
    · exact h
  · exact h

theorem joined_poll_grpc_monitor (h : Joined self.grpc) (answer : Engine.Choice)
    (elapsed : Bool) : Joined (self.poll_grpc_monitor parsers answer elapsed).grpc := by
  have hrunning {monitor : Monitor} (hmonitor : self.grpc.monitor = some monitor)
      (hended : monitor ≠ .ended) : self.grpc.phase ≠ .returned (.ok ()) := fun hphase =>
    hended (Option.some.inj (hmonitor.symm.trans (h.returned hphase)))
  unfold poll_grpc_monitor
  split
  · rename_i hmonitor
    exact ⟨nofun, fun hphase => absurd hphase (hrunning hmonitor nofun)⟩
  · rename_i hmonitor
    split
    · exact ⟨nofun, fun hphase => absurd hphase (hrunning hmonitor nofun)⟩
    · exact h
  · rename_i hmonitor
    split
    · exact ⟨fun _ => rfl, fun _ => rfl⟩
    · split
      · exact ⟨nofun, fun hphase => absurd hphase (hrunning hmonitor nofun)⟩
      · exact h
  · exact h

/-- Every act keeps the monitor ending before its server. -/
theorem joined_step (h : Joined self.grpc) (act : ProgramAct) :
    Joined (self.step parsers act).grpc := by
  cases act with
  | signal => exact h
  | http choice answer =>
    rw [step, (poll_http_frame parsers self choice answer).1]
    exact h
  | grpc choice =>
    obtain ⟨-, hgrpc, -⟩ | ⟨-, hgrpc, -⟩ := poll_grpc_frame parsers self choice
    · rw [step, hgrpc]
      exact h
    · rw [step, hgrpc]
      exact joined_poll_grpc_serve parsers h choice
  | grpc_monitor answer elapsed => exact joined_poll_grpc_monitor h answer elapsed
  | host act =>
    rw [step]
    split <;> exact h

/-- The program returns once. -/
theorem returned_step {result : Except ProgramError Unit} (h : self.phase = .returned result)
    (act : ProgramAct) : (self.step parsers act).phase = .returned result := by
  cases act with
  | signal => exact h
  | http choice answer =>
    rw [step, poll_http, h]
    exact h
  | grpc choice =>
    rw [step, poll_grpc, h]
    exact h
  | grpc_monitor answer elapsed =>
    rw [step, (poll_grpc_monitor_cases parsers self answer elapsed).2.2.2]
    exact h
  | host act =>
    rw [step]
    split <;> exact h

/-! ## The end of the program -/

/-- The program after a start of the engine, before the first poll. -/
def start (limits : ServerLimits) (engine : Engine.GenerationEngine) : Program where
  host := .with_limits limits engine

/-- No sidecar is left, after `launched` launches, and no server says that it is
    ready. -/
structure Ended (program : Program) (launched : Nat) : Prop where
  gone : Engine.GenerationEngine.Gone program.host.engine launched
  live : program.host.live.code = 503
  ready : program.host.ready = ⟨503, "not_ready", some "process_not_running"⟩
  serving : program.grpc.serving = some false

/-- The program returns as its servers do: with the error of the one that fails,
    and without an error when neither does. A server that has returned has the
    token of the other one cancelled. When the program has returned without an
    error, everything has ended, and nothing starts again. -/
structure StopsTogether (parsers : Parsers) (program : Program) : Prop where
  http_error : ∀ error, program.phase = .returned (.error (.http error)) ↔
    program.host.server.serve = .returned (.error error)
  grpc_error : ∀ error, program.phase = .returned (.error (.grpc error)) ↔
    program.grpc.phase = .returned (.error error)
  ok : program.phase = .returned (.ok ()) ↔
    program.host.server.serve = .returned (.ok ()) ∧ program.grpc.phase = .returned (.ok ())
  cancelled : ((∃ result, program.host.server.serve = .returned result) ∨
    ∃ result, program.grpc.phase = .returned result) → program.cancelled = true
  ended : program.phase = .returned (.ok ()) → ∀ later,
    Ended (run (step parsers) program later) program.host.engine.shared.launched

/-- The returns of the program and of its servers. -/
theorem Waits.returns {http : ServePhase} {grpc : GrpcPhase} {cancelled : Bool}
    {phase : ProgramPhase} (h : Waits http grpc cancelled phase) :
    (∀ error, phase = .returned (.error (.http error)) ↔ http = .returned (.error error)) ∧
      (∀ error, phase = .returned (.error (.grpc error)) ↔ grpc = .returned (.error error)) ∧
      (phase = .returned (.ok ()) ↔ http = .returned (.ok ()) ∧ grpc = .returned (.ok ())) ∧
      (((∃ result, http = .returned result) ∨ ∃ result, grpc = .returned result) →
        cancelled = true) := by
  unfold Waits at h
  split at h <;> simp_all

theorem together_start (limits : ServerLimits) (engine : Engine.GenerationEngine) :
    Together (start limits engine) := ⟨nofun, nofun⟩

theorem joined_start (limits : ServerLimits) (engine : Engine.GenerationEngine) :
    Joined (start limits engine).grpc := ⟨nofun, nofun⟩

/-- What the steps keep of the workload in the program. -/
structure Hosted (host : LocalInference) : Prop where
  ending : LocalInference.Ending host
  calling : LocalInference.Calling host
  lifecycle : host.server.Lifecycle

/-- Every act of the host keeps its invariant. -/
theorem hosted_step {host : LocalInference} (h : Hosted host) (act : LocalAct) :
    Hosted (host.step parsers act) := by
  have hlifecycle : ∀ (server : InferenceServer) (act : Act), server.Lifecycle →
      (server.step parsers act).Lifecycle :=
    fun _ act h => InferenceServer.lifecycle_step parsers h act
  exact ⟨LocalInference.ending_step h.ending act, LocalInference.calling_step h.calling act,
    LocalInference.server_step hlifecycle h.lifecycle act⟩

theorem hosted_start {config : Engine.EngineConfig} {attempt : Nat}
    {engine : Engine.GenerationEngine}
    (hstart : Engine.GenerationEngine.start config attempt = .ok engine) (limits : ServerLimits) :
    Hosted (start limits engine).host where
  ending := LocalInference.ending_with_limits hstart limits
  calling := LocalInference.calling_with_limits limits engine
  lifecycle := ⟨rfl, rfl⟩

/-- What holds of the program in every run. -/
structure Kept (program : Program) : Prop where
  hosted : Hosted program.host
  together : Together program
  joined : Joined program.grpc

/-- Every run keeps the invariant. -/
theorem kept_run (h : Kept self) (acts : List ProgramAct) :
    Kept (run (step parsers) self acts) := by
  have hhosted : ∀ (host : LocalInference) (act : LocalAct), Hosted host →
      Hosted (host.step parsers act) := fun _ act h => hosted_step h act
  have hstep : ∀ (program : Program) (act : ProgramAct), Kept program →
      Kept (program.step parsers act) := fun _ act h =>
    ⟨host_step hhosted h.hosted act, together_step h.together act, joined_step h.joined act⟩
  exact invariant hstep h acts

/-- Once the program has returned, nothing of it is left. -/
theorem Kept.ended (h : Kept self) (hphase : self.phase = .returned (.ok ()))
    (later : List ProgramAct) :
    Ended (run (step parsers) self later) self.host.engine.shared.launched := by
  have hreturned : ∀ (program : Program) (act : ProgramAct),
      program.phase = .returned (.ok ()) →
      (program.step parsers act).phase = .returned (.ok ()) :=
    fun _ act h => returned_step h act
  have hlater : Kept (run (step parsers) self later) := kept_run h later
  obtain ⟨hserve, hgrpc⟩ :=
    (Waits.returns hlater.together).2.2.1.1 (invariant hreturned hphase later)
  have hstopped := (LocalInference.process_eq_stopped hlater.hosted.lifecycle).2 ⟨_, hserve⟩
  have hnow := ((Waits.returns h.together).2.2.1.1 hphase).1
  obtain ⟨acts', hacts⟩ := host_run parsers self later
  refine ⟨?_, ?_, ?_, hlater.joined.ended (hlater.joined.returned hgrpc)⟩
  · rw [hacts]
    exact (h.hosted.ending.gone h.hosted.calling hnow acts').1
  · simp [LocalInference.live, HealthRegistry.snapshot, hstopped]
  · exact LocalInference.ready_of_not_running (by simp [hstopped])

/-- The two servers stop together, and the program ends after both. -/
theorem stops_together (parsers : Parsers) {config : Engine.EngineConfig} {attempt : Nat}
    {engine : Engine.GenerationEngine}
    (hstart : Engine.GenerationEngine.start config attempt = .ok engine) (limits : ServerLimits)
    (acts : List ProgramAct) :
    StopsTogether parsers (run (step parsers) (start limits engine) acts) := by
  have hkept : Kept (run (step parsers) (start limits engine) acts) :=
    kept_run ⟨hosted_start hstart limits, together_start limits engine,
      joined_start limits engine⟩ acts
  obtain ⟨hhttp, hgrpc, hok, hcancelled⟩ := Waits.returns hkept.together
  exact ⟨hhttp, hgrpc, hok, hcancelled, fun hphase later => hkept.ended hphase later⟩

/-- The answers of the system to a task that can go on. -/
def idle_answer : Engine.Choice where
  permit := true
  lock := true
  exited := .ok false
  prepared := .ok ()
  launch := none
  probe := none
  elapsed := false
  late := false
  terminated := true
  remaining := none
  response := none
  next := none

/-- The signal comes before the first request. -/
def idle_run : List ProgramAct :=
  let http : ProgramAct :=
    .http { shutdown := true, http_ended := some (.ok ()), cleaned := false, lag := 0 } idle_answer
  let grpc : ProgramAct :=
    .grpc { answer := idle_answer, built := true, ended := some (.ok ()), token_first := true }
  [grpc, grpc, .signal, http, http, http, grpc, grpc, .grpc_monitor idle_answer true, grpc]

/-- A program that is shut down before its first request. -/
theorem stops_together_idle :
    let program := run (step InferenceServer.no_parsers)
      (start InferenceServer.small_limits Engine.GenerationEngine.small_engine) idle_run
    program.phase = .returned (.ok ()) ∧
      Ended (run (step InferenceServer.no_parsers) program idle_run)
        program.host.engine.shared.launched := by
  have hphase : (run (step InferenceServer.no_parsers) (start InferenceServer.small_limits
      Engine.GenerationEngine.small_engine) idle_run).phase = .returned (.ok ()) := by rfl
  exact ⟨hphase, (stops_together InferenceServer.no_parsers Engine.GenerationEngine.start_small
    InferenceServer.small_limits idle_run).ended hphase idle_run⟩

/-! ## The health of the gRPC server -/

/-- The status call `j` waits for its look at the engine, and is none of the
    workload. -/
structure Waiting (host : LocalInference) (j : Nat) : Prop where
  call : host.engine.calls[j]? = some .status_locking
  monitor : host.monitor ≠ .looking (some j)
  cleanup : host.cleanup ≠ some j

/-- A status call that has just been made. -/
theorem waiting_status {host : LocalInference} (h : LocalInference.Calling host) :
    Waiting (host.step parsers (.engine .status)) host.engine.calls.length := by
  refine ⟨?_, fun hmonitor => ?_, fun hcleanup => ?_⟩
  · simp [LocalInference.step, LocalInference.others, Engine.GenerationEngine.step]
  · have hcall := h.monitor _ hmonitor
    simp at hcall
  · obtain ⟨call, hcall, -⟩ := h.cleanup _ hcleanup
    simp at hcall

/-- An act of the engine for another call leaves this one waiting. -/
theorem Waiting.engine {host : LocalInference} {j : Nat} (h : Waiting host j) {act : Engine.Act}
    (hpoll : ∀ choice, act ≠ .poll_call j choice) (habandon : act ≠ .abandon j) :
    Waiting { host with engine := host.engine.step parsers.from_slice act } j :=
  ⟨LocalInference.call_step h.call hpoll habandon, h.monitor, h.cleanup⟩

theorem waiting_drop_cleanup {host : LocalInference} {j : Nat} (h : Waiting host j) :
    Waiting (host.drop_cleanup parsers) j := by
  unfold LocalInference.drop_cleanup
  split
  · rename_i i _ hi
    refine h.engine (by simp) fun heq => h.cleanup ?_
    rw [hi, Engine.Act.abandon.inj heq]
  · exact h

theorem waiting_poll_shutdown {host : LocalInference} {j : Nat} (h : Waiting host j)
    (answer : Engine.Choice) : Waiting (host.poll_shutdown parsers answer) j := by
  have hlt : j < host.engine.calls.length := (List.getElem?_eq_some_iff.1 h.call).1
  unfold LocalInference.poll_shutdown
  split
  · have hcall : (host.engine.step parsers.from_slice .shutdown).calls[j]? =
        some .status_locking := LocalInference.call_step h.call (by simp) (by simp)
    have hne : host.engine.calls.length ≠ j := Nat.ne_of_gt hlt
    exact ⟨LocalInference.call_step hcall (by simp [hne]) (by simp), h.monitor, by simp [hne]⟩
  · rename_i i hi
    refine h.engine (fun choice heq => h.cleanup ?_) (by simp)
    rw [hi, (Engine.Act.poll_call.inj heq).1]

/-- The monitor of the HTTP server leaves the call of the other waiting. -/
theorem waiting_poll_monitor {host : LocalInference} {j : Nat} (h : Waiting host j)
    (choice : MonitorChoice) : Waiting (host.poll_monitor parsers choice) j := by
  have hlt : j < host.engine.calls.length := (List.getElem?_eq_some_iff.1 h.call).1
  unfold LocalInference.poll_monitor
  split
  · have hne : host.engine.calls.length ≠ j := Nat.ne_of_gt hlt
    exact ⟨LocalInference.call_step h.call (by simp) (by simp), by simp [hne], h.cleanup⟩
  · rename_i i hi
    have hcall : (LocalInference.poll_status parsers host.engine i choice.answer).1.calls[j]? =
        some .status_locking := by
      have hstep : (host.engine.step parsers.from_slice (.poll_call i choice.answer)).calls[j]? =
          some .status_locking := by
        refine LocalInference.call_step h.call (fun choice heq => h.monitor ?_) (by simp)
        rw [hi, (Engine.Act.poll_call.inj heq).1]
      unfold LocalInference.poll_status
      dsimp only
      split <;> exact hstep
    split
    · rename_i hfound
      rw [hfound] at hcall
      exact ⟨hcall, nofun, h.cleanup⟩
    · rename_i hfound
      rw [hfound] at hcall
      exact ⟨hcall, h.monitor, h.cleanup⟩
  · split
    · exact ⟨h.call, nofun, h.cleanup⟩
    split
    · exact ⟨h.call, nofun, h.cleanup⟩
    · exact h
  · exact h

/-- The steps of the others leave the call alone. -/
theorem waiting_step {host : LocalInference} {j : Nat} (h : Waiting host j) {act : LocalAct}
    (hpoll : ∀ choice, act ≠ .engine (.poll_call j choice))
    (habandon : act ≠ .engine (.abandon j)) : Waiting (host.step parsers act) j := by
  cases act with
  | server act answer =>
    cases act with
    | serve choice =>
      rw [LocalInference.step, LocalInference.poll_serve]
      split
      · exact ⟨h.call, h.monitor, h.cleanup⟩
      · have hpolled : Waiting (host.poll_shutdown parsers answer) j :=
          waiting_poll_shutdown h answer
        exact waiting_drop_cleanup ⟨hpolled.call, hpolled.monitor, hpolled.cleanup⟩
    | _ => exact ⟨h.call, h.monitor, h.cleanup⟩
  | engine act =>
    rw [LocalInference.step]
    split
    · exact h.engine (fun choice heq => hpoll choice (heq ▸ rfl)) fun heq => habandon (heq ▸ rfl)
    · exact h
  | monitor choice => exact waiting_poll_monitor h choice

/-- A poll of the status call: it goes on waiting, or has found whether a sidecar
    runs. -/
theorem poll_status_cases (parsers : Parsers) {j : Nat} (h : Waiting self.host j)
    (answer : Engine.Choice) :
    (self.poll_status parsers j answer =
        (self.host.step parsers (.engine (.poll_call j answer)), none) ∧
      Waiting (self.host.step parsers (.engine (.poll_call j answer))) j) ∨
    ∃ ready, self.poll_status parsers j answer =
        (self.host.step parsers (.engine (.poll_call j answer)), some ready) ∧
      (ready = true → ∃ child, self.host.engine.shared.running = some child) := by
  have hothers : self.host.others (.poll_call j answer) = true := by
    have hmonitor := h.monitor
    unfold LocalInference.others
    simp only [Bool.and_eq_true, decide_eq_true_eq]
    refine ⟨?_, h.cleanup⟩
    split
    · rename_i i hi
      simp only [decide_eq_true_eq]
      rintro rfl
      exact hmonitor hi
    · rfl
  have hstep : self.host.step parsers (.engine (.poll_call j answer)) =
      { self.host with
        engine := self.host.engine.step parsers.from_slice (.poll_call j answer) } := by
    rw [LocalInference.step, if_pos hothers]
  have hpoll : (self.poll_status parsers j answer).2 =
      (LocalInference.poll_status parsers self.host.engine j answer).2 := by
    unfold poll_status LocalInference.poll_status
    rw [hstep]
    dsimp only
    rcases (self.host.engine.step parsers.from_slice (.poll_call j answer)).calls[j]? with
      _ | call
    · rfl
    · cases call <;> rfl
  have hfst := poll_status_fst parsers self j answer
  rcases LocalInference.poll_status_cases parsers h.call answer with
    ⟨hfound, hcall⟩ | ⟨ready, hfound, hready⟩
  · refine .inl ⟨Prod.ext hfst (hpoll.trans (by rw [hfound])), ?_⟩
    rw [hstep]
    exact ⟨hcall, h.monitor, h.cleanup⟩
  · exact .inr ⟨ready, Prod.ext hfst (hpoll.trans (by rw [hfound])), hready⟩

/-- The monitor of the gRPC server has ended. -/
def ended (grpc : GrpcServer) : Bool := grpc.monitor.any (·.is_ended)

/-- What the gRPC server has published, after its looks `looks`: what it has
    found last, until its monitor has ended; then its requests are told to
    stop. -/
structure Watching (host : LocalInference) (grpc : GrpcServer) (looks : List Bool) : Prop where
  first : ∀ j, grpc.phase = .publishing (some j) → Waiting host j
  monitor : ∀ j, grpc.monitor = some (.looking (some j)) → Waiting host j
  unspawned : ∀ call, grpc.phase = .publishing call → grpc.monitor = none
  serving : grpc.serving = if ended grpc then some false else looks.getLast?
  told : ended grpc = true → grpc.request_shutdown = true

theorem watching_poll_grpc_serve (parsers : Parsers) {looks : List Bool}
    (hcalling : LocalInference.Calling self.host) (h : Watching self.host self.grpc looks)
    (choice : GrpcChoice) :
    Watching (self.poll_grpc_serve parsers choice).host (self.poll_grpc_serve parsers choice).grpc
      (looks ++ self.look_grpc_serve parsers choice) := by
  unfold poll_grpc_serve look_grpc_serve
  cases hphase : self.grpc.phase with
  | publishing call =>
    have hmonitor : self.grpc.monitor = none := h.unspawned call hphase
    cases call with
    | none =>
      dsimp only
      rw [List.append_nil]
      refine ⟨fun j hj => ?_, by simp [hmonitor], fun _ _ => hmonitor, h.serving, h.told⟩
      obtain rfl : self.host.engine.calls.length = j := by simpa using hj
      exact waiting_status hcalling
    | some i =>
      dsimp only
      rcases poll_status_cases parsers (h.first i hphase) choice.answer with
        ⟨hpoll, hwaiting⟩ | ⟨ready, hpoll, -⟩
      · rw [hpoll, Option.toList_none, List.append_nil]
        refine ⟨fun j hj => ?_, by simp [hmonitor], h.unspawned, h.serving, h.told⟩
        obtain rfl : i = j := by simpa [hphase] using hj
        exact hwaiting
      · rw [hpoll, Option.toList_some]
        have hrunning (call : Option Nat) : (if choice.built then GrpcPhase.running
            else .returned (.error .server)) ≠ .publishing call := by
          split <;> simp
        exact ⟨fun j hj => absurd hj (hrunning _), by simp,
          fun call hcall => absurd hcall (hrunning call), by simp [ended, Monitor.is_ended],
          by simp [ended, Monitor.is_ended]⟩
  | _ =>
    dsimp only
    rw [List.append_nil]
    repeat' split
    all_goals first
      | exact ⟨by simp, h.monitor, by simp, h.serving, fun _ => rfl⟩
      | exact ⟨by simp, h.monitor, by simp, h.serving, h.told⟩
      | exact h

theorem watching_poll_grpc_monitor {looks : List Bool}
    (hcalling : LocalInference.Calling self.host) (h : Watching self.host self.grpc looks)
    (answer : Engine.Choice) (elapsed : Bool) :
    Watching (self.poll_grpc_monitor parsers answer elapsed).host
      (self.poll_grpc_monitor parsers answer elapsed).grpc
      (looks ++ self.look parsers (.grpc_monitor answer elapsed)) := by
  have hspawned {monitor : Monitor} (hmonitor : self.grpc.monitor = some monitor)
      (call : Option Nat) : self.grpc.phase ≠ .publishing call := fun hphase => by
    simp [h.unspawned call hphase] at hmonitor
  have hserving {monitor : Monitor} (hmonitor : self.grpc.monitor = some monitor)
      (hended : monitor.is_ended = false) : self.grpc.serving = looks.getLast? := by
    have hpublished := h.serving
    simpa [ended, hmonitor, hended] using hpublished
  -- A monitor that is there was spawned, and its server publishes no more.
  unfold poll_grpc_monitor look
  cases hmonitor : self.grpc.monitor with
  | none =>
    dsimp only
    rw [List.append_nil]
    exact h
  | some monitor =>
    cases monitor with
    | looking call =>
      cases call with
      | none =>
        dsimp only
        rw [List.append_nil]
        refine ⟨fun j hj => absurd hj (hspawned hmonitor _), fun j hj => ?_,
          fun call hcall => absurd hcall (hspawned hmonitor call), ?_, ?_⟩
        · obtain rfl : self.host.engine.calls.length = j := by simpa using hj
          exact waiting_status hcalling
        · simpa [ended, Monitor.is_ended] using hserving hmonitor rfl
        · simp [ended, Monitor.is_ended]
      | some i =>
        dsimp only
        rcases poll_status_cases parsers (h.monitor i hmonitor) answer with
          ⟨hpoll, hwaiting⟩ | ⟨ready, hpoll, -⟩
        · rw [hpoll, Option.toList_none, List.append_nil]
          refine ⟨fun j hj => absurd hj (hspawned hmonitor _), fun j hj => ?_, h.unspawned,
            h.serving, h.told⟩
          obtain rfl : i = j := by simpa [hmonitor] using hj
          exact hwaiting
        -- The look is over: what it saw is reported.
        · rw [hpoll, Option.toList_some]
          exact ⟨fun j hj => absurd hj (hspawned hmonitor _), by simp,
            fun call hcall => absurd hcall (hspawned hmonitor call),
            by simp [ended, Monitor.is_ended], by simp [ended, Monitor.is_ended]⟩
    | waiting =>
      dsimp only
      rw [List.append_nil]
      split
      · rename_i hshutdown
        exact ⟨fun j hj => absurd hj (hspawned hmonitor _), by simp,
          fun call hcall => absurd hcall (hspawned hmonitor call),
          by simp [ended, Monitor.is_ended], fun _ => hshutdown⟩
      split
      · exact ⟨fun j hj => absurd hj (hspawned hmonitor _), by simp,
          fun call hcall => absurd hcall (hspawned hmonitor call),
          by simpa [ended, Monitor.is_ended] using hserving hmonitor rfl,
          by simp [ended, Monitor.is_ended]⟩
      · exact h
    | ended =>
      dsimp only
      rw [List.append_nil]
      exact h

/-- The steps of the workload that are not for the gRPC server keep its calls. -/
theorem Watching.host {host : LocalInference} {grpc : GrpcServer} {looks : List Bool}
    (h : Watching host grpc looks) {act : LocalAct}
    (hact : ∀ j, grpc.phase = .publishing (some j) ∨ grpc.monitor = some (.looking (some j)) →
      (∀ choice, act ≠ .engine (.poll_call j choice)) ∧ act ≠ .engine (.abandon j)) :
    Watching (host.step parsers act) grpc looks where
  first j hj := waiting_step (h.first j hj) (hact j (.inl hj)).1 (hact j (.inl hj)).2
  monitor j hj := waiting_step (h.monitor j hj) (hact j (.inr hj)).1 (hact j (.inr hj)).2
  unspawned := h.unspawned
  serving := h.serving
  told := h.told

/-- Every act keeps what was seen last as what is reported. -/
theorem watching_step {looks : List Bool} (hcalling : LocalInference.Calling self.host)
    (h : Watching self.host self.grpc looks) (act : ProgramAct) :
    Watching (self.step parsers act).host (self.step parsers act).grpc
      (looks ++ self.look parsers act) := by
  cases act with
  | signal =>
    rw [show self.look parsers .signal = [] from rfl, List.append_nil]
    exact h
  | http choice answer =>
    have hact (act : Act) (j : Nat) :
        (∀ choice, LocalAct.server act answer ≠ .engine (.poll_call j choice)) ∧
          LocalAct.server act answer ≠ .engine (.abandon j) := ⟨by simp, by simp⟩
    have hpoll : Watching (self.poll_http_serve parsers choice answer).host self.grpc looks := by
      unfold poll_http_serve
      dsimp only
      exact h.host fun j _ => hact _ j
    obtain ⟨hgrpc, hhost | hhost⟩ := poll_http_frame parsers self choice answer
    · rw [show self.look parsers (.http choice answer) = [] from rfl, List.append_nil, step,
        hgrpc, hhost]
      exact h
    · rw [show self.look parsers (.http choice answer) = [] from rfl, List.append_nil, step,
        hgrpc, hhost]
      exact hpoll
  | grpc choice =>
    obtain ⟨hhost, hgrpc, hlook⟩ | ⟨hhost, hgrpc, hlook⟩ := poll_grpc_frame parsers self choice
    · rw [step, hhost, hgrpc, hlook, List.append_nil]
      exact h
    · rw [step, hhost, hgrpc, hlook]
      exact watching_poll_grpc_serve parsers hcalling h choice
  | grpc_monitor answer elapsed => exact watching_poll_grpc_monitor hcalling h answer elapsed
  | host act =>
    rw [show self.look parsers (.host act) = [] from rfl, List.append_nil, step]
    split
    · rename_i hothers
      refine h.host fun j hj => ⟨?_, ?_⟩
      · rintro choice rfl
        rcases hj with hj | hj <;> simp [others, hj] at hothers
      · rintro rfl
        rcases hj with hj | hj <;> simp [others, hj] at hothers
    · exact h

/-- The monitor ends once. -/
theorem ended_step {looks : List Bool} (h : Watching self.host self.grpc looks)
    (hended : ended self.grpc = true) (act : ProgramAct) :
    ended (self.step parsers act).grpc = true := by
  cases act with
  | signal => exact hended
  | http choice answer =>
    rw [step, (poll_http_frame parsers self choice answer).1]
    exact hended
  | grpc choice =>
    have hspawned (call : Option Nat) : self.grpc.phase ≠ .publishing call := fun hphase => by
      simp [ended, h.unspawned call hphase] at hended
    have hpoll : ended (self.poll_grpc_serve parsers choice).grpc = true := by
      unfold poll_grpc_serve
      cases hphase : self.grpc.phase with
      | publishing call => exact absurd hphase (hspawned call)
      | _ =>
        dsimp only
        repeat' split
        all_goals exact hended
    obtain ⟨-, hgrpc, -⟩ | ⟨-, hgrpc, -⟩ := poll_grpc_frame parsers self choice
    · rw [step, hgrpc]
      exact hended
    · rw [step, hgrpc]
      exact hpoll
  | grpc_monitor answer elapsed =>
    rw [step, poll_grpc_monitor]
    unfold ended at hended
    cases hmonitor : self.grpc.monitor with
    | none => simp [hmonitor] at hended
    | some monitor =>
      cases monitor with
      | ended =>
        dsimp only
        simp [ended, hmonitor, Monitor.is_ended]
      | _ => simp [hmonitor, Monitor.is_ended] at hended
  | host act =>
    rw [step]
    split <;> exact hended

/-- What the health service says, after the looks `looks` of the gRPC server:
    that the service is serving if and only if the last look has found a sidecar
    that runs, up to the end of the monitor; then the requests are told to stop,
    and the service is never serving again. -/
structure GrpcReport (parsers : Parsers) (program : Program) (looks : List Bool) : Prop where
  serving : program.grpc.serving = some true ↔
    ended program.grpc = false ∧ looks.getLast? = some true
  found : ∀ act, true ∈ program.look parsers act →
    ∃ child, program.host.engine.shared.running = some child
  stopped : ended program.grpc = true → program.grpc.request_shutdown = true ∧
    ∀ later, (run (step parsers) program later).grpc.serving = some false

/-- A look that finds the engine ready finds a sidecar. -/
theorem Watching.found {looks : List Bool} (h : Watching self.host self.grpc looks)
    {act : ProgramAct} (hact : true ∈ self.look parsers act) :
    ∃ child, self.host.engine.shared.running = some child := by
  have hfound {j : Nat} (hwaiting : Waiting self.host j) {answer : Engine.Choice}
      (hlook : true ∈ (self.poll_status parsers j answer).2.toList) :
      ∃ child, self.host.engine.shared.running = some child := by
    rcases poll_status_cases parsers hwaiting answer with
      ⟨hpoll, -⟩ | ⟨ready, hpoll, hready⟩
    · simp [hpoll] at hlook
    · rw [hpoll] at hlook
      obtain rfl : ready = true := by simpa using hlook
      exact hready rfl
  unfold look at hact
  split at hact
  · rename_i choice
    have hlook : true ∈ self.look_grpc_serve parsers choice := by
      split at hact
      · exact hact
      · exact hact
      · cases hact
    unfold look_grpc_serve at hlook
    split at hlook
    · rename_i j hphase
      exact hfound (h.first j hphase) hlook
    · cases hlook
  · split at hact
    · rename_i j hmonitor
      exact hfound (h.monitor j hmonitor) hact
    · cases hact
  · cases hact

/-- The health service reports what the gRPC server has found. -/
theorem grpc_health_reported (parsers : Parsers) (limits : ServerLimits)
    (engine : Engine.GenerationEngine) (acts : List ProgramAct) :
    GrpcReport parsers (run (step parsers) (start limits engine) acts)
      (outputs (step parsers) (look parsers) (start limits engine) acts) := by
  have hhost : ∀ (host : LocalInference) (act : LocalAct), LocalInference.Calling host →
      LocalInference.Calling (host.step parsers act) :=
    fun _ act h => LocalInference.calling_step h act
  have hstep : ∀ (program : Program) (act : ProgramAct) (looks : List Bool),
      LocalInference.Calling program.host ∧ Watching program.host program.grpc looks →
      LocalInference.Calling (program.step parsers act).host ∧
        Watching (program.step parsers act).host (program.step parsers act).grpc
          (looks ++ program.look parsers act) :=
    fun _ act _ h => ⟨host_step hhost h.1 act, watching_step h.1 h.2 act⟩
  have hstart : Watching (start limits engine).host (start limits engine).grpc [] :=
    ⟨nofun, nofun, fun _ _ => rfl, rfl, nofun⟩
  obtain ⟨hcalling, hwatching⟩ := invariant_outputs hstep
    ⟨LocalInference.calling_with_limits limits engine, hstart⟩ acts
  rw [List.nil_append] at hwatching
  refine ⟨?_, fun act hact => hwatching.found hact, fun hended => ⟨hwatching.told hended, ?_⟩⟩
  · rw [hwatching.serving]
    split <;> simp [*]
  · intro later
    have hlater : ∀ (program : Program) (act : ProgramAct) (looks : List Bool),
        (LocalInference.Calling program.host ∧ Watching program.host program.grpc looks) ∧
          ended program.grpc = true →
        (LocalInference.Calling (program.step parsers act).host ∧
          Watching (program.step parsers act).host (program.step parsers act).grpc
            (looks ++ program.look parsers act)) ∧
          ended (program.step parsers act).grpc = true :=
      fun program act looks h => ⟨hstep program act looks h.1, ended_step h.1.2 h.2 act⟩
    obtain ⟨⟨-, hwatching⟩, hended⟩ :=
      invariant_outputs hlater ⟨⟨hcalling, hwatching⟩, hended⟩ later
    rw [hwatching.serving, if_pos hended]

end Program

end Inferences.Server
