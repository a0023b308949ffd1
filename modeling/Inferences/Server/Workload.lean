import Inferences.Schedule
import Inferences.Server.Gate
import Inferences.Server.Mcp

/-!
# The server around a workload

Every request to the workload goes through `enforce_workload_policy`: it passes
the gate and takes an admission permit, has its body read, waits for an
execution permit, is handled, and its answer is streamed; what it holds is
given back when it is answered early, or when the body of its answer is over.
A `Phase` is a place where a request can wait, and one poll goes on from it.
The body of a request to `/mcp` is read once more, before the gate.

`serve` runs the server until its shutdown token is cancelled, drains it and
has the workload clean up. One act (`Act`) is an arrival, a poll, a client that
goes away, the cancellation of the shutdown token, or the passing of time; acts
come in any order.

The server is taken with the parsers it uses for MCP, and with the largest body
that the handler of MCP extracts.
-/

namespace Inferences.Server

open Json Http

/-- The largest `usize`. -/
def MAX_USIZE : Nat := 2 ^ 64 - 1

/-- The bounds on the limits of the server. -/
def MAX_REQUEST_BYTES : Nat := 1024 * 1024 * 1024
def MAX_QUEUE_CAPACITY : Nat := 1000000
def MAX_CONCURRENT_REQUESTS : Nat := 1000000
/-- One day, in nanoseconds. -/
def MAX_TIMEOUT : Nat := 24 * 60 * 60 * 10 ^ 9

/-- A validated limit set. -/
structure ServerLimits where
  max_request_bytes : Nat
  queue_capacity : Nat
  max_concurrent_requests : Nat
  request_timeout : Nat
  shutdown_timeout : Nat
  bytes_bounded : 0 < max_request_bytes ∧ max_request_bytes ≤ MAX_REQUEST_BYTES
  queue_bounded : 0 < queue_capacity ∧ queue_capacity ≤ MAX_QUEUE_CAPACITY
  requests_bounded :
    0 < max_concurrent_requests ∧ max_concurrent_requests ≤ MAX_CONCURRENT_REQUESTS
  request_timeout_bounded : 0 < request_timeout ∧ request_timeout ≤ MAX_TIMEOUT
  shutdown_timeout_bounded : 0 < shutdown_timeout ∧ shutdown_timeout ≤ MAX_TIMEOUT

/-- `usize::saturating_add`. -/
def usize_saturating_add (a b : Nat) : Nat := min (a + b) MAX_USIZE

/-- What a client receives: the status, and the body if it is a JSON document. -/
structure Reply where
  status : Nat
  body : Option Value

/-- A response with a body. -/
def Http.Response.reply (response : Response) : Reply := ⟨response.status, some response.body⟩

/-! ## Requests -/

/-- Where a request waits: for its first poll; for its body, before the gate and
    after it; for an execution permit; for its handler; for the end of the body
    of its answer. Or it is over: answered early, answered to the end, or given
    up by its client. -/
inductive Phase
  | arriving
  | preloading
  | reading
  | queueing
  | handling
  | streaming (reply : Reply)
  | answered (reply : Reply)
  | finished (reply : Reply)
  | dropped

/-- The phase holds a work guard and an admission permit, an execution permit. -/
def Phase.admitted : Phase → Bool
  | reading | queueing | handling | streaming _ => true
  | _ => false

/-- The request holds a permit to execute. -/
def Phase.executing : Phase → Bool
  | handling | streaming _ => true
  | _ => false

/-- The body of the request is being buffered, or has been, and the request is
    not answered to the end. -/
def Phase.buffering : Phase → Bool
  | preloading | reading | queueing | handling | streaming _ => true
  | _ => false

/-- The request is neither answered, with the body of its answer, nor given up. -/
def Phase.live : Phase → Bool
  | answered _ | finished _ | dropped => false
  | _ => true

/-- A request: what it asks for, what its body comes to, whether it arrived at a
    closed gate, and how far it is. -/
structure Request where
  is_mcp : Bool
  headers : Mcp.Headers
  upload : Except Unit Bytes
  late_arrival : Bool
  mcp_id : Option Value := none
  body : Bytes := []
  phase : Phase := .arriving

/-- The state the requests share: the gate and the free permits. -/
structure Shared where
  gate : ShutdownGate := {}
  admitted : Nat
  execution : Nat

/-- What a handler answers: the methods of MCP, for a request to `/mcp`, and the
    reply to any other request. -/
structure Handled where
  methods : Mcp.Methods
  reply : Reply

/-- What the world answers to one poll: whether the body is there, the deadline
    is over, the context could be made and a free permit is handed over; what
    the handler answers; and whether the body of the answer goes on. -/
structure Choice where
  uploaded : Bool
  late : Bool
  context : Bool
  permit : Bool
  handled : Option Handled
  next : Option Bool

/-- The reply of the layers around a handler. -/
def workload_error (is_mcp : Bool) (mcp_id : Option Value) (status : Nat) (code message : String) :
    Reply :=
  if is_mcp then (Mcp.outer_error mcp_id message status).reply
  else (public_error status code message).reply

/-- `body::to_bytes`. -/
def to_bytes (upload : Except Unit Bytes) (max_bytes : Nat) : Except Unit Bytes :=
  match upload with
  | .ok bytes => if bytes.length ≤ max_bytes then .ok bytes else .error ()
  | .error () => .error ()

/-- The last layer, around all routes. -/
def normalize_public_failures (reply : Reply) : Reply :=
  match reply.status with
  | 405 => (public_error 405 "invalid_request" "the request method is not supported").reply
  | 413 =>
    (public_error 413 "invalid_request" "the request body exceeds the configured limit").reply
  | _ => reply

namespace Request

/-- What a request gives back. -/
def leave (self : Request) (shared : Shared) : Shared where
  gate := if self.phase.admitted then shared.gate.leave else shared.gate
  admitted := if self.phase.admitted then shared.admitted + 1 else shared.admitted
  execution := if self.phase.executing then shared.execution + 1 else shared.execution

/-- The request has its reply. -/
def answer (self : Request) (reply : Reply) : Request := { self with phase := .answered reply }

/-- The request is answered before it is handled. -/
def fail (self : Request) (shared : Shared) (status : Nat) (code message : String) :
    Shared × Request :=
  (self.leave shared,
    self.answer (workload_error self.is_mcp self.mcp_id status code message))

/-- The gate, the admission permit and the context of a request, up to the wait
    for its body. -/
def enter (self : Request) (shared : Shared) (choice : Choice) : Shared × Request :=
  match shared.gate.try_enter with
  | none => self.fail shared 503 "cancelled" "the request was cancelled"
  | some gate =>
    if shared.admitted = 0 then
      self.fail { shared with gate := gate.leave } 429 "overloaded"
        "the service is temporarily overloaded"
    else if !choice.context then
      self.fail { shared with gate := gate.leave } 500 "internal"
        "an internal server error occurred"
    else
      ({ shared with gate, admitted := shared.admitted - 1 }, { self with phase := .reading })

/-- `preload_mcp_request`, for a request to `/mcp`. -/
def preload_mcp_request (from_slice : Bytes → Option Value) (self : Request) (max_bytes : Nat)
    (shared : Shared) (choice : Choice) : Shared × Request :=
  if choice.uploaded then
    match to_bytes self.upload max_bytes with
    | .ok bytes =>
      { self with upload := .ok bytes, mcp_id := Mcp.request_id from_slice bytes }.enter shared
        choice
    | .error () =>
      (shared, self.answer
        (Mcp.outer_error none "the request body exceeds the configured limit" 413).reply)
  else if choice.late then
    (shared, self.answer (Mcp.outer_error none "the request deadline was exceeded" 504).reply)
  else (shared, self)

/-- The body of the request, when it is there and not too long. -/
def read_request_body (self : Request) (max_bytes : Nat) (shared : Shared) (choice : Choice) :
    Shared × Request :=
  if shared.gate.stopped then self.fail shared 503 "cancelled" "the request was cancelled"
  else if choice.uploaded then
    match to_bytes self.upload max_bytes with
    | .ok body => (shared, { self with body, phase := .queueing })
    | .error () =>
      self.fail shared 413 "invalid_request" "the request body exceeds the configured limit"
  else if choice.late then
    self.fail shared 504 "deadline_exceeded" "the request deadline was exceeded"
  else (shared, self)

/-- The execution semaphore is never closed. -/
def acquire_execution (self : Request) (shared : Shared) (choice : Choice) : Shared × Request :=
  if shared.gate.stopped then self.fail shared 503 "cancelled" "the request was cancelled"
  else if choice.permit && 0 < shared.execution then
    ({ shared with execution := shared.execution - 1 }, { self with phase := .handling })
  else if choice.late then
    self.fail shared 504 "deadline_exceeded" "the request deadline was exceeded"
  else (shared, self)

/-- What the route of the request answers: that of MCP extracts the body first. -/
def route (parse : Bytes → Option Mcp.RpcRequest) (body_limit : Nat) (self : Request)
    (handled : Handled) : Reply :=
  if self.is_mcp then
    if self.body.length > body_limit then ⟨413, none⟩
    else (Mcp.handle parse handled.methods self.headers self.body).reply
  else handled.reply

/-- The reply of the handler, or of the layers around it. -/
def run_workload_handler (parse : Bytes → Option Mcp.RpcRequest) (body_limit : Nat)
    (self : Request) (shared : Shared) (choice : Choice) : Option Reply :=
  if shared.gate.stopped then
    some (workload_error self.is_mcp self.mcp_id 503 "cancelled" "the request was cancelled")
  else if choice.late then
    some (workload_error self.is_mcp self.mcp_id 504 "deadline_exceeded"
      "the request deadline was exceeded")
  else choice.handled.map (self.route parse body_limit)

/-- One poll of a request, or of the body of its answer. -/
def poll (from_slice : Bytes → Option Value) (parse : Bytes → Option Mcp.RpcRequest)
    (body_limit : Nat) (limits : ServerLimits) (self : Request) (shared : Shared)
    (choice : Choice) : Shared × Request :=
  match self.phase with
  | .arriving =>
    if self.is_mcp then (shared, { self with phase := .preloading })
    else self.enter shared choice
  | .preloading => self.preload_mcp_request from_slice limits.max_request_bytes shared choice
  | .reading => self.read_request_body limits.max_request_bytes shared choice
  | .queueing => self.acquire_execution shared choice
  | .handling =>
    match self.run_workload_handler parse body_limit shared choice with
    | some reply => (shared, { self with phase := .streaming reply })
    | none => (shared, self)
  | .streaming reply =>
    match choice.next with
    | some false => (self.leave shared, { self with phase := .finished reply })
    | _ => (shared, self)
  | _ => (shared, self)

/-- The client goes away, and with it the request or the body of its answer. -/
def drop (self : Request) (shared : Shared) : Shared × Request :=
  match self.phase with
  | .answered _ | .finished _ | .dropped => (shared, self)
  | _ => (self.leave shared, { self with phase := .dropped })

end Request

/-! ## The server -/

/-- What the process does. -/
inductive ProcessState
  | Running
  | Draining
  | Stopped
  deriving DecidableEq

/-- The errors `serve` returns: the drain or the cleanup has timed out, or the
    server itself has failed. -/
inductive ServeError
  | http_timed_out
  | workload_timed_out
  | server
  deriving DecidableEq

/-- Where `serve` waits: for the end of the server or of its shutdown token; for
    the drain of the gate, then for the end of the server, then for the cleanup,
    each up to a deadline. Or it has returned. -/
inductive ServePhase
  | running
  | draining (deadline drain_deadline : Nat)
  | closing (deadline : Nat) (outcome : DrainOutcome)
  | cleaning (deadline : Nat) (forced : Bool) (result : Except ServeError Unit)
  | returned (result : Except ServeError Unit)

/-- What is known when the cleanup is polled for the first time: whether the
    shutdown token has stopped the server, the deadline, how the drain and the
    server ended, whether the stop token and the force token are cancelled, and
    how many admitted requests are live. -/
structure FirstPoll where
  by_token : Bool
  deadline : Nat
  outcome : DrainOutcome
  http_timed_out : Bool
  stopped : Bool
  force : Bool
  live : Nat

/-- The cleanup of the workload: how often it was started and polled, whether it
    was completed or abandoned, and when, and its force token. -/
structure Cleanup where
  started : Nat := 0
  polled : Nat := 0
  completed : Option Bool := none
  ended : Nat := 0
  force : Bool := false
  first : Option FirstPoll := none

/-- The server, with its requests. -/
structure InferenceServer where
  limits : ServerLimits
  shared : Shared
  requests : List Request := []
  now : Nat := 0
  process : ProcessState := .Running
  serve : ServePhase := .running
  cleanup : Cleanup := {}

/-- What the world answers to a poll of `serve`: whether the shutdown token is
    cancelled, whether and how the server has ended, whether the cleanup is
    complete, and how long the poll takes up to the next look at the clock. -/
structure ServeChoice where
  shutdown : Bool
  http_ended : Option (Except Unit Unit)
  cleaned : Bool
  lag : Nat

namespace InferenceServer

/-- A server that has not been asked anything. -/
def with_limits (limits : ServerLimits) : InferenceServer where
  limits := limits
  shared :=
    { admitted := usize_saturating_add limits.max_concurrent_requests limits.queue_capacity
      execution := limits.max_concurrent_requests }

/-- `serve` returns, when the cleanup was completed or abandoned. -/
def stop (self : InferenceServer) (forced : Bool) (result : Except ServeError Unit)
    (completed : Bool) : InferenceServer :=
  { self with
    process := .Stopped
    cleanup := { self.cleanup with
      completed := some completed, ended := self.now
      force := self.cleanup.force || !completed }
    serve := .returned <|
      if forced then .error .http_timed_out
      else if completed then result else .error .workload_timed_out }

/-- The start of `poll_workload_shutdown`: the first poll of the cleanup. -/
def poll_workload_shutdown (self : InferenceServer) (deadline : Nat) (by_token : Bool)
    (outcome : DrainOutcome) (http_timed_out : Bool) (result : Except ServeError Unit)
    (choice : ServeChoice) : InferenceServer :=
  let forced := by_token && (outcome = .Forced || http_timed_out)
  let gate := if forced || !by_token then self.shared.gate.stop_now else self.shared.gate
  let first : FirstPoll :=
    { by_token, deadline, outcome, http_timed_out, stopped := gate.stopped, force := forced
      live := self.requests.countP (·.phase.admitted) }
  let self := { self with
    shared := { self.shared with gate }
    cleanup := { self.cleanup with
      started := self.cleanup.started + 1, polled := self.cleanup.polled + 1
      force := forced, first := some first } }
  if choice.cleaned then self.stop forced result true
  else if deadline ≤ self.now + choice.lag then self.stop forced result false
  else { self with serve := .cleaning deadline forced result }

/-- One poll of `serve`. A timeout looks at what it waits for first. -/
def poll_serve (self : InferenceServer) (choice : ServeChoice) : InferenceServer :=
  match self.serve with
  | .running =>
    if choice.shutdown then
      let deadline := self.now + self.limits.shutdown_timeout
      let (gate, outcome) := self.shared.gate.begin_drain
      { self with
        shared := { self.shared with gate }
        process := .Draining
        serve := match outcome with
          | some outcome => .closing deadline outcome
          | none => .draining deadline (self.now + choice.lag + self.limits.shutdown_timeout) }
    else match choice.http_ended with
      | some result =>
        { self with process := .Draining }.poll_workload_shutdown
          (self.now + self.limits.shutdown_timeout) false .Forced false
          (result.mapError fun _ => .server) choice
      | none => self
  | .draining deadline drain_deadline =>
    if self.shared.gate.stopped then
      { self with serve := .closing deadline self.shared.gate.terminal_outcome }
    else if drain_deadline ≤ self.now then
      { self with
        shared := { self.shared with gate := self.shared.gate.stop_now }
        serve := .closing deadline .Forced }
    else self
  | .closing deadline outcome =>
    if choice.http_ended.isSome then
      self.poll_workload_shutdown deadline true outcome false (.ok ()) choice
    else if deadline ≤ self.now then
      self.poll_workload_shutdown deadline true outcome true (.ok ()) choice
    else self
  | .cleaning deadline forced result =>
    let self := { self with cleanup := { self.cleanup with polled := self.cleanup.polled + 1 } }
    if choice.cleaned then self.stop forced result true
    else if deadline ≤ self.now then self.stop forced result false
    else self
  | .returned _ => self

/-- The state of the server after a step of one of its requests. -/
def with_request (self : InferenceServer) (i : Nat) (step : Request → Shared × Request) :
    InferenceServer :=
  match self.requests[i]? with
  | none => self
  | some request =>
    let (shared, request) := step request
    { self with shared, requests := self.requests.set i request }

end InferenceServer

/-- An act of the server, or of its environment. -/
inductive Act
  | arrive (is_mcp : Bool) (headers : Mcp.Headers) (upload : Except Unit Bytes)
  | poll (i : Nat) (choice : Choice)
  | drop (i : Nat)
  | serve (choice : ServeChoice)
  | tick (time : Nat)

/-- The parsers the server uses, and the largest body that an extractor takes. -/
structure Parsers where
  from_slice : Bytes → Option Value
  parse : Bytes → Option Mcp.RpcRequest
  body_limit : Nat

/-- The server after one act. -/
def InferenceServer.step (parsers : Parsers) (self : InferenceServer) : Act → InferenceServer
  | .arrive is_mcp headers upload =>
    let late_arrival := self.shared.gate.phase ≠ .Accepting
    { self with requests := self.requests ++ [{ is_mcp, headers, upload, late_arrival }] }
  | .poll i choice => self.with_request i fun request =>
      request.poll parsers.from_slice parsers.parse parsers.body_limit self.limits self.shared
        choice
  | .drop i => self.with_request i fun request => request.drop self.shared
  | .serve choice => self.poll_serve choice
  | .tick time => { self with now := self.now + time }

end Inferences.Server
