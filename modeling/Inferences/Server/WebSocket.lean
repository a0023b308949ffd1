import Inferences.Schedule
import Inferences.Server.Http

/-!
# WebSocket sessions

A session serves one generation at a time. Its loop races the client's
messages with the events of the active generation; each of the two is handled
to its end before the next. A handler answers the client, may replace or take
the active generation, and says whether the session goes on: it does not when
an answer cannot be sent.

The session keeps a log, which the code does not have: the generations it
accepted, those it cancelled and the messages it sent, each with the
generation it comes from. `live` are the event streams that exist; a stream is
dropped with the variable that owns it.
-/

namespace Inferences.Server.WebSocket

open Schedule Protocol

/-- The generation a session serves, known by its request id. -/
structure ActiveWebSocketGeneration where
  internal_id : UInt64
  id : String
  events : EngineEventStream
  usage : Option TokenUsage

/-- A generation as the session accepted it, with all its stream yields. -/
structure Generation where
  internal_id : UInt64
  id : String
  script : EngineEventStream

/-- An entry of the log. -/
inductive Entry
  | accepted (generation : Generation)
  | cancelled (internal_id : UInt64)
  | message (origin : Option UInt64) (message : WebSocketServerMessage)

/-- The generation an entry is about. -/
def Entry.origin : Entry → Option UInt64
  | accepted generation => some generation.internal_id
  | cancelled internal_id => some internal_id
  | message origin _ => origin

/-- The session: the source of request ids it shares with other sessions, the
    active generation, whether its loop runs, the live streams and the log. -/
structure Session where
  websocket_request_ids : UInt64 := 0
  active : Option ActiveWebSocketGeneration := none
  running : Bool := true
  live : List UInt64 := []
  log : List Entry := []

/-- A message that comes in. -/
inductive Message
  | Text (text : String)
  | Binary
  | Ping
  | Pong
  | Close

/-- What the environment of a handler does: whether the answer can be sent,
    whether the context of a new request can be made, and what the engine
    answers to the request. -/
structure Environment where
  sent : Bool
  context : Bool := true
  generate : GenerationRequest → Except EngineError EngineEventStream := fun _ =>
    .error .Configuration

/-- `RequestIdSource::next`: the value of the source after it. -/
def next_id (previous : UInt64) : Option UInt64 :=
  if previous.toNat + 1 < UInt64.size then some (previous + 1) else none

namespace Session

/-- The session returns: its active generation is dropped. -/
def exit (self : Session) : Session :=
  { self with active := none, running := false, live := [] }

/-- Sending a message; the session returns when it cannot. -/
def send_websocket (self : Session) (origin : Option UInt64) (message : WebSocketServerMessage)
    (sent : Bool) : Session :=
  if sent then { self with log := self.log ++ [.message origin message] } else self.exit

/-- An error is sent to the client. -/
def send_websocket_error (self : Session) (origin : Option UInt64) (id : Option String)
    (code message : String) (sent : Bool) : Session :=
  self.send_websocket origin (.Error id code message) sent

/-- Taking the active generation out of the session, which drops its stream. -/
def take (self : Session) (request : ActiveWebSocketGeneration) : Session :=
  { self with active := none, live := self.live.erase request.internal_id }

/-- The request that is active is cancelled. -/
def cancel_active (self : Session) : Session :=
  match self.active with
  | none => self
  | some request =>
    { self.take request with log := self.log ++ [.cancelled request.internal_id] }

/-- What a `Start` does. -/
def start_websocket_generation (self : Session) (env : Environment) (id : String)
    (request : WebSocketGeneration) : Session :=
  if id.isEmpty || id.utf8ByteSize > 128 then
    self.send_websocket_error none none "invalid_request"
      "the request id is outside the supported bound" env.sent
  else if self.active.isSome then
    self.send_websocket_error none (some id) "overloaded"
      "only one request may be active in a session" env.sent
  else match next_id self.websocket_request_ids with
    | none =>
      self.send_websocket_error none (some id) "internal" "an internal server error occurred"
        env.sent
    | some internal_id =>
      let self := { self with websocket_request_ids := internal_id }
      if !env.context then
        self.send_websocket_error none (some id) "internal" "an internal server error occurred"
          env.sent
      else match env.generate request.into_generation with
        | .ok events =>
          { self with
            active := some { internal_id, id, events, usage := none },
            live := internal_id :: self.live,
            log := self.log ++ [.accepted { internal_id, id, script := events }] }
        | .error error =>
          let (_, code, message) := engine_error error
          self.send_websocket_error none (some id) code message env.sent

section
variable (from_str : String → Option WebSocketClientMessage)

/-- What a message does. -/
def handle_websocket_message (self : Session) (env : Environment) : Message → Session
  | .Text text =>
    match from_str text with
    | none =>
      self.send_websocket_error none none "invalid_request" "the WebSocket message is invalid"
        env.sent
    | some (.Start id request) => self.start_websocket_generation env id request
    | some (.Cancel id) =>
      match self.active with
      | some request =>
        if request.id = id then
          self.cancel_active.send_websocket_error request.internal_id (some id) "cancelled"
            "the request was cancelled" env.sent
        else
          self.send_websocket_error none (some id) "invalid_request" "no matching request is active"
            env.sent
      | none =>
        self.send_websocket_error none (some id) "invalid_request" "no matching request is active"
          env.sent
    | some .Ping => self.send_websocket none .Pong env.sent
    | some .Close => self.cancel_active.exit
  | .Binary =>
    self.send_websocket_error none none "invalid_request"
      "binary and media messages are not supported" env.sent
  | .Ping => if env.sent then self else self.exit
  | .Pong => self
  | .Close => self.cancel_active.exit

/-- An event of the stream of the active generation `request`, or its end. -/
def handle_websocket_event (self : Session) (request : ActiveWebSocketGeneration) (sent : Bool) :
    Session :=
  match request.events with
  | .ok (.Delta delta) :: events =>
    { self with active := some { request with events } }.send_websocket request.internal_id
      (.Delta request.id delta) sent
  | .ok (.Usage usage) :: events =>
    { self with active := some { request with events, usage := some usage } }
  | .ok (.Finished reason) :: _ =>
    match request.usage with
    | none =>
      (self.take request).send_websocket_error request.internal_id (some request.id)
        "upstream_protocol" "the local runtime ended unexpectedly" sent
    | some usage =>
      (self.take request).send_websocket request.internal_id
        (.Final request.id (finish_reason reason) usage.prompt_tokens usage.completion_tokens
          usage.total_tokens) sent
  | .error error :: _ =>
    let (_, code, message) := engine_error error
    (self.take request).send_websocket_error request.internal_id (some request.id) code message sent
  | [] =>
    (self.take request).send_websocket_error request.internal_id (some request.id)
      "upstream_protocol" "the local runtime ended unexpectedly" sent

/-- What happens next to a session: a message of its client (an error of the
    socket, or its end), the next event of the active generation, or another
    session taking a request id. -/
inductive Act
  | socket (message : Option (Except Unit Message)) (env : Environment)
  | engine (sent : Bool)
  | other

/-- One turn of the loop of `websocket_session`. -/
def step (self : Session) : Act → Session
  | .other =>
    { self with websocket_request_ids :=
        (next_id self.websocket_request_ids).getD self.websocket_request_ids }
  | .socket message env =>
    if self.running then
      match message with
      | some (.ok message) => self.handle_websocket_message from_str env message
      | _ => self.cancel_active.exit
    else self
  | .engine sent =>
    if self.running then
      match self.active with
      | some request => self.handle_websocket_event request sent
      | none => self
    else self

/-- A new session, once its greeting is sent. -/
def websocket_session (websocket_request_ids : UInt64) (sent : Bool) : Session :=
  { websocket_request_ids : Session }.send_websocket none (.Ready 1 model_id) sent

end

end Session

end Inferences.Server.WebSocket
