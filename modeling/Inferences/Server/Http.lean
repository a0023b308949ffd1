import Inferences.Json
import Inferences.Protocol

/-!
# The HTTP transport

A generation is answered by one JSON document (`collect_response`) or by a
stream of server-sent events (`sse_response`). The stream unfolds a state with
two flags: `send_done` once the finish reason is out, so that `[DONE]` comes
next, and `finished` once the last event is out.

The data of an event is kept as the JSON value it is the text of. The clock
gives the time of each chunk, by its position in the stream.
-/

namespace Inferences.Server

open Json Protocol

/-- The stable status, code and message of an engine failure. -/
def engine_error : EngineError → Nat × String × String
  | .InvalidRequest _ => (400, "invalid_request", "the generation request is invalid")
  | .Overloaded => (429, "overloaded", "the service is temporarily overloaded")
  | .Cancelled => (499, "cancelled", "the request was cancelled")
  | .DeadlineExceeded => (504, "deadline_exceeded", "the request deadline was exceeded")
  | .ArtifactsUnavailable | .RuntimeUnavailable =>
    (503, "not_ready", "the local inference runtime is unavailable")
  | .RuntimeProtocol =>
    (502, "upstream_protocol", "the local runtime returned an invalid response")
  | .ShuttingDown => (503, "shutting_down", "the service is shutting down")
  | .Configuration => (500, "internal", "an internal server error occurred")

/-- The text of a finish reason. -/
def finish_reason : FinishReason → String
  | .Stop => "stop"
  | .Length => "length"
  | .Cancelled => "cancelled"

namespace Http

/-- The two endpoints, which answer in forms of their own. -/
inductive ResponseMode
  | Completion
  | Chat
  deriving DecidableEq

/-- An HTTP response with a JSON body. -/
structure Response where
  status : Nat
  body : Value

/-- The body of a response with an error. -/
def error_body (code message : String) : Value :=
  .object [("error", .object [("code", .string code), ("message", .string message)])]

/-- A response with an error. -/
def public_error (status : Nat) (code message : String) : Response :=
  ⟨status, error_body code message⟩

/-- The response that an error of the engine is answered with. -/
def engine_error_response (error : EngineError) : Response :=
  let (status, code, message) := engine_error error
  public_error status code message

/-- A counter as a value. -/
def counter (n : UInt32) : Value := .number (.posInt n.toUInt64)

/-- The counters as a value. -/
def usage_json (usage : TokenUsage) : Value :=
  .object [("prompt_tokens", counter usage.prompt_tokens),
    ("completion_tokens", counter usage.completion_tokens),
    ("total_tokens", counter usage.total_tokens)]

/-! ## One document -/

/-- The document of a whole answer. -/
def response_body (unix_timestamp : UInt64) (request_id : String) (mode : ResponseMode)
    (text : String) (usage : TokenUsage) (finish : FinishReason) : Value :=
  let choice := match mode with
    | .Completion => .object [("text", .string text), ("index", counter 0), ("logprobs", .null),
        ("finish_reason", .string (finish_reason finish))]
    | .Chat => .object [("index", counter 0),
        ("message", .object [("role", .string "assistant"), ("content", .string text)]),
        ("finish_reason", .string (finish_reason finish))]
  .object [("id", .string request_id),
    ("object", .string <| match mode with
      | .Completion => "text_completion"
      | .Chat => "chat.completion"),
    ("created", .number (.posInt unix_timestamp)),
    ("model", .string model_id),
    ("choices", .array [choice]),
    ("usage", usage_json usage)]

/-- The loop of `collect_response`. -/
def collect_from (unix_timestamp : UInt64) (request_id : String) (mode : ResponseMode)
    (text : String) (usage : Option TokenUsage) (finish : Option FinishReason) :
    EngineEventStream → Response
  | .ok (.Delta delta) :: events =>
    collect_from unix_timestamp request_id mode (text ++ delta) usage finish events
  | .ok (.Usage value) :: events =>
    collect_from unix_timestamp request_id mode text (some value) finish events
  | .ok (.Finished reason) :: events =>
    collect_from unix_timestamp request_id mode text usage (some reason) events
  | .error error :: _ => engine_error_response error
  | [] =>
    match usage, finish with
    | some usage, some finish =>
      ⟨200, response_body unix_timestamp request_id mode text usage finish⟩
    | _, _ => engine_error_response .RuntimeProtocol

/-- The response that the events of a generation make up. -/
def collect_response (unix_timestamp : UInt64) (events : EngineEventStream) (request_id : String)
    (mode : ResponseMode) : Response :=
  collect_from unix_timestamp request_id mode "" none none events

/-! ## Server-sent events -/

/-- The data of an event: the text of a JSON value, or `[DONE]`. -/
inductive Data
  | json (value : Value)
  | done

/-- A server-sent event; one without a name is a `message`. -/
structure Event where
  event : Option String := none
  data : Data

/-- A streaming response: the events to come, and what was sent. -/
structure SseState where
  events : EngineEventStream
  request_id : String
  mode : ResponseMode
  send_done : Bool := false
  finished : Bool := false

/-- The choice of a chunk that reports no usage. -/
def stream_choice (mode : ResponseMode) (delta : Option String) (finish : Option FinishReason) :
    Value :=
  let reason := (finish.map fun finish => Value.string (finish_reason finish)).getD .null
  match mode with
  | .Completion => .object [("text", .string (delta.getD "")), ("index", counter 0),
      ("logprobs", .null), ("finish_reason", reason)]
  | .Chat => .object [("index", counter 0),
      ("delta", .object (delta.map fun delta => ("content", .string delta)).toList),
      ("finish_reason", reason)]

/-- A chunk of a streaming response. -/
def stream_chunk (unix_timestamp : UInt64) (request_id : String) (mode : ResponseMode)
    (delta : Option String) (finish : Option FinishReason) (usage : Option TokenUsage) : Value :=
  let choices := if usage.isSome then [] else [stream_choice mode delta finish]
  .object <| [("id", .string request_id),
    ("object", .string <| match mode with
      | .Completion => "text_completion"
      | .Chat => "chat.completion.chunk"),
    ("created", .number (.posInt unix_timestamp)),
    ("model", .string model_id),
    ("choices", .array choices)] ++ (usage.map fun usage => ("usage", usage_json usage)).toList

/-- The closure `sse_response` unfolds: the next event and the state after it. -/
def SseState.next (unix_timestamp : UInt64) (state : SseState) : Option (Event × SseState) :=
  let chunk := stream_chunk unix_timestamp state.request_id state.mode
  if state.finished then none
  else if state.send_done then some ({ data := .done }, { state with finished := true })
  else match state.events with
    | .ok (.Delta delta) :: events =>
      some ({ data := .json (chunk (some delta) none none) }, { state with events })
    | .ok (.Usage usage) :: events =>
      some ({ data := .json (chunk none none (some usage)) }, { state with events })
    | .ok (.Finished reason) :: events =>
      some ({ data := .json (chunk none (some reason) none) },
        { state with events, send_done := true })
    | .error error :: events =>
      let (_, code, message) := engine_error error
      some ({ event := some "error", data := .json (error_body code message) },
        { state with events, finished := true })
    | [] =>
      some ({ event := some "error",
              data := .json
                (error_body "upstream_protocol" "the local runtime ended unexpectedly") },
        { state with finished := true })

/-- The most events a state can still unfold to. -/
def SseState.remaining (state : SseState) : Nat :=
  if state.finished then 0 else if state.send_done then 1 else state.events.length + 2

theorem SseState.remaining_next {unix_timestamp : UInt64} {state state' : SseState} {event : Event}
    (h : state.next unix_timestamp = some (event, state')) :
    state'.remaining < state.remaining := by
  unfold SseState.next at h
  unfold SseState.remaining
  grind

/-- The events a state unfolds to, the `n`-th being the next one. -/
def SseState.unfold (clock : Nat → UInt64) (n : Nat) (state : SseState) : List Event :=
  match _h : state.next (clock n) with
  | none => []
  | some (event, state) => event :: state.unfold clock (n + 1)
termination_by state.remaining
decreasing_by exact SseState.remaining_next _h

theorem unfold_eq (clock : Nat → UInt64) (n : Nat) (state : SseState) :
    state.unfold clock n = match state.next (clock n) with
      | none => []
      | some (event, state) => event :: state.unfold clock (n + 1) := by
  rw [SseState.unfold]
  split <;> simp_all

/-- A state that is finished unfolds to nothing. -/
theorem unfold_finished (clock : Nat → UInt64) (id : String) (mode : ResponseMode) (n : Nat)
    (events : EngineEventStream) (send_done : Bool) :
    SseState.unfold clock n
      { events, request_id := id, mode, send_done, finished := true } = [] := by
  rw [unfold_eq]
  rfl

/-- The events of a streamed response; the comments that keep it alive carry
    nothing. -/
def sse_response (clock : Nat → UInt64) (events : EngineEventStream) (request_id : String)
    (mode : ResponseMode) : List Event :=
  SseState.unfold clock 0 { events, request_id, mode }

end Http

end Inferences.Server
