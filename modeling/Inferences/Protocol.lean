import Inferences.Domain

/-!
# The public contracts

The requests that HTTP, MCP and WebSocket clients send, with their conversion
to the engine's `GenerationRequest`, and the messages of the WebSocket
protocol.
-/

namespace Inferences.Protocol

/-- The one model that is served. -/
def model_id : String := CURATED_MODEL_ID

/-- A stop string, or a list of them. -/
inductive StopInput
  | One (value : String)
  | Many (values : List String)

/-- The stop strings of a request. -/
def StopInput.into_vec : StopInput → List String
  | One value => [value]
  | Many values => values

/-- A request to continue a prompt. -/
structure CompletionRequest where
  model : String
  prompt : String
  max_tokens : UInt32
  temperature : Float32
  top_p : Float32
  seed : Option UInt32
  stop : Option StopInput
  stream : Bool

/-- The request of the engine for a completion. -/
def CompletionRequest.into_generation (self : CompletionRequest) : GenerationRequest where
  model := self.model
  input := .Completion self.prompt
  max_tokens := self.max_tokens
  temperature := self.temperature
  top_p := self.top_p
  seed := self.seed
  stop := self.stop.elim [] StopInput.into_vec

/-- The speaker of a message of a chat request. -/
inductive ChatRoleInput
  | System
  | User
  | Assistant

/-- A message of a chat request. -/
structure ChatMessageInput where
  role : ChatRoleInput
  content : String

/-- A request to answer a chat. -/
structure ChatCompletionRequest where
  model : String
  messages : List ChatMessageInput
  max_tokens : UInt32
  temperature : Float32
  top_p : Float32
  seed : Option UInt32
  stop : Option StopInput
  stream : Bool

/-- The message of the engine, with the same role and content. -/
def ChatMessageInput.into_message (self : ChatMessageInput) : ChatMessage where
  role := match self.role with
    | .System => .System
    | .User => .User
    | .Assistant => .Assistant
  content := self.content

/-- The request of the engine for a chat. -/
def ChatCompletionRequest.into_generation (self : ChatCompletionRequest) : GenerationRequest where
  model := self.model
  input := .Chat (self.messages.map ChatMessageInput.into_message)
  max_tokens := self.max_tokens
  temperature := self.temperature
  top_p := self.top_p
  seed := self.seed
  stop := self.stop.elim [] StopInput.into_vec

/-! ## WebSocket -/

/-- What a client of the WebSocket protocol may start. -/
inductive WebSocketGeneration
  | Completion (request : CompletionRequest)
  | Chat (request : ChatCompletionRequest)

/-- The request of the engine for what a client starts. -/
def WebSocketGeneration.into_generation : WebSocketGeneration → GenerationRequest
  | Completion request => request.into_generation
  | Chat request => request.into_generation

/-- A message of the client. -/
inductive WebSocketClientMessage
  | Start (id : String) (request : WebSocketGeneration)
  | Cancel (id : String)
  | Ping
  | Close

/-- A message of the server. -/
inductive WebSocketServerMessage
  | Ready (version : UInt8) (model : String)
  | Delta (id delta : String)
  | Final (id finish_reason : String) (prompt_tokens completion_tokens total_tokens : UInt32)
  | Error (id : Option String) (code message : String)
  | Pong
  deriving DecidableEq

end Inferences.Protocol
