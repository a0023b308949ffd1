import Inferences.Server.Grpc
import Inferences.Server.Tools

/-!
# One request over every transport

A client asks for the same generation over HTTP, WebSocket, MCP or gRPC
(`LogicalRequest`). JSON and protobuf have their own records, each with its own
defaults for what is left out. All of them come to the request
`LogicalRequest.generation` (`grpc_request_eq`, `completion_of_carries`,
`chat_of_carries`).

Only the chat messages of gRPC can fail to convert: a role is a number there
(`chat_request_error_iff`).
-/

namespace Inferences.Server

open Protocol Json Json.Value Json.Serde Mcp Engine

namespace Grpc

/-! ## The gRPC contract -/

/-- The settings of a request that leaves them out. -/
def DEFAULT_MAX_TOKENS : UInt32 := 256

def DEFAULT_TEMPERATURE : Float32 := 0.8

def DEFAULT_TOP_P : Float32 := 0.95

namespace pb

/-- The settings of a request. -/
structure Sampling where
  max_tokens : Option UInt32 := none
  temperature : Option Float32 := none
  top_p : Option Float32 := none
  seed : Option UInt32 := none
  stop : List String := []

/-- A request to continue a prompt. -/
structure CompletionRequest where
  model : String
  prompt : String
  sampling : Option Sampling

/-- The speaker of a message. -/
inductive ChatRole
  | Unspecified
  | System
  | User
  | Assistant

/-- The number of a role in the contract. -/
def ChatRole.number : ChatRole → Int32
  | Unspecified => 0
  | System => 1
  | User => 2
  | Assistant => 3

/-- The role of a number. -/
def ChatRole.try_from (value : Int32) : Option ChatRole :=
  if value = 0 then some Unspecified
  else if value = 1 then some System
  else if value = 2 then some User
  else if value = 3 then some Assistant
  else none

/-- A message of a chat request; its role is a number. -/
structure ChatMessage where
  role : Int32
  content : String

/-- A request to answer a chat. -/
structure ChatRequest where
  model : String
  messages : List ChatMessage
  sampling : Option Sampling

end pb

/-! ## The conversions -/

/-- The settings in a request without a model and an input. -/
def sampling (sampling : Option pb.Sampling) : GenerationRequest :=
  let sampling := sampling.getD {}
  { model := ""
    input := .Completion ""
    max_tokens := sampling.max_tokens.getD DEFAULT_MAX_TOKENS
    temperature := sampling.temperature.getD DEFAULT_TEMPERATURE
    top_p := sampling.top_p.getD DEFAULT_TOP_P
    seed := sampling.seed
    stop := sampling.stop }

/-- The request of the engine for a completion. -/
def completion_request (request : pb.CompletionRequest) : Except Status GenerationRequest :=
  .ok { sampling request.sampling with
    model := request.model
    input := .Completion request.prompt }

/-- One message of `chat_request`. -/
def chat_message (message : pb.ChatMessage) : Except Status ChatMessage := do
  let role ← match pb.ChatRole.try_from message.role with
    | some .System => .ok ChatRole.System
    | some .User => .ok ChatRole.User
    | some .Assistant => .ok ChatRole.Assistant
    | _ => .error ⟨.InvalidArgument, "unsupported chat role"⟩
  return { role, content := message.content }

/-- The request of the engine for a chat, when its roles are known. -/
def chat_request (request : pb.ChatRequest) : Except Status GenerationRequest := do
  let messages ← request.messages.mapM chat_message
  return { sampling request.sampling with
    model := request.model
    input := .Chat messages }

end Grpc

/-! ## What a client asks for -/

/-- A request as its client means it: the settings are given or left out. -/
structure LogicalRequest where
  model : String
  input : GenerationInput
  max_tokens : Option UInt32
  temperature : Option Float32
  top_p : Option Float32
  seed : Option UInt32
  stop : Option (List String)

namespace LogicalRequest

/-- What the engine is to be asked for. -/
def generation (self : LogicalRequest) : GenerationRequest where
  model := self.model
  input := self.input
  max_tokens := self.max_tokens.getD 256
  temperature := self.temperature.getD 0.8
  top_p := self.top_p.getD 0.95
  seed := self.seed
  stop := self.stop.getD []

/-- The request is one for a chat. -/
def is_chat (self : LogicalRequest) : Bool :=
  match self.input with
  | .Completion _ => false
  | .Chat _ => true

/-! ## Over gRPC -/

/-- The settings as a message. -/
def sampling (self : LogicalRequest) : Grpc.pb.Sampling where
  max_tokens := self.max_tokens
  temperature := self.temperature
  top_p := self.top_p
  seed := self.seed
  stop := self.stop.getD []

/-- The number a client writes for a role. -/
def role_number : ChatRole → Int32
  | .System => Grpc.pb.ChatRole.System.number
  | .User => Grpc.pb.ChatRole.User.number
  | .Assistant => Grpc.pb.ChatRole.Assistant.number

/-- The message as it is sent. -/
def message (message : ChatMessage) : Grpc.pb.ChatMessage where
  role := role_number message.role
  content := message.content

/-- The conversion of the gRPC request for a logical one, with the message of
    the settings, which may be left out when they are all left out. -/
def grpc (self : LogicalRequest) (sampling : Option Grpc.pb.Sampling) :
    Except Grpc.Status GenerationRequest :=
  match self.input with
  | .Completion prompt => Grpc.completion_request { model := self.model, prompt, sampling }
  | .Chat messages =>
    Grpc.chat_request { model := self.model, messages := messages.map message, sampling }

theorem chat_message_message (m : ChatMessage) : Grpc.chat_message (message m) = .ok m := by
  obtain ⟨role, content⟩ := m
  cases role <;> rfl

theorem mapM_chat_message (messages : List ChatMessage) :
    (messages.map message).mapM Grpc.chat_message = .ok messages := by
  induction messages with
  | nil => rfl
  | cons m messages ih =>
    rw [List.map_cons, List.mapM_cons, chat_message_message, ih]
    rfl

theorem grpc_eq (self : LogicalRequest) {sampling : Option Grpc.pb.Sampling}
    (h : sampling.getD {} = self.sampling) : self.grpc sampling = .ok self.generation := by
  have hsampling : { Grpc.sampling sampling with model := self.model, input := self.input } =
      self.generation := by
    rw [Grpc.sampling, h]
    rfl
  rw [← hsampling, grpc]
  cases self.input with
  | Completion prompt => rfl
  | Chat messages =>
    simp only [Grpc.chat_request, mapM_chat_message]
    rfl

/-! ## Over JSON -/

/-- The members of an object that carries the request: a setting that is given
    reads as it, one that is left out is absent, or may be null where null is
    read. -/
structure Given (asked : LogicalRequest) (stream : Bool) (fields : String → Option Value) :
    Prop where
  model : required as_str (fields "model") = some asked.model
  input : match asked.input with
    | .Completion prompt => required as_str (fields "prompt") = some prompt
    | .Chat messages => ∃ inputs,
      required (read_vec ChatMessageInput.deserialize) (fields "messages") = some inputs ∧
        inputs.map ChatMessageInput.into_message = messages
  max_tokens : (fields "max_tokens").map read_u32 = asked.max_tokens.map some
  temperature : (fields "temperature").map read_f32 = asked.temperature.map some
  top_p : (fields "top_p").map read_f32 = asked.top_p.map some
  seed : nullable read_u32 (fields "seed") = some asked.seed
  stop : ∃ stop, nullable StopInput.deserialize (fields "stop") = some stop ∧
    stop.map StopInput.into_vec = asked.stop
  stream : defaulted read_bool false (fields "stream") = some stream

/-- A JSON value with these members, and no others. -/
def Carries (self : LogicalRequest) (stream : Bool) (json : Value) : Prop :=
  ∃ fields, struct ["model", if self.is_chat then "messages" else "prompt", "max_tokens",
    "temperature", "top_p", "seed", "stop", "stream"] json = some fields ∧ self.Given stream fields

/-- The conversion of the body of an HTTP request. -/
def http (self : LogicalRequest) (body : Value) : Option GenerationRequest :=
  if self.is_chat then
    (ChatCompletionRequest.deserialize body).map ChatCompletionRequest.into_generation
  else (CompletionRequest.deserialize body).map CompletionRequest.into_generation

/-- The conversion of the request of a `Start`: its mode says of which kind the
    other members are. -/
def websocket (self : LogicalRequest) (members : Value) : Option GenerationRequest :=
  (if self.is_chat then (ChatCompletionRequest.deserialize members).map WebSocketGeneration.Chat
    else (CompletionRequest.deserialize members).map WebSocketGeneration.Completion).map
    WebSocketGeneration.into_generation

/-- The conversion of the arguments of an MCP tool. -/
def mcp (self : LogicalRequest) (arguments : Value) : Except RpcFailure GenerationRequest :=
  tool_request self.is_chat arguments

theorem defaulted_of_given {α : Type} {read : Value → Option α} {field : Option Value}
    {given : Option α} (default : α) (h : field.map read = given.map some) :
    defaulted read default field = some (given.getD default) := by
  cases field with
  | none =>
    cases given with
    | none => rfl
    | some value => cases h
  | some json =>
    cases given with
    | none => cases h
    | some value => exact Option.some.inj h

variable {self : LogicalRequest} {stream : Bool} {json : Value}

theorem Given.shared {fields : String → Option Value} (h : self.Given stream fields) :
    ∃ shared, SharedFields.deserialize fields = some shared ∧ shared.stream = stream ∧
      ∀ input, self.input = input →
        { model := self.model, input, max_tokens := shared.max_tokens,
          temperature := shared.temperature, top_p := shared.top_p, seed := shared.seed,
          stop := shared.stop.elim [] StopInput.into_vec } = self.generation := by
  obtain ⟨stop, hstop, hvec⟩ := h.stop
  refine ⟨⟨_, _, _, _, _, _⟩, shared_deserialize_iff.2 ⟨defaulted_of_given _ h.max_tokens,
    defaulted_of_given _ h.temperature, defaulted_of_given _ h.top_p, h.seed, hstop, h.stream⟩,
    rfl, ?_⟩
  rintro input rfl
  rw [generation, ← hvec]
  cases stop <;> rfl

theorem completion_of_carries (hchat : self.is_chat = false) (h : self.Carries stream json) :
    ∃ request, CompletionRequest.deserialize json = some request ∧
      request.into_generation = self.generation ∧ request.stream = stream := by
  obtain ⟨fields, hstruct, hgiven⟩ := h
  obtain ⟨shared, hshared, hstream, hgeneration⟩ := hgiven.shared
  have hinput := hgiven.input
  cases hkind : self.input with
  | Chat messages => simp [is_chat, hkind] at hchat
  | Completion prompt =>
    rw [hkind] at hinput
    rw [hchat] at hstruct
    refine ⟨
      { model := self.model
        prompt := prompt
        max_tokens := shared.max_tokens
        temperature := shared.temperature
        top_p := shared.top_p
        seed := shared.seed
        stop := shared.stop
        stream := shared.stream }, ?_, hgeneration _ hkind, hstream⟩
    simp only [Bool.false_eq_true, if_false] at hstruct
    simp [CompletionRequest.deserialize, hstruct, hgiven.model, hinput, hshared]

theorem chat_of_carries (hchat : self.is_chat = true) (h : self.Carries stream json) :
    ∃ request, ChatCompletionRequest.deserialize json = some request ∧
      request.into_generation = self.generation ∧ request.stream = stream := by
  obtain ⟨fields, hstruct, hgiven⟩ := h
  obtain ⟨shared, hshared, hstream, hgeneration⟩ := hgiven.shared
  have hinput := hgiven.input
  cases hkind : self.input with
  | Completion prompt => simp [is_chat, hkind] at hchat
  | Chat messages =>
    rw [hkind] at hinput
    obtain ⟨inputs, hinputs, rfl⟩ := hinput
    rw [hchat] at hstruct
    refine ⟨
      { model := self.model
        messages := inputs
        max_tokens := shared.max_tokens
        temperature := shared.temperature
        top_p := shared.top_p
        seed := shared.seed
        stop := shared.stop
        stream := shared.stream }, ?_, hgeneration _ hkind, hstream⟩
    simp only [if_true] at hstruct
    simp [ChatCompletionRequest.deserialize, hstruct, hgiven.model, hinputs, hshared]

theorem http_eq (h : self.Carries stream json) : self.http json = some self.generation := by
  rw [http]
  cases hchat : self.is_chat with
  | false =>
    obtain ⟨request, hrequest, hgeneration, -⟩ := completion_of_carries hchat h
    rw [if_neg Bool.false_ne_true, hrequest, Option.map_some, hgeneration]
  | true =>
    obtain ⟨request, hrequest, hgeneration, -⟩ := chat_of_carries hchat h
    rw [if_pos rfl, hrequest, Option.map_some, hgeneration]

theorem websocket_eq (h : self.Carries stream json) :
    self.websocket json = some self.generation := by
  rw [websocket]
  cases hchat : self.is_chat with
  | false =>
    obtain ⟨request, hrequest, hgeneration, -⟩ := completion_of_carries hchat h
    rw [if_neg Bool.false_ne_true, hrequest, ← hgeneration]
    rfl
  | true =>
    obtain ⟨request, hrequest, hgeneration, -⟩ := chat_of_carries hchat h
    rw [if_pos rfl, hrequest, ← hgeneration]
    rfl

theorem mcp_eq (h : self.Carries false json) : self.mcp json = .ok self.generation := by
  rw [mcp, tool_request]
  cases hchat : self.is_chat with
  | false =>
    obtain ⟨request, hrequest, hgeneration, hstream⟩ := completion_of_carries hchat h
    simp [hrequest, hstream, hgeneration]
  | true =>
    obtain ⟨request, hrequest, hgeneration, hstream⟩ := chat_of_carries hchat h
    simp [hrequest, hstream, hgeneration]

end LogicalRequest

/-! ## Roles -/

theorem chat_message_error_iff (message : Grpc.pb.ChatMessage) :
    (∃ status, Grpc.chat_message message = .error status) ↔
      message.role ≠ Grpc.pb.ChatRole.System.number ∧ message.role ≠ Grpc.pb.ChatRole.User.number ∧
        message.role ≠ Grpc.pb.ChatRole.Assistant.number := by
  have hnumbers : Grpc.pb.ChatRole.System.number = 1 ∧ Grpc.pb.ChatRole.User.number = 2 ∧
      Grpc.pb.ChatRole.Assistant.number = 3 := ⟨rfl, rfl, rfl⟩
  rw [hnumbers.1, hnumbers.2.1, hnumbers.2.2, Grpc.chat_message, Grpc.pb.ChatRole.try_from]
  split_ifs with h0 h1 h2 h3
  · exact iff_of_true ⟨_, rfl⟩ (by rw [h0]; decide)
  · exact iff_of_false (fun ⟨_, h⟩ => by cases h) fun h => h.1 h1
  · exact iff_of_false (fun ⟨_, h⟩ => by cases h) fun h => h.2.1 h2
  · exact iff_of_false (fun ⟨_, h⟩ => by cases h) fun h => h.2.2 h3
  · exact iff_of_true ⟨_, rfl⟩ ⟨h1, h2, h3⟩

theorem mapM_error_iff {α β ε : Type} {f : α → Except ε β} {items : List α} :
    (∃ e, items.mapM f = .error e) ↔ ∃ item ∈ items, ∃ e, f item = .error e := by
  induction items with
  | nil => simp [pure, Except.pure]
  | cons item items ih =>
    rw [List.mapM_cons, List.exists_mem_cons_iff, ← ih]
    cases f item with
    | error e => exact iff_of_true ⟨e, rfl⟩ (.inl ⟨e, rfl⟩)
    | ok b =>
      cases items.mapM f with
      | error e => exact iff_of_true ⟨e, rfl⟩ (.inr ⟨e, rfl⟩)
      | ok bs =>
        refine iff_of_false (fun ⟨_, h⟩ => by cases h) ?_
        rintro (⟨_, h⟩ | ⟨_, h⟩) <;> cases h

/-- A chat fails to convert when the role of a message is none of the three. -/
theorem chat_request_error_iff (request : Grpc.pb.ChatRequest) :
    (∃ status, Grpc.chat_request request = .error status) ↔
      ∃ message ∈ request.messages, message.role ≠ Grpc.pb.ChatRole.System.number ∧
        message.role ≠ Grpc.pb.ChatRole.User.number ∧
        message.role ≠ Grpc.pb.ChatRole.Assistant.number := by
  have hmapM : (∃ status, Grpc.chat_request request = .error status) ↔
      ∃ status, request.messages.mapM Grpc.chat_message = .error status := by
    rw [Grpc.chat_request]
    cases request.messages.mapM Grpc.chat_message with
    | error status => exact iff_of_true ⟨status, rfl⟩ ⟨status, rfl⟩
    | ok messages => exact iff_of_false (fun ⟨_, h⟩ => by cases h) fun ⟨_, h⟩ => by cases h
  rw [hmapM, mapM_error_iff]
  simp only [chat_message_error_iff]

/-! ## Agreement -/

/-- Whatever transport carries it, a logical request asks the engine for the
    same generation, so that it is accepted by all of them or by none; only a
    role that has no name is refused, and only over gRPC. -/
theorem requests_agree {asked : LogicalRequest} {stream stream' : Bool}
    {body members arguments : Value} {sampling : Option Grpc.pb.Sampling}
    (hhttp : asked.Carries stream body) (hwebsocket : asked.Carries stream' members)
    (hmcp : asked.Carries false arguments) (hgrpc : sampling.getD {} = asked.sampling) :
    (∃ generation, asked.http body = some generation ∧ asked.websocket members = some generation ∧
      asked.mcp arguments = .ok generation ∧ asked.grpc sampling = .ok generation) ∧
    (∀ config : EngineConfig, ∃ verdict,
      (asked.http body).map (normalize_request · config) = some verdict ∧
      (asked.websocket members).map (normalize_request · config) = some verdict ∧
      (asked.mcp arguments).map (normalize_request · config) = .ok verdict ∧
      (asked.grpc sampling).map (normalize_request · config) = .ok verdict) ∧
    ∀ request : Grpc.pb.ChatRequest, (∃ status, Grpc.chat_request request = .error status) ↔
      ∃ message ∈ request.messages, message.role ≠ Grpc.pb.ChatRole.System.number ∧
        message.role ≠ Grpc.pb.ChatRole.User.number ∧
        message.role ≠ Grpc.pb.ChatRole.Assistant.number := by
  have hhttp := LogicalRequest.http_eq hhttp
  have hwebsocket := LogicalRequest.websocket_eq hwebsocket
  have hmcp := LogicalRequest.mcp_eq hmcp
  have hgrpc := asked.grpc_eq hgrpc
  refine ⟨⟨_, hhttp, hwebsocket, hmcp, hgrpc⟩, fun config => ?_, chat_request_error_iff⟩
  rw [hhttp, hwebsocket, hmcp, hgrpc]
  exact ⟨_, rfl, rfl, rfl, rfl⟩

/-- A conversation with some of the settings given. -/
def small_chat : LogicalRequest where
  model := model_id
  input := .Chat [⟨.System, "s"⟩, ⟨.User, "u"⟩]
  max_tokens := none
  temperature := some (Binary32.of_rat (Number.float (1 / 2)).value)
  top_p := none
  seed := some 7
  stop := some ["end"]

/-- A chat request with two messages, as an object. -/
def small_chat_members (settings : List (String × Value)) : List (String × Value) :=
  [("model", .string model_id),
    ("messages", .array [.object [("role", .string "system"), ("content", .string "s")],
      .object [("role", .string "user"), ("content", .string "u")]]),
    ("temperature", .number (.float (1 / 2))), ("seed", natural 7)] ++ settings

/-- An HTTP body, and what the others are sent. -/
def small_chat_body : Value :=
  .object (small_chat_members [("stop", .string "end"), ("stream", .bool true)])

def small_chat_arguments : Value :=
  .object (small_chat_members [("stop", .array [.string "end"])])

theorem carries_small_chat {settings : List (String × Value)} {stream : Bool}
    (hnames : ∀ member ∈ small_chat_members settings, member.1 ∈ ["model", "messages", "max_tokens",
      "temperature", "top_p", "seed", "stop", "stream"])
    (hgiven : small_chat.Given stream fun name => (small_chat_members settings).lookup name) :
    small_chat.Carries stream (.object (small_chat_members settings)) :=
  ⟨_, if_pos hnames, hgiven⟩

theorem requests_agree_small_chat :
    (∃ generation, small_chat.http small_chat_body = some generation ∧
      small_chat.websocket small_chat_arguments = some generation ∧
      small_chat.mcp small_chat_arguments = .ok generation ∧
      small_chat.grpc (some small_chat.sampling) = .ok generation) ∧
    (∀ config : EngineConfig, ∃ verdict,
      (small_chat.http small_chat_body).map (normalize_request · config) = some verdict ∧
      (small_chat.websocket small_chat_arguments).map (normalize_request · config) = some verdict ∧
      (small_chat.mcp small_chat_arguments).map (normalize_request · config) = .ok verdict ∧
      (small_chat.grpc (some small_chat.sampling)).map (normalize_request · config) =
        .ok verdict) ∧
    ∀ request : Grpc.pb.ChatRequest, (∃ status, Grpc.chat_request request = .error status) ↔
      ∃ message ∈ request.messages, message.role ≠ Grpc.pb.ChatRole.System.number ∧
        message.role ≠ Grpc.pb.ChatRole.User.number ∧
        message.role ≠ Grpc.pb.ChatRole.Assistant.number := by
  have harguments : small_chat.Carries false small_chat_arguments :=
    carries_small_chat (by decide)
      ⟨rfl, ⟨_, rfl, rfl⟩, rfl, rfl, rfl, by decide, ⟨some (.Many ["end"]), rfl, rfl⟩, rfl⟩
  have hbody : small_chat.Carries true small_chat_body :=
    carries_small_chat (by decide)
      ⟨rfl, ⟨_, rfl, rfl⟩, rfl, rfl, rfl, by decide, ⟨some (.One "end"), rfl, rfl⟩, rfl⟩
  exact requests_agree hbody harguments harguments rfl

end Inferences.Server
