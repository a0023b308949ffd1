import Inferences.Server.Http

/-!
# The MCP transport

A request is one JSON-RPC object (`handle`), answered by a result or by an
error (`rpc_error`); `parse` reads the object off a body. The layers around the
handler answer with `outer_error`.

A tool call that generates text collects the whole answer (`collect`) and
returns it as a tool result, which carries the answer twice: as a value and as
the text of that value. `to_string` writes a JSON value as text.
-/

namespace Inferences.Server.Mcp

open Json Protocol Http

/-- The code and the message of an error. -/
structure RpcFailure where
  code : Int32
  message : String
  deriving DecidableEq

/-- The failure that an error of the engine is answered with. -/
def engine_failure (error : EngineError) : RpcFailure where
  code := -32003
  message := match error with
    | .InvalidRequest _ => "invalid generation request"
    | .Overloaded => "generation capacity exhausted"
    | .Cancelled => "request cancelled"
    | .DeadlineExceeded => "request deadline exceeded"
    | .ArtifactsUnavailable | .RuntimeUnavailable => "local runtime unavailable"
    | .ShuttingDown => "server is shutting down"
    | .Configuration | .RuntimeProtocol => "local runtime failed"

/-- The text of a finish reason. -/
def finish_reason : FinishReason → String
  | .Stop => "stop"
  | .Length => "length"
  | .Cancelled => "cancelled"

/-- A whole answer. -/
structure Completed where
  text : String
  usage : TokenUsage
  finish : FinishReason

/-- The loop of `collect`. -/
def collect_from (text : String) (usage : Option TokenUsage) (finish : Option FinishReason) :
    EngineEventStream → Except EngineError Completed
  | .error error :: _ => .error error
  | .ok (.Delta delta) :: events => collect_from (text ++ delta) usage finish events
  | .ok (.Usage value) :: events => collect_from text (some value) finish events
  | .ok (.Finished value) :: events => collect_from text usage (some value) events
  | [] => do
    let usage ← usage.elim (.error .RuntimeProtocol) .ok
    let finish ← finish.elim (.error .RuntimeProtocol) .ok
    return { text, usage, finish }

/-- The answer that the events of a generation make up. -/
def collect (events : EngineEventStream) : Except EngineError Completed :=
  collect_from "" none none events

section
variable (to_string : Value → String)

/-- The result of a tool call that succeeds. -/
def tool_result (structured : Value) : Value :=
  .object [
    ("content",
      .array [.object [("type", .string "text"), ("text", .string (to_string structured))]]),
    ("structuredContent", structured),
    ("isError", .bool false)]

/-- A tool call that generates text. -/
def generation_tool (generate : GenerationRequest → Except EngineError EngineEventStream)
    (request : GenerationRequest) : Except RpcFailure Value := do
  let events ← (generate request).mapError engine_failure
  let completed ← (collect events).mapError engine_failure
  return tool_result to_string <| .object [
    ("text", .string completed.text),
    ("model", .string model_id),
    ("finish_reason", .string (finish_reason completed.finish)),
    ("usage", .object [("prompt_tokens", counter completed.usage.prompt_tokens),
      ("completion_tokens", counter completed.usage.completion_tokens),
      ("total_tokens", counter completed.usage.total_tokens)])]

end

/-! ## Requests -/

/-- The version of the protocol that is spoken. -/
def MCP_VERSION : String := "2026-07-28"

/-- The version of JSON-RPC that is spoken. -/
def JSON_RPC_VERSION : String := "2.0"

/-- A request, as it is read off its object. -/
structure RpcRequest where
  jsonrpc : String
  id : Value
  method : String
  params : Value

/-- The headers of a request whose values are text, by their lower-case names. -/
abbrev Headers := String → Option String

/-- What the methods of the protocol answer, by name. -/
abbrev Methods := String → Option (Value → Except RpcFailure Value)

/-- The response with an error. -/
def rpc_error (id : Value) (code : Int32) (message : String) (status : Nat) : Response where
  status := status
  body := .object [("jsonrpc", .string JSON_RPC_VERSION), ("id", id),
    ("error", .object [("code", .number (.negInt code.toInt64)), ("message", .string message)])]

/-- The response with a result. -/
def rpc_result (id result : Value) : Response where
  status := 200
  body := .object [("jsonrpc", .string JSON_RPC_VERSION), ("id", id), ("result", result)]

/-- The id of a request is a string or a number. -/
def valid_id : Value → Bool
  | .string _ | .number _ => true
  | _ => false

/-- The id on a body, if it is an object with a valid one. -/
def request_id (from_slice : Bytes → Option Value) (body : Bytes) : Option Value :=
  ((from_slice body).bind (·.get "id")).filter valid_id

/-- The response of the layers around the handler. -/
def outer_error (id : Option Value) (message : String) (status : Nat) : Response :=
  rpc_error (id.getD .null) (-32003) message status

/-- The value is an object. -/
def is_object : Value → Bool
  | .object _ => true
  | _ => false

/-- The parameters name the client. -/
def valid_client_meta (params : Value) : Bool :=
  ((params.get "_meta").bind (·.get "io.modelcontextprotocol/clientInfo")).any is_object

/-- `str::trim`, on the characters of a header value. -/
def trim (text : List Char) : List Char :=
  (((text.dropWhile Char.isWhitespace).reverse).dropWhile Char.isWhitespace).reverse

/-- The media type before the parameters of a content type is that of JSON. -/
def json_content_type (value : String) : Bool :=
  (trim (value.toList.takeWhile (· ≠ ';'))).map Char.toLower = "application/json".toList

/-- The headers agree with the request. -/
def validate_headers (headers : Headers) (request : RpcRequest) : Except String Unit :=
  if headers "mcp-protocol-version" ≠ some MCP_VERSION then
    .error "unsupported MCP protocol version"
  else if headers "mcp-method" ≠ some request.method then
    .error "Mcp-Method does not match the request"
  else
    let expected_name := match request.method with
      | "tools/call" => (request.params.get "name").bind Value.as_str
      | "resources/read" => (request.params.get "uri").bind Value.as_str
      | _ => none
    if headers "mcp-name" ≠ expected_name then .error "Mcp-Name does not match the request"
    else .ok ()

/-- The handler of `POST /mcp`. -/
def handle (parse : Bytes → Option RpcRequest) (methods : Methods) (headers : Headers)
    (body : Bytes) : Response :=
  if !(headers "content-type").any json_content_type then
    rpc_error .null (-32600) "Content-Type must be application/json" 415
  else match parse body with
    | none => rpc_error .null (-32700) "Parse error" 400
    | some request =>
      if request.jsonrpc ≠ JSON_RPC_VERSION ∨ valid_id request.id = false then
        rpc_error request.id (-32600) "Invalid Request" 400
      else match validate_headers headers request with
        | .error message => rpc_error request.id (-32600) message 400
        | .ok () =>
          if valid_client_meta request.params = false then
            rpc_error request.id (-32602) "request _meta must include clientInfo" 400
          else
            let result := match methods request.method with
              | some method => method request.params
              | none => .error ⟨-32601, "Method not found"⟩
            match result with
            | .ok result => rpc_result request.id result
            | .error error => rpc_error request.id error.code error.message 200

/-- A JSON-RPC 2.0 object with an `error` member. -/
def IsRpcError (body : Value) : Prop :=
  body.get "jsonrpc" = some (.string "2.0") ∧ (body.get "error").isSome

theorem isRpcError_rpc_error (id : Value) (code : Int32) (message : String) (status : Nat) :
    IsRpcError (rpc_error id code message status).body := ⟨rfl, rfl⟩

/-- The handler answers with the result of a method, or an error. -/
theorem handle_cases (parse : Bytes → Option RpcRequest) (methods : Methods) (headers : Headers)
    (body : Bytes) :
    (∃ id result, handle parse methods headers body = rpc_result id result) ∨
      ∃ id code message status, handle parse methods headers body =
        rpc_error id code message status ∧ status ∈ [200, 400, 415] := by
  unfold handle
  split
  · exact .inr ⟨_, _, _, _, rfl, by decide⟩
  split
  · exact .inr ⟨_, _, _, _, rfl, by decide⟩
  split
  · exact .inr ⟨_, _, _, _, rfl, by decide⟩
  split
  · exact .inr ⟨_, _, _, _, rfl, by decide⟩
  split
  · exact .inr ⟨_, _, _, _, rfl, by decide⟩
  dsimp only
  split
  · exact .inl ⟨_, _, rfl⟩
  · exact .inr ⟨_, _, _, _, rfl, by decide⟩

end Inferences.Server.Mcp
