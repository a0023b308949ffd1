import Inferences.Engine.Normalize
import Inferences.JsonSchema
import Inferences.Server.Mcp

/-!
# The generation tools

The arguments of `generate_text` and `chat` are described three times: by the
schema the server advertises (`generation_schema`), by the decoders of the
requests, and by the validator of the engine.

The schema counts characters and compares numbers by value; the decoders read
an integer by its form and round the probabilities, and the validator counts
bytes. `schema_honoured_iff` says which arguments they agree on.
-/

namespace Inferences.Server.Mcp

open Json Json.Value Json.Serde Json.Schema Protocol Engine

/-! ## The schema -/

/-- A natural number as a value. -/
def natural (n : UInt64) : Value := .number (.posInt n)

/-- The schemas of the single arguments. -/
def tokens_schema : Value :=
  .object [("type", .string "integer"), ("minimum", natural 1), ("maximum", natural 1024),
    ("default", natural 256)]

/-- The default is the nearest float to 0.8. -/
def temperature_schema : Value :=
  .object [("type", .string "number"), ("minimum", natural 0), ("maximum", natural 2),
    ("default", .number (.float (3602879701896397 / 4503599627370496)))]

/-- The default is the nearest float to 0.95. -/
def top_p_schema : Value :=
  .object [("type", .string "number"), ("exclusiveMinimum", natural 0), ("maximum", natural 1),
    ("default", .number (.float (4278419646001971 / 4503599627370496)))]

def seed_schema : Value :=
  .object [("type", .string "integer"), ("minimum", natural 0), ("maximum", natural 4294967295)]

def stop_text_schema : Value :=
  .object [("type", .string "string"), ("minLength", natural 1), ("maxLength", natural 128)]

def stop_list_schema : Value :=
  .object [("type", .string "array"), ("maxItems", natural 8), ("items", stop_text_schema)]

/-- A text that is not empty. -/
def text_schema : Value := .object [("type", .string "string"), ("minLength", natural 1)]

/-- A message of a chat. -/
def message_schema : Value :=
  record ["role", "content"]
    [("role", .object
      [("enum", .array [.string "system", .string "user", .string "assistant"])]),
    ("content", text_schema)]

/-- The messages of a chat. -/
def messages_schema : Value :=
  .object [("type", .string "array"), ("minItems", natural 1), ("maxItems", natural 128),
    ("items", message_schema)]

/-- The argument that says what to generate from. -/
def input_property (chat : Bool) : String × Value :=
  if chat then ("messages", messages_schema) else ("prompt", text_schema)

/-- The schema of the arguments of a tool that generates text. -/
def generation_schema (chat : Bool) : Value :=
  record (if chat then ["model", "messages"] else ["model", "prompt"])
    [("model", .object [("const", .string model_id)]),
    ("max_tokens", tokens_schema),
    ("temperature", temperature_schema),
    ("top_p", top_p_schema),
    ("seed", seed_schema),
    ("stop", .object [("oneOf", .array [stop_text_schema, stop_list_schema])]),
    input_property chat]

/-! ## The decoders -/

/-- An untagged enumeration: the first form that reads. -/
def StopInput.deserialize : Value → Option StopInput
  | .string value => some (.One value)
  | value => (read_vec as_str value).map .Many

/-- The role of a name. -/
def ChatRoleInput.variant : String → Option ChatRoleInput
  | "system" => some .System
  | "user" => some .User
  | "assistant" => some .Assistant
  | _ => none

/-- A variant is its name, or an object of the name and null. -/
def ChatRoleInput.deserialize : Value → Option ChatRoleInput
  | .string name => variant name
  | .object [(name, .null)] => variant name
  | _ => none

/-- A message, as `serde` reads it. -/
def ChatMessageInput.deserialize (value : Value) : Option ChatMessageInput := do
  let fields ← struct ["role", "content"] value
  let role ← required ChatRoleInput.deserialize (fields "role")
  let content ← required as_str (fields "content")
  return { role, content }

/-- The fields both requests have. -/
structure SharedFields where
  max_tokens : UInt32
  temperature : Float32
  top_p : Float32
  seed : Option UInt32
  stop : Option StopInput
  stream : Bool

/-- The fields that both requests have. -/
def SharedFields.deserialize (fields : String → Option Value) : Option SharedFields := do
  let max_tokens ← defaulted read_u32 256 (fields "max_tokens")
  let temperature ← defaulted read_f32 0.8 (fields "temperature")
  let top_p ← defaulted read_f32 0.95 (fields "top_p")
  let seed ← nullable read_u32 (fields "seed")
  let stop ← nullable StopInput.deserialize (fields "stop")
  let stream ← defaulted read_bool false (fields "stream")
  return { max_tokens, temperature, top_p, seed, stop, stream }

/-- A completion request, as `serde` reads it. -/
def CompletionRequest.deserialize (value : Value) : Option CompletionRequest := do
  let fields ← struct
    ["model", "prompt", "max_tokens", "temperature", "top_p", "seed", "stop", "stream"] value
  let model ← required as_str (fields "model")
  let prompt ← required as_str (fields "prompt")
  let shared ← SharedFields.deserialize fields
  return {
    model, prompt
    max_tokens := shared.max_tokens
    temperature := shared.temperature
    top_p := shared.top_p
    seed := shared.seed
    stop := shared.stop
    stream := shared.stream }

/-- A chat request, as `serde` reads it. -/
def ChatCompletionRequest.deserialize (value : Value) : Option ChatCompletionRequest := do
  let fields ← struct
    ["model", "messages", "max_tokens", "temperature", "top_p", "seed", "stop", "stream"] value
  let model ← required as_str (fields "model")
  let messages ← required (read_vec ChatMessageInput.deserialize) (fields "messages")
  let shared ← SharedFields.deserialize fields
  return {
    model, messages
    max_tokens := shared.max_tokens
    temperature := shared.temperature
    top_p := shared.top_p
    seed := shared.seed
    stop := shared.stop
    stream := shared.stream }

/-! ## The tools -/

/-- The request of a generation tool, which is not a stream. -/
def tool_request (chat : Bool) (arguments : Value) : Except RpcFailure GenerationRequest :=
  if chat then
    match ChatCompletionRequest.deserialize arguments with
    | none => .error { code := -32602, message := "invalid chat arguments" }
    | some request =>
      if request.stream then
        .error { code := -32602, message := "MCP tool calls are non-streaming" }
      else .ok request.into_generation
  else
    match CompletionRequest.deserialize arguments with
    | none => .error { code := -32602, message := "invalid generate_text arguments" }
    | some request =>
      if request.stream then
        .error { code := -32602, message := "MCP tool calls are non-streaming" }
      else .ok request.into_generation

/-- The arguments of a tool that takes none. -/
def empty_arguments (arguments : Value) : Except RpcFailure Unit :=
  match arguments with
  | .object [] => .ok ()
  | _ => .error { code := -32602, message := "tool takes no arguments" }

/-- The state of the engine that clients see. -/
structure EngineStatus where
  ready : Bool
  runtime : String
  model : String
  profile : String

section

variable (to_string : Value → String)
  (generate : GenerationRequest → Except EngineError EngineEventStream) (status : EngineStatus)

/-- A call of a tool, by its name. -/
def call_tool (params : Value) : Except RpcFailure Value :=
  match (params.get "name").bind as_str with
  | none => .error { code := -32602, message := "tool name is required" }
  | some name =>
    let arguments := (params.get "arguments").getD (.object [])
    match name with
    | "generate_text" => tool_request false arguments >>= generation_tool to_string generate
    | "chat" => tool_request true arguments >>= generation_tool to_string generate
    | "list_models" => do
      empty_arguments arguments
      return tool_result to_string <| .object [
        ("models", .array <|
          if status.ready then
            [.object [("id", .string status.profile), ("status", .string "loaded")]]
          else []),
        ("ready", .bool status.ready)]
    | "health" => do
      empty_arguments arguments
      return tool_result to_string <| .object [("ready", .bool status.ready),
        ("runtime", .string status.runtime), ("model", .string status.model)]
    | _ => .error { code := -32602, message := "unknown tool" }

/-- The name of the tool. -/
def tool_name (chat : Bool) : String := if chat then "chat" else "generate_text"

/-- The parameters of a call of the tool with the arguments. -/
structure CallOf (chat : Bool) (arguments params : Value) : Prop where
  name : params.get "name" = some (.string (tool_name chat))
  arguments : params.get "arguments" = some arguments

theorem call_tool_generation {chat : Bool} {params arguments : Value}
    (h : CallOf chat arguments params) :
    call_tool to_string generate status params =
      tool_request chat arguments >>= generation_tool to_string generate := by
  unfold call_tool
  rw [h.name, h.arguments]
  cases chat <;> rfl

end

/-! ## The arguments -/

/-- A number written as an integer. -/
def is_integer : Value → Bool
  | .number n => n.integer.isSome
  | _ => false

/-- The stop strings of an argument. -/
def stop_texts : Value → List String
  | .string text => [text]
  | value => (items_of value).filterMap as_str

/-- The prompt, or the messages. -/
def tool_input (chat : Bool) (arguments : Value) : Option GenerationInput :=
  if chat then
    (required (read_vec ChatMessageInput.deserialize) (arguments.get "messages")).map
      fun messages => .Chat (messages.map ChatMessageInput.into_message)
  else (required as_str (arguments.get "prompt")).map .Completion

/-- The number of tokens asked for. -/
def tool_tokens (arguments : Value) : ℚ := ((arguments.get "max_tokens").bind number_of).getD 256

/-- The bytes of the prompt, or of the contents of the messages. -/
def encoded_bytes : GenerationInput → Nat
  | .Completion prompt => prompt.utf8ByteSize
  | .Chat messages => (messages.map (·.content.utf8ByteSize)).sum

/-- The prompt or the messages fit the bound in bytes and the context. -/
def Fits (config : EngineConfig) (chat : Bool) (arguments : Value) : Prop :=
  ∀ input, tool_input chat arguments = some input →
    encoded_bytes input ≤ config.max_prompt_bytes ∧
      (rendered input).utf8ByteSize + tool_tokens arguments ≤ MODEL_CONTEXT_TOKENS

/-- Every call of the tool with the arguments comes to one request, and the
    validator accepts it. -/
def Honoured (config : EngineConfig) (chat : Bool) (arguments : Value) : Prop :=
  ∃ request normalized, tool_request chat arguments = .ok request ∧
    normalize_request request config = .ok normalized ∧
    ∀ to_string generate status params, CallOf chat arguments params →
      call_tool to_string generate status params = generation_tool to_string generate request

/-- Arguments the three descriptions agree on. -/
structure Agreed (arguments : Value) : Prop where
  max_tokens : ∀ value, arguments.get "max_tokens" = some value → is_integer value = true
  seed : ∀ value, arguments.get "seed" = some value → is_integer value = true
  stop : ∀ value, arguments.get "stop" = some value →
    ∀ text ∈ stop_texts value, text.utf8ByteSize ≤ 128
  top_p : ∀ p, (arguments.get "top_p").bind number_of = some p → 2 ^ (-150 : ℤ) < p

/-! ## What the schemas say -/

theorem tokens_valid {value : Value} (h : valid tokens_schema value = true) :
    ∃ n, value = .number n ∧ 1 ≤ n.value ∧ n.value ≤ 1024 := by
  obtain ⟨n, rfl, hleast, -, hmost⟩ := number_of_valid h (.head _) (.inl rfl)
  exact ⟨n, rfl, hleast (.posInt 1) (.tail _ (.head _)),
    hmost (.posInt 1024) (.tail _ (.tail _ (.head _)))⟩

theorem seed_valid {value : Value} (h : valid seed_schema value = true) :
    ∃ n, value = .number n ∧ 0 ≤ n.value ∧ n.value ≤ 4294967295 := by
  obtain ⟨n, rfl, hleast, -, hmost⟩ := number_of_valid h (.head _) (.inl rfl)
  exact ⟨n, rfl, hleast (.posInt 0) (.tail _ (.head _)),
    hmost (.posInt 4294967295) (.tail _ (.tail _ (.head _)))⟩

theorem temperature_valid {value : Value} (h : valid temperature_schema value = true) :
    ∃ n, value = .number n ∧ 0 ≤ n.value ∧ n.value ≤ 2 := by
  obtain ⟨n, rfl, hleast, -, hmost⟩ := number_of_valid h (.head _) (.inr rfl)
  exact ⟨n, rfl, hleast (.posInt 0) (.tail _ (.head _)),
    hmost (.posInt 2) (.tail _ (.tail _ (.head _)))⟩

theorem top_p_valid {value : Value} (h : valid top_p_schema value = true) :
    ∃ n, value = .number n ∧ 0 < n.value ∧ n.value ≤ 1 := by
  obtain ⟨n, rfl, -, habove, hmost⟩ := number_of_valid h (.head _) (.inr rfl)
  exact ⟨n, rfl, habove (.posInt 0) (.tail _ (.head _)),
    hmost (.posInt 1) (.tail _ (.tail _ (.head _)))⟩

/-- Both schemas of a text ask for one that is not empty. -/
theorem text_valid {keywords : List (String × Value)} {value : Value}
    (h : valid (.object (("type", .string "string") :: ("minLength", natural 1) :: keywords))
      value = true) :
    ∃ text, value = .string text ∧ text ≠ "" := by
  obtain ⟨text, rfl, hleast⟩ := string_of_valid h (.head _)
  have hlength : (Number.posInt 1).value ≤ text.length := hleast _ (.tail _ (.head _))
  refine ⟨text, rfl, ?_⟩
  rintro rfl
  exact absurd hlength (by decide)

/-- A stop that satisfies its schema is read, as its texts. -/
theorem stop_valid {value : Value}
    (h : valid (.object [("oneOf", .array [stop_text_schema, stop_list_schema])]) value = true) :
    value ≠ .null ∧ ∃ stop, StopInput.deserialize value = some stop ∧
      stop.into_vec = stop_texts value ∧ (stop_texts value).length ≤ 8 ∧
      ∀ text ∈ stop_texts value, text ≠ "" := by
  -- `oneOf` asks for exactly one of the two
  have hone : valid stop_text_schema value = true ∨ valid stop_list_schema value = true := by
    cases htext : valid stop_text_schema value
    · cases hlist : valid stop_list_schema value
      · simp [valid, holds, alternatives, count_valid, htext, hlist] at h
      · exact .inr rfl
    · exact .inl rfl
  rcases hone with htext | hlist
  · obtain ⟨text, rfl, hne⟩ := text_valid htext
    exact ⟨Value.noConfusion, .One text, rfl, rfl, by simp [stop_texts],
      by simpa [stop_texts] using hne⟩
  · obtain ⟨items, rfl, hitems, -, hmost⟩ := array_of_valid hlist (.head _)
    have hlength : (items.length : ℚ) ≤ (8 : ℕ) := hmost (.posInt 8) (.tail _ (.head _))
    have hstrings : ∀ item ∈ items, ∃ text, as_str item = some text ∧ text ≠ "" := by
      intro item hitem
      obtain ⟨text, rfl, hne⟩ := text_valid (hitems _ (.tail _ (.tail _ (.head _))) item hitem)
      exact ⟨text, rfl, hne⟩
    obtain ⟨texts, hread, hfilter, hsize, htexts⟩ := read_vec_of_forall hstrings
    have htexts_eq : stop_texts (.array items) = texts := hfilter.symm
    rw [htexts_eq]
    refine ⟨Value.noConfusion, .Many texts, ?_, rfl, ?_, htexts⟩
    · rw [StopInput.deserialize, hread]
      · rfl
      · exact fun _ => Value.noConfusion
    · rw [hsize]
      exact_mod_cast hlength

theorem role_valid {value : Value} (h : valid (.object
    [("enum", .array [.string "system", .string "user", .string "assistant"])]) value = true) :
    ∃ role, ChatRoleInput.deserialize value = some role := by
  cases value with
  | string name =>
    simp [valid, holds, asserts, items_of, as_array, same] at h
    rcases h with rfl | rfl | rfl
    · exact ⟨.System, rfl⟩
    · exact ⟨.User, rfl⟩
    · exact ⟨.Assistant, rfl⟩
  | _ => simp [valid, holds, asserts, items_of, as_array, same] at h

/-- The members of a record a schema describes are its fields. -/
theorem struct_of_valid {names required : List String} {schemas members : List (String × Value)}
    (h : valid (record required schemas) (.object members) = true)
    (hnames : schemas.map Prod.fst ⊆ names) : struct names (.object members) =
      some fun name => members.lookup name := by
  obtain ⟨_, hmembers, -, -, hknown⟩ := valid_record.1 h
  obtain rfl := Value.object.inj hmembers
  exact if_pos fun member hmem => hnames (hknown member hmem)

theorem message_valid {value : Value} (h : valid message_schema value = true) :
    ∃ message, ChatMessageInput.deserialize value = some message ∧ message.content ≠ "" := by
  obtain ⟨members, rfl, -⟩ := valid_record.1 h
  obtain ⟨role, hrole⟩ := lookup_required h "role" (by decide)
  obtain ⟨content, hcontent⟩ := lookup_required h "content" (by decide)
  obtain ⟨variant, hvariant⟩ := role_valid (lookup_valid h "role" (.head _) hrole)
  obtain ⟨text, rfl, hne⟩ := text_valid (lookup_valid h "content" (.tail _ (.head _)) hcontent)
  refine ⟨{ role := variant, content := text }, ?_, hne⟩
  rw [ChatMessageInput.deserialize, struct_of_valid h (by decide)]
  simp [required, hrole, hcontent, hvariant, as_str]

theorem messages_valid {value : Value} (h : valid messages_schema value = true) :
    ∃ messages, read_vec ChatMessageInput.deserialize value = some messages ∧ messages ≠ [] ∧
      messages.length ≤ 128 ∧ ∀ message ∈ messages, message.content ≠ "" := by
  obtain ⟨items, rfl, hitems, hmin, hmax⟩ := array_of_valid h (.head _)
  have hleast : ((1 : ℕ) : ℚ) ≤ items.length := hmin (.posInt 1) (.tail _ (.head _))
  have hmost : (items.length : ℚ) ≤ (128 : ℕ) :=
    hmax (.posInt 128) (.tail _ (.tail _ (.head _)))
  obtain ⟨messages, hread, -, hsize, hmessages⟩ := read_vec_of_forall fun item hitem =>
    message_valid (hitems _ (.tail _ (.tail _ (.tail _ (.head _)))) item hitem)
  rw [← hsize] at hleast hmost
  have hleast : 1 ≤ messages.length := by exact_mod_cast hleast
  exact ⟨messages, hread, List.length_pos_iff.1 hleast, by exact_mod_cast hmost, hmessages⟩

/-! ## The fields -/

theorem shared_deserialize_iff {fields : String → Option Value} {shared : SharedFields} :
    SharedFields.deserialize fields = some shared ↔
      defaulted read_u32 256 (fields "max_tokens") = some shared.max_tokens ∧
      defaulted read_f32 0.8 (fields "temperature") = some shared.temperature ∧
      defaulted read_f32 0.95 (fields "top_p") = some shared.top_p ∧
      nullable read_u32 (fields "seed") = some shared.seed ∧
      nullable StopInput.deserialize (fields "stop") = some shared.stop ∧
      defaulted read_bool false (fields "stream") = some shared.stream := by
  simp only [SharedFields.deserialize, Option.bind_eq_bind, Option.bind_eq_some_iff]
  constructor
  · rintro ⟨_, htokens, _, htemperature, _, htop_p, _, hseed, _, hstop, _, hstream, h⟩
    obtain rfl := Option.some.inj h
    exact ⟨htokens, htemperature, htop_p, hseed, hstop, hstream⟩
  · rintro ⟨htokens, htemperature, htop_p, hseed, hstop, hstream⟩
    exact ⟨_, htokens, _, htemperature, _, htop_p, _, hseed, _, hstop, _, hstream, rfl⟩

/-- The request the fields give. -/
def SharedFields.request (shared : SharedFields) (input : GenerationInput) :
    GenerationRequest where
  model := model_id
  input := input
  max_tokens := shared.max_tokens
  temperature := shared.temperature
  top_p := shared.top_p
  seed := shared.seed
  stop := shared.stop.elim [] StopInput.into_vec

section

variable {chat : Bool} {members : List (String × Value)}

theorem schema_model (h : valid (generation_schema chat) (.object members) = true) :
    members.lookup "model" = some (.string model_id) := by
  have hrequired : "model" ∈ if chat then ["model", "messages"] else ["model", "prompt"] := by
    cases chat <;> decide
  obtain ⟨value, hvalue⟩ := lookup_required h "model" hrequired
  have hvalid := lookup_valid h "model" (.head _) hvalue
  rw [hvalue]
  cases value with
  | string name =>
    simp [valid, holds, asserts, same] at hvalid
    rw [hvalid]
  | _ => simp [valid, holds, asserts, same] at hvalid

theorem schema_stream (h : valid (generation_schema chat) (.object members) = true) :
    members.lookup "stream" = none := by
  refine lookup_unknown h ?_
  cases chat <;> decide

/-- The input is read, and is not empty anywhere. -/
theorem schema_input (h : valid (generation_schema chat) (.object members) = true)
    (config : EngineConfig) (hconfig : 128 ≤ config.max_messages) :
    ∃ input, tool_input chat (.object members) = some input ∧
      (encoded_bytes input ≤ config.max_prompt_bytes → InputWithin config input) := by
  cases chat with
  | false =>
    obtain ⟨value, hvalue⟩ := lookup_required h "prompt" (by decide)
    have htext : valid text_schema value = true :=
      lookup_valid h "prompt" (by simp [input_property]) hvalue
    obtain ⟨prompt, rfl, hne⟩ := text_valid htext
    refine ⟨.Completion prompt, ?_, fun hbytes => ⟨hne, hbytes⟩⟩
    simp [tool_input, Value.get, hvalue, required, as_str]
  | true =>
    obtain ⟨value, hvalue⟩ := lookup_required h "messages" (by decide)
    obtain ⟨messages, hread, hne, hlength, hcontents⟩ :=
      messages_valid (lookup_valid h "messages" (by simp [input_property]) hvalue)
    refine ⟨.Chat (messages.map ChatMessageInput.into_message), ?_,
      fun hbytes => ⟨?_, ?_, ?_, hbytes⟩⟩
    · simp [tool_input, Value.get, hvalue, required, hread]
    · simpa using hne
    · rw [List.length_map]
      exact hlength.trans hconfig
    · intro message hmem
      obtain ⟨input, hinput, rfl⟩ := List.mem_map.1 hmem
      exact hcontents input hinput

theorem completion_deserialize (h : valid (generation_schema false) (.object members) = true)
    {prompt : String} (hprompt : required as_str (members.lookup "prompt") = some prompt) :
    CompletionRequest.deserialize (.object members) =
      (SharedFields.deserialize fun name => members.lookup name).map fun shared => {
        model := model_id, prompt
        max_tokens := shared.max_tokens, temperature := shared.temperature
        top_p := shared.top_p, seed := shared.seed, stop := shared.stop
        stream := shared.stream } := by
  have hmodel : required as_str (members.lookup "model") = some model_id := by
    rw [schema_model h]
    rfl
  rw [CompletionRequest.deserialize, struct_of_valid h (by decide)]
  simp only [Option.bind_eq_bind, Option.bind_some, hprompt, hmodel]
  cases SharedFields.deserialize fun name => members.lookup name <;> rfl

theorem chat_deserialize (h : valid (generation_schema true) (.object members) = true)
    {messages : List ChatMessageInput}
    (hmessages : required (read_vec ChatMessageInput.deserialize) (members.lookup "messages") =
      some messages) :
    ChatCompletionRequest.deserialize (.object members) =
      (SharedFields.deserialize fun name => members.lookup name).map fun shared => {
        model := model_id, messages
        max_tokens := shared.max_tokens, temperature := shared.temperature
        top_p := shared.top_p, seed := shared.seed, stop := shared.stop
        stream := shared.stream } := by
  have hmodel : required as_str (members.lookup "model") = some model_id := by
    rw [schema_model h]
    rfl
  rw [ChatCompletionRequest.deserialize, struct_of_valid h (by decide)]
  simp only [Option.bind_eq_bind, Option.bind_some, hmessages, hmodel]
  cases SharedFields.deserialize fun name => members.lookup name <;> rfl

/-- What the decoders make of arguments the schema describes. -/
theorem tool_request_iff (h : valid (generation_schema chat) (.object members) = true)
    {input : GenerationInput} (hinput : tool_input chat (.object members) = some input)
    {request : GenerationRequest} :
    tool_request chat (.object members) = .ok request ↔
      ∃ shared, SharedFields.deserialize (fun name => members.lookup name) = some shared ∧
        request = shared.request input := by
  -- the schema does not know `stream`, so its default is read and no call is refused
  have hstream := schema_stream h
  cases hshared : SharedFields.deserialize fun name => members.lookup name with
  | none =>
    refine iff_of_false (fun hrequest => ?_) (by simp)
    cases chat with
    | false =>
      obtain ⟨prompt, hprompt, -⟩ := Option.map_eq_some_iff.1 hinput
      have hnone := completion_deserialize h hprompt
      rw [hshared, Option.map_none] at hnone
      simp [tool_request, hnone] at hrequest
    | true =>
      obtain ⟨messages, hmessages, -⟩ := Option.map_eq_some_iff.1 hinput
      have hnone := chat_deserialize h hmessages
      rw [hshared, Option.map_none] at hnone
      simp [tool_request, hnone] at hrequest
  | some shared =>
    have hstream : shared.stream = false := by
      have hread := (shared_deserialize_iff.1 hshared).2.2.2.2.2
      rw [hstream] at hread
      exact (Option.some.inj hread).symm
    cases chat with
    | false =>
      obtain ⟨prompt, hprompt, rfl⟩ := Option.map_eq_some_iff.1 hinput
      have hsome := completion_deserialize h hprompt
      rw [hshared, Option.map_some] at hsome
      simp [tool_request, hsome, hstream, CompletionRequest.into_generation,
        SharedFields.request, eq_comm]
    | true =>
      obtain ⟨messages, hmessages, rfl⟩ := Option.map_eq_some_iff.1 hinput
      have hsome := chat_deserialize h hmessages
      rw [hshared, Option.map_some] at hsome
      simp [tool_request, hsome, hstream, ChatCompletionRequest.into_generation,
        SharedFields.request, eq_comm]

end

/-! ## The values of the fields -/

section

variable {chat : Bool} {members : List (String × Value)}

/-- A count is read when it is written as an integer, at its value. -/
theorem tokens_read (hvalid : valid (generation_schema chat) (.object members) = true) :
    ((∃ m, defaulted read_u32 256 (members.lookup "max_tokens") = some m) ↔
      ∀ value, members.lookup "max_tokens" = some value → is_integer value = true) ∧
    ∀ m, defaulted read_u32 256 (members.lookup "max_tokens") = some m →
      (m.toNat : ℚ) = ((members.lookup "max_tokens").bind number_of).getD 256 ∧
        0 < m ∧ m ≤ 1024 := by
  have h := fun value (hvalue : members.lookup "max_tokens" = some value) =>
    tokens_valid (lookup_valid hvalid "max_tokens" (by simp) hvalue)
  generalize members.lookup "max_tokens" = field at h ⊢
  cases field with
  | none =>
    refine ⟨iff_of_true ⟨_, rfl⟩ (by simp), fun m hm => ?_⟩
    obtain rfl := Option.some.inj hm
    exact ⟨rfl, by decide, by decide⟩
  | some value =>
    obtain ⟨n, rfl, hleast, hmost⟩ := h value rfl
    -- within the bounds, only the form of the number decides
    have hread : (∃ m, read_u32 (.number n) = some m) ↔ n.integer.isSome :=
      read_u32_isSome (by linarith) (hmost.trans_lt (by norm_num [UInt32.size]))
    refine ⟨by simpa [defaulted, is_integer] using hread, fun m hm => ?_⟩
    have hvalue := read_u32_value hm
    rw [hvalue] at hleast hmost
    have hleast : 1 ≤ m.toNat := by exact_mod_cast hleast
    have hmost : m.toNat ≤ 1024 := by exact_mod_cast hmost
    exact ⟨hvalue.symm, UInt32.lt_iff_toNat_lt.2 hleast, UInt32.le_iff_toNat_le.2 hmost⟩

theorem seed_read (hvalid : valid (generation_schema chat) (.object members) = true) :
    (∃ seed, nullable read_u32 (members.lookup "seed") = some seed) ↔
      ∀ value, members.lookup "seed" = some value → is_integer value = true := by
  have h := fun value (hvalue : members.lookup "seed" = some value) =>
    seed_valid (lookup_valid hvalid "seed" (by simp) hvalue)
  generalize members.lookup "seed" = field at h ⊢
  cases field with
  | none => exact iff_of_true ⟨_, rfl⟩ (by simp)
  | some value =>
    obtain ⟨n, rfl, hleast, hmost⟩ := h value rfl
    have hread : (∃ m, read_u32 (.number n) = some m) ↔ n.integer.isSome :=
      read_u32_isSome hleast (hmost.trans_lt (by norm_num [UInt32.size]))
    simpa [nullable, is_integer] using hread

theorem temperature_read (hvalid : valid (generation_schema chat) (.object members) = true) :
    ∃ t, defaulted read_f32 0.8 (members.lookup "temperature") = some t ∧
      t.isFinite = true ∧ 0.0 ≤ t ∧ t ≤ 2.0 := by
  have h := fun value (hvalue : members.lookup "temperature" = some value) =>
    temperature_valid (lookup_valid hvalid "temperature" (by simp) hvalue)
  generalize members.lookup "temperature" = field at h ⊢
  cases field with
  | none => exact ⟨0.8, rfl, by decide, by decide, by decide⟩
  | some value =>
    obtain ⟨n, rfl, hleast, hmost⟩ := h value rfl
    refine ⟨_, rfl, ?_⟩
    rcases n.as_f32_cases with rfl | hrounded
    · exact ⟨by decide, by decide, by decide⟩
    · rw [hrounded]
      exact Binary32.of_rat_le_two hleast hmost

/-- A probability that is too small is read as zero. -/
theorem top_p_read (hvalid : valid (generation_schema chat) (.object members) = true) :
    ∃ p, defaulted read_f32 0.95 (members.lookup "top_p") = some p ∧
      p.isFinite = true ∧ p ≤ 1.0 ∧
      (0.0 < p ↔
        ∀ q, (members.lookup "top_p").bind number_of = some q → 2 ^ (-150 : ℤ) < q) := by
  have h := fun value (hvalue : members.lookup "top_p" = some value) =>
    top_p_valid (lookup_valid hvalid "top_p" (by simp) hvalue)
  generalize members.lookup "top_p" = field at h ⊢
  cases field with
  | none => exact ⟨0.95, rfl, by decide, by decide, iff_of_true (by decide) (by simp)⟩
  | some value =>
    obtain ⟨n, rfl, hleast, hmost⟩ := h value rfl
    obtain ⟨hfinite, hle, hpos⟩ := Binary32.of_rat_le_one hleast hmost
    -- a zero is not among the probabilities that the schema allows
    have hrounded := n.as_f32_cases.resolve_left (by rintro rfl; exact absurd hleast (by decide))
    rw [← hrounded] at hfinite hle hpos
    exact ⟨_, rfl, hfinite, hle, by simpa [number_of] using hpos⟩

theorem stop_read (hvalid : valid (generation_schema chat) (.object members) = true) :
    ∃ stop, nullable StopInput.deserialize (members.lookup "stop") = some stop ∧
      stop.elim [] StopInput.into_vec = (members.lookup "stop").elim [] stop_texts ∧
      ((members.lookup "stop").elim [] stop_texts).length ≤ 8 ∧
      ∀ text ∈ (members.lookup "stop").elim [] stop_texts, text ≠ "" := by
  have h := fun value (hvalue : members.lookup "stop" = some value) =>
    stop_valid (lookup_valid hvalid "stop" (by simp) hvalue)
  generalize members.lookup "stop" = field at h ⊢
  cases field with
  | none => exact ⟨none, rfl, rfl, by simp, by simp⟩
  | some value =>
    obtain ⟨hnull, stop, hread, htexts, hlength, hne⟩ := h value rfl
    refine ⟨some stop, ?_, htexts, hlength, hne⟩
    rw [nullable, hread]
    · rfl
    · exact hnull

end

section

variable {chat : Bool} {arguments : Value}

/-- The decoders and the validator only accept what all three agree on. -/
theorem agreed_of_honoured (hvalid : valid (generation_schema chat) arguments = true)
    (h : Honoured .default chat arguments) : Agreed arguments := by
  obtain ⟨members, rfl, -⟩ := valid_record.1 hvalid
  obtain ⟨request, normalized, hrequest, hok, -⟩ := h
  have haccept := (normalize_request_iff _ _).1 ⟨_, hok⟩
  -- the fields of the request are what the decoders read
  obtain ⟨input, hinput, -⟩ := schema_input hvalid .default le_rfl
  obtain ⟨shared, hshared, rfl⟩ := (tool_request_iff hvalid hinput).1 hrequest
  obtain ⟨hreadm, -, hreadp, hreadd, hreads, -⟩ := shared_deserialize_iff.1 hshared
  obtain ⟨p, hp, -, -, hpos⟩ := top_p_read hvalid
  obtain ⟨stop, hstop, htexts, -⟩ := stop_read hvalid
  -- the probability and the stop that were accepted are those that the schema is about
  obtain rfl := Option.some.inj (hp.symm.trans hreadp)
  obtain rfl := Option.some.inj (hstop.symm.trans hreads)
  exact {
    max_tokens := (tokens_read hvalid).1.1 ⟨_, hreadm⟩
    seed := (seed_read hvalid).1 ⟨_, hreadd⟩
    stop := fun value hvalue text htext => by
      have hlookup : members.lookup "stop" = some value := hvalue
      rw [hlookup, Option.elim_some] at htexts
      have htext : text ∈ shared.stop.elim [] StopInput.into_vec := by
        rw [htexts]
        exact htext
      exact (haccept.stop.2 text htext).2
    top_p := hpos.1 haccept.top_p.2.1 }

theorem honoured_of_agreed (hvalid : valid (generation_schema chat) arguments = true)
    (hfits : Fits .default chat arguments) (h : Agreed arguments) :
    Honoured .default chat arguments := by
  obtain ⟨members, rfl, -⟩ := valid_record.1 hvalid
  obtain ⟨input, hinput, hwithin⟩ := schema_input hvalid .default le_rfl
  obtain ⟨hbytes, hcontext⟩ := hfits input hinput
  obtain ⟨max_tokens, hreadm⟩ := (tokens_read hvalid).1.2 h.max_tokens
  obtain ⟨hvalue, hmin, hmax⟩ := (tokens_read hvalid).2 _ hreadm
  obtain ⟨temperature, hreadt, htemperature⟩ := temperature_read hvalid
  obtain ⟨top_p, hreadp, hfinite, hle, hpos⟩ := top_p_read hvalid
  obtain ⟨seed, hreadd⟩ := (seed_read hvalid).2 h.seed
  obtain ⟨stop, hreads, htexts, hlength, hne⟩ := stop_read hvalid
  have hreadb : defaulted read_bool false (members.lookup "stream") = some false := by
    rw [schema_stream hvalid]
    rfl
  let shared : SharedFields := ⟨max_tokens, temperature, top_p, seed, stop, false⟩
  have hrequest : tool_request chat (.object members) = .ok (shared.request input) :=
    (tool_request_iff hvalid hinput).2
      ⟨shared, shared_deserialize_iff.2 ⟨hreadm, hreadt, hreadp, hreadd, hreads, hreadb⟩, rfl⟩
  have hstop : (shared.request input).stop = (members.lookup "stop").elim [] stop_texts := htexts
  -- every check of the validator: by the schema, by what is agreed, or by the bounds
  have haccept : Acceptable .default (shared.request input) := {
    model := rfl
    max_tokens := ⟨hmin, hmax⟩
    temperature := htemperature
    top_p := ⟨hfinite, hpos.2 h.top_p, hle⟩
    stop := by
      rw [hstop]
      refine ⟨hlength, fun text htext => ⟨hne text htext, ?_⟩⟩
      cases hlookup : members.lookup "stop" with
      | none => simp [hlookup] at htext
      | some value =>
        rw [hlookup] at htext
        exact h.stop value hlookup text htext
    input := hwithin hbytes
    context := by
      have hcontext : ((rendered input).utf8ByteSize : ℚ) + max_tokens.toNat ≤
          MODEL_CONTEXT_TOKENS := hvalue ▸ hcontext
      exact_mod_cast hcontext }
  obtain ⟨normalized, hok⟩ := (normalize_request_iff _ _).2 haccept
  refine ⟨_, normalized, hrequest, hok, fun to_string generate status params hcall => ?_⟩
  rw [call_tool_generation to_string generate status hcall, hrequest]
  rfl

end

/-- Of the arguments the schema describes and the bounds allow, the tools accept
    those that write integers as integers, whose stops are short in bytes, and
    whose nucleus probability is not rounded to zero. -/
theorem schema_honoured_iff (chat : Bool) (arguments : Value)
    (hvalid : valid (generation_schema chat) arguments = true)
    (hfits : Fits .default chat arguments) :
    Honoured .default chat arguments ↔ Agreed arguments :=
  ⟨agreed_of_honoured hvalid, honoured_of_agreed hvalid hfits⟩

/-- A short prompt with one more member. -/
def prompt_with (name : String) (value : Value) : Value :=
  .object [("model", .string model_id), ("prompt", .string "Hi"), (name, value)]

theorem fits_prompt_with {name : String} {value : Value}
    (h : tool_tokens (prompt_with name value) ≤ 1024) :
    Fits .default false (prompt_with name value) := by
  intro input hinput
  obtain rfl := Option.some.inj hinput
  have hsize : (rendered (.Completion "Hi")).utf8ByteSize = 2 := by decide
  refine ⟨by decide, ?_⟩
  rw [hsize]
  unfold MODEL_CONTEXT_TOKENS
  push_cast
  linarith

theorem schema_honoured_seed : Honoured .default false (prompt_with "seed" (natural 7)) :=
  (schema_honoured_iff false _ (by decide +kernel) (fits_prompt_with (by decide +kernel))).2 {
    max_tokens := fun _ => nofun
    seed := fun value hvalue => by
      obtain rfl := Option.some.inj hvalue
      rfl
    stop := fun _ => nofun
    top_p := fun _ => nofun }

/-- 128 characters of two bytes each. -/
def long_stop : String := .ofList (.replicate 128 'é')

/-- The schema and the bounds allow the prompt, and the tool refuses it. -/
def Refused (name : String) (value : Value) : Prop :=
  valid (generation_schema false) (prompt_with name value) = true ∧
    Fits .default false (prompt_with name value) ∧
    ¬ Honoured .default false (prompt_with name value)

theorem refused_of_not_agreed {name : String} {value : Value}
    (hvalid : valid (generation_schema false) (prompt_with name value) = true)
    (htokens : tool_tokens (prompt_with name value) ≤ 1024)
    (h : ¬ Agreed (prompt_with name value)) : Refused name value :=
  ⟨hvalid, fits_prompt_with htokens, fun honoured => h (agreed_of_honoured hvalid honoured)⟩

/-- An integer written as a float, a stop of more bytes than characters, and a
    probability that `f32` cannot hold. -/
theorem schema_not_honoured :
    Refused "max_tokens" (.number (.float 16)) ∧ Refused "stop" (.string long_stop) ∧
      Refused "top_p" (.number (.float (1 / 2 ^ 200))) := by
  refine ⟨?_, ?_, ?_⟩
  · refine refused_of_not_agreed (by decide +kernel) (by decide +kernel) fun hagreed => ?_
    exact absurd (hagreed.max_tokens _ rfl) (by decide)
  · refine refused_of_not_agreed (by decide +kernel) (by decide +kernel) fun hagreed => ?_
    exact absurd (hagreed.stop _ rfl long_stop (.head _)) (by decide +kernel)
  · refine refused_of_not_agreed (by decide +kernel) (by decide +kernel) fun hagreed => ?_
    exact absurd (hagreed.top_p _ rfl) (by norm_num [Number.value])

end Inferences.Server.Mcp
