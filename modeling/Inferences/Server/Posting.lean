import Inferences.Binary32.Exact
import Inferences.Engine.Normalize
import Inferences.Server.Requests

/-!
# The request that is posted

The engine posts a request that it has normalized to the sidecar, as a JSON
body (`NormalizedRequest.body`), on the path of its kind. Both are those of the
HTTP routes of this program, but for the options of the stream: what is posted
reads as the request that was normalized, and is normalized to it again
(`posted_as_normalized`).
-/

namespace Inferences

open Json

namespace Engine

/-- The name of the model in a request to the sidecar. -/
def MODEL_ALIAS : String := CURATED_MODEL_ID

/-- `Value::from` a float: null, when it is not finite. -/
def of_f32 (x : Float32) : Value :=
  if Binary32.is_negative_zero x then .number .neg_zero
  else
    match Binary32.to_rat x with
    | some q => .number (.float q)
    | none => .null

/-- A `u32` as a value. -/
def of_u32 (n : UInt32) : Value := .number (.posInt n.toUInt64)

/-- A message as a value. -/
def message_value (message : ChatMessage) : Value :=
  .object [("role", .string (role_name message.role)), ("content", .string message.content)]

namespace NormalizedRequest

/-- The endpoint of the sidecar for the request. -/
def path (self : NormalizedRequest) : String :=
  match self.input with
  | .Completion _ => "/v1/completions"
  | .Chat _ => "/v1/chat/completions"

/-- The members of the body that every request has. -/
def settings (self : NormalizedRequest) : List (String × Value) :=
  [("model", .string MODEL_ALIAS),
    ("max_tokens", of_u32 self.max_tokens),
    ("temperature", of_f32 self.temperature),
    ("top_p", of_f32 self.top_p),
    ("stop", .array (self.stop.map .string)),
    ("stream", .bool true),
    ("stream_options", .object [("include_usage", .bool true)])]

/-- The body that is posted. -/
def body (self : NormalizedRequest) : Value :=
  let seed := match self.seed with
    | some seed => [("seed", of_u32 seed)]
    | none => []
  let input := match self.input with
    | .Completion prompt => ("prompt", .string prompt)
    | .Chat messages => ("messages", .array (messages.map message_value))
  .object (self.settings ++ seed ++ [input])

end NormalizedRequest

end Engine

namespace Server

open Engine Protocol Json.Value Json.Serde Mcp

/-! ## The routes -/

/-- How the body of a request is read, by its path. -/
def route (path : String) (body : Value) : Option GenerationRequest :=
  match path with
  | "/v1/completions" =>
    (CompletionRequest.deserialize body).map CompletionRequest.into_generation
  | "/v1/chat/completions" =>
    (ChatCompletionRequest.deserialize body).map ChatCompletionRequest.into_generation
  | _ => none

/-- The members of an object that do not have the name. -/
def without (name : String) : Value → Value
  | .object members => .object (members.filter (·.1 ≠ name))
  | value => value

/-- What a client asks for that sends a normalized request. -/
def asked (self : NormalizedRequest) : LogicalRequest where
  model := MODEL_ALIAS
  input := self.input
  max_tokens := some self.max_tokens
  temperature := some self.temperature
  top_p := some self.top_p
  seed := self.seed
  stop := some self.stop

theorem route_path (self : NormalizedRequest) (body : Value) :
    route self.path body = (asked self).http body := by
  unfold route NormalizedRequest.path LogicalRequest.http LogicalRequest.is_chat asked
  cases self.input <;> rfl

/-! ## Reading what is posted -/

theorem read_of_u32 (n : UInt32) : read_u32 (of_u32 n) = some n := by
  have hinteger : (Number.posInt n.toUInt64).integer = some (n.toNat : ℤ) := by
    rw [Number.integer, UInt32.toNat_toUInt64]
  have hrange : 0 ≤ (n.toNat : ℤ) ∧ (n.toNat : ℤ) < UInt32.size :=
    ⟨Int.natCast_nonneg _, by exact_mod_cast n.toNat_lt_size⟩
  rw [of_u32, read_u32, hinteger, Option.bind_some, if_pos hrange, Int.toNat_natCast,
    UInt32.ofNat_toNat]

theorem read_of_f32 {x : Float32} (h : x.isFinite = true) : read_f32 (of_f32 x) = some x := by
  rw [of_f32]
  cases hsign : Binary32.is_negative_zero x with
  | true =>
    obtain rfl := Binary32.eq_negative_zero hsign
    rfl
  | false =>
    obtain ⟨q, hq⟩ : ∃ q, Binary32.to_rat x = some q := Binary32.exists_to_rat h
    have hread : read_f32 (.number (.float q)) = some (Binary32.of_rat q) := rfl
    rw [if_neg (by decide), hq, hread, Binary32.of_rat_to_rat hq hsign]

theorem read_message (message : ChatMessage) :
    (ChatMessageInput.deserialize (message_value message)).map ChatMessageInput.into_message =
      some message := by
  obtain ⟨role, content⟩ := message
  cases role <;> rfl

theorem read_messages (messages : List ChatMessage) :
    ∃ inputs, read_vec ChatMessageInput.deserialize (.array (messages.map message_value)) =
      some inputs ∧ inputs.map ChatMessageInput.into_message = messages := by
  rw [read_vec]
  induction messages with
  | nil => exact ⟨[], rfl, rfl⟩
  | cons message messages ih =>
    obtain ⟨inputs, hread, hinputs⟩ := ih
    obtain ⟨input, hinput, hmessage⟩ := Option.map_eq_some_iff.1 (read_message message)
    refine ⟨input :: inputs, ?_, by rw [List.map_cons, hmessage, hinputs]⟩
    rw [List.map_cons, List.mapM_cons, hinput, hread]
    rfl

theorem read_strings (texts : List String) :
    read_vec as_str (.array (texts.map .string)) = some texts := by
  rw [read_vec]
  induction texts with
  | nil => rfl
  | cons text texts ih =>
    rw [List.map_cons, List.mapM_cons, ih]
    rfl

theorem read_stop (stop : List String) :
    nullable StopInput.deserialize (some (.array (stop.map .string))) =
      some (some (.Many stop)) := by
  simp [nullable, StopInput.deserialize, read_strings]

theorem read_seed (seed : Option UInt32) :
    nullable read_u32 (seed.map of_u32) = some seed := by
  cases seed with
  | none => rfl
  | some seed =>
    have hread : nullable read_u32 (some (of_u32 seed)) = (read_u32 (of_u32 seed)).map some := rfl
    rw [Option.map_some, hread, read_of_u32, Option.map_some]

/-- The body, but for the options of the stream, carries what was normalized. -/
theorem carries_posted {self : NormalizedRequest} (htemperature : self.temperature.isFinite = true)
    (htop_p : self.top_p.isFinite = true) :
    (asked self).Carries true (without "stream_options" self.body) := by
  obtain ⟨input, max_tokens, temperature, top_p, seed, stop⟩ := self
  have htokens := congrArg some (read_of_u32 max_tokens)
  have htemperature := congrArg some (read_of_f32 htemperature)
  have htop_p := congrArg some (read_of_f32 htop_p)
  have hseed := read_seed seed
  have hstop := read_stop stop
  cases input with
  | Completion prompt =>
    cases seed with
    | none | some seed =>
      exact ⟨_, rfl, rfl, rfl, htokens, htemperature, htop_p, hseed, ⟨_, hstop, rfl⟩, rfl⟩
  | Chat messages =>
    have hmessages := read_messages messages
    cases seed with
    | none | some seed =>
      exact ⟨_, rfl, rfl, hmessages, htokens, htemperature, htop_p, hseed, ⟨_, hstop, rfl⟩, rfl⟩

/-! ## Normalizing again -/

/-- What a request is normalized to. -/
theorem normalize_request_eq {request : GenerationRequest} {config : EngineConfig}
    {normalized : NormalizedRequest} (h : normalize_request request config = .ok normalized) :
    normalized = {
      input := request.input
      max_tokens := request.max_tokens
      temperature := request.temperature
      top_p := if request.temperature == 0.0 then 1.0 else request.top_p
      seed := request.seed
      stop := request.stop } := by
  simp only [normalize_request, check_eq_ok, bind_eq_ok] at h
  obtain ⟨-, -, -, -, -, -, -, -, -, -, -, h⟩ := h
  exact (Except.ok.inj h).symm

/-- The sampling of a normalized request is within its bounds. -/
theorem top_p_of_normalized (t : Float32) {p : Float32}
    (h : p.isFinite = true ∧ 0.0 < p ∧ p ≤ 1.0) :
    (if t == 0.0 then 1.0 else p).isFinite = true ∧ 0.0 < (if t == 0.0 then 1.0 else p) ∧
      (if t == 0.0 then 1.0 else p) ≤ 1.0 := by
  split
  · decide
  · exact h

theorem generation_asked (self : NormalizedRequest) : (asked self).generation = {
    model := MODEL_ALIAS
    input := self.input
    max_tokens := self.max_tokens
    temperature := self.temperature
    top_p := self.top_p
    seed := self.seed
    stop := self.stop } := rfl

/-- A normalized request is normalized to itself. -/
theorem normalize_generation {request : GenerationRequest} {config : EngineConfig}
    {normalized : NormalizedRequest} (h : normalize_request request config = .ok normalized) :
    normalize_request (asked normalized).generation config = .ok normalized := by
  have hacceptable := (normalize_request_iff config request).1 ⟨_, h⟩
  have htop_p := top_p_of_normalized request.temperature hacceptable.top_p
  obtain rfl := normalize_request_eq h
  have hposted : Acceptable config {
      model := MODEL_ALIAS
      input := request.input
      max_tokens := request.max_tokens
      temperature := request.temperature
      top_p := if request.temperature == 0.0 then 1.0 else request.top_p
      seed := request.seed
      stop := request.stop } :=
    ⟨rfl, hacceptable.max_tokens, hacceptable.temperature, htop_p, hacceptable.stop,
      hacceptable.input, hacceptable.context⟩
  rw [generation_asked]
  obtain ⟨again, hagain⟩ := (normalize_request_iff config _).2 hposted
  rw [hagain, normalize_request_eq hagain]
  dsimp only
  split <;> rfl

/-- What is posted reads, on its path, as a request that is normalized to the
    same again. -/
theorem posted_as_normalized {request : GenerationRequest} {config : EngineConfig}
    {normalized : NormalizedRequest} (h : normalize_request request config = .ok normalized) :
    ∃ again, route normalized.path (without "stream_options" normalized.body) = some again ∧
      normalize_request again config = .ok normalized := by
  have hacceptable := (normalize_request_iff config request).1 ⟨_, h⟩
  have htop_p := top_p_of_normalized request.temperature hacceptable.top_p
  have hnormalize := normalize_generation h
  obtain rfl := normalize_request_eq h
  exact ⟨_, (route_path _ _).trans (LogicalRequest.http_eq
    (carries_posted hacceptable.temperature.1 htop_p.1)), hnormalize⟩

/-- A request with every setting given. -/
def small_request : GenerationRequest where
  model := CURATED_MODEL_ID
  input := .Chat [⟨.System, "Be brief."⟩, ⟨.User, "Hi"⟩]
  max_tokens := 8
  temperature := 0.5
  top_p := 0.75
  seed := some 7
  stop := ["."]

theorem posted_as_normalized_small : ∃ normalized again,
    normalize_request small_request .default = .ok normalized ∧
      route normalized.path (without "stream_options" normalized.body) = some again ∧
      normalize_request again .default = .ok normalized := by
  have hinput : InputWithin .default small_request.input := by
    simp only [small_request, InputWithin]
    decide
  have hacceptable : Acceptable .default small_request :=
    ⟨rfl, by decide, by decide, by decide, by decide, hinput, by decide⟩
  obtain ⟨normalized, hnormalized⟩ := (normalize_request_iff _ _).2 hacceptable
  obtain ⟨again, hroute, hagain⟩ := posted_as_normalized hnormalized
  exact ⟨normalized, again, hnormalized, hroute, hagain⟩

end Server

end Inferences
