import Inferences.Server.Encoding
import Inferences.Server.Mcp
import Inferences.Server.WebSocketSafety

/-!
# The transports agree

The same generation stream reaches the client through six consumers: the HTTP
document and the HTTP event stream, the MCP tool result, the unary gRPC
response and the gRPC response stream, and the messages of a WebSocket
session. What a client reads from each (`Outcome`) is the same, for every
stream of the two shapes the engine delivers (`transports_agree`), except that
a gRPC call ends in an error when a message of it is over the limit of the
server (`unary_too_large`).
-/

namespace Inferences.Server

open Json Protocol Schedule

/-- A generation stream of one of the two shapes the engine delivers. -/
inductive Delivery
  | completed (deltas : List String) (usage : TokenUsage) (reason : FinishReason)
  | failed (deltas : List String) (usage : Option TokenUsage) (error : EngineError)

/-- The events that the delivery comes as. -/
def Delivery.items : Delivery → EngineEventStream
  | completed deltas usage reason => Inferences.completed deltas usage reason
  | failed deltas usage error => Inferences.failed deltas usage error

/-- A successful answer, as a client reads it. -/
structure Answer where
  text : String
  prompt_tokens : Nat
  completion_tokens : Nat
  total_tokens : Nat
  finish_reason : String
  deriving DecidableEq

/-- What a client is left with: an answer reported as successful, an error, or
    neither. -/
inductive Outcome
  | success (answer : Answer)
  | failure
  | neither
  deriving DecidableEq

/-- The outcome a stream calls for. -/
def Delivery.outcome : Delivery → Outcome
  | completed deltas usage reason =>
    .success { text := String.join deltas
               prompt_tokens := usage.prompt_tokens.toNat
               completion_tokens := usage.completion_tokens.toNat
               total_tokens := usage.total_tokens.toNat
               finish_reason := finish_reason reason }
  | failed .. => .failure

/-! ## What clients read -/

/-- The counters of a usage object. -/
def read_usage (usage : Value) : Option (Nat × Nat × Nat) := do
  let prompt_tokens ← (← usage.get "prompt_tokens").as_u64
  let completion_tokens ← (← usage.get "completion_tokens").as_u64
  let total_tokens ← (← usage.get "total_tokens").as_u64
  return (prompt_tokens.toNat, completion_tokens.toNat, total_tokens.toNat)

/-- A member that is a string. -/
def read_str (value : Value) (name : String) : Option String := do (← value.get name).as_str

/-- The first of the choices. -/
def first_choice (value : Value) : Option Value := do (← (← value.get "choices").as_array).head?

/-- The outcome of an answer with these parts. -/
def answer_of (text : String) (usage : Nat × Nat × Nat) (finish_reason : String) : Outcome :=
  .success { text, finish_reason, prompt_tokens := usage.1, completion_tokens := usage.2.1,
             total_tokens := usage.2.2 }

namespace Http

/-- The text of a choice. -/
def read_text (mode : ResponseMode) (choice : Value) : Option String :=
  match mode with
  | .Completion => read_str choice "text"
  | .Chat => (choice.get "message").bind (read_str · "content")

/-- Reading a JSON response. -/
def Response.outcome (mode : ResponseMode) (self : Response) : Outcome :=
  if self.status = 200 then
    match first_choice self.body, (self.body.get "usage").bind read_usage with
    | some choice, some usage =>
      match read_text mode choice, read_str choice "finish_reason" with
      | some text, some reason => answer_of text usage reason
      | _, _ => .neither
    | _, _ => .neither
  else if (self.body.get "error").isSome then .failure
  else .neither

/-- The text one chunk of a stream adds. -/
def read_delta (mode : ResponseMode) (choice : Value) : String :=
  (match mode with
    | .Completion => read_str choice "text"
    | .Chat => (choice.get "delta").bind (read_str · "content")).getD ""

/-- Reading a stream of events: chunks up to `[DONE]`, or up to an error. -/
def read_events (mode : ResponseMode) (text : String) (usage : Option (Nat × Nat × Nat))
    (finish : Option String) : List Event → Outcome
  | [] => .neither
  | ⟨some _, _⟩ :: events => if events.isEmpty then .failure else .neither
  | ⟨none, .done⟩ :: events =>
    match usage, finish with
    | some usage, some finish => if events.isEmpty then answer_of text usage finish else .neither
    | _, _ => .neither
  | ⟨none, .json value⟩ :: events =>
    match first_choice value with
    | none => read_events mode text ((value.get "usage").bind read_usage <|> usage) finish events
    | some choice =>
      read_events mode (text ++ read_delta mode choice) usage
        (read_str choice "finish_reason" <|> finish) events

end Http

/-- Reading the result of a tool call. -/
def Mcp.read_result : Except Mcp.RpcFailure Value → Outcome
  | .error _ => .failure
  | .ok result =>
    match result.get "structuredContent", result.get "isError" with
    | some content, some (.bool false) =>
      match read_str content "text", (content.get "usage").bind read_usage,
          read_str content "finish_reason" with
      | some text, some usage, some reason => answer_of text usage reason
      | _, _, _ => .neither
    | _, _ => .neither

namespace Grpc

/-- The three counters. -/
def Usage.counters (self : Usage) : Nat × Nat × Nat :=
  (self.prompt_tokens.toNat, self.completion_tokens.toNat, self.total_tokens.toNat)

/-- Reading a unary response. -/
def read_response : Except Status GenerationResponse → Outcome
  | .error _ => .failure
  | .ok response =>
    match response.usage with
    | some usage => answer_of response.text usage.counters response.finish_reason
    | none => .neither

/-- Reading the messages of a response stream that ended with OK. -/
def read_received (text : String) (usage : Option Usage) : List GenerationEvent → Outcome
  | ⟨_, some (.Delta delta)⟩ :: events => read_received (text ++ delta) usage events
  | ⟨_, some (.Usage usage)⟩ :: events => read_received text (some usage) events
  | [⟨_, some (.FinishReason reason)⟩] =>
    match usage with
    | some usage => answer_of text usage.counters reason
    | none => .neither
  | _ => .neither

/-- Reading a response stream. -/
def Streaming.outcome (self : Streaming) : Outcome :=
  match self.ended with
  | some (.ok ()) => read_received "" none self.received
  | some (.error _) => .failure
  | none => .neither

end Grpc

/-- Reading the messages of one generation of a WebSocket session. -/
def WebSocket.read_messages (text : String) : List WebSocketServerMessage → Outcome
  | .Delta _ delta :: messages => read_messages (text ++ delta) messages
  | [.Final _ reason prompt_tokens completion_tokens total_tokens] =>
    answer_of text (prompt_tokens.toNat, completion_tokens.toNat, total_tokens.toNat) reason
  | [.Error ..] => .failure
  | _ => .neither

/-! ## The collectors -/

/-- The counters are read back. -/
theorem read_usage_json (usage : TokenUsage) :
    read_usage (Http.usage_json usage) =
      some (usage.prompt_tokens.toNat, usage.completion_tokens.toNat,
        usage.total_tokens.toNat) := by
  simp [read_usage, Http.usage_json, Http.counter, Value.get, Value.as_u64, List.lookup]

namespace Http

theorem collect_from_deltas (now : UInt64) (id : String) (mode : ResponseMode) (text : String)
    (deltas : List String) (rest : EngineEventStream) :
    collect_from now id mode text none none (deltas.map (.ok ∘ .Delta) ++ rest) =
      collect_from now id mode (deltas.foldl (· ++ ·) text) none none rest := by
  induction deltas generalizing text with
  | nil => rfl
  | cons delta deltas ih => exact ih (text ++ delta)

/-- The outcome of a response with an answer. -/
theorem outcome_response_body (now : UInt64) (id : String) (mode : ResponseMode) (text : String)
    (usage : TokenUsage) (reason : FinishReason) :
    (Response.mk 200 (response_body now id mode text usage reason)).outcome mode =
      answer_of text (usage.prompt_tokens.toNat, usage.completion_tokens.toNat,
        usage.total_tokens.toNat) (finish_reason reason) := by
  cases mode <;>
    simp [Response.outcome, response_body, first_choice, Value.get, Value.as_array, read_text,
      read_str, Value.as_str, List.lookup, read_usage_json]

/-- An error is read as a failure. -/
theorem outcome_engine_error_response (mode : ResponseMode) (error : EngineError) :
    (engine_error_response error).outcome mode = .failure := by
  cases error <;> rfl

/-- The HTTP response has the outcome of the delivery. -/
theorem collect_response_outcome (now : UInt64) (id : String) (mode : ResponseMode)
    (delivery : Delivery) :
    (collect_response now delivery.items id mode).outcome mode = delivery.outcome := by
  rcases delivery with ⟨deltas, usage, reason⟩ | ⟨deltas, usage, error⟩
  · rw [collect_response, Delivery.items, completed, collect_from_deltas]
    exact outcome_response_body ..
  · rw [collect_response, Delivery.items, failed, List.append_assoc, collect_from_deltas]
    cases usage <;> exact outcome_engine_error_response mode error

end Http

namespace Mcp

theorem collect_from_deltas (text : String) (deltas : List String) (rest : EngineEventStream) :
    collect_from text none none (deltas.map (.ok ∘ .Delta) ++ rest) =
      collect_from (deltas.foldl (· ++ ·) text) none none rest := by
  induction deltas generalizing text with
  | nil => rfl
  | cons delta deltas ih => exact ih (text ++ delta)

/-- The tool result has the outcome of the delivery. -/
theorem generation_tool_outcome (to_string : Value → String) (request : GenerationRequest)
    (delivery : Delivery) :
    read_result (generation_tool to_string (fun _ => .ok delivery.items) request) =
      delivery.outcome := by
  rcases delivery with ⟨deltas, usage, reason⟩ | ⟨deltas, usage, error⟩
  · have hcollect : collect (completed deltas usage reason) =
        .ok { text := String.join deltas, usage, finish := reason } := by
      rw [collect, completed, collect_from_deltas]
      rfl
    have hreason : finish_reason reason = Server.finish_reason reason := by cases reason <;> rfl
    have htool : generation_tool to_string (fun _ => .ok (completed deltas usage reason)) request =
        .ok (tool_result to_string (.object [("text", .string (String.join deltas)),
          ("model", .string model_id), ("finish_reason", .string (finish_reason reason)),
          ("usage", Http.usage_json usage)])) := by
      change ((collect (completed deltas usage reason)).mapError engine_failure >>= _) = _
      rw [hcollect]
      rfl
    rw [Delivery.items, htool, hreason]
    change (match some (String.join deltas), read_usage (Http.usage_json usage),
        some (Server.finish_reason reason) with
      | some text, some usage, some reason => answer_of text usage reason
      | _, _, _ => .neither) = _
    rw [read_usage_json]
    rfl
  · have hcollect : collect (failed deltas usage error) = .error error := by
      rw [collect, failed, List.append_assoc, collect_from_deltas]
      cases usage <;> rfl
    have htool : generation_tool to_string (fun _ => .ok (failed deltas usage error)) request =
        .error (engine_failure error) := by
      change ((collect (failed deltas usage error)).mapError engine_failure >>= _) = _
      rw [hcollect]
      rfl
    rw [Delivery.items, htool]
    rfl

end Mcp

namespace Grpc

theorem collect_from_deltas (text : String) (deltas : List String) (rest : EngineEventStream) :
    collect_from text none none (deltas.map (.ok ∘ .Delta) ++ rest) =
      collect_from (deltas.foldl (· ++ ·) text) none none rest := by
  induction deltas generalizing text with
  | nil => rfl
  | cons delta deltas ih => exact ih (text ++ delta)

theorem finish_reason_eq (reason : FinishReason) :
    finish_reason reason = Server.finish_reason reason := by
  cases reason <;> rfl

/-- The response of a unary call to a completed stream. -/
def response_of (id : UInt64) (deltas : List String) (usage : TokenUsage)
    (reason : FinishReason) : GenerationResponse where
  request_id := "grpc-" ++ toString id
  model := model_id
  text := String.join deltas
  usage := some (Grpc.usage usage)
  finish_reason := finish_reason reason

/-- The encoder takes the response of a unary call to this stream, if any. -/
def FitsResponse (codec : Codec) (id : UInt64) : Delivery → Prop
  | .completed deltas usage reason =>
    codec.response_len (response_of id deltas usage reason) ≤ MAX_GRPC_MESSAGE_BYTES
  | .failed .. => True

instance (codec : Codec) (id : UInt64) : ∀ delivery, Decidable (FitsResponse codec id delivery)
  | .completed .. => inferInstanceAs (Decidable (_ ≤ _))
  | .failed .. => .isTrue trivial

/-- The unary response has it, when its encoding is not too long. -/
theorem complete_outcome (codec : Codec) (id : UInt64) (generation : GenerationRequest)
    (delivery : Delivery) :
    read_response
        (codec.complete (.ok id) (.ok generation) (fun _ => .ok delivery.items) false) =
      if FitsResponse codec id delivery then delivery.outcome else .failure := by
  rcases delivery with ⟨deltas, usage, reason⟩ | ⟨deltas, usage, error⟩
  · have hcollect : collect (completed deltas usage reason) =
        .ok { text := String.join deltas, usage, finish := reason } := by
      rw [collect, completed, collect_from_deltas]
      rfl
    have hunary : unary (.ok id) (.ok generation)
        (fun _ => .ok (completed deltas usage reason)) false =
          .ok (response_of id deltas usage reason) := by
      simp [unary, admit_generation, hcollect, Except.mapError, bind, Except.bind, pure,
        Except.pure, response_of]
    have hread : read_response (.ok (response_of id deltas usage reason)) =
        (Delivery.completed deltas usage reason).outcome := by
      simp [read_response, response_of, Delivery.outcome, answer_of, Usage.counters, Grpc.usage,
        finish_reason_eq]
    rw [Delivery.items, Codec.complete, hunary]
    by_cases hfits : codec.response_len (response_of id deltas usage reason) ≤
        MAX_GRPC_MESSAGE_BYTES
    · rw [if_pos (show FitsResponse codec id (.completed deltas usage reason) from hfits), ← hread]
      exact congrArg read_response (if_neg (not_lt.2 hfits))
    · rw [if_neg (show ¬ FitsResponse codec id (.completed deltas usage reason) from hfits)]
      exact congrArg read_response (if_pos (not_le.1 hfits))
  · have hcollect : collect (failed deltas usage error) = .error (engine_status error) := by
      rw [collect, failed, List.append_assoc, collect_from_deltas]
      cases usage <;> rfl
    have hunary : unary (.ok id) (.ok generation) (fun _ => .ok (failed deltas usage error)) false =
        .error (engine_status error) := by
      simp [unary, admit_generation, hcollect, Except.mapError, bind, Except.bind, pure,
        Except.pure]
    have hfits : FitsResponse codec id (.failed deltas usage error) := trivial
    rw [Delivery.items, Codec.complete, hunary, if_pos hfits]
    rfl

end Grpc

/-! ## The event stream -/

namespace Http

variable (clock : Nat → UInt64) (id : String) (mode : ResponseMode)

/-- The event of a delta is read as that delta. -/
theorem read_events_delta (now : UInt64) (delta text : String) (events : List Event) :
    read_events mode text none none
        ({ data := .json (stream_chunk now id mode (some delta) none none) } :: events) =
      read_events mode (text ++ delta) none none events := by
  cases mode <;>
    simp [read_events, stream_chunk, stream_choice, first_choice, Value.get,
      Value.as_array, List.lookup,
      read_delta, read_str, Value.as_str]

theorem read_events_usage (now : UInt64) (usage : TokenUsage) (text : String)
    (events : List Event) :
    read_events mode text none none
        ({ data := .json (stream_chunk now id mode none none (some usage)) } :: events) =
      read_events mode text (some (usage.prompt_tokens.toNat, usage.completion_tokens.toNat,
        usage.total_tokens.toNat)) none events := by
  simp [read_events, stream_chunk, first_choice, Value.get, Value.as_array, List.lookup,
    read_usage_json]

theorem read_events_finish (now : UInt64) (reason : FinishReason) (text : String)
    (usage : Nat × Nat × Nat) (events : List Event) :
    read_events mode text (some usage) none
        ({ data := .json (stream_chunk now id mode none (some reason) none) } :: events) =
      read_events mode text (some usage) (some (finish_reason reason)) events := by
  cases mode <;>
    simp [read_events, stream_chunk, stream_choice, first_choice, Value.get,
      Value.as_array, List.lookup,
      read_delta, read_str, Value.as_str]

/-- The texts come one chunk each. -/
theorem unfold_deltas (deltas : List String) (text : String) (rest : EngineEventStream) (n : Nat) :
    read_events mode text none none (SseState.unfold clock n
        { events := deltas.map (.ok ∘ .Delta) ++ rest, request_id := id, mode }) =
      read_events mode (deltas.foldl (· ++ ·) text) none none
        (SseState.unfold clock (n + deltas.length) { events := rest, request_id := id, mode }) := by
  induction deltas generalizing text n with
  | nil => rfl
  | cons delta deltas ih =>
    rw [unfold_eq]
    simp only [SseState.next, List.map_cons, List.cons_append, Function.comp_apply,
      Bool.false_eq_true, if_false]
    rw [read_events_delta, ih, List.length_cons, List.foldl_cons]
    congr 2
    omega

/-- The streaming response has the outcome of the delivery. -/
theorem sse_response_outcome (delivery : Delivery) :
    read_events mode "" none none (sse_response clock delivery.items id mode) =
      delivery.outcome := by
  rcases delivery with ⟨deltas, usage, reason⟩ | ⟨deltas, usage, error⟩
  · rw [sse_response, Delivery.items, completed, unfold_deltas, unfold_eq]
    simp only [SseState.next, Bool.false_eq_true, if_false]
    rw [read_events_usage, unfold_eq]
    simp only [SseState.next, Bool.false_eq_true, if_false]
    rw [read_events_finish, unfold_eq]
    simp only [SseState.next, Bool.false_eq_true, if_false, if_true]
    rw [unfold_finished]
    rfl
  · rw [sse_response, Delivery.items, failed, List.append_assoc, unfold_deltas, unfold_eq]
    cases usage with
    | none =>
      simp only [SseState.next, Bool.false_eq_true, if_false, Option.map_none, Option.toList_none,
        List.nil_append]
      rw [unfold_finished]
      rfl
    | some usage =>
      simp only [SseState.next, Bool.false_eq_true, if_false, Option.map_some, Option.toList_some,
        List.cons_append, List.nil_append, Function.comp_apply]
      rw [read_events_usage, unfold_eq]
      simp only [SseState.next, Bool.false_eq_true, if_false]
      rw [unfold_finished]
      rfl

end Http

/-! ## WebSocket messages -/

namespace WebSocket

variable (from_str : String → Option WebSocketClientMessage)

theorem step_engine {session : Session} {request : ActiveWebSocketGeneration}
    (hrunning : session.running = true) (hactive : session.active = some request) :
    session.step from_str (.engine true) = session.handle_websocket_event request true := by
  simp [Session.step, hrunning, hactive]

/-- A session without a request is left as it is. -/
theorem run_idle {session : Session} (hactive : session.active = none) (n : Nat) :
    run (Session.step from_str) session (.replicate n (.engine true)) = session := by
  have hstep : session.step from_str (.engine true) = session := by
    simp [Session.step, hactive]
  induction n with
  | zero => rfl
  | succ n ih => rw [List.replicate_succ, run_cons, hstep, ih]

/-- An undisturbed generation is sent all its replies. -/
theorem run_engine {session : Session} {request : ActiveWebSocketGeneration}
    (hrunning : session.running = true) (hactive : session.active = some request) {n : Nat}
    (hn : request.events.length < n) :
    (run (Session.step from_str) session (.replicate n (.engine true))).log =
      session.log ++
        sent_by request.internal_id (replies request.id request.usage request.events) := by
  obtain ⟨internal_id, id, events, usage⟩ := request
  induction events generalizing session usage n with
  | nil =>
    obtain ⟨n, rfl⟩ := Nat.exists_eq_add_one_of_ne_zero (Nat.ne_of_gt hn)
    rw [List.replicate_succ, run_cons, step_engine from_str hrunning hactive,
      Session.handle_websocket_event, run_idle from_str rfl]
    rfl
  | cons event events ih =>
    obtain ⟨n, rfl⟩ := Nat.exists_eq_add_one_of_ne_zero (Nat.ne_of_gt (Nat.zero_lt_of_lt hn))
    have hlt : events.length < n := Nat.lt_of_succ_lt_succ hn
    rw [List.replicate_succ, run_cons, step_engine from_str hrunning hactive]
    rcases event with error | (delta | usage' | reason)
    · rw [Session.handle_websocket_event, run_idle from_str rfl]
      rfl
    · refine (ih (by exact hrunning) _ (by rfl) hlt).trans ?_
      simp [Session.handle_websocket_event, Session.send_websocket, replies, sent_by]
    · exact ih (by exact hrunning) _ (by rfl) hlt
    · cases usage <;> exact congrArg Session.log (run_idle from_str rfl n)

theorem read_messages_deltas (id : String) (deltas : List String) (text : String)
    (usage : Option TokenUsage) (rest : EngineEventStream) :
    read_messages text (replies id usage (deltas.map (.ok ∘ .Delta) ++ rest)) =
      read_messages (deltas.foldl (· ++ ·) text) (replies id usage rest) := by
  induction deltas generalizing text with
  | nil => rfl
  | cons delta deltas ih => exact ih (text ++ delta)

/-- The WebSocket messages have the outcome of the delivery. -/
theorem replies_outcome (id : String) (delivery : Delivery) :
    read_messages "" (replies id none delivery.items) = delivery.outcome := by
  rcases delivery with ⟨deltas, usage, reason⟩ | ⟨deltas, usage, error⟩
  · rw [Delivery.items, completed, read_messages_deltas]
    rfl
  · rw [Delivery.items, failed, List.append_assoc, read_messages_deltas]
    cases usage <;> rfl

end WebSocket

/-! ## The gRPC stream -/

namespace Grpc

/-- The outputs the client will get, if nothing stops the task. -/
def Streaming.pending (self : Streaming) : List Output :=
  (match self.task with
    | .sending output _ => [output]
    | _ => []) ++ self.events.map (output self.request_id)

/-- The response when nothing stops it: what it has put out and what is to
    come is all of the stream. -/
def Delivering (all : List Output) (self : Streaming) : Prop :=
  Forwarding self ∧ self.shutdown = false ∧ self.outputs ++ self.pending = all

/-- A list of outputs whose last, and only the last, is a terminal. -/
def Ends (all : List Output) : Prop :=
  ∃ front last, all = front ++ [last] ∧ Unfinished front ∧ terminal last = true

/-- A read takes from the channel alone. -/
theorem Streaming.read_frame (self : Streaming) :
    self.read.task = self.task ∧ self.read.events = self.events ∧
      self.read.request_id = self.request_id ∧ self.read.shutdown = self.shutdown := by
  rcases self.read_cases with h | ⟨-, ⟨_, _, -, h⟩ | ⟨_, _, -, h⟩ | ⟨-, -, h⟩⟩ <;>
    rw [h] <;> exact ⟨rfl, rfl, rfl, rfl⟩

/-- A task that has not sent a terminal finds an item at the next one. -/
theorem answers_of_delivering {all : List Output} (hall : Ends all) {self : Streaming}
    (h : Delivering all self) (act : Act) : Answers self act := by
  obtain ⟨hforwarding, hrun, heq⟩ := h
  unfold Answers
  split
  · rename_i ready ht
    refine ⟨hrun, fun _ => ?_⟩
    cases he : self.events with
    | cons => rfl
    | nil =>
      -- all that is to come has been sent, but no terminal among it
      unfold Forwarding at hforwarding
      rw [ht] at hforwarding
      obtain ⟨front, last, rfl, -, hlast⟩ := hall
      simp only [Streaming.pending, ht, he, List.map_nil, List.append_nil] at heq
      have hunf := hforwarding.2.2
      rw [heq] at hunf
      rw [hunf last (by simp)] at hlast
      cases hlast
  · trivial

/-- An act of an undisturbed call keeps the delivery in order. -/
theorem delivering_step {all : List Output} (hall : Ends all) {self : Streaming} {act : Act}
    (hact : act ≠ .disconnect) (hrun : act ≠ .shutdown) (h : Delivering all self) :
    Delivering all (step self act) := by
  have hanswers := answers_of_delivering hall h act
  refine ⟨forwarding_step hact hanswers h.1, ?_⟩
  obtain ⟨hforwarding, hshutdown, heq⟩ := h
  have hopen := hforwarding.1
  cases act with
  | shutdown => exact absurd rfl hrun
  | disconnect => exact absurd rfl hact
  | read =>
    obtain ⟨ht, he, hid, hs⟩ := self.read_frame
    refine ⟨hs.trans hshutdown, ?_⟩
    rw [← heq, step, Streaming.outputs_read, Streaming.pending, Streaming.pending, ht, he, hid]
  | poll ready =>
    rw [step, Streaming.poll]
    cases ht : self.task with
    | selecting =>
      simp only [Streaming.select, hshutdown, hopen, Bool.false_eq_true, if_false]
      split
      · cases he : self.events with
        | nil =>
          unfold Answers at hanswers
          rw [ht, he] at hanswers
          exact absurd (hanswers.2 ‹_›) (by simp)
        | cons event events =>
          dsimp only
          refine ⟨rfl, ?_⟩
          rw [← heq]
          simp [Streaming.outputs, Streaming.pending, ht, he]
      · exact ⟨hshutdown, heq⟩
    | sending output last =>
      simp only [Streaming.send, hopen, Bool.false_eq_true, if_false]
      split
      · refine ⟨hshutdown, ?_⟩
        rw [← heq]
        cases last <;> simp [Streaming.outputs, Streaming.pending, ht]
      · exact ⟨hshutdown, heq⟩
    | returned => exact ⟨hshutdown, heq⟩

/-- A run of the response that nothing stops. -/
def Undisturbed (acts : List Act) : Prop := .disconnect ∉ acts ∧ .shutdown ∉ acts

/-- Once the client has seen the end, it has all outputs. -/
theorem outputs_of_ended {all : List Output} (hall : Ends all) {self : Streaming}
    (h : Delivering all self) (hended : self.ended.isSome) :
    self.outputs = all ∧ self.channel = [] := by
  obtain ⟨hforwarding, -, heq⟩ := h
  unfold Forwarding at hforwarding
  cases ht : self.task with
  | selecting => simp [ht] at hforwarding; simp [hforwarding] at hended
  | sending => simp [ht] at hforwarding; simp [hforwarding] at hended
  | returned =>
    rw [ht] at hforwarding
    obtain ⟨-, hchannel, before, last, hout, -, hlast⟩ := hforwarding
    obtain ⟨front, final, rfl, hfront, -⟩ := hall
    have hpending : self.pending = [] := by
      rw [hout, List.append_assoc] at heq
      exact eq_nil_of_terminal hfront hlast heq.symm
    rw [hpending, List.append_nil] at heq
    exact ⟨heq, hchannel hended⟩

theorem unfinished_deltas (request_id : String) (deltas : List String) :
    Unfinished ((deltas.map (.ok ∘ .Delta) : List Item).map (output request_id)) := by
  intro o ho
  simp only [List.map_map, List.mem_map] at ho
  obtain ⟨delta, -, rfl⟩ := ho
  rfl

/-- A delivery ends with its last item. -/
theorem ends_items (request_id : String) (delivery : Delivery) :
    Ends (delivery.items.map (output request_id)) := by
  rcases delivery with ⟨deltas, usage, reason⟩ | ⟨deltas, usage, error⟩
  · refine ⟨(deltas.map (.ok ∘ .Delta) ++ [.ok (.Usage usage)] : List Item).map (output request_id),
      output request_id (.ok (.Finished reason)), by simp [Delivery.items, completed], ?_, rfl⟩
    rw [List.map_append]
    exact unfinished_append.2 ⟨unfinished_deltas request_id deltas, by simp [Unfinished]; rfl⟩
  · refine ⟨(deltas.map (.ok ∘ .Delta) ++ (usage.map (.ok ∘ .Usage)).toList : List Item).map
      (output request_id), output request_id (.error error),
        by simp [Delivery.items, failed], ?_, rfl⟩
    rw [List.map_append]
    refine unfinished_append.2 ⟨unfinished_deltas request_id deltas, ?_⟩
    cases usage with
    | none => simp [Unfinished]
    | some usage => simp [Unfinished]; rfl

theorem read_received_deltas (request_id : String) (deltas : List String) (text : String)
    (rest : List GenerationEvent) :
    read_received text none (deltas.map (fun delta => ⟨request_id, some (.Delta delta)⟩) ++ rest) =
      read_received (deltas.foldl (· ++ ·) text) none rest := by
  induction deltas generalizing text with
  | nil => rfl
  | cons delta deltas ih => exact ih (text ++ delta)

/-- Nothing is delivered yet. -/
theorem delivering_init (request_id : String) (events : EngineEventStream) :
    Delivering (events.map (output request_id)) { request_id, events } :=
  ⟨forwarding_init request_id events, rfl, rfl⟩

/-- The messages of a completed stream. -/
def messages (request_id : String) (deltas : List String) (usage : TokenUsage)
    (reason : FinishReason) : List GenerationEvent :=
  deltas.map (fun delta => ⟨request_id, some (.Delta delta)⟩) ++
    [⟨request_id, some (.Usage (Grpc.usage usage))⟩,
      ⟨request_id, some (.FinishReason (finish_reason reason))⟩]

theorem map_output_completed (request_id : String) (deltas : List String) (usage : TokenUsage)
    (reason : FinishReason) :
    (completed deltas usage reason).map (output request_id) =
      (messages request_id deltas usage reason).map .ok := by
  simp [completed, messages, output, Except.map, Except.mapError, grpc_event, Function.comp_def]

/-- The encoder takes all messages of the response stream to these items. -/
def FitsEvents (codec : Codec) (request_id : String) (items : EngineEventStream) : Prop :=
  ∀ out ∈ items.map (output request_id), codec.FitsOutput out

instance (codec : Codec) (request_id : String) (items : EngineEventStream) :
    Decidable (FitsEvents codec request_id items) :=
  inferInstanceAs (Decidable (∀ _ ∈ _, _))

/-- An undisturbed response behind the encoder: nothing was refused so far, or an
    event of the stream was, which has ended the response. -/
def Encoded (codec : Codec) (all : List Output) (self : Streaming) : Prop :=
  (Delivering all self ∧ ∀ event ∈ self.received, codec.Fits event) ∨
    (self.closed = true ∧ (∃ status, self.ended = some (.error status)) ∧
      ∃ event, .ok event ∈ all ∧ ¬ codec.Fits event)

theorem Streaming.received_read (self : Streaming) :
    self.read.received = self.received ∨
      ∃ event channel, self.channel = .ok event :: channel ∧
        self.read.received = self.received ++ [event] := by
  rcases self.read_cases with h | ⟨-, ⟨event, channel, hc, h⟩ | ⟨_, _, -, h⟩ | ⟨-, -, h⟩⟩
  · exact .inl (by rw [h])
  · exact .inr ⟨event, channel, hc, by rw [h]⟩
  · exact .inl (by rw [h])
  · exact .inl (by rw [h])

theorem Streaming.poll_frame (self : Streaming) (ready : Bool) :
    (self.poll ready).closed = self.closed ∧ (self.poll ready).ended = self.ended ∧
      (self.poll ready).received = self.received := by
  unfold Streaming.poll Streaming.select Streaming.send
  repeat' split
  all_goals exact ⟨rfl, rfl, rfl⟩

/-- The encoder passes the message on, or refuses it. -/
theorem Codec.read_cases (codec : Codec) (self : Streaming) :
    (codec.read self = self.read ∧ ∀ event channel, self.closed = false → self.ended = none →
        self.channel = .ok event :: channel → codec.Fits event) ∨
      ∃ event channel, self.closed = false ∧ self.channel = .ok event :: channel ∧
        ¬ codec.Fits event ∧ (codec.read self).closed = true ∧
        ∃ status, (codec.read self).ended = some (.error status) := by
  unfold Codec.read
  split
  · rename_i hover
    refine .inl ⟨?_, fun event channel hclosed hended => ?_⟩
    · rw [Streaming.read, if_pos hover]
    · simp [hclosed, hended] at hover
  · rename_i hopen
    split
    · rename_i event channel hchannel
      split
      · rename_i hfits
        refine .inl ⟨rfl, fun event' channel' _ _ heq => ?_⟩
        rw [hchannel] at heq
        cases heq
        exact hfits
      · rename_i hrefused
        exact .inr ⟨event, channel, by simp_all, hchannel, hrefused, rfl, _, rfl⟩
    · rename_i hother
      exact .inl ⟨rfl, fun event channel _ _ heq => absurd heq (hother event channel)⟩

/-- An act of an undisturbed call keeps the encoded delivery in order. -/
theorem encoded_step {codec : Codec} {all : List Output} (hall : Ends all) {self : Streaming}
    {act : Act} (hact : act ≠ .disconnect) (hrun : act ≠ .shutdown)
    (h : Encoded codec all self) : Encoded codec all (codec.step self act) := by
  rcases h with ⟨hdelivering, hfit⟩ | ⟨hclosed, ⟨status, hended⟩, hrefused⟩
  · have hnext := delivering_step hall hact hrun hdelivering
    cases act with
    | shutdown => exact absurd rfl hrun
    | disconnect => exact absurd rfl hact
    | poll ready =>
      have hstep : codec.step self (.poll ready) = self.poll ready := rfl
      rw [hstep]
      refine .inl ⟨hnext, ?_⟩
      rw [(self.poll_frame ready).2.2]
      exact hfit
    | read =>
      rw [Codec.step]
      rcases codec.read_cases self with ⟨hread, hfits⟩ |
        ⟨event, channel, -, hchannel, hover, hclosed, hended⟩
      · rw [hread]
        refine .inl ⟨hnext, fun event hevent => ?_⟩
        rcases self.read_cases with hr | ⟨hnone, -⟩
        · exact hfit event (by rwa [hr] at hevent)
        rcases self.received_read with hr | ⟨next, channel, hchannel, hr⟩
        · exact hfit event (by rwa [hr] at hevent)
        · rw [hr, List.mem_append, List.mem_singleton] at hevent
          rcases hevent with hevent | rfl
          · exact hfit event hevent
          · exact hfits event channel hdelivering.1.1 hnone hchannel
      -- The message does not fit: the stream ends there.
      · refine .inr ⟨hclosed, hended, event, ?_, hover⟩
        obtain ⟨-, -, rfl⟩ := hdelivering
        simp [Streaming.outputs, hchannel]
  · refine .inr ?_
    cases act with
    | shutdown => exact absurd rfl hrun
    | disconnect => exact absurd rfl hact
    | poll ready =>
      obtain ⟨hc, he, -⟩ := self.poll_frame ready
      exact ⟨hc.trans hclosed, ⟨status, he.trans hended⟩, hrefused⟩
    | read =>
      have hread : codec.read self = self := by rw [Codec.read, if_pos (by simp [hclosed])]
      rw [Codec.step, hread]
      exact ⟨hclosed, ⟨status, hended⟩, hrefused⟩

/-- So does an undisturbed run. -/
theorem encoded_run {codec : Codec} {all : List Output} (hall : Ends all) {self : Streaming}
    {acts : List Act} (hacts : Undisturbed acts) (h : Encoded codec all self) :
    Encoded codec all (run codec.step self acts) := by
  induction acts generalizing self with
  | nil => exact h
  | cons act acts ih =>
    obtain ⟨hd, hs⟩ := hacts
    rw [List.mem_cons, not_or] at hd hs
    exact ih ⟨hd.2, hs.2⟩ (encoded_step hall (Ne.symm hd.1) (Ne.symm hs.1) h)

/-- A response that the client has read to its end, without a refusal. -/
theorem outcome_of_outputs {request_id : String} {delivery : Delivery} {self : Streaming}
    (hended : self.ended.isSome) (hchannel : self.channel = [])
    (hout : self.outputs = delivery.items.map (output request_id)) :
    self.outcome = delivery.outcome := by
  rw [Streaming.outputs, hchannel, List.append_nil] at hout
  unfold Streaming.outcome
  rcases delivery with ⟨deltas, usage, reason⟩ | ⟨deltas, usage, error⟩
  · -- no output is an error, so the response ended with OK
    rw [Delivery.items, map_output_completed] at hout
    rcases he : self.ended with _ | (status | _)
    · simp [he] at hended
    · rw [he] at hout
      have hmem : Except.error status ∈ (messages request_id deltas usage reason).map .ok := by
        simp [← hout]
      simp at hmem
    · rw [he, List.append_nil] at hout
      have hreceived : self.received = messages request_id deltas usage reason :=
        List.map_injective_iff.2 (fun _ _ => Except.ok.inj) hout
      simp only [hreceived, messages, read_received_deltas, finish_reason_eq]
      rfl
  · -- the last output is an error, so the response ended with it
    rcases he : self.ended with _ | (status | _)
    · simp [he] at hended
    · rfl
    · rw [he, List.append_nil] at hout
      have hmem : output request_id (.error error) ∈ self.received.map .ok := by
        simp [hout, Delivery.items, failed]
      simp [output, Except.map, Except.mapError] at hmem

/-- An undisturbed response that the client has seen the end of. -/
theorem outcome_of_ended (codec : Codec) (request_id : String) (delivery : Delivery)
    {acts : List Act} (hacts : Undisturbed acts)
    (hended : (run codec.step { request_id, events := delivery.items } acts).ended.isSome) :
    (run codec.step { request_id, events := delivery.items } acts).outcome =
      if FitsEvents codec request_id delivery.items then delivery.outcome else .failure := by
  have hall := ends_items request_id delivery
  have hinit : Encoded codec (delivery.items.map (output request_id))
      { request_id, events := delivery.items } :=
    .inl ⟨delivering_init request_id delivery.items, by simp⟩
  have h := encoded_run hall hacts hinit
  generalize run codec.step { request_id, events := delivery.items } acts = self at hended h ⊢
  rcases h with ⟨hdelivering, hfit⟩ | ⟨-, ⟨status, hstatus⟩, event, hevent, hover⟩
  · obtain ⟨hout, hchannel⟩ := outputs_of_ended hall hdelivering hended
    have hfits : FitsEvents codec request_id delivery.items := by
      intro out hmem
      rw [← hout, Streaming.outputs, hchannel, List.append_nil, List.mem_append] at hmem
      rcases hmem with hmem | hmem
      · obtain ⟨event, hevent, rfl⟩ := List.mem_map.1 hmem
        exact hfit event hevent
      · split at hmem
        · rw [List.mem_singleton.1 hmem]
          trivial
        · simp at hmem
    rw [if_pos hfits]
    exact outcome_of_outputs hended hchannel hout
  · rw [if_neg fun hfits => hover (hfits _ hevent), Streaming.outcome, hstatus]

/-- A run in which the client sees the end: the task is polled twice for each
    item, to take it and to send it, and the client reads it. -/
theorem exists_ended (codec : Codec) (self : Streaming) (htask : self.task = .selecting)
    (hchannel : self.channel = []) (hshutdown : self.shutdown = false)
    (hclosed : self.closed = false) (hnone : self.ended = none) :
    ∃ acts, Undisturbed acts ∧ (run codec.step self acts).ended.isSome := by
  generalize hevents : self.events = events
  induction events generalizing self with
  | nil =>
    refine ⟨[.poll true, .read], by simp [Undisturbed], ?_⟩
    simp [Codec.step, Grpc.step, Codec.read, Streaming.poll, htask, Streaming.select, hshutdown,
      hclosed, hevents, Streaming.read, hnone, hchannel]
  | cons event events ih =>
    -- Two polls take an event and put it into the channel; then it is read.
    have hsent : run codec.step self [.poll true, .poll true] =
        { self with events, channel := [output self.request_id event],
                    task := if terminal (output self.request_id event) then .returned
                      else .selecting } := by
      simp [Codec.step, Grpc.step, Streaming.poll, htask, Streaming.select, hshutdown, hclosed,
        hevents, Streaming.send, hchannel, STREAM_BUFFER]
    cases ho : output self.request_id event with
    | error status =>
      refine ⟨[.poll true, .poll true] ++ [.read], by simp [Undisturbed], ?_⟩
      rw [run_append, hsent, ho]
      simp [Codec.step, Codec.read, Streaming.read, hclosed, hnone]
    | ok message =>
      by_cases hfits : codec.Fits message
      · cases hlast : terminal (.ok message) with
        | true =>
          refine ⟨[.poll true, .poll true] ++ [.read, .read], by simp [Undisturbed], ?_⟩
          rw [run_append, hsent, ho, hlast]
          simp [Codec.step, Codec.read, hfits, Streaming.read, hclosed, hnone]
        | false =>
          obtain ⟨acts, hacts, hended⟩ := ih
            { self with events, channel := [], task := .selecting,
                        received := self.received ++ [message] } rfl rfl hshutdown hclosed hnone rfl
          refine ⟨[.poll true, .poll true] ++ (.read :: acts), by simpa [Undisturbed] using hacts,
            ?_⟩
          rw [run_append, hsent, ho, hlast, run_cons]
          simpa [Codec.step, Codec.read, hfits, Streaming.read, hclosed, hnone, hshutdown]
            using hended
      -- A message over the limit ends the stream.
      · refine ⟨[.poll true, .poll true] ++ [.read], by simp [Undisturbed], ?_⟩
        rw [run_append, hsent, ho]
        simp [Codec.step, Codec.read, hfits, hclosed, hnone]

end Grpc

/-! ## Agreement -/

/-- Every consumer leaves its client with the outcome the stream calls for; a gRPC
    call does so when the encoder of the server takes its messages, and else
    leaves it with an error. -/
structure Agreement (codec : Grpc.Codec) (delivery : Delivery) : Prop where
  http : ∀ now request_id mode,
    (Http.collect_response now delivery.items request_id mode).outcome mode = delivery.outcome
  sse : ∀ clock request_id mode,
    Http.read_events mode "" none none (Http.sse_response clock delivery.items request_id mode) =
      delivery.outcome
  mcp : ∀ to_string request,
    Mcp.read_result (Mcp.generation_tool to_string (fun _ => .ok delivery.items) request) =
      delivery.outcome
  grpc_unary : ∀ id generation,
    Grpc.read_response
        (codec.complete (.ok id) (.ok generation) (fun _ => .ok delivery.items) false) =
      if Grpc.FitsResponse codec id delivery then delivery.outcome else .failure
  /-- A session that has just accepted the generation, left to its events. -/
  websocket : ∀ from_str (session : WebSocket.Session) internal_id id,
    session.running = true →
    session.active = some { internal_id, id, events := delivery.items, usage := none } →
    ∀ n, delivery.items.length < n → ∃ messages,
      (run (WebSocket.Session.step from_str) session (.replicate n (.engine true))).log =
        session.log ++ WebSocket.sent_by internal_id messages ∧
      WebSocket.read_messages "" messages = delivery.outcome
  /-- Any undisturbed run in which the client sees the end, of which there is one. -/
  grpc_stream : ∀ request_id, (∃ acts, Grpc.Undisturbed acts ∧
      (run codec.step { request_id, events := delivery.items } acts).ended.isSome) ∧
    ∀ acts, Grpc.Undisturbed acts →
      (run codec.step { request_id, events := delivery.items } acts).ended.isSome →
        (run codec.step { request_id, events := delivery.items } acts).outcome =
          if Grpc.FitsEvents codec request_id delivery.items then delivery.outcome else .failure

/-- All transports deliver the same answer: success with the text, the usage
    and the finish reason of a completed stream, and an error for a failed one. -/
theorem transports_agree (codec : Grpc.Codec) (delivery : Delivery) :
    Agreement codec delivery where
  http now request_id mode := Http.collect_response_outcome now request_id mode delivery
  sse clock request_id mode := Http.sse_response_outcome clock request_id mode delivery
  mcp to_string request := Mcp.generation_tool_outcome to_string request delivery
  grpc_unary id generation := Grpc.complete_outcome codec id generation delivery
  websocket from_str _ _ id hrunning hactive _ hn :=
    ⟨_, WebSocket.run_engine from_str hrunning hactive hn, WebSocket.replies_outcome id delivery⟩
  grpc_stream request_id :=
    ⟨Grpc.exists_ended codec _ rfl rfl rfl rfl rfl,
      fun _ hacts hended => Grpc.outcome_of_ended codec request_id delivery hacts hended⟩

/-! ## An answer over the limit -/

theorem utf8ByteSize_replicate (n : Nat) :
    (String.ofList (List.replicate n 'a')).utf8ByteSize = n := by
  rw [String.utf8ByteSize_ofList]
  induction n with
  | zero => rfl
  | succ n ih =>
    rw [List.replicate_succ, String.utf8Len_cons, ih]
    rfl

/-- A delta of six hundred thousand bytes, which is within the limit. -/
def long_delta : String := String.ofList (List.replicate 600000 'a')

theorem utf8ByteSize_long_delta : long_delta.utf8ByteSize = 600000 :=
  utf8ByteSize_replicate 600000

/-- Two such deltas: the JSON response and the tool result are the answer, the
    unary gRPC response is over the limit. -/
theorem unary_too_large :
    let delivery : Delivery := .completed [long_delta, long_delta] ⟨1, 2, 3⟩ .Stop
    let generation : GenerationRequest := ⟨"", .Completion "", 2, 0, 1, none, []⟩
    (Http.collect_response 0 delivery.items "1" .Completion).outcome .Completion =
        delivery.outcome ∧
      Mcp.read_result (Mcp.generation_tool (fun _ => "") (fun _ => .ok delivery.items) generation) =
        delivery.outcome ∧
      delivery.outcome ≠ .failure ∧
      Grpc.read_response (Grpc.prost.complete (.ok 1) (.ok generation)
        (fun _ => .ok delivery.items) false) = .failure := by
  intro delivery generation
  refine ⟨Http.collect_response_outcome .., Mcp.generation_tool_outcome .., nofun, ?_⟩
  rw [Grpc.complete_outcome, if_neg]
  intro hfits
  have htext := Grpc.utf8ByteSize_le_response_len
    (Grpc.response_of 1 [long_delta, long_delta] ⟨1, 2, 3⟩ .Stop)
  have hjoin : (String.join [long_delta, long_delta]).utf8ByteSize = 1200000 := by
    simp [String.join, utf8ByteSize_long_delta]
  have hle := hjoin.symm.trans_le (htext.trans hfits)
  exact absurd hle (by decide)

end Inferences.Server
