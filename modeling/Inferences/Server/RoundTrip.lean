import Inferences.Engine.Chunks
import Inferences.Server.Http

/-!
# The public stream read by the engine

The streamed HTTP response has the shape of the private runtime's stream, so
the engine's decoder can read it: `consume_sse_sse_response` says that the two
are inverse. A completed generation, encoded by `sse_response` and decoded by
`consume_sse`, is the same events; a failed one is the same deltas, then
`RuntimeProtocol`.

The text of an event is the framing of `axum`: an `event:` line for its name,
a `data:` line and a blank line. Between events, the stream is kept alive by
comments.
-/

namespace Inferences.Server.Http

open Json Engine

/-! ## The text of a stream -/

/-- The bytes `event: ` and `: keepalive`. -/
def EVENT : Bytes := [101, 118, 101, 110, 116, 58, 32]
def KEEPALIVE : Bytes := [58, 32, 107, 101, 101, 112, 97, 108, 105, 118, 101]

section
variable (to_string : Value → Bytes)

/-- The text of a data line. -/
def Data.text : Data → Bytes
  | .json value => to_string value
  | .done => DONE

/-- The lines of an event. -/
def Event.lines (event : Event) : List Bytes :=
  (event.event.map fun name => EVENT ++ name.toUTF8.data.toList).toList ++
    [DATA ++ [32] ++ event.data.text to_string, []]

/-- The lines of some events, each after a number of comments. -/
def stream_lines (events : List (Nat × Event)) : List Bytes :=
  events.flatMap fun e => (List.replicate e.1 [KEEPALIVE, []]).flatten ++ e.2.lines to_string

/-- The bytes of some events, each after a number of comments. -/
def stream_bytes (events : List (Nat × Event)) : Bytes :=
  Lines.unlines LF (stream_lines to_string events)

end

/-- The JSON text of a value: one line, which the parser reads back. -/
structure Serializes (to_string : Value → Bytes) (from_slice : Bytes → Option Value)
    (value : Value) : Prop where
  round_trip : from_slice (to_string value) = some value
  one_line : LF ∉ to_string value ∧ CR ∉ to_string value

/-- The mode a request is answered in. -/
def mode_of : GenerationInput → ResponseMode
  | .Completion _ => .Completion
  | .Chat _ => .Chat

/-! ## The events of a stream -/

/-- The chunks of some deltas, the `n`-th of the stream being the first. -/
def delta_values (clock : Nat → UInt64) (request_id : String) (mode : ResponseMode)
    (n : Nat) (deltas : List String) : List Value :=
  (deltas.zipIdx n).map fun d =>
    stream_chunk (clock d.2) request_id mode (some d.1) none none

/-- The events of some chunks. -/
def json_events (values : List Value) : List Event :=
  values.map fun value => { data := .json value }

variable {clock : Nat → UInt64} {request_id : String} {mode : ResponseMode}

theorem unfold_deltas_append (deltas : List String) (rest : EngineEventStream) (n : Nat) :
    SseState.unfold clock n
        { events := deltas.map (.ok ∘ .Delta) ++ rest, request_id, mode } =
      json_events (delta_values clock request_id mode n deltas) ++
        SseState.unfold clock (n + deltas.length) { events := rest, request_id, mode } := by
  induction deltas generalizing n with
  | nil => rfl
  | cons delta deltas ih =>
    rw [unfold_eq]
    simp only [SseState.next, List.map_cons, List.cons_append, Function.comp_apply,
      Bool.false_eq_true, if_false]
    rw [ih, List.length_cons, Nat.add_assoc, Nat.add_comm 1]
    simp [json_events, delta_values, List.zipIdx_cons]

/-- The values of a completed generation. -/
def completed_values (clock : Nat → UInt64) (request_id : String) (mode : ResponseMode)
    (deltas : List String) (usage : TokenUsage) (reason : FinishReason) : List Value :=
  delta_values clock request_id mode 0 deltas ++
    [stream_chunk (clock deltas.length) request_id mode none none (some usage),
      stream_chunk (clock (deltas.length + 1)) request_id mode none (some reason) none]

theorem sse_response_completed (deltas : List String) (usage : TokenUsage) (reason : FinishReason) :
    sse_response clock (completed deltas usage reason) request_id mode =
      json_events (completed_values clock request_id mode deltas usage reason) ++
        [{ data := .done }] := by
  rw [sse_response, completed, unfold_deltas_append, Nat.zero_add, unfold_eq]
  simp only [SseState.next, Bool.false_eq_true, if_false]
  rw [unfold_eq]
  simp only [SseState.next, Bool.false_eq_true, if_false]
  rw [unfold_eq]
  simp only [SseState.next, Bool.false_eq_true, if_false, if_true]
  rw [unfold_finished]
  simp [json_events, completed_values]

/-- The values of a failed generation, before its error. -/
def failed_values (clock : Nat → UInt64) (request_id : String) (mode : ResponseMode)
    (deltas : List String) (usage : Option TokenUsage) : List Value :=
  delta_values clock request_id mode 0 deltas ++
    (usage.map fun usage =>
      stream_chunk (clock deltas.length) request_id mode none none (some usage)).toList

theorem sse_response_failed (deltas : List String) (usage : Option TokenUsage) (e : EngineError) :
    sse_response clock (failed deltas usage e) request_id mode =
      json_events (failed_values clock request_id mode deltas usage) ++
        [{ event := some "error",
           data := .json (error_body (engine_error e).2.1 (engine_error e).2.2) }] := by
  rw [sse_response, failed, List.append_assoc, unfold_deltas_append, Nat.zero_add]
  cases usage with
  | none =>
    rw [Option.map_none, Option.toList_none, List.nil_append, unfold_eq]
    simp only [SseState.next, Bool.false_eq_true, if_false]
    rw [unfold_finished]
    simp [json_events, failed_values]
  | some usage =>
    rw [Option.map_some, Option.toList_some, List.singleton_append, unfold_eq]
    simp only [SseState.next, Bool.false_eq_true, if_false, Function.comp_apply]
    rw [unfold_eq]
    simp only [SseState.next, Bool.false_eq_true, if_false]
    rw [unfold_finished]
    simp [json_events, failed_values]

/-! ## The lines of a stream -/

theorem payload_data {data : Bytes} (h : CR ∉ data) :
    payload (DATA ++ [32] ++ data) = some data := by
  have hlast : (DATA ++ [32] ++ data).getLast? ≠ some CR := by
    cases hd : data.getLast? with
    | none =>
      rw [List.getLast?_eq_none_iff.1 hd]
      decide
    | some b =>
      rw [List.getLast?_append, hd, Option.some_or]
      rintro ⟨⟩
      exact h (List.mem_of_getLast? hd)
  have hdrop : (DATA ++ [32] ++ data).drop DATA.length = 32 :: data := rfl
  have hstart : DATA.isPrefixOf (DATA ++ [32] ++ data) = true := rfl
  rw [payload, pop_last, if_neg hlast]
  simp only [hstart, if_true, hdrop]
  rfl

/-- An event that a stream can hold: its data is one line, and it has no name
    or is an `error`. -/
structure Plain (to_string : Value → Bytes) (event : Event) : Prop where
  one_line : LF ∉ event.data.text to_string ∧ CR ∉ event.data.text to_string
  name : event.event = none ∨ event.event = some "error"

variable {to_string : Value → Bytes} {from_slice : Bytes → Option Value}

theorem Plain.lines {event : Event} (h : Plain to_string event) :
    (∀ line ∈ event.lines to_string, LF ∉ line) ∧
      (event.lines to_string).filterMap payload = [event.data.text to_string] := by
  have hdata : LF ∉ DATA ++ [32] ++ event.data.text to_string := by
    rw [List.mem_append, not_or]
    exact ⟨by decide, h.one_line.1⟩
  have hblank : payload [] = none := by decide
  rcases h.name with hn | hn
  · simp only [Event.lines, hn, Option.map_none, Option.toList_none, List.nil_append]
    refine ⟨?_, ?_⟩
    · simpa using hdata
    · rw [List.filterMap_cons_some (payload_data h.one_line.2), List.filterMap_cons_none hblank]
      rfl
  · have herror : LF ∉ EVENT ++ "error".toUTF8.data.toList ∧
        payload (EVENT ++ "error".toUTF8.data.toList) = none := by decide +kernel
    simp only [Event.lines, hn, Option.map_some, Option.toList_some, List.singleton_append]
    refine ⟨?_, ?_⟩
    · intro line hl
      rcases List.mem_cons.1 hl with rfl | hl
      · exact herror.1
      · rcases List.mem_pair.1 hl with rfl | rfl
        · exact hdata
        · exact List.not_mem_nil
    · rw [List.filterMap_cons_none herror.2, List.filterMap_cons_some (payload_data h.one_line.2),
        List.filterMap_cons_none hblank]
      rfl

theorem keepalive_lines (n : Nat) :
    (∀ line ∈ (List.replicate n [KEEPALIVE, []]).flatten, LF ∉ line) ∧
      (List.replicate n [KEEPALIVE, []]).flatten.filterMap payload = [] := by
  induction n with
  | zero => simp
  | succ n ih =>
    have hkeep : LF ∉ KEEPALIVE ∧ payload KEEPALIVE = none ∧ payload [] = none := by decide
    rw [List.replicate_succ, List.flatten_cons]
    refine ⟨fun line hl => ?_, ?_⟩
    · rcases List.mem_append.1 hl with hl | hl
      · rcases List.mem_pair.1 hl with rfl | rfl
        · exact hkeep.1
        · exact List.not_mem_nil
      · exact ih.1 line hl
    · rw [List.filterMap_append, ih.2, List.filterMap_cons_none hkeep.2.1,
        List.filterMap_cons_none hkeep.2.2]
      rfl

theorem stream_lines_append (a b : List (Nat × Event)) :
    stream_lines to_string (a ++ b) = stream_lines to_string a ++ stream_lines to_string b :=
  List.flatMap_append

/-- The lines of a stream carry the data of its events. -/
theorem stream_lines_spec {events : List (Nat × Event)} (h : ∀ e ∈ events, Plain to_string e.2) :
    (∀ line ∈ stream_lines to_string events, LF ∉ line) ∧
      (stream_lines to_string events).filterMap payload =
        events.map (·.2.data.text to_string) := by
  induction events with
  | nil => exact ⟨by simp [stream_lines], rfl⟩
  | cons e events ih =>
    obtain ⟨hrest, hpayloads⟩ := ih fun e he => h e (List.mem_cons_of_mem _ he)
    obtain ⟨hkeep, hnone⟩ := keepalive_lines e.1
    obtain ⟨hevent, hdata⟩ := (h e List.mem_cons_self).lines
    have hcons : stream_lines to_string (e :: events) =
        ((List.replicate e.1 [KEEPALIVE, []]).flatten ++ e.2.lines to_string) ++
          stream_lines to_string events := List.flatMap_cons
    rw [hcons]
    refine ⟨fun line hl => ?_, ?_⟩
    · rcases List.mem_append.1 hl with hl | hl
      · exact (List.mem_append.1 hl).elim (hkeep line) (hevent line)
      · exact hrest line hl
    · rw [List.filterMap_append, List.filterMap_append, hnone, hdata, hpayloads]
      rfl

/-- Events whose data are the texts of these values carry them. -/
theorem carries_stream {events : List (Nat × Event)} {values : List Value}
    (hplain : ∀ e ∈ events, Plain to_string e.2)
    (hvalues : events.map (·.2.data) = values.map .json)
    (hserde : ∀ value ∈ values, Serializes to_string from_slice value)
    (hdone : from_slice DONE = none) :
    Carries from_slice (stream_lines to_string events) values := by
  have htexts : events.map (·.2.data.text to_string) = values.map to_string := by
    have := congrArg (List.map (Data.text to_string)) hvalues
    rwa [List.map_map, List.map_map] at this
  have hparsed : (values.map to_string).map from_slice = values.map some := by
    rw [List.map_map]
    exact List.map_congr_left fun value hv => (hserde value hv).round_trip
  refine ⟨?_, ?_⟩
  · rw [(stream_lines_spec hplain).2, htexts, hparsed]
  · rw [(stream_lines_spec hplain).2, htexts]
    intro hmem
    obtain ⟨value, hv, he⟩ := List.mem_map.1 hmem
    have := (hserde value hv).round_trip
    rw [he, hdone] at this
    cases this

/-! ## Reading the values of a stream -/

theorem gather_append (request : NormalizedRequest) (answer : Answer) (a b : List Value) :
    gather request answer (a ++ b) =
      if (gather request answer a).2 then gather request (gather request answer a).1 b
      else ((gather request answer a).1, false) := by
  induction a generalizing answer with
  | nil => rfl
  | cons value a ih =>
    rw [List.cons_append, gather, gather]
    cases answer.extend request value with
    | none => rfl
    | some answer' => exact ih answer'

variable {request : NormalizedRequest}

theorem parse_usage_chunk (now : UInt64) (delta : Option String) (finish : Option FinishReason) :
    parse_usage (stream_chunk now request_id mode delta finish none) = .ok none := rfl

theorem parse_finish_reason_chunk (now : UInt64) (delta : Option String)
    {finish : Option FinishReason} (h : finish ≠ some .Cancelled) :
    parse_finish_reason (stream_chunk now request_id mode delta finish none) = .ok finish := by
  rcases finish with _ | _ | _ | _
  · cases mode <;> rfl
  · cases mode <;> rfl
  · cases mode <;> rfl
  · exact absurd rfl h

/-- A chunk without a delta has an empty text, or none. -/
theorem delta_chunk (now : UInt64) (delta : Option String) (finish : Option FinishReason) :
    request.delta (stream_chunk now request_id (mode_of request.input) delta finish none) =
      .ok (match request.input with
        | .Completion _ => some (delta.getD "")
        | .Chat _ => delta) := by
  unfold NormalizedRequest.delta
  cases request.input with
  | Completion prompt => rfl
  | Chat messages => cases delta <;> rfl

theorem extend_delta {answer : Answer} (now : UInt64) {delta : String} (hne : delta ≠ "")
    (hmax : answer.deltas.length + 1 ≤ request.max_tokens.toNat) :
    answer.extend request
        (stream_chunk now request_id (mode_of request.input) (some delta) none none) =
      some { answer with deltas := answer.deltas ++ [delta] } := by
  have hdelta : request.delta
      (stream_chunk now request_id (mode_of request.input) (some delta) none none) =
        .ok (some delta) := by
    rw [delta_chunk]
    cases request.input <;> rfl
  rw [Answer.extend, parse_usage_chunk, parse_finish_reason_chunk now _ (by simp), hdelta]
  simp [hne]
  exact hmax

theorem extend_usage {answer : Answer} (now : UInt64) {usage : TokenUsage}
    (haccepted : parse_usage (.object [("usage", usage_json usage)]) = .ok (some usage))
    (hmax : answer.deltas.length ≤ request.max_tokens.toNat)
    (htokens : usage.completion_tokens ≤ request.max_tokens) :
    answer.extend request
        (stream_chunk now request_id (mode_of request.input) none none (some usage)) =
      some { answer with usage := some usage } := by
  have husage : parse_usage
      (stream_chunk now request_id (mode_of request.input) none none (some usage)) =
        .ok (some usage) := haccepted
  have hfinish : parse_finish_reason
      (stream_chunk now request_id (mode_of request.input) none none (some usage)) =
        .ok none := rfl
  have hdelta : request.delta
      (stream_chunk now request_id (mode_of request.input) none none (some usage)) =
        .ok none := rfl
  rw [Answer.extend, husage, hfinish, hdelta]
  simp [hmax, htokens]

theorem extend_finish {answer : Answer} (now : UInt64) {reason : FinishReason}
    (hreason : reason ≠ .Cancelled) (hmax : answer.deltas.length ≤ request.max_tokens.toNat) :
    answer.extend request
        (stream_chunk now request_id (mode_of request.input) none (some reason) none) =
      some { answer with finish := some reason } := by
  rw [Answer.extend, parse_usage_chunk, parse_finish_reason_chunk now _ (by simpa using hreason),
    delta_chunk]
  cases request.input <;> simp [hmax]

/-- Reading the chunks of some deltas. -/
theorem gather_deltas {deltas : List String} (hne : ∀ delta ∈ deltas, delta ≠ "")
    {answer : Answer} (hmax : answer.deltas.length + deltas.length ≤ request.max_tokens.toNat)
    (n : Nat) :
    gather request answer (delta_values clock request_id (mode_of request.input) n deltas) =
      ({ answer with deltas := answer.deltas ++ deltas }, true) := by
  induction deltas generalizing answer n with
  | nil =>
    rw [List.append_nil]
    rfl
  | cons delta deltas ih =>
    rw [List.length_cons] at hmax
    have hmax' : (answer.deltas ++ [delta]).length + deltas.length ≤ request.max_tokens.toNat := by
      rw [List.length_append, List.length_singleton]
      omega
    have hrest := @ih (fun d hd => hne d (List.mem_cons_of_mem _ hd))
      { answer with deltas := answer.deltas ++ [delta] } hmax' (n + 1)
    rw [delta_values, List.zipIdx_cons, List.map_cons, gather,
      extend_delta _ (hne delta List.mem_cons_self) (by omega)]
    rw [List.append_assoc] at hrest
    exact hrest

/-- Reading the values of a completed generation. -/
theorem gather_completed {deltas : List String} {usage : TokenUsage} {reason : FinishReason}
    (hne : ∀ delta ∈ deltas, delta ≠ "")
    (haccepted : parse_usage (.object [("usage", usage_json usage)]) = .ok (some usage))
    (hreason : reason ≠ .Cancelled) (hmax : deltas.length ≤ request.max_tokens.toNat)
    (htokens : usage.completion_tokens ≤ request.max_tokens) :
    gather request {}
        (completed_values clock request_id (mode_of request.input) deltas usage reason) =
      ({ deltas, usage := some usage, finish := some reason }, true) := by
  rw [completed_values, gather_append, gather_deltas hne (by simpa using hmax)]
  simp only [List.nil_append, if_true, gather]
  rw [extend_usage _ haccepted hmax htokens]
  simp only
  rw [extend_finish _ hreason hmax]

/-- Reading the values of a failed generation, and its error. -/
theorem gather_failed {deltas : List String} {usage : Option TokenUsage} (error : String × String)
    (hne : ∀ delta ∈ deltas, delta ≠ "")
    (haccepted : ∀ u ∈ usage, parse_usage (.object [("usage", usage_json u)]) = .ok (some u))
    (hmax : deltas.length ≤ request.max_tokens.toNat)
    (htokens : ∀ u ∈ usage, u.completion_tokens ≤ request.max_tokens) :
    (gather request {} (failed_values clock request_id (mode_of request.input) deltas usage ++
      [error_body error.1 error.2])).1.deltas = deltas := by
  have herror (answer : Answer) (h : answer.deltas.length ≤ request.max_tokens.toNat) :
      answer.extend request (error_body error.1 error.2) = some answer := by
    have hdelta : request.delta (error_body error.1 error.2) = .ok none := rfl
    have husage : parse_usage (error_body error.1 error.2) = .ok none := rfl
    have hfinish : parse_finish_reason (error_body error.1 error.2) = .ok none := rfl
    rw [Answer.extend, husage, hfinish, hdelta]
    simp [h]
  rw [failed_values, List.append_assoc, gather_append, gather_deltas hne (by simpa using hmax)]
  simp only [List.nil_append, if_true]
  cases usage with
  | none =>
    simp only [Option.map_none, Option.toList_none, List.nil_append, gather]
    rw [herror _ hmax]
  | some usage =>
    simp only [Option.map_some, Option.toList_some, List.singleton_append, gather]
    rw [extend_usage _ (haccepted usage rfl) hmax (htokens usage rfl)]
    simp only
    rw [herror _ hmax]

/-! ## The round trip -/

/-- A streamed response as it is received: the text of its events, with any
    number of comments before each, in chunks that respect the bound on the
    buffer. Its values are read back from their texts. -/
structure Received (to_string : Value → Bytes) (from_slice : Bytes → Option Value)
    (response : List Event) (chunks : List Bytes) : Prop where
  bytes : ∃ events : List (Nat × Event), events.map (·.2) = response ∧
    chunks.flatten = stream_bytes to_string events
  fits : FitsBuffer [] chunks
  serializes : ∀ event ∈ response, ∀ value, event.data = .json value →
    Serializes to_string from_slice value

theorem mem_json_events {event : Event} {values : List Value} :
    event ∈ json_events values ↔ ∃ value ∈ values, event = { data := .json value } := by
  simp [json_events, eq_comm]

theorem plain_json {value : Value} {name : Option String}
    (h : Serializes to_string from_slice value)
    (hname : name = none ∨ name = some "error") : Plain to_string ⟨name, .json value⟩ :=
  ⟨h.one_line, hname⟩

/-- The events of some values, received before another event. -/
theorem split_received {events : List (Nat × Event)} {values : List Value} {last : Event}
    (h : events.map (·.2) = json_events values ++ [last]) :
    ∃ (init : List (Nat × Event)) (n : Nat), events = init ++ [(n, last)] ∧
      init.map (·.2) = json_events values := by
  obtain ⟨init, rest, rfl, hinit, hrest⟩ := List.map_eq_append_iff.1 h
  obtain ⟨⟨n, event⟩, rfl, rfl⟩ := List.map_eq_singleton_iff.1 hrest
  exact ⟨init, n, rfl, hinit⟩

theorem data_of_events {init : List (Nat × Event)} {values : List Value}
    (h : init.map (·.2) = json_events values) : init.map (·.2.data) = values.map .json := by
  have := congrArg (List.map Event.data) h
  rwa [List.map_map, json_events, List.map_map] at this

/-- A received stream that ends with `[DONE]`, the blank line after it in the
    same chunk. -/
theorem chunked_of_received {values : List Value} {chunks : List Bytes}
    (h : Received to_string from_slice (json_events values ++ [{ data := .done }]) chunks)
    (hdone : from_slice DONE = none)
    (hlast : same_chunk (chunks.flatten.length - 1) chunks = [LF]) :
    Chunked from_slice chunks values := by
  obtain ⟨events, hevents, hchunks⟩ := h.bytes
  obtain ⟨init, n, rfl, hinit⟩ := split_received hevents
  have hserde : ∀ value ∈ values, Serializes to_string from_slice value := fun value hv =>
    h.serializes ⟨none, .json value⟩
      (List.mem_append_left _ (mem_json_events.2 ⟨value, hv, rfl⟩)) value rfl
  have hplain : ∀ e ∈ init, Plain to_string e.2 := by
    intro e he
    obtain ⟨value, hv, heq⟩ := mem_json_events.1 (hinit ▸ List.mem_map_of_mem he)
    rw [heq]
    exact plain_json (hserde value hv) (.inl rfl)
  obtain ⟨hlines, -⟩ := stream_lines_spec hplain
  obtain ⟨hkeep, hnone⟩ := keepalive_lines n
  have hcarries := carries_stream hplain (data_of_events hinit) hserde hdone
  -- The lines before that of `[DONE]`.
  let lines := stream_lines to_string init ++ (List.replicate n [KEEPALIVE, []]).flatten
  have hall : ∀ line ∈ lines, LF ∉ line := fun line hl =>
    (List.mem_append.1 hl).elim (hlines line) (hkeep line)
  have hdone_line : LF ∉ DATA ++ [32] ++ DONE ∧ payload (DATA ++ [32] ++ DONE) = some DONE := by
    decide
  obtain ⟨hcomplete, hpending⟩ := Lines.split_unlines hall (DATA ++ [32] ++ DONE)
  rw [Lines.complete_of_notMem hdone_line.1, List.append_nil] at hcomplete
  rw [Lines.pending_of_notMem hdone_line.1] at hpending
  have hbytes : chunks.flatten =
      (Lines.unlines LF lines ++ (DATA ++ [32] ++ DONE) ++ [LF]) ++ [LF] := by
    have hstream : stream_lines to_string (init ++ [(n, { data := .done })]) =
        lines ++ [DATA ++ [32] ++ DONE, []] := by
      rw [stream_lines_append, List.append_assoc]
      simp [stream_lines, Event.lines, Data.text]
    rw [hchunks, stream_bytes, hstream, Lines.unlines_append]
    simp [Lines.unlines]
  have htail : same_chunk (Lines.unlines LF lines ++ (DATA ++ [32] ++ DONE) ++ [LF]).length chunks =
      [LF] := by
    rw [hbytes, List.length_append, List.length_singleton, Nat.add_sub_cancel] at hlast
    exact hlast
  refine ⟨h.fits, Lines.unlines LF lines ++ (DATA ++ [32] ++ DONE), [LF], hbytes,
    by rw [hpending, hdone_line.2], ?_, by rw [htail]; decide, by rw [htail]; decide⟩
  rw [hcomplete]
  have hpayloads : lines.filterMap payload = (stream_lines to_string init).filterMap payload := by
    rw [List.filterMap_append, hnone, List.append_nil]
  exact ⟨by rw [hpayloads]; exact hcarries.parsed, by rw [hpayloads]; exact hcarries.undone⟩

/-- A received stream that ends with an error. -/
theorem carries_of_received {values : List Value} {error : Value} {chunks : List Bytes}
    (h : Received to_string from_slice
      (json_events values ++ [{ event := some "error", data := .json error }]) chunks)
    (hdone : from_slice DONE = none) :
    Carries from_slice (Lines.complete LF chunks.flatten) (values ++ [error]) := by
  obtain ⟨events, hevents, hchunks⟩ := h.bytes
  have hserde : ∀ value ∈ values ++ [error], Serializes to_string from_slice value := by
    intro value hv
    rcases List.mem_append.1 hv with hv | hv
    · exact h.serializes ⟨none, .json value⟩
        (List.mem_append_left _ (mem_json_events.2 ⟨value, hv, rfl⟩)) value rfl
    · obtain rfl := List.mem_singleton.1 hv
      exact h.serializes ⟨some "error", .json value⟩ (by simp) value rfl
  have hplain : ∀ e ∈ events, Plain to_string e.2 := by
    intro e he
    rcases List.mem_append.1 (hevents ▸ List.mem_map_of_mem he) with hm | hm
    · obtain ⟨value, hv, heq⟩ := mem_json_events.1 hm
      rw [heq]
      exact plain_json (hserde value (List.mem_append_left _ hv)) (.inl rfl)
    · rw [List.mem_singleton.1 hm]
      exact plain_json (hserde error (by simp)) (.inr rfl)
  have hdata : events.map (·.2.data) = (values ++ [error]).map .json := by
    have := congrArg (List.map Event.data) hevents
    rw [List.map_map] at this
    rw [List.map_append]
    simpa [json_events, Function.comp_def] using this
  have hcomplete := (Lines.split_unlines (stream_lines_spec hplain).1 []).1
  rw [List.append_nil, Lines.complete_nil, List.append_nil] at hcomplete
  rw [hchunks, stream_bytes, hcomplete]
  exact carries_stream hplain hdata hserde hdone

/-- The public stream of a generation, read by the engine: a completed one gives
    the same events, and a failed one the same deltas and `RuntimeProtocol`. -/
theorem consume_sse_sse_response (request : NormalizedRequest) (clock : Nat → UInt64)
    (request_id : String) (hdone : from_slice DONE = none) (deltas : List String)
    (hne : ∀ delta ∈ deltas, delta ≠ "") (hmax : deltas.length ≤ request.max_tokens.toNat)
    (chunks : List Bytes) :
    (∀ usage reason, parse_usage (.object [("usage", usage_json usage)]) = .ok (some usage) →
      usage.completion_tokens ≤ request.max_tokens → reason ≠ .Cancelled →
      Received to_string from_slice (sse_response clock (completed deltas usage reason) request_id
        (mode_of request.input)) chunks →
      same_chunk (chunks.flatten.length - 1) chunks = [LF] →
      consume_sse from_slice request (chunks.map .ok) =
        (deltas.map .Delta ++ [.Usage usage, .Finished reason], .ok ())) ∧
    ∀ (usage : Option TokenUsage) e,
      (∀ u ∈ usage, parse_usage (.object [("usage", usage_json u)]) = .ok (some u) ∧
        u.completion_tokens ≤ request.max_tokens) →
      Received to_string from_slice (sse_response clock (failed deltas usage e) request_id
        (mode_of request.input)) chunks →
      consume_sse from_slice request (chunks.map .ok) =
        (deltas.map .Delta, .error .RuntimeProtocol) := by
  refine ⟨fun usage reason haccepted htokens hreason hreceived hlast => ?_,
    fun usage e husage hreceived => ?_⟩
  · rw [sse_response_completed] at hreceived
    rw [consume_sse_of_chunked (chunked_of_received hreceived hdone hlast),
      gather_completed hne haccepted hreason hmax htokens]
    rfl
  · rw [sse_response_failed] at hreceived
    rw [consume_sse_of_undone_values hreceived.fits (carries_of_received hreceived hdone),
      gather_failed (engine_error e).2 hne (fun u hu => (husage u hu).1) hmax
        fun u hu => (husage u hu).2]

/-- The chunks of the stream of a completion of one token, `Hi`. -/
def hi_chunk : Option String → Option FinishReason → Option TokenUsage → Value :=
  stream_chunk 0 "r" .Completion

/-- The text of a chunk, by its choices and what follows the identity of the model. -/
def hi_text (choices after : String) : Bytes :=
  "\x7b\"choices\":[".toUTF8.data.toList ++ choices.toUTF8.data.toList ++
    "],\"created\":0,\"id\":\"r\",\"model\":\"qwen2.5-0.5b-instruct-q4-k-m\",".toUTF8.data.toList ++
    "\"object\":\"text_completion\"".toUTF8.data.toList ++ after.toUTF8.data.toList ++ [125]

/-- The chunks of a response with one word. -/
def hi_delta : Bytes :=
  hi_text "\x7b\"finish_reason\":null,\"index\":0,\"logprobs\":null,\"text\":\"Hi\"\x7d" ""

def hi_usage : Bytes :=
  hi_text "" ",\"usage\":\x7b\"completion_tokens\":1,\"prompt_tokens\":1,\"total_tokens\":2\x7d"

def hi_finish : Bytes :=
  hi_text "\x7b\"finish_reason\":\"stop\",\"index\":0,\"logprobs\":null,\"text\":\"\"\x7d" ""

/-- The JSON printer and parser, on the three chunks. -/
def hi_to_string (value : Value) : Bytes :=
  if (value.get "usage").isSome then hi_usage
  else if parse_finish_reason value matches .ok (some _) then hi_finish
  else hi_delta

def hi_from_slice (data : Bytes) : Option Value :=
  if data = hi_delta then some (hi_chunk (some "Hi") none none)
  else if data = hi_usage then some (hi_chunk none none (some ⟨1, 1, 2⟩))
  else if data = hi_finish then some (hi_chunk none (some .Stop) none)
  else none

/-- The stream with a comment after its first event, in one chunk. -/
def hi_chunks : List Bytes :=
  [Lines.unlines LF [DATA ++ [32] ++ hi_delta, [], KEEPALIVE, [], DATA ++ [32] ++ hi_usage, [],
    DATA ++ [32] ++ hi_finish, [], DATA ++ [32] ++ DONE, []]]

/-- The request they answer. -/
def hi_request : NormalizedRequest := ⟨.Completion "", 1, 0, 1, none, []⟩

theorem hi_received :
    Received hi_to_string hi_from_slice
      (sse_response (fun _ => 0) (completed ["Hi"] ⟨1, 1, 2⟩ .Stop)
      "r" .Completion) hi_chunks := by
  have hserde : ∀ value ∈ completed_values (fun _ => 0) "r" .Completion ["Hi"] ⟨1, 1, 2⟩ .Stop,
      Serializes hi_to_string hi_from_slice value := by
    intro value hv
    have hdistinct : hi_usage ≠ hi_delta ∧ hi_finish ≠ hi_delta ∧ hi_finish ≠ hi_usage := by
      decide +kernel
    have hlines : (LF ∉ hi_delta ∧ CR ∉ hi_delta) ∧ (LF ∉ hi_usage ∧ CR ∉ hi_usage) ∧
        (LF ∉ hi_finish ∧ CR ∉ hi_finish) := by decide +kernel
    change value ∈ [hi_chunk (some "Hi") none none, hi_chunk none none (some ⟨1, 1, 2⟩),
      hi_chunk none (some .Stop) none] at hv
    simp only [List.mem_cons, List.not_mem_nil, or_false] at hv
    rcases hv with rfl | rfl | rfl
    · exact ⟨if_pos rfl, hlines.1⟩
    · exact ⟨(if_neg hdistinct.1).trans (if_pos rfl), hlines.2.1⟩
    · exact ⟨(if_neg hdistinct.2.1).trans ((if_neg hdistinct.2.2).trans (if_pos rfl)), hlines.2.2⟩
  rw [sse_response_completed]
  refine ⟨⟨[(0, ⟨none, .json (hi_chunk (some "Hi") none none)⟩),
    (1, ⟨none, .json (hi_chunk none none (some ⟨1, 1, 2⟩))⟩),
    (0, ⟨none, .json (hi_chunk none (some .Stop) none)⟩), (0, ⟨none, .done⟩)], rfl, ?_⟩,
    by decide +kernel, ?_⟩
  · exact List.append_nil _
  · intro event he value hvalue
    rcases List.mem_append.1 he with he | he
    · obtain ⟨v, hv, rfl⟩ := mem_json_events.1 he
      cases hvalue
      exact hserde value hv
    · rw [List.mem_singleton.1 he] at hvalue
      cases hvalue

theorem consume_sse_sse_response_hi :
    consume_sse hi_from_slice hi_request (hi_chunks.map .ok) =
      ([.Delta "Hi", .Usage ⟨1, 1, 2⟩, .Finished .Stop], .ok ()) :=
  (consume_sse_sse_response hi_request (fun _ => 0) "r" (by decide +kernel) ["Hi"]
    (by decide) (by decide) hi_chunks).1 ⟨1, 1, 2⟩ .Stop rfl (by decide) (by decide) hi_received
    (by decide +kernel)

end Inferences.Server.Http
