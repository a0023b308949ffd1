import Inferences.Domain

/-!
# Normalized requests

An admitted request, as the engine keeps it while it generates, and what it
reads in one JSON chunk of the private runtime: the token usage
(`parse_usage`), the finish reason (`parse_finish_reason`) and the text of the
first choice (`NormalizedRequest.delta`). Each of the three is absent, present
or malformed.
-/

namespace Inferences.Engine

open Json

/-- A request admitted by the engine. -/
structure NormalizedRequest where
  input : GenerationInput
  max_tokens : UInt32
  temperature : Float32
  top_p : Float32
  seed : Option UInt32
  stop : List String

/-- The member a reader asked for, when it is a string. -/
def required_str (value : Value) : Except EngineError (Option String) :=
  match value.as_str with
  | some text => .ok (some text)
  | none => .error .RuntimeProtocol

/-- The first element of the `choices` of a chunk. -/
def first_choice (value : Value) : Option Value :=
  ((value.get "choices").bind Value.as_array).bind List.head?

/-- The text a chunk adds to the answer. -/
def NormalizedRequest.delta (self : NormalizedRequest) (value : Value) :
    Except EngineError (Option String) :=
  match first_choice value with
  | none => .ok none
  | some choice =>
    let text := match self.input with
      | .Completion _ => choice.get "text"
      | .Chat _ => (choice.get "delta").bind (·.get "content")
    match text with
    | none => .ok none
    | some text => required_str text

/-- `u32::try_from` on a `u64`. -/
def u32_try_from (n : UInt64) : Option UInt32 :=
  if n.toNat < UInt32.size then some n.toUInt32 else none

/-- `u32::saturating_add`. -/
def saturating_add (a b : UInt32) : UInt32 :=
  if a.toNat + b.toNat < UInt32.size then a + b else .ofNat (UInt32.size - 1)

/-- One counter of a usage object. -/
def read_counter (usage : Value) (name : String) : Except EngineError UInt32 :=
  match ((usage.get name).bind Value.as_u64).bind u32_try_from with
  | some n => .ok n
  | none => .error .RuntimeProtocol

/-- The token usage a chunk reports. -/
def parse_usage (value : Value) : Except EngineError (Option TokenUsage) :=
  match value.get "usage" with
  | none => .ok none
  | some usage =>
    if usage.is_null then .ok none
    else do
      let prompt_tokens ← read_counter usage "prompt_tokens"
      let completion_tokens ← read_counter usage "completion_tokens"
      let total_tokens ← read_counter usage "total_tokens"
      if saturating_add prompt_tokens completion_tokens ≠ total_tokens then
        .error .RuntimeProtocol
      else
        .ok (some { prompt_tokens, completion_tokens, total_tokens })

/-- The finish reason a chunk reports. -/
def parse_finish_reason (value : Value) : Except EngineError (Option FinishReason) :=
  match (first_choice value).bind (·.get "finish_reason") with
  | none => .ok none
  | some reason =>
    if reason.is_null then .ok none
    else match reason.as_str with
      | some "stop" => .ok (some .Stop)
      | some "length" => .ok (some .Length)
      | _ => .error .RuntimeProtocol

/-- A reader of chunks fails with `RuntimeProtocol` only. -/
theorem required_str_error {value : Value} {e : EngineError} (h : required_str value = .error e) :
    e = .RuntimeProtocol := by
  cases hv : value.as_str with
  | some text => simp [required_str, hv] at h
  | none => simpa [required_str, hv] using h.symm

theorem NormalizedRequest.delta_error {request : NormalizedRequest} {value : Value}
    {e : EngineError} (h : request.delta value = .error e) : e = .RuntimeProtocol := by
  unfold NormalizedRequest.delta at h
  cases hc : first_choice value with
  | none => simp [hc] at h
  | some choice =>
    simp only [hc] at h
    split at h
    · cases h
    · exact required_str_error h

theorem read_counter_error {usage : Value} {name : String} {e : EngineError}
    (h : read_counter usage name = .error e) : e = .RuntimeProtocol := by
  unfold read_counter at h
  split at h
  · cases h
  · simpa using h.symm

/-- A sequence of readers fails where one of them does. -/
theorem bind_error {ε α β : Type} {x : Except ε α} {f : α → Except ε β} {e : ε}
    (h : (x >>= f) = .error e) : x = .error e ∨ ∃ a, x = .ok a ∧ f a = .error e := by
  cases x with
  | error e' => exact .inl (by simpa [bind, Except.bind] using h)
  | ok a => exact .inr ⟨a, rfl, h⟩

theorem bind_ok {ε α β : Type} {x : Except ε α} {f : α → Except ε β} {b : β}
    (h : (x >>= f) = .ok b) : ∃ a, x = .ok a ∧ f a = .ok b := by
  cases x with
  | error e => cases h
  | ok a => exact ⟨a, rfl, h⟩

theorem parse_usage_error {value : Value} {e : EngineError} (h : parse_usage value = .error e) :
    e = .RuntimeProtocol := by
  unfold parse_usage at h
  split at h
  · cases h
  · split at h
    · cases h
    · rcases bind_error h with h | ⟨prompt, -, h⟩
      · exact read_counter_error h
      rcases bind_error h with h | ⟨completion, -, h⟩
      · exact read_counter_error h
      rcases bind_error h with h | ⟨total, -, h⟩
      · exact read_counter_error h
      split at h
      · simpa using h.symm
      · cases h

theorem parse_finish_reason_error {value : Value} {e : EngineError}
    (h : parse_finish_reason value = .error e) : e = .RuntimeProtocol := by
  unfold parse_finish_reason at h
  split at h
  · cases h
  · split at h
    · cases h
    · split at h
      · cases h
      · cases h
      · simpa using h.symm

/-- The private runtime never reports a cancellation. -/
theorem parse_finish_reason_ne_cancelled {value : Value} {reason : FinishReason}
    (h : parse_finish_reason value = .ok (some reason)) : reason ≠ .Cancelled := by
  unfold parse_finish_reason at h
  split at h
  · cases h
  · split at h
    · cases h
    · split at h
      · cases h; decide
      · cases h; decide
      · cases h

end Inferences.Engine
