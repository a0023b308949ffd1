import Inferences.Engine.System

/-!
# Which requests are normalized

`normalize_request` checks a request before it is admitted. The prompt is
counted at one token a byte, that of a conversation with the template around
its messages (`conservative_prompt_tokens`), so that what is admitted fits the
context of the model (`context_accounting`).
-/

namespace Inferences.Engine

/-- The tokens that the model attends to. -/
def MODEL_CONTEXT_TOKENS : Nat := 4096

/-- What the chat template puts around the role and the content of a message. -/
def CHATML_MESSAGE_PREFIX : String := "<|im_start|>"
def CHATML_MESSAGE_SUFFIX : String := "<|im_end|>\n"
/-- What the chat template puts after the last message. -/
def CHATML_ASSISTANT_PREFIX : String := "<|im_start|>assistant\n"

/-- The name of a role in the template. -/
def role_name : ChatRole → String
  | .System => "system"
  | .User => "user"
  | .Assistant => "assistant"

/-- The error for a chat that is too long. -/
def outside_bound : EngineError :=
  .InvalidRequest "chat messages are outside the supported bound"

/-- A bound on the tokens of the prompt: one for each byte of it. -/
def conservative_prompt_tokens : GenerationInput → Except EngineError Nat
  | .Completion prompt => .ok prompt.utf8ByteSize
  | .Chat messages =>
    messages.foldlM
      (fun total message =>
        ((((usize_checked_add total CHATML_MESSAGE_PREFIX.utf8ByteSize).bind
          (usize_checked_add · (role_name message.role).utf8ByteSize)).bind
          (usize_checked_add · 1)).bind
          (usize_checked_add · message.content.utf8ByteSize)).bind
          (usize_checked_add · CHATML_MESSAGE_SUFFIX.utf8ByteSize)
        |>.elim (.error outside_bound) .ok)
      CHATML_ASSISTANT_PREFIX.utf8ByteSize

/-- The bytes of the prompt, or of the contents of the messages. -/
def input_bytes (config : EngineConfig) : GenerationInput → Except EngineError Nat
  | .Completion prompt =>
    if prompt.isEmpty then .error (.InvalidRequest "prompt must not be empty")
    else .ok prompt.utf8ByteSize
  | .Chat messages =>
    if messages.isEmpty || messages.length > config.max_messages
        || messages.any (·.content.isEmpty) then
      .error outside_bound
    else
      messages.foldlM
        (fun total message => (usize_checked_add total message.content.utf8ByteSize).elim
          (.error outside_bound) .ok) 0

/-- The request as it is posted, when it is within the bounds. -/
def normalize_request (request : GenerationRequest) (config : EngineConfig) :
    Except EngineError NormalizedRequest := do
  if request.model ≠ CURATED_MODEL_ID then
    throw (.InvalidRequest "the requested model is not available")
  if request.max_tokens = 0 || request.max_tokens > config.max_output_tokens then
    throw (.InvalidRequest "max_tokens is outside the supported bound")
  if !request.temperature.isFinite || !(0.0 ≤ request.temperature && request.temperature ≤ 2.0) then
    throw (.InvalidRequest "temperature must be between 0 and 2")
  if !(request.top_p.isFinite && 0.0 < request.top_p && request.top_p ≤ 1.0) then
    throw (.InvalidRequest "top_p must be greater than 0 and at most 1")
  if request.stop.length > 8
      || request.stop.any (fun value => value.isEmpty || value.utf8ByteSize > 128) then
    throw (.InvalidRequest "stop sequences exceed the supported bound")
  let input_bytes ← input_bytes config request.input
  if input_bytes > config.max_prompt_bytes then
    throw (.InvalidRequest "prompt exceeds the supported bound")
  let conservative_prompt_tokens ← conservative_prompt_tokens request.input
  if (usize_checked_add conservative_prompt_tokens request.max_tokens.toNat).all
      (· > MODEL_CONTEXT_TOKENS) then
    throw (.InvalidRequest "prompt and requested output exceed the model context")
  return {
    input := request.input
    max_tokens := request.max_tokens
    temperature := request.temperature
    top_p := if request.temperature == 0.0 then 1.0 else request.top_p
    seed := request.seed
    stop := request.stop }

/-! ## What is acceptable -/

/-- One message in the template. -/
def chatml_message (message : ChatMessage) : String :=
  "<|im_start|>" ++ role_name message.role ++ "\n" ++ message.content ++ "<|im_end|>" ++ "\n"

/-- What the model is given: the prompt as it is, or the conversation in the
    template, up to the turn of the assistant. -/
def rendered : GenerationInput → String
  | .Completion prompt => prompt
  | .Chat messages => String.join (messages.map chatml_message) ++ "<|im_start|>assistant\n"

/-- The input is not empty anywhere, and within the bounds of the policy. -/
def InputWithin (config : EngineConfig) : GenerationInput → Prop
  | .Completion prompt => prompt ≠ "" ∧ prompt.utf8ByteSize ≤ config.max_prompt_bytes
  | .Chat messages =>
    messages ≠ [] ∧ messages.length ≤ config.max_messages ∧
      (∀ message ∈ messages, message.content ≠ "") ∧
      (messages.map (·.content.utf8ByteSize)).sum ≤ config.max_prompt_bytes

/-- A request within all bounds. -/
structure Acceptable (config : EngineConfig) (request : GenerationRequest) : Prop where
  model : request.model = CURATED_MODEL_ID
  max_tokens : 0 < request.max_tokens ∧ request.max_tokens ≤ config.max_output_tokens
  temperature : request.temperature.isFinite = true ∧ 0.0 ≤ request.temperature ∧
    request.temperature ≤ 2.0
  top_p : request.top_p.isFinite = true ∧ 0.0 < request.top_p ∧ request.top_p ≤ 1.0
  stop : request.stop.length ≤ 8 ∧ ∀ value ∈ request.stop, value ≠ "" ∧ value.utf8ByteSize ≤ 128
  input : InputWithin config request.input
  context : (rendered request.input).utf8ByteSize + request.max_tokens.toNat ≤ MODEL_CONTEXT_TOKENS

/-! ## Checked sums -/

theorem usize_checked_add_eq_some {a b c : Nat} :
    usize_checked_add a b = some c ↔ c = a + b ∧ a + b < 2 ^ 64 := by
  rw [usize_checked_add]
  split
  · exact ⟨fun h => ⟨(Option.some.inj h).symm, ‹_›⟩, fun h => by rw [h.1]⟩
  · exact ⟨fun h => (by cases h), fun h => absurd h.2 ‹_›⟩

theorem usize_checked_add_eq_none {a b : Nat} :
    usize_checked_add a b = none ↔ 2 ^ 64 ≤ a + b := by
  rw [usize_checked_add]
  split
  · exact ⟨fun h => (by cases h), fun h => absurd ‹_› (not_lt.2 h)⟩
  · exact ⟨fun _ => not_lt.1 ‹_›, fun _ => rfl⟩

/-- Two checked sums are one. -/
theorem usize_checked_add_bind (a b c : Nat) :
    (usize_checked_add a b).bind (usize_checked_add · c) = usize_checked_add a (b + c) := by
  refine Option.ext fun n => ?_
  simp only [Option.bind_eq_some_iff, usize_checked_add_eq_some]
  constructor
  · rintro ⟨_, ⟨rfl, -⟩, rfl, h⟩
    omega
  · rintro ⟨rfl, h⟩
    exact ⟨a + b, ⟨rfl, by omega⟩, by omega, by omega⟩

/-- A fold of checked sums is exact, or fails. -/
theorem foldlM_checked {α : Type} (f : α → Nat) (e : EngineError) (as : List α) (n : Nat)
    (hn : n < 2 ^ 64) {m : Nat} :
    as.foldlM (fun total a => (usize_checked_add total (f a)).elim (.error e) Except.ok) n = .ok m ↔
      m = n + (as.map f).sum ∧ m < 2 ^ 64 := by
  induction as generalizing n with
  | nil =>
    simp only [List.foldlM_nil, List.map_nil, List.sum_nil, Nat.add_zero]
    exact ⟨fun h => by cases h; exact ⟨rfl, hn⟩, fun h => by rw [h.1]; rfl⟩
  | cons a as ih =>
    rw [List.foldlM_cons, List.map_cons, List.sum_cons, ← Nat.add_assoc]
    cases hadd : usize_checked_add n (f a) with
    | none =>
      -- the sum of all is no smaller, and does not fit either
      have hlarge := usize_checked_add_eq_none.1 hadd
      refine ⟨fun h => (by cases h), fun h => ?_⟩
      omega
    | some total =>
      obtain ⟨rfl, htotal⟩ := usize_checked_add_eq_some.1 hadd
      exact ih _ htotal

theorem foldlM_checked_error {α : Type} {f : α → Nat} {e e' : EngineError} {as : List α} {n : Nat}
    (h : as.foldlM (fun total a => (usize_checked_add total (f a)).elim (.error e) Except.ok) n =
      .error e') : e' = e := by
  induction as generalizing n with
  | nil => cases h
  | cons a as ih =>
    rw [List.foldlM_cons] at h
    cases hadd : usize_checked_add n (f a) with
    | none =>
      rw [hadd] at h
      exact (Except.error.inj h).symm
    | some total =>
      rw [hadd] at h
      exact ih h

/-- The bytes that the template puts around a message, and those of the message. -/
def message_tokens (message : ChatMessage) : Nat :=
  12 + ((role_name message.role).utf8ByteSize + (1 + (message.content.utf8ByteSize + 11)))

theorem conservative_chat (messages : List ChatMessage) :
    conservative_prompt_tokens (.Chat messages) = messages.foldlM
      (fun total message => (usize_checked_add total (message_tokens message)).elim
        (.error outside_bound) Except.ok) 22 := by
  have hprefix : CHATML_MESSAGE_PREFIX.utf8ByteSize = 12 := rfl
  have hsuffix : CHATML_MESSAGE_SUFFIX.utf8ByteSize = 11 := rfl
  have hassistant : CHATML_ASSISTANT_PREFIX.utf8ByteSize = 22 := rfl
  have hsum : ∀ message, 12 + (role_name message.role).utf8ByteSize + 1 +
      message.content.utf8ByteSize + 11 = message_tokens message := by
    intro message
    rw [message_tokens]
    omega
  simp only [conservative_prompt_tokens, hprefix, hsuffix, hassistant, usize_checked_add_bind, hsum]

theorem utf8ByteSize_foldl (strings : List String) (s : String) :
    (strings.foldl (· ++ ·) s).utf8ByteSize =
      s.utf8ByteSize + (strings.map String.utf8ByteSize).sum := by
  induction strings generalizing s with
  | nil => simp
  | cons first strings ih =>
    rw [List.foldl_cons, ih, String.utf8ByteSize_append, List.map_cons, List.sum_cons]
    omega

theorem utf8ByteSize_chatml_message (message : ChatMessage) :
    (chatml_message message).utf8ByteSize = message_tokens message := by
  have hstart : "<|im_start|>".utf8ByteSize = 12 := rfl
  have hend : "<|im_end|>".utf8ByteSize = 10 := rfl
  have hline : "\n".utf8ByteSize = 1 := rfl
  rw [chatml_message, message_tokens]
  simp only [String.utf8ByteSize_append, hstart, hend, hline]
  omega

/-- The count of a conversation is the length of its rendering. -/
theorem utf8ByteSize_rendered_chat (messages : List ChatMessage) :
    (rendered (.Chat messages)).utf8ByteSize = 22 + (messages.map message_tokens).sum := by
  have htail : "<|im_start|>assistant\n".utf8ByteSize = 22 := rfl
  have hmap : (messages.map chatml_message).map String.utf8ByteSize =
      messages.map message_tokens := by
    rw [List.map_map]
    exact List.map_congr_left fun message _ => utf8ByteSize_chatml_message message
  rw [rendered, String.utf8ByteSize_append, htail, String.join, utf8ByteSize_foldl, hmap]
  change 0 + _ + 22 = _
  omega

theorem conservative_prompt_tokens_iff {input : GenerationInput} {n : Nat}
    (hsmall : n < 2 ^ 64) :
    conservative_prompt_tokens input = .ok n ↔ n = (rendered input).utf8ByteSize := by
  cases input with
  | Completion prompt =>
    rw [conservative_prompt_tokens, rendered]
    exact ⟨fun h => (Except.ok.inj h).symm, fun h => by rw [h]⟩
  | Chat messages =>
    rw [conservative_chat, foldlM_checked _ _ _ _ (by decide), utf8ByteSize_rendered_chat]
    exact and_iff_left hsmall

theorem content_le_rendered (messages : List ChatMessage) :
    (messages.map (·.content.utf8ByteSize)).sum ≤ (rendered (.Chat messages)).utf8ByteSize := by
  rw [utf8ByteSize_rendered_chat]
  refine (List.sum_le_sum fun message _ => ?_).trans (Nat.le_add_left _ _)
  rw [message_tokens]
  omega

/-- The bytes of the input are within the bound, for an input that is not too
    long to be counted. -/
theorem input_bytes_iff {config : EngineConfig} {input : GenerationInput}
    (hsmall : (rendered input).utf8ByteSize < 2 ^ 64) :
    (∃ n, input_bytes config input = .ok n ∧ n ≤ config.max_prompt_bytes) ↔
      InputWithin config input := by
  cases input with
  | Completion prompt =>
    rw [input_bytes, InputWithin]
    by_cases hempty : prompt = ""
    · simp [hempty]
    · rw [if_neg (by simpa using hempty)]
      simp [hempty]
  | Chat messages =>
    rw [input_bytes, InputWithin]
    split
    · rename_i houtside
      refine ⟨fun ⟨_, h, _⟩ => (by cases h), fun ⟨hne, hlength, hcontent, _⟩ => ?_⟩
      simp only [Bool.or_eq_true, List.isEmpty_iff, decide_eq_true_eq, List.any_eq_true,
        String.isEmpty_iff] at houtside
      rcases houtside with (h | h) | ⟨message, hmem, h⟩
      · exact absurd h hne
      · omega
      · exact absurd h (hcontent message hmem)
    · rename_i hinside
      simp only [Bool.or_eq_true, List.isEmpty_iff, decide_eq_true_eq, List.any_eq_true,
        String.isEmpty_iff, not_or, not_exists, not_and, not_lt] at hinside
      obtain ⟨⟨hne, hlength⟩, hcontent⟩ := hinside
      -- the contents are no longer than the rendering, so their sum does not overflow
      have hfits := (content_le_rendered messages).trans_lt hsmall
      simp only [foldlM_checked _ _ _ _ (show 0 < 2 ^ 64 by decide), Nat.zero_add]
      constructor
      · rintro ⟨_, ⟨rfl, -⟩, hle⟩
        exact ⟨hne, hlength, hcontent, hle⟩
      · rintro ⟨-, -, -, hle⟩
        exact ⟨_, ⟨rfl, hfits⟩, hle⟩

/-! ## The verdict -/

/-- A check that is passed. -/
theorem check_eq_ok {α : Type} {c : Prop} [Decidable c] {e : EngineError}
    {f : Unit → Except EngineError α} {a : α} :
    (if c then (throw e : Except EngineError Unit) >>= f else f ()) = .ok a ↔
      ¬ c ∧ f () = .ok a := by
  split
  · exact ⟨fun h => (by cases h), fun h => absurd ‹c› h.1⟩
  · exact ⟨fun h => ⟨‹¬ c›, h⟩, And.right⟩

theorem bind_eq_ok {α β : Type} {x : Except EngineError α} {f : α → Except EngineError β} {b : β} :
    x >>= f = .ok b ↔ ∃ a, x = .ok a ∧ f a = .ok b := by
  cases x with
  | error e => exact ⟨fun h => (by cases h), fun ⟨_, h, _⟩ => (by cases h)⟩
  | ok a => exact ⟨fun h => ⟨a, rfl, h⟩, fun ⟨_, h, h'⟩ => (by cases h; exact h')⟩

theorem small_of_context {prompt output : Nat} (h : prompt + output ≤ MODEL_CONTEXT_TOKENS) :
    prompt < 2 ^ 64 := by
  unfold MODEL_CONTEXT_TOKENS at h
  omega

theorem fits_context {prompt output : Nat} :
    ¬ (usize_checked_add prompt output).all (fun total => decide (total > MODEL_CONTEXT_TOKENS)) =
      true ↔ prompt + output ≤ MODEL_CONTEXT_TOKENS := by
  cases hadd : usize_checked_add prompt output with
  | none =>
    have hlarge := usize_checked_add_eq_none.1 hadd
    simp only [Option.all_none, not_true, false_iff, MODEL_CONTEXT_TOKENS]
    omega
  | some total =>
    obtain ⟨rfl, -⟩ := usize_checked_add_eq_some.1 hadd
    simp

/-- A request is accepted if and only if it is within all bounds. -/
theorem normalize_request_iff (config : EngineConfig) (request : GenerationRequest) :
    (∃ normalized, normalize_request request config = .ok normalized) ↔
      Acceptable config request := by
  simp only [normalize_request, check_eq_ok, bind_eq_ok]
  constructor
  · rintro ⟨_, hmodel, htokens, htemperature, htop_p, hstop, bytes, hbytes, hbound, n, hn,
      hcontext, -⟩
    rw [fits_context] at hcontext
    -- a count that fits the context is far from overflowing, so it is exact
    have hsmall := small_of_context hcontext
    obtain rfl := (conservative_prompt_tokens_iff hsmall).1 hn
    exact {
      model := not_not.1 hmodel
      max_tokens := by
        simp only [Bool.or_eq_true, decide_eq_true_eq, not_or, gt_iff_lt, UInt32.not_lt] at htokens
        exact ⟨UInt32.pos_iff_ne_zero.2 htokens.1, htokens.2⟩
      temperature := by simpa [and_assoc] using htemperature
      top_p := by simpa [and_assoc] using htop_p
      stop := by simpa using hstop
      input := (input_bytes_iff hsmall).1 ⟨bytes, hbytes, not_lt.1 hbound⟩
      context := hcontext }
  · intro h
    have hsmall := small_of_context h.context
    obtain ⟨bytes, hbytes, hbound⟩ := (input_bytes_iff hsmall).2 h.input
    refine ⟨_, not_not_intro h.model, ?_, by simpa [and_assoc] using h.temperature,
      by simpa [and_assoc] using h.top_p, by simpa using h.stop, bytes, hbytes, not_lt.2 hbound, _,
      (conservative_prompt_tokens_iff hsmall).2 rfl, fits_context.2 h.context, rfl⟩
    simp only [Bool.or_eq_true, decide_eq_true_eq, not_or, gt_iff_lt, UInt32.not_lt]
    exact ⟨UInt32.pos_iff_ne_zero.1 h.max_tokens.1, h.max_tokens.2⟩

/-- The first check that fails decides the error. -/
theorem check_eq_error {α : Type} {c : Prop} [Decidable c] {e e' : EngineError}
    {f : Unit → Except EngineError α} :
    (if c then (throw e : Except EngineError Unit) >>= f else f ()) = .error e' ↔
      (c ∧ e = e') ∨ (¬ c ∧ f () = .error e') := by
  by_cases hc : c
  · rw [if_pos hc]
    exact ⟨fun h => .inl ⟨hc, Except.error.inj h⟩,
      fun h => congrArg Except.error (h.resolve_right fun h => h.1 hc).2⟩
  · rw [if_neg hc]
    exact ⟨fun h => .inr ⟨hc, h⟩, fun h => (h.resolve_left fun h => hc h.1).2⟩

theorem bind_eq_error {α β : Type} {x : Except EngineError α} {f : α → Except EngineError β}
    {e : EngineError} :
    x >>= f = .error e ↔ x = .error e ∨ ∃ a, x = .ok a ∧ f a = .error e := by
  refine ⟨bind_error, ?_⟩
  rintro (rfl | ⟨a, rfl, h⟩)
  · rfl
  · exact h

theorem conservative_prompt_tokens_error {input : GenerationInput} {e : EngineError}
    (h : conservative_prompt_tokens input = .error e) : e = outside_bound := by
  cases input with
  | Completion prompt => cases h
  | Chat messages =>
    rw [conservative_chat] at h
    exact foldlM_checked_error h

theorem input_bytes_error {config : EngineConfig} {input : GenerationInput} {e : EngineError}
    (h : input_bytes config input = .error e) : ∃ message, e = .InvalidRequest message := by
  cases input with
  | Completion prompt =>
    rw [input_bytes] at h
    split at h
    · exact ⟨_, (Except.error.inj h).symm⟩
    · cases h
  | Chat messages =>
    rw [input_bytes] at h
    split at h
    · exact ⟨_, (Except.error.inj h).symm⟩
    · exact ⟨_, foldlM_checked_error h⟩

/-- Whatever is refused is refused as an invalid request. -/
theorem normalize_request_error {config : EngineConfig} {request : GenerationRequest}
    {e : EngineError} (h : normalize_request request config = .error e) :
    ∃ message, e = .InvalidRequest message := by
  simp only [normalize_request, check_eq_error, bind_eq_error] at h
  rcases h with ⟨-, rfl⟩ | ⟨-, ⟨-, rfl⟩ | ⟨-, ⟨-, rfl⟩ | ⟨-, ⟨-, rfl⟩ | ⟨-, ⟨-, rfl⟩ | ⟨-, h⟩⟩⟩⟩⟩
  all_goals try exact ⟨_, rfl⟩
  -- the checks that count, before and after the bound on the prompt
  rcases h with h | ⟨bytes, -, ⟨-, rfl⟩ | ⟨-, h | ⟨tokens, -, ⟨-, rfl⟩ | ⟨-, h⟩⟩⟩⟩
  · exact input_bytes_error h
  · exact ⟨_, rfl⟩
  · exact ⟨_, conservative_prompt_tokens_error h⟩
  · exact ⟨_, rfl⟩
  · cases h

/-- The accounting of `normalize_request` is exact, and what it accepts fits the
    context for every tokenizer with at most one token a byte. -/
theorem context_accounting (config : EngineConfig) (request : GenerationRequest) :
    ((∃ normalized, normalize_request request config = .ok normalized) ↔
      Acceptable config request) ∧
    (∀ e, normalize_request request config = .error e → ∃ message, e = .InvalidRequest message) ∧
    ∀ normalized, normalize_request request config = .ok normalized →
      conservative_prompt_tokens request.input = .ok (rendered request.input).utf8ByteSize ∧
      ∀ {token : Type} (tokenize : String → List token),
        (∀ text, (tokenize text).length ≤ text.utf8ByteSize) →
          (tokenize (rendered request.input)).length + request.max_tokens.toNat ≤
            MODEL_CONTEXT_TOKENS := by
  refine ⟨normalize_request_iff config request, fun e => normalize_request_error, fun _ h => ?_⟩
  have hcontext := ((normalize_request_iff config request).1 ⟨_, h⟩).context
  refine ⟨(conservative_prompt_tokens_iff (small_of_context hcontext)).2 rfl,
    fun tokenize htokens => ?_⟩
  exact (Nat.add_le_add_right (htokens _) _).trans hcontext

end Inferences.Engine
