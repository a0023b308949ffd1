import Inferences.Engine.Decoding

/-!
# Streams of JSON chunks

A response seen through the JSON values of its `data:` lines. A list of lines
carries a list of values when these are what its payloads decode to
(`Carries`); reading the lines is then reading the values (`gather`), and
`consume_sse` answers what the values add up to (`consume_sse_of_chunked`),
however the response is cut.
-/

namespace Inferences.Engine

open Json

/-- Reading values in order: the answer after them, or before the first that is
    refused, and whether none was. -/
def gather (request : NormalizedRequest) (answer : Answer) : List Value → Answer × Bool
  | [] => (answer, true)
  | value :: values =>
    match answer.extend request value with
    | none => (answer, false)
    | some answer => gather request answer values

/-- The payloads of the lines decode to the values, and none is `[DONE]`. -/
structure Carries (from_slice : Bytes → Option Value) (lines : List Bytes) (values : List Value) :
    Prop where
  parsed : (lines.filterMap payload).map from_slice = values.map some
  undone : DONE ∉ lines.filterMap payload

/-- A response, in the chunks the network cuts it into, that carries the values
    and ends with `[DONE]`: the bound on the buffer is respected, and what came
    in the same chunk after the `[DONE]` line is complete lines without data. -/
structure Chunked (from_slice : Bytes → Option Value) (chunks : List Bytes)
    (values : List Value) : Prop where
  fits : FitsBuffer [] chunks
  ends : ∃ before more, chunks.flatten = (before ++ [LF]) ++ more ∧
    payload (Lines.pending LF before) = some DONE ∧
    Carries from_slice (Lines.complete LF before) values ∧
    Lines.pending LF (same_chunk (before ++ [LF]).length chunks) = [] ∧
    ∀ line ∈ Lines.complete LF (same_chunk (before ++ [LF]).length chunks), payload line = none

variable {from_slice : Bytes → Option Value} {request : NormalizedRequest} {answer : Answer}
  {values : List Value} {lines : List Bytes}

theorem Carries.line_ne_done (h : Carries from_slice lines values) :
    ∀ line ∈ lines, payload line ≠ some DONE := by
  intro line hl hp
  exact h.undone (List.mem_filterMap.2 ⟨line, hl, hp⟩)

/-- Lines without data are read through. -/
theorem consume_lines_of_silent {a b : List Bytes} (h : ∀ line ∈ b, payload line = none)
    {self : Progress} :
    consume_lines from_slice request self (a ++ b) = consume_lines from_slice request self a := by
  have hb (self : Progress) : consume_lines from_slice request self b = ([], .ok self) := by
    induction b with
    | nil => rfl
    | cons line b ih =>
      rw [consume_lines, consume_line_of_none self (h line List.mem_cons_self)]
      simp [ih fun l hl => h l (List.mem_cons_of_mem _ hl)]
  rw [consume_lines_append]
  split
  · rename_i heq
    exact heq.symm
  · rename_i deltas next heq
    rw [hb, List.append_nil, heq]

/-- Decoding payloads is reading the values they carry. -/
theorem decode_of_parsed {payloads : List Bytes} (h : payloads.map from_slice = values.map some)
    (hdone : DONE ∉ payloads) (answer : Answer) (rest : List Bytes) :
    decode from_slice request answer (payloads ++ rest) =
      if (gather request answer values).2 then
        decode from_slice request (gather request answer values).1 rest
      else ((gather request answer values).1, false) := by
  induction payloads generalizing answer values with
  | nil =>
    obtain rfl : values = [] := by simpa using h.symm
    rfl
  | cons data payloads ih =>
    obtain ⟨value, values, rfl⟩ : ∃ v vs, values = v :: vs := by
      cases values with
      | nil => simp at h
      | cons value values => exact ⟨value, values, rfl⟩
    obtain ⟨hvalue, hrest⟩ := List.cons.inj h
    rw [List.mem_cons, not_or] at hdone
    have hd : data ≠ DONE := fun e => hdone.1 e.symm
    rw [List.cons_append, decode, if_neg hd, hvalue, Option.bind_some, gather]
    cases answer.extend request value with
    | none => rfl
    | some answer' => exact ih hrest hdone.2 answer'

theorem Carries.decode (h : Carries from_slice lines values) (answer : Answer)
    (rest : List Bytes) :
    decode from_slice request answer (lines.filterMap payload ++ rest) =
      if (gather request answer values).2 then
        decode from_slice request (gather request answer values).1 rest
      else ((gather request answer values).1, false) :=
  decode_of_parsed h.parsed h.undone answer rest

/-- A response is answered by what its values add up to. -/
theorem consume_sse_of_chunked {chunks : List Bytes} (h : Chunked from_slice chunks values) :
    consume_sse from_slice request (chunks.map .ok) =
      (gather request {} values).1.events (gather request {} values).2 := by
  obtain ⟨before, more, hchunks, hdone, hcarries, hpending, hsilent⟩ := h.ends
  have hend : EndsAtDone (before ++ [LF]) := ⟨before, rfl, hdone, hcarries.line_ne_done⟩
  rw [consume_sse_of_done hend h.fits hchunks, hpending, consume_lines_of_silent hsilent,
    ← reference_of_done hend, reference, Lines.complete_concat_sep, List.filterMap_append,
    List.filterMap_cons_some hdone, List.filterMap_nil, hcarries.decode]
  cases hg : (gather request {} values).2 with
  | false => rfl
  | true => simp [Engine.decode]

/-- A response without `[DONE]` fails, after the deltas of its values. -/
theorem consume_sse_of_undone_values {chunks : List Bytes} (hfits : FitsBuffer [] chunks)
    (hcarries : Carries from_slice (Lines.complete LF chunks.flatten) values) :
    consume_sse from_slice request (chunks.map .ok) =
      ((gather request {} values).1.deltas.map .Delta, .error .RuntimeProtocol) := by
  have hdone := hcarries.line_ne_done
  rw [consume_sse_of_undone hfits hdone, ← reference_of_undone hdone, reference,
    ← List.append_nil (List.filterMap payload _), hcarries.decode]
  cases hg : (gather request {} values).2 with
  | false => simp [Answer.events]
  | true => simp [Engine.decode, Answer.events]

/-! ## What one value adds -/

/-- The usage and the finish reason a value reports, and the text it sends. -/
def reported_usage (value : Value) : Option TokenUsage := (parse_usage value).toOption.join

/-- The finish reason in a chunk, if it can be read. -/
def reported_finish (value : Value) : Option FinishReason :=
  (parse_finish_reason value).toOption.join

/-- The text in a chunk, if it can be read and is not empty. -/
def text (request : NormalizedRequest) (value : Value) : Option String :=
  sent (request.delta value).toOption.join

/-- A value the decoder can read: none of its three parts is malformed, and its
    usage is within the requested tokens. -/
def readable (request : NormalizedRequest) (value : Value) : Bool :=
  (parse_usage value).isOk && (parse_finish_reason value).isOk && (request.delta value).isOk &&
    !(reported_usage value).any (·.completion_tokens > request.max_tokens)

/-- The decoder accepts all these values: each is readable, and they send no
    more texts than tokens were requested. -/
def Accepts (request : NormalizedRequest) (values : List Value) : Prop :=
  (∀ value ∈ values, readable request value) ∧
    (values.filterMap (text request)).length ≤ request.max_tokens.toNat

/-- The values make up a complete answer. -/
def Completes (request : NormalizedRequest) (values : List Value) : Prop :=
  Accepts request values ∧ (∃ value ∈ values, (reported_usage value).isSome) ∧
    ∃ value ∈ values, (reported_finish value).isSome

instance (values : List Value) : Decidable (Accepts request values) :=
  inferInstanceAs (Decidable (_ ∧ _))

instance (values : List Value) : Decidable (Completes request values) :=
  inferInstanceAs (Decidable (_ ∧ _ ∧ _))

/-- The answer holds what the values report. -/
structure Gathered (request : NormalizedRequest) (values : List Value) (answer : Answer) :
    Prop where
  deltas : answer.deltas = values.filterMap (text request)
  usage : answer.usage.isSome ↔ ∃ value ∈ values, (reported_usage value).isSome
  finish : answer.finish.isSome ↔ ∃ value ∈ values, (reported_finish value).isSome

theorem gathered_nil (request : NormalizedRequest) : Gathered request [] {} :=
  ⟨rfl, by simp, by simp⟩

theorem accepts_nil (request : NormalizedRequest) : Accepts request [] :=
  ⟨by simp, Nat.zero_le _⟩

theorem accepts_append {a b : List Value} (h : Accepts request (a ++ b)) : Accepts request a := by
  refine ⟨fun value hv => h.1 value (List.mem_append_left _ hv), ?_⟩
  have := h.2
  rw [List.filterMap_append, List.length_append] at this
  omega

/-- One value: it is refused, or its text is added to the deltas and its reports
    replace those of the answer. -/
theorem extend_eq (answer : Answer) (value : Value) :
    answer.extend request value =
      if readable request value ∧
          (answer.deltas ++ (text request value).toList).length ≤ request.max_tokens.toNat then
        some { deltas := answer.deltas ++ (text request value).toList,
               usage := reported_usage value <|> answer.usage,
               finish := reported_finish value <|> answer.finish }
      else none := by
  unfold Answer.extend readable text reported_usage reported_finish
  cases parse_usage value with
  | error e => simp [Except.isOk, Except.toBool]
  | ok usage =>
    cases parse_finish_reason value with
    | error e => simp [Except.isOk, Except.toBool]
    | ok finish =>
      cases request.delta value with
      | error e => simp [Except.isOk, Except.toBool]
      | ok delta =>
        simp only [← sent_toList, Except.toOption, Option.join_some, Except.isOk, Except.toBool,
          Bool.true_and, Bool.not_eq_true', gt_iff_lt]
        by_cases hover : usage.any (fun u => decide (request.max_tokens < u.completion_tokens))
        · simp [hover]
        · simp only [hover, Bool.false_eq_true, false_or, ← not_le, ite_not, true_and]

/-- Reading one more value. -/
theorem Gathered.extend (h : Gathered request values answer)
    (haccepts : Accepts request values) (value : Value) :
    match answer.extend request value with
    | none => ¬ Accepts request (values ++ [value])
    | some answer' => Accepts request (values ++ [value]) ∧
        Gathered request (values ++ [value]) answer' ∧
        answer'.deltas = answer.deltas ++ (text request value).toList := by
  have htexts : (values ++ [value]).filterMap (text request) =
      answer.deltas ++ (text request value).toList := by
    rw [List.filterMap_append, h.deltas]
    cases ht : text request value <;> simp [ht]
  have hiff : Accepts request (values ++ [value]) ↔ readable request value ∧
      (answer.deltas ++ (text request value).toList).length ≤ request.max_tokens.toNat := by
    rw [Accepts, htexts]
    refine and_congr_left fun _ => ⟨fun h => h value (by simp), fun hr v hv => ?_⟩
    rcases List.mem_append.1 hv with hv | hv
    · exact haccepts.1 v hv
    · exact List.mem_singleton.1 hv ▸ hr
  rw [extend_eq]
  split
  · rename_i hnone
    rw [hiff]
    intro hok
    rw [if_pos hok] at hnone
    cases hnone
  · rename_i answer' hsome
    split at hsome
    · rename_i hok
      cases hsome
      refine ⟨hiff.2 hok, ⟨htexts.symm, ?_, ?_⟩, rfl⟩
      · cases hu : reported_usage value <;> simp [hu, h.usage, or_and_right, exists_or]
      · cases hf : reported_finish value <;> simp [hf, h.finish, or_and_right, exists_or]
    · cases hsome

/-- An answer keeps the deltas it has. -/
theorem deltas_prefix_gather (request : NormalizedRequest) (answer : Answer) (values : List Value) :
    answer.deltas <+: (gather request answer values).1.deltas := by
  induction values generalizing answer with
  | nil => exact List.prefix_rfl
  | cons value values ih =>
    rw [gather]
    split
    · exact List.prefix_rfl
    · rename_i answer' h
      rw [extend_eq] at h
      split at h
      · cases h
        exact (List.prefix_append answer.deltas _).trans
          (ih { deltas := _, usage := _, finish := _ })
      · cases h

theorem events_deltas_starts (answer : Answer) (complete : Bool) :
    answer.deltas.map .Delta <+: (answer.events complete).1 := by
  unfold Answer.events
  split
  · exact List.prefix_append _ _
  · exact List.prefix_rfl

/-- Reading on sends nothing and fails exactly when no accepted part of what
    follows has a text, and the whole is no complete answer. -/
theorem Gathered.gather_silent_iff (h : Gathered request values answer)
    (haccepts : Accepts request values) (more : List Value) :
    (gather request answer more).1.events (gather request answer more).2 =
        (answer.deltas.map .Delta, .error .RuntimeProtocol) ↔
      ¬ Completes request (values ++ more) ∧
        ∀ part, part <+: more → Accepts request (values ++ part) →
          part.filterMap (text request) = [] := by
  induction more generalizing values answer with
  | nil =>
    have hcomplete : Completes request values ↔ answer.usage.isSome ∧ answer.finish.isSome := by
      rw [Completes, h.usage, h.finish]
      exact and_iff_right haccepts
    simp only [gather, List.append_nil, hcomplete, List.prefix_nil, forall_eq,
      List.filterMap_nil, implies_true, and_true]
    cases hu : answer.usage <;> cases hf : answer.finish <;> simp [Answer.events, hu, hf]
  | cons value more ih =>
    have hstep := h.extend haccepts value
    cases hvalue : answer.extend request value with
    | none =>
      rw [hvalue] at hstep
      -- The value is refused: nothing that follows is accepted.
      have hstop : ∀ part, ¬ Accepts request (values ++ value :: part) := by
        intro part hpart
        rw [List.append_cons] at hpart
        exact hstep (accepts_append hpart)
      rw [gather, hvalue]
      refine iff_of_true rfl ⟨fun hc => hstop more hc.1, fun part hpart hacc => ?_⟩
      cases part with
      | nil => rfl
      | cons v part =>
        obtain ⟨rfl, -⟩ := List.cons_prefix_cons.1 hpart
        exact absurd hacc (hstop part)
    | some answer' =>
      rw [hvalue] at hstep
      obtain ⟨hacc', hgathered', hdeltas'⟩ := hstep
      rw [gather, hvalue]
      cases ht : text request value with
      | some delta =>
        -- The value sends a text: neither side holds.
        refine iff_of_false (fun he => ?_) fun hr => ?_
        · have hp := (deltas_prefix_gather request answer' more).map
            GenerationEvent.Delta
          have hp' := hp.trans (events_deltas_starts _ (gather request answer' more).2)
          rw [he] at hp'
          have hlen := hp'.length_le
          simp only [hdeltas', ht, Option.toList_some, List.map_append, List.length_append,
            List.length_map, List.length_singleton] at hlen
          omega
        · have := hr.2 [value] (by simp) hacc'
          simp [ht] at this
      | none =>
        rw [ht, Option.toList_none, List.append_nil] at hdeltas'
        rw [← hdeltas', ih hgathered' hacc', List.append_assoc]
        refine and_congr_right fun _ => ⟨fun hr part hpart hacc => ?_, fun hr part hpart hacc => ?_⟩
        · cases part with
          | nil => rfl
          | cons v part =>
            obtain ⟨rfl, hpart'⟩ := List.cons_prefix_cons.1 hpart
            rw [List.filterMap_cons_none ht]
            exact hr part hpart' (by rwa [List.append_assoc])
        · have := hr (value :: part) (List.cons_prefix_cons.2 ⟨rfl, hpart⟩)
            (by rwa [List.append_assoc] at hacc)
          rwa [List.filterMap_cons_none ht] at this

/-! ## The values of some lines -/

/-- The payloads of some lines, without those that are `[DONE]`. -/
def data_of (lines : List Bytes) : List Bytes := (lines.filterMap payload).filter (· ≠ DONE)

/-- The values of some lines, of those that carry one. -/
def values_of (from_slice : Bytes → Option Value) (lines : List Bytes) : List Value :=
  (data_of lines).filterMap from_slice

/-- The decoder accepts these lines: every payload but `[DONE]` is a value, and
    it accepts the values. -/
def AcceptsLines (from_slice : Bytes → Option Value) (request : NormalizedRequest)
    (lines : List Bytes) : Prop :=
  (∀ data ∈ data_of lines, (from_slice data).isSome) ∧ Accepts request (values_of from_slice lines)

instance (lines : List Bytes) : Decidable (AcceptsLines from_slice request lines) :=
  inferInstanceAs (Decidable (_ ∧ _))

/-- The answer some values make up: their texts, and the last usage and the last
    finish reason they report. -/
def answer_of (request : NormalizedRequest) (values : List Value) : Answer where
  deltas := values.filterMap (text request)
  usage := (values.filterMap reported_usage).getLast?
  finish := (values.filterMap reported_finish).getLast?

@[simp] theorem data_of_append (a b : List Bytes) : data_of (a ++ b) = data_of a ++ data_of b := by
  simp [data_of]

@[simp] theorem values_of_append (a b : List Bytes) :
    values_of from_slice (a ++ b) = values_of from_slice a ++ values_of from_slice b := by
  simp [values_of]

theorem data_of_silent {line : Bytes} (h : payload line = none ∨ payload line = some DONE) :
    data_of [line] = [] := by
  rcases h with h | h <;> simp [data_of, h]

theorem data_of_data {line data : Bytes} (h : payload line = some data) (hd : data ≠ DONE) :
    data_of [line] = [data] := by
  simp [data_of, h, hd]

theorem acceptsLines_append {a b : List Bytes} (h : AcceptsLines from_slice request (a ++ b)) :
    AcceptsLines from_slice request a := by
  refine ⟨fun data hdata => h.1 data ?_, accepts_append (b := values_of from_slice b) ?_⟩
  · rw [data_of_append]
    exact List.mem_append_left _ hdata
  · rw [← values_of_append]
    exact h.2

theorem answer_of_concat (request : NormalizedRequest) (values : List Value) (value : Value) :
    answer_of request (values ++ [value]) =
      { deltas := (answer_of request values).deltas ++ (text request value).toList
        usage := reported_usage value <|> (answer_of request values).usage
        finish := reported_finish value <|> (answer_of request values).finish } := by
  simp only [answer_of, List.filterMap_append, Answer.mk.injEq]
  refine ⟨?_, ?_, ?_⟩
  · cases h : text request value <;> simp [h]
  · cases h : reported_usage value <;> simp [h]
  · cases h : reported_finish value <;> simp [h]

/-- The values complete an answer when the answer they make up is complete. -/
theorem completes_iff (haccepts : Accepts request values) :
    Completes request values ↔
      (answer_of request values).usage.isSome ∧ (answer_of request values).finish.isSome := by
  have hlast {β : Type} (f : Value → Option β) :
      (values.filterMap f).getLast?.isSome ↔ ∃ value ∈ values, (f value).isSome := by
    rw [List.getLast?_isSome, Ne, List.filterMap_eq_nil_iff]
    simp [Option.isSome_iff_ne_none]
  rw [Completes, answer_of, hlast, hlast]
  exact and_iff_right haccepts

/-- The progress of the decoder after lines that it accepts. -/
structure Held (from_slice : Bytes → Option Value) (request : NormalizedRequest)
    (lines : List Bytes) (progress : Progress) : Prop where
  acceptable : AcceptsLines from_slice request lines
  agrees : Agrees request progress (answer_of request (values_of from_slice lines))

theorem held_init (from_slice : Bytes → Option Value) (request : NormalizedRequest) :
    Held from_slice request [] {} :=
  ⟨⟨by simp [data_of], accepts_nil request⟩, agrees_init request⟩

/-- `[DONE]` changes nothing of what has been gathered. -/
theorem Agrees.done {self : Progress} (h : Agrees request self answer) :
    Agrees request { self with done := true } answer :=
  ⟨h.usage, h.finish, h.counted, h.bounded⟩

/-- A line that carries no value. -/
theorem held_silent {self : Progress} (h : Held from_slice request lines self) {line : Bytes}
    (hline : data_of [line] = []) :
    Held from_slice request (lines ++ [line]) self ∧ values_of from_slice [line] = [] := by
  have hvalues : values_of from_slice [line] = [] := by rw [values_of, hline, List.filterMap_nil]
  refine ⟨⟨?_, ?_⟩, hvalues⟩
  · rw [AcceptsLines, data_of_append, values_of_append, hline, hvalues, List.append_nil,
      List.append_nil]
    exact h.acceptable
  · rw [values_of_append, hvalues, List.append_nil]
    exact h.agrees

/-- A line that carries a value. -/
theorem acceptsLines_concat {line data : Bytes} {value : Value} (hdata : data_of [line] = [data])
    (hvalue : from_slice data = some value) (h : AcceptsLines from_slice request lines) :
    AcceptsLines from_slice request (lines ++ [line]) ↔
      Accepts request (values_of from_slice lines ++ [value]) := by
  have hvalues : values_of from_slice [line] = [value] := by simp [values_of, hdata, hvalue]
  rw [AcceptsLines, data_of_append, values_of_append, hdata, hvalues]
  refine and_iff_right fun data' hmem => ?_
  rcases List.mem_append.1 hmem with hmem | hmem
  · exact h.1 data' hmem
  · rw [List.mem_singleton.1 hmem, hvalue]
    rfl

theorem accepts_concat_iff {value : Value} (h : Accepts request values) :
    Accepts request (values ++ [value]) ↔ readable request value ∧
      ((answer_of request values).deltas ++ (text request value).toList).length ≤
        request.max_tokens.toNat := by
  have htexts : (values ++ [value]).filterMap (text request) =
      (answer_of request values).deltas ++ (text request value).toList :=
    congrArg Answer.deltas (answer_of_concat request values value)
  rw [Accepts, htexts]
  refine and_congr_left fun _ => ⟨fun h => h value (by simp), fun hr v hv => ?_⟩
  rcases List.mem_append.1 hv with hv | hv
  · exact h.1 v hv
  · exact List.mem_singleton.1 hv ▸ hr

/-- One more line: it is refused when the lines with it are not acceptable, and
    else sends the text of its value. -/
theorem held_line {self : Progress} (h : Held from_slice request lines self) (line : Bytes) :
    match consume_line from_slice request self (line ++ [LF]) with
    | .error _ => ¬ AcceptsLines from_slice request (lines ++ [line])
    | .ok (self', delta) => Held from_slice request (lines ++ [line]) self' ∧
        delta.toList = (values_of from_slice [line]).filterMap (text request) := by
  cases hp : payload line with
  | none =>
    obtain ⟨hheld, hvalues⟩ := held_silent h (data_of_silent (.inl hp))
    rw [consume_line_of_none self hp]
    exact ⟨hheld, by rw [hvalues]; rfl⟩
  | some data =>
    by_cases hd : data = DONE
    · subst hd
      obtain ⟨hheld, hvalues⟩ := held_silent h (data_of_silent (.inr hp))
      rw [consume_line_done self hp]
      exact ⟨⟨hheld.acceptable, hheld.agrees.done⟩, by rw [hvalues]; rfl⟩
    · have hdata := data_of_data hp hd
      rw [consume_line_data self hp hd]
      cases hv : from_slice data with
      | none =>
        -- Data that cannot be read is refused on both sides.
        intro hacceptable
        have := hacceptable.1 data (by rw [data_of_append, hdata]; simp)
        rw [hv] at this
        cases this
      | some value =>
        have hvalues : values_of from_slice [line] = [value] := by simp [values_of, hdata, hv]
        have hiff := (acceptsLines_concat hdata hv h.acceptable).trans
          (accepts_concat_iff h.acceptable.2)
        have hspec := consume_chunk_spec h.agrees value
        rw [extend_eq] at hspec
        -- The decoder goes on just when the value can be read and its text is not one too many.
        by_cases hok : readable request value = true ∧
            ((answer_of request (values_of from_slice lines)).deltas ++
              (text request value).toList).length ≤ request.max_tokens.toNat
        · rw [if_pos hok] at hspec
          obtain ⟨self', delta, hchunk, hagrees, -, hdeltas⟩ := hspec
          simp only [hchunk]
          refine ⟨⟨hiff.2 hok, ?_⟩, ?_⟩
          · rw [values_of_append, hvalues, answer_of_concat]
            exact hagrees
          · rw [hvalues, ← List.append_cancel_left hdeltas]
            cases ht : text request value <;> simp [ht]
        · rw [if_neg hok] at hspec
          simp only [hspec]
          exact fun hacceptable => hok (hiff.1 hacceptable)

/-- Many more lines: one of them is refused, or they send the texts of their
    values. -/
theorem held_lines {self : Progress} (h : Held from_slice request lines self)
    (more : List Bytes) :
    match consume_lines from_slice request self more with
    | (_, .error _) => ¬ AcceptsLines from_slice request (lines ++ more)
    | (deltas, .ok self') => Held from_slice request (lines ++ more) self' ∧
        deltas = (values_of from_slice more).filterMap (text request) := by
  induction more generalizing lines self with
  | nil =>
    rw [List.append_nil]
    exact ⟨h, rfl⟩
  | cons line more ih =>
    have hline := held_line h line
    rw [consume_lines, List.append_cons lines line more]
    cases hc : consume_line from_slice request self (line ++ [LF]) with
    | error e =>
      rw [hc] at hline
      exact fun hacceptable => hline (acceptsLines_append hacceptable)
    | ok r =>
      obtain ⟨next, delta⟩ := r
      rw [hc] at hline
      obtain ⟨hheld, hdelta⟩ := hline
      have hrest := ih hheld
      rcases hr : consume_lines from_slice request next more with ⟨deltas, e | self'⟩
      · rw [hr] at hrest
        simp only [hr]
        exact hrest
      · rw [hr] at hrest
        have hcons : values_of from_slice (line :: more) =
            values_of from_slice [line] ++ values_of from_slice more :=
          values_of_append [line] more
        simp only [hr, hcons, List.filterMap_append, hdelta, hrest.2]
        exact ⟨hrest.1, trivial⟩

/-- Lines send nothing when no part of them that is accepted has a text. -/
theorem held_sends_nothing_iff {self : Progress} (h : Held from_slice request lines self)
    (more : List Bytes) :
    (consume_lines from_slice request self more).1 = [] ↔
      ∀ part, part <+: more → AcceptsLines from_slice request (lines ++ part) →
        (values_of from_slice part).filterMap (text request) = [] := by
  induction more generalizing lines self with
  | nil =>
    refine iff_of_true rfl fun part hpart _ => ?_
    rw [List.prefix_nil.1 hpart]
    rfl
  | cons line more ih =>
    have hline := held_line h line
    have hcons (part : List Bytes) : values_of from_slice (line :: part) =
        values_of from_slice [line] ++ values_of from_slice part := values_of_append [line] part
    rw [consume_lines]
    cases hc : consume_line from_slice request self (line ++ [LF]) with
    | error e =>
      rw [hc] at hline
      -- The line is refused: no longer part is accepted.
      refine iff_of_true rfl fun part hpart hacceptable => ?_
      cases part with
      | nil => rfl
      | cons first part =>
        obtain ⟨rfl, -⟩ := List.cons_prefix_cons.1 hpart
        rw [List.append_cons] at hacceptable
        exact absurd (acceptsLines_append hacceptable) hline
    | ok r =>
      obtain ⟨next, delta⟩ := r
      rw [hc] at hline
      obtain ⟨hheld, hdelta⟩ := hline
      dsimp only
      -- The line is accepted: nothing of it, and nothing after it.
      rw [List.append_eq_nil_iff, hdelta, ih hheld]
      constructor
      · rintro ⟨hfirst, hmore⟩ part hpart hacceptable
        cases part with
        | nil => rfl
        | cons first part =>
          obtain ⟨rfl, hrest⟩ := List.cons_prefix_cons.1 hpart
          rw [List.append_cons] at hacceptable
          rw [hcons, List.filterMap_append, hfirst, hmore part hrest hacceptable, List.append_nil]
      · intro hparts
        have hfirst := hparts [line] (by simp) hheld.acceptable
        refine ⟨hfirst, fun part hpart hacceptable => ?_⟩
        rw [List.append_assoc] at hacceptable
        have hall := hparts (line :: part) (List.cons_prefix_cons.2 ⟨rfl, hpart⟩) hacceptable
        rw [hcons, List.filterMap_append, List.append_eq_nil_iff] at hall
        exact hall.2

end Inferences.Engine
