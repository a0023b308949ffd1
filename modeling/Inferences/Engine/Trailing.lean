import Inferences.Engine.Chunks

/-!
# What follows `[DONE]`

`consume_sse` stops at the end of the chunk that brings the line feed of
`[DONE]`: later chunks are never read, but the rest of that chunk is, as if
the stream were going on. Its lines may add deltas, usages and finish reasons,
and a partial line left in the buffer turns a complete answer into an error.

`TailInert` says of a tail when it does nothing of that, by the payloads of its
lines and the values these carry; it is exactly when the answer is that of the
stream up to `[DONE]` (`consume_sse_tail_iff`). A tail of complete lines without
data is inert (`tailInert_of_silent`), the carriage return of a blank line cut
before its line feed is not (`consume_sse_tail_cr`).
-/

namespace Inferences.Engine

open Json

/-- The tail of the chunk that brings `[DONE]`, after `bytes`, changes nothing.
    Unless a line of `bytes` is refused already, no value of its lines has a text,
    up to the first line that is refused, and
    * where the values of `bytes` complete an answer, it is made of complete
      lines, all accepted, and the last usage and the last finish reason among
      them, if any, are those of the answer;
    * where they do not, it ends in a partial line, has a line that is refused,
      or does not complete the answer either. -/
def TailInert (from_slice : Bytes → Option Value) (request : NormalizedRequest)
    (bytes tail : Bytes) : Prop :=
  let lines := Lines.complete LF bytes
  let more := Lines.complete LF tail
  let values := values_of from_slice lines
  let rest := values_of from_slice more
  AcceptsLines from_slice request lines →
    (∀ part, part <+: more → AcceptsLines from_slice request (lines ++ part) →
      (values_of from_slice part).filterMap (text request) = []) ∧
    (Completes request values →
      Lines.pending LF tail = [] ∧ AcceptsLines from_slice request (lines ++ more) ∧
        (∀ usage ∈ (rest.filterMap reported_usage).getLast?,
          usage ∈ (values.filterMap reported_usage).getLast?) ∧
        ∀ finish ∈ (rest.filterMap reported_finish).getLast?,
          finish ∈ (values.filterMap reported_finish).getLast?) ∧
    (¬ Completes request values →
      Lines.pending LF tail = [] → AcceptsLines from_slice request (lines ++ more) →
        ¬ Completes request (values ++ rest))

variable {from_slice : Bytes → Option Value} {request : NormalizedRequest} {self : Progress}

theorem count_delta_error {delta : Option String} {e : EngineError}
    (h : count_delta request self delta = .error e) : e = .RuntimeProtocol := by
  unfold count_delta at h
  split at h
  · cases h
  · split at h
    · cases h
    · split at h
      · cases h; rfl
      · split at h
        · cases h; rfl
        · cases h

theorem consume_chunk_error {value : Value} {e : EngineError}
    (h : consume_chunk request self value = .error e) : e = .RuntimeProtocol := by
  rw [consume_chunk_eq] at h
  split at h
  · split at h
    · cases h; rfl
    · exact count_delta_error h
  · cases h; rfl

theorem consume_line_error {line : Bytes} {e : EngineError}
    (h : consume_line from_slice request self line = .error e) : e = .RuntimeProtocol := by
  unfold consume_line at h
  split at h
  · cases h
  · split at h
    · cases h
    · split at h
      · cases h; rfl
      · exact consume_chunk_error h

/-- The decoder fails with `RuntimeProtocol` only. -/
theorem consume_lines_error {lines : List Bytes} {e : EngineError}
    (h : (consume_lines from_slice request self lines).2 = .error e) : e = .RuntimeProtocol := by
  induction lines generalizing self with
  | nil => cases h
  | cons line lines ih =>
    rw [consume_lines] at h
    split at h
    · rename_i e' he
      cases h
      exact consume_line_error he
    · exact ih h

/-! ## Two answers -/

theorem deltas_append_eq_iff {deltas : List String} {u usage : TokenUsage}
    {f finish : FinishReason} :
    deltas.map GenerationEvent.Delta ++ [.Usage u, .Finished f] = [.Usage usage, .Finished finish] ↔
      deltas = [] ∧ u = usage ∧ f = finish := by
  cases deltas <;> simp

/-- A response is a usage and a finish reason when its lines send nothing and
    leave these two. -/
theorem respond_eq_ok_iff {r : List String × Except EngineError Progress} {rest : Bytes}
    {usage : TokenUsage} {finish : FinishReason} :
    respond r rest = ([.Usage usage, .Finished finish], .ok ()) ↔
      r.1 = [] ∧ rest = [] ∧ ∃ after, r.2 = .ok after ∧ after.done = true ∧
        after.usage = some usage ∧ after.finish = some finish := by
  obtain ⟨deltas, e | ⟨finish', usage', done, count⟩⟩ := r
  · simp [respond]
  · cases done <;> cases rest <;> cases usage' <;> cases finish' <;>
      simp [respond, conclude, deltas_append_eq_iff]

/-- A response is a bare error when its lines send nothing and leave something
    out. -/
theorem respond_eq_error_iff {r : List String × Except EngineError Progress} {rest : Bytes}
    (he : ∀ e, r.2 = .error e → e = .RuntimeProtocol) :
    respond r rest = ([], .error .RuntimeProtocol) ↔
      r.1 = [] ∧ ∀ after, r.2 = .ok after →
        after.done = false ∨ rest ≠ [] ∨ after.usage = none ∨ after.finish = none := by
  obtain ⟨deltas, e | ⟨finish', usage', done, count⟩⟩ := r
  · simp [respond, he e rfl]
  · cases done <;> cases rest <;> cases usage' <;> cases finish' <;> simp [respond, conclude]

/-- The deltas before do not matter when comparing two responses. -/
theorem respond_append (deltas : List String) (r : List String × Except EngineError Progress)
    (rest : Bytes) :
    respond (deltas ++ r.1, r.2) rest =
      (deltas.map .Delta ++ (respond r rest).1, (respond r rest).2) := by
  obtain ⟨deltas', e | self⟩ := r <;> simp [respond]

theorem getLast?_append_eq_iff {β : Type} {a b : List β} {last : β} (h : a.getLast? = some last) :
    (a ++ b).getLast? = some last ↔ ∀ x ∈ b.getLast?, x ∈ a.getLast? := by
  rw [List.getLast?_append, h]
  cases b.getLast? <;> simp [eq_comm]

/-- What some lines leave of an answer, when they are accepted after others. -/
theorem held_more {lines : List Bytes} (h : Held from_slice request lines self)
    (hdone : self.done = true) (more : List Bytes) :
    (∀ after, (consume_lines from_slice request self more).2 = .ok after →
      Held from_slice request (lines ++ more) after ∧ after.done = true) ∧
    (AcceptsLines from_slice request (lines ++ more) →
      ∃ after, (consume_lines from_slice request self more).2 = .ok after) := by
  have hlines := held_lines h more
  rcases hr : consume_lines from_slice request self more with ⟨deltas, e | after⟩
  · rw [hr] at hlines
    exact ⟨by simp, fun hacceptable => absurd hacceptable hlines⟩
  · rw [hr] at hlines
    refine ⟨fun after' hafter => ?_, fun _ => ⟨after, rfl⟩⟩
    cases hafter
    exact ⟨hlines.1, (consume_lines_done hr).2 (.inl hdone)⟩

/-- Reading on after `[DONE]` gives the same answer exactly when the tail is inert. -/
theorem respond_tail_iff {bytes tail : Bytes} (hend : EndsAtDone bytes) :
    respond (consume_lines from_slice request {}
        (Lines.complete LF bytes ++ Lines.complete LF tail)) (Lines.pending LF tail) =
      respond (consume_lines from_slice request {} (Lines.complete LF bytes)) [] ↔
      TailInert from_slice request bytes tail := by
  have hlines := held_lines (held_init from_slice request) (Lines.complete LF bytes)
  rw [List.nil_append] at hlines
  rw [consume_lines_append, TailInert]
  rcases hr : consume_lines from_slice request {} (Lines.complete LF bytes) with ⟨deltas, e | self⟩
  · rw [hr] at hlines
    exact iff_of_true rfl fun hacceptable => absurd hacceptable hlines
  rw [hr] at hlines
  obtain ⟨hheld, -⟩ := hlines
  -- At `[DONE]`, the decoder is done; so it is after the tail.
  have hself : self.done = true := by
    obtain ⟨before, rfl, hp, -⟩ := hend
    exact (consume_lines_done hr).2 (.inr ⟨_, by rw [Lines.complete_concat_sep]; simp, hp⟩)
  obtain ⟨hafter, hread⟩ := held_more hheld hself (Lines.complete LF tail)
  have hnil : respond (deltas, .ok self) [] =
      (deltas.map .Delta ++ (conclude self []).1, (conclude self []).2) := rfl
  simp only [respond_append, hnil, Prod.mk.injEq, List.append_cancel_left_eq]
  rw [← Prod.mk.injEq]
  change respond _ _ = conclude self [] ↔ _
  rw [forall_prop_of_true hheld.acceptable, ← held_sends_nothing_iff hheld]
  have hcompletes := completes_iff hheld.acceptable.2
  rw [← hheld.agrees.usage, ← hheld.agrees.finish] at hcompletes
  by_cases hcomplete : Completes request (values_of from_slice (Lines.complete LF bytes))
  · -- The answer is complete at `[DONE]`: the tail keeps its usage and its finish reason.
    obtain ⟨husage, hfinish⟩ := hcompletes.1 hcomplete
    obtain ⟨usage, hu⟩ := Option.isSome_iff_exists.1 husage
    obtain ⟨finish, hf⟩ := Option.isSome_iff_exists.1 hfinish
    have hconclude : conclude self [] = ([.Usage usage, .Finished finish], .ok ()) := by
      simp [conclude, hself, hu, hf]
    rw [hconclude, respond_eq_ok_iff, forall_prop_of_true hcomplete,
      and_iff_left (fun hn => absurd hcomplete hn)]
    refine and_congr_right fun _ => and_congr_right fun _ => ?_
    have hu' := hheld.agrees.usage.symm.trans hu
    have hf' := hheld.agrees.finish.symm.trans hf
    rw [← getLast?_append_eq_iff hu', ← getLast?_append_eq_iff hf', ← List.filterMap_append,
      ← List.filterMap_append, ← values_of_append]
    constructor
    · rintro ⟨after, hok, -, husage', hfinish'⟩
      obtain ⟨hheld', -⟩ := hafter after hok
      exact ⟨hheld'.acceptable, hheld'.agrees.usage.symm.trans husage',
        hheld'.agrees.finish.symm.trans hfinish'⟩
    · rintro ⟨hacceptable, husage', hfinish'⟩
      obtain ⟨after, hok⟩ := hread hacceptable
      obtain ⟨hheld', hdone'⟩ := hafter after hok
      exact ⟨after, hok, hdone', hheld'.agrees.usage.trans husage',
        hheld'.agrees.finish.trans hfinish'⟩
  · -- An answer that leaves something out at `[DONE]` is a bare error.
    have hconclude : conclude self [] = ([], .error .RuntimeProtocol) := by
      rw [hcompletes, not_and_or] at hcomplete
      rcases hcomplete with h | h <;> simp [conclude, Option.not_isSome_iff_eq_none.1 h]
    rw [hconclude, respond_eq_error_iff fun e he => consume_lines_error he,
      and_iff_right (fun h => absurd h hcomplete), forall_prop_of_true hcomplete]
    refine and_congr_right fun _ => ?_
    have hmissing {after : Progress}
        (hheld' : Held from_slice request
          (Lines.complete LF bytes ++ Lines.complete LF tail) after) :
        after.usage = none ∨ after.finish = none ↔ ¬ Completes request
          (values_of from_slice (Lines.complete LF bytes) ++
            values_of from_slice (Lines.complete LF tail)) := by
      have hiff := completes_iff hheld'.acceptable.2
      rw [← hheld'.agrees.usage, ← hheld'.agrees.finish, values_of_append] at hiff
      rw [hiff, not_and_or, Option.not_isSome_iff_eq_none, Option.not_isSome_iff_eq_none]
    constructor
    · intro h hpending hacceptable
      obtain ⟨after, hok⟩ := hread hacceptable
      obtain ⟨hheld', hdone'⟩ := hafter after hok
      refine (hmissing hheld').1 ?_
      simpa [hdone', hpending] using h after hok
    · intro h after hok
      obtain ⟨hheld', hdone'⟩ := hafter after hok
      refine .inr (or_iff_not_imp_left.2 fun hpending => (hmissing hheld').2 ?_)
      exact h (not_not.1 hpending) hheld'.acceptable

/-! ## The chunk that brings `[DONE]` -/

/-- The answer is that of the stream up to `[DONE]` exactly when what came with
    its line feed, in the same chunk, is inert. -/
theorem consume_sse_tail_iff (from_slice : Bytes → Option Value) (request : NormalizedRequest)
    {bytes more : Bytes} (hend : EndsAtDone bytes) {alone chunks : List Bytes}
    (halone : alone.flatten = bytes) (hfits : FitsBuffer [] alone)
    (hchunks : chunks.flatten = bytes ++ more) (hfits' : FitsBuffer [] chunks) :
    consume_sse from_slice request (chunks.map .ok) =
      consume_sse from_slice request (alone.map .ok) ↔
      TailInert from_slice request bytes (same_chunk bytes.length chunks) := by
  rw [consume_sse_of_done hend hfits' hchunks, consume_sse_of_exactly_done hend hfits halone]
  exact respond_tail_iff hend

/-- A tail of complete lines without data is inert. -/
theorem tailInert_of_silent {bytes tail : Bytes} (hpending : Lines.pending LF tail = [])
    (hsilent : ∀ line ∈ Lines.complete LF tail, payload line = none) :
    TailInert from_slice request bytes tail := by
  have hdata (part : List Bytes) (hpart : part <+: Lines.complete LF tail) : data_of part = [] := by
    have hnone : part.filterMap payload = [] :=
      List.filterMap_eq_nil_iff.2 fun line hl => hsilent line (hpart.subset hl)
    rw [data_of, hnone, List.filter_nil]
  have hvalues (part : List Bytes) (hpart : part <+: Lines.complete LF tail) :
      values_of from_slice part = [] := by
    rw [values_of, hdata part hpart, List.filterMap_nil]
  have hnone := hvalues _ List.prefix_rfl
  intro hacceptable
  refine ⟨fun part hpart _ => ?_, fun _ => ⟨hpending, ?_, ?_, ?_⟩, fun hcomplete _ _ => ?_⟩
  · rw [hvalues part hpart]
    rfl
  · rw [AcceptsLines, data_of_append, values_of_append, hdata _ List.prefix_rfl, hnone,
      List.append_nil, List.append_nil]
    exact hacceptable
  · simp [hnone]
  · simp [hnone]
  · rwa [hnone, List.append_nil]

/-! ## A cut carriage return -/

/-- The chunk `{"choices":[{"finish_reason":"stop"}],"usage":{"prompt_tokens":1,
    "completion_tokens":1,"total_tokens":2}}`, on one line. -/
def last_chunk : Bytes :=
  [123, 34, 99, 104, 111, 105, 99, 101, 115, 34, 58, 91, 123, 34, 102, 105, 110, 105, 115, 104,
  95, 114, 101, 97, 115, 111, 110, 34, 58, 34, 115, 116, 111, 112, 34, 125, 93, 44, 34, 117,
  115, 97, 103, 101, 34, 58, 123, 34, 112, 114, 111, 109, 112, 116, 95, 116, 111, 107, 101, 110,
  115, 34, 58, 49, 44, 34, 99, 111, 109, 112, 108, 101, 116, 105, 111, 110, 95, 116, 111, 107,
  101, 110, 115, 34, 58, 49, 44, 34, 116, 111, 116, 97, 108, 95, 116, 111, 107, 101, 110, 115,
  34, 58, 50, 125, 125]

/-- The JSON parser, on the last chunk. -/
def parse_last_chunk (data : Bytes) : Option Value :=
  if data = last_chunk then
    some (.object [("choices", .array [.object [("finish_reason", .string "stop")]]),
      ("usage", .object [("prompt_tokens", .number (.posInt 1)),
        ("completion_tokens", .number (.posInt 1)), ("total_tokens", .number (.posInt 2))])])
  else none

/-- A complete answer: the last chunk and `[DONE]`. -/
def complete_answer : Bytes := DATA ++ last_chunk ++ [LF] ++ DATA ++ DONE ++ [LF]

/-- A request for one token. -/
def one_token : NormalizedRequest := ⟨.Completion "", 1, 0, 1, none, []⟩

theorem complete_answer_endsAtDone : EndsAtDone complete_answer :=
  ⟨DATA ++ last_chunk ++ [LF] ++ DATA ++ DONE,
    by decide +kernel, by decide +kernel, by decide +kernel⟩

/-- A blank line `\r\n` after `[DONE]`, cut between its two bytes, turns the
    complete answer into an error. -/
theorem consume_sse_tail_cr :
    EndsAtDone complete_answer ∧
      consume_sse parse_last_chunk one_token [.ok complete_answer] =
        ([.Usage ⟨1, 1, 2⟩, .Finished .Stop], .ok ()) ∧
      FitsBuffer [] [complete_answer ++ [CR], [LF]] ∧
      consume_sse parse_last_chunk one_token [.ok (complete_answer ++ [CR]), .ok [LF]] =
        ([], .error .RuntimeProtocol) := by
  refine ⟨complete_answer_endsAtDone, ?_, by decide +kernel, ?_⟩
  · have hcut : [complete_answer].flatten = complete_answer := List.append_nil _
    refine (consume_sse_of_exactly_done complete_answer_endsAtDone (by decide +kernel)
      hcut).trans ?_
    decide +kernel
  · have hcut : [complete_answer ++ [CR], [LF]].flatten = complete_answer ++ [CR, LF] := by simp
    refine (consume_sse_of_done complete_answer_endsAtDone (by decide +kernel) hcut).trans ?_
    decide +kernel

/-- The answer followed by a comment line is the answer. -/
theorem consume_sse_tail_comment :
    consume_sse parse_last_chunk one_token ([complete_answer ++ [58, LF]].map .ok) =
      consume_sse parse_last_chunk one_token ([complete_answer].map .ok) := by
  have halone : [complete_answer].flatten = complete_answer := List.append_nil _
  have hcut : [complete_answer ++ [58, LF]].flatten = complete_answer ++ [58, LF] :=
    List.append_nil _
  have htail : same_chunk complete_answer.length [complete_answer ++ [58, LF]] = [58, LF] := by
    decide +kernel
  refine (consume_sse_tail_iff parse_last_chunk one_token complete_answer_endsAtDone halone
    (by decide +kernel) hcut (by decide +kernel)).2 ?_
  rw [htail]
  exact tailInert_of_silent (by decide) (by decide)

end Inferences.Engine
