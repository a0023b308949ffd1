import Inferences.Engine.Sse

/-!
# Decoding does not depend on the cuts

What a whole response says (`reference`), stated without a buffer: its
complete lines, the payloads of those that carry data, and a fold over the
payloads up to `[DONE]`. `consume_sse` gives the same events and the same
result however the network cuts the response (`consume_sse_eq_reference`),
as long as nothing follows the `[DONE]` line.

What comes after `[DONE]` in the same chunk is still read
(`consume_sse_of_done`); later chunks are not.
-/

namespace Inferences.Engine

open Json

/-- The payload of a complete line. -/
def payload (line : Bytes) : Option Bytes :=
  let line := pop_last CR line
  if DATA.isPrefixOf line then some (drop_space (line.drop DATA.length)) else none

theorem line_payload_concat (line : Bytes) : line_payload (line ++ [LF]) = payload line := by
  have h : pop_last LF (line ++ [LF]) = line := by simp [pop_last]
  rw [line_payload, payload, h]

/-! ## The reference decoder -/

/-- The answer read so far. -/
structure Answer where
  deltas : List String := []
  usage : Option TokenUsage := none
  finish : Option FinishReason := none

/-- The answer with one more chunk; none when the chunk is malformed or goes
    over the requested tokens. -/
def Answer.extend (request : NormalizedRequest) (answer : Answer) (value : Value) :
    Option Answer :=
  match parse_usage value, parse_finish_reason value, request.delta value with
  | .ok usage, .ok finish, .ok delta =>
    let deltas := answer.deltas ++ delta.toList.filter (· ≠ "")
    if usage.any (·.completion_tokens > request.max_tokens) ∨
        deltas.length > request.max_tokens.toNat then none
    else some { deltas, usage := usage <|> answer.usage, finish := finish <|> answer.finish }
  | _, _, _ => none

section
variable (from_slice : Bytes → Option Value) (request : NormalizedRequest)

/-- Reading payloads in order: the answer at `[DONE]`, at the first violation
    or at the end, and whether `[DONE]` was reached. -/
def decode (answer : Answer) : List Bytes → Answer × Bool
  | [] => (answer, false)
  | data :: payloads =>
    if data = DONE then (answer, true)
    else match (from_slice data).bind (answer.extend request) with
      | none => (answer, false)
      | some answer => decode answer payloads

/-- What an answer says, and whether it is a success. -/
def Answer.events (answer : Answer) (complete : Bool) :
    List GenerationEvent × Except EngineError Unit :=
  match complete, answer.usage, answer.finish with
  | true, some usage, some finish =>
    (answer.deltas.map .Delta ++ [.Usage usage, .Finished finish], .ok ())
  | _, _, _ => (answer.deltas.map .Delta, .error .RuntimeProtocol)

/-- What a whole response says. -/
def reference (response : Bytes) : List GenerationEvent × Except EngineError Unit :=
  let r := decode from_slice request {} ((Lines.complete LF response).filterMap payload)
  r.1.events r.2

end

/-! ## One line -/

/-- The progress of the decoder matches an answer. -/
structure Agrees (request : NormalizedRequest) (progress : Progress) (answer : Answer) : Prop where
  usage : progress.usage = answer.usage
  finish : progress.finish = answer.finish
  counted : progress.generated_deltas.toNat = answer.deltas.length
  bounded : answer.deltas.length ≤ request.max_tokens.toNat

variable {from_slice : Bytes → Option Value} {request : NormalizedRequest}
  {self : Progress} {answer : Answer}

/-- Nothing is read yet. -/
theorem agrees_init (request : NormalizedRequest) : Agrees request {} {} :=
  ⟨rfl, rfl, rfl, Nat.zero_le _⟩

/-- The delta a chunk sends: none when it is empty. -/
def sent (delta : Option String) : Option String := delta.filter (· ≠ "")

theorem sent_toList (delta : Option String) :
    (sent delta).toList = delta.toList.filter (· ≠ "") := by
  cases delta with
  | none => rfl
  | some delta => by_cases h : delta = "" <;> simp [sent, h, Option.filter]

/-- Counting a delta: the counter never wraps before the bound is passed. -/
theorem count_delta_eq (h : Agrees request self answer) (delta : Option String) :
    let deltas := answer.deltas ++ (sent delta).toList
    count_delta request self delta =
      if deltas.length > request.max_tokens.toNat then .error .RuntimeProtocol
      else .ok ({ self with generated_deltas := .ofNat deltas.length }, sent delta) := by
  have hcounted := h.counted
  have hbounded := h.bounded
  have hself : UInt32.ofNat answer.deltas.length = self.generated_deltas := by
    rw [← hcounted, UInt32.ofNat_toNat]
  by_cases hd : sent delta = none
  · have hle : ¬request.max_tokens.toNat < answer.deltas.length := not_lt.2 hbounded
    simp only [hd, Option.toList_none, List.append_nil, hle, if_false, hself]
    rcases delta with _ | delta
    · rfl
    · have : delta = "" := by simpa [sent] using hd
      simp [count_delta, this]
  · obtain ⟨delta, rfl, hne⟩ : ∃ text, delta = some text ∧ text ≠ "" := by
      cases delta with
      | none => exact absurd rfl hd
      | some text => exact ⟨text, rfl, fun e => hd (by simp [sent, e])⟩
    have hsent : sent (some delta) = some delta := by simp [sent, hne]
    have hlt := request.max_tokens.toNat_lt
    have hone : (1 : UInt32).toNat = 1 := rfl
    have hnext : self.generated_deltas + 1 = .ofNat (answer.deltas.length + 1) := by
      rw [UInt32.ofNat_add, hself]
      rfl
    simp only [hsent, Option.toList_some, List.length_append, List.length_singleton, count_delta,
      String.isEmpty_iff, hne, if_false, checked_add, hcounted, hone, hnext]
    by_cases hsize : answer.deltas.length + 1 < UInt32.size
    · simp only [hsize, if_true, gt_iff_lt, UInt32.lt_iff_toNat_lt, UInt32.toNat_ofNat',
        Nat.mod_eq_of_lt hsize]
    · -- The counter would wrap: then the bound, a `u32`, is passed as well.
      have hover : request.max_tokens.toNat < answer.deltas.length + 1 := by
        simp only [UInt32.size] at hsize
        omega
      simp only [hsize, if_false, gt_iff_lt, hover, if_true]

/-- Storing the usage and the finish reason of a chunk. -/
theorem store_usage_eq (self : Progress) (usage : Option TokenUsage) :
    store_usage request self usage =
      if usage.any (·.completion_tokens > request.max_tokens) then .error .RuntimeProtocol
      else .ok { self with usage := usage <|> self.usage } := by
  cases usage with
  | none => rfl
  | some parsed => simp [store_usage]

theorem store_finish_eq (self : Progress) (finish : Option FinishReason) :
    store_finish self finish = { self with finish := finish <|> self.finish } := by
  cases finish <;> rfl

/-- The three readers of a chunk, one after the other. -/
theorem consume_chunk_eq (self : Progress) (value : Value) :
    consume_chunk request self value =
      match parse_usage value, parse_finish_reason value, request.delta value with
      | .ok usage, .ok finish, .ok delta =>
        if usage.any (·.completion_tokens > request.max_tokens) then .error .RuntimeProtocol
        else count_delta request
          { self with usage := usage <|> self.usage, finish := finish <|> self.finish } delta
      | _, _, _ => .error .RuntimeProtocol := by
  unfold consume_chunk
  cases hu : parse_usage value with
  | error e => rw [parse_usage_error hu]; rfl
  | ok usage =>
    simp only [bind, Except.bind, store_usage_eq]
    by_cases hover : usage.any (·.completion_tokens > request.max_tokens)
    · simp only [hover, if_true]
      split
      · rename_i hu _ _
        rw [if_pos (Except.ok.inj hu ▸ hover)]
      · rfl
    · simp only [hover, Bool.false_eq_true, if_false, store_finish_eq]
      cases hf : parse_finish_reason value with
      | error e => rw [parse_finish_reason_error hf]
      | ok finish =>
        cases hd : request.delta value with
        | error e => rw [NormalizedRequest.delta_error hd]
        | ok delta => simp only [hover, Bool.false_eq_true, if_false]

/-- One chunk: it is refused when it cannot extend the answer, and else sends
    what it adds to it. -/
theorem consume_chunk_spec (h : Agrees request self answer) (value : Value) :
    match answer.extend request value with
    | none => consume_chunk request self value = .error .RuntimeProtocol
    | some answer' => ∃ self' delta, consume_chunk request self value = .ok (self', delta) ∧
        Agrees request self' answer' ∧ self'.done = self.done ∧
        answer'.deltas = answer.deltas ++ delta.toList := by
  rw [consume_chunk_eq]
  unfold Answer.extend
  split
  · rename_i hv
    split at hv
    · rename_i usage finish delta hu hf hd
      simp only [← sent_toList, ite_eq_left_iff, reduceCtorEq, imp_false, not_not] at hv
      have hagrees : Agrees request { self with
          usage := usage <|> self.usage, finish := finish <|> self.finish }
          { answer with usage := usage <|> answer.usage, finish := finish <|> answer.finish } :=
        ⟨by rw [h.usage], by rw [h.finish], h.counted, h.bounded⟩
      -- Too many tokens, or too many texts.
      rcases hv with hover | hover
      · rw [if_pos hover]
      · rw [count_delta_eq hagrees, if_pos hover, ite_self]
    · rfl
  · rename_i answer' hv
    split at hv
    · rename_i usage finish delta hu hf hd
      simp only [← sent_toList] at hv
      split at hv
      · cases hv
      · rename_i hover
        obtain rfl := Option.some.inj hv
        push Not at hover
        have hagrees : Agrees request { self with
            usage := usage <|> self.usage, finish := finish <|> self.finish }
            { answer with usage := usage <|> answer.usage, finish := finish <|> answer.finish } :=
          ⟨by rw [h.usage], by rw [h.finish], h.counted, h.bounded⟩
        rw [if_neg hover.1, count_delta_eq hagrees, if_neg (not_lt.2 hover.2)]
        refine ⟨_, _, rfl, ⟨by rw [h.usage], by rw [h.finish], ?_, hover.2⟩, rfl, rfl⟩
        exact UInt32.toNat_ofNat'.trans
          (Nat.mod_eq_of_lt (hover.2.trans_lt request.max_tokens.toNat_lt))
    · cases hv

/-- A line that carries no data changes nothing. -/
theorem consume_line_of_none (self : Progress) {line : Bytes} (h : payload line = none) :
    consume_line from_slice request self (line ++ [LF]) = .ok (self, none) := by
  rw [consume_line, line_payload_concat, h]

/-- The line `[DONE]`. -/
theorem consume_line_done (self : Progress) {line : Bytes} (h : payload line = some DONE) :
    consume_line from_slice request self (line ++ [LF]) =
      .ok ({ self with done := true }, none) := by
  rw [consume_line, line_payload_concat, h]
  exact if_pos rfl

/-- A line with data. -/
theorem consume_line_data (self : Progress) {line data : Bytes} (h : payload line = some data)
    (hd : data ≠ DONE) :
    consume_line from_slice request self (line ++ [LF]) =
      match from_slice data with
      | none => .error .RuntimeProtocol
      | some value => consume_chunk request self value := by
  rw [consume_line, line_payload_concat, h]
  exact if_neg hd

/-! ## Many lines -/

/-- Lines before `[DONE]` are read as the reference decoder reads their payloads,
    whatever comes after them. -/
theorem consume_lines_spec (from_slice : Bytes → Option Value)
    (h : Agrees request self answer) (lines : List Bytes)
    (hdone : ∀ line ∈ lines, payload line ≠ some DONE) (more : List Bytes) :
    match consume_lines from_slice request self lines with
    | (deltas, .error e) => e = .RuntimeProtocol ∧
        ∃ answer', answer'.deltas = answer.deltas ++ deltas ∧
        decode from_slice request answer (lines.filterMap payload ++ more) = (answer', false)
    | (deltas, .ok self') => ∃ answer', Agrees request self' answer' ∧ self'.done = self.done ∧
        answer'.deltas = answer.deltas ++ deltas ∧
        decode from_slice request answer (lines.filterMap payload ++ more) =
          decode from_slice request answer' more := by
  induction lines generalizing self answer with
  | nil => exact ⟨answer, h, rfl, (List.append_nil _).symm, rfl⟩
  | cons line lines ih =>
    have hlines : ∀ l ∈ lines, payload l ≠ some DONE := fun l hl =>
      hdone l (List.mem_cons_of_mem _ hl)
    rw [consume_lines]
    cases hp : payload line with
    | none =>
      rw [consume_line_of_none self hp, List.filterMap_cons_none hp]
      simpa using ih h hlines
    | some data =>
      have hd : data ≠ DONE := fun e => hdone line List.mem_cons_self (e ▸ hp)
      rw [consume_line_data self hp hd, List.filterMap_cons_some hp, List.cons_append, decode,
        if_neg hd]
      cases hv : from_slice data with
      | none => exact ⟨rfl, answer, (List.append_nil _).symm, rfl⟩
      | some value =>
        have hspec := consume_chunk_spec h value
        simp only [Option.bind_some]
        cases hext : answer.extend request value with
        | none =>
          rw [hext] at hspec
          rw [hspec]
          exact ⟨rfl, answer, (List.append_nil _).symm, rfl⟩
        | some next =>
          rw [hext] at hspec
          obtain ⟨self', delta, hc, hagrees, hdone', hdeltas⟩ := hspec
          simp only [hc]
          -- The rest of the lines, from the extended answer.
          have hrest := ih hagrees hlines
          split at hrest
          · rename_i deltas e heq
            obtain ⟨he, answer', ha, hdec⟩ := hrest
            simp only [heq]
            exact ⟨he, answer', by rw [ha, hdeltas, List.append_assoc], hdec⟩
          · rename_i deltas self'' heq
            obtain ⟨answer', hagrees', hdone'', ha, hdec⟩ := hrest
            simp only [heq]
            exact ⟨answer', hagrees', hdone''.trans hdone',
              by rw [ha, hdeltas, List.append_assoc], hdec⟩

theorem count_delta_done {delta sent : Option String} {self' : Progress}
    (h : count_delta request self delta = .ok (self', sent)) : self'.done = self.done := by
  unfold count_delta at h
  split at h
  · cases h; rfl
  · split at h
    · cases h; rfl
    · split at h
      · cases h
      · split at h
        · cases h
        · cases h; rfl

theorem consume_chunk_done {value : Value} {delta : Option String} {self' : Progress}
    (h : consume_chunk request self value = .ok (self', delta)) : self'.done = self.done := by
  rw [consume_chunk_eq] at h
  split at h
  · split at h
    · cases h
    · exact (count_delta_done h).trans rfl
  · cases h

/-- The decoder is done once it has met `[DONE]`. -/
theorem consume_lines_done {lines : List Bytes} {deltas : List String} {self' : Progress}
    (h : consume_lines from_slice request self lines = (deltas, .ok self')) :
    self'.done = true ↔ self.done = true ∨ ∃ line ∈ lines, payload line = some DONE := by
  induction lines generalizing self deltas with
  | nil =>
    cases h
    simp
  | cons line lines ih =>
    rw [consume_lines] at h
    split at h
    · cases h
    · rename_i next delta hl
      obtain ⟨-, hrest⟩ := Prod.mk.inj h
      rw [ih (Prod.ext rfl hrest), List.exists_mem_cons_iff, ← or_assoc]
      refine or_congr_left ?_
      cases hp : payload line with
      | none =>
        rw [consume_line_of_none self hp] at hl
        cases hl
        simp
      | some data =>
        by_cases hd : data = DONE
        · subst hd
          rw [consume_line_done self hp] at hl
          cases hl
          simp
        · rw [consume_line_data self hp hd] at hl
          split at hl
          · cases hl
          · rw [consume_chunk_done hl]
            simp [hd]

/-! ## Many chunks -/

/-- Every chunk fits the buffer when it arrives: the pending line of what was
    read before it, and the chunk, are within the bound. -/
def FitsBuffer (read : Bytes) : List Bytes → Prop
  | [] => True
  | chunk :: chunks =>
    (Lines.pending LF read).length + chunk.length ≤ MAX_SSE_LINE_BYTES ∧
      FitsBuffer (read ++ chunk) chunks

instance FitsBuffer.decidable : ∀ read chunks, Decidable (FitsBuffer read chunks)
  | _, [] => .isTrue trivial
  | read, chunk :: chunks => @instDecidableAnd _ _ _ (FitsBuffer.decidable (read ++ chunk) chunks)

/-- One chunk: its lines are those that it completes. -/
theorem feed_eq {read chunk : Bytes}
    (hfits : (Lines.pending LF read).length + chunk.length ≤ MAX_SSE_LINE_BYTES) (self : Progress) :
    feed from_slice request self (Lines.pending LF read) chunk =
      let r := consume_lines from_slice request self
        (Lines.complete LF (Lines.pending LF read ++ chunk))
      (r.1, r.2.map (·, Lines.pending LF (read ++ chunk))) := by
  rw [feed, if_neg (not_lt.2 hfits), drain_eq, ← Lines.pending_append]

/-- Chunks before `[DONE]` are read as the lines they complete, wherever they
    are cut. -/
theorem consume_chunks_append (from_slice : Bytes → Option Value) (request : NormalizedRequest)
    (self : Progress) {read : Bytes} {chunks : List Bytes}
    (hfits : FitsBuffer read chunks) (hself : self.done = false)
    (hdone : ∀ line ∈ Lines.complete LF (Lines.pending LF read ++ chunks.flatten),
      payload line ≠ some DONE) (more : List (Except Unit Bytes)) :
    consume_chunks from_slice request self (Lines.pending LF read) (chunks.map .ok ++ more) =
      match consume_lines from_slice request self
        (Lines.complete LF (Lines.pending LF read ++ chunks.flatten)) with
      | (deltas, .error e) => (deltas, .error e)
      | (deltas, .ok self) =>
        let rest := consume_chunks from_slice request self
          (Lines.pending LF (read ++ chunks.flatten)) more
        (deltas ++ rest.1, rest.2) := by
  induction chunks generalizing read self with
  | nil =>
    have hnone := Lines.complete_of_notMem (Lines.notMem_pending LF read)
    simp [hnone, consume_lines]
  | cons chunk chunks ih =>
    -- The lines this chunk completes, and those of the chunks after it.
    have hlines : Lines.complete LF (Lines.pending LF read ++ (chunk :: chunks).flatten) =
        Lines.complete LF (Lines.pending LF read ++ chunk) ++
          Lines.complete LF (Lines.pending LF (read ++ chunk) ++ chunks.flatten) := by
      rw [List.flatten_cons, ← List.append_assoc, Lines.complete_append, ← Lines.pending_append]
    rw [hlines] at hdone ⊢
    rw [List.map_cons, List.cons_append, consume_chunks, feed_eq hfits.1, consume_lines_append]
    rcases hr : consume_lines from_slice request self
      (Lines.complete LF (Lines.pending LF read ++ chunk)) with ⟨deltas, e | next⟩
    · rfl
    · have hnext : next.done = false := by
        rw [← Bool.not_eq_true, consume_lines_done hr, hself]
        rintro (h | ⟨line, hl, hp⟩)
        · cases h
        · exact hdone line (List.mem_append_left _ hl) hp
      have hrest := ih next hfits.2 hnext fun line hl => hdone line (List.mem_append_right _ hl)
      simp only [Except.map, hnext, Bool.false_eq_true, if_false, hrest, List.flatten_cons,
        List.append_assoc]
      split <;> simp_all

/-- The response to some lines, and what is pending after them. -/
def respond (r : List String × Except EngineError Progress) (rest : Bytes) :
    List GenerationEvent × Except EngineError Unit :=
  match r with
  | (deltas, .error e) => (deltas.map .Delta, .error e)
  | (deltas, .ok self) => (deltas.map .Delta ++ (conclude self rest).1, (conclude self rest).2)

/-- Without `[DONE]` the end is an error. -/
theorem conclude_of_not_done (h : self.done = false) (rest : Bytes) :
    conclude self rest = ([], .error .RuntimeProtocol) := by
  simp [conclude, h]

/-- A response without `[DONE]` is read to its end. -/
theorem consume_sse_of_undone {chunks : List Bytes} (hfits : FitsBuffer [] chunks)
    (hdone : ∀ line ∈ Lines.complete LF chunks.flatten, payload line ≠ some DONE) :
    consume_sse from_slice request (chunks.map .ok) =
      respond (consume_lines from_slice request {} (Lines.complete LF chunks.flatten))
        (Lines.pending LF chunks.flatten) := by
  have h := consume_chunks_append from_slice request {} hfits rfl hdone []
  simp only [Lines.pending_nil, List.nil_append, List.append_nil] at h
  rw [consume_sse, h]
  rcases hr : consume_lines from_slice request {} (Lines.complete LF chunks.flatten)
    with ⟨deltas, e | next⟩
  · rfl
  · simp [respond, consume_chunks]

/-- These bytes end with the line feed of their first `[DONE]` line. -/
def EndsAtDone (bytes : Bytes) : Prop :=
  ∃ before, bytes = before ++ [LF] ∧ payload (Lines.pending LF before) = some DONE ∧
    ∀ line ∈ Lines.complete LF before, payload line ≠ some DONE

/-- What came in the same chunk as the byte number `n`, after it. -/
def same_chunk (n : Nat) : List Bytes → Bytes
  | [] => []
  | chunk :: chunks =>
    if n ≤ chunk.length then chunk.drop n else same_chunk (n - chunk.length) chunks

/-- The chunk that holds the byte number `n`. -/
theorem exists_chunk (n : Nat) {chunks : List Bytes} (hpos : 0 < n)
    (hn : n ≤ chunks.flatten.length) :
    ∃ before chunk after, chunks = before ++ chunk :: after ∧ before.flatten.length < n ∧
      n ≤ (before.flatten ++ chunk).length ∧
      same_chunk n chunks = (before.flatten ++ chunk).drop n := by
  induction chunks generalizing n with
  | nil => simp at hn; omega
  | cons chunk chunks ih =>
    by_cases hc : n ≤ chunk.length
    · exact ⟨[], chunk, chunks, rfl, hpos, hc, by simp [same_chunk, hc]⟩
    · rw [List.flatten_cons, List.length_append] at hn
      obtain ⟨before, c, after, rfl, hlt, hle, hsame⟩ := ih (n - chunk.length) (by omega) (by omega)
      refine ⟨chunk :: before, c, after, rfl, ?_, ?_, ?_⟩
      · rw [List.flatten_cons, List.length_append]
        omega
      · rw [List.flatten_cons, List.append_assoc, List.length_append]
        omega
      · have hsum : n = chunk.length + (n - chunk.length) := by omega
        rw [same_chunk, if_neg hc, hsame, List.flatten_cons, List.append_assoc]
        conv_rhs => rw [hsum, List.drop_length_add_append]

/-- A buffer that fits both parts fits the whole. -/
theorem fitsBuffer_append {read : Bytes} {a b : List Bytes} :
    FitsBuffer read (a ++ b) ↔ FitsBuffer read a ∧ FitsBuffer (read ++ a.flatten) b := by
  induction a generalizing read with
  | nil => simp [FitsBuffer]
  | cons chunk a ih => simp [FitsBuffer, ih, and_assoc]

/-- No part of a line is left after `[DONE]`. -/
theorem EndsAtDone.pending {bytes : Bytes} (h : EndsAtDone bytes) :
    Lines.pending LF bytes = [] := by
  obtain ⟨before, rfl, -, -⟩ := h
  exact Lines.pending_concat_sep before

/-- Reading up to the chunk that completes `[DONE]`: what comes in later chunks
    is never read. -/
theorem consume_sse_of_chunk (from_slice : Bytes → Option Value) (request : NormalizedRequest)
    {before : List Bytes} {chunk : Bytes}
    (hfits : FitsBuffer [] (before ++ [chunk]))
    (hbefore : ∀ line ∈ Lines.complete LF before.flatten, payload line ≠ some DONE)
    (hchunk : ∃ line ∈ Lines.complete LF (before.flatten ++ chunk), payload line = some DONE)
    (after : List (Except Unit Bytes)) :
    consume_sse from_slice request ((before ++ [chunk]).map .ok ++ after) =
      respond (consume_lines from_slice request {} (Lines.complete LF (before.flatten ++ chunk)))
        (Lines.pending LF (before.flatten ++ chunk)) := by
  obtain ⟨hfits, hfit, -⟩ := fitsBuffer_append.1 hfits
  have h := consume_chunks_append from_slice request {} hfits rfl hbefore (.ok chunk :: after)
  simp only [Lines.pending_nil, List.nil_append] at h hfit
  rw [Lines.complete_append, consume_lines_append, consume_sse, List.map_append, List.append_assoc,
    List.map_singleton, List.singleton_append, h]
  rcases hr : consume_lines from_slice request {} (Lines.complete LF before.flatten)
    with ⟨deltas, e | next⟩
  · rfl
  · simp only [consume_chunks, feed_eq hfit]
    rcases hr' : consume_lines from_slice request next
      (Lines.complete LF (Lines.pending LF before.flatten ++ chunk)) with ⟨deltas', e | last⟩
    · rfl
    · have hlast : last.done = true := by
        obtain ⟨line, hl, hp⟩ := hchunk
        rw [Lines.complete_append, List.mem_append] at hl
        exact (consume_lines_done hr').2 (hl.elim (fun hl => absurd hp (hbefore line hl))
          fun hl => .inr ⟨line, hl, hp⟩)
      simp [Except.map, hlast, respond]

/-- A response with `[DONE]` is read to the end of the chunk that brings its
    line feed. -/
theorem consume_sse_of_done {bytes : Bytes} (hend : EndsAtDone bytes) {chunks : List Bytes}
    (hfits : FitsBuffer [] chunks) {more : Bytes} (hchunks : chunks.flatten = bytes ++ more) :
    let tail := same_chunk bytes.length chunks
    consume_sse from_slice request (chunks.map .ok) =
      respond (consume_lines from_slice request {}
        (Lines.complete LF bytes ++ Lines.complete LF tail)) (Lines.pending LF tail) := by
  have hpending := hend.pending
  obtain ⟨start, rfl, hdone, hstart⟩ := hend
  obtain ⟨before, chunk, after, rfl, hlt, hle, htail⟩ :=
    exists_chunk (start ++ [LF]).length (by simp)
      (hchunks ▸ (List.prefix_append _ more).length_le)
  intro tail
  have hsplit : (before ++ chunk :: after).flatten =
      (before.flatten ++ chunk) ++ after.flatten := by simp
  rw [hsplit] at hchunks
  -- The chunk ends the `[DONE]` line, and goes on with the tail.
  have hread : before.flatten ++ chunk = (start ++ [LF]) ++ tail := by
    have htake : (before.flatten ++ chunk).take (start ++ [LF]).length = start ++ [LF] := by
      rw [← List.take_append_of_le_length hle, hchunks, List.take_left]
    conv_lhs => rw [← List.take_append_drop (start ++ [LF]).length (before.flatten ++ chunk), htake]
    exact congrArg _ htail.symm
  have hstart : before.flatten <+: start := by
    have hstart : start <+: (start ++ [LF]) ++ tail := ⟨[LF] ++ tail, by simp⟩
    refine List.prefix_of_prefix_length_le ⟨chunk, hread⟩ hstart ?_
    rw [List.length_append, List.length_singleton] at hlt
    omega
  obtain ⟨rest, hrest⟩ := hstart
  have hbefore : ∀ line ∈ Lines.complete LF before.flatten, payload line ≠ some DONE :=
    fun line hl => hstart line (by
      rw [← hrest, Lines.complete_append]
      exact List.mem_append_left _ hl)
  have hcomplete : Lines.complete LF (before.flatten ++ chunk) =
      Lines.complete LF (start ++ [LF]) ++ Lines.complete LF tail := by
    rw [hread, Lines.complete_append, hpending, List.nil_append]
  have hlast : ∃ line ∈ Lines.complete LF (before.flatten ++ chunk), payload line = some DONE :=
    ⟨_, by rw [hcomplete, Lines.complete_concat_sep]; simp, hdone⟩
  have hfits' : FitsBuffer [] (before ++ [chunk]) := by
    rw [fitsBuffer_append] at hfits ⊢
    exact ⟨hfits.1, hfits.2.1, trivial⟩
  have h := consume_sse_of_chunk from_slice request hfits' hbefore hlast (after.map .ok)
  rw [← List.map_append, List.append_assoc, List.singleton_append] at h
  rw [h, hcomplete, hread, Lines.pending_append, hpending, List.nil_append]

/-- A response that ends with its first `[DONE]` line. -/
theorem consume_sse_of_exactly_done {bytes : Bytes} (hend : EndsAtDone bytes) {chunks : List Bytes}
    (hfits : FitsBuffer [] chunks) (hchunks : chunks.flatten = bytes) :
    consume_sse from_slice request (chunks.map .ok) =
      respond (consume_lines from_slice request {} (Lines.complete LF bytes)) [] := by
  have htail : same_chunk bytes.length chunks = [] := by
    have hpos : 0 < bytes.length := by
      obtain ⟨before, rfl, -, -⟩ := hend
      simp
    obtain ⟨before, chunk, after, rfl, -, -, h⟩ :=
      exists_chunk bytes.length hpos (by rw [hchunks])
    rw [h, List.drop_eq_nil_iff, ← hchunks]
    simp
  rw [consume_sse_of_done hend hfits (hchunks.trans (List.append_nil _).symm), htail]
  simp

/-! ## The whole response -/

/-- Nothing follows a `[DONE]` line: it is the last line, and its line feed the
    last byte. -/
def NothingAfterDone (response : Bytes) : Prop :=
  (∀ line ∈ (Lines.complete LF response).dropLast, payload line ≠ some DONE) ∧
    (Lines.pending LF response ≠ [] →
      ∀ line ∈ Lines.complete LF response, payload line ≠ some DONE)

instance (response : Bytes) : Decidable (NothingAfterDone response) :=
  inferInstanceAs (Decidable (_ ∧ _))

theorem NothingAfterDone.after {before after : Bytes}
    (h : NothingAfterDone (before ++ LF :: after))
    (hp : payload (Lines.pending LF before) = some DONE) : after = [] := by
  have hsplit : before ++ LF :: after = (before ++ [LF]) ++ after := by simp
  have hcomplete : Lines.complete LF (before ++ LF :: after) =
      (Lines.complete LF before ++ [Lines.pending LF before]) ++ Lines.complete LF after := by
    rw [hsplit, Lines.complete_append, Lines.complete_concat_sep, Lines.pending_concat_sep,
      List.nil_append]
  have hpending : Lines.pending LF (before ++ LF :: after) = Lines.pending LF after := by
    rw [hsplit, Lines.pending_append, Lines.pending_concat_sep, List.nil_append]
  obtain ⟨hlines, hrest⟩ := h
  rw [hcomplete] at hlines hrest
  rw [hpending] at hrest
  -- No line after `[DONE]`, and then no pending one.
  have hnone : Lines.complete LF after = [] := by
    by_contra hne
    rw [List.dropLast_append_of_ne_nil hne] at hlines
    exact hlines _ (by simp) hp
  have hnil : Lines.pending LF after = [] := by
    by_contra hne
    exact hrest hne _ (by simp) hp
  rw [← Lines.flatten_complete LF after, hnone, hnil]
  rfl

/-- A response with a `[DONE]` line has a first one. -/
theorem exists_endsAtDone {response : Bytes}
    (h : ∃ line ∈ Lines.complete LF response, payload line = some DONE) :
    ∃ bytes more, response = bytes ++ more ∧ EndsAtDone bytes := by
  induction response using Lines.induction_on_lines LF with
  | tail response hl => simp [Lines.complete_of_notMem hl] at h
  | line line rest hline ih =>
    by_cases hp : payload line = some DONE
    · exact ⟨line ++ [LF], rest, by simp, line, rfl,
        by rwa [Lines.pending_of_notMem hline], by simp [Lines.complete_of_notMem hline]⟩
    · rw [Lines.complete_line hline] at h
      obtain ⟨l, hl, hdone⟩ := h
      rcases List.mem_cons.1 hl with rfl | hl
      · exact absurd hdone hp
      obtain ⟨_, more, rfl, before, rfl, hpending, hbefore⟩ := ih ⟨l, hl, hdone⟩
      refine ⟨line ++ LF :: before ++ [LF], more, by simp, line ++ LF :: before, rfl, ?_, ?_⟩
      · rwa [Lines.pending_line hline]
      · rw [Lines.complete_line hline]
        exact List.forall_mem_cons.2 ⟨hp, hbefore⟩

/-- The reference decoder on a response without `[DONE]`. -/
theorem reference_of_undone {response : Bytes}
    (hdone : ∀ line ∈ Lines.complete LF response, payload line ≠ some DONE) (rest : Bytes) :
    reference from_slice request response =
      respond (consume_lines from_slice request {} (Lines.complete LF response)) rest := by
  have h := consume_lines_spec from_slice (agrees_init request) (Lines.complete LF response)
    hdone []
  rw [List.append_nil] at h
  split at h
  · rename_i deltas e heq
    obtain ⟨rfl, answer, hdeltas, hdecode⟩ := h
    simp only [heq, reference, hdecode, respond, Answer.events, hdeltas, List.nil_append]
  · rename_i deltas self heq
    obtain ⟨answer, -, hself, hdeltas, hdecode⟩ := h
    simp only [heq, reference, hdecode, respond, Answer.events, hdeltas, decode,
      conclude_of_not_done hself, List.nil_append, List.append_nil]

/-- The reference decoder on a response that ends with `[DONE]`. -/
theorem reference_of_done {bytes : Bytes} (hend : EndsAtDone bytes) :
    reference from_slice request bytes =
      respond (consume_lines from_slice request {} (Lines.complete LF bytes)) [] := by
  obtain ⟨before, rfl, hp, hbefore⟩ := hend
  have h := consume_lines_spec from_slice (agrees_init request) (Lines.complete LF before) hbefore
    [DONE]
  rw [reference, Lines.complete_concat_sep, consume_lines_append, List.filterMap_append,
    List.filterMap_cons_some hp, List.filterMap_nil]
  split at h
  · rename_i deltas e heq
    obtain ⟨rfl, answer, hdeltas, hdecode⟩ := h
    simp only [heq, hdecode, respond, Answer.events, hdeltas, List.nil_append]
  · rename_i deltas self heq
    obtain ⟨answer, hagrees, -, hdeltas, hdecode⟩ := h
    simp only [heq, hdecode, decode, if_true, respond, consume_lines, consume_line_done self hp,
      Answer.events, hdeltas, conclude, ← hagrees.usage, ← hagrees.finish, List.nil_append,
      List.append_nil, Option.toList_none]
    cases self.usage <;> cases self.finish <;> simp

/-- Incremental decoding is decoding the whole response, wherever the network
    cuts it. -/
theorem consume_sse_eq_reference (from_slice : Bytes → Option Value) (request : NormalizedRequest)
    {response : Bytes} (hlast : NothingAfterDone response) {chunks : List Bytes}
    (hcut : chunks.flatten = response) (hfits : FitsBuffer [] chunks) :
    consume_sse from_slice request (chunks.map .ok) = reference from_slice request response := by
  subst hcut
  by_cases hdone : ∃ line ∈ Lines.complete LF chunks.flatten, payload line = some DONE
  · obtain ⟨bytes, more, hchunks, hend⟩ := exists_endsAtDone hdone
    -- Nothing comes after `[DONE]`, so neither in the same chunk.
    obtain ⟨before, rfl, hp, hbefore⟩ := hend
    rw [hchunks, List.append_assoc, List.singleton_append] at hlast
    obtain rfl := hlast.after hp
    have hend : EndsAtDone (before ++ [LF]) := ⟨before, rfl, hp, hbefore⟩
    rw [List.append_nil] at hchunks
    rw [consume_sse_of_exactly_done hend hfits hchunks, hchunks, reference_of_done hend]
  · push Not at hdone
    rw [consume_sse_of_undone hfits hdone, reference_of_undone hdone]

/-- The response `data: {}`, `[DONE]`, cut inside `data:` and between a carriage
    return and its line feed. -/
theorem consume_sse_eq_reference_cut :
    consume_sse (fun data => if data = [123, 125] then some (.object []) else none)
        ⟨.Completion "", 1, 0, 1, none, []⟩
        ([[100, 97], [116, 97, 58, 32, 123, 125, 13], [10] ++ DATA ++ DONE ++ [10]].map .ok) =
      reference (fun data => if data = [123, 125] then some (.object []) else none)
        ⟨.Completion "", 1, 0, 1, none, []⟩
        (DATA ++ [32, 123, 125, 13, 10] ++ DATA ++ DONE ++ [10]) := by
  exact consume_sse_eq_reference _ _ (by decide) (by decide) (by decide)

end Inferences.Engine
