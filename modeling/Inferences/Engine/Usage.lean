import Inferences.Engine.Trailing

/-!
# The usage of an answer

`consume_sse` reports one usage, after the deltas, and only of a response that
is a whole answer (`Whole`). It is the last usage of what it reads
(`usage_event_iff`), that is, of the lines up to `[DONE]` and of those that came
after it in the same chunk.

Its total is checked with a saturating sum. The total is thus the sum of the
two counts as long as these fit 32 bits together, and only then: `4294967295`
prompt tokens and one completion token are reported as `4294967295` tokens in
all. And it is the last usage of the stream as long as the lines after `[DONE]`
report no other (`reports_sum_iff`).
-/

namespace Inferences.Engine

open Json

/-- The usage object of a chunk. -/
def usage_object (value : Value) : Option Value :=
  (value.get "usage").filter (!·.is_null)

/-- A counter of a usage object, as a natural number. -/
def counter (usage : Value) (name : String) : Option Nat :=
  ((usage.get name).bind Value.as_u64).map UInt64.toNat

/-- The bytes of a response: its chunks, up to a transport error. -/
def stream_of : List (Except Unit Bytes) → Bytes
  | [] => []
  | .error () :: _ => []
  | .ok chunk :: chunks => chunk ++ stream_of chunks

/-- The lines of a stream before its first `[DONE]` line. -/
def lines_to_done (stream : Bytes) : List Bytes :=
  (Lines.complete LF stream).takeWhile (payload · ≠ some DONE)

section
variable (from_slice : Bytes → Option Value) (request : NormalizedRequest)
  (response : List (Except Unit Bytes))

/-- The usage objects of the stream, in order. -/
def usage_objects : List Value :=
  (values_of from_slice (lines_to_done (stream_of response))).filterMap usage_object

/-- Every usage `consume_sse` reports adds up, and is the last of the stream. -/
def ReportsSum : Prop :=
  ∀ usage, .Usage usage ∈ (consume_sse from_slice request response).1 →
    usage.total_tokens.toNat = usage.prompt_tokens.toNat + usage.completion_tokens.toNat ∧
      ∃ last, (usage_objects from_slice response).getLast? = some last ∧
        counter last "prompt_tokens" = some usage.prompt_tokens.toNat ∧
        counter last "completion_tokens" = some usage.completion_tokens.toNat ∧
        counter last "total_tokens" = some usage.total_tokens.toNat

/-- A response that is a whole answer: its chunks, up to the one that brings the
    line feed of the first `[DONE]`, fit the buffer; they are `bytes`, up to that
    line feed, and then `rest`, complete lines as well; the values of all these
    lines are accepted and complete an answer. -/
structure Whole (bytes rest : Bytes) : Prop where
  read : ∃ before chunk after, response = (before ++ [chunk]).map .ok ++ after ∧
    FitsBuffer [] (before ++ [chunk]) ∧ before.flatten ++ chunk = bytes ++ rest ∧
    before.flatten.length < bytes.length
  ends : EndsAtDone bytes
  pending : Lines.pending LF rest = []
  acceptable : AcceptsLines from_slice request (Lines.complete LF bytes ++ Lines.complete LF rest)
  completes : Completes request
    (values_of from_slice (Lines.complete LF bytes ++ Lines.complete LF rest))

/-- In a whole answer, the last usage of the lines that came with `[DONE]`, if
    any, is that of the lines up to it, and the two counts of the last usage
    object of these fit 32 bits together. -/
def SumFits : Prop :=
  ∀ bytes rest, Whole from_slice request response bytes rest →
    let values := values_of from_slice (Lines.complete LF bytes)
    (∀ usage ∈ ((values_of from_slice (Lines.complete LF rest)).filterMap reported_usage).getLast?,
      usage ∈ (values.filterMap reported_usage).getLast?) ∧
    ∀ last ∈ (values.filterMap usage_object).getLast?,
      ∀ prompt ∈ counter last "prompt_tokens", ∀ completion ∈ counter last "completion_tokens",
        prompt + completion < UInt32.size

end

variable {from_slice : Bytes → Option Value} {request : NormalizedRequest}
  {self self' : Progress}

/-! ## One usage object -/

/-- The usage read in a usage object: its three counters, the total being the
    saturating sum of the two others. -/
structure Reads (object : Value) (usage : TokenUsage) : Prop where
  prompt_tokens : counter object "prompt_tokens" = some usage.prompt_tokens.toNat
  completion_tokens : counter object "completion_tokens" = some usage.completion_tokens.toNat
  total_tokens : counter object "total_tokens" = some usage.total_tokens.toNat
  sum : saturating_add usage.prompt_tokens usage.completion_tokens = usage.total_tokens

/-- A counter that is read is the one reported. -/
theorem read_counter_ok {usage : Value} {name : String} {n : UInt32}
    (h : read_counter usage name = .ok n) : counter usage name = some n.toNat := by
  unfold read_counter at h
  split at h
  · rename_i m hm
    obtain rfl := Except.ok.inj h
    obtain ⟨wide, hwide, hnarrow⟩ := Option.bind_eq_some_iff.1 hm
    rw [u32_try_from, Option.ite_none_right_eq_some] at hnarrow
    obtain ⟨hlt, hnarrow⟩ := hnarrow
    obtain rfl := Option.some.inj hnarrow
    rw [counter, hwide, Option.map_some, UInt64.toNat_toUInt32, Nat.mod_eq_of_lt hlt]
  · cases h

/-- The saturating sum is the sum when this fits 32 bits, and only then. -/
theorem saturating_add_toNat_iff (a b : UInt32) :
    (saturating_add a b).toNat = a.toNat + b.toNat ↔ a.toNat + b.toNat < UInt32.size := by
  have hbound : (saturating_add a b).toNat < UInt32.size := UInt32.toNat_lt_size _
  refine ⟨fun h => h ▸ hbound, fun h => ?_⟩
  rw [saturating_add, if_pos h, UInt32.toNat_add]
  exact Nat.mod_eq_of_lt h

/-- A chunk that can be read reports the usage in its usage object. -/
theorem parse_usage_ok {value : Value} {reported : Option TokenUsage}
    (h : parse_usage value = .ok reported) :
    Option.Rel Reads (usage_object value) reported := by
  unfold parse_usage at h
  split at h
  · rename_i hget
    obtain rfl := Except.ok.inj h
    simp [usage_object, hget]
  · rename_i object hget
    split at h
    · rename_i hnull
      obtain rfl := Except.ok.inj h
      simp [usage_object, hget, hnull, Option.filter]
    · rename_i hnull
      -- three counters, read one after the other, and the check of their sum
      obtain ⟨prompt, hprompt, h⟩ := bind_ok h
      obtain ⟨completion, hcompletion, h⟩ := bind_ok h
      obtain ⟨total, htotal, h⟩ := bind_ok h
      split at h
      · cases h
      · rename_i hsum
        obtain rfl := Except.ok.inj h
        have hobject : usage_object value = some object := by
          simp [usage_object, hget, hnull, Option.filter]
        rw [hobject]
        exact .some ⟨read_counter_ok hprompt, read_counter_ok hcompletion,
          read_counter_ok htotal, not_not.1 hsum⟩

/-- A usage that can be read is the one reported. -/
theorem reported_of_readable {value : Value} (h : readable request value) :
    Option.Rel Reads (usage_object value) (reported_usage value) := by
  cases hp : parse_usage value with
  | error e => simp [readable, hp, Except.isOk, Except.toBool] at h
  | ok reported =>
    rw [reported_usage, hp]
    simpa [Except.toOption] using parse_usage_ok hp

/-- The last usage reported is the one in the last usage object. -/
theorem last_reported {values : List Value} (h : ∀ value ∈ values, readable request value) :
    Option.Rel Reads (values.filterMap usage_object).getLast?
      (values.filterMap reported_usage).getLast? := by
  -- from the end, where the last one is
  induction values using List.reverseRecOn with
  | nil => exact .none
  | append_singleton values value ih =>
    have hvalue := reported_of_readable (h value (by simp))
    have hvalues := ih fun v hv => h v (List.mem_append_left _ hv)
    rw [List.filterMap_append, List.filterMap_append]
    cases hobject : usage_object value with
    | none =>
      rw [hobject] at hvalue
      cases hreported : reported_usage value with
      | none => simpa [hobject, hreported] using hvalues
      | some usage => rw [hreported] at hvalue; cases hvalue
    | some object =>
      rw [hobject] at hvalue
      cases hreported : reported_usage value with
      | none => rw [hreported] at hvalue; cases hvalue
      | some usage =>
        rw [hreported] at hvalue
        simpa [hobject, hreported] using hvalue

/-! ## The whole response -/

/-- The lines a chunk completes, then those that what follows it completes. -/
theorem complete_chunk_append (read chunk rest : Bytes) :
    Lines.complete LF (Lines.pending LF read ++ (chunk ++ rest)) =
      Lines.complete LF (Lines.pending LF read ++ chunk) ++
        Lines.complete LF (Lines.pending LF (read ++ chunk) ++ rest) := by
  rw [← List.append_assoc, Lines.complete_append, ← Lines.pending_append]

/-- A response read to the end of `[DONE]` without an error. -/
theorem consume_chunks_done {read : Bytes} {response : List (Except Unit Bytes)}
    {deltas : List String} {buffer : Bytes} (hself : self.done = false)
    (h : consume_chunks from_slice request self (Lines.pending LF read) response =
      (deltas, .ok (self', buffer))) (hdone : self'.done = true) :
    ∃ before chunk after, response = (before ++ [chunk]).map .ok ++ after ∧
      FitsBuffer read (before ++ [chunk]) ∧
      (∀ line ∈ Lines.complete LF (Lines.pending LF read ++ before.flatten),
        payload line ≠ some DONE) ∧
      ∃ line ∈ Lines.complete LF (Lines.pending LF read ++ (before.flatten ++ chunk)),
        payload line = some DONE := by
  induction response generalizing self read deltas with
  | nil =>
    cases h
    rw [hself] at hdone
    cases hdone
  | cons next response ih =>
    rcases next with ⟨⟨⟩⟩ | chunk
    · cases h
    by_cases hfit : (Lines.pending LF read).length + chunk.length ≤ MAX_SSE_LINE_BYTES
    · rw [consume_chunks, feed_eq hfit] at h
      rcases hlines : consume_lines from_slice request self
        (Lines.complete LF (Lines.pending LF read ++ chunk)) with ⟨sent, e | after⟩
      · rw [hlines] at h
        cases h
      · rw [hlines] at h
        simp only [Except.map] at h
        -- what is pending has no line of its own, so `[DONE]` is in a line of this chunk
        have hnone : Lines.complete LF (Lines.pending LF read) = [] :=
          Lines.complete_of_notMem (Lines.notMem_pending LF read)
        have hiff := consume_lines_done hlines
        rw [hself] at hiff
        simp only [Bool.false_eq_true, false_or] at hiff
        split at h
        · -- This chunk brings `[DONE]`.
          rename_i hafter
          exact ⟨[], chunk, response, rfl, ⟨hfit, trivial⟩, by simp [hnone], hiff.1 hafter⟩
        · rename_i hafter
          obtain ⟨-, hrest⟩ := Prod.mk.inj h
          obtain ⟨before, last, rest, rfl, hfits, hbefore, hlast⟩ :=
            ih (by simpa using hafter) (Prod.ext rfl hrest)
          refine ⟨chunk :: before, last, rest, rfl, ⟨hfit, hfits⟩, ?_, ?_⟩
          · rw [List.flatten_cons, complete_chunk_append]
            intro line hl
            rcases List.mem_append.1 hl with hl | hl
            · exact fun hp => hafter (hiff.2 ⟨line, hl, hp⟩)
            · exact hbefore line hl
          · obtain ⟨line, hl, hp⟩ := hlast
            refine ⟨line, ?_, hp⟩
            rw [List.flatten_cons, List.append_assoc, complete_chunk_append]
            exact List.mem_append_right _ hl
    · rw [consume_chunks, feed, if_pos (not_le.1 hfit)] at h
      cases h

/-! ## Up to `[DONE]` -/

/-- The lines up to `[DONE]`, and after it. -/
theorem EndsAtDone.complete_append {bytes : Bytes} (h : EndsAtDone bytes) (rest : Bytes) :
    Lines.complete LF (bytes ++ rest) = Lines.complete LF bytes ++ Lines.complete LF rest := by
  rw [Lines.complete_append, h.pending, List.nil_append]

/-- What comes before the chunk of `[DONE]` does not hold it. -/
theorem EndsAtDone.undone_before {bytes read chunk rest : Bytes} (h : EndsAtDone bytes)
    (hread : read ++ chunk = bytes ++ rest) (hlt : read.length < bytes.length) :
    ∀ line ∈ Lines.complete LF read, payload line ≠ some DONE := by
  obtain ⟨start, rfl, -, hstart⟩ := h
  have hprefix : read <+: start := by
    refine List.prefix_of_prefix_length_le ⟨chunk, hread⟩ ⟨[LF] ++ rest, by simp⟩ ?_
    rw [List.length_append, List.length_singleton] at hlt
    omega
  obtain ⟨more, rfl⟩ := hprefix
  intro line hl
  refine hstart line ?_
  rw [Lines.complete_append]
  exact List.mem_append_left _ hl

/-- The chunk of `[DONE]` is the first that holds it. -/
theorem EndsAtDone.length_lt {bytes read chunk rest : Bytes} (h : EndsAtDone bytes)
    (hread : read ++ chunk = bytes ++ rest)
    (hundone : ∀ line ∈ Lines.complete LF read, payload line ≠ some DONE) :
    read.length < bytes.length := by
  by_contra hle
  obtain ⟨more, rfl⟩ : bytes <+: read :=
    List.prefix_of_prefix_length_le ⟨rest, hread.symm⟩ (List.prefix_append read chunk)
      (not_lt.1 hle)
  obtain ⟨start, rfl, hdone, -⟩ := h
  refine hundone (Lines.pending LF start) ?_ hdone
  rw [Lines.complete_append, Lines.complete_concat_sep]
  simp

/-- The lines before the first `[DONE]`. -/
theorem EndsAtDone.lines_to_done {start : Bytes} (h : EndsAtDone (start ++ [LF])) (rest : Bytes) :
    lines_to_done (start ++ [LF] ++ rest) = Lines.complete LF start := by
  have hcomplete := h.complete_append rest
  obtain ⟨start', heq, hdone, hstart⟩ := h
  obtain rfl : start = start' := List.append_cancel_right heq
  rw [Engine.lines_to_done, hcomplete, Lines.complete_concat_sep, List.append_assoc,
    List.takeWhile_append_of_pos fun line hl => by simpa using hstart line hl,
    List.singleton_append, List.takeWhile_cons_of_neg (by simpa using hdone), List.append_nil]

theorem stream_of_append (chunks : List Bytes) (after : List (Except Unit Bytes)) :
    stream_of (chunks.map .ok ++ after) = chunks.flatten ++ stream_of after := by
  induction chunks with
  | nil => rfl
  | cons chunk chunks ih =>
    rw [List.map_cons, List.cons_append, stream_of, ih, List.flatten_cons, List.append_assoc]

/-- The usage objects of the stream of a whole answer are those of its lines up to
    `[DONE]`. -/
theorem Whole.usage_objects {response : List (Except Unit Bytes)} {bytes rest : Bytes}
    (h : Whole from_slice request response bytes rest) :
    usage_objects from_slice response =
      (values_of from_slice (Lines.complete LF bytes)).filterMap usage_object := by
  obtain ⟨before, chunk, after, rfl, -, hread, -⟩ := h.read
  have hend := h.ends
  obtain ⟨start, rfl, hdone, -⟩ := h.ends
  have hflatten : (before ++ [chunk]).flatten = start ++ [LF] ++ rest := by
    rw [List.flatten_append, List.flatten_singleton, hread]
  have hlast : values_of from_slice [Lines.pending LF start] = [] := by
    rw [values_of, data_of_silent (.inr hdone), List.filterMap_nil]
  rw [Engine.usage_objects, stream_of_append, hflatten, List.append_assoc, hend.lines_to_done,
    Lines.complete_concat_sep, values_of_append, hlast, List.append_nil]

/-- The usage that ends a response. -/
theorem usage_mem_conclude_iff {usage : TokenUsage} {buffer : Bytes} :
    .Usage usage ∈ (conclude self buffer).1 ↔
      self.done = true ∧ buffer = [] ∧ self.finish.isSome ∧ self.usage = some usage := by
  obtain ⟨finish, reported, done, count⟩ := self
  cases done <;> cases buffer <;> cases finish <;> cases reported <;>
    simp [conclude, eq_comm]

/-- When the answer has a usage, and which. -/
theorem usage_mem_respond_iff {r : List String × Except EngineError Progress} {rest : Bytes}
    {usage : TokenUsage} :
    .Usage usage ∈ (respond r rest).1 ↔
      ∃ self, r.2 = .ok self ∧ self.done = true ∧ rest = [] ∧ self.finish.isSome ∧
        self.usage = some usage := by
  obtain ⟨deltas, e | self⟩ := r
  · simp [respond]
  · simp [respond, usage_mem_conclude_iff]

/-- A usage is reported of a response that is read to the end of `[DONE]`. -/
theorem done_of_usage_event {response : List (Except Unit Bytes)} {usage : TokenUsage}
    (h : .Usage usage ∈ (consume_sse from_slice request response).1) :
    ∃ before chunk after, response = (before ++ [chunk]).map .ok ++ after ∧
      FitsBuffer [] (before ++ [chunk]) ∧
      (∀ line ∈ Lines.complete LF before.flatten, payload line ≠ some DONE) ∧
      ∃ line ∈ Lines.complete LF (before.flatten ++ chunk), payload line = some DONE := by
  rw [consume_sse] at h
  rcases hread : consume_chunks from_slice request {} [] response with ⟨deltas, e | ⟨self, buffer⟩⟩
  · simp [hread] at h
  · rw [hread] at h
    have hdone : self.done = true := by
      rcases List.mem_append.1 h with h | h
      · simp at h
      · exact (usage_mem_conclude_iff.1 h).1
    have hpending : Lines.pending LF ([] : Bytes) = [] := rfl
    rw [← hpending] at hread
    simpa using consume_chunks_done rfl hread hdone

/-- A usage is reported exactly of a whole answer, and is the last that was read
    with it. -/
theorem usage_event_iff {response : List (Except Unit Bytes)} {usage : TokenUsage} :
    .Usage usage ∈ (consume_sse from_slice request response).1 ↔
      ∃ bytes rest, Whole from_slice request response bytes rest ∧
        ((values_of from_slice (Lines.complete LF bytes ++ Lines.complete LF rest)).filterMap
          reported_usage).getLast? = some usage := by
  constructor
  · intro h
    -- There is a usage event only after `[DONE]`: cut the stream there.
    obtain ⟨before, chunk, after, rfl, hfits, hbefore, hchunk⟩ := done_of_usage_event h
    obtain ⟨bytes, rest, hread, hend⟩ := exists_endsAtDone hchunk
    have hcomplete := hend.complete_append rest
    have hpending : Lines.pending LF (bytes ++ rest) = Lines.pending LF rest := by
      rw [Lines.pending_append, hend.pending, List.nil_append]
    rw [consume_sse_of_chunk from_slice request hfits hbefore hchunk, usage_mem_respond_iff,
      hread, hcomplete, hpending] at h
    obtain ⟨self, hlines, -, hrest, hfinish, husage⟩ := h
    have hheld := held_lines (held_init from_slice request)
      (Lines.complete LF bytes ++ Lines.complete LF rest)
    rw [← Prod.eta (consume_lines from_slice request {} _), hlines, List.nil_append] at hheld
    obtain ⟨⟨hacceptable, hagrees⟩, -⟩ := hheld
    have hlast := hagrees.usage.symm.trans husage
    refine ⟨bytes, rest, ⟨⟨before, chunk, after, rfl, hfits, hread,
      hend.length_lt hread hbefore⟩, hend, hrest, hacceptable, ?_⟩, hlast⟩
    rw [completes_iff hacceptable.2, ← hagrees.finish, ← hagrees.usage, husage]
    exact ⟨rfl, hfinish⟩
  · rintro ⟨bytes, rest, hwhole, husage⟩
    obtain ⟨before, chunk, after, rfl, hfits, hread, hlt⟩ := hwhole.read
    have hend := hwhole.ends
    have hcomplete := hend.complete_append rest
    have hpending : Lines.pending LF (bytes ++ rest) = Lines.pending LF rest := by
      rw [Lines.pending_append, hend.pending, List.nil_append]
    have hchunk : ∃ line ∈ Lines.complete LF (before.flatten ++ chunk),
        payload line = some DONE := by
      obtain ⟨start, rfl, hdone, -⟩ := hend
      refine ⟨Lines.pending LF start, ?_, hdone⟩
      rw [hread, hcomplete, Lines.complete_concat_sep]
      simp
    rw [consume_sse_of_chunk from_slice request hfits (hend.undone_before hread hlt) hchunk,
      usage_mem_respond_iff]
    rw [hread, hcomplete] at hchunk ⊢
    have hheld := held_lines (held_init from_slice request)
      (Lines.complete LF bytes ++ Lines.complete LF rest)
    rw [List.nil_append] at hheld
    rcases hlines : consume_lines from_slice request {}
      (Lines.complete LF bytes ++ Lines.complete LF rest) with ⟨deltas, e | self⟩
    · rw [hlines] at hheld
      exact absurd hwhole.acceptable hheld
    · rw [hlines] at hheld
      obtain ⟨⟨hacceptable, hagrees⟩, -⟩ := hheld
      obtain ⟨-, hfinish⟩ := (completes_iff hacceptable.2).1 hwhole.completes
      refine ⟨self, rfl, (consume_lines_done hlines).2 (.inr hchunk),
        hpending.trans hwhole.pending, ?_, hagrees.usage.trans husage⟩
      rw [hagrees.finish]
      exact hfinish

/-- Usages read in one object are the same. -/
theorem Reads.ext {object : Value} {a b : TokenUsage} (h : Reads object a)
    (hprompt : counter object "prompt_tokens" = some b.prompt_tokens.toNat)
    (hcompletion : counter object "completion_tokens" = some b.completion_tokens.toNat)
    (htotal : counter object "total_tokens" = some b.total_tokens.toNat) : a = b := by
  obtain ⟨prompt, completion, total⟩ := a
  obtain ⟨prompt', completion', total'⟩ := b
  obtain rfl := UInt32.toNat.inj (Option.some.inj (h.prompt_tokens.symm.trans hprompt))
  obtain rfl := UInt32.toNat.inj (Option.some.inj (h.completion_tokens.symm.trans hcompletion))
  obtain rfl := UInt32.toNat.inj (Option.some.inj (h.total_tokens.symm.trans htotal))
  rfl

/-- The usages reported add up and are the last of their stream exactly when the
    counts of that last usage fit 32 bits together and none other follows
    `[DONE]` in its chunk. -/
theorem reports_sum_iff (from_slice : Bytes → Option Value) (request : NormalizedRequest)
    (response : List (Except Unit Bytes)) :
    ReportsSum from_slice request response ↔ SumFits from_slice request response := by
  -- The last usage object before `[DONE]` of a whole answer, and the usage read in it.
  have hlast {bytes rest : Bytes} (h : Whole from_slice request response bytes rest) :
      Option.Rel Reads ((values_of from_slice (Lines.complete LF bytes)).filterMap
          usage_object).getLast?
        ((values_of from_slice (Lines.complete LF bytes)).filterMap reported_usage).getLast? := by
    have hreadable := (acceptsLines_append h.acceptable).2.1
    exact last_reported hreadable
  constructor
  · intro h bytes rest hwhole
    obtain ⟨usage, husage⟩ := Option.isSome_iff_exists.1
      ((completes_iff hwhole.acceptable.2).1 hwhole.completes).1
    obtain ⟨hsum, last, hobject, hprompt, hcompletion, htotal⟩ :=
      h usage (usage_event_iff.2 ⟨bytes, rest, hwhole, husage⟩)
    have hrel := hlast hwhole
    rw [hwhole.usage_objects] at hobject
    rw [hobject] at hrel
    cases hreported : ((values_of from_slice (Lines.complete LF bytes)).filterMap
        reported_usage).getLast? with
    | none => rw [hreported] at hrel; cases hrel
    | some own =>
      rw [hreported] at hrel
      cases hrel with
      | some hreads =>
        obtain rfl := hreads.ext hprompt hcompletion htotal
        refine ⟨?_, fun last' hlast' prompt hp completion hc => ?_⟩
        · refine (getLast?_append_eq_iff hreported).1 ?_
          rw [← List.filterMap_append, ← values_of_append]
          exact husage
        · rw [hobject] at hlast'
          obtain rfl := Option.some.inj hlast'
          obtain rfl := Option.some.inj (hprompt.symm.trans hp)
          obtain rfl := Option.some.inj (hcompletion.symm.trans hc)
          rw [← hreads.sum] at hsum
          exact (saturating_add_toNat_iff _ _).1 hsum
  · intro h usage hevent
    obtain ⟨bytes, rest, hwhole, husage⟩ := usage_event_iff.1 hevent
    obtain ⟨htail, hfits⟩ := h bytes rest hwhole
    have hrel := hlast hwhole
    -- the usage reported is the last before `[DONE]`
    have hreported : ((values_of from_slice (Lines.complete LF bytes)).filterMap
        reported_usage).getLast? = some usage := by
      rw [values_of_append, List.filterMap_append, List.getLast?_append] at husage
      cases hrest : ((values_of from_slice (Lines.complete LF rest)).filterMap
          reported_usage).getLast? with
      | none => rwa [hrest, Option.none_or] at husage
      | some other =>
        rw [hrest, Option.some_or] at husage
        obtain rfl := Option.some.inj husage
        exact htail other hrest
    rw [hreported] at hrel
    cases hobject : ((values_of from_slice (Lines.complete LF bytes)).filterMap
        usage_object).getLast? with
    | none => rw [hobject] at hrel; cases hrel
    | some last =>
      rw [hobject] at hrel
      cases hrel with
      | some hreads =>
        refine ⟨?_, last, hwhole.usage_objects ▸ hobject, hreads.prompt_tokens,
          hreads.completion_tokens, hreads.total_tokens⟩
        rw [← hreads.sum]
        exact (saturating_add_toNat_iff _ _).2
          (hfits last hobject _ hreads.prompt_tokens _ hreads.completion_tokens)

/-! ## The largest usage -/

/-- A last chunk whose counts fill 32 bits, and one token more. -/
def full_usage : Bytes :=
  "\x7b\"choices\":[\x7b\"finish_reason\":\"stop\"\x7d],\"usage\":\x7b".toUTF8.data.toList ++
  "\"prompt_tokens\":4294967295,\"completion_tokens\":1,".toUTF8.data.toList ++
  "\"total_tokens\":4294967295\x7d\x7d".toUTF8.data.toList

/-- A chunk whose counters add up to more than a `u32` holds. -/
def full_value : Value :=
  .object [("choices", .array [.object [("finish_reason", .string "stop")]]),
    ("usage", .object [("prompt_tokens", .number (.posInt 4294967295)),
      ("completion_tokens", .number (.posInt 1)),
      ("total_tokens", .number (.posInt 4294967295))])]

/-- The JSON parser, on that chunk. -/
def parse_full (data : Bytes) : Option Value :=
  if data = full_usage then some full_value else none

/-- A response with that chunk. -/
def full_response : Bytes :=
  DATA ++ [32] ++ full_usage ++ [LF, LF] ++ DATA ++ [32] ++ DONE ++ [LF, LF]

theorem acceptsLines_full :
    AcceptsLines parse_full one_token (Lines.complete LF full_response) ∧
      values_of parse_full (Lines.complete LF full_response) = [full_value] := by
  have hdata : data_of (Lines.complete LF full_response) = [full_usage] := by decide +kernel
  have hvalues : values_of parse_full (Lines.complete LF full_response) = [full_value] := by
    have hparse : parse_full full_usage = some full_value := if_pos rfl
    rw [values_of, hdata, List.filterMap_cons_some hparse, List.filterMap_nil]
  refine ⟨⟨?_, ?_⟩, hvalues⟩
  · rw [hdata, List.forall_mem_singleton, parse_full, if_pos rfl]
    rfl
  · rw [hvalues]
    decide +kernel

/-- The total reported is not the sum of its parts. -/
theorem reports_sum_full : ¬ ReportsSum parse_full one_token [.ok full_response] := by
  have hend : EndsAtDone (full_response.take (full_response.length - 1)) :=
    ⟨full_response.take (full_response.length - 2), by decide +kernel, by decide +kernel,
      by decide +kernel⟩
  have hsplit : full_response = full_response.take (full_response.length - 1) ++ [LF] := by
    decide +kernel
  have hcomplete := hend.complete_append [LF]
  rw [← hsplit] at hcomplete
  obtain ⟨hacceptable, hvalues⟩ := acceptsLines_full
  have hwhole : Whole parse_full one_token [.ok full_response]
      (full_response.take (full_response.length - 1)) [LF] := by
    refine ⟨⟨[], full_response, [], rfl, by decide +kernel, hsplit, by decide +kernel⟩, hend, rfl,
      ?_, ?_⟩
    · rw [← hcomplete]
      exact hacceptable
    · rw [← hcomplete, hvalues]
      decide +kernel
  intro h
  have hevent : .Usage ⟨4294967295, 1, 4294967295⟩ ∈
      (consume_sse parse_full one_token [.ok full_response]).1 := by
    refine usage_event_iff.2 ⟨_, _, hwhole, ?_⟩
    rw [← hcomplete, hvalues]
    decide +kernel
  exact absurd (h _ hevent).1 (by decide)

end Inferences.Engine
