import Inferences.Engine.Chunks

/-!
# Null members of a chunk

A chunk with a member that is null, and the chunk without it: for the usage
and the finish reason the two mean the same, and so they do for the `choices`
and the `delta` around them. The text itself is the exception: a null `text`
(of a completion) or `content` (of a chat) is malformed, an absent one sends
nothing (`delta_thin`).

So removing null members changes what `consume_sse` answers exactly when it
removes a null text the decoder reaches, and the rest of the stream would
still have sent something or completed (`consume_sse_null_iff`).
-/

namespace Inferences.Engine

open Json

/-! ## Editing members -/

/-- The value without its member `name`, if that is to be removed and null. -/
def drop_null (name : String) (removed : Bool) (value : Value) : Value :=
  match value with
  | .object members =>
    if removed ∧ (value.get name).any Value.is_null then .object (members.filter (·.1 ≠ name))
    else value
  | value => value

/-- The value with its member `name` edited. -/
def edit (name : String) (f : Value → Value) : Value → Value
  | .object members => .object (members.map fun m => (m.1, if m.1 = name then f m.2 else m.2))
  | value => value

/-- An array with its first element edited. -/
def edit_first (f : Value → Value) : Value → Value
  | .array (item :: items) => .array (f item :: items)
  | value => value

/-- The optional members of a chunk, each to be removed where it is null or not. -/
structure Members where
  usage : Bool := false
  choices : Bool := false
  finish_reason : Bool := false
  text : Bool := false
  delta : Bool := false
  content : Bool := false

/-- A choice without the null members that are removed. -/
def thin_choice (removed : Members) (choice : Value) : Value :=
  drop_null "delta" removed.delta <| drop_null "text" removed.text <|
    drop_null "finish_reason" removed.finish_reason <|
    edit "delta" (drop_null "content" removed.content) choice

/-- A chunk without those null members that are to be removed. -/
def thin (removed : Members) (value : Value) : Value :=
  drop_null "choices" removed.choices <| drop_null "usage" removed.usage <|
    edit "choices" (edit_first (thin_choice removed)) value

/-- The member a request reads the text of a choice from. -/
def text_member (request : NormalizedRequest) (choice : Value) : Option Value :=
  match request.input with
  | .Completion _ => choice.get "text"
  | .Chat _ => (choice.get "delta").bind (·.get "content")

/-- Whether that member is to be removed where it is null. -/
def text_removed (request : NormalizedRequest) (removed : Members) : Bool :=
  match request.input with
  | .Completion _ => removed.text
  | .Chat _ => removed.content

/-- Whether the text a request reads is null, and removed. -/
def null_text (request : NormalizedRequest) (chunk : Value × Members) : Bool :=
  text_removed request chunk.2 &&
    ((first_choice chunk.1).bind (text_member request)).any Value.is_null

/-! ## Reading edited members -/

/-- The other members stay. -/
theorem get_drop_null_ne (removed : Bool) (value : Value) {name other : String}
    (h : other ≠ name) : (drop_null name removed value).get other = value.get other := by
  unfold drop_null
  split
  · split
    · exact lookup_filter_ne _ h
    · rfl
  · rfl

/-- A member that is read as absent when it is null and removed. -/
def thinned (removed : Bool) (member : Option Value) : Option Value :=
  if removed ∧ member.any Value.is_null then none else member

/-- A member stays, or was null and is removed. -/
theorem thinned_cases (removed : Bool) (member : Option Value) :
    thinned removed member = member ∨
      removed = true ∧ member = some .null ∧ thinned removed member = none := by
  rcases member with _ | value
  · exact .inl (by simp [thinned])
  · cases removed with
    | false => exact .inl (by simp [thinned])
    | true =>
      cases value with
      | null => exact .inr ⟨rfl, rfl, rfl⟩
      | _ => exact .inl rfl

theorem get_drop_null_self (name : String) (removed : Bool) (value : Value) :
    (drop_null name removed value).get name = thinned removed (value.get name) := by
  rw [thinned]
  unfold drop_null
  split
  · split
    · exact lookup_filter_self _ name
    · rfl
  · rename_i hobject
    have hnone : value.get name = none := by
      cases value with
      | object members => exact absurd rfl (hobject members)
      | _ => rfl
    simp [hnone]

/-- The members after one of them is edited. -/
theorem lookup_edit (members : List (String × Value)) (f : Value → Value) (name other : String) :
    (members.map fun m => (m.1, if m.1 = name then f m.2 else m.2)).lookup other =
      (members.lookup other).map fun v => if other = name then f v else v := by
  induction members with
  | nil => rfl
  | cons m members ih =>
    rw [List.map_cons, List.lookup_cons, List.lookup_cons]
    by_cases hm : other = m.1
    · subst hm
      simp
    · have hother : (other == m.1) = false := by simpa using hm
      simp only [hother, ih]

theorem get_edit (f : Value → Value) (value : Value) (name other : String) :
    (edit name f value).get other =
      (value.get other).map fun v => if other = name then f v else v := by
  cases value with
  | object members => exact lookup_edit members f name other
  | _ => rfl

theorem drop_null_is_null (name : String) (removed : Bool) (value : Value) :
    (drop_null name removed value).is_null = value.is_null := by
  unfold drop_null
  split
  · split <;> rfl
  · rfl

theorem as_array_edit_first (f : Value → Value) (value : Value) :
    ((edit_first f value).as_array.bind List.head?) = (value.as_array.bind List.head?).map f := by
  unfold edit_first
  split
  · rfl
  · rename_i hcons
    cases value with
    | array items =>
      cases items with
      | nil => rfl
      | cons item items => exact absurd rfl (hcons item items)
    | _ => rfl

/-! ## The three readers -/

/-- A null usage is read as none. -/
theorem parse_usage_thin (removed : Members) (value : Value) :
    parse_usage (thin removed value) = parse_usage value := by
  have hget : (thin removed value).get "usage" = thinned removed.usage (value.get "usage") := by
    rw [thin, get_drop_null_ne _ _ (by decide), get_drop_null_self, get_edit]
    simp
  unfold parse_usage
  rw [hget]
  rcases thinned_cases removed.usage (value.get "usage") with h | ⟨-, hnull, h⟩
  · rw [h]
  · rw [h, hnull]
    rfl

/-- The first choice is thinned. -/
theorem first_choice_thin (removed : Members) (value : Value) :
    first_choice (thin removed value) = (first_choice value).map (thin_choice removed) := by
  have hget : (thin removed value).get "choices" =
      thinned removed.choices ((value.get "choices").map (edit_first (thin_choice removed))) := by
    rw [thin, get_drop_null_self, get_drop_null_ne _ _ (by decide), get_edit]
    simp
  rw [first_choice, hget, first_choice]
  rcases thinned_cases removed.choices
    ((value.get "choices").map (edit_first (thin_choice removed))) with h | ⟨-, hnull, h⟩
  · rw [h]
    cases value.get "choices" with
    | none => rfl
    | some choices => exact as_array_edit_first (thin_choice removed) choices
  · -- The choices were removed: they were null, and have no element.
    obtain ⟨choices, hchoices, hnull⟩ := Option.map_eq_some_iff.1 hnull
    have := as_array_edit_first (thin_choice removed) choices
    rw [hnull] at this
    rw [h, hchoices]
    exact this

theorem finish_reason_thin_choice (removed : Members) (choice : Value) :
    (thin_choice removed choice).get "finish_reason" =
      thinned removed.finish_reason (choice.get "finish_reason") := by
  rw [thin_choice, get_drop_null_ne _ _ (by decide), get_drop_null_ne _ _ (by decide),
    get_drop_null_self, get_edit]
  simp

theorem text_thin_choice (removed : Members) (choice : Value) :
    (thin_choice removed choice).get "text" = thinned removed.text (choice.get "text") := by
  rw [thin_choice, get_drop_null_ne _ _ (by decide), get_drop_null_self,
    get_drop_null_ne _ _ (by decide), get_edit]
  simp

theorem content_thin_choice (removed : Members) (choice : Value) :
    ((thin_choice removed choice).get "delta").bind (·.get "content") =
      thinned removed.content ((choice.get "delta").bind (·.get "content")) := by
  have hget : (thin_choice removed choice).get "delta" = thinned removed.delta
      ((choice.get "delta").map (drop_null "content" removed.content)) := by
    rw [thin_choice, get_drop_null_self, get_drop_null_ne _ _ (by decide),
      get_drop_null_ne _ _ (by decide), get_edit]
    simp
  rw [hget]
  cases choice.get "delta" with
  | none => simp [thinned]
  | some delta =>
    rcases thinned_cases removed.delta (some (drop_null "content" removed.content delta)) with
      h | ⟨-, hnull, h⟩
    · rw [Option.map_some, h]
      exact get_drop_null_self "content" removed.content delta
    · -- The delta was removed: it was null, and had no content.
      have hdelta : delta.is_null := by
        rw [← drop_null_is_null "content" removed.content, Option.some.inj hnull]
        rfl
      cases delta with
      | null =>
        rw [Option.map_some, h]
        simp [thinned, Value.get]
      | _ => cases hdelta

/-- A null finish reason is read as none. -/
theorem parse_finish_reason_thin (removed : Members) (value : Value) :
    parse_finish_reason (thin removed value) = parse_finish_reason value := by
  unfold parse_finish_reason
  rw [first_choice_thin]
  cases first_choice value with
  | none => rfl
  | some choice =>
    rw [Option.map_some, Option.bind_some, Option.bind_some, finish_reason_thin_choice]
    rcases thinned_cases removed.finish_reason (choice.get "finish_reason") with h | ⟨-, hnull, h⟩
    · rw [h]
    · rw [h, hnull]
      rfl

/-- The text of a chunk, by the member it is read from. -/
theorem delta_eq (request : NormalizedRequest) (value : Value) :
    request.delta value =
      match (first_choice value).bind (text_member request) with
      | none => .ok none
      | some text => required_str text := by
  unfold NormalizedRequest.delta text_member
  cases first_choice value <;> rfl

/-- The text of the chunk without null members: a null text that is removed is
    no longer malformed, and nothing else changes. -/
theorem delta_thin (request : NormalizedRequest) (chunk : Value × Members) :
    request.delta (thin chunk.2 chunk.1) =
      if null_text request chunk then .ok none else request.delta chunk.1 := by
  obtain ⟨value, removed⟩ := chunk
  have hmember (choice : Value) : text_member request (thin_choice removed choice) =
      thinned (text_removed request removed) (text_member request choice) := by
    unfold text_member text_removed
    cases request.input with
    | Completion prompt => exact text_thin_choice removed choice
    | Chat messages => exact content_thin_choice removed choice
  rw [delta_eq, delta_eq, first_choice_thin, null_text]
  rcases first_choice value with _ | choice
  · simp
  · simp only [Option.map_some, Option.bind_some, hmember, thinned, Bool.and_eq_true]
    by_cases h : text_removed request removed = true ∧
        (text_member request choice).any Value.is_null = true
    · rw [if_pos h, if_pos h]
    · rw [if_neg h, if_neg h]

/-- Where no null text is removed, a chunk is read as before. -/
theorem extend_thin {request : NormalizedRequest} {chunk : Value × Members}
    (h : null_text request chunk = false) (answer : Answer) :
    answer.extend request (thin chunk.2 chunk.1) = answer.extend request chunk.1 := by
  unfold Answer.extend
  rw [parse_usage_thin, parse_finish_reason_thin, delta_thin, h]
  rfl

/-- A null text is refused. -/
theorem extend_null_text {request : NormalizedRequest} {chunk : Value × Members}
    (h : null_text request chunk = true) (answer : Answer) :
    answer.extend request chunk.1 = none := by
  have hdelta : request.delta chunk.1 = .error .RuntimeProtocol := by
    rw [delta_eq]
    rw [null_text, Bool.and_eq_true] at h
    cases hm : (first_choice chunk.1).bind (text_member request) with
    | none => simp [hm] at h
    | some text =>
      rw [hm] at h
      cases text with
      | null => rfl
      | _ => exact absurd h.2 (by simp [Value.is_null])
  unfold Answer.extend
  rw [hdelta]
  split <;> simp_all

/-- Without the null, the chunk sends nothing. -/
theorem text_thin_of_null {request : NormalizedRequest} {chunk : Value × Members}
    (h : null_text request chunk = true) : text request (thin chunk.2 chunk.1) = none := by
  rw [text, delta_thin, h]
  rfl

/-! ## The whole stream -/

/-- A stream of chunks without its null members. -/
def thin_all (stream : List (Value × Members)) : List Value :=
  stream.map fun chunk => thin chunk.2 chunk.1

/-- Removing the null members changes nothing: where it removes a null text from
    a chunk that is accepted without it, as are those before it, the rest of
    the stream without its null members sends no further text that is accepted,
    and does not complete the answer. -/
def Harmless (request : NormalizedRequest) (stream : List (Value × Members)) : Prop :=
  ∀ before chunk after, stream = before ++ chunk :: after → null_text request chunk →
    Accepts request (thin_all (before ++ [chunk])) →
    ¬ Completes request (thin_all stream) ∧
      ∀ part, part <+: after → Accepts request (thin_all (before ++ chunk :: part)) →
        (thin_all part).filterMap (text request) = []

theorem thin_all_append (a b : List (Value × Members)) :
    thin_all (a ++ b) = thin_all a ++ thin_all b := List.map_append

variable {request : NormalizedRequest}

/-- A split of a stream at a null text, when there is none in its first part. -/
theorem split_at_null {read stream before after : List (Value × Members)}
    {chunk : Value × Members} (hread : ∀ c ∈ read, null_text request c = false)
    (hnull : null_text request chunk) (h : read ++ stream = before ++ chunk :: after) :
    ∃ between, before = read ++ between ∧ stream = between ++ chunk :: after := by
  rcases List.append_eq_append_iff.1 h with ⟨between, rfl, hs⟩ | ⟨between, rfl, hs⟩
  · exact ⟨between, rfl, hs⟩
  · cases between with
    | nil => exact ⟨[], by simp, by simpa using hs.symm⟩
    | cons c between =>
      obtain ⟨rfl, -⟩ := List.cons.inj hs
      have := hread chunk (by simp)
      rw [hnull] at this
      cases this

/-- Reading the rest of a stream, no null text having been removed so far. -/
theorem gather_thin_iff (read : List (Value × Members)) {answer : Answer}
    (hread : ∀ c ∈ read, null_text request c = false)
    (haccepts : Accepts request (thin_all read))
    (hgathered : Gathered request (thin_all read) answer) (stream : List (Value × Members)) :
    let kept := gather request answer (stream.map (·.1))
    let without := gather request answer (thin_all stream)
    kept.1.events kept.2 = without.1.events without.2 ↔ Harmless request (read ++ stream) := by
  induction stream generalizing read answer with
  | nil =>
    refine iff_of_true rfl fun before chunk after h hnull => ?_
    obtain ⟨between, -, hs⟩ := split_at_null hread hnull h
    simp at hs
  | cons chunk stream ih =>
    have hstep := hgathered.extend haccepts (thin chunk.2 chunk.1)
    have hconcat : thin_all read ++ [thin chunk.2 chunk.1] = thin_all (read ++ [chunk]) := by
      rw [thin_all_append]
      rfl
    rw [hconcat] at hstep
    -- What is accepted up to a later chunk is accepted up to this one.
    have hstart (between : List (Value × Members)) (c : Value × Members)
        (after : List (Value × Members)) (hs : chunk :: stream = between ++ c :: after)
        (hacc : Accepts request (thin_all (read ++ between ++ [c]))) :
        Accepts request (thin_all (read ++ [chunk])) := by
      cases between with
      | nil =>
        obtain ⟨rfl, -⟩ := List.cons.inj hs
        rwa [List.append_nil] at hacc
      | cons c' between =>
        obtain ⟨rfl, -⟩ := List.cons.inj hs
        have hassoc : read ++ chunk :: between ++ [c] = (read ++ [chunk]) ++ (between ++ [c]) := by
          simp
        rw [hassoc, thin_all_append] at hacc
        exact accepts_append hacc
    simp only [List.map_cons, thin_all, gather]
    cases hthin : answer.extend request (thin chunk.2 chunk.1) with
    | none =>
      -- The chunk is refused either way, and nothing after it is reached.
      rw [hthin] at hstep
      have hkept : answer.extend request chunk.1 = none := by
        cases hnull : null_text request chunk with
        | true => exact extend_null_text hnull answer
        | false => rw [← extend_thin hnull, hthin]
      rw [hkept]
      refine iff_of_true rfl fun before c after h hnull hacc => ?_
      obtain ⟨between, rfl, hs⟩ := split_at_null hread hnull h
      exact absurd (hstart between c after hs hacc) hstep
    | some answer' =>
      rw [hthin] at hstep
      obtain ⟨hacc', hgathered', hdeltas'⟩ := hstep
      cases hnull : null_text request chunk with
      | false =>
        rw [← extend_thin hnull, hthin, List.append_cons]
        refine ih (read ++ [chunk]) (fun c hc => ?_) hacc' hgathered'
        rcases List.mem_append.1 hc with hc | hc
        · exact hread c hc
        · rwa [List.mem_singleton.1 hc]
      | true =>
        -- The null text ends the stream that has it; the other goes on.
        rw [extend_null_text hnull answer]
        have hdeltas : answer'.deltas = answer.deltas := by
          rw [hdeltas', text_thin_of_null hnull]
          exact List.append_nil _
        have hsilent := hgathered'.gather_silent_iff hacc' (thin_all stream)
        rw [hdeltas, ← thin_all_append, ← List.append_cons] at hsilent
        refine eq_comm.trans (hsilent.trans ⟨fun h => ?_, fun h => ?_⟩)
        · obtain ⟨hcomplete, hparts⟩ := h
          intro before c after hsplit hc hacc
          obtain ⟨between, rfl, hs⟩ := split_at_null hread hc hsplit
          refine ⟨hcomplete, fun part hpart hpartacc => ?_⟩
          cases between with
          | nil =>
            obtain ⟨rfl, rfl⟩ := List.cons.inj hs
            refine hparts _ (hpart.map _) ?_
            rwa [List.append_nil, List.append_cons, thin_all_append] at hpartacc
          | cons c' between =>
            -- A later null text: what follows it also follows this one.
            obtain ⟨rfl, rfl⟩ := List.cons.inj hs
            have hmore : between ++ c :: part <+: between ++ c :: after :=
              (List.prefix_append_right_inj _).2 (List.cons_prefix_cons.2 ⟨rfl, hpart⟩)
            have := hparts _ (hmore.map _) (by
              rwa [List.append_assoc, List.cons_append, List.append_cons, thin_all_append]
                at hpartacc)
            rw [List.map_append, List.filterMap_append, List.append_eq_nil_iff,
              List.map_cons] at this
            have hlast := this.2
            rw [List.filterMap_cons_none (text_thin_of_null hc)] at hlast
            exact hlast
        · obtain ⟨hcomplete, hparts⟩ := h read chunk stream rfl hnull hacc'
          refine ⟨hcomplete, fun part hpart hpartacc => ?_⟩
          have htake : part = thin_all (stream.take part.length) := by
            rw [thin_all, List.map_take]
            exact List.prefix_iff_eq_take.1 hpart
          rw [htake]
          refine hparts _ (List.take_prefix _ _) ?_
          rwa [List.append_cons, thin_all_append, ← htake]

/-- Two responses, one with null members and one without them, give the same
    events and the same result exactly when removing the nulls is harmless. -/
theorem consume_sse_null_iff {from_slice : Bytes → Option Value} {chunks chunks' : List Bytes}
    (stream : List (Value × Members)) (h : Chunked from_slice chunks (stream.map (·.1)))
    (h' : Chunked from_slice chunks' (thin_all stream)) :
    consume_sse from_slice request (chunks.map .ok) =
        consume_sse from_slice request (chunks'.map .ok) ↔
      Harmless request stream := by
  rw [consume_sse_of_chunked h, consume_sse_of_chunked h']
  exact gather_thin_iff [] (by simp) (accepts_nil request) (gathered_nil request) stream

/-! ## A null content -/

/-- What the last chunk of a chat says after its delta. -/
def after_delta : Bytes :=
  ",\"finish_reason\":\"stop\"\x7d],\"usage\":\x7b\"prompt_tokens\":1,".toUTF8.data.toList ++
  "\"completion_tokens\":1,\"total_tokens\":2\x7d\x7d".toUTF8.data.toList

/-- The last chunk of a chat, and that chunk without its null content. -/
def null_content : Bytes :=
  "\x7b\"choices\":[\x7b\"delta\":\x7b\"content\":null\x7d".toUTF8.data.toList ++ after_delta

/-- A chunk whose delta has no content. -/
def no_content : Bytes :=
  "\x7b\"choices\":[\x7b\"delta\":\x7b\x7d".toUTF8.data.toList ++ after_delta

/-- The value of the chunk, by the members of its delta. -/
def content_value (delta : List (String × Value)) : Value :=
  .object [("choices", .array [.object [("delta", .object delta),
      ("finish_reason", .string "stop")]]),
    ("usage", .object [("prompt_tokens", .number (.posInt 1)),
      ("completion_tokens", .number (.posInt 1)), ("total_tokens", .number (.posInt 2))])]

/-- The JSON parser, on the two chunks. -/
def parse_content (data : Bytes) : Option Value :=
  if data = null_content then some (content_value [("content", .null)])
  else if data = no_content then some (content_value [])
  else none

/-- A chunk as an event, followed by `[DONE]`. -/
def answered_by (data : Bytes) : Bytes :=
  DATA ++ [32] ++ data ++ [LF, LF] ++ DATA ++ [32] ++ DONE

/-- A request for one token. -/
def one_chat_token : NormalizedRequest := ⟨.Chat [], 1, 0, 1, none, []⟩

theorem chunked_of_payload {from_slice : Bytes → Option Value} {data : Bytes} {value : Value}
    (hfits : FitsBuffer [] [answered_by data ++ [LF, LF]])
    (hdone : payload (Lines.pending LF (answered_by data)) = some DONE)
    (hdata : (Lines.complete LF (answered_by data)).filterMap payload = [data]) (hne : DONE ≠ data)
    (hvalue : from_slice data = some value) :
    Chunked from_slice [answered_by data ++ [LF, LF]] [value] := by
  have htail :
      same_chunk (answered_by data ++ [LF]).length [answered_by data ++ [LF, LF]] = [LF] := by
    simp [same_chunk]
  refine ⟨hfits, answered_by data, [LF], by simp, hdone, ⟨?_, ?_⟩, ?_, ?_⟩
  · rw [hdata, List.map_singleton, hvalue, List.map_singleton]
  · rw [hdata, List.mem_singleton]
    exact hne
  · rw [htail]
    decide
  · rw [htail]
    decide

theorem chunked_null_content :
    Chunked parse_content [answered_by null_content ++ [LF, LF]]
      [content_value [("content", .null)]] :=
  chunked_of_payload (by decide +kernel) (by decide +kernel) (by decide +kernel)
    (by decide +kernel) (if_pos rfl)

theorem chunked_no_content :
    Chunked parse_content [answered_by no_content ++ [LF, LF]] [content_value []] :=
  chunked_of_payload (by decide +kernel) (by decide +kernel) (by decide +kernel)
    (by decide +kernel) ((if_neg (by decide +kernel)).trans (if_pos rfl))

/-- A chat answer whose last chunk has a null content is an error; without the
    null, it is a complete answer. -/
theorem consume_sse_null_content :
    thin { content := true } (content_value [("content", .null)]) = content_value [] ∧
      Chunked parse_content [answered_by null_content ++ [LF, LF]]
        [content_value [("content", .null)]] ∧
      Chunked parse_content [answered_by no_content ++ [LF, LF]] [content_value []] ∧
      consume_sse parse_content one_chat_token ([answered_by null_content ++ [LF, LF]].map .ok) =
        ([], .error .RuntimeProtocol) ∧
      consume_sse parse_content one_chat_token ([answered_by no_content ++ [LF, LF]].map .ok) =
        ([.Usage ⟨1, 1, 2⟩, .Finished .Stop], .ok ()) := by
  refine ⟨rfl, chunked_null_content, chunked_no_content, ?_, ?_⟩
  · rw [consume_sse_of_chunked chunked_null_content]
    rfl
  · rw [consume_sse_of_chunked chunked_no_content]
    rfl

/-! ## A null usage and finish reason -/

/-- A chunk of a chat, and that chunk without its nulls. -/
def null_members : Bytes :=
  "\x7b\"choices\":[\x7b\"delta\":\x7b\"content\":\"Hi\"\x7d,".toUTF8.data.toList ++
    "\"finish_reason\":null\x7d],\"usage\":null\x7d".toUTF8.data.toList

/-- A chunk without usage and finish reason. -/
def no_members : Bytes :=
  "\x7b\"choices\":[\x7b\"delta\":\x7b\"content\":\"Hi\"\x7d\x7d]\x7d".toUTF8.data.toList

/-- The value of the chunk, by the other members of its choice and its own. -/
def members_value (choice members : List (String × Value)) : Value :=
  .object (("choices", .array [.object (("delta", .object [("content", .string "Hi")]) :: choice)])
    :: members)

/-- The JSON parser, on the two chunks. -/
def parse_members (data : Bytes) : Option Value :=
  if data = null_members then some (members_value [("finish_reason", .null)] [("usage", .null)])
  else if data = no_members then some (members_value [] [])
  else none

theorem chunked_null_members :
    Chunked parse_members [answered_by null_members ++ [LF, LF]]
      [members_value [("finish_reason", .null)] [("usage", .null)]] :=
  chunked_of_payload (by decide +kernel) (by decide +kernel) (by decide +kernel)
    (by decide +kernel) (if_pos rfl)

theorem chunked_no_members :
    Chunked parse_members [answered_by no_members ++ [LF, LF]] [members_value [] []] :=
  chunked_of_payload (by decide +kernel) (by decide +kernel) (by decide +kernel)
    (by decide +kernel) ((if_neg (by decide +kernel)).trans (if_pos rfl))

/-- The nulls of the usage and of the finish reason are removed. -/
theorem consume_sse_null_removed :
    let removed : Members := { usage := true, finish_reason := true }
    consume_sse parse_members one_chat_token ([answered_by null_members ++ [LF, LF]].map .ok) =
        consume_sse parse_members one_chat_token ([answered_by no_members ++ [LF, LF]].map .ok) ↔
      Harmless one_chat_token
        [(members_value [("finish_reason", .null)] [("usage", .null)], removed)] := by
  intro removed
  have hthin : thin_all [(members_value [("finish_reason", .null)] [("usage", .null)], removed)] =
      [members_value [] []] := rfl
  exact consume_sse_null_iff
    [(members_value [("finish_reason", .null)] [("usage", .null)], removed)]
    chunked_null_members (by rw [hthin]; exact chunked_no_members)

end Inferences.Engine
