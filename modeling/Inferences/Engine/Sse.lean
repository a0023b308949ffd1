import Inferences.Engine.Request
import Inferences.Lines

/-!
# Decoding the event stream of the runtime

The runtime answers with a stream of server-sent events, one JSON chunk a
`data:` line, ended by a `[DONE]` line. `consume_sse` reads it as the network
delivers it, in pieces cut anywhere: it keeps the bytes of an unfinished line
in a buffer, and after each piece takes the complete lines off the buffer
(`drain`), one at a time (`consume_line`).
-/

namespace Inferences.Engine

open Json

/-- How long a line may be. -/
def MAX_SSE_LINE_BYTES : Nat := 1048576

/-- The bytes `\\n` and `\\r`. -/
def LF : UInt8 := 10
/-- The carriage return. -/
def CR : UInt8 := 13

/-- The bytes `data:`. -/
def DATA : Bytes := [100, 97, 116, 97, 58]

/-- The bytes `[DONE]`. -/
def DONE : Bytes := [91, 68, 79, 78, 69, 93]

/-- Popping the last byte of a line when it is `byte`. -/
def pop_last (byte : UInt8) (line : Bytes) : Bytes :=
  if line.getLast? = some byte then line.dropLast else line

/-- Dropping the optional space before a payload. -/
def drop_space : Bytes → Bytes
  | 32 :: data => data
  | data => data

/-- What `consume_sse` has gathered so far, beside the bytes of its buffer. -/
structure Progress where
  finish : Option FinishReason := none
  usage : Option TokenUsage := none
  done : Bool := false
  generated_deltas : UInt32 := 0

/-- `u32::checked_add`. -/
def checked_add (a b : UInt32) : Option UInt32 :=
  if a.toNat + b.toNat < UInt32.size then some (a + b) else none

/-- Storing the usage of a chunk. -/
def store_usage (request : NormalizedRequest) (self : Progress) :
    Option TokenUsage → Except EngineError Progress
  | none => .ok self
  | some parsed =>
    if parsed.completion_tokens > request.max_tokens then .error .RuntimeProtocol
    else .ok { self with usage := some parsed }

/-- Storing the finish reason of a chunk. -/
def store_finish (self : Progress) : Option FinishReason → Progress
  | none => self
  | some reason => { self with finish := some reason }

/-- Counting the delta of a chunk, which is sent unless it is empty. -/
def count_delta (request : NormalizedRequest) (self : Progress) :
    Option String → Except EngineError (Progress × Option String)
  | none => .ok (self, none)
  | some delta =>
    if delta.isEmpty then .ok (self, none)
    else match checked_add self.generated_deltas 1 with
      | none => .error .RuntimeProtocol
      | some generated_deltas =>
        if generated_deltas > request.max_tokens then .error .RuntimeProtocol
        else .ok ({ self with generated_deltas }, some delta)

section
variable (from_slice : Bytes → Option Value) (request : NormalizedRequest)

/-- One JSON chunk: the progress after it, and the delta it sends. -/
def consume_chunk (self : Progress) (value : Value) :
    Except EngineError (Progress × Option String) := do
  let self ← store_usage request self (← parse_usage value)
  let self := store_finish self (← parse_finish_reason value)
  count_delta request self (← request.delta value)

/-- The payload of a line taken off the buffer, its line feed included. -/
def line_payload (line : Bytes) : Option Bytes :=
  let line := pop_last CR (pop_last LF line)
  if DATA.isPrefixOf line then some (drop_space (line.drop DATA.length)) else none

/-- One line taken off the buffer: the progress after it, and the delta it sends. -/
def consume_line (self : Progress) (line : Bytes) :
    Except EngineError (Progress × Option String) :=
  match line_payload line with
  | none => .ok (self, none)
  | some data =>
    if data = DONE then .ok ({ self with done := true }, none)
    else match from_slice data with
      | none => .error .RuntimeProtocol
      | some value => consume_chunk request self value

/-- The loop that takes the complete lines off the buffer: the deltas it sends
    in order, then the progress and the buffer after it, or its error. -/
def drain (self : Progress) (buffer : Bytes) :
    List String × Except EngineError (Progress × Bytes) :=
  match _h : buffer.findIdx? (· == LF) with
  | none => ([], .ok (self, buffer))
  | some position =>
    match consume_line from_slice request self (buffer.take (position + 1)) with
    | .error e => ([], .error e)
    | .ok (self, delta) =>
      let rest := drain self (buffer.drop (position + 1))
      (delta.toList ++ rest.1, rest.2)
termination_by buffer.length
decreasing_by
  have := (List.findIdx?_eq_some_iff_getElem.1 _h).1
  simp only [List.length_drop]
  omega

/-- One chunk of the network: it is refused when the buffer would grow too
    long, else its complete lines are taken off the buffer. -/
def feed (self : Progress) (buffer chunk : Bytes) :
    List String × Except EngineError (Progress × Bytes) :=
  if buffer.length + chunk.length > MAX_SSE_LINE_BYTES then ([], .error .RuntimeProtocol)
  else drain from_slice request self (buffer ++ chunk)

/-- The loop over the chunks of the response, up to the end of the response,
    to a transport error or to the chunk that holds `[DONE]`. -/
def consume_chunks (self : Progress) (buffer : Bytes) :
    List (Except Unit Bytes) → List String × Except EngineError (Progress × Bytes)
  | [] => ([], .ok (self, buffer))
  | .error () :: _ => ([], .error .RuntimeUnavailable)
  | .ok chunk :: chunks =>
    match feed from_slice request self buffer chunk with
    | (deltas, .error e) => (deltas, .error e)
    | (deltas, .ok (self, buffer)) =>
      if self.done then (deltas, .ok (self, buffer))
      else
        let rest := consume_chunks self buffer chunks
        (deltas ++ rest.1, rest.2)

/-- What is sent after the last chunk: both the usage and the finish reason, if
    the stream was complete. -/
def conclude (self : Progress) (buffer : Bytes) :
    List GenerationEvent × Except EngineError Unit :=
  match self.done, buffer, self.finish, self.usage with
  | true, [], some finish, some usage => ([.Usage usage, .Finished finish], .ok ())
  | _, _, _, _ => ([], .error .RuntimeProtocol)

/-- The events `consume_sse` sends when nothing stops it, and its result. -/
def consume_sse (response : List (Except Unit Bytes)) :
    List GenerationEvent × Except EngineError Unit :=
  match consume_chunks from_slice request {} [] response with
  | (deltas, .error e) => (deltas.map .Delta, .error e)
  | (deltas, .ok (self, buffer)) =>
    let last := conclude self buffer
    (deltas.map .Delta ++ last.1, last.2)

/-! ## Lines -/

/-- The same lines, already taken off: the deltas they send in order, then the
    progress after them or the error of the first that fails. -/
def consume_lines (self : Progress) : List Bytes → List String × Except EngineError Progress
  | [] => ([], .ok self)
  | line :: lines =>
    match consume_line from_slice request self (line ++ [LF]) with
    | .error e => ([], .error e)
    | .ok (self, delta) =>
      let rest := consume_lines self lines
      (delta.toList ++ rest.1, rest.2)

end

/-- The position of the line feed that ends the first line. -/
theorem findIdx_line {line : Bytes} (hline : LF ∉ line) (rest : Bytes) :
    (line ++ LF :: rest).findIdx? (· == LF) = some line.length := by
  have hnone : line.findIdx? (· == LF) = none :=
    List.findIdx?_eq_none_iff.2 fun a ha => by simpa using fun h : a = LF => hline (h ▸ ha)
  rw [List.findIdx?_append, hnone, List.findIdx?_cons]
  simp

theorem findIdx_of_notMem {buffer : Bytes} (h : LF ∉ buffer) :
    buffer.findIdx? (· == LF) = none :=
  List.findIdx?_eq_none_iff.2 fun a ha => by simpa using fun e : a = LF => h (e ▸ ha)

variable {from_slice : Bytes → Option Value} {request : NormalizedRequest}

theorem drain_of_notMem {buffer : Bytes} (h : LF ∉ buffer) (self : Progress) :
    drain from_slice request self buffer = ([], .ok (self, buffer)) := by
  rw [drain]
  split
  · rfl
  · rename_i hi
    rw [findIdx_of_notMem h] at hi
    cases hi

theorem drain_line {line : Bytes} (hline : LF ∉ line) (self : Progress) (rest : Bytes) :
    drain from_slice request self (line ++ LF :: rest) =
      match consume_line from_slice request self (line ++ [LF]) with
      | .error e => ([], .error e)
      | .ok (self, delta) =>
        (delta.toList ++ (drain from_slice request self rest).1,
          (drain from_slice request self rest).2) := by
  rw [drain]
  split
  · rename_i hi
    rw [findIdx_line hline] at hi
    cases hi
  · rename_i position hi
    rw [findIdx_line hline] at hi
    obtain rfl := Option.some.inj hi
    have htake : (line ++ LF :: rest).take (line.length + 1) = line ++ [LF] := by
      simp [List.take_append, List.take_of_length_le]
    have hdrop : (line ++ LF :: rest).drop (line.length + 1) = rest := by
      simp [List.drop_append]
    rw [htake, hdrop]

/-- Draining the buffer is consuming its complete lines, and keeping the
    pending one. -/
theorem drain_eq (self : Progress) (buffer : Bytes) :
    drain from_slice request self buffer =
      let r := consume_lines from_slice request self (Lines.complete LF buffer)
      (r.1, r.2.map (·, Lines.pending LF buffer)) := by
  induction buffer using Lines.induction_on_lines LF generalizing self with
  | tail buffer h =>
    rw [drain_of_notMem h, Lines.complete_of_notMem h, Lines.pending_of_notMem h]
    rfl
  | line line rest hline ih =>
    rw [drain_line hline, Lines.complete_line hline, Lines.pending_line hline, consume_lines]
    cases consume_line from_slice request self (line ++ [LF]) with
    | error e => rfl
    | ok r => simp only [ih]

/-- The lines of two pieces, one after the other. -/
theorem consume_lines_append (self : Progress) (a b : List Bytes) :
    consume_lines from_slice request self (a ++ b) =
      match consume_lines from_slice request self a with
      | (deltas, .error e) => (deltas, .error e)
      | (deltas, .ok self) =>
        (deltas ++ (consume_lines from_slice request self b).1,
          (consume_lines from_slice request self b).2) := by
  induction a generalizing self with
  | nil => rfl
  | cons line a ih =>
    rw [List.cons_append, consume_lines, consume_lines]
    cases consume_line from_slice request self (line ++ [LF]) with
    | error e => rfl
    | ok r =>
      obtain ⟨self, delta⟩ := r
      simp only [ih]
      split <;> simp_all

end Inferences.Engine
