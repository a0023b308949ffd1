import Inferences.Server.Grpc

/-!
# The encoder of the gRPC server

The server limits the messages it sends: the encoder of the transport refuses a
message that is longer than `MAX_GRPC_MESSAGE_BYTES`, and the call ends with a
status of its own. The encoder is not part of the program. It is taken here as a
`Codec`, with the length of each message and that status; `prost` is the one of
the protocol, with the wire lengths of its messages.
-/

namespace Inferences.Server.Grpc

open Schedule

/-- How long an encoded message may be. -/
def MAX_GRPC_MESSAGE_BYTES : Nat := 1048576

/-- The encoder of the transport: the length of the messages, and the status of
    a call whose message, of some length, is over the limit. -/
structure Codec where
  response_len : GenerationResponse → Nat
  event_len : GenerationEvent → Nat
  too_large : Nat → Status

namespace Codec

variable (codec : Codec)

/-- A unary call, with its response encoded. -/
def complete (context : Except Status UInt64) (generation : Except Status GenerationRequest)
    (generate : GenerationRequest → Except EngineError EngineEventStream) (shutdown : Bool) :
    Except Status GenerationResponse := do
  let response ← unary context generation generate shutdown
  if codec.response_len response > MAX_GRPC_MESSAGE_BYTES then
    .error (codec.too_large (codec.response_len response))
  else return response

/-- An event within the limit. -/
def Fits (event : GenerationEvent) : Prop := codec.event_len event ≤ MAX_GRPC_MESSAGE_BYTES

instance (event : GenerationEvent) : Decidable (codec.Fits event) :=
  inferInstanceAs (Decidable (_ ≤ _))

/-- The output is an error, or an event within the limit. -/
def FitsOutput : Output → Prop
  | .ok event => codec.Fits event
  | .error _ => True

instance : ∀ out, Decidable (codec.FitsOutput out)
  | .ok event => inferInstanceAs (Decidable (codec.Fits event))
  | .error _ => .isTrue trivial

/-- The client asks for the next message of a stream. One that is over the limit
    ends the response, and the channel is dropped. -/
def read (self : Streaming) : Streaming :=
  if self.closed || self.ended.isSome then self
  else match self.channel with
    | .ok event :: _ =>
      if codec.Fits event then self.read
      else { self with
        channel := []
        closed := true
        ended := some (.error (codec.too_large (codec.event_len event))) }
    | _ => self.read

/-- The stream after one act, its messages encoded as they are read. -/
def step (self : Streaming) : Act → Streaming
  | .read => codec.read self
  | act => Grpc.step self act

end Codec

/-! ## The messages of the protocol -/

/-- The length of a varint: seven bits a byte. -/
def varint_len (n : Nat) : Nat := Nat.log 128 n + 1

/-- A field with a length of its own, and a tag of one byte. -/
def delimited_len (len : Nat) : Nat := 1 + varint_len len + len

/-- An empty string and a counter of zero are left out. -/
def string_len (text : String) : Nat :=
  if text.isEmpty then 0 else delimited_len text.utf8ByteSize

/-- The length of a counter; zero is not encoded. -/
def uint32_len (n : UInt32) : Nat := if n = 0 then 0 else 1 + varint_len n.toNat

/-- The length of the counters. -/
def usage_len (usage : Usage) : Nat :=
  uint32_len usage.prompt_tokens + uint32_len usage.completion_tokens +
    uint32_len usage.total_tokens

/-- The length of what an event carries. -/
def payload_len : Payload → Nat
  | .Delta text => delimited_len text.utf8ByteSize
  | .Usage usage => delimited_len (usage_len usage)
  | .FinishReason reason => delimited_len reason.utf8ByteSize

/-- The encoder of the protocol. -/
def prost : Codec where
  response_len response :=
    string_len response.request_id + string_len response.model + string_len response.text +
      (response.usage.map fun usage => delimited_len (usage_len usage)).getD 0 +
      string_len response.finish_reason
  event_len event := string_len event.request_id + (event.payload.map payload_len).getD 0
  too_large len := ⟨.OutOfRange, "Error, encoded message length too large: found " ++
    toString len ++ " bytes, the limit is: " ++ toString MAX_GRPC_MESSAGE_BYTES ++ " bytes"⟩

theorem utf8ByteSize_le_string_len (text : String) : text.utf8ByteSize ≤ string_len text := by
  unfold string_len
  split
  · rename_i h
    rw [String.isEmpty_iff] at h
    simp [h]
  · exact Nat.le_add_left _ _

/-- A response is longer than its text. -/
theorem utf8ByteSize_le_response_len (response : GenerationResponse) :
    response.text.utf8ByteSize ≤ prost.response_len response := by
  have htext := utf8ByteSize_le_string_len response.text
  dsimp only [prost]
  omega

end Inferences.Server.Grpc
