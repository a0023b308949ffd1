import Inferences.Json

/-!
# Token generation

The transport-independent contract of a generation: what a caller asks for
(`GenerationRequest`), the ordered events the engine answers with
(`GenerationEvent`), and the failures it answers with instead (`EngineError`).

A generation is a stream of items, each an event or a failure. The two shapes
a whole stream can have are `completed` and `failed`.
-/

namespace Inferences

/-- The stable identity of the curated model. -/
def CURATED_MODEL_ID : String := "qwen2.5-0.5b-instruct-q4-k-m"

/-- The roles of the curated chat template. -/
inductive ChatRole
  | System
  | User
  | Assistant
  deriving DecidableEq

/-- One chat message. -/
structure ChatMessage where
  role : ChatRole
  content : String
  deriving DecidableEq

/-- A text-generation input: a raw prompt or a conversation. -/
inductive GenerationInput
  | Completion (prompt : String)
  | Chat (messages : List ChatMessage)
  deriving DecidableEq

/-- Generation controls shared by every transport. -/
structure GenerationRequest where
  model : String
  input : GenerationInput
  max_tokens : UInt32
  temperature : Float32
  top_p : Float32
  seed : Option UInt32
  stop : List String

/-- Normalized token accounting. -/
structure TokenUsage where
  prompt_tokens : UInt32
  completion_tokens : UInt32
  total_tokens : UInt32
  deriving DecidableEq

/-- Why a generation ended. -/
inductive FinishReason
  | Stop
  | Length
  | Cancelled
  deriving DecidableEq

/-- One ordered event of a generation. -/
inductive GenerationEvent
  | Delta (text : String)
  | Usage (usage : TokenUsage)
  | Finished (reason : FinishReason)
  deriving DecidableEq

/-- A sanitized engine failure. -/
inductive EngineError
  | Configuration
  | InvalidRequest (message : String)
  | Overloaded
  | ArtifactsUnavailable
  | RuntimeUnavailable
  | RuntimeProtocol
  | Cancelled
  | DeadlineExceeded
  | ShuttingDown
  deriving DecidableEq

/-- What a consumer receives from a generation stream. -/
abbrev Item := Except EngineError GenerationEvent

/-- A generation stream: what it yields until it is over. -/
abbrev EngineEventStream := List Item

/-- A stream that completed: `Delta* Usage Finished`. -/
def completed (deltas : List String) (usage : TokenUsage) (reason : FinishReason) : List Item :=
  deltas.map (.ok ∘ .Delta) ++ [.ok (.Usage usage), .ok (.Finished reason)]

/-- A stream that failed: `Delta* [Usage] Err`. -/
def failed (deltas : List String) (usage : Option TokenUsage) (e : EngineError) : List Item :=
  deltas.map (.ok ∘ .Delta) ++ (usage.map (.ok ∘ .Usage)).toList ++ [.error e]

end Inferences
