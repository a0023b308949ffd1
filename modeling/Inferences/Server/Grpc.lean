import Inferences.Protocol
import Inferences.Schedule

/-!
# The gRPC transport

`unary` collects a whole answer into one response. `streaming` spawns a task
that forwards the events of the engine into a bounded channel, which the
client reads as the response stream: an `Err` in the channel ends the response
with that status, and the end of the channel ends it with OK.

The task has four ways out. Two of them leave nothing in the channel: the
server shuts down, or the engine stream is over. The response then ends with
OK after a truncated answer. These are the only such ways
(`streaming_told_iff`).
-/

namespace Inferences.Server.Grpc

open Schedule

/-- An event of the engine. -/
abbrev DomainEvent := Inferences.GenerationEvent

/-- The gRPC status codes the service, and its transport, answer with. -/
inductive Code
  | InvalidArgument
  | ResourceExhausted
  | Cancelled
  | DeadlineExceeded
  | OutOfRange
  | Unavailable
  | Internal
  deriving DecidableEq

/-- The status of a call that fails. -/
structure Status where
  code : Code
  message : String
  deriving DecidableEq

/-! ## Messages -/

/-- The counters of an answer. -/
structure Usage where
  prompt_tokens : UInt32
  completion_tokens : UInt32
  total_tokens : UInt32
  deriving DecidableEq

/-- What an event carries. -/
inductive Payload
  | Delta (text : String)
  | Usage (usage : Usage)
  | FinishReason (reason : String)
  deriving DecidableEq

/-- An event of a streaming call. -/
structure GenerationEvent where
  request_id : String
  payload : Option Payload
  deriving DecidableEq

/-- The answer of a unary call. -/
structure GenerationResponse where
  request_id : String
  model : String
  text : String
  usage : Option Usage
  finish_reason : String
  deriving DecidableEq

/-- The counters of the engine. -/
def usage (value : TokenUsage) : Usage where
  prompt_tokens := value.prompt_tokens
  completion_tokens := value.completion_tokens
  total_tokens := value.total_tokens

/-- The text of a finish reason. -/
def finish_reason : FinishReason → String
  | .Stop => "stop"
  | .Length => "length"
  | .Cancelled => "cancelled"

/-- The event that tells what an event of the engine does. -/
def grpc_event (request_id : String) (event : DomainEvent) : GenerationEvent where
  request_id := request_id
  payload := some <| match event with
    | .Delta delta => .Delta delta
    | .Usage value => .Usage (usage value)
    | .Finished reason => .FinishReason (finish_reason reason)

/-- The status that an error of the engine is answered with. -/
def engine_status : EngineError → Status
  | .InvalidRequest message => ⟨.InvalidArgument, message⟩
  | .Overloaded => ⟨.ResourceExhausted, "generation capacity exhausted"⟩
  | .Cancelled => ⟨.Cancelled, "request cancelled"⟩
  | .DeadlineExceeded => ⟨.DeadlineExceeded, "request deadline exceeded"⟩
  | .ArtifactsUnavailable | .RuntimeUnavailable => ⟨.Unavailable, "local runtime unavailable"⟩
  | .ShuttingDown => ⟨.Unavailable, "server is shutting down"⟩
  | .Configuration | .RuntimeProtocol => ⟨.Internal, "local runtime failed"⟩

/-! ## Unary responses -/

/-- A whole answer. -/
structure Completed where
  text : String
  usage : TokenUsage
  finish : FinishReason

/-- The loop of `collect`. -/
def collect_from (text : String) (token_usage : Option TokenUsage) (finish : Option FinishReason) :
    EngineEventStream → Except Status Completed
  | [] => do
    let usage ← token_usage.elim (.error ⟨.Internal, "local runtime ended unexpectedly"⟩) .ok
    let finish ← finish.elim (.error ⟨.Internal, "local runtime ended unexpectedly"⟩) .ok
    return { text, usage, finish }
  | .error e :: _ => .error (engine_status e)
  | .ok (.Delta delta) :: events => collect_from (text ++ delta) token_usage finish events
  | .ok (.Usage value) :: events => collect_from text (some value) finish events
  | .ok (.Finished value) :: events => collect_from text token_usage (some value) events

/-- The answer that the events of a generation make up. -/
def collect (events : EngineEventStream) : Except Status Completed :=
  collect_from "" none none events

/-- What both kinds of calls begin with: the identity of the request (or the
    status of an unusable deadline or context), its conversion and its
    admission by the engine. -/
def admit_generation (context : Except Status UInt64) (generation : Except Status GenerationRequest)
    (generate : GenerationRequest → Except EngineError EngineEventStream) :
    Except Status (String × EngineEventStream) := do
  let id ← context
  let request_id := "grpc-" ++ toString id
  let events ← (generate (← generation)).mapError engine_status
  return (request_id, events)

/-- A unary call; `shutdown` says that the server shuts down before the answer
    is collected. -/
def unary (context : Except Status UInt64) (generation : Except Status GenerationRequest)
    (generate : GenerationRequest → Except EngineError EngineEventStream) (shutdown : Bool) :
    Except Status GenerationResponse := do
  let (request_id, events) ← admit_generation context generation generate
  if shutdown then .error ⟨.Unavailable, "server is shutting down"⟩
  else
    let completed ← collect events
    return { request_id, model := Protocol.model_id, text := completed.text,
             usage := some (usage completed.usage),
             finish_reason := finish_reason completed.finish }

/-! ## Streaming responses -/

/-- How many events wait for the client, at most. -/
def STREAM_BUFFER : Nat := 16

/-- What the forwarding task puts into the channel. -/
abbrev Output := Except Status GenerationEvent

/-- Where the forwarding task is: in its `select!`, waiting for room to send
    an output (which may be the last), or done. -/
inductive Task
  | selecting
  | sending (output : Output) (terminal : Bool)
  | returned

/-- A streaming response: the engine stream still to come, the token and the
    channel the task watches, the channel, and what the client has been told. -/
structure Streaming where
  request_id : String
  events : EngineEventStream
  shutdown : Bool := false
  closed : Bool := false
  cancelled : Bool := false
  task : Task := .selecting
  channel : List Output := []
  received : List GenerationEvent := []
  ended : Option (Except Status Unit) := none

/-- The output that ends the task. -/
def terminal : Output → Bool
  | .ok { payload := some (.FinishReason _), .. } => true
  | .error _ => true
  | _ => false

/-- What the client is sent for an item of the engine. -/
def output (request_id : String) (event : Item) : Output :=
  (event.map (grpc_event request_id)).mapError engine_status

/-- The biased `select!` of the task; `ready` says whether the engine stream
    has its next item, or its end. -/
def Streaming.select (self : Streaming) (ready : Bool) : Streaming :=
  if self.shutdown then { self with cancelled := true, task := .returned }
  else if self.closed then { self with cancelled := true, task := .returned }
  else if ready then
    match self.events with
    | [] => { self with task := .returned }
    | event :: events =>
      let output := output self.request_id event
      { self with events, task := .sending output (terminal output) }
  else self

/-- `sender.send(output).await`: it waits while the channel is full. -/
def Streaming.send (self : Streaming) (output : Output) (terminal : Bool) : Streaming :=
  if self.closed then { self with cancelled := true, task := .returned }
  else if self.channel.length < STREAM_BUFFER then
    { self with channel := self.channel ++ [output],
                task := if terminal then .returned else .selecting }
  else self

/-- One poll of the task. -/
def Streaming.poll (self : Streaming) (ready : Bool) : Streaming :=
  match self.task with
  | .selecting => self.select ready
  | .sending output terminal => self.send output terminal
  | .returned => self

/-- The client asks for the next message. The channel is over once the task
    has returned, its sender dropped. -/
def Streaming.read (self : Streaming) : Streaming :=
  if self.closed || self.ended.isSome then self
  else match self.channel, self.task with
    | .ok event :: channel, _ => { self with channel, received := self.received ++ [event] }
    | .error status :: channel, _ => { self with channel, ended := some (.error status) }
    | [], .returned => { self with ended := some (.ok ()) }
    | [], _ => self

/-- An act of a streaming call, or of its environment. -/
inductive Act
  | shutdown
  | disconnect
  | poll (ready : Bool)
  | read
  deriving DecidableEq

/-- The call after one act. -/
def step (self : Streaming) : Act → Streaming
  | .shutdown => { self with shutdown := true }
  | .disconnect => { self with closed := true }
  | .poll ready => self.poll ready
  | .read => self.read

/-- A streaming call: its response, the task about to run. -/
def streaming (context : Except Status UInt64) (generation : Except Status GenerationRequest)
    (generate : GenerationRequest → Except EngineError EngineEventStream) :
    Except Status Streaming := do
  let (request_id, events) ← admit_generation context generation generate
  return { request_id, events }

/-! ## What the client is told -/

/-- A response that ended with OK told the client the finish reason last. -/
def Told (self : Streaming) : Prop :=
  self.ended = some (.ok ()) →
    ∃ event reason, self.received.getLast? = some event ∧
      event.payload = some (.FinishReason reason)

/-- The poll of a task at its `select!` finds the server running and, when the
    engine stream is ready, an item there. -/
def Answers (self : Streaming) (act : Act) : Prop :=
  match act, self.task with
  | .poll ready, .selecting => self.shutdown = false ∧ (ready = true → self.events.isEmpty = false)
  | _, _ => True

/-- The outputs the client has read or will read. -/
def Streaming.outputs (self : Streaming) : List Output :=
  self.received.map .ok ++
    (match self.ended with
      | some (.error status) => [.error status]
      | _ => []) ++ self.channel

/-- No output of the list ends the response. -/
def Unfinished (outputs : List Output) : Prop := ∀ output ∈ outputs, terminal output = false

/-- The response while the task forwards, and once it has sent a terminal. -/
def Forwarding (self : Streaming) : Prop :=
  self.closed = false ∧
  match self.task with
  | .selecting => self.ended = none ∧ Unfinished self.outputs
  | .sending output last => self.ended = none ∧ Unfinished self.outputs ∧ last = terminal output
  | .returned => (self.ended.isSome → self.channel = []) ∧
    ∃ before last, self.outputs = before ++ [last] ∧ Unfinished before ∧ terminal last = true

/-- The response after the task returned without a terminal. -/
def Quit (self : Streaming) : Prop :=
  self.task = .returned ∧ (self.ended.isSome → self.channel = []) ∧ Unfinished self.outputs

theorem unfinished_append {a b : List Output} :
    Unfinished (a ++ b) ↔ Unfinished a ∧ Unfinished b := by
  simp [Unfinished, or_imp, forall_and]

theorem terminal_ok_iff {event : GenerationEvent} :
    terminal (.ok event) = true ↔ ∃ reason, event.payload = some (.FinishReason reason) := by
  obtain ⟨id, payload⟩ := event
  unfold terminal
  split <;> simp_all

/-- In a list whose last element alone is terminal, nothing follows a terminal. -/
theorem eq_nil_of_terminal {before front after : List Output} {final last : Output}
    (hbefore : Unfinished before) (hlast : terminal last = true)
    (h : before ++ [final] = front ++ last :: after) : after = [] := by
  rcases List.eq_nil_or_concat after with rfl | ⟨rest, x, rfl⟩
  · rfl
  · have h' : before ++ [final] = (front ++ last :: rest) ++ [x] := by simpa using h
    have hmem : last ∈ before := (List.append_inj' h' rfl).1 ▸ by simp
    rw [hbefore last hmem] at hlast
    cases hlast

/-! ### Reading -/

theorem Streaming.read_cases (self : Streaming) : self.read = self ∨ self.ended = none ∧
    ((∃ event channel, self.channel = .ok event :: channel ∧
        self.read = { self with channel, received := self.received ++ [event] }) ∨
      (∃ status channel, self.channel = .error status :: channel ∧
        self.read = { self with channel, ended := some (.error status) }) ∨
      (self.channel = [] ∧ self.task = .returned ∧
        self.read = { self with ended := some (.ok ()) })) := by
  unfold Streaming.read
  split
  · exact .inl rfl
  · rename_i hopen
    have hnone : self.ended = none := by simp_all
    split
    · exact .inr ⟨hnone, .inl ⟨_, _, ‹_›, rfl⟩⟩
    · exact .inr ⟨hnone, .inr (.inl ⟨_, _, ‹_›, rfl⟩)⟩
    · exact .inr ⟨hnone, .inr (.inr ⟨‹_›, ‹_›, rfl⟩)⟩
    · exact .inl rfl

/-- Reading only moves the next output from the channel to the client. -/
theorem Streaming.outputs_read (self : Streaming) : self.read.outputs = self.outputs := by
  rcases self.read_cases with h | ⟨hnone, ⟨event, channel, hc, h⟩ | ⟨status, channel, hc, h⟩ |
    ⟨hc, -, h⟩⟩
  · rw [h]
  all_goals rw [h]; simp [Streaming.outputs, hc, hnone]

theorem unfinished_channel {self : Streaming} (h : Unfinished self.outputs) :
    Unfinished self.channel := (unfinished_append.1 h).2

theorem forwarding_read {self : Streaming} (h : Forwarding self) : Forwarding self.read := by
  have hout := self.outputs_read
  rcases self.read_cases with hr | ⟨hnone, ⟨event, channel, hc, hr⟩ | ⟨status, channel, hc, hr⟩ |
    ⟨hc, ht, hr⟩⟩
  · rwa [hr]
  · rw [hr] at hout ⊢
    unfold Forwarding at h ⊢
    simp only [hout]
    cases ht : self.task with
    | returned =>
      rw [ht] at h
      exact ⟨h.1, by simp [hnone], h.2.2⟩
    | _ => rw [ht] at h; exact h
  · rw [hr] at hout ⊢
    have herr : ¬ Unfinished self.outputs := fun h => by
      have := unfinished_channel h (.error status) (hc ▸ List.mem_cons_self)
      cases this
    unfold Forwarding at h ⊢
    simp only [hout]
    cases ht : self.task with
    | selecting => rw [ht] at h; exact absurd h.2.2 herr
    | sending => rw [ht] at h; exact absurd h.2.2.1 herr
    | returned =>
      -- the error was the last output
      rw [ht] at h
      obtain ⟨hopen, -, before, last, heq, hbefore, hlast⟩ := h
      have hlist : before ++ [last] = self.received.map .ok ++ .error status :: channel := by
        rw [← heq]
        simp [Streaming.outputs, hnone, hc]
      exact ⟨hopen, fun _ => eq_nil_of_terminal hbefore rfl hlist,
        before, last, heq, hbefore, hlast⟩
  · rw [hr] at hout ⊢
    unfold Forwarding at h ⊢
    rw [ht] at h
    rw [ht] at hout ⊢
    simp only [hout]
    exact ⟨h.1, fun _ => hc, h.2.2⟩

theorem quit_read {self : Streaming} (h : Quit self) : Quit self.read := by
  have hout := self.outputs_read
  obtain ⟨ht, hended, hunf⟩ := h
  rcases self.read_cases with hr | ⟨hnone, ⟨event, channel, hc, hr⟩ | ⟨status, channel, hc, hr⟩ |
    ⟨hc, -, hr⟩⟩
  · rw [hr]
    exact ⟨ht, hended, hunf⟩
  · refine ⟨by rw [hr]; exact ht, by rw [hr]; simp [hnone], by rwa [hout]⟩
  · have := unfinished_channel hunf (.error status) (hc ▸ List.mem_cons_self)
    cases this
  · exact ⟨by rw [hr]; exact ht, fun _ => by rw [hr]; exact hc, by rwa [hout]⟩

/-! ### The task -/

/-- A poll at the `select!` that finds neither a stop nor the end of the
    engine stream waits or takes the next item. -/
theorem forwarding_select {self : Streaming} {ready : Bool} (h : Forwarding self)
    (ht : self.task = .selecting) (hrun : self.shutdown = false)
    (hitem : ready = true → self.events.isEmpty = false) : Forwarding (self.select ready) := by
  have hopen := h.1
  unfold Streaming.select
  rw [if_neg (by simp [hrun]), if_neg (by simp [hopen])]
  split
  · rename_i hready
    cases he : self.events with
    | nil => simp [he, hready] at hitem
    | cons event events =>
      unfold Forwarding at h ⊢
      rw [ht] at h
      exact ⟨hopen, h.2.1, h.2.2, rfl⟩
  · exact h

/-- Every other one leaves the response without a terminal. -/
theorem quit_select {self : Streaming} {ready : Bool} (h : Forwarding self)
    (ht : self.task = .selecting)
    (hquit : ¬ (self.shutdown = false ∧ (ready = true → self.events.isEmpty = false))) :
    Quit (self.select ready) := by
  unfold Forwarding at h
  rw [ht] at h
  obtain ⟨hopen, hnone, hunf⟩ := h
  unfold Streaming.select
  split
  · exact ⟨rfl, by simp [hnone], hunf⟩
  · rename_i hrun
    obtain ⟨hready, hend⟩ : ready = true ∧ self.events = [] := by simp_all
    rw [if_neg (by simp [hopen]), if_pos hready, hend]
    exact ⟨rfl, by simp [hnone], hunf⟩

theorem forwarding_send {self : Streaming} {output : Output} {last : Bool} (h : Forwarding self)
    (ht : self.task = .sending output last) : Forwarding (self.send output last) := by
  have h' := h
  unfold Forwarding at h'
  rw [ht] at h'
  obtain ⟨hopen, hnone, hunf, rfl⟩ := h'
  unfold Streaming.send
  rw [if_neg (by simp [hopen])]
  split
  · have hout : ∀ task, Streaming.outputs { self with channel := self.channel ++ [output], task } =
        self.outputs ++ [output] := by simp [Streaming.outputs]
    unfold Forwarding
    cases hlast : terminal output with
    | true =>
      simp only [if_true, hout]
      exact ⟨hopen, by simp [hnone], self.outputs, output, rfl, hunf, hlast⟩
    | false =>
      simp only [Bool.false_eq_true, if_false, hout]
      exact ⟨hopen, hnone, unfinished_append.2 ⟨hunf, by simpa [Unfinished] using hlast⟩⟩
  · exact h

/-- While the client reads, a step that answers keeps the task forwarding. -/
theorem forwarding_step {self : Streaming} {act : Act} (hact : act ≠ .disconnect)
    (h : Answers self act) (hs : Forwarding self) : Forwarding (step self act) := by
  cases act with
  | shutdown => exact hs
  | disconnect => exact absurd rfl hact
  | read => exact forwarding_read hs
  | poll ready =>
    rw [step, Streaming.poll]
    cases ht : self.task with
    | selecting =>
      unfold Answers at h
      rw [ht] at h
      exact forwarding_select hs ht h.1 h.2
    | sending output last => exact forwarding_send hs ht
    | returned => exact hs

/-- Every other step ends the task, nothing more sent. -/
theorem quit_of_not_answers {self : Streaming} {act : Act} (h : ¬ Answers self act)
    (hs : Forwarding self) : Quit (step self act) := by
  cases act with
  | poll ready =>
    rw [step, Streaming.poll]
    cases ht : self.task with
    | selecting =>
      unfold Answers at h
      rw [ht] at h
      exact quit_select hs ht h
    | _ =>
      unfold Answers at h
      rw [ht] at h
      exact absurd trivial h
  | _ => exact absurd trivial h

theorem quit_step {self : Streaming} (act : Act) (h : Quit self) : Quit (step self act) := by
  cases act with
  | poll ready =>
    rw [step, Streaming.poll, h.1]
    exact h
  | read => exact quit_read h
  | _ => exact h

/-! ### The end of the response -/

theorem told_of_forwarding {self : Streaming} (h : Forwarding self) : Told self := by
  intro hok
  unfold Forwarding at h
  cases ht : self.task with
  | selecting => rw [ht, hok] at h; cases h.2.1
  | sending => rw [ht, hok] at h; cases h.2.1
  | returned =>
    rw [ht] at h
    obtain ⟨-, hended, before, last, heq, -, hlast⟩ := h
    have hlist : self.received.map .ok = before ++ [last] := by
      rw [← heq]
      simp [Streaming.outputs, hok, hended (by rw [hok]; rfl)]
    obtain ⟨front, back, hreceived, -, hback⟩ := List.map_eq_append_iff.1 hlist
    obtain ⟨event, rfl, rfl⟩ := List.map_eq_singleton_iff.1 hback
    obtain ⟨reason, hreason⟩ := terminal_ok_iff.1 hlast
    exact ⟨event, reason, by simp [hreceived], hreason⟩

theorem not_told_of_quit {self : Streaming} (h : Quit self) (hended : self.ended.isSome) :
    ¬ Told self := by
  obtain ⟨-, -, hunf⟩ := h
  unfold Told
  rcases he : self.ended with _ | (status | _)
  · rw [he] at hended; cases hended
  · have := hunf (.error status) (by simp [Streaming.outputs, he])
    cases this
  · intro htold
    obtain ⟨event, reason, hlast, hreason⟩ := htold rfl
    have := hunf (.ok event) (by simp [Streaming.outputs, List.mem_of_getLast? hlast])
    rw [terminal_ok_iff.2 ⟨reason, hreason⟩] at this
    cases this

theorem forwarding_init (request_id : String) (events : EngineEventStream) :
    Forwarding { request_id, events } := ⟨rfl, rfl, by simp [Unfinished, Streaming.outputs]⟩

/-- The task forwards as long as its polls answer. -/
theorem forwarding_run {self : Streaming} {acts : List Act} (hreads : .disconnect ∉ acts)
    (h : Along step Answers self acts) (hs : Forwarding self) :
    Forwarding (run step self acts) := by
  induction acts generalizing self with
  | nil => exact hs
  | cons act acts ih =>
    have hact : act ≠ .disconnect := fun e => hreads (e ▸ List.mem_cons_self)
    exact ih (fun hmem => hreads (List.mem_cons_of_mem _ hmem)) h.2 (forwarding_step hact h.1 hs)

/-- A client that keeps reading is told how the answer ended exactly in the
    runs in which no poll of the forwarding task finds the server shutting
    down, or the engine stream over, before a terminal item. -/
theorem streaming_told_iff (request_id : String) (events : EngineEventStream) {acts : List Act}
    (hreads : .disconnect ∉ acts) :
    Told (run step { request_id, events } acts) ↔
      ((run step { request_id, events } acts).ended.isSome →
        Along step Answers { request_id, events } acts) := by
  have hinit := forwarding_init request_id events
  constructor
  · intro htold hended
    by_contra hnot
    -- the first poll that does not answer ends the task, with no terminal sent
    obtain ⟨before, act, after, rfl, hbefore, hact⟩ := exists_first_of_not_along hnot
    have hforwarding := forwarding_run (fun h => hreads (List.mem_append_left _ h)) hbefore hinit
    have hquit := quit_of_not_answers hact hforwarding
    rw [run_append, run_cons] at htold hended
    exact not_told_of_quit (invariant (fun s a h => quit_step a h) hquit after) hended htold
  · intro halong hok
    have hended := halong (by rw [hok]; rfl)
    exact told_of_forwarding (forwarding_run hreads hended hinit) hok

/-- The server shuts down after the first event of a complete answer: the
    response ends with OK all the same. -/
theorem streaming_not_told_shutdown :
    let answer := completed ["Hel", "lo"] ⟨1, 2, 3⟩ .Stop
    let self := run step { request_id := "grpc-1", events := answer }
      [.poll true, .poll true, .shutdown, .poll true, .read, .read]
    self.received = [⟨"grpc-1", some (.Delta "Hel")⟩] ∧ self.ended = some (.ok ()) ∧
      ¬ Told self := by
  refine ⟨rfl, rfl, fun htold => ?_⟩
  obtain ⟨event, reason, hlast, hreason⟩ := htold rfl
  cases hlast
  cases hreason

/-- Read to its end, an answer without a shutdown tells the finish reason. -/
theorem streaming_told_finished :
    let answer := completed ["Hello"] ⟨1, 1, 2⟩ .Stop
    let self := run step { request_id := "grpc-1", events := answer }
      [.poll true, .poll true, .poll true, .poll true, .poll true, .poll true, .read, .read, .read,
        .read]
    self.received.map (·.payload) =
        [some (.Delta "Hello"), some (.Usage ⟨1, 1, 2⟩), some (.FinishReason "stop")] ∧
      self.ended = some (.ok ()) ∧ Told self :=
  ⟨by decide, by decide,
    (streaming_told_iff "grpc-1" (completed ["Hello"] ⟨1, 1, 2⟩ .Stop) (by decide)).2 fun _ =>
      ⟨⟨rfl, fun _ => rfl⟩, trivial, ⟨rfl, fun _ => rfl⟩, trivial, ⟨rfl, fun _ => rfl⟩, trivial,
        trivial, trivial, trivial, trivial, trivial⟩⟩

end Inferences.Server.Grpc
