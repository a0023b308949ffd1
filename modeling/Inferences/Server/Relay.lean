import Inferences.Engine.Refinement
import Inferences.Engine.Survival
import Inferences.Server.Grpc

/-!
# A gRPC response over the engine

A streaming call forwards the events of its generation, as the engine sends
them, to a channel of its own, from which its client reads. Here the task that
forwards runs over the engine itself: the generation, its sidecar and everything
else that uses the engine go on in any order, next to the client and the
shutdown of the server.

* `relay_decodes`: what the client has been told is, at any time, the start of
  what the decoder makes of the bytes the sidecar has sent; all of it, once it
  was told the finish reason or an error of the response.
-/

namespace Inferences.Server.Grpc

open Json Schedule

theorem Streaming.poll_request_id (forward : Streaming) (ready : Bool) :
    (forward.poll ready).request_id = forward.request_id := by
  unfold Streaming.poll Streaming.select Streaming.send
  repeat' split
  all_goals rfl

theorem Streaming.read_request_id (forward : Streaming) :
    forward.read.request_id = forward.request_id := by
  rcases forward.read_cases with hread | ⟨-, ⟨event, channel, -, hread⟩ |
    ⟨status, channel, -, hread⟩ | ⟨-, -, hread⟩⟩ <;> rw [hread]

/-- What the stream of a generation has for its reader: the next item, or its
    end. -/
def next (task : Engine.Task) : Option EngineEventStream :=
  if task.disconnected then none
  else match task.channel, task.phase with
    | item :: _, _ => some [item]
    | [], .ended => some []
    | [], _ => none

/-- A streaming response, and the engine with its generation. -/
structure Relay where
  engine : Engine.GenerationEngine
  generation : Nat
  forward : Streaming

/-- An act of the engine, of the forwarding task, or of their environment. -/
inductive RelayAct
  | engine (act : Engine.Act)
  | shutdown
  | disconnect
  | poll
  | read

namespace Relay

variable (from_slice : Bytes → Option Value)

/-- A streaming call of an admitted request. -/
def streaming (engine : Engine.GenerationEngine) (request_id : String)
    (request : Engine.NormalizedRequest) : Option Relay :=
  match engine.generate (.ok request) with
  | (engine, .ok generation) => some { engine, generation, forward := { request_id, events := [] } }
  | (_, .error _) => none

/-- One poll of the task: at its `select!` it reads from the stream. -/
def poll (self : Relay) : Relay :=
  match self.forward.task with
  | .selecting =>
    if self.forward.shutdown || self.forward.closed then
      { self with forward := self.forward.poll false }
    else match (self.engine.tasks[self.generation]?).bind next with
      | some events =>
        { self with
          engine := self.engine.step from_slice (.signal self.generation .recv)
          forward := { self.forward with events }.poll true }
      | none => { self with forward := self.forward.poll false }
  | _ => { self with forward := self.forward.poll false }

/-- The task has returned, and drops its stream. -/
def drops (self : Relay) : Bool :=
  match self.forward.task with
  | .returned => true
  | _ => false

/-- The stream is that of the task alone. -/
def others (self : Relay) : Engine.Act → Bool
  | .signal i .recv => i ≠ self.generation
  | .signal i .disconnect | .signal i .close => i ≠ self.generation || self.drops
  | _ => true

/-- The relay after one act. -/
def step (self : Relay) : RelayAct → Relay
  | .engine act =>
    if self.others act then { self with engine := self.engine.step from_slice act } else self
  | .shutdown => { self with forward := Grpc.step self.forward .shutdown }
  | .disconnect => { self with forward := Grpc.step self.forward .disconnect }
  | .poll => self.poll from_slice
  | .read => { self with forward := Grpc.step self.forward .read }

/-- What an act takes from the response to the generation. -/
def takes (self : Relay) : RelayAct → List (Except Unit Bytes)
  | .engine act => if self.others act then self.engine.takes self.generation act else []
  | _ => []

variable {from_slice : Bytes → Option Value} {self : Relay}

/-! ## The stream -/

/-- What stays of a generation when its stream is not read. -/
structure Unread (task task' : Engine.Task) : Prop where
  received : task'.received = task.received
  request : task'.request = task.request

/-- Only a receive takes an item from the channel of a task. -/
theorem unread_step {engine : Engine.GenerationEngine} {i : Nat} {task : Engine.Task}
    (h : engine.tasks[i]? = some task) {act : Engine.Act} (hact : act ≠ .signal i .recv) :
    ∃ task', (engine.step from_slice act).tasks[i]? = some task' ∧ Unread task task' := by
  have hstay {engine' : Engine.GenerationEngine} (htasks : engine'.tasks = engine.tasks) :
      ∃ task', engine'.tasks[i]? = some task' ∧ Unread task task' :=
    ⟨task, htasks ▸ h, rfl, rfl⟩
  have hcall (j : Nat) (step : Engine.Call → Engine.Shared × Engine.Call) :
      (engine.with_call j step).tasks = engine.tasks := by
    unfold Engine.GenerationEngine.with_call
    split <;> rfl
  have htask (j : Nat) (step : Engine.Task → Engine.Shared × Engine.Task)
      (hself : j = i → Unread task (step task).2) :
      ∃ task', (engine.with_task j step).tasks[i]? = some task' ∧ Unread task task' := by
    unfold Engine.GenerationEngine.with_task
    split
    · exact hstay rfl
    · rename_i task' hj
      by_cases hij : j = i
      · subst hij
        obtain rfl := Option.some.inj (h.symm.trans hj)
        exact ⟨_, List.getElem?_set_self (List.getElem?_eq_some_iff.1 h).1, hself rfl⟩
      -- A step of another task.
      · exact ⟨task, (List.getElem?_set_ne hij).trans h, rfl, rfl⟩
  cases act with
  | generate request =>
    rw [Engine.GenerationEngine.step]
    unfold Engine.GenerationEngine.generate
    split
    · exact hstay rfl
    split
    · exact hstay rfl
    split
    · exact hstay rfl
    · exact ⟨task, (List.getElem?_append_left (List.getElem?_eq_some_iff.1 h).1).trans h, rfl, rfl⟩
  | poll j choice =>
    -- A poll puts items into the channel and takes none.
    have hkept {task' : Engine.Task} (h : task.Kept task') : Unread task task' := by
      obtain ⟨phase, channel, rfl⟩ := h
      exact ⟨rfl, rfl⟩
    exact htask j _ fun _ =>
      hkept (Engine.Task.poll_polled from_slice task j engine.shared choice).kept
  | signal j signal =>
    refine htask j _ fun hij => ?_
    cases signal with
    | recv => exact absurd (hij ▸ rfl) hact
    | close =>
      dsimp only [Engine.Task.signal]
      split <;> exact ⟨rfl, rfl⟩
    | _ => exact ⟨rfl, rfl⟩
  | status => exact hstay rfl
  | shutdown => exact hstay rfl
  | poll_call j choice => exact hstay (hcall j _)
  | abandon j => exact hstay (hcall j _)
  | exit child => exact hstay rfl

/-- Reading the stream takes what it has. -/
theorem recv_next {task : Engine.Task} {events : EngineEventStream} (h : next task = some events) :
    (task.signal .recv).request = task.request ∧
      ((∃ item, events = [item] ∧ (task.signal .recv).received = task.received ++ [item]) ∨
        events = [] ∧ (task.signal .recv).received = task.received) := by
  have hconnected : task.disconnected = false := by
    cases hcase : task.disconnected with
    | false => rfl
    | true => simp [next, hcase] at h
  cases hchannel : task.channel with
  | nil =>
    have hphase : task.phase = .ended := by
      cases hcase : task.phase <;> simp [next, hconnected, hchannel, hcase] at h ⊢
    obtain rfl : events = [] := by simpa [next, hconnected, hchannel, hphase] using h.symm
    simp [Engine.Task.signal, hconnected, hchannel, hphase]
  | cons item channel =>
    obtain rfl : events = [item] := by simpa [next, hconnected, hchannel] using h.symm
    simp [Engine.Task.signal, hconnected, hchannel]

/-! ## The task -/

/-- The task has passed on what it has read, but for the output it is about to
    send. -/
def Forwards (forward : Streaming) (received : EngineEventStream) : Prop :=
  match forward.task with
  | .selecting => forward.outputs = received.map (output forward.request_id)
  | .sending out _ => forward.outputs ++ [out] = received.map (output forward.request_id)
  | .returned => forward.outputs <+: received.map (output forward.request_id)

/-- What is put out is what was received, as far as it goes. -/
theorem Forwards.outputs_forwarded {forward : Streaming} {received : EngineEventStream}
    (h : Forwards forward received) :
    forward.outputs <+: received.map (output forward.request_id) := by
  unfold Forwards at h
  split at h
  · exact h ▸ List.prefix_rfl
  · exact h ▸ List.prefix_append _ _
  · exact h

/-- A read keeps the forwarding in order. -/
theorem forwards_read {forward : Streaming} {received : EngineEventStream}
    (h : Forwards forward received) : Forwards forward.read received := by
  have htask : forward.read.task = forward.task := by
    rcases forward.read_cases with hread | ⟨-, ⟨event, channel, -, hread⟩ |
      ⟨status, channel, -, hread⟩ | ⟨-, -, hread⟩⟩ <;> rw [hread]
  unfold Forwards at h ⊢
  rwa [htask, forward.read_request_id, forward.outputs_read]

/-- A task that is not at its `select!` sends, or is done. -/
theorem forwards_send {forward : Streaming} {received : EngineEventStream}
    (h : Forwards forward received) (htask : forward.task ≠ .selecting) (ready : Bool) :
    Forwards (forward.poll ready) received := by
  have hprefix := h.outputs_forwarded
  unfold Streaming.poll
  cases hcase : forward.task with
  | selecting => exact absurd hcase htask
  | sending out last =>
    unfold Forwards at h
    rw [hcase] at h
    dsimp only at h ⊢
    unfold Streaming.send
    split
    · exact hprefix
    split
    · have hsent : ({ forward with
          channel := forward.channel ++ [out]
          task := if last then .returned else .selecting } : Streaming).outputs =
          forward.outputs ++ [out] := by
        simp [Streaming.outputs]
      unfold Forwards
      cases last
      · exact hsent.trans h
      · exact (hsent.trans h) ▸ List.prefix_rfl
    · unfold Forwards
      rw [hcase]
      exact h
  | returned => exact h

/-- At its `select!` the task stops, or takes what the stream has. -/
theorem forwards_select {forward : Streaming} {received : EngineEventStream}
    (h : Forwards forward received) (htask : forward.task = .selecting) :
    (∀ ready, (forward.shutdown || forward.closed) = true →
        Forwards (forward.poll ready) received) ∧
      Forwards (forward.poll false) received ∧
      ((forward.shutdown || forward.closed) = false →
        Forwards ({ forward with events := [] }.poll true) received ∧
        ∀ item, Forwards ({ forward with events := [item] }.poll true) (received ++ [item])) := by
  have hprefix := h.outputs_forwarded
  have hequal := h
  unfold Forwards at hequal
  rw [htask] at hequal
  -- A task that is told to stop returns at its next poll.
  have hstop (ready : Bool) (hstopped : (forward.shutdown || forward.closed) = true) :
      Forwards (forward.poll ready) received := by
    have hreturns : forward.poll ready = { forward with cancelled := true, task := .returned } := by
      rcases Bool.or_eq_true_iff.1 hstopped with hshutdown | hclosed
      · simp [Streaming.poll, htask, Streaming.select, hshutdown]
      · simp [Streaming.poll, htask, Streaming.select, hclosed]
    rw [hreturns]
    exact hprefix
  refine ⟨hstop, ?_, fun hopen => ?_⟩
  · cases hopen : forward.shutdown || forward.closed with
    | true => exact hstop false hopen
    | false =>
      rw [Bool.or_eq_false_iff] at hopen
      have hwaits : forward.poll false = forward := by
        simp [Streaming.poll, htask, Streaming.select, hopen]
      rwa [hwaits]
  · rw [Bool.or_eq_false_iff] at hopen
    refine ⟨?_, fun item => ?_⟩
    · have hends : ({ forward with events := [] } : Streaming).poll true =
          { forward with events := [], task := .returned } := by
        simp [Streaming.poll, htask, Streaming.select, hopen]
      rw [hends]
      exact hprefix
    · have htakes : ({ forward with events := [item] } : Streaming).poll true =
          { forward with
            events := []
            task := .sending (output forward.request_id item)
              (terminal (output forward.request_id item)) } := by
        simp [Streaming.poll, htask, Streaming.select, hopen]
      rw [htakes]
      change forward.outputs ++ [output forward.request_id item] = _
      rw [hequal, List.map_append, List.map_singleton]

/-! ## The steps -/

/-- What holds of a response and of its generation. -/
structure Relaying (from_slice : Bytes → Option Value) (request : Engine.NormalizedRequest)
    (request_id : String) (response : List (Except Unit Bytes)) (relay : Relay) : Prop where
  reads : Engine.GenerationEngine.ReadsAt from_slice relay.generation relay.engine response
  forwards : ∃ task, relay.engine.tasks[relay.generation]? = some task ∧ task.request = request ∧
    Forwards relay.forward task.received
  request_id : relay.forward.request_id = request_id

variable {request : Engine.NormalizedRequest} {request_id : String}
  {response : List (Except Unit Bytes)}

/-- Reading the stream of a generation. -/
theorem task_recv {engine : Engine.GenerationEngine} {i : Nat} {task : Engine.Task}
    (h : engine.tasks[i]? = some task) :
    (engine.step from_slice (.signal i .recv)).tasks[i]? = some (task.signal .recv) := by
  rw [Engine.GenerationEngine.step, Engine.GenerationEngine.with_task, h]
  exact List.getElem?_set_self (List.getElem?_eq_some_iff.1 h).1

/-- A poll of the task keeps the forwarding in order. -/
theorem relaying_poll (h : Relaying from_slice request request_id response self) :
    Relaying from_slice request request_id response (self.poll from_slice) := by
  obtain ⟨hreads, ⟨task, htask, hrequest, hforwards⟩, hid⟩ := h
  have hquiet {forward : Streaming} (hforwards : Forwards forward task.received)
      (hframe : forward.request_id = self.forward.request_id) :
      Relaying from_slice request request_id response { self with forward } :=
    ⟨hreads, ⟨task, htask, hrequest, hforwards⟩, hframe.trans hid⟩
  unfold poll
  cases hcase : self.forward.task with
  | selecting =>
    obtain ⟨hstop, hwait, htake⟩ := forwards_select hforwards hcase
    dsimp only
    split
    · rename_i hstopped
      exact hquiet (hstop false hstopped) (self.forward.poll_request_id false)
    · rename_i hopen
      obtain ⟨hend, hitem⟩ := htake (by simpa using hopen)
      rw [htask, Option.bind_some]
      -- The engine gives the item, and the task takes it, in one poll.
      have hrecv : (self.engine.step from_slice (.signal self.generation .recv)).tasks[
          self.generation]? = some (task.signal .recv) := task_recv htask
      have hread : Engine.GenerationEngine.ReadsAt from_slice self.generation
          (self.engine.step from_slice (.signal self.generation .recv)) (response ++ []) :=
        Engine.GenerationEngine.readsAt_step hreads (.signal self.generation .recv)
      rw [List.append_nil] at hread
      split
      · rename_i events hnext
        have hid' := (Streaming.poll_request_id { self.forward with events } true).trans hid
        refine ⟨hread, ⟨_, hrecv, ?_⟩, hid'⟩
        obtain ⟨hsame, ⟨item, rfl, hreceived⟩ | ⟨rfl, hreceived⟩⟩ := recv_next hnext
        · exact ⟨hsame.trans hrequest, hreceived ▸ hitem item⟩
        · exact ⟨hsame.trans hrequest, hreceived ▸ hend⟩
      · exact hquiet hwait (self.forward.poll_request_id false)
  | sending out last =>
    exact hquiet (forwards_send hforwards (by simp [hcase]) false)
      (self.forward.poll_request_id false)
  | returned =>
    exact hquiet (forwards_send hforwards (by simp [hcase]) false)
      (self.forward.poll_request_id false)

/-- So does an act of the engine. -/
theorem relaying_engine (h : Relaying from_slice request request_id response self)
    {act : Engine.Act} (hact : act ≠ .signal self.generation .recv) :
    Relaying from_slice request request_id (response ++ self.engine.takes self.generation act)
      { self with engine := self.engine.step from_slice act } := by
  obtain ⟨hreads, ⟨task, htask, hrequest, hforwards⟩, hid⟩ := h
  obtain ⟨task', htask', hunread⟩ := unread_step htask hact
  refine ⟨Engine.GenerationEngine.readsAt_step hreads act, ⟨task', htask', ?_, ?_⟩, hid⟩
  · rw [hunread.request, hrequest]
  · rw [hunread.received]
    exact hforwards

/-- So does every act. -/
theorem relaying_step (h : Relaying from_slice request request_id response self) (act : RelayAct) :
    Relaying from_slice request request_id (response ++ self.takes act)
      (self.step from_slice act) := by
  have hquiet {relay : Relay} (h : Relaying from_slice request request_id response relay) :
      Relaying from_slice request request_id (response ++ []) relay := by rwa [List.append_nil]
  cases act with
  | engine act =>
    rw [step, takes]
    split
    · rename_i hothers
      refine relaying_engine h ?_
      rintro rfl
      simp [others] at hothers
    · exact hquiet h
  | shutdown => exact hquiet ⟨h.reads, h.forwards, h.request_id⟩
  | disconnect => exact hquiet ⟨h.reads, h.forwards, h.request_id⟩
  | poll => exact hquiet (relaying_poll h)
  | read =>
    obtain ⟨hreads, ⟨task, htask, hrequest, hforwards⟩, hid⟩ := h
    exact hquiet ⟨hreads, ⟨task, htask, hrequest, forwards_read hforwards⟩,
      self.forward.read_request_id.trans hid⟩

theorem relaying_streaming {engine : Engine.GenerationEngine}
    (h : streaming engine request_id request = some self) :
    Relaying from_slice request request_id [] self := by
  unfold streaming Engine.GenerationEngine.generate at h
  split at h
  · rename_i engine' generation hgenerate
    split at hgenerate
    · cases hgenerate
    dsimp only at hgenerate
    split at hgenerate
    · cases hgenerate
    cases hgenerate
    cases h
    refine ⟨⟨fun _ => rfl, fun task htask => ?_⟩, ?_, rfl⟩
    · have hnew := List.getElem?_concat_length (l := engine.tasks)
        (a := ({ request, event_capacity := engine.config.event_capacity } : Engine.Task))
      rw [hnew] at htask
      cases htask
      exact Engine.reads_new ..
    · exact ⟨_, List.getElem?_concat_length, rfl, rfl⟩
  · cases h

/-! ## What the client is told -/

theorem output_error (request_id : String) (e : EngineError) :
    output request_id (.error e) = .error (engine_status e) := rfl

theorem error_of_output {request_id : String} {item : Item} {status : Status}
    (h : output request_id item = .error status) :
    ∃ e, item = .error e ∧ status = engine_status e := by
  cases item with
  | ok event => cases h
  | error e => exact ⟨e, rfl, (Except.error.inj h).symm⟩

theorem finished_of_payload {request_id : String} {event : Inferences.GenerationEvent}
    {reason : String} (h : (grpc_event request_id event).payload = some (.FinishReason reason)) :
    ∃ finish, event = .Finished finish := by
  cases event with
  | Finished finish => exact ⟨finish, rfl⟩
  | _ => cases h

section

variable {α : Type} {messages : List GenerationEvent} {events : List α} {f : α → GenerationEvent}
  {rest : List Output}

/-- Only errors come after the messages. -/
theorem ok_notMem_errors (hrest : ∀ out ∈ rest, ∃ status, out = .error status)
    {message : GenerationEvent} {more : List Output} : ¬ .ok message :: more <+: rest := by
  intro h
  obtain ⟨status, hstatus⟩ := hrest _ (h.subset List.mem_cons_self)
  cases hstatus

theorem prefix_of_outputs (hrest : ∀ out ∈ rest, ∃ status, out = .error status)
    (h : messages.map .ok <+: (events.map fun event => .ok (f event)) ++ rest) :
    ∃ start, start <+: events ∧ messages = start.map f := by
  induction messages generalizing events with
  | nil => exact ⟨[], List.nil_prefix, rfl⟩
  | cons message messages ih =>
    cases events with
    | nil => exact absurd h (ok_notMem_errors hrest)
    | cons event events =>
      obtain ⟨hhead, htail⟩ := List.cons_prefix_cons.1 h
      obtain ⟨start, hstart, rfl⟩ := ih htail
      cases hhead
      exact ⟨event :: start, List.cons_prefix_cons.2 ⟨rfl, hstart⟩, rfl⟩

/-- An error comes after all of the messages. -/
theorem all_of_error (hrest : ∀ out ∈ rest, ∃ status, out = .error status) {status : Status}
    (h : messages.map .ok ++ [.error status] <+: (events.map fun event => .ok (f event)) ++ rest) :
    messages = events.map f := by
  induction messages generalizing events with
  | nil =>
    cases events with
    | nil => rfl
    | cons event events => cases (List.cons_prefix_cons.1 h).1
  | cons message messages ih =>
    cases events with
    | nil => exact absurd h (ok_notMem_errors hrest)
    | cons event events =>
      obtain ⟨hhead, htail⟩ := List.cons_prefix_cons.1 h
      cases hhead
      rw [ih htail, List.map_cons]

end

/-- What the client of a response has been told, by the bytes that its generation
    has read: the start of the events, in order, each once; all of them, once it
    was told the finish reason; and the error it was told, if any, is a stop, or
    was there before the response, or is that of the response, after all of its
    events. -/
structure Relayed (from_slice : Bytes → Option Value) (request : Engine.NormalizedRequest)
    (request_id : String) (response : List (Except Unit Bytes)) (forward : Streaming) : Prop where
  start : ∃ events, events <+: (Engine.consume_sse from_slice request response).1 ∧
    forward.received = events.map (grpc_event request_id)
  finished : ∀ event ∈ forward.received, ∀ reason, event.payload = some (.FinishReason reason) →
    ∃ events, Engine.consume_sse from_slice request response = (events, .ok ()) ∧
      forward.received = events.map (grpc_event request_id)
  failed : ∀ status, forward.ended = some (.error status) → ∃ e, status = engine_status e ∧
    (Engine.Stopping e ∨ response = [] ∨
      ∃ events, Engine.consume_sse from_slice request response = (events, .error e) ∧
        forward.received = events.map (grpc_event request_id))

theorem map_output_events (request_id : String) (events : List Inferences.GenerationEvent) :
    (Engine.events_of events).map (output request_id) =
      events.map fun event => .ok (grpc_event request_id event) := by
  simp [Engine.events_of, output, Except.map, Except.mapError]

theorem relayed_of_forwards {forward : Streaming} {task : Engine.Task}
    (hrequest : task.request = request) (h : Forwards forward task.received)
    (hdecodes : Engine.Decodes from_slice response task) :
    Relayed from_slice request forward.request_id response forward := by
  subst hrequest
  have houtputs := h.outputs_forwarded
  have hmessages : forward.received.map .ok <+:
      task.received.map (output forward.request_id) := by
    refine List.IsPrefix.trans ?_ houtputs
    rw [Streaming.outputs, List.append_assoc]
    exact List.prefix_append _ _
  obtain ⟨events, hevents, hreceived⟩ := hdecodes.start
  obtain ⟨start, hstart, htold⟩ : ∃ start, start <+: events ∧
      forward.received = start.map (grpc_event forward.request_id) := by
    rcases hreceived with hreceived | ⟨e, hreceived⟩
    · rw [hreceived, map_output_events, ← List.append_nil (List.map _ events)] at hmessages
      exact prefix_of_outputs (by simp) hmessages
    · rw [hreceived, List.map_append, map_output_events] at hmessages
      exact prefix_of_outputs (by simp [output_error]) hmessages
  refine ⟨⟨start, hstart.trans hevents, htold⟩, fun event hevent reason hreason => ?_,
    fun status hstatus => ?_⟩
  · -- the finish reason is an item of the stream, so the whole response was read
    obtain ⟨own, hown, rfl⟩ := List.mem_map.1 (htold ▸ hevent)
    obtain ⟨finish, rfl⟩ := finished_of_payload hreason
    have hmem : .ok (.Finished finish) ∈ task.received := by
      rcases hreceived with hreceived | ⟨e, hreceived⟩ <;>
      · rw [hreceived]
        simpa [Engine.events_of] using hstart.subset hown
    obtain ⟨whole, hwhole, heq⟩ := hdecodes.completed finish hmem
    rw [heq, map_output_events, ← List.append_nil (List.map _ whole)] at hmessages
    obtain ⟨start', ⟨rest, hrest⟩, htold'⟩ := prefix_of_outputs (by simp) hmessages
    refine ⟨whole, hwhole, ?_⟩
    cases rest with
    | nil => rw [htold', ← hrest, List.append_nil]
    | cons last rest =>
      obtain ⟨own', hown', hsame⟩ := List.mem_map.1 (htold' ▸ hevent)
      rw [← hsame] at hreason
      obtain ⟨finish', rfl⟩ := finished_of_payload hreason
      have hpre : start' ++ last :: rest <+:
          (Engine.consume_sse from_slice task.request response).1 := by
        rw [hrest, hwhole]
      exact absurd hown' (Engine.finished_notMem_start hpre finish')
  · have herror : forward.received.map .ok ++ [.error status] <+:
        task.received.map (output forward.request_id) := by
      refine List.IsPrefix.trans ?_ houtputs
      rw [Streaming.outputs, hstatus]
      exact List.prefix_append _ _
    obtain ⟨item, hitem, houtput⟩ := List.mem_map.1 (herror.subset List.mem_concat_self)
    obtain ⟨e, rfl, rfl⟩ := error_of_output houtput
    refine ⟨e, rfl, (hdecodes.failed e hitem).imp_right (Or.imp_right ?_)⟩
    rintro ⟨whole, hwhole, heq⟩
    rw [heq, List.map_append, map_output_events] at herror
    exact ⟨whole, hwhole, all_of_error (by simp [output_error]) herror⟩

/-- A gRPC streaming response over a running engine: whatever the sidecar, the
    other generations, the server and the client do, the client is told what the
    decoder makes of the bytes its generation has read. -/
theorem relay_decodes (from_slice : Bytes → Option Value) {engine : Engine.GenerationEngine}
    {request_id : String} {request : Engine.NormalizedRequest} {relay : Relay}
    (h : streaming engine request_id request = some relay) (acts : List RelayAct) :
    Relayed from_slice request request_id (outputs (step from_slice) takes relay acts)
      (run (step from_slice) relay acts).forward := by
  have hrun := invariant_outputs (P := fun relay response =>
      Relaying from_slice request request_id response relay)
    (fun _ act _ h => relaying_step h act) (relaying_streaming h) acts
  rw [List.nil_append] at hrun
  obtain ⟨hreads, ⟨task, htask, hrequest, hforwards⟩, hid⟩ := hrun
  exact hid ▸ relayed_of_forwards hrequest hforwards (hreads.reads task htask).decodes

/-- A call that is cancelled when its client has the delta of the first chunk. -/
theorem relay_decodes_cancelled :
    let from_slice (_ : Bytes) : Option Value :=
      some (.object [("choices", .array [.object [("text", .string "Hi")]])])
    let request : Engine.NormalizedRequest := ⟨.Completion "", 2, 0, 1, none, []⟩
    let choice : Engine.Choice :=
      { permit := true, lock := true, exited := .ok false, prepared := .ok ()
        launch := none, probe := none, elapsed := false, late := false
        terminated := false, remaining := some 1, response := some (.ok 200)
        next := some (some (.ok (Engine.DATA ++ [32, 48, Engine.LF]))) }
    let acts : List RelayAct := [.engine (.poll 0 choice), .engine (.poll 0 choice),
      .engine (.poll 0 choice), .engine (.poll 0 choice), .engine (.poll 0 choice),
      .engine (.poll 0 choice), .poll, .poll, .read, .engine (.signal 0 .cancel),
      .engine (.poll 0 choice), .engine (.poll 0 choice), .poll, .poll, .read]
    ∃ relay, streaming Engine.GenerationEngine.small_engine "grpc-1" request = some relay ∧
      (run (step from_slice) relay acts).forward.received = [⟨"grpc-1", some (.Delta "Hi")⟩] ∧
      (run (step from_slice) relay acts).forward.ended =
        some (.error (engine_status .Cancelled)) ∧
      Relayed from_slice request "grpc-1" (outputs (step from_slice) takes relay acts)
        (run (step from_slice) relay acts).forward := by
  intro from_slice request choice acts
  have hcall : streaming Engine.GenerationEngine.small_engine "grpc-1" request = some _ := rfl
  exact ⟨_, hcall, by decide +kernel, by decide +kernel, relay_decodes from_slice hcall acts⟩

end Relay

end Inferences.Server.Grpc
