import Inferences.Engine.Delivery

/-!
# A generation decodes its response

A generation reads the response of its sidecar one chunk a poll, sends its
events one a poll, and can be stopped between any two polls. What its consumer
receives is, at any time, the start of what the decoder `consume_sse` makes of
the chunks read so far; all of it, when the generation completed, or failed by
an error of the response (`generation_decodes`).

The chunks read are what the polls of a run take from the response
(`Task.takes`). The invariant `Reads` relates them to what the task has put
into its channel and to what it has yet to send.
-/

namespace Inferences.Engine

open Json Schedule

/-- The errors of a generation that was stopped. -/
def Stopping (e : EngineError) : Prop :=
  e = .Cancelled ∨ e = .DeadlineExceeded ∨ e = .ShuttingDown

/-- What a poll of a task takes from the response: the next chunk, or the error
    of the transport. -/
def Task.takes (self : Task) (shared : Shared) (choice : Choice) : List (Except Unit Bytes) :=
  match self.phase with
  | .reading _ _ => if (self.stopped shared).isNone then (choice.next.join).toList else []
  | _ => []

/-- What an act takes from the response to the generation `i`. -/
def GenerationEngine.takes (i : Nat) (self : GenerationEngine) : Act → List (Except Unit Bytes)
  | .poll j choice =>
    if j = i then (self.tasks[i]?).elim [] fun task => task.takes self.shared choice else []
  | _ => []

/-- The response to the generation `i`, as far as the run has read it. -/
def GenerationEngine.response (from_slice : Bytes → Option Value) (i : Nat) :
    GenerationEngine → List Act → List (Except Unit Bytes) :=
  outputs (GenerationEngine.step from_slice) (GenerationEngine.takes i)

/-- What the consumer of a generation has received, by the response that was
    read: the start of its events, and then maybe an error; all of them, where
    they end with a finish reason or with an error of the response. -/
structure Decodes (from_slice : Bytes → Option Value) (response : List (Except Unit Bytes))
    (task : Task) : Prop where
  start : ∃ events, events <+: (consume_sse from_slice task.request response).1 ∧
    (task.received = events_of events ∨ ∃ e, task.received = events_of events ++ [.error e])
  completed : ∀ reason, .ok (.Finished reason) ∈ task.received →
    ∃ events, consume_sse from_slice task.request response = (events, .ok ()) ∧
      task.received = events_of events
  failed : ∀ e, .error e ∈ task.received → Stopping e ∨ response = [] ∨
    ∃ events, consume_sse from_slice task.request response = (events, .error e) ∧
      task.received = events_of events ++ [.error e]

variable {from_slice : Bytes → Option Value} {request : NormalizedRequest}

/-! ## The decoder, chunk by chunk -/

/-- Reading on where the chunks so far have left off. -/
theorem consume_chunks_extend {self progress : Progress} {pending buffer : Bytes}
    {response : List (Except Unit Bytes)} {deltas : List String}
    (h : consume_chunks from_slice request self pending response = (deltas, .ok (progress, buffer)))
    (hdone : progress.done = false) (more : List (Except Unit Bytes)) :
    consume_chunks from_slice request self pending (response ++ more) =
      let rest := consume_chunks from_slice request progress buffer more
      (deltas ++ rest.1, rest.2) := by
  induction response generalizing self pending deltas with
  | nil =>
    cases h
    rfl
  | cons item response ih =>
    cases item with
    | error => cases h
    | ok chunk =>
      rw [List.cons_append, consume_chunks]
      rw [consume_chunks] at h
      rcases hfeed : feed from_slice request self pending chunk with ⟨sent, e | ⟨next, left⟩⟩
      · rw [hfeed] at h
        cases h
      · rw [hfeed] at h
        dsimp only at h ⊢
        split
        · rename_i hnext
          rw [if_pos hnext] at h
          cases h
          rw [hdone] at hnext
          cases hnext
        · rename_i hnext
          rw [if_neg hnext, Prod.mk.injEq] at h
          obtain ⟨rfl, hrest⟩ := h
          rw [ih (Prod.ext rfl hrest), List.append_assoc]

/-- The decoder, where the chunks were read without an error. -/
theorem consume_sse_of_read {response : List (Except Unit Bytes)} {deltas : List String}
    {progress : Progress} {buffer : Bytes}
    (h : consume_chunks from_slice request {} [] response = (deltas, .ok (progress, buffer))) :
    consume_sse from_slice request response =
      (deltas.map .Delta ++ (conclude progress buffer).1, (conclude progress buffer).2) := by
  rw [consume_sse, h]

/-- The events of the decoder are deltas, and then the usage and the finish
    reason if the response was complete. -/
theorem consume_sse_events (from_slice : Bytes → Option Value) (request : NormalizedRequest)
    (response : List (Except Unit Bytes)) :
    ∃ deltas : List String,
      (∃ e, consume_sse from_slice request response = (deltas.map .Delta, .error e)) ∨
        ∃ usage finish, consume_sse from_slice request response =
          (deltas.map .Delta ++ [.Usage usage, .Finished finish], .ok ()) := by
  rcases h : consume_chunks from_slice request {} [] response with ⟨deltas, e | ⟨progress, buffer⟩⟩
  · refine ⟨deltas, .inl ⟨e, ?_⟩⟩
    rw [consume_sse, h]
  · refine ⟨deltas, ?_⟩
    rw [consume_sse_of_read h]
    rcases conclude_cases progress buffer with hc | ⟨finish, usage, -, -, hc⟩
    · rw [hc]
      exact .inl ⟨_, by rw [List.append_nil]⟩
    · rw [hc]
      exact .inr ⟨usage, finish, rfl⟩

theorem finished_notMem_deltas (reason : FinishReason) (deltas : List String) :
    GenerationEvent.Finished reason ∉ deltas.map GenerationEvent.Delta := by simp

/-- The finish reason is the last event: it is not among those before another. -/
theorem finished_notMem_start {response : List (Except Unit Bytes)}
    {events rest : List GenerationEvent} {event : GenerationEvent}
    (h : events ++ event :: rest <+: (consume_sse from_slice request response).1)
    (reason : FinishReason) : .Finished reason ∉ events := by
  obtain ⟨after, hafter⟩ := h
  have hstart : events <+: (consume_sse from_slice request response).1.dropLast := by
    rw [← hafter, List.append_assoc, List.cons_append, List.dropLast_append_of_ne_nil (by simp)]
    exact List.prefix_append _ _
  intro hmem
  have hlast := hstart.subset hmem
  obtain ⟨deltas, ⟨e, heq⟩ | ⟨usage, finish, heq⟩⟩ :=
    consume_sse_events from_slice request response
  · rw [heq] at hlast
    exact finished_notMem_deltas reason deltas (List.dropLast_subset _ hlast)
  · rw [heq, List.dropLast_append_of_ne_nil (by simp)] at hlast
    simp at hlast

/-- An error comes without a finish reason. -/
theorem finished_notMem_failed {response : List (Except Unit Bytes)}
    {events : List GenerationEvent} {e : EngineError}
    (h : consume_sse from_slice request response = (events, .error e)) (reason : FinishReason) :
    .Finished reason ∉ events := by
  obtain ⟨deltas, ⟨e', heq⟩ | ⟨usage, finish, heq⟩⟩ :=
    consume_sse_events from_slice request response
  · rw [h] at heq
    cases heq
    exact finished_notMem_deltas reason deltas
  · rw [h] at heq
    cases heq

/-! ## The task -/

/-- What was put and is to be sent, by what comes after it, is what the decoder
    makes of the response. -/
def Planned (from_slice : Bytes → Option Value) (request : NormalizedRequest)
    (response : List (Except Unit Bytes)) (events : List GenerationEvent) : After → Prop
  | .read progress buffer => progress.done = false ∧ ∃ deltas : List String,
      events = deltas.map .Delta ∧
        consume_chunks from_slice request {} [] response = (deltas, .ok (progress, buffer))
  | .fail e => consume_sse from_slice request response = (events, .error e)
  | .succeed => consume_sse from_slice request response = (events, .ok ())

/-- What was put before the error `e`: all of the events, if it is an error of
    the response. -/
structure Cut (from_slice : Bytes → Option Value) (request : NormalizedRequest)
    (response : List (Except Unit Bytes)) (events : List GenerationEvent) (e : EngineError) :
    Prop where
  start : events <+: (consume_sse from_slice request response).1
  unfinished : ∀ reason, .Finished reason ∉ events
  cause : Stopping e ∨ response = [] ∨
    consume_sse from_slice request response = (events, .error e)

/-- What a task has put into its channel, by the response it has read and by
    where it waits. -/
def Task.Reads (from_slice : Bytes → Option Value) (response : List (Except Unit Bytes))
    (self : Task) : Prop :=
  match self.phase with
  | .reading progress buffer => ∃ events, self.put = events_of events ∧
      Planned from_slice self.request response events (.read progress buffer)
  | .sending event events after => ∃ put, self.put = events_of put ∧
      Planned from_slice self.request response (put ++ event :: events) after
  | .failing e => ∃ events, self.put = events_of events ∧
      Cut from_slice self.request response events e
  | .ended => ∃ events,
      self.put = events_of events ∧
        (consume_sse from_slice self.request response = (events, .ok ()) ∨
          ∃ e, Cut from_slice self.request response events e) ∨
      ∃ e, self.put = events_of events ++ [.error e] ∧
        Cut from_slice self.request response events e
  | _ => self.put = [] ∧ response = []

variable {response : List (Except Unit Bytes)} {task : Task} {shared : Shared}

theorem stopping_of_stopped {e : EngineError} (h : task.stopped shared = some e) : Stopping e := by
  unfold Task.stopped at h
  split_ifs at h <;> cases h <;> simp [Stopping]

/-- The events planned are the start of those of the decoder. -/
theorem Planned.start {events : List GenerationEvent} {after : After}
    (h : Planned from_slice request response events after) :
    events <+: (consume_sse from_slice request response).1 := by
  cases after with
  | read progress buffer =>
    obtain ⟨-, deltas, rfl, hread⟩ := h
    rw [consume_sse_of_read hread]
    exact List.prefix_append _ _
  | fail e => exact (congrArg Prod.fst h) ▸ List.prefix_rfl
  | succeed => exact (congrArg Prod.fst h) ▸ List.prefix_rfl

/-- A stop cuts off what is yet to be sent. -/
theorem Planned.cut {put events : List GenerationEvent} {event : GenerationEvent} {after : After}
    (h : Planned from_slice request response (put ++ event :: events) after) {e : EngineError}
    (he : Stopping e) : Cut from_slice request response put e :=
  ⟨(List.prefix_append _ _).trans h.start, finished_notMem_start h.start, .inl he⟩

theorem cut_nil (e : EngineError) (hcause : Stopping e ∨ response = []) :
    Cut from_slice request response [] e :=
  ⟨List.nil_prefix, by simp, hcause.imp_right .inl⟩

/-- Sending planned events, and then going on, keeps to the plan. -/
theorem proceed_reads {after : After} {put events : List GenerationEvent}
    (hput : task.put = events_of put)
    (h : Planned from_slice task.request response (put ++ events) after) :
    (task.proceed shared after events).2.Reads from_slice response := by
  cases events with
  | cons event events => exact ⟨put, hput, h⟩
  | nil =>
    rw [List.append_nil] at h
    cases after with
    | read progress buffer => exact ⟨put, hput, h⟩
    | fail e => exact ⟨put, hput, h.start, finished_notMem_failed h, .inr (.inr h)⟩
    | succeed => exact ⟨put, .inl ⟨hput, .inl h⟩⟩

/-- The end of the response: its last events, or its error. -/
theorem finish_reads {progress : Progress} {buffer : Bytes} {deltas sent all : List String}
    (hput : task.put = events_of (deltas.map .Delta)) (hall : deltas ++ sent = all)
    (h : consume_chunks from_slice task.request {} [] response = (all, .ok (progress, buffer))) :
    (task.finish shared sent progress buffer).2.Reads from_slice response := by
  have hsse := consume_sse_of_read h
  rw [← hall, List.map_append, List.append_assoc] at hsse
  rw [Task.finish]
  rcases hc : conclude progress buffer with ⟨last, e | ⟨⟩⟩
  · rw [hc] at hsse
    exact proceed_reads hput hsse
  · rw [hc] at hsse
    exact proceed_reads hput hsse

/-- What the response yields is decoded, on top of what was. -/
theorem consume_reads {progress : Progress} {buffer : Bytes} {events : List GenerationEvent}
    {value : Option (Except Unit Bytes)} (hput : task.put = events_of events)
    (h : Planned from_slice task.request response events (.read progress buffer)) :
    (task.consume from_slice shared progress buffer value).2.Reads from_slice
      (response ++ value.toList) := by
  obtain ⟨hdone, deltas, rfl, hread⟩ := h
  have hmore := consume_chunks_extend hread hdone
  unfold Task.consume
  split
  · -- the end of the response
    rw [Option.toList_none, List.append_nil]
    exact finish_reads hput (List.append_nil _) hread
  · have hsse : consume_sse from_slice task.request (response ++ [.error ()]) =
        (deltas.map .Delta, .error .RuntimeUnavailable) := by
      rw [consume_sse, hmore]
      simp [consume_chunks]
    exact ⟨_, hput, (congrArg Prod.fst hsse) ▸ List.prefix_rfl, finished_notMem_failed hsse,
      .inr (.inr hsse)⟩
  · rename_i chunk
    have hchunk := hmore [.ok chunk]
    rw [consume_chunks] at hchunk
    rw [Option.toList_some]
    rcases hfeed : feed from_slice task.request progress buffer chunk
      with ⟨sent, e | ⟨next, left⟩⟩
    · rw [hfeed] at hchunk
      refine proceed_reads hput ?_
      rw [← List.map_append]
      change consume_sse _ _ _ = _
      rw [consume_sse, hchunk]
    · rw [hfeed] at hchunk
      dsimp only at hchunk ⊢
      cases hnext : next.done with
      | true =>
        rw [if_pos hnext] at hchunk
        exact finish_reads hput rfl hchunk
      | false =>
        rw [if_neg (by rw [hnext]; exact Bool.false_ne_true), consume_chunks,
          List.append_nil] at hchunk
        exact proceed_reads hput ⟨hnext, deltas ++ sent, List.map_append.symm, hchunk⟩

/-- Before the response there is nothing to put, and nothing was read. -/
def Task.before_response (self : Task) : Prop :=
  self.phase.locked = true ∨ self.phase = .lane ∨ self.phase = .locking ∨
    self.phase = .connecting ∨ self.phase = .posting

theorem Task.Reads.nothing (h : task.Reads from_slice response) (hphase : task.before_response) :
    task.put = [] ∧ response = [] := by
  unfold Task.Reads at h
  unfold Task.before_response at hphase
  split at h <;> simp_all [Phase.locked]

theorem reads_of_nothing (h : task.put = [] ∧ response = []) (hphase : task.before_response) :
    task.Reads from_slice response := by
  unfold Task.before_response at hphase
  unfold Task.Reads
  split <;> simp_all [Phase.locked]

theorem takes_of_before (choice : Choice) (hphase : task.before_response) :
    task.takes shared choice = [] := by
  unfold Task.before_response at hphase
  unfold Task.takes
  split <;> simp_all [Phase.locked]

/-- A generation that fails before it reads the response has put nothing. -/
theorem fail_reads_nothing (h : task.Reads from_slice response) (hphase : task.before_response)
    (e : EngineError) (shared : Shared) :
    (task.fail shared e).2.Reads from_slice response := by
  obtain ⟨hput, rfl⟩ := h.nothing hphase
  exact ⟨[], hput, cut_nil e (.inr rfl)⟩

variable {i : Nat}

/-- A poll of a task that does not read the response yet. -/
theorem reads_polled_before {r : Shared × Task} (h : task.Reads from_slice response)
    (hphase : task.before_response) (hpolled : Task.Polled from_slice i shared task r) :
    r.2.Reads from_slice response := by
  have hnothing := h.nothing hphase
  cases hpolled with
  | wait => exact h
  | fail e => exact fail_reads_nothing h hphase e shared
  | fail_clear e => exact fail_reads_nothing h hphase e shared.clear_running
  | enter => exact hnothing
  | connect => exact hnothing
  | begin_launch => exact hnothing
  | launch_again attempt => exact hnothing
  | back_off attempt => exact hnothing
  | launch attempt phase _ _ hlocked => exact reads_of_nothing hnothing (.inl hlocked)
  | watch child phase _ hlocked => exact reads_of_nothing hnothing (.inl hlocked)
  | ready attempt child => exact hnothing
  | drop attempt child readiness => exact hnothing
  | post => exact hnothing
  | respond =>
    obtain ⟨hput, rfl⟩ := hnothing
    exact ⟨[], hput, rfl, [], rfl, rfl⟩
  | consume progress buffer value hreading =>
    simp [Task.before_response, hreading, Phase.locked] at hphase
  | send event events after hsending =>
    simp [Task.before_response, hsending, Phase.locked] at hphase
  | report e hfailing => simp [Task.before_response, hfailing, Phase.locked] at hphase
  | forget e hfailing => simp [Task.before_response, hfailing, Phase.locked] at hphase

/-- A poll takes from the response what it decodes. -/
theorem reads_poll (h : task.Reads from_slice response) (i : Nat) (shared : Shared)
    (choice : Choice) : (task.poll from_slice i shared choice).2.Reads from_slice
      (response ++ task.takes shared choice) := by
  -- Before its response, the task takes nothing of it.
  by_cases hbefore : task.before_response
  · rw [takes_of_before choice hbefore, List.append_nil]
    exact reads_polled_before h hbefore (Task.poll_polled from_slice task i shared choice)
  cases hphase : task.phase with
  | reading progress buffer =>
    unfold Task.Reads at h
    rw [hphase] at h
    obtain ⟨events, hput, hplanned⟩ := h
    rw [Task.poll, Task.takes, hphase]
    dsimp only
    cases hstop : task.stopped shared with
    | some e =>
      rw [if_neg (by simp), List.append_nil]
      have hstart := hplanned.start
      obtain ⟨-, deltas, rfl, -⟩ := hplanned
      exact ⟨_, hput, hstart, fun reason => finished_notMem_deltas reason deltas,
        .inl (stopping_of_stopped hstop)⟩
    | none =>
      simp only [Option.isNone_none, if_true]
      rw [Task.advance]
      cases choice.next with
      | none =>
        rw [Option.join_none, Option.toList_none, List.append_nil]
        unfold Task.Reads
        rw [hphase]
        exact ⟨events, hput, hplanned⟩
      -- What comes is decoded; the rest of the plan follows it.
      | some value => exact consume_reads hput hplanned
  | sending event events after =>
    unfold Task.Reads at h
    rw [hphase] at h
    obtain ⟨put, hput, hplanned⟩ := h
    rw [Task.poll, Task.takes, hphase, List.append_nil]
    dsimp only
    cases hstop : task.stopped shared with
    | some e => exact ⟨put, hput, hplanned.cut (stopping_of_stopped hstop)⟩
    | none =>
      dsimp only
      rw [Task.advance, Task.send_event]
      split
      · exact ⟨put, hput, hplanned.cut (.inl rfl)⟩
      split
      · unfold Task.Reads
        rw [hphase]
        exact ⟨put, hput, hplanned⟩
      -- The event is in the channel; the next one waits.
      · have hsent : task.put ++ [.ok event] = events_of (put ++ [event]) := by
          rw [hput]
          simp [events_of]
        refine proceed_reads (Eq.trans (List.append_assoc ..).symm hsent) ?_
        rwa [List.append_assoc]
  | failing e =>
    unfold Task.Reads at h
    rw [hphase] at h
    obtain ⟨events, hput, hcut⟩ := h
    rw [Task.poll, Task.takes, hphase, List.append_nil]
    dsimp only
    rw [Task.send_error]
    split
    · exact ⟨events, .inl ⟨hput, .inr ⟨e, hcut⟩⟩⟩
    split
    · unfold Task.Reads
      rw [hphase]
      exact ⟨events, hput, hcut⟩
    · exact ⟨events, .inr ⟨e, Eq.trans (List.append_assoc ..).symm (congrArg (· ++ _) hput), hcut⟩⟩
  | ended =>
    rw [Task.poll, Task.takes, hphase, List.append_nil]
    exact h
  | _ => exact absurd (by simp [Task.before_response, hphase, Phase.locked]) hbefore

theorem Task.Reads.congr {task' : Task} (h : task.Reads from_slice response)
    (hphase : task'.phase = task.phase) (hrequest : task'.request = task.request)
    (hput : task'.put = task.put) : task'.Reads from_slice response := by
  unfold Task.Reads at h ⊢
  rwa [hphase, hrequest, hput]

theorem reads_signal (h : task.Reads from_slice response) (signal : Signal) :
    (task.signal signal).Reads from_slice response := by
  cases signal with
  | cancel => exact h.congr rfl rfl rfl
  | expire => exact h.congr rfl rfl rfl
  | disconnect => exact h.congr rfl rfl rfl
  | close =>
    rw [Task.signal]
    split
    · exact h.congr rfl rfl rfl
    · exact h
  | recv =>
    unfold Task.signal
    dsimp only
    split
    · exact h
    · split
      · rename_i item channel hchannel
        exact h.congr rfl rfl (by simp [Task.put, hchannel])
      · exact h.congr rfl rfl rfl
      · exact h

theorem reads_new (request : NormalizedRequest) (event_capacity : Nat) :
    Task.Reads from_slice [] { request, event_capacity } := ⟨rfl, rfl⟩

/-! ## The engine -/

namespace GenerationEngine

/-- What holds of the generation `i`, or of its place if it is yet to be asked for. -/
structure ReadsAt (from_slice : Bytes → Option Value) (i : Nat) (engine : GenerationEngine)
    (response : List (Except Unit Bytes)) : Prop where
  absent : engine.tasks[i]? = none → response = []
  reads : ∀ task, engine.tasks[i]? = some task → task.Reads from_slice response

variable {engine : GenerationEngine}

/-- A step of the task `j` takes from the response to `i` what it decodes, if
    `j` is `i`, and else nothing. -/
theorem readsAt_with_task {j : Nat} {step : Task → Shared × Task}
    {taken : List (Except Unit Bytes)} (h : ReadsAt from_slice i engine response)
    (hself : ∀ task, j = i → engine.tasks[i]? = some task → task.Reads from_slice response →
      (step task).2.Reads from_slice (response ++ taken))
    (hother : j ≠ i ∨ engine.tasks[i]? = none → taken = []) :
    ReadsAt from_slice i (engine.with_task j step) (response ++ taken) := by
  unfold with_task
  split
  · rename_i hj
    have htaken : taken = [] := hother <| by
      by_cases hij : j = i
      · exact .inr (hij ▸ hj)
      · exact .inl hij
    rwa [htaken, List.append_nil]
  · rename_i task hj
    by_cases hij : j = i
    · subst hij
      have hset := List.getElem?_set_self (a := (step task).2) (List.getElem?_eq_some_iff.1 hj).1
      refine ⟨fun hnone => ?_, fun task' htask' => ?_⟩
      · rw [hset] at hnone
        cases hnone
      · rw [hset] at htask'
        cases htask'
        exact hself task rfl hj (h.reads task hj)
    · rw [hother (.inl hij), List.append_nil]
      have hset : (engine.tasks.set j (step task).2)[i]? = engine.tasks[i]? :=
        List.getElem?_set_ne hij
      exact ⟨fun hnone => h.absent (hset.symm.trans hnone),
        fun task' htask' => h.reads task' (hset.symm.trans htask')⟩

theorem readsAt_generate (h : ReadsAt from_slice i engine response)
    (request : Except EngineError NormalizedRequest) :
    ReadsAt from_slice i (engine.generate request).1 response := by
  unfold generate
  split
  · exact h
  split
  · exact h
  split
  · exact h
  refine ⟨fun hnone => h.absent ?_, fun task htask => ?_⟩
  · exact List.getElem?_eq_none_iff.2 (by simpa using Nat.le_of_succ_le (by simpa using hnone))
  · rcases Nat.lt_or_ge i engine.tasks.length with hi | hi
    · exact h.reads task ((List.getElem?_append_left hi).symm.trans htask)
    · -- the new task, or none
      rw [h.absent (List.getElem?_eq_none_iff.2 hi)]
      rw [List.getElem?_append_right hi] at htask
      rw [List.mem_singleton.1 (List.mem_of_getElem? htask)]
      exact reads_new ..

theorem readsAt_step (h : ReadsAt from_slice i engine response) (act : Act) :
    ReadsAt from_slice i (engine.step from_slice act) (response ++ engine.takes i act) := by
  have hquiet {engine' : GenerationEngine} (htasks : engine'.tasks = engine.tasks) :
      ReadsAt from_slice i engine' (response ++ []) := by
    rw [List.append_nil]
    exact ⟨htasks ▸ h.absent, htasks ▸ h.reads⟩
  have hcall (j : Nat) (step : Call → Shared × Call) :
      (engine.with_call j step).tasks = engine.tasks := by
    unfold with_call
    split <;> rfl
  cases act with
  | generate request =>
    change ReadsAt from_slice i _ (response ++ [])
    rw [List.append_nil]
    exact readsAt_generate h request
  | poll j choice =>
    refine readsAt_with_task h (fun task hij htask hreads => ?_) fun hother => ?_
    · rw [takes, if_pos hij, htask]
      exact reads_poll hreads j engine.shared choice
    · rw [takes]
      split
      · rename_i hij
        rw [hother.resolve_left (not_not.2 hij)]
        rfl
      · rfl
  | signal j signal =>
    change ReadsAt from_slice i
      (engine.with_task j fun task => (engine.shared, task.signal signal)) (response ++ [])
    refine readsAt_with_task h (fun task _ _ hreads => ?_) fun _ => rfl
    rw [List.append_nil]
    exact reads_signal hreads signal
  | status => exact hquiet rfl
  | shutdown => exact hquiet rfl
  | poll_call j choice => exact hquiet (hcall j _)
  | abandon j => exact hquiet (hcall j _)
  | exit child => exact hquiet rfl

end GenerationEngine

/-! ## What a consumer receives -/

theorem events_of_prefix {received : List Item} {events : List GenerationEvent}
    (h : received <+: events_of events) :
    ∃ start, received = events_of start ∧ start <+: events := by
  obtain ⟨rest, hrest⟩ := h
  obtain ⟨start, after, rfl, rfl, -⟩ := List.map_eq_append_iff.1 hrest.symm
  exact ⟨start, rfl, List.prefix_append _ _⟩

theorem mem_events_of {event : GenerationEvent} {events : List GenerationEvent} :
    .ok event ∈ events_of events ↔ event ∈ events := by simp [events_of]

theorem error_notMem_events (e : EngineError) (events : List GenerationEvent) :
    .error e ∉ events_of events := by simp [events_of]

/-- The consumer of a task that put these events, none of them a finish reason. -/
theorem decodes_of_unfinished {events : List GenerationEvent}
    (hreceived : task.received <+: events_of events)
    (hstart : events <+: (consume_sse from_slice task.request response).1)
    (hunfinished : ∀ reason, .Finished reason ∉ events) :
    Decodes from_slice response task := by
  obtain ⟨start, heq, hpre⟩ := events_of_prefix hreceived
  refine ⟨⟨start, hpre.trans hstart, .inl heq⟩, fun reason hmem => ?_, fun e hmem => ?_⟩
  · rw [heq, mem_events_of] at hmem
    exact absurd (hpre.subset hmem) (hunfinished reason)
  · rw [heq] at hmem
    exact absurd hmem (error_notMem_events e start)

/-- The consumer of a task that put all the events of its response. -/
theorem decodes_of_whole {events : List GenerationEvent}
    (hreceived : task.received <+: events_of events)
    (h : consume_sse from_slice task.request response = (events, .ok ())) :
    Decodes from_slice response task := by
  obtain ⟨start, heq, rest, hrest⟩ := events_of_prefix hreceived
  refine ⟨⟨start, ?_, .inl heq⟩, fun reason hmem => ?_, fun e hmem => ?_⟩
  · rw [h]
    exact ⟨rest, hrest⟩
  · rw [heq, mem_events_of] at hmem
    cases rest with
    | nil => exact ⟨events, h, by rw [heq, ← hrest, List.append_nil]⟩
    | cons event rest =>
      -- the finish reason is the last event
      have hpre : start ++ event :: rest <+: (consume_sse from_slice task.request response).1 := by
        rw [hrest, h]
      exact absurd hmem (finished_notMem_start hpre reason)
  · rw [heq] at hmem
    exact absurd hmem (error_notMem_events e start)

/-- The consumer of a task that failed, with its error put last. -/
theorem decodes_of_failed {events : List GenerationEvent} {e : EngineError}
    (hreceived : task.received <+: events_of events ++ [.error e])
    (h : Cut from_slice task.request response events e) : Decodes from_slice response task := by
  rcases List.prefix_concat_iff.1 hreceived with heq | hpre
  · refine ⟨⟨events, h.start, .inr ⟨e, heq⟩⟩, fun reason hmem => ?_, fun e' hmem => ?_⟩
    · rw [heq] at hmem
      have hevent : .Finished reason ∈ events := by simpa [events_of] using hmem
      exact absurd hevent (h.unfinished reason)
    · rw [heq] at hmem
      obtain rfl : e' = e := by simpa [events_of] using hmem
      exact h.cause.imp_right (Or.imp_right fun hfailed => ⟨events, hfailed, heq⟩)
  · exact decodes_of_unfinished hpre h.start h.unfinished

theorem Task.Reads.decodes (h : task.Reads from_slice response) :
    Decodes from_slice response task := by
  have hreceived : task.received <+: task.put := List.prefix_append _ _
  unfold Task.Reads at h
  split at h
  · obtain ⟨events, hput, hplanned⟩ := h
    have hstart := hplanned.start
    obtain ⟨-, deltas, rfl, -⟩ := hplanned
    exact decodes_of_unfinished (hput ▸ hreceived) hstart fun reason =>
      finished_notMem_deltas reason deltas
  · obtain ⟨put, hput, hplanned⟩ := h
    exact decodes_of_unfinished (hput ▸ hreceived)
      ((List.prefix_append _ _).trans hplanned.start) (finished_notMem_start hplanned.start)
  · obtain ⟨events, hput, hcut⟩ := h
    exact decodes_of_unfinished (hput ▸ hreceived) hcut.start hcut.unfinished
  · obtain ⟨events, ⟨hput, hwhole | ⟨e, hcut⟩⟩ | ⟨e, hput, hcut⟩⟩ := h
    · exact decodes_of_whole (hput ▸ hreceived) hwhole
    · exact decodes_of_unfinished (hput ▸ hreceived) hcut.start hcut.unfinished
    · exact decodes_of_failed (hput ▸ hreceived) hcut
  · rw [h.1] at hreceived
    have hnil : task.received <+: events_of [] := hreceived
    exact decodes_of_unfinished hnil List.nil_prefix (by simp)

/-- The consumers of the generations of an engine, each with the response its
    run has read. -/
structure AllDecode (from_slice : Bytes → Option Value) (engine : GenerationEngine)
    (response : Nat → List (Except Unit Bytes)) : Prop where
  decodes : ∀ (i : Nat) (task : Task), engine.tasks[i]? = some task →
    Decodes from_slice (response i) task

/-- In every run of an engine, every consumer receives what the decoder makes of
    the response its generation has read: the start of the events at any time,
    all of them once it has received a finish reason or an error of the
    response. -/
theorem generation_decodes (from_slice : Bytes → Option Value) (config : EngineConfig)
    (shared : Shared) (acts : List Act) :
    AllDecode from_slice (run (GenerationEngine.step from_slice) { config, shared } acts)
      fun i => GenerationEngine.response from_slice i { config, shared } acts := by
  refine ⟨fun i task htask => ?_⟩
  have hinit : GenerationEngine.ReadsAt from_slice i { config, shared } [] :=
    ⟨fun _ => rfl, fun task htask => by simp at htask⟩
  have hstep : ∀ (engine : GenerationEngine) (act : Act) (response : List (Except Unit Bytes)),
      GenerationEngine.ReadsAt from_slice i engine response →
      GenerationEngine.ReadsAt from_slice i (engine.step from_slice act)
        (response ++ engine.takes i act) :=
    fun _ act _ h => GenerationEngine.readsAt_step h act
  have hrun := invariant_outputs hstep hinit acts
  rw [List.nil_append] at hrun
  exact (hrun.reads task htask).decodes

end Inferences.Engine
