import Inferences.Server.WebSocket

/-!
# Safety of WebSocket sessions

What a session owes each generation it accepts is fixed by what the engine
streams (`Generation.replies`): its deltas in order, then one terminal
message. In every run, what the session sent for a generation is the start of
that, and all of it unless the generation was cancelled or the session is over
(`websocket_session_safe`).
-/

namespace Inferences.Server.WebSocket

open Schedule Protocol

/-- A message that carries output of a generation. -/
def is_output : WebSocketServerMessage → Bool
  | .Delta .. | .Final .. => true
  | _ => false

/-- A message that ends a generation. -/
def is_terminal : WebSocketServerMessage → Bool
  | .Final .. | .Error .. => true
  | _ => false

/-- The request id a message carries. -/
def message_id : WebSocketServerMessage → Option String
  | .Delta id _ | .Final id .. => some id
  | .Error id .. => id
  | _ => none

/-- The error for a generation that ends without a result. -/
def upstream_error (id : String) : WebSocketServerMessage :=
  .Error (some id) "upstream_protocol" "the local runtime ended unexpectedly"

/-- The error for a generation that is cancelled. -/
def cancelled_error (id : String) : WebSocketServerMessage :=
  .Error (some id) "cancelled" "the request was cancelled"

/-- The answer to a generation whose stream yields the given items: its deltas
    in order, then a `Final` with the usage last reported, or one `Error`. -/
def replies (id : String) (usage : Option TokenUsage) :
    EngineEventStream → List WebSocketServerMessage
  | [] => [upstream_error id]
  | .ok (.Delta delta) :: events => .Delta id delta :: replies id usage events
  | .ok (.Usage usage) :: events => replies id (some usage) events
  | .ok (.Finished reason) :: _ =>
    match usage with
    | none => [upstream_error id]
    | some usage => [.Final id (finish_reason reason) usage.prompt_tokens usage.completion_tokens
        usage.total_tokens]
  | .error error :: _ =>
    let (_, code, message) := engine_error error
    [.Error (some id) code message]

/-- What the client is told of a generation, left alone. -/
def Generation.replies (self : Generation) : List WebSocketServerMessage :=
  WebSocket.replies self.id none self.script

/-- The replies are deltas, then one terminal message, all of the generation. -/
theorem replies_eq (id : String) (usage : Option TokenUsage) (events : EngineEventStream) :
    ∃ (deltas : List String) (last : _),
      replies id usage events = deltas.map (.Delta id) ++ [last] ∧
      is_terminal last = true ∧ message_id last = some id := by
  induction events generalizing usage with
  | nil => exact ⟨[], _, rfl, rfl, rfl⟩
  | cons event events ih =>
    rcases event with error | (delta | usage' | reason)
    · exact ⟨[], _, rfl, rfl, rfl⟩
    · obtain ⟨deltas, last, h, hlast⟩ := ih usage
      exact ⟨delta :: deltas, last, by rw [replies, h]; rfl, hlast⟩
    · exact ih (some usage')
    · cases usage <;> exact ⟨[], _, rfl, rfl, rfl⟩

theorem replies_ne_nil (id : String) (usage : Option TokenUsage) (events : EngineEventStream) :
    replies id usage events ≠ [] := by
  obtain ⟨deltas, last, h, -⟩ := replies_eq id usage events
  simp [h]

/-- A proper start of the replies holds deltas only. -/
theorem eq_deltas_of_append {id : String} {usage : Option TokenUsage} {events : EngineEventStream}
    {sent rest : List WebSocketServerMessage} (h : sent ++ rest = replies id usage events)
    (hrest : rest ≠ []) : ∃ deltas : List String, sent = deltas.map (.Delta id) := by
  obtain ⟨deltas, last, heq, -⟩ := replies_eq id usage events
  rw [heq] at h
  rcases List.eq_nil_or_concat rest with rfl | ⟨front, final, rfl⟩
  · exact absurd rfl hrest
  · rw [List.concat_eq_append, ← List.append_assoc] at h
    obtain ⟨front', -, -, hsent, -⟩ := List.map_eq_append_iff.1 (List.append_inj' h rfl).1.symm
    exact ⟨front', hsent.symm⟩

/-! ## Traces -/

/-- The entries of the log about one generation. -/
def trace (internal_id : UInt64) (log : List Entry) : List Entry :=
  log.filter (·.origin = some internal_id)

/-- The messages of one generation, as entries. -/
def sent_by (internal_id : UInt64) (messages : List WebSocketServerMessage) : List Entry :=
  messages.map (.message (some internal_id))

/-- The trace of a generation that is being served: what remains of its
    replies is what is left of its stream. -/
def Serving (generation : Generation) (active : ActiveWebSocketGeneration) (log : List Entry) :
    Prop :=
  generation.internal_id = active.internal_id ∧ generation.id = active.id ∧
    ∃ sent, trace generation.internal_id log =
        .accepted generation :: sent_by generation.internal_id sent ∧
      sent ++ replies active.id active.usage active.events = generation.replies

/-- The trace of a generation that is over: it got all its replies; or the
    start of them, when it was cancelled or when the session ended first. -/
inductive Ended (generation : Generation) (running : Bool) : List Entry → Prop
  | answered : Ended generation running
      (.accepted generation :: sent_by generation.internal_id generation.replies)
  | cancelled {sent rest : List WebSocketServerMessage} (h : sent ++ rest = generation.replies)
      (hrest : rest ≠ []) : Ended generation running
        (.accepted generation :: sent_by generation.internal_id sent ++
          [.cancelled generation.internal_id,
            .message generation.internal_id (cancelled_error generation.id)])
  | closed {sent rest : List WebSocketServerMessage} (h : sent ++ rest = generation.replies)
      (hrest : rest ≠ []) (hclosed : running = false) : Ended generation running
        (.accepted generation :: sent_by generation.internal_id sent)
  | closed_cancelled {sent rest : List WebSocketServerMessage}
      (h : sent ++ rest = generation.replies) (hrest : rest ≠ []) (hclosed : running = false) :
      Ended generation running
        (.accepted generation :: sent_by generation.internal_id sent ++
          [.cancelled generation.internal_id])

/-- A state of the session that is not running drops whatever came first. -/
theorem Ended.mono {generation : Generation} {running running' : Bool} {entries : List Entry}
    (h : Ended generation running entries) (hrun : running = false → running' = false) :
    Ended generation running' entries := by
  cases h with
  | answered => exact .answered
  | cancelled h hrest => exact .cancelled h hrest
  | closed h hrest hclosed => exact .closed h hrest (hrun hclosed)
  | closed_cancelled h hrest hclosed => exact .closed_cancelled h hrest (hrun hclosed)

/-- The entries of a request in a longer log. -/
theorem trace_append (i : UInt64) (log entries : List Entry) :
    trace i (log ++ entries) = trace i log ++ trace i entries := List.filter_append ..

theorem trace_of_origin {i : UInt64} {entries : List Entry}
    (h : ∀ entry ∈ entries, entry.origin = some i) : trace i entries = entries :=
  List.filter_eq_self.2 fun entry hentry => by simpa using h entry hentry

theorem trace_of_ne {i : UInt64} {entries : List Entry}
    (h : ∀ entry ∈ entries, entry.origin ≠ some i) : trace i entries = [] :=
  List.filter_eq_nil_iff.2 fun entry hentry => by simpa using h entry hentry

theorem mem_trace {i : UInt64} {log : List Entry} {entry : Entry} :
    entry ∈ trace i log ↔ entry ∈ log ∧ entry.origin = some i := by
  simp [trace]

/-! ## Turns -/

/-- What one turn of a session can do. -/
inductive Turn (self : Session) : Session → Prop
  | idle (ids : UInt64) (hids : self.websocket_request_ids ≤ ids) :
      Turn self { self with websocket_request_ids := ids }
  | quiet (ids : UInt64) (hids : self.websocket_request_ids ≤ ids)
      (message : WebSocketServerMessage) (hquiet : is_output message = false) :
      Turn self { self with websocket_request_ids := ids
                            log := self.log ++ [.message none message] }
  | accepted (internal_id : UInt64) (id : String) (events : EngineEventStream)
      (hrunning : self.running = true) (hfresh : self.websocket_request_ids < internal_id)
      (hactive : self.active = none) :
      Turn self { self with websocket_request_ids := internal_id
                            active := some { internal_id, id, events, usage := none }
                            live := internal_id :: self.live
                            log := self.log ++ [.accepted { internal_id, id, script := events }] }
  | delta (request : ActiveWebSocketGeneration) (delta : String) (events : EngineEventStream)
      (hactive : self.active = some request)
      (hevents : request.events = .ok (.Delta delta) :: events) :
      Turn self { self with active := some { request with events }
                            log := self.log ++
                              [.message request.internal_id (.Delta request.id delta)] }
  | usage (request : ActiveWebSocketGeneration) (usage : TokenUsage) (events : EngineEventStream)
      (hactive : self.active = some request)
      (hevents : request.events = .ok (.Usage usage) :: events) :
      Turn self { self with active := some { request with events, usage := some usage } }
  | terminal (request : ActiveWebSocketGeneration) (message : WebSocketServerMessage)
      (hactive : self.active = some request)
      (hmessage : replies request.id request.usage request.events = [message]) :
      Turn self { self.take request with
        log := self.log ++ [.message request.internal_id message] }
  | cancelled (request : ActiveWebSocketGeneration) (hactive : self.active = some request) :
      Turn self { self.take request with
        log := self.log ++ [.cancelled request.internal_id,
          .message request.internal_id (cancelled_error request.id)] }
  | closed (ids : UInt64) (hids : self.websocket_request_ids ≤ ids) :
      Turn self { self with websocket_request_ids := ids }.exit
  | closed_cancelled (request : ActiveWebSocketGeneration) (hactive : self.active = some request) :
      Turn self { self.exit with log := self.log ++ [.cancelled request.internal_id] }

variable {self self' : Session}

/-- A message about no generation. -/
theorem turn_send {ids : UInt64} (hids : self.websocket_request_ids ≤ ids)
    {message : WebSocketServerMessage} (hquiet : is_output message = false) (sent : Bool) :
    Turn self ({ self with websocket_request_ids := ids }.send_websocket none message sent) := by
  cases sent with
  | true => exact .quiet ids hids message hquiet
  | false => exact .closed ids hids

/-- The last message about a generation. -/
theorem turn_send_terminal {request : ActiveWebSocketGeneration}
    {message : WebSocketServerMessage} (hactive : self.active = some request)
    (hmessage : replies request.id request.usage request.events = [message]) (sent : Bool) :
    Turn self ((self.take request).send_websocket request.internal_id message sent) := by
  cases sent with
  | true => exact .terminal request message hactive hmessage
  | false => exact .closed _ UInt64.le_rfl

/-- The session returns after `cancel_active`. -/
theorem turn_close (self : Session) : Turn self self.cancel_active.exit := by
  unfold Session.cancel_active
  split
  · exact .closed _ UInt64.le_rfl
  · rename_i request hactive
    exact .closed_cancelled request hactive

/-- Request numbers grow. -/
theorem le_next_id {previous internal_id : UInt64} (h : next_id previous = some internal_id) :
    previous < internal_id := by
  unfold next_id at h
  split at h
  · rename_i hlt
    obtain rfl := Option.some.inj h
    rw [UInt64.lt_iff_toNat_lt, UInt64.toNat_add]
    simp only [UInt64.size] at hlt
    simp only [UInt64.reduceToNat]
    omega
  · cases h

/-- A `Start` takes one of the turns. -/
theorem turn_start (hrunning : self.running = true) (env : Environment) (id : String)
    (request : WebSocketGeneration) :
    Turn self (self.start_websocket_generation env id request) := by
  unfold Session.start_websocket_generation
  split
  · exact turn_send UInt64.le_rfl rfl _
  split
  · exact turn_send UInt64.le_rfl rfl _
  rename_i hnone
  split
  · exact turn_send UInt64.le_rfl rfl _
  · rename_i internal_id hnext
    have hfresh := le_next_id hnext
    split
    · exact turn_send (UInt64.le_of_lt hfresh) rfl _
    split
    · exact .accepted internal_id id _ hrunning hfresh (by simpa using hnone)
    · exact turn_send (UInt64.le_of_lt hfresh) rfl _

/-- So does every message. -/
theorem turn_message (from_str : String → Option WebSocketClientMessage)
    (hrunning : self.running = true) (env : Environment) (message : Message) :
    Turn self (self.handle_websocket_message from_str env message) := by
  unfold Session.handle_websocket_message
  split
  · split
    · exact turn_send UInt64.le_rfl rfl _
    · exact turn_start hrunning env _ _
    · split
      · rename_i request hactive
        split
        · rename_i hid
          unfold Session.cancel_active
          rw [hactive, ← hid]
          cases env.sent with
          | true =>
            simpa [Session.send_websocket_error, Session.send_websocket, cancelled_error] using
              Turn.cancelled request hactive
          | false => exact .closed_cancelled request hactive
        · exact turn_send UInt64.le_rfl rfl _
      · exact turn_send UInt64.le_rfl rfl _
    · exact turn_send UInt64.le_rfl rfl _
    · exact turn_close self
  · exact turn_send UInt64.le_rfl rfl _
  · split
    · exact .idle _ UInt64.le_rfl
    · exact .closed _ UInt64.le_rfl
  · exact .idle _ UInt64.le_rfl
  · exact turn_close self

/-- So does every event of the engine. -/
theorem turn_event {request : ActiveWebSocketGeneration} (hactive : self.active = some request)
    (sent : Bool) : Turn self (self.handle_websocket_event request sent) := by
  unfold Session.handle_websocket_event
  split
  · rename_i delta events hevents
    cases sent with
    | true => exact .delta request delta events hactive hevents
    | false => exact .closed _ UInt64.le_rfl
  · rename_i usage events hevents
    exact .usage request usage events hactive hevents
  · rename_i reason events hevents
    split
    · rename_i husage
      exact turn_send_terminal hactive (by rw [hevents, husage]; rfl) sent
    · rename_i usage husage
      exact turn_send_terminal hactive (by rw [hevents, husage]; rfl) sent
  · rename_i error events hevents
    exact turn_send_terminal hactive (by rw [hevents]; rfl) sent
  · rename_i hevents
    exact turn_send_terminal hactive (by rw [hevents]; rfl) sent

/-- Every act takes one of the turns. -/
theorem step_turn (from_str : String → Option WebSocketClientMessage) (self : Session)
    (act : Session.Act) : Turn self (self.step from_str act) := by
  cases act with
  | other =>
    refine .idle _ ?_
    cases hnext : next_id self.websocket_request_ids with
    | none => exact UInt64.le_rfl
    | some ids => exact UInt64.le_of_lt (le_next_id hnext)
  | socket message env =>
    unfold Session.step
    dsimp only
    split
    · rename_i hrunning
      split
      · exact turn_message from_str hrunning env _
      · exact turn_close self
    · exact .idle _ UInt64.le_rfl
  | engine sent =>
    unfold Session.step
    dsimp only
    split
    · split
      · rename_i request hactive
        exact turn_event hactive sent
      · exact .idle _ UInt64.le_rfl
    · exact .idle _ UInt64.le_rfl

/-! ## The invariant -/

/-- What holds of a session after every turn. -/
structure Inv (session : Session) : Prop where
  fresh : ∀ entry ∈ session.log, ∀ i, entry.origin = some i → i ≤ session.websocket_request_ids
  owned : ∀ entry ∈ session.log, ∀ i, entry.origin = some i →
    ∃ generation, .accepted generation ∈ session.log ∧ generation.internal_id = i
  quiet : ∀ message, .message none message ∈ session.log → is_output message = false
  live : session.live = session.active.toList.map (·.internal_id)
  closed : session.running = false → session.active = none
  known : ∀ request, session.active = some request →
    ∃ generation, .accepted generation ∈ session.log ∧ Serving generation request session.log
  story : ∀ generation, .accepted generation ∈ session.log →
    (∃ request, session.active = some request ∧ Serving generation request session.log) ∨
      (∀ request, session.active = some request → request.internal_id ≠ generation.internal_id) ∧
        Ended generation session.running (trace generation.internal_id session.log)

/-- Entries about other requests do not matter. -/
theorem Serving.frame {generation : Generation} {request : ActiveWebSocketGeneration}
    {log log' : List Entry} (h : Serving generation request log)
    (htrace : trace generation.internal_id log' = trace generation.internal_id log) :
    Serving generation request log' := by
  unfold Serving at h ⊢
  rwa [htrace]

/-- A generation in its own trace is the first entry, and the only one accepted. -/
theorem Inv.unique {g g' : Generation} (h : Inv self) (hg : .accepted g ∈ self.log)
    (hg' : .accepted g' ∈ self.log) (hid : g'.internal_id = g.internal_id) : g' = g := by
  have hmem : .accepted g' ∈ trace g.internal_id self.log :=
    mem_trace.2 ⟨hg', congrArg some hid⟩
  rcases h.story g hg with ⟨request, -, -, -, sent, htrace, -⟩ | ⟨-, hended⟩
  · rw [htrace] at hmem
    simpa [sent_by] using hmem
  · generalize trace g.internal_id self.log = entries at hmem hended
    cases hended <;> simpa [sent_by] using hmem

theorem inv_idle (h : Inv self) {ids : UInt64} (hids : self.websocket_request_ids ≤ ids) :
    Inv { self with websocket_request_ids := ids } where
  fresh entry hentry i hi := UInt64.le_trans (h.fresh entry hentry i hi) hids
  owned := h.owned
  quiet := h.quiet
  live := h.live
  closed := h.closed
  known := h.known
  story := h.story

/-- A message that comes from no generation changes no trace. -/
theorem inv_quiet (h : Inv self) {message : WebSocketServerMessage}
    (hquiet : is_output message = false) :
    Inv { self with log := self.log ++ [.message none message] } := by
  have hmem : ∀ entry ∈ self.log ++ [.message none message], ∀ i, entry.origin = some i →
      entry ∈ self.log := by
    intro entry hentry i hi
    rcases List.mem_append.1 hentry with hentry | hentry
    · exact hentry
    · obtain rfl := List.mem_singleton.1 hentry
      cases hi
  have htrace : ∀ i, trace i (self.log ++ [.message none message]) = trace i self.log := by
    intro i
    have hquiet : trace i [.message none message] = [] := trace_of_ne (by simp [Entry.origin])
    rw [trace_append, hquiet, List.append_nil]
  have hold : ∀ generation, .accepted generation ∈ self.log ++ [.message none message] →
      .accepted generation ∈ self.log := fun generation hg => hmem _ hg _ rfl
  refine ⟨fun entry hentry i hi => h.fresh entry (hmem entry hentry i hi) i hi, ?_, ?_, h.live,
    h.closed, ?_, ?_⟩
  · intro entry hentry i hi
    obtain ⟨generation, hg, hid⟩ := h.owned entry (hmem entry hentry i hi) i hi
    exact ⟨generation, List.mem_append_left _ hg, hid⟩
  · intro message' hmessage
    rcases List.mem_append.1 hmessage with hmessage | hmessage
    · exact h.quiet message' hmessage
    · simp only [List.mem_singleton, Entry.message.injEq, true_and] at hmessage
      rw [hmessage, hquiet]
  · intro request hactive
    obtain ⟨generation, hg, hserving⟩ := h.known request hactive
    exact ⟨generation, List.mem_append_left _ hg, hserving.frame (htrace _)⟩
  · intro generation hg
    rcases h.story generation (hold generation hg) with ⟨request, hactive, hserving⟩ | hended
    · exact .inl ⟨request, hactive, hserving.frame (htrace _)⟩
    · exact .inr ⟨hended.1, by rw [htrace]; exact hended.2⟩

/-- A turn about the active generation leaves the others alone, so that only
    the story of that one is to be told. -/
theorem inv_active (h : Inv self) {request : ActiveWebSocketGeneration} {entries : List Entry}
    (hactive : self.active = some request)
    (hids : self'.websocket_request_ids = self.websocket_request_ids)
    (hlog : self'.log = self.log ++ entries)
    (horigin : ∀ entry ∈ entries, entry.origin = some request.internal_id)
    (haccepted : ∀ generation, .accepted generation ∉ entries)
    (hlive : self'.live = self'.active.toList.map (·.internal_id))
    (hclosed : self'.running = false → self'.active = none)
    (hstory : ∀ generation, .accepted generation ∈ self.log → Serving generation request self.log →
      (∃ request', self'.active = some request' ∧ Serving generation request' self'.log) ∨
        self'.active = none ∧
          Ended generation self'.running (trace generation.internal_id self'.log)) : Inv self' := by
  have hrunning : self.running = false → self'.running = false := fun hrun => by
    rw [h.closed hrun] at hactive
    cases hactive
  obtain ⟨served, hserved, hserving⟩ := h.known request hactive
  -- The turn accepts nothing, so the accepted generations are those from before.
  have hmem : ∀ generation, .accepted generation ∈ self'.log → .accepted generation ∈ self.log := by
    intro generation hg
    rw [hlog] at hg
    exact (List.mem_append.1 hg).resolve_right (haccepted generation)
  have hkeep : ∀ generation, .accepted generation ∈ self.log →
      .accepted generation ∈ self'.log := by
    intro generation hg
    rw [hlog]
    exact List.mem_append_left _ hg
  have hsame : ∀ request', self'.active = some request' →
      request'.internal_id = request.internal_id := by
    intro request' hactive'
    rcases hstory served hserved hserving with ⟨request'', hactive'', hserving', -⟩ | ⟨hnone, -⟩
    · rw [hactive'] at hactive''
      obtain rfl := Option.some.inj hactive''
      rw [← hserving', hserving.1]
    · rw [hactive'] at hnone
      cases hnone
  refine ⟨?_, ?_, ?_, hlive, hclosed, ?_, ?_⟩
  · intro entry hentry i hi
    rw [hids]
    rw [hlog] at hentry
    rcases List.mem_append.1 hentry with hentry | hentry
    · exact h.fresh entry hentry i hi
    · rw [horigin entry hentry] at hi
      obtain rfl := Option.some.inj hi
      exact h.fresh _ hserved _ (congrArg some hserving.1)
  · intro entry hentry i hi
    rw [hlog] at hentry
    rcases List.mem_append.1 hentry with hentry | hentry
    · obtain ⟨generation, hg, hid⟩ := h.owned entry hentry i hi
      exact ⟨generation, hkeep generation hg, hid⟩
    · rw [horigin entry hentry] at hi
      obtain rfl := Option.some.inj hi
      exact ⟨served, hkeep served hserved, hserving.1⟩
  · intro message hmessage
    rw [hlog] at hmessage
    rcases List.mem_append.1 hmessage with hmessage | hmessage
    · exact h.quiet message hmessage
    · cases horigin _ hmessage
  · intro request' hactive'
    rcases hstory served hserved hserving with ⟨request'', hactive'', hserving'⟩ | ⟨hnone, -⟩
    · rw [hactive'] at hactive''
      obtain rfl := Option.some.inj hactive''
      exact ⟨served, hkeep served hserved, hserving'⟩
    · rw [hactive'] at hnone
      cases hnone
  · intro generation hg
    have hg := hmem generation hg
    rcases h.story generation hg with ⟨request', hactive', hserving'⟩ | ⟨hother, hended⟩
    · rw [hactive] at hactive'
      obtain rfl := Option.some.inj hactive'
      rcases hstory generation hg hserving' with hserving'' | ⟨hnone, hended⟩
      · exact .inl hserving''
      · exact .inr ⟨by simp [hnone], hended⟩
    · -- the story of another generation has ended, and no entry is added to it
      have hne := hother request hactive
      refine .inr ⟨fun request' hactive' => hsame request' hactive' ▸ hne, ?_⟩
      have hnew : trace generation.internal_id entries = [] := trace_of_ne fun entry hentry => by
        rw [horigin entry hentry]
        exact fun e => hne (Option.some.inj e)
      rw [hlog, trace_append, hnew, List.append_nil]
      exact hended.mono hrunning

/-- An accepted generation is new, and the only one served. -/
theorem inv_accepted (h : Inv self) {internal_id : UInt64} {id : String}
    {events : EngineEventStream} (hrunning : self.running = true)
    (hfresh : self.websocket_request_ids < internal_id) (hactive : self.active = none) :
    Inv { self with
      websocket_request_ids := internal_id
      active := some { internal_id, id, events, usage := none }
      live := internal_id :: self.live
      log := self.log ++ [.accepted { internal_id, id, script := events }] } := by
  -- the identifier is larger than every one in the log
  have hlt : ∀ entry ∈ self.log, ∀ i, entry.origin = some i → i < internal_id :=
    fun entry hentry i hi => UInt64.lt_of_le_of_lt (h.fresh entry hentry i hi) hfresh
  have hnew : trace internal_id self.log = [] :=
    trace_of_ne fun entry hentry he => UInt64.lt_irrefl _ (hlt entry hentry _ he)
  have hold : ∀ {generation : Generation}, .accepted generation ∈ self.log →
      trace generation.internal_id (self.log ++ [.accepted { internal_id, id, script := events }]) =
        trace generation.internal_id self.log := by
    intro generation hg
    have hne : internal_id ≠ generation.internal_id := fun e =>
      UInt64.lt_irrefl _ (e ▸ hlt _ hg _ rfl)
    rw [trace_append, List.append_right_eq_self]
    exact trace_of_ne (by simpa [Entry.origin] using hne)
  have hserving : Serving { internal_id, id, script := events }
      { internal_id, id, events, usage := none }
      (self.log ++ [.accepted { internal_id, id, script := events }]) := by
    refine ⟨rfl, rfl, [], ?_, rfl⟩
    rw [trace_append, hnew, trace_of_origin (by simp [Entry.origin])]
    rfl
  refine ⟨?_, ?_, ?_, ?_, ?_, ?_, ?_⟩
  · intro entry hentry i hi
    rcases List.mem_append.1 hentry with hentry | hentry
    · exact UInt64.le_of_lt (hlt entry hentry i hi)
    · obtain rfl := List.mem_singleton.1 hentry
      exact Option.some.inj hi ▸ UInt64.le_rfl
  · intro entry hentry i hi
    rcases List.mem_append.1 hentry with hentry | hentry
    · obtain ⟨generation, hg, hid⟩ := h.owned entry hentry i hi
      exact ⟨generation, List.mem_append_left _ hg, hid⟩
    · obtain rfl := List.mem_singleton.1 hentry
      exact ⟨_, List.mem_append_right _ hentry, Option.some.inj hi⟩
  · intro message hmessage
    exact h.quiet message (by simpa using hmessage)
  · simp [h.live, hactive]
  · intro hrun
    rw [hrunning] at hrun
    cases hrun
  · intro request hrequest
    obtain rfl := Option.some.inj hrequest
    exact ⟨_, List.mem_append_right _ (List.mem_singleton_self _), hserving⟩
  · intro generation hg
    rcases List.mem_append.1 hg with hg | hg
    · rcases h.story generation hg with ⟨request, hrequest, -⟩ | ⟨-, hended⟩
      · rw [hactive] at hrequest
        cases hrequest
      · refine .inr ⟨?_, by rw [hold hg]; exact hended⟩
        intro request hrequest e
        obtain rfl := Option.some.inj hrequest
        exact UInt64.lt_irrefl _ (e ▸ hlt _ hg _ rfl)
    · obtain rfl := Entry.accepted.inj (List.mem_singleton.1 hg)
      exact .inl ⟨_, rfl, hserving⟩

/-- One more message of the generation being served. -/
theorem Serving.trace_message {generation : Generation} {request : ActiveWebSocketGeneration}
    {sent : List WebSocketServerMessage} {log : List Entry} {message : WebSocketServerMessage}
    (hid : generation.internal_id = request.internal_id)
    (htrace : trace generation.internal_id log =
      .accepted generation :: sent_by generation.internal_id sent) :
    trace generation.internal_id (log ++ [.message request.internal_id message]) =
      .accepted generation :: sent_by generation.internal_id (sent ++ [message]) := by
  rw [trace_append, htrace, trace_of_origin (by simp [Entry.origin, hid]), ← hid]
  simp [sent_by]

/-- Every turn keeps the invariant. -/
theorem inv_turn (h : Inv self) (hturn : Turn self self') : Inv self' := by
  cases hturn with
  | idle ids hids => exact inv_idle h hids
  | quiet ids hids message hquiet => exact inv_quiet (inv_idle h hids) hquiet
  | accepted internal_id id events hrunning hfresh hactive =>
    exact inv_accepted h hrunning hfresh hactive
  | delta request delta events hactive hevents =>
    refine inv_active h hactive rfl rfl (by simp [Entry.origin]) (by simp) ?_ ?_ ?_
    · simp [h.live, hactive]
    · intro hrun
      rw [h.closed hrun] at hactive
      cases hactive
    · rintro generation - ⟨hid, hname, sent, htrace, hrest⟩
      refine .inl ⟨_, rfl, hid, hname, sent ++ [.Delta request.id delta],
        Serving.trace_message hid htrace, ?_⟩
      rw [← hrest, hevents, replies, List.append_assoc]
      rfl
  | usage request usage events hactive hevents =>
    refine inv_active h hactive rfl (List.append_nil _).symm (by simp) (by simp) ?_ ?_ ?_
    · simp [h.live, hactive]
    · intro hrun
      rw [h.closed hrun] at hactive
      cases hactive
    · rintro generation - ⟨hid, hname, sent, htrace, hrest⟩
      refine .inl ⟨_, rfl, hid, hname, sent, htrace, ?_⟩
      rw [← hrest, hevents]
      rfl
  | terminal request message hactive hmessage =>
    -- the last of the replies has been sent
    refine inv_active h hactive rfl rfl (by simp [Entry.origin]) (by simp) ?_ (fun _ => rfl) ?_
    · simp [Session.take, h.live, hactive]
    · rintro generation - ⟨hid, hname, sent, htrace, hrest⟩
      refine .inr ⟨rfl, ?_⟩
      rw [Serving.trace_message hid htrace, ← hmessage, hrest]
      exact .answered
  | cancelled request hactive =>
    refine inv_active h hactive rfl rfl (by simp [Entry.origin]) (by simp) ?_ (fun _ => rfl) ?_
    · simp [Session.take, h.live, hactive]
    · rintro generation - ⟨hid, hname, sent, htrace, hrest⟩
      refine .inr ⟨rfl, ?_⟩
      rw [trace_append, htrace, trace_of_origin (by simp [Entry.origin, hid]), ← hid, ← hname]
      exact .cancelled hrest (replies_ne_nil _ _ _)
  | closed ids hids =>
    suffices hexit : Inv self.exit from inv_idle hexit hids
    cases hactive : self.active with
    | none =>
      -- nothing is served, so every story has ended already
      refine ⟨h.fresh, h.owned, h.quiet, rfl, fun _ => rfl, by simp [Session.exit], ?_⟩
      intro generation hg
      rcases h.story generation hg with ⟨request, hrequest, -⟩ | ⟨-, hended⟩
      · rw [hactive] at hrequest
        cases hrequest
      · exact .inr ⟨by simp [Session.exit], hended.mono fun _ => rfl⟩
    | some request =>
      refine inv_active h hactive rfl (List.append_nil _).symm (by simp) (by simp) rfl
        (fun _ => rfl) ?_
      rintro generation - ⟨hid, hname, sent, htrace, hrest⟩
      exact .inr ⟨rfl, htrace ▸ .closed hrest (replies_ne_nil _ _ _) rfl⟩
  | closed_cancelled request hactive =>
    refine inv_active h hactive rfl rfl (by simp [Entry.origin]) (by simp) rfl (fun _ => rfl) ?_
    rintro generation - ⟨hid, hname, sent, htrace, hrest⟩
    refine .inr ⟨rfl, ?_⟩
    rw [Session.exit, trace_append, htrace, trace_of_origin (by simp [Entry.origin, hid]), ← hid]
    exact .closed_cancelled hrest (replies_ne_nil _ _ _) rfl

/-- A new session meets the invariant. -/
theorem inv_websocket_session (ids : UInt64) (sent : Bool) :
    Inv (Session.websocket_session ids sent) := by
  have hinit : Inv { websocket_request_ids := ids } :=
    ⟨by simp, by simp, by simp, rfl, fun _ => rfl, by simp, by simp⟩
  exact inv_turn hinit (turn_send UInt64.le_rfl rfl sent)

/-! ## Safety -/

/-- An entry after which nothing of its generation is put out: its terminal
    message, or its cancellation. -/
def Entry.stops : Entry → Bool
  | .accepted _ => false
  | .cancelled _ => true
  | .message _ text => is_terminal text

/-- An entry that puts out something of its generation. -/
def Entry.outputs : Entry → Bool
  | .message _ text => is_output text
  | _ => false

/-- Why a `Start` is rejected. -/
def Rejected (session : Session) (env : Environment) (id : String) (request : WebSocketGeneration) :
    Prop :=
  id.isEmpty ∨ id.utf8ByteSize > 128 ∨ session.active.isSome ∨
    next_id session.websocket_request_ids = none ∨ env.context = false ∨
    ∃ error, env.generate request.into_generation = .error error

/-- A turn that leaves the active generation as it was, or ends the session. -/
def Unaffected (session session' : Session) : Prop :=
  session'.running = false ∨ session'.active = session.active

/-- What the client of a session can rely on. -/
structure Safe (from_str : String → Option WebSocketClientMessage) (session : Session) : Prop where
  /-- At most one stream is live, that of the active generation. -/
  one_active : session.live.length ≤ 1 ∧
    session.live = session.active.toList.map (·.internal_id)
  /-- No two accepted generations share their identity. -/
  unique : ∀ g g', .accepted g ∈ session.log → .accepted g' ∈ session.log →
    g'.internal_id = g.internal_id → g' = g
  /-- Every accepted generation is being served its replies, or got them all,
      or was cut short by its cancellation or the end of the session. -/
  story : ∀ g, .accepted g ∈ session.log →
    (∃ request, session.active = some request ∧ Serving g request session.log) ∨
      (∀ request, session.active = some request → request.internal_id ≠ g.internal_id) ∧
        Ended g session.running (trace g.internal_id session.log)
  /-- Nothing of a generation is put out after its terminal or its cancellation. -/
  fenced : ∀ i, (trace i session.log).Pairwise fun first later =>
    first.stops = true → later.outputs = false
  /-- Output carries the request id of the generation it comes from. -/
  labelled : ∀ origin message, .message origin message ∈ session.log → is_output message = true →
    ∃ g, .accepted g ∈ session.log ∧ origin = some g.internal_id ∧ message_id message = some g.id
  /-- A rejected `Start`, or a `Cancel` of another id, changes nothing. -/
  rejected : ∀ text id request env, from_str text = some (.Start id request) →
    Rejected session env id request →
      Unaffected session (session.step from_str (.socket (some (.ok (.Text text))) env))
  unmatched : ∀ text id env, from_str text = some (.Cancel id) →
    (∀ request, session.active = some request → request.id ≠ id) →
      Unaffected session (session.step from_str (.socket (some (.ok (.Text text))) env))
  /-- Every other `Start` is accepted. -/
  accepted : ∀ text id request env, session.running = true →
    from_str text = some (.Start id request) → ¬ Rejected session env id request →
      ∃ g, g.id = id ∧ env.generate request.into_generation = .ok g.script ∧
        .accepted g ∈ (session.step from_str (.socket (some (.ok (.Text text))) env)).log
  /-- However the session ends, no stream is left. -/
  dropped : session.running = false → session.live = []

/-- The entries of one generation before it ends put out deltas only. -/
theorem not_stops_of_deltas {generation : Generation} {deltas : List String} {entry : Entry}
    (h : entry ∈ .accepted generation ::
      sent_by generation.internal_id (deltas.map (.Delta generation.id))) :
      entry.stops = false := by
  rcases List.mem_cons.1 h with rfl | h
  · rfl
  · simp only [sent_by, List.map_map, List.mem_map] at h
    obtain ⟨delta, -, rfl⟩ := h
    rfl

/-- What comes after deltas is fenced when what comes after its first stop is
    no output. -/
theorem fenced_append {front back : List Entry} (hfront : ∀ entry ∈ front, entry.stops = false)
    (hback : back.Pairwise fun first later => first.stops = true → later.outputs = false) :
    (front ++ back).Pairwise fun first later => first.stops = true → later.outputs = false := by
  have hnever : ∀ first ∈ front, ∀ later : Entry, first.stops = true → later.outputs = false := by
    intro first hfirst later hstops
    rw [hfront first hfirst] at hstops
    cases hstops
  exact List.pairwise_append.2 ⟨List.pairwise_of_forall_mem_list fun first hfirst later _ =>
    hnever first hfirst later, hback, fun first hfirst later _ => hnever first hfirst later⟩

/-- Nothing follows the end of a request that has ended. -/
theorem Ended.fenced {generation : Generation} {running : Bool} {entries : List Entry}
    (h : Ended generation running entries) :
    entries.Pairwise fun first later => first.stops = true → later.outputs = false := by
  cases h with
  | answered =>
    obtain ⟨deltas, last, heq, -⟩ := replies_eq generation.id none generation.script
    have hsplit : .accepted generation :: sent_by generation.internal_id generation.replies =
        (.accepted generation :: sent_by generation.internal_id (deltas.map (.Delta generation.id)))
          ++ [.message generation.internal_id last] := by
      rw [Generation.replies, heq]
      simp [sent_by]
    rw [hsplit]
    exact fenced_append (fun _ => not_stops_of_deltas) (List.pairwise_singleton ..)
  | cancelled h hrest =>
    obtain ⟨deltas, rfl⟩ := eq_deltas_of_append h hrest
    refine fenced_append (fun _ => not_stops_of_deltas) ?_
    simp [Entry.outputs, cancelled_error, is_output]
  | closed h hrest _ =>
    obtain ⟨deltas, rfl⟩ := eq_deltas_of_append h hrest
    rw [← List.append_nil (_ :: _)]
    exact fenced_append (fun _ => not_stops_of_deltas) .nil
  | closed_cancelled h hrest _ =>
    obtain ⟨deltas, rfl⟩ := eq_deltas_of_append h hrest
    exact fenced_append (fun _ => not_stops_of_deltas) (List.pairwise_singleton ..)

/-- Nor the end of one that is served. -/
theorem Serving.fenced {generation : Generation} {request : ActiveWebSocketGeneration}
    {log : List Entry} (h : Serving generation request log) :
    (trace generation.internal_id log).Pairwise fun first later =>
      first.stops = true → later.outputs = false := by
  obtain ⟨-, -, sent, htrace, hrest⟩ := h
  obtain ⟨deltas, rfl⟩ := eq_deltas_of_append hrest (replies_ne_nil _ _ _)
  rw [htrace, ← List.append_nil (_ :: _)]
  exact fenced_append (fun _ => not_stops_of_deltas) .nil

/-- Every message of a trace carries the id of its generation. -/
theorem message_id_of_mem_replies {generation : Generation} {message : WebSocketServerMessage}
    (h : message ∈ generation.replies) : message_id message = some generation.id := by
  obtain ⟨deltas, last, heq, -, hlast⟩ := replies_eq generation.id none generation.script
  rw [Generation.replies, heq] at h
  rcases List.mem_append.1 h with h | h
  · obtain ⟨delta, -, rfl⟩ := List.mem_map.1 h
    rfl
  · rw [List.mem_singleton.1 h, hlast]

theorem message_id_of_mem_sent {generation : Generation} {origin : Option UInt64}
    {message : WebSocketServerMessage} {sent rest : List WebSocketServerMessage}
    (h : .message origin message ∈
      Entry.accepted generation :: sent_by generation.internal_id sent)
    (hsent : sent ++ rest = generation.replies) : message_id message = some generation.id := by
  have hmem : message ∈ sent := by
    obtain ⟨message', hmem, heq⟩ := List.mem_map.1 ((List.mem_cons.1 h).resolve_left nofun)
    exact (Entry.message.inj heq).2 ▸ hmem
  exact message_id_of_mem_replies (hsent ▸ List.mem_append_left rest hmem)

theorem Ended.message_id {generation : Generation} {running : Bool} {entries : List Entry}
    {origin : Option UInt64} {message : WebSocketServerMessage}
    (h : Ended generation running entries) (hmem : .message origin message ∈ entries) :
    message_id message = some generation.id := by
  cases h with
  | answered => exact message_id_of_mem_sent hmem (List.append_nil _)
  | closed h => exact message_id_of_mem_sent hmem h
  | cancelled h =>
    rcases List.mem_append.1 hmem with hmem | hmem
    · exact message_id_of_mem_sent hmem h
    · obtain ⟨-, rfl⟩ : _ ∧ message = cancelled_error generation.id := by simpa using hmem
      rfl
  | closed_cancelled h =>
    rcases List.mem_append.1 hmem with hmem | hmem
    · exact message_id_of_mem_sent hmem h
    · cases List.mem_singleton.1 hmem

/-- The invariant gives that nothing follows an end. -/
theorem Inv.fenced (h : Inv self) (i : UInt64) : (trace i self.log).Pairwise fun first later =>
    first.stops = true → later.outputs = false := by
  rcases hi : trace i self.log with _ | ⟨entry, entries⟩
  · exact .nil
  · have hentry : entry ∈ trace i self.log := hi ▸ List.mem_cons_self
    obtain ⟨hlog, horigin⟩ := mem_trace.1 hentry
    obtain ⟨generation, hg, rfl⟩ := h.owned entry hlog i horigin
    rw [← hi]
    rcases h.story generation hg with ⟨request, -, hserving⟩ | ⟨-, hended⟩
    · exact hserving.fenced
    · exact hended.fenced

/-- The invariant gives that every output names a request that was accepted. -/
theorem Inv.labelled (h : Inv self) {origin : Option UInt64} {message : WebSocketServerMessage}
    (hmem : .message origin message ∈ self.log) (houtput : is_output message = true) :
    ∃ g, .accepted g ∈ self.log ∧ origin = some g.internal_id ∧ message_id message = some g.id := by
  cases origin with
  | none =>
    rw [h.quiet message hmem] at houtput
    cases houtput
  | some i =>
    obtain ⟨generation, hg, rfl⟩ := h.owned _ hmem i rfl
    refine ⟨generation, hg, rfl, ?_⟩
    have htrace := mem_trace.2 ⟨hmem, rfl⟩
    rcases h.story generation hg with ⟨request, -, -, -, sent, hsent, hrest⟩ | ⟨-, hended⟩
    · rw [hsent] at htrace
      exact message_id_of_mem_sent htrace hrest
    · exact hended.message_id htrace

theorem unaffected_send {session : Session} (h : session.active = self.active)
    (origin : Option UInt64) (message : WebSocketServerMessage) (sent : Bool) :
    Unaffected self (session.send_websocket origin message sent) := by
  cases sent with
  | true => exact .inr h
  | false => exact .inl rfl

/-- A `Start` that is rejected affects nothing. -/
theorem unaffected_start {env : Environment} {id : String} {request : WebSocketGeneration}
    (h : Rejected self env id request) :
    Unaffected self (self.start_websocket_generation env id request) := by
  unfold Session.start_websocket_generation
  split
  · exact unaffected_send rfl ..
  rename_i hid
  split
  · exact unaffected_send rfl ..
  rename_i hactive
  split
  · exact unaffected_send rfl ..
  rename_i internal_id hnext
  split
  · exact unaffected_send rfl ..
  rename_i hcontext
  split
  · rename_i events hgenerate
    simp only [Bool.or_eq_true, decide_eq_true_eq, not_or] at hid
    simp [Rejected, hid, hactive, hnext, hgenerate] at h
    simp [h] at hcontext
  · exact unaffected_send rfl ..

/-- A `Start` that is not rejected is accepted. -/
theorem accepted_start {env : Environment} {id : String} {request : WebSocketGeneration}
    (h : ¬ Rejected self env id request) :
    ∃ g, g.id = id ∧ env.generate request.into_generation = .ok g.script ∧
      .accepted g ∈ (self.start_websocket_generation env id request).log := by
  simp only [Rejected, not_or, not_exists, Bool.not_eq_true, Option.isSome_eq_false_iff] at h
  obtain ⟨hempty, hlong, hactive, hnext, hcontext, hgenerate⟩ := h
  obtain ⟨internal_id, hnext⟩ := Option.ne_none_iff_exists'.1 hnext
  cases hg : env.generate request.into_generation with
  | error error => exact absurd hg (hgenerate error)
  | ok script =>
    refine ⟨{ internal_id, id, script }, rfl, rfl, ?_⟩
    unfold Session.start_websocket_generation
    rw [if_neg (by simpa [hempty] using hlong), if_neg (by simpa using hactive)]
    simp [hnext, hcontext, hg]

/-- A text message, while the session runs. -/
theorem step_text (from_str : String → Option WebSocketClientMessage)
    (hrunning : self.running = true)
    (text : String) (env : Environment) :
    self.step from_str (.socket (some (.ok (.Text text))) env) =
      self.handle_websocket_message from_str env (.Text text) := if_pos hrunning

/-- Messages do not reach a session that is over. -/
theorem step_socket_closed (from_str : String → Option WebSocketClientMessage)
    (hclosed : self.running = false) (message : Option (Except Unit Message)) (env : Environment) :
    self.step from_str (.socket message env) = self := if_neg (by simp [hclosed])

/-- WebSocket session safety: after any run of a session it is safe, whatever
    its client sends, the engine streams and the order of the two. -/
theorem websocket_session_safe (from_str : String → Option WebSocketClientMessage) (ids : UInt64)
    (greeted : Bool) (acts : List Session.Act) :
    Safe from_str (run (Session.step from_str) (Session.websocket_session ids greeted) acts) := by
  have h : Inv (run (Session.step from_str) (Session.websocket_session ids greeted) acts) :=
    invariant (fun self act h => inv_turn h (step_turn from_str self act))
      (inv_websocket_session ids greeted) acts
  generalize run (Session.step from_str) (Session.websocket_session ids greeted) acts = self at h
  refine ⟨⟨?_, h.live⟩, fun g g' hg hg' hid => h.unique hg hg' hid, h.story, h.fenced,
    fun origin message => h.labelled, ?_, ?_, ?_, ?_⟩
  · rw [h.live]
    cases self.active <;> simp
  · intro text id request env htext hrejected
    cases hrunning : self.running with
    | false => exact .inr (by rw [step_socket_closed from_str hrunning])
    | true =>
      rw [step_text from_str hrunning, Session.handle_websocket_message, htext]
      exact unaffected_start hrejected
  · intro text id env htext hother
    cases hrunning : self.running with
    | false => exact .inr (by rw [step_socket_closed from_str hrunning])
    | true =>
      rw [step_text from_str hrunning, Session.handle_websocket_message, htext]
      cases hactive : self.active with
      | none => exact unaffected_send rfl ..
      | some request =>
        simp only [if_neg (hother request hactive)]
        exact unaffected_send rfl ..
  · intro text id request env hrunning htext haccepted
    rw [step_text from_str hrunning, Session.handle_websocket_message, htext]
    exact accepted_start haccepted
  · intro hclosed
    rw [h.live, h.closed hclosed]
    rfl

end Inferences.Server.WebSocket
