import Inferences.Server.WebSocketSafety

/-!
# What the ids of a WebSocket session tell a client

A client knows its requests by the ids it chose, and learns from the messages
of the session that a request has ended. It is not told so wrongly
(`Unambiguous`), but for one message: a session that is busy refuses a `Start`
with an error that carries the id of the `Start`, also when this is the id of
the request that keeps it busy and goes on (`overloaded_error`).

How an id stands is followed along the log (`told`). That of the active
generation is in progress (`Clear`).
-/

namespace Inferences.Server.WebSocket

open Schedule Protocol

/-- The answer to a `Start` while a request is active. -/
def overloaded_error (id : String) : WebSocketServerMessage :=
  .Error (some id) "overloaded" "only one request may be active in a session"

/-- A message that says of an id that its request has ended or failed. -/
def ends (id : String) (message : WebSocketServerMessage) : Bool :=
  is_terminal message && message_id message == some id

/-- What a log says of the requests of an id. -/
inductive Standing
  | unknown
  | in_progress
  | over
  deriving DecidableEq

/-- A message that ends a request whose id stands so: one in progress goes on
    after the refusal of another `Start`. -/
def ends_standing (id : String) (standing : Standing) (message : WebSocketServerMessage) : Bool :=
  ends id message && !(message == overloaded_error id && standing == .in_progress)

/-- How an id stands after one more entry. -/
def tell (id : String) (standing : Standing) : Entry → Standing
  | .accepted generation => if generation.id = id then .in_progress else standing
  | .cancelled _ => standing
  | .message _ message => if ends_standing id standing message then .over else standing

/-- How an id stands after a log. -/
def told (id : String) (log : List Entry) : Standing := log.foldl (tell id) .unknown

/-- The message ends the request with this id. -/
def ends_request (id : String) (before : List Entry) (message : WebSocketServerMessage) : Bool :=
  ends_standing id (told id before) message

/-- After a message that ends the request of an id, no output of this id is
    sent, before a request of the id is accepted again. What ends a request may
    depend on the log before the message. -/
def Unambiguous (ends : String → List Entry → WebSocketServerMessage → Bool) (log : List Entry) :
    Prop :=
  ∀ id before between after origin origin' first later,
    log = before ++ .message origin first :: between ++ .message origin' later :: after →
    ends id before first = true →
    (∀ generation, .accepted generation ∈ between → generation.id ≠ id) →
    is_output later = true → message_id later ≠ some id

theorem ends_standing_overloaded (id id' : String) :
    ends_standing id .in_progress (overloaded_error id') = false := by
  by_cases hid : id' = id
  · simp [ends_standing, hid]
  · simp [ends_standing, ends, overloaded_error, message_id, hid]

/-- What a client is told by a longer log. -/
theorem told_append (id : String) (log entries : List Entry) :
    told id (log ++ entries) = entries.foldl (tell id) (told id log) := List.foldl_append

/-- After the end of a request its id stands for none. -/
theorem told_of_ends {id : String} {origin : Option UInt64} {first : WebSocketServerMessage}
    {before : List Entry} (hfirst : ends_request id before first = true) {between : List Entry}
    (hbetween : ∀ generation, .accepted generation ∈ between → generation.id ≠ id) :
    told id (before ++ .message origin first :: between) = .over := by
  have htell : tell id (told id before) (.message origin first) = .over := if_pos hfirst
  rw [told_append, List.foldl_cons, htell]
  induction between with
  | nil => rfl
  | cons entry between ih =>
    have hover : tell id .over entry = .over := by
      cases entry with
      | accepted generation => exact if_neg (hbetween generation List.mem_cons_self)
      | cancelled internal_id => rfl
      | message origin message => exact ite_self _
    rw [List.foldl_cons, hover]
    exact ih fun generation hgeneration => hbetween generation (List.mem_cons_of_mem _ hgeneration)

/-- A log in which all output is of an id that was in progress, and the id of
    the active generation still is. -/
structure Clear (active : Option String) (log : List Entry) : Prop where
  output : ∀ before origin message after, log = before ++ .message origin message :: after →
    is_output message = true → ∀ id, message_id message = some id →
      told id before = .in_progress
  active : ∀ id, active = some id → told id log = .in_progress

variable {active : Option String} {log : List Entry}

/-- A clear log is unambiguous. -/
theorem Clear.unambiguous (h : Clear active log) : Unambiguous ends_request log := by
  intro id before between after origin origin' first later hlog hfirst hbetween houtput hid
  have htold := h.output (before ++ .message origin first :: between) origin' later after hlog
    houtput id hid
  rw [told_of_ends hfirst hbetween] at htold
  cases htold

theorem Clear.drop (h : Clear active log) : Clear none log :=
  ⟨h.output, fun _ hid => by cases hid⟩

/-- One more entry: output is that of the active generation, and the generation
    that is active after it is in progress by it. -/
theorem Clear.append (h : Clear active log) {entry : Entry} {active' : Option String}
    (houtput : ∀ origin message, entry = .message origin message → is_output message = true →
      ∀ id, message_id message = some id → active = some id)
    (hactive : ∀ id, active' = some id → tell id (told id log) entry = .in_progress) :
    Clear active' (log ++ [entry]) := by
  constructor
  · intro before origin message after hlog hmessage id hid
    rcases List.eq_nil_or_concat' after with rfl | ⟨after, last, rfl⟩
    · obtain ⟨rfl, hentry⟩ := List.append_inj' hlog rfl
      exact h.active id (houtput origin message (List.singleton_inj.1 hentry) hmessage id hid)
    · rw [← List.cons_append, ← List.append_assoc] at hlog
      exact h.output before origin message after (List.append_inj' hlog rfl).1 hmessage id hid
  · intro id hid
    rw [told_append]
    exact hactive id hid

/-! ## Sessions -/

/-- What the log says of ids is clear. -/
def Session.Clear (self : Session) : Prop := WebSocket.Clear (self.active.map (·.id)) self.log

variable {self : Session}

theorem clear_exit (h : Clear active self.log) : self.exit.Clear := h.drop

/-- Sending a message that does not end the active generation, which is the one
    that output is of. -/
theorem clear_send (h : Clear active self.log) {message : WebSocketServerMessage}
    (houtput : is_output message = true → ∀ id, message_id message = some id → active = some id)
    (hactive : ∀ id, self.active.map (·.id) = some id →
      active = some id ∧ ends_standing id .in_progress message = false)
    (origin : Option UInt64) (sent : Bool) : (self.send_websocket origin message sent).Clear := by
  cases sent with
  | false => exact clear_exit h
  | true =>
    refine h.append ?_ fun id hid => ?_
    · rintro origin' message' hentry
      cases hentry
      exact houtput
    · obtain ⟨hid, hends⟩ := hactive id hid
      rw [tell, h.active id hid, hends]
      exact if_neg Bool.false_ne_true

/-- An error that is not about the active generation. -/
theorem clear_send_error (h : self.Clear) {id : Option String} {code message : String}
    (hactive : ∀ request, self.active = some request → id ≠ some request.id)
    (origin : Option UInt64) (sent : Bool) :
    (self.send_websocket_error origin id code message sent).Clear := by
  refine clear_send h (fun houtput => by cases houtput) (fun id' hid' => ⟨hid', ?_⟩) origin sent
  obtain ⟨request, hrequest, rfl⟩ := Option.map_eq_some_iff.1 hid'
  simp [ends_standing, ends, is_terminal, message_id, hactive request hrequest]

/-- The last message of the active generation. -/
theorem clear_send_last (h : self.Clear) {request : ActiveWebSocketGeneration}
    (hactive : self.active = some request) {message : WebSocketServerMessage}
    (hid : message_id message = some request.id) (origin : Option UInt64) (sent : Bool) :
    ((self.take request).send_websocket origin message sent).Clear := by
  have h : Clear (some request.id) (self.take request).log := by
    rw [Session.Clear, hactive] at h
    exact h
  refine clear_send h (fun _ id hid' => ?_) (fun id hid' => by cases hid') origin sent
  rw [← hid, hid']

theorem clear_cancel (h : self.Clear) : Clear none self.cancel_active.log := by
  unfold Session.cancel_active
  split
  · exact h.drop
  · refine h.append ?_ fun id hid => by cases hid
    rintro origin message hentry
    cases hentry

/-- A `Start` keeps the log clear: a second one is refused. -/
theorem clear_start (h : self.Clear) (env : Environment) (id : String)
    (request : WebSocketGeneration) :
    (self.start_websocket_generation env id request).Clear := by
  unfold Session.start_websocket_generation
  split
  · exact clear_send_error h (fun _ _ => by simp) _ _
  split
  · -- the answer of a busy session
    exact clear_send h (fun houtput => by cases houtput)
      (fun id' hid' => ⟨hid', ends_standing_overloaded id' id⟩) _ _
  · next hbusy =>
    have hnone : self.active = none := by simpa using hbusy
    have hother : ∀ request, self.active = some request → some id ≠ some request.id := by
      simp [hnone]
    split
    · exact clear_send_error h hother _ _
    · next internal_id hnext =>
      have h' : Session.Clear { self with websocket_request_ids := internal_id } := h
      split
      · exact clear_send_error h' hother _ _
      split
      · refine h.append ?_ fun id' hid' => ?_
        · rintro origin message hentry
          cases hentry
        · obtain rfl := Option.some.inj hid'
          simp [tell]
      · exact clear_send_error h' hother _ _

/-- Every message keeps the log clear. -/
theorem clear_message (h : self.Clear) (from_str : String → Option WebSocketClientMessage)
    (env : Environment) (message : Message) :
    (self.handle_websocket_message from_str env message).Clear := by
  have hnoid : ∀ request, self.active = some request → (none : Option String) ≠ some request.id :=
    fun _ _ hid => by cases hid
  unfold Session.handle_websocket_message
  split
  · split
    · exact clear_send_error h hnoid _ _
    · exact clear_start h env _ _
    · split
      · next id request hactive =>
        split
        · refine clear_send (clear_cancel h) (fun houtput => by cases houtput)
            (fun id' hid' => ?_) _ _
          simp [Session.cancel_active, hactive, Session.take] at hid'
        · next hid =>
          refine clear_send_error h (fun request' hrequest' => ?_) _ _
          rw [hactive] at hrequest'
          cases hrequest'
          simpa using Ne.symm hid
      · next hnone =>
        refine clear_send_error h (fun request' hrequest' => ?_) _ _
        rw [hnone] at hrequest'
        cases hrequest'
    · exact clear_send h (fun houtput => by cases houtput) (fun id hid => ⟨hid, rfl⟩) _ _
    · exact clear_exit (clear_cancel h)
  · exact clear_send_error h hnoid _ _
  · split
    · exact h
    · exact clear_exit h
  · exact h
  · exact clear_exit (clear_cancel h)

/-- So does every event of the engine. -/
theorem clear_event (h : self.Clear) {request : ActiveWebSocketGeneration}
    (hactive : self.active = some request) (sent : Bool) :
    (self.handle_websocket_event request sent).Clear := by
  unfold Session.handle_websocket_event
  split
  · next delta events hevents =>
    rw [Session.Clear, hactive] at h
    let next := { self with active := some { request with events } }
    have h' : Clear (some request.id) next.log := h
    refine clear_send h' ?_ (fun id hid => ⟨hid, ?_⟩) _ _
    · exact fun _ id hid => hid
    · rfl
  · rw [Session.Clear, hactive] at h
    exact h
  · split
    · exact clear_send_last h hactive rfl _ _
    · exact clear_send_last h hactive rfl _ _
  · exact clear_send_last h hactive rfl _ _
  · exact clear_send_last h hactive rfl _ _

/-- So does every act. -/
theorem step_clear (from_str : String → Option WebSocketClientMessage) (self : Session)
    (act : Session.Act) (h : self.Clear) : (self.step from_str act).Clear := by
  cases act with
  | other => exact h
  | socket message env =>
    unfold Session.step
    dsimp only
    split
    · split
      · exact clear_message h from_str env _
      · exact clear_exit (clear_cancel h)
    · exact h
  | engine sent =>
    unfold Session.step
    dsimp only
    split
    · split
      · next request hactive => exact clear_event h hactive sent
      · exact h
    · exact h

/-- The log of a new session is clear. -/
theorem clear_websocket_session (ids : UInt64) (greeted : Bool) :
    (Session.websocket_session ids greeted).Clear := by
  have hnil : Clear none [] :=
    ⟨fun before origin message after hlog => by simp at hlog, fun id hid => by cases hid⟩
  exact clear_send hnil (fun houtput => by cases houtput) (fun id hid => by cases hid) _ _

/-- In every run of a session, the messages of an id are unambiguous, but for
    the refusal of a `Start` with the id of a request that is in progress. -/
theorem websocket_ids_unambiguous (from_str : String → Option WebSocketClientMessage)
    (ids : UInt64) (greeted : Bool) (acts : List Session.Act) :
    Unambiguous ends_request
      (run (Session.step from_str) (Session.websocket_session ids greeted) acts).log :=
  (invariant (step_clear from_str) (clear_websocket_session ids greeted) acts).unambiguous

/-! ## A second request under the id of the first -/

/-- A client that has one message. -/
def start_only (_ : String) : Option WebSocketClientMessage :=
  some (.Start "a" (.Completion
    { model := model_id, prompt := "p", max_tokens := 256, temperature := 0.8, top_p := 0.95,
      seed := none, stop := none, stream := false }))

/-- It is sent, and sent again while the first answer is streamed. -/
def start_twice : List Session.Act :=
  let start := .socket (some (.ok (.Text "start")))
    { sent := true, generate := fun _ => .ok [.ok (.Delta "t")] }
  [start, start, .engine true]

/-- The request whose `Start` was accepted goes on after the error for the
    other one, which has the same id. -/
theorem ambiguous_start_twice :
    ¬ Unambiguous (fun id _ => ends id)
      (run (Session.step start_only) (Session.websocket_session 0 true) start_twice).log := by
  intro h
  exact h "a" [.message none (.Ready 1 model_id), .accepted ⟨1, "a", [.ok (.Delta "t")]⟩] [] [] none
    (some 1) (overloaded_error "a") (.Delta "a" "t") rfl rfl (by simp) rfl rfl

end Inferences.Server.WebSocket
