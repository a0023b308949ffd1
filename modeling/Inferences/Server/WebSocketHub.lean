import Inferences.Permits
import Inferences.Schedule
import Inferences.Server.WebSocketSafety

/-!
# WebSocket sessions side by side

A server has sixteen permits for WebSocket sessions, and one source of request
ids for all of them. A connection takes a permit when it is upgraded and gives
it back when its session returns (`websocket_upgrade`).

* `sessions_isolated`: whatever the others do, a session goes on as it would
  alone, except that some request ids are taken.
* `sessions_bounded`: at most sixteen sessions run, an upgrade is refused only
  when all of them do, and no two generations of any sessions share an id.
-/

namespace Inferences.Server.WebSocket

open Permits Protocol Schedule

/-- How many sessions are open at one time. -/
def MAX_SESSIONS : Nat := 16

/-- A connection: being upgraded, with its session, or failed before it. -/
inductive Connection
  | upgrading
  | established (session : Session)
  | failed

/-- The connection holds a permit. -/
def Connection.holds : Connection → Bool
  | upgrading => true
  | established session => session.running
  | failed => false

/-- The state the sessions share, and the connections. -/
structure TransportState where
  websocket_sessions : Nat := MAX_SESSIONS
  websocket_request_ids : UInt64 := 0
  connections : List Connection := []

/-- What happens next: a client asks for a session, an upgrade succeeds (the
    greeting is sent or not) or fails, or a session takes a turn. -/
inductive HubAct
  | upgrade
  | establish (i : Nat) (sent : Bool)
  | fail (i : Nat)
  | turn (i : Nat) (act : Session.Act)

namespace TransportState

/-- `websocket_upgrade`: the status of the answer. -/
def websocket_upgrade (self : TransportState) : TransportState × Nat :=
  if self.websocket_sessions = 0 then (self, 429)
  else
    ({ self with websocket_sessions := self.websocket_sessions - 1
                 connections := self.connections ++ [.upgrading] }, 101)

/-- The connection `i` goes on as `connection`, and gives its permit back when
    it does not hold it any more. -/
def proceed (self : TransportState) (i : Nat) (before connection : Connection) : TransportState :=
  { self with
    websocket_sessions := self.websocket_sessions +
      if before.holds && !connection.holds then 1 else 0
    connections := self.connections.set i connection }

section

variable (from_str : String → Option WebSocketClientMessage)

/-- One turn of a session, with the ids all of them share. -/
def turn (self : TransportState) (i : Nat) (session : Session) (act : Session.Act) :
    TransportState :=
  let session := { session with websocket_request_ids := self.websocket_request_ids }
  let session' := session.step from_str act
  { self.proceed i (.established session) (.established session') with
    websocket_request_ids := session'.websocket_request_ids }

/-- The step of an act. A session takes request ids by its own turns only. -/
def step (self : TransportState) : HubAct → TransportState
  | .upgrade => self.websocket_upgrade.1
  | .establish i sent =>
    match self.connections[i]? with
    | some .upgrading =>
      self.proceed i .upgrading
        (.established (.websocket_session self.websocket_request_ids sent))
    | _ => self
  | .fail i =>
    match self.connections[i]? with
    | some .upgrading => self.proceed i .upgrading .failed
    | _ => self
  | .turn i act =>
    match self.connections[i]?, act with
    | some (.established _), .other => self
    | some (.established session), act => self.turn from_str i session act
    | _, _ => self

/-- The turn an act makes, with the number of its session. -/
def turns (self : TransportState) : HubAct → List (Nat × Session.Act)
  | .turn i act =>
    match self.connections[i]?, act with
    | some (.established _), .other => []
    | some (.established _), act => [(i, act)]
    | _, _ => []
  | _ => []

end

end TransportState

/-! ## Turns and the shared source -/

/-- A turn of the session itself. -/
def Session.Act.is_own : Session.Act → Bool
  | .other => false
  | _ => true

variable {from_str : String → Option WebSocketClientMessage} {self self' : Session}

/-- A value of the source after at most one more id. -/
def Draws (ids ids' : UInt64) : Prop := ids' = ids ∨ next_id ids = some ids'

theorem ids_send_websocket (origin : Option UInt64) (message : WebSocketServerMessage)
    (sent : Bool) : (self.send_websocket origin message sent).websocket_request_ids =
      self.websocket_request_ids := by
  unfold Session.send_websocket
  split <;> rfl

theorem ids_cancel_active :
    self.cancel_active.websocket_request_ids = self.websocket_request_ids := by
  unfold Session.cancel_active
  split <;> rfl

/-- A `Start` draws one number at most. -/
theorem draws_start (env : Environment) (id : String) (request : WebSocketGeneration) :
    Draws self.websocket_request_ids
      (self.start_websocket_generation env id request).websocket_request_ids := by
  unfold Session.start_websocket_generation
  split
  · exact .inl (ids_send_websocket ..)
  split
  · exact .inl (ids_send_websocket ..)
  split
  · exact .inl (ids_send_websocket ..)
  · rename_i internal_id hnext
    dsimp only
    split
    · refine .inr ?_
      rw [Session.send_websocket_error, ids_send_websocket]
      exact hnext
    split
    · exact .inr hnext
    · refine .inr ?_
      rw [Session.send_websocket_error, ids_send_websocket]
      exact hnext

/-- So does every message. -/
theorem draws_message (env : Environment) (message : Message) :
    Draws self.websocket_request_ids
      (self.handle_websocket_message from_str env message).websocket_request_ids := by
  unfold Session.handle_websocket_message
  split
  · split
    · exact .inl (ids_send_websocket ..)
    · exact draws_start ..
    · split
      · split
        · exact .inl ((ids_send_websocket ..).trans ids_cancel_active)
        · exact .inl (ids_send_websocket ..)
      · exact .inl (ids_send_websocket ..)
    · exact .inl (ids_send_websocket ..)
    · exact .inl ids_cancel_active
  · exact .inl (ids_send_websocket ..)
  · split <;> exact .inl rfl
  · exact .inl rfl
  · exact .inl ids_cancel_active

theorem ids_event (request : ActiveWebSocketGeneration) (sent : Bool) :
    (self.handle_websocket_event request sent).websocket_request_ids =
      self.websocket_request_ids := by
  unfold Session.handle_websocket_event
  split
  · exact ids_send_websocket ..
  · rfl
  · split <;> exact ids_send_websocket ..
  · exact ids_send_websocket ..
  · exact ids_send_websocket ..

/-- A turn takes at most one id. -/
theorem draws_step {act : Session.Act} (hact : act.is_own = true) :
    Draws self.websocket_request_ids (self.step from_str act).websocket_request_ids := by
  cases act with
  | other => cases hact
  | socket message env =>
    unfold Session.step
    dsimp only
    split
    · split
      · exact draws_message ..
      · exact .inl ids_cancel_active
    · exact .inl rfl
  | engine sent =>
    unfold Session.step
    dsimp only
    split
    · split
      · exact .inl (ids_event ..)
      · exact .inl rfl
    · exact .inl rfl

/-- What a turn adds to the log of a session: no generation, or one with an id
    above those taken before. -/
theorem fresh_of_turn (h : Turn self self') :
    self.websocket_request_ids ≤ self'.websocket_request_ids ∧
      ∀ generation, .accepted generation ∈ self'.log → .accepted generation ∈ self.log ∨
        self.websocket_request_ids < generation.internal_id := by
  have hold (entries : List Entry) (hentries : ∀ generation, .accepted generation ∉ entries)
      (generation : Generation) (hmem : .accepted generation ∈ self.log ++ entries) :
      .accepted generation ∈ self.log ∨ self.websocket_request_ids < generation.internal_id :=
    .inl ((List.mem_append.1 hmem).resolve_right (hentries generation))
  cases h with
  | idle ids hids => exact ⟨hids, fun _ => .inl⟩
  | quiet ids hids message => exact ⟨hids, hold _ (by simp)⟩
  | accepted internal_id id events hrunning hfresh =>
    refine ⟨UInt64.le_of_lt hfresh, fun generation hmem => ?_⟩
    rcases List.mem_append.1 hmem with hmem | hmem
    · exact .inl hmem
    · obtain ⟨rfl⟩ := List.mem_singleton.1 hmem
      exact .inr hfresh
  | delta => exact ⟨UInt64.le_rfl, hold _ (by simp)⟩
  | usage => exact ⟨UInt64.le_rfl, fun _ => .inl⟩
  | terminal => exact ⟨UInt64.le_rfl, hold _ (by simp)⟩
  | cancelled => exact ⟨UInt64.le_rfl, hold _ (by simp)⟩
  | closed ids hids => exact ⟨hids, fun _ => .inl⟩
  | closed_cancelled => exact ⟨UInt64.le_rfl, hold _ (by simp)⟩

/-! ## One step of the whole -/

namespace TransportState

variable {hub : TransportState}

/-- A session, with the ids all of them share. -/
def session (hub : TransportState) (i : Nat) : Option Session :=
  match hub.connections[i]? with
  | some (.established session) =>
    some { session with websocket_request_ids := hub.websocket_request_ids }
  | _ => none

/-- What an act does to the sessions: nothing but leave room for a new one; a
    new session; or a turn of one of them. -/
inductive Stepped (from_str : String → Option WebSocketClientMessage) (hub : TransportState)
    (turns : List (Nat × Session.Act)) (hub' : TransportState) : Prop
  | same (hturns : turns = [])
      (hids : hub'.websocket_request_ids = hub.websocket_request_ids)
      (hsession : ∀ i, hub'.session i = hub.session i)
  | opened (i : Nat) (sent : Bool) (hturns : turns = [])
      (hids : hub'.websocket_request_ids = hub.websocket_request_ids)
      (hnone : hub.session i = none)
      (hsession : hub'.session i = some (.websocket_session hub.websocket_request_ids sent))
      (hothers : ∀ j, j ≠ i → hub'.session j = hub.session j)
  | turned (i : Nat) (act : Session.Act) (self : Session) (hturns : turns = [(i, act)])
      (hact : act.is_own = true) (hself : hub.session i = some self)
      (hids : hub'.websocket_request_ids = (self.step from_str act).websocket_request_ids)
      (hsession : hub'.session i = some (self.step from_str act))
      (hothers : ∀ j, j ≠ i → hub'.session j =
        (hub.session j).map ({ · with websocket_request_ids := hub'.websocket_request_ids }))

/-- A turn of one session leaves the others alone. -/
theorem session_proceed_ne {i j : Nat} (h : j ≠ i) (before connection : Connection) :
    (hub.proceed i before connection).session j = hub.session j := by
  unfold session proceed
  rw [List.getElem?_set_ne (Ne.symm h)]

/-- The connection that goes on, by what it goes on as. -/
theorem connection_proceed {i : Nat} {before' : Connection}
    (hi : hub.connections[i]? = some before') (before connection : Connection) :
    (hub.proceed i before connection).connections[i]? = some connection :=
  List.getElem?_set_self (List.getElem?_eq_some_iff.1 hi).1

theorem session_of_established {i : Nat} {session : Session}
    (hi : hub.connections[i]? = some (.established session)) :
    hub.session i =
      some { session with websocket_request_ids := hub.websocket_request_ids } := by
  rw [TransportState.session, hi]

/-- A turn of a session is a step of it. -/
theorem stepped_turn {i : Nat} {session : Session} {act : Session.Act}
    (hi : hub.connections[i]? = some (.established session)) (hact : act.is_own = true) :
    Stepped from_str hub [(i, act)] (hub.turn from_str i session act) := by
  refine .turned i act _ rfl hact (session_of_established hi) rfl ?_ fun j hj => ?_
  · exact session_of_established (connection_proceed hi (.established
      { session with websocket_request_ids := hub.websocket_request_ids }) _)
  · unfold TransportState.session turn proceed
    dsimp only
    rw [List.getElem?_set_ne (Ne.symm hj)]
    split <;> rfl

/-- Every act is a turn of one session, or of none. -/
theorem stepped_step (from_str : String → Option WebSocketClientMessage) (hub : TransportState)
    (act : HubAct) :
    Stepped from_str hub (hub.turns act) (hub.step from_str act) := by
  have hself : Stepped from_str hub [] hub := .same rfl rfl fun _ => rfl
  cases act with
  | upgrade =>
    unfold turns step websocket_upgrade
    dsimp only
    split
    · exact hself
    -- A connection that is still upgrading has no session.
    · refine .same rfl rfl fun i => ?_
      unfold TransportState.session
      dsimp only
      rcases Nat.lt_trichotomy i hub.connections.length with hlt | rfl | hgt
      · rw [List.getElem?_append_left hlt]
      · simp
      · rw [List.getElem?_eq_none (by simp; omega), List.getElem?_eq_none (by omega)]
  | establish i sent =>
    unfold turns step
    dsimp only
    split
    · rename_i hi
      refine .opened i sent rfl rfl ?_ ?_ fun j hj => session_proceed_ne hj _ _
      · rw [TransportState.session, hi]
      · rw [session_of_established (connection_proceed hi _ _)]
        cases sent <;> rfl
    · exact hself
  | fail i =>
    unfold turns step
    dsimp only
    split
    · rename_i hi
      refine .same rfl rfl fun j => ?_
      by_cases hj : j = i
      · subst hj
        rw [TransportState.session, TransportState.session, connection_proceed hi, hi]
      · exact session_proceed_ne hj _ _
    · exact hself
  | turn i act =>
    unfold turns step
    dsimp only
    cases hi : hub.connections[i]? with
    | none => exact hself
    | some connection =>
      cases connection with
      | upgrading => exact hself
      | failed => exact hself
      | established session =>
        cases act with
        | other => exact hself
        -- Only these two acts are a session's own.
        | socket message env => exact stepped_turn hi rfl
        | engine sent => exact stepped_turn hi rfl

/-! ## Isolation -/

/-- The turns of the session `i`, among those of all. -/
def turns_of (i : Nat) (turns : List (Nat × Session.Act)) : List Session.Act :=
  (turns.filter (·.1 = i)).map (·.2)

/-- A run of one session by itself, which ends in the state `session` and has
    the turns `own`; in between, others take request ids. -/
def Alone (from_str : String → Option WebSocketClientMessage) (session : Session)
    (own : List Session.Act) : Prop :=
  ∃ ids sent acts, run (Session.step from_str) (.websocket_session ids sent) acts = session ∧
    acts.filter (·.is_own) = own

/-- Every session is as it would be alone, with its own turns; and there are
    turns of sessions only. -/
structure Isolated (from_str : String → Option WebSocketClientMessage) (hub : TransportState)
    (turns : List (Nat × Session.Act)) : Prop where
  alone : ∀ i session, hub.session i = some session → Alone from_str session (turns_of i turns)
  established : ∀ entry ∈ turns, (hub.session entry.1).isSome = true

/-- A session goes on by a turn of its own. -/
theorem Alone.turn {own : List Session.Act} (h : Alone from_str self own) {act : Session.Act}
    (hact : act.is_own = true) : Alone from_str (self.step from_str act) (own ++ [act]) := by
  obtain ⟨ids, sent, acts, rfl, rfl⟩ := h
  refine ⟨ids, sent, acts ++ [act], by rw [run_append]; rfl, ?_⟩
  rw [List.filter_append, List.filter_singleton, hact]
  rfl

/-- Another session takes an id, or none. -/
theorem Alone.other {own : List Session.Act} (h : Alone from_str self own) {ids : UInt64}
    (hids : Draws self.websocket_request_ids ids) :
    Alone from_str { self with websocket_request_ids := ids } own := by
  rcases hids with rfl | hnext
  · exact h
  obtain ⟨first, sent, acts, rfl, rfl⟩ := h
  refine ⟨first, sent, acts ++ [.other], ?_, ?_⟩
  · rw [run_append]
    simp only [run_cons, run_nil, Session.step, hnext, Option.getD_some]
  · rw [List.filter_append]
    exact List.append_nil _

theorem ids_of_session {i : Nat} (h : hub.session i = some self) :
    self.websocket_request_ids = hub.websocket_request_ids := by
  unfold session at h
  split at h
  · cases h
    rfl
  · cases h

theorem turns_of_append (i : Nat) (turns turns' : List (Nat × Session.Act)) :
    turns_of i (turns ++ turns') = turns_of i turns ++ turns_of i turns' := by
  rw [turns_of, List.filter_append, List.map_append]
  rfl

/-- Every act keeps each session the run of its own turns. -/
theorem isolated_step {turns : List (Nat × Session.Act)} (h : Isolated from_str hub turns)
    (act : HubAct) : Isolated from_str (hub.step from_str act) (turns ++ hub.turns act) := by
  cases stepped_step from_str hub act with
  | same hturns hids hsession =>
    rw [hturns, List.append_nil]
    refine ⟨fun i session hi => ?_, fun entry hentry => ?_⟩
    · rw [hsession] at hi
      exact h.alone i session hi
    · rw [hsession]
      exact h.established entry hentry
  | opened i sent hturns hids hnone hsession hothers =>
    rw [hturns, List.append_nil]
    refine ⟨fun j session hj => ?_, fun entry hentry => ?_⟩
    · by_cases hji : j = i
      · subst hji
        rw [hsession] at hj
        -- a new session has had no turns
        have hnever : turns_of j turns = [] := by
          rw [turns_of, List.map_eq_nil_iff, List.filter_eq_nil_iff]
          intro entry hentry heq
          have hsome := h.established entry hentry
          rw [of_decide_eq_true heq, hnone] at hsome
          cases hsome
        exact ⟨_, sent, [], Option.some.inj hj, hnever.symm⟩
      · rw [hothers j hji] at hj
        exact h.alone j session hj
    · have hsome := h.established entry hentry
      rw [hothers]
      · exact hsome
      · intro heq
        rw [heq, hnone] at hsome
        cases hsome
  | turned i act self hturns hact hself hids hsession hothers =>
    have hdraws : Draws hub.websocket_request_ids
        (hub.step from_str ‹_›).websocket_request_ids := by
      rw [hids, ← ids_of_session hself]
      exact draws_step hact
    rw [hturns]
    refine ⟨fun j session hj => ?_, fun entry hentry => ?_⟩
    · rw [turns_of_append]
      by_cases hji : j = i
      · subst hji
        rw [hsession] at hj
        obtain rfl := Option.some.inj hj
        have hown : turns_of j [(j, act)] = [act] := by simp [turns_of]
        rw [hown]
        exact (h.alone j self hself).turn hact
      · rw [hothers j hji] at hj
        obtain ⟨before, hbefore, rfl⟩ := Option.map_eq_some_iff.1 hj
        have hnone : turns_of j [(i, act)] = [] := by simp [turns_of, Ne.symm hji]
        rw [hnone, List.append_nil]
        refine (h.alone j before hbefore).other ?_
        rwa [ids_of_session hbefore]
    · by_cases hentryi : entry.1 = i
      · rw [hentryi, hsession]
        rfl
      · rw [hothers _ hentryi, Option.isSome_map]
        rcases List.mem_append.1 hentry with hentry | hentry
        · exact h.established entry hentry
        · obtain rfl := List.mem_singleton.1 hentry
          exact absurd rfl hentryi

theorem isolated_start : Isolated from_str {} [] :=
  ⟨fun i session hi => by simp [TransportState.session] at hi, nofun⟩

/-- Whatever the others do, every session is as it would be alone, with the
    turns it has had and some request ids taken in between. -/
theorem sessions_isolated (from_str : String → Option WebSocketClientMessage)
    (acts : List HubAct) :
    Isolated from_str (run (step from_str) {} acts) (outputs (step from_str) turns {} acts) := by
  have hstep : ∀ (hub : TransportState) act given, Isolated from_str hub given →
      Isolated from_str (hub.step from_str act) (given ++ hub.turns act) :=
    fun _ act _ h => isolated_step h act
  exact invariant_outputs hstep isolated_start acts

/-! ## Bounds -/

/-- A session that has returned does not run again. -/
theorem running_step {act : Session.Act} (h : (self.step from_str act).running = true) :
    self.running = true := by
  by_contra hstopped
  rw [Bool.not_eq_true] at hstopped
  revert h
  cases act with
  | other => simp [Session.step, hstopped]
  | socket message env => simp [Session.step, hstopped]
  | engine sent => simp [Session.step, hstopped]

/-- The permits of the hub are accounted for. -/
def Counted (hub : TransportState) : Prop :=
  Accounted Connection.holds MAX_SESSIONS hub.websocket_sessions hub.connections

theorem counted_proceed (h : Counted hub) {i : Nat} {before' before connection : Connection}
    (hi : hub.connections[i]? = some before') (hbefore : before.holds = before'.holds)
    (hkeep : connection.holds = true → before.holds = true) :
    Counted (hub.proceed i before connection) := by
  refine Accounted.set h hi ?_
  unfold proceed
  dsimp only
  rw [hbefore] at hkeep ⊢
  revert hkeep
  cases before'.holds <;> cases connection.holds <;> simp

/-- Every act keeps the count of the permits. -/
theorem counted_step (h : Counted hub) (act : HubAct) : Counted (hub.step from_str act) := by
  cases act with
  | upgrade =>
    unfold step websocket_upgrade
    dsimp only
    split
    · exact h
    · rename_i hfree
      exact Accounted.append h (Nat.sub_add_cancel (Nat.pos_of_ne_zero hfree))
  | establish i sent =>
    unfold step
    dsimp only
    split
    · rename_i hi
      exact counted_proceed h hi rfl fun _ => rfl
    · exact h
  | fail i =>
    unfold step
    dsimp only
    split
    · rename_i hi
      exact counted_proceed h hi rfl fun _ => rfl
    · exact h
  | turn i act =>
    unfold step
    dsimp only
    split
    · exact h
    · rename_i session act hi hother
      exact counted_proceed h hi rfl running_step
    · exact h

/-- Every session is sound by itself, and generations of two of them have
    different ids. -/
structure Distinct (hub : TransportState) : Prop where
  inv : ∀ i session, hub.session i = some session → Inv session
  ids : ∀ i j session session', hub.session i = some session → hub.session j = some session' →
    ∀ g g', .accepted g ∈ session.log → .accepted g' ∈ session'.log →
      g.internal_id = g'.internal_id → i = j

/-- The ids of a session are those its source has given. -/
theorem Distinct.le (h : Distinct hub) {i : Nat} {session : Session}
    (hi : hub.session i = some session) {g : Generation} (hg : .accepted g ∈ session.log) :
    g.internal_id ≤ hub.websocket_request_ids := by
  rw [← ids_of_session hi]
  exact (h.inv i session hi).fresh _ hg _ rfl

/-- Every act keeps the sessions sound and their ids apart. -/
theorem distinct_step (h : Distinct hub) (act : HubAct) : Distinct (hub.step from_str act) := by
  cases stepped_step from_str hub act with
  | same hturns hids hsession =>
    refine ⟨fun i session hi => h.inv i session (hsession i ▸ hi), ?_⟩
    intro i j session session' hi hj
    exact h.ids i j session session' (hsession i ▸ hi) (hsession j ▸ hj)
  | opened i sent hturns hids hnone hsession hothers =>
    -- the log of a new session has no generation
    have hold {k : Nat} {session : Session} (hk : (hub.step from_str act).session k = some session)
        {g : Generation} (hg : .accepted g ∈ session.log) : hub.session k = some session := by
      by_cases hki : k = i
      · subst hki
        rw [hsession] at hk
        obtain rfl := Option.some.inj hk
        cases sent <;> simp [Session.websocket_session, Session.send_websocket, Session.exit] at hg
      · rwa [hothers k hki] at hk
    refine ⟨fun k session hk => ?_, fun k l session session' hk hl g g' hg hg' => ?_⟩
    · by_cases hki : k = i
      · subst hki
        rw [hsession] at hk
        obtain rfl := Option.some.inj hk
        exact inv_websocket_session _ sent
      · rw [hothers k hki] at hk
        exact h.inv k session hk
    · exact h.ids k l session session' (hold hk hg) (hold hl hg') g g' hg hg'
  | turned i act self hturns hact hself hids hsession hothers =>
    have hturn := step_turn from_str self act
    obtain ⟨hle, hfresh⟩ := fresh_of_turn hturn
    rw [ids_of_session hself] at hle hfresh
    -- a generation is an old one, or one of the session that has its turn
    have hsource {k : Nat} {session : Session}
        (hk : (hub.step from_str ‹_›).session k = some session) {g : Generation}
        (hg : .accepted g ∈ session.log) :
        (∃ before, hub.session k = some before ∧ .accepted g ∈ before.log) ∨
          k = i ∧ hub.websocket_request_ids < g.internal_id := by
      by_cases hki : k = i
      · subst hki
        rw [hsession] at hk
        obtain rfl := Option.some.inj hk
        exact (hfresh g hg).imp (fun hbefore => ⟨self, hself, hbefore⟩) fun hnew => ⟨rfl, hnew⟩
      · rw [hothers k hki] at hk
        obtain ⟨before, hbefore, rfl⟩ := Option.map_eq_some_iff.1 hk
        exact .inl ⟨before, hbefore, hg⟩
    refine ⟨fun k session hk => ?_, fun k l session session' hk hl g g' hg hg' hid => ?_⟩
    · by_cases hki : k = i
      · subst hki
        rw [hsession] at hk
        obtain rfl := Option.some.inj hk
        exact inv_turn (h.inv k self hself) hturn
      · rw [hothers k hki] at hk
        obtain ⟨before, hbefore, rfl⟩ := Option.map_eq_some_iff.1 hk
        refine inv_idle (h.inv k before hbefore) ?_
        rw [ids_of_session hbefore, hids]
        exact hle
    · rcases hsource hk hg with ⟨before, hbefore, hg⟩ | ⟨rfl, hnew⟩
      · rcases hsource hl hg' with ⟨before', hbefore', hg'⟩ | ⟨rfl, hnew⟩
        · exact h.ids k l before before' hbefore hbefore' g g' hg hg' hid
        · rw [← hid] at hnew
          exact absurd (h.le hbefore hg) (UInt64.not_le.2 hnew)
      · rcases hsource hl hg' with ⟨before', hbefore', hg'⟩ | ⟨rfl, -⟩
        · rw [hid] at hnew
          exact absurd (h.le hbefore' hg') (UInt64.not_le.2 hnew)
        · rfl

/-- At most sixteen connections hold a permit, a further one is refused exactly
    when sixteen do, and no two generations share an id, whichever sessions
    they are of. -/
structure SessionsBounded (hub : TransportState) : Prop where
  bounded : hub.connections.countP (·.holds) ≤ MAX_SESSIONS
  refused : hub.websocket_upgrade.2 = 429 ↔ hub.connections.countP (·.holds) = MAX_SESSIONS
  unique : ∀ i j session session', hub.session i = some session → hub.session j = some session' →
    ∀ g g', .accepted g ∈ session.log → .accepted g' ∈ session'.log →
      g.internal_id = g'.internal_id → i = j ∧ g = g'

/-- Sessions hold the permits they are counted by, in every run. -/
theorem sessions_bounded (from_str : String → Option WebSocketClientMessage)
    (acts : List HubAct) : SessionsBounded (run (step from_str) {} acts) := by
  have hcounted : ∀ (hub : TransportState) act, Counted hub → Counted (hub.step from_str act) :=
    fun _ act h => counted_step h act
  have hdistinct : ∀ (hub : TransportState) act, Distinct hub →
      Distinct (hub.step from_str act) :=
    fun _ act h => distinct_step h act
  have hdistinct_start : Distinct {} :=
    ⟨fun i session hi => by simp [TransportState.session] at hi,
      fun i j session session' hi => by simp [TransportState.session] at hi⟩
  have haccount : Counted (run (step from_str) {} acts) :=
    invariant hcounted (show Counted {} from rfl) acts
  have hdistinct : Distinct (run (step from_str) {} acts) :=
    invariant hdistinct hdistinct_start acts
  refine ⟨haccount.countP_le, ?_, fun i j session session' hi hj g g' hg hg' hid => ?_⟩
  · rw [websocket_upgrade]
    split
    · rename_i hfree
      exact iff_of_true rfl (haccount.all_held hfree)
    · rename_i hfree
      refine iff_of_false (by simp) fun hall => hfree ?_
      rw [Counted, Accounted, show List.countP Connection.holds _ = MAX_SESSIONS from hall]
        at haccount
      omega
  · obtain rfl := hdistinct.ids i j session session' hi hj g g' hg hg' hid
    rw [hi] at hj
    obtain rfl := Option.some.inj hj
    exact ⟨rfl, (hdistinct.inv i session hi).unique hg' hg hid⟩

end TransportState

end Inferences.Server.WebSocket
