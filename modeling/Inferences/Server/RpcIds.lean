import Inferences.Serde
import Inferences.Server.Admission

/-!
# The ids of JSON-RPC errors

The id of a request to `/mcp` is read twice: before the gate, leniently
(`Mcp.request_id`), for the errors of the layers around the handler; and by the
handler, which decodes the whole request (`RpcRequest.deserialize`) and echoes
the id it finds.

Of a body that is fully read, the layers keep the id when it is a string or a
number. The handler keeps the same id from its decoding on; before it, and when
it fails, the id of its errors is null (`mcp_error_ids`).
-/

namespace Inferences.Server

open Json Http Schedule

namespace Mcp

/-- The decoding of a request, from a document: a member that is unknown, or
    written twice, or missing is an error, but for the parameters. -/
def RpcRequest.deserialize (document : Value) : Option RpcRequest := do
  guard (Serde.unique document)
  let field ← Serde.struct ["jsonrpc", "id", "method", "params"] document
  let jsonrpc ← (← field "jsonrpc").as_str
  let id ← field "id"
  let method ← (← field "method").as_str
  return {
    jsonrpc
    id := Serde.to_value id
    method
    params := (field "params").elim .null Serde.to_value }

/-- The id in the request is that of the value of an object. -/
theorem deserialize_id {members : List (String × Value)} {request : RpcRequest}
    (h : RpcRequest.deserialize (.object members) = some request) :
    (Serde.to_value (.object members)).get "id" = some request.id := by
  unfold RpcRequest.deserialize at h
  obtain ⟨_, hunique, h⟩ := Option.bind_eq_some_iff.1 h
  obtain ⟨field, hfield, h⟩ := Option.bind_eq_some_iff.1 h
  obtain ⟨_, -, h⟩ := Option.bind_eq_some_iff.1 h
  obtain ⟨_, -, h⟩ := Option.bind_eq_some_iff.1 h
  obtain ⟨id, hid, h⟩ := Option.bind_eq_some_iff.1 h
  obtain ⟨_, -, h⟩ := Option.bind_eq_some_iff.1 h
  obtain ⟨_, -, h⟩ := Option.bind_eq_some_iff.1 h
  obtain rfl := Option.some.inj h
  -- of the fields, only the id counts
  have hmember : members.lookup "id" = some id := by
    rw [Serde.struct, Option.ite_none_right_eq_some] at hfield
    obtain ⟨-, hfield⟩ := hfield
    obtain rfl := Option.some.inj hfield
    exact hid
  have hnodup : Serde.unique (.object members) = true := by
    simpa [guard] using hunique
  rw [Serde.get_to_value hnodup, hmember]
  rfl

end Mcp

/-- The two parsers of the server, over one that reads the document of a body. -/
def parsers_of (document : Bytes → Option Value) (body_limit : Nat) : Parsers where
  from_slice body := (document body).map Serde.to_value
  parse body := (document body).bind Mcp.RpcRequest.deserialize
  body_limit

/-- The answer that a poll comes to. -/
def Phase.reply : Phase → Option Reply
  | .streaming reply | .answered reply => some reply
  | _ => none

/-- The id of an answer that is an error in JSON-RPC. -/
def Reply.error_id (reply : Reply) : Option Value :=
  reply.body.bind fun body => if (body.get "error").isSome then body.get "id" else none

/-- The poll finds the body of the request fully read, or ends the reading of it. -/
def BodyRead (limits : ServerLimits) (request : Request) (choice : Choice) (body : Bytes) : Prop :=
  match request.phase with
  | .preloading => choice.uploaded = true ∧
      to_bytes request.upload limits.max_request_bytes = .ok body
  | .reading | .queueing | .handling => request.upload = .ok body
  | _ => False

section
variable (parsers : Parsers) (headers : Mcp.Headers) (body : Bytes)

/-- The id of a body: that of an object, when it is a string or a number, and
    null otherwise. -/
def body_id : Value := (Mcp.request_id parsers.from_slice body).getD .null

/-- The id of an error of the handler: null when it does not decode the body,
    and from then on the id of the body, when that is a string or a number. -/
def HandlerId (id : Value) : Prop :=
  if (headers "content-type").any Mcp.json_content_type = false ∨ parsers.parse body = none then
    id = .null
  else ∀ known, Mcp.request_id parsers.from_slice body = some known → id = known

/-- What the server answers to a request to `/mcp` of which the body is read: an
    error of the layers, with the id of the body; the answer of the handler; or
    that of its extractor, which is not in JSON-RPC. -/
inductive Built : Reply → Prop
  | layers {reply : Reply} (message : String) (status : Nat)
      (h : reply = (Mcp.outer_error (Mcp.request_id parsers.from_slice body) message
        status).reply)
      (hid : reply.error_id = some (body_id parsers body)) : Built reply
  | handler {reply : Reply} (methods : Mcp.Methods)
      (h : reply = (Mcp.handle parsers.parse methods headers body).reply)
      (hid : ∀ id, reply.error_id = some id → HandlerId parsers headers body id) : Built reply
  | extractor {reply : Reply} (h : reply = ⟨413, none⟩) (hid : reply.error_id = none) :
      Built reply

end

/-- Every answer to a request to `/mcp` whose body is read is built with its id. -/
def ErrorIds (parsers : Parsers) (server : InferenceServer) : Prop :=
  ∀ request ∈ server.requests, request.is_mcp = true → ∀ choice body,
    BodyRead server.limits request choice body →
      ∀ reply, (request.poll parsers.from_slice parsers.parse parsers.body_limit server.limits
        server.shared choice).2.phase.reply = some reply →
        Built parsers request.headers body reply

variable {document : Bytes → Option Value} {body_limit : Nat}

/-! ## The handler -/

@[simp] theorem error_id_rpc_error (id : Value) (code : Int32) (message : String) (status : Nat) :
    (Mcp.rpc_error id code message status).reply.error_id = some id := rfl

@[simp] theorem error_id_rpc_result (id result : Value) :
    (Mcp.rpc_result id result).reply.error_id = none := rfl

/-- A known id of a body that is decoded is that of the request. -/
theorem parse_id {body : Bytes} {request : Mcp.RpcRequest} {known : Value}
    (hparse : (parsers_of document body_limit).parse body = some request)
    (hknown : Mcp.request_id (parsers_of document body_limit).from_slice body = some known) :
    request.id = known := by
  obtain ⟨value, hvalue, hrequest⟩ := Option.bind_eq_some_iff.1 hparse
  obtain ⟨hget, -⟩ := Option.filter_eq_some_iff.1 hknown
  obtain ⟨kept, hkept, hid⟩ := Option.bind_eq_some_iff.1 hget
  change (document body).map Serde.to_value = some kept at hkept
  rw [hvalue] at hkept
  obtain rfl := Option.some.inj hkept
  cases value with
  | object members => exact Option.some.inj ((Mcp.deserialize_id hrequest).symm.trans hid)
  | _ => simp [Serde.to_value, Value.get] at hid

/-- Every error of the handler has the id it should have. -/
theorem handle_error_id (methods : Mcp.Methods) (headers : Mcp.Headers) (body : Bytes) {id : Value}
    (h : (Mcp.handle (parsers_of document body_limit).parse methods headers body).reply.error_id =
      some id) : HandlerId (parsers_of document body_limit) headers body id := by
  unfold Mcp.handle at h
  unfold HandlerId
  split at h
  · rename_i htype
    rw [if_pos (.inl (by simpa using htype))]
    exact (Option.some.inj h).symm
  rename_i htype
  split at h
  · rename_i hparse
    rw [if_pos (.inr hparse)]
    exact (Option.some.inj h).symm
  rename_i request hparse
  rw [if_neg (by rw [hparse]; simpa using htype)]
  intro known hknown
  -- past the decoder, every error has the id of the request
  have hid : some request.id = some id → id = known := fun heq =>
    (Option.some.inj heq).symm.trans (parse_id hparse hknown)
  split at h
  · exact hid h
  split at h
  · exact hid h
  split at h
  · exact hid h
  dsimp only at h
  split at h
  · cases h
  · exact hid h

/-! ## The layers -/

/-- The errors of the layers keep the id of the body. -/
theorem built_outer_error (parsers : Parsers) (headers : Mcp.Headers) (body : Bytes)
    (message : String) (status : Nat) :
    Built parsers headers body
      (Mcp.outer_error (Mcp.request_id parsers.from_slice body) message status).reply :=
  .layers message status rfl rfl

/-- What holds of a request to `/mcp` whose body has been read, by where it waits:
    the id is that of its body, and so is the body it is handled with. -/
def Kept (parsers : Parsers) (request : Request) : Prop :=
  match request.phase with
  | .reading => ∃ body, request.upload = .ok body ∧
      request.mcp_id = Mcp.request_id parsers.from_slice body
  | .queueing | .handling => request.upload = .ok request.body ∧
      request.mcp_id = Mcp.request_id parsers.from_slice request.body
  | _ => True

variable {parsers : Parsers} {limits : ServerLimits} {shared : Shared} {request : Request}
  {choice : Choice} {body : Bytes} {reply : Reply}

theorem built_workload_error (hmcp : request.is_mcp = true)
    (hid : request.mcp_id = Mcp.request_id parsers.from_slice body) (status : Nat)
    (code message : String) :
    Built parsers request.headers body
      (workload_error request.is_mcp request.mcp_id status code message) := by
  rw [workload_error, if_pos hmcp, hid]
  exact built_outer_error parsers request.headers body message status

theorem built_fail (hmcp : request.is_mcp = true)
    (hid : request.mcp_id = Mcp.request_id parsers.from_slice body) {status : Nat}
    {code message : String}
    (h : (request.fail shared status code message).2.phase.reply = some reply) :
    Built parsers request.headers body reply := by
  obtain rfl := Option.some.inj h
  exact built_workload_error hmcp hid status code message

theorem to_bytes_ok {bytes : Bytes} {max_bytes : Nat}
    (h : to_bytes (.ok bytes) max_bytes = .ok body) : bytes = body := by
  simp only [to_bytes] at h
  split at h
  · exact Except.ok.inj h
  · cases h

/-- At the gate, a request is turned away with the id of its body, or waits for it. -/
theorem enter_cases (request : Request) (shared : Shared) (choice : Choice) :
    (∃ shared' status code message,
        request.enter shared choice = request.fail shared' status code message) ∨
      (request.enter shared choice).2 = { request with phase := .reading } := by
  unfold Request.enter
  split
  · exact .inl ⟨_, _, _, _, rfl⟩
  split
  · exact .inl ⟨_, _, _, _, rfl⟩
  split
  · exact .inl ⟨_, _, _, _, rfl⟩
  · exact .inr rfl

theorem built_enter (h : (request.enter shared choice).2.phase.reply = some reply)
    (hmcp : request.is_mcp = true)
    (hid : request.mcp_id = Mcp.request_id parsers.from_slice body) :
    Built parsers request.headers body reply := by
  rcases enter_cases request shared choice with ⟨shared', status, code, message, heq⟩ | heq
  · rw [heq] at h
    exact built_fail hmcp hid h
  · rw [heq] at h
    cases h

/-- A poll that answers a request whose body is read answers it with its id. -/
theorem built_poll (hmcp : request.is_mcp = true)
    (hkept : Kept (parsers_of document body_limit) request)
    (hread : BodyRead limits request choice body)
    (h : (request.poll (parsers_of document body_limit).from_slice
      (parsers_of document body_limit).parse body_limit limits shared choice).2.phase.reply =
      some reply) : Built (parsers_of document body_limit) request.headers body reply := by
  unfold BodyRead at hread
  unfold Kept at hkept
  unfold Request.poll at h
  cases hphase : request.phase <;> simp only [hphase] at hread hkept h
  case preloading =>
    obtain ⟨huploaded, hbytes⟩ := hread
    simp only [Request.preload_mcp_request, huploaded, if_true, hbytes] at h
    have hbuilt := built_enter h hmcp rfl
    exact hbuilt
  case reading =>
    obtain ⟨bytes, hbytes, hid⟩ := hkept
    obtain rfl := Except.ok.inj (hbytes.symm.trans hread)
    unfold Request.read_request_body at h
    split at h
    · exact built_fail hmcp hid h
    split at h
    · split at h
      · simp [Phase.reply] at h
      · exact built_fail hmcp hid h
    split at h
    · exact built_fail hmcp hid h
    · simp [hphase, Phase.reply] at h
  case queueing =>
    obtain ⟨hbytes, hid⟩ := hkept
    obtain rfl := Except.ok.inj (hbytes.symm.trans hread)
    unfold Request.acquire_execution at h
    split at h
    · exact built_fail hmcp hid h
    split at h
    · simp [Phase.reply] at h
    split at h
    · exact built_fail hmcp hid h
    · simp [hphase, Phase.reply] at h
  case handling =>
    obtain ⟨hbytes, hid⟩ := hkept
    obtain rfl := Except.ok.inj (hbytes.symm.trans hread)
    split at h
    · rename_i answer hanswer
      obtain rfl := Option.some.inj h
      unfold Request.run_workload_handler at hanswer
      split at hanswer
      · obtain rfl := Option.some.inj hanswer
        exact built_workload_error hmcp hid _ _ _
      split at hanswer
      · obtain rfl := Option.some.inj hanswer
        exact built_workload_error hmcp hid _ _ _
      obtain ⟨handled, -, rfl⟩ := Option.map_eq_some_iff.1 hanswer
      -- the extractor refuses the request before the handler sees it
      unfold Request.route
      rw [if_pos hmcp]
      split
      · exact .extractor rfl rfl
      · exact .handler handled.methods rfl fun id => handle_error_id handled.methods _ _
    · simp [hphase, Phase.reply] at h

theorem kept_of_answered (h : request.phase.reply.isSome) : Kept parsers request := by
  unfold Kept
  cases hphase : request.phase <;> simp_all [Phase.reply]

/-- A poll keeps what holds of a request. -/
theorem kept_poll (hmcp : request.is_mcp = true) (h : Kept parsers request) :
    Kept parsers (request.poll parsers.from_slice parsers.parse parsers.body_limit limits shared
      choice).2 := by
  -- what fails is answered, and what enters has the id of its body
  have hfail (self : Request) (shared : Shared) (status : Nat) (code message : String) :
      Kept parsers (self.fail shared status code message).2 := kept_of_answered rfl
  have henter (self : Request) (body : Bytes) (hupload : self.upload = .ok body)
      (hid : self.mcp_id = Mcp.request_id parsers.from_slice body) :
      Kept parsers (self.enter shared choice).2 := by
    rcases enter_cases self shared choice with ⟨shared', status, code, message, heq⟩ | heq
    · rw [heq]
      exact hfail ..
    · rw [heq]
      exact ⟨body, hupload, hid⟩
  unfold Request.poll
  cases hphase : request.phase <;> simp only
  case arriving =>
    rw [if_pos hmcp]
    trivial
  case preloading =>
    unfold Request.preload_mcp_request
    split
    · split
      · exact henter _ _ rfl rfl
      · exact kept_of_answered rfl
    split
    · exact kept_of_answered rfl
    · exact h
  case reading =>
    have hheld := h
    unfold Kept at hheld
    rw [hphase] at hheld
    obtain ⟨bytes, hbytes, hid⟩ := hheld
    unfold Request.read_request_body
    split
    · exact hfail ..
    split
    · split
      · rename_i hbody
        rw [hbytes] at hbody
        obtain rfl := to_bytes_ok hbody
        exact ⟨hbytes, hid⟩
      · exact hfail ..
    split
    · exact hfail ..
    · exact h
  case queueing =>
    have hheld := h
    unfold Kept at hheld
    rw [hphase] at hheld
    unfold Request.acquire_execution
    split
    · exact hfail ..
    split
    · exact hheld
    split
    · exact hfail ..
    · exact h
  case handling =>
    split
    · exact kept_of_answered rfl
    · exact h
  case streaming =>
    split
    · trivial
    · exact h
  all_goals exact h

/-! ## The server -/

variable {server : InferenceServer}

/-- What holds of the requests of a server. -/
def AllKept (parsers : Parsers) (server : InferenceServer) : Prop :=
  ∀ request ∈ server.requests, request.is_mcp = true → Kept parsers request

theorem AllKept.errorIds (h : AllKept (parsers_of document body_limit) server) :
    ErrorIds (parsers_of document body_limit) server :=
  fun request hmem hmcp _ _ hread _ => built_poll hmcp (h request hmem hmcp) hread

theorem allKept_with_request {i : Nat} {step : Request → Shared × Request}
    (h : AllKept parsers server)
    (hstep : ∀ request, (request.is_mcp = true → Kept parsers request) →
      (step request).2.is_mcp = true → Kept parsers (step request).2) :
    AllKept parsers (server.with_request i step) := by
  unfold InferenceServer.with_request
  split
  · exact h
  · rename_i request hi
    intro request' hmem
    rcases List.mem_or_eq_of_mem_set hmem with hmem | rfl
    · exact h request' hmem
    · exact hstep request (h request (List.mem_of_getElem? hi))

/-- A request stays one to its endpoint. -/
theorem Polled.is_mcp_eq {r : Shared × Request}
    (h : Polled parsers limits shared request choice r) :
    r.2.is_mcp = request.is_mcp := by
  cases h with
  | turn_away self' status code message hphase hself hstatus =>
    rcases hself with ⟨-, rfl⟩ | ⟨-, bytes, mcp_id, -, rfl⟩ <;> rfl
  | enter self' gate hphase hself =>
    rcases hself with ⟨-, rfl⟩ | ⟨-, bytes, mcp_id, -, rfl⟩ <;> rfl
  | _ => rfl

theorem kept_drop (h : request.is_mcp = true → Kept parsers request)
    (hmcp : (request.drop shared).2.is_mcp = true) : Kept parsers (request.drop shared).2 := by
  unfold Request.drop at hmcp ⊢
  split at hmcp
  · exact h hmcp
  · exact h hmcp
  · exact h hmcp
  · trivial

theorem allKept_step (parsers : Parsers) (act : Act) (h : AllKept parsers server) :
    AllKept parsers (server.step parsers act) := by
  cases act with
  | arrive is_mcp headers upload =>
    intro request hmem
    rcases List.mem_append.1 hmem with hmem | hmem
    · exact h request hmem
    · rw [List.mem_singleton.1 hmem]
      exact fun _ => trivial
  | poll i choice =>
    refine allKept_with_request h fun request hr hmcp => ?_
    have hsame := (poll_polled parsers server.limits request server.shared choice).is_mcp_eq
    exact kept_poll (hsame.symm.trans hmcp) (hr (hsame.symm.trans hmcp))
  | drop i => exact allKept_with_request h fun request hr => kept_drop hr
  | serve choice =>
    have hserved := InferenceServer.served_poll_serve server choice
    rw [AllKept, InferenceServer.step, hserved.requests]
    exact h
  | tick time => exact h

/-- In every run of a server, for every limit set, the errors for a request to
    `/mcp` whose body is read have the id of the body, but for those of a
    handler that does not decode it. -/
theorem mcp_error_ids (document : Bytes → Option Value) (body_limit : Nat) (limits : ServerLimits)
    (acts : List Act) :
    ErrorIds (parsers_of document body_limit)
      (run (InferenceServer.step (parsers_of document body_limit))
        (InferenceServer.with_limits limits) acts) := by
  have hkept : AllKept (parsers_of document body_limit)
      (run (InferenceServer.step (parsers_of document body_limit))
        (InferenceServer.with_limits limits) acts) :=
    invariant (fun _ act => allKept_step (parsers_of document body_limit) act)
      (fun _ hmem => absurd hmem List.not_mem_nil) acts
  exact hkept.errorIds

/-! ## Two readers of one id -/

/-- The text of a request. -/
def ping (rest : String) : Bytes :=
  ("\x7b\"jsonrpc\":\"2.0\",\"method\":\"ping\"," ++ rest ++ "\x7d").toUTF8.data.toList

/-- Its members. -/
def ping_members (rest : List (String × Value)) : Value :=
  .object ([("jsonrpc", .string "2.0"), ("method", .string "ping")] ++ rest)

/-- The number one. -/
def one : Value := .number (.posInt 1)

/-- The JSON parser, on four texts. -/
def ping_document (body : Bytes) : Option Value :=
  if body = ping "\"id\":1" then some (ping_members [("id", one)])
  else if body = ping "\"id\":1,\"extra\":0" then
    some (ping_members [("id", one), ("extra", .number (.posInt 0))])
  else if body = ping "\"id\":true" then some (ping_members [("id", .bool true)])
  else if body = "[\"2.0\",1,\"ping\"]".toUTF8.data.toList then
    some (.array [.string "2.0", one, .string "ping"])
  else none

/-- The headers of a request that has a content type and no others. -/
def content_type (value : String) : Mcp.Headers := fun name =>
  if name = "content-type" then some value else none

/-- The id of the error that the handler answers to a body, and that of the body. -/
def two_ids (value : String) (body : Bytes) : Option Value × Value :=
  ((Mcp.handle (parsers_of ping_document 0).parse (fun _ => none) (content_type value)
      body).reply.error_id, body_id (parsers_of ping_document 0) body)

/-- The handler has its own id for an error when the content is of another type,
    when a member is unknown, when the id is neither a string nor a number, and
    when the body is an array. -/
theorem mcp_error_ids_differ :
    two_ids "text/plain" (ping "\"id\":1") = (some .null, one) ∧
      two_ids "application/json" (ping "\"id\":1,\"extra\":0") = (some .null, one) ∧
      two_ids "application/json" (ping "\"id\":true") = (some (.bool true), .null) ∧
      two_ids "application/json" "[\"2.0\",1,\"ping\"]".toUTF8.data.toList = (some one, .null) := by
  refine ⟨?_, ?_, ?_, ?_⟩
  · rfl
  · rfl
  · rfl
  · rfl

end Inferences.Server
