import Inferences.Server.Admission

/-!
# The failures of MCP

Whatever fails a request to `/mcp` is answered in JSON-RPC, with one exception:
the layer around all routes replaces every answer of status 413, that of
`preload_mcp_request` too (`mcp_failures_oversized`). The answers are in
JSON-RPC exactly when no body is found over a limit (`mcp_failures_iff`).
-/

namespace Inferences.Server

open Json Http Schedule

/-- An answer in JSON-RPC: the result of a method, or an error. -/
def Reply.IsRpc (reply : Reply) : Prop :=
  (∃ id result, reply = (Mcp.rpc_result id result).reply) ∨
    ∃ body, reply.body = some body ∧ Mcp.IsRpcError body

/-- The answer as its client receives it. -/
def Phase.received : Phase → Option Reply
  | .streaming reply | .answered reply | .finished reply => some (normalize_public_failures reply)
  | _ => none

/-- The poll finds the body of a request to `/mcp` over a limit: that of the
    server when the body is uploaded, or that of the extractor of the handler. -/
def Oversized (parsers : Parsers) (limits : ServerLimits) (shared : Shared) (request : Request)
    (choice : Choice) : Prop :=
  request.is_mcp = true ∧
    (request.phase = .preloading ∧ choice.uploaded = true ∧
        to_bytes request.upload limits.max_request_bytes = .error () ∨
      request.phase = .handling ∧ shared.gate.stopped = false ∧ choice.late = false ∧
        choice.handled.isSome ∧ parsers.body_limit < request.body.length)

/-! ## One request -/

/-- An answer that the last layer leaves as it is. -/
def Reply.Kept (reply : Reply) : Prop := reply.status ≠ 405 ∧ reply.status ≠ 413

/-- A reply that is kept is not replaced. -/
theorem normalize_of_kept {reply : Reply} (h : reply.Kept) :
    normalize_public_failures reply = reply := by
  unfold normalize_public_failures
  split
  · exact absurd ‹_› h.1
  · exact absurd ‹_› h.2
  · rfl

/-- A body over a limit is answered outside JSON-RPC. -/
theorem not_isRpc_normalize {reply : Reply} (h : reply.status = 413) :
    ¬ (normalize_public_failures reply).IsRpc := by
  have hreply : normalize_public_failures reply =
      (public_error 413 "invalid_request"
        "the request body exceeds the configured limit").reply := by
    simp only [normalize_public_failures, h]
  rw [hreply]
  rintro (⟨id, result, heq⟩ | ⟨body, hbody, hrpc⟩)
  · cases congrArg Reply.status heq
  · cases hbody
    cases hrpc.1

/-- The answer is in JSON-RPC, and stays so up to its client. -/
def Reply.Good (reply : Reply) : Prop := reply.IsRpc ∧ reply.Kept

/-- The errors of the outer layers are well formed. -/
theorem good_outer_error (id : Option Value) (message : String) {status : Nat}
    (h : status ≠ 405 ∧ status ≠ 413) : (Mcp.outer_error id message status).reply.Good :=
  ⟨.inr ⟨_, rfl, Mcp.isRpcError_rpc_error ..⟩, h⟩

/-- So are those of the workload. -/
theorem good_workload_error {mcp_id : Option Value} {code message : String} {status : Nat}
    {is_mcp : Bool} (hmcp : is_mcp = true) (h : status ≠ 405 ∧ status ≠ 413) :
    (workload_error is_mcp mcp_id status code message).Good := by
  rw [workload_error, if_pos hmcp]
  exact good_outer_error mcp_id message h

/-- So are the replies of the handler. -/
theorem good_handle (parse : Bytes → Option Mcp.RpcRequest) (methods : Mcp.Methods)
    (headers : Mcp.Headers) (body : Bytes) :
    (Mcp.handle parse methods headers body).reply.Good := by
  rcases Mcp.handle_cases parse methods headers body with
    ⟨id, result, h⟩ | ⟨id, code, message, status, h, hstatus⟩
  · rw [h]
    exact ⟨.inl ⟨id, result, rfl⟩, Nat.ne_of_beq_eq_false rfl, Nat.ne_of_beq_eq_false rfl⟩
  · rw [h]
    refine ⟨.inr ⟨_, rfl, Mcp.isRpcError_rpc_error ..⟩, ?_, ?_⟩
    · rintro rfl
      simp at hstatus
    · rintro rfl
      simp at hstatus

/-- What holds of a request to `/mcp`, by where it waits: its body has been found
    within the limit before the gate, and it is answered well. -/
def Answers (limits : ServerLimits) (request : Request) : Prop :=
  match request.phase with
  | .reading => ∃ bytes, to_bytes request.upload limits.max_request_bytes = .ok bytes
  | .streaming reply | .answered reply | .finished reply => reply.Good
  | _ => True

theorem to_bytes_of_to_bytes {upload : Except Unit Bytes} {max_bytes : Nat} {bytes : Bytes}
    (h : to_bytes upload max_bytes = .ok bytes) : to_bytes (.ok bytes) max_bytes = .ok bytes := by
  unfold to_bytes at h
  split at h
  · split at h
    · rename_i hle
      obtain rfl := Except.ok.inj h
      exact if_pos hle
    · cases h
  · cases h

variable {parsers : Parsers} {limits : ServerLimits} {shared : Shared} {request : Request}
  {choice : Choice}

/-- What the handler answers, unless it extracts a body that is too large. -/
theorem good_run_workload_handler {reply : Reply} (hmcp : request.is_mcp = true)
    (hphase : request.phase = .handling) (hfits : ¬ Oversized parsers limits shared request choice)
    (h : request.run_workload_handler parsers.parse parsers.body_limit shared choice =
      some reply) : reply.Good := by
  unfold Request.run_workload_handler at h
  split at h
  · obtain rfl := Option.some.inj h
    exact good_workload_error hmcp (by decide)
  rename_i hstopped
  split at h
  · obtain rfl := Option.some.inj h
    exact good_workload_error hmcp (by decide)
  rename_i hlate
  obtain ⟨handled, hhandled, rfl⟩ := Option.map_eq_some_iff.1 h
  unfold Request.route
  rw [if_pos hmcp]
  split
  · rename_i hlarge
    exact absurd ⟨hmcp, .inr ⟨hphase, Bool.eq_false_iff.2 hstopped, Bool.eq_false_iff.2 hlate,
      Option.isSome_of_mem hhandled, hlarge⟩⟩ hfits
  · exact good_handle ..

/-- A poll keeps what holds of a request, unless it finds the body too large. -/
theorem Answers.polled {r : Shared × Request} (h : request.is_mcp = true → Answers limits request)
    (hfits : ¬ Oversized parsers limits shared request choice)
    (hpolled : Polled parsers limits shared request choice r) (hmcp : r.2.is_mcp = true) :
    Answers limits r.2 := by
  cases hpolled with
  | wait => exact h hmcp
  | preload => trivial
  | refuse status message hphase hstatus =>
    rcases hstatus with rfl | ⟨-, huploaded, hbytes⟩
    · exact good_outer_error none message (by decide)
    · exact absurd ⟨hmcp, .inl ⟨hphase, huploaded, hbytes⟩⟩ hfits
  | turn_away self' status code message hphase hself hstatus =>
    refine good_workload_error hmcp ?_
    rcases hstatus with rfl | rfl | ⟨rfl, -⟩ <;> decide
  | enter self' gate hphase hself =>
    -- a request with the method of MCP has been read before it comes to the gate
    rcases hself with ⟨hnot, rfl⟩ | ⟨-, bytes, mcp_id, hbytes, rfl⟩
    · exact absurd (hnot.symm.trans hmcp) Bool.false_ne_true
    · exact ⟨bytes, to_bytes_of_to_bytes hbytes⟩
  | fail status code message hphase hstatus =>
    refine good_workload_error hmcp ?_
    rcases hstatus with rfl | rfl | ⟨-, hreading, hbytes⟩
    · decide
    · decide
    · -- The body that has been read before the gate is within the limit.
      have hread := h hmcp
      unfold Answers at hread
      rw [hreading] at hread
      obtain ⟨bytes, hread⟩ := hread
      exact absurd (hread.symm.trans hbytes) (by simp)
  | read => trivial
  | execute => trivial
  | respond reply hphase hreply =>
    have hmcp : request.is_mcp = true := hmcp
    exact good_run_workload_handler hmcp hphase hfits hreply
  | finish reply hphase =>
    have hgood := h hmcp
    unfold Answers at hgood
    rw [hphase] at hgood
    exact hgood

/-- A poll that finds the body too large is answered outside JSON-RPC. -/
theorem Oversized.answered (h : Oversized parsers limits shared request choice) :
    (request.poll parsers.from_slice parsers.parse parsers.body_limit limits shared
      choice).2.is_mcp = true ∧
    ∃ reply, (request.poll parsers.from_slice parsers.parse parsers.body_limit limits shared
      choice).2.phase.received = some reply ∧ ¬ reply.IsRpc := by
  obtain ⟨hmcp, ⟨hphase, huploaded, hbytes⟩ | ⟨hphase, hstopped, hlate, hhandled, hlarge⟩⟩ := h
  · simp only [Request.poll, hphase, Request.preload_mcp_request, huploaded, hbytes]
    exact ⟨hmcp, normalize_public_failures (Mcp.outer_error none
      "the request body exceeds the configured limit" 413).reply, rfl, not_isRpc_normalize rfl⟩
  · obtain ⟨handled, hhandled⟩ := Option.isSome_iff_exists.1 hhandled
    have hreply : request.run_workload_handler parsers.parse parsers.body_limit shared choice =
        some ⟨413, none⟩ := by
      simp [Request.run_workload_handler, hstopped, hlate, hhandled, Request.route, hmcp, hlarge]
    simp only [Request.poll, hphase, hreply]
    exact ⟨hmcp, normalize_public_failures ⟨413, none⟩, rfl, not_isRpc_normalize rfl⟩

namespace InferenceServer

/-! ## The server -/

variable {server : InferenceServer}

/-- No poll of the act finds a body too large. -/
def Fits (parsers : Parsers) (server : InferenceServer) (act : Act) : Prop :=
  match act with
  | .poll i choice => ∀ request, server.requests[i]? = some request →
      ¬ Oversized parsers server.limits server.shared request choice
  | _ => True

/-- Every answer to a request to `/mcp` reaches its client in JSON-RPC. -/
def McpFailures (server : InferenceServer) : Prop :=
  ∀ request ∈ server.requests, request.is_mcp = true →
    ∀ reply, request.phase.received = some reply → reply.IsRpc

/-- What holds of the requests of a server while no body is too large. -/
def Answering (server : InferenceServer) : Prop :=
  ∀ request ∈ server.requests, request.is_mcp = true → Answers server.limits request

/-- The invariant gives the result. -/
theorem Answering.failures (h : Answering server) : McpFailures server := by
  intro request hmem hmcp reply hreply
  have hgood := h request hmem hmcp
  have hkept {answer : Reply} (hanswer : answer.Good)
      (hr : some (normalize_public_failures answer) = some reply) : reply.IsRpc := by
    rw [normalize_of_kept hanswer.2] at hr
    obtain rfl := Option.some.inj hr
    exact hanswer.1
  unfold Answers at hgood
  unfold Phase.received at hreply
  cases hphase : request.phase <;> rw [hphase] at hgood hreply
  case streaming => exact hkept hgood hreply
  case answered => exact hkept hgood hreply
  case finished => exact hkept hgood hreply
  all_goals cases hreply

theorem Answering.congr {server' : InferenceServer} (h : Answering server)
    (hlimits : server'.limits = server.limits) (hrequests : server'.requests = server.requests) :
    Answering server' := by
  rw [Answering, hlimits, hrequests]
  exact h

/-- A step of one request keeps the invariant when it keeps its own. -/
theorem answering_with_request {i : Nat} {step : Request → Shared × Request} (h : Answering server)
    (hstep : ∀ request, server.requests[i]? = some request →
      (request.is_mcp = true → Answers server.limits request) →
      (step request).2.is_mcp = true → Answers server.limits (step request).2) :
    Answering (server.with_request i step) := by
  unfold with_request
  split
  · exact h
  · rename_i request hi
    intro request' hmem
    rcases List.mem_or_eq_of_mem_set hmem with hmem | rfl
    · exact h request' hmem
    · exact hstep request hi (h request (List.mem_of_getElem? hi))

/-- A request that is dropped has no other reply. -/
theorem answers_drop {limits : ServerLimits} {shared : Shared} {request : Request}
    (h : request.is_mcp = true → Answers limits request)
    (hmcp : (request.drop shared).2.is_mcp = true) : Answers limits (request.drop shared).2 := by
  unfold Request.drop at hmcp ⊢
  split at hmcp
  · exact h hmcp
  · exact h hmcp
  · exact h hmcp
  · trivial

/-- Every act within the bounds keeps the invariant. -/
theorem answering_step {parsers : Parsers} {act : Act} (hfits : Fits parsers server act)
    (h : Answering server) : Answering (server.step parsers act) := by
  cases act with
  | arrive is_mcp headers upload =>
    intro request hmem
    rcases List.mem_append.1 hmem with hmem | hmem
    · exact h request hmem
    · rw [List.mem_singleton.1 hmem]
      exact fun _ => trivial
  | poll i choice =>
    exact answering_with_request h fun request hi hr =>
      Answers.polled hr (hfits request hi) (poll_polled parsers server.limits request _ choice)
  | drop i => exact answering_with_request h fun request _ hr => answers_drop hr
  | serve choice =>
    have hserved := served_poll_serve server choice
    exact h.congr hserved.policy hserved.requests
  | tick time => exact h

/-- A poll that finds a body too large is the end of JSON-RPC. -/
theorem not_mcpFailures_step {parsers : Parsers} {act : Act} (h : ¬ Fits parsers server act) :
    ¬ McpFailures (server.step parsers act) := by
  cases act with
  | poll i choice =>
    obtain ⟨request, hrequest⟩ := not_forall.1 h
    obtain ⟨hi, hover⟩ := Classical.not_imp.1 hrequest
    have hover := not_not.1 hover
    obtain ⟨hmcp, reply, hreply, hnot⟩ := hover.answered
    have hlt : i < server.requests.length := (List.getElem?_eq_some_iff.1 hi).1
    refine fun hrpc => hnot (hrpc _ ?_ hmcp reply hreply)
    rw [step, with_request, hi]
    exact List.mem_set hlt _
  | _ => exact absurd trivial h

/-- The requests to `/mcp` are answered in JSON-RPC all along a run exactly when
    no poll of the run finds a body over a limit. -/
theorem mcp_failures_iff (parsers : Parsers) (limits : ServerLimits) (acts : List Act) :
    (∀ n, McpFailures (run (step parsers) (with_limits limits) (acts.take n))) ↔
      Along (step parsers) (Fits parsers) (with_limits limits) acts := by
  constructor
  · intro h
    by_contra hnot
    obtain ⟨before, act, after, rfl, -, hact⟩ := exists_first_of_not_along hnot
    have hstep := h (before.length + 1)
    rw [List.take_append, List.take_of_length_le (Nat.le_succ _), Nat.add_sub_cancel_left,
      List.take_succ_cons, List.take_zero, run_append] at hstep
    exact not_mcpFailures_step hact hstep
  · intro h n
    have hstep : ∀ (s : InferenceServer) act, Fits parsers s act → Answering s →
        Answering (s.step parsers act) := fun _ _ => answering_step
    exact ((h.take n).invariant hstep (fun _ hmem => absurd hmem List.not_mem_nil)).failures

/-- A body that is too long is refused before the gate. -/
theorem preload_large {from_slice : Bytes → Option Value} {request : Request} {max_bytes : Nat}
    {shared : Shared} {choice : Choice} (huploaded : choice.uploaded = true)
    (hlarge : to_bytes request.upload max_bytes = .error ()) :
    request.preload_mcp_request from_slice max_bytes shared choice = (shared, request.answer
      (Mcp.outer_error none "the request body exceeds the configured limit" 413).reply) := by
  rw [Request.preload_mcp_request, if_pos huploaded, hlarge]

/-- A body of 1025 bytes is over the limit of 1024, and its answer is that of the
    other routes. -/
theorem mcp_failures_oversized :
    ∃ request ∈ (run (step no_parsers) (with_limits small_limits)
      [.arrive true (fun _ => none) (.ok (.replicate 1025 0)), .poll 0 nothing,
        .poll 0 { nothing with uploaded := true }]).requests,
      request.is_mcp = true ∧ ∃ reply, request.phase.received = some reply ∧ ¬ reply.IsRpc := by
  have hlength : (List.replicate 1025 (0 : UInt8)).length = 1025 := List.length_replicate
  -- only the length of the body matters
  generalize List.replicate 1025 (0 : UInt8) = body at hlength ⊢
  have hlarge : to_bytes (.ok body) 1024 = .error () := if_neg (by omega)
  have hrequests : ∃ request shared, request.upload = .ok body ∧ request.is_mcp = true ∧
      (run (step no_parsers) (with_limits small_limits)
        [.arrive true (fun _ => none) (.ok body), .poll 0 nothing,
          .poll 0 { nothing with uploaded := true }]).requests =
        [(Request.preload_mcp_request no_parsers.from_slice request 1024 shared
          { nothing with uploaded := true }).2] := ⟨_, _, rfl, rfl, rfl⟩
  obtain ⟨request, shared, hupload, hmcp, hrequests⟩ := hrequests
  rw [preload_large rfl (hupload ▸ hlarge)] at hrequests
  rw [hrequests]
  exact ⟨_, .head _, hmcp, _, rfl, not_isRpc_normalize rfl⟩

end InferenceServer

end Inferences.Server
