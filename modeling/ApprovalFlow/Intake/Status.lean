import ApprovalFlow.Approval.DaprState
import ApprovalFlow.Decision.Provider
import ApprovalFlow.Intake.DaprState
import ApprovalFlow.Shared.Auth

/-!
# The status of a submission

What `GET /invoices/{tracking_id}` answers: Intake's own record, and for an escalated submission the live
status that Approval answers through the sidecar.

* `SubmissionStatusResponse`: the answer; neither the dedup key nor the error of a submission is in it.
* `ApprovalStatusClient`, `DaprApprovalStatusClient`, `BulkheadApprovalStatusClient`: the call to
  Approval. Its error `ApprovalStatusClientError` is a value here.
* `IntakeService.getStatusResponse`: the method; `intakeApi`: the service with its sidecar.
* `StatusBehaviour`: all that can happen to one call; `status_degrades`: the answer for each.
* `ApprovalApi.getApproval`: Approval's route; `status_never_live`: what it makes of Intake's call.
-/

namespace ApprovalFlow
open Async

structure ApprovalStatusSnapshot where
  status : String
  additionalInfo : Option String
  deriving DecidableEq

structure SubmissionStatusResponse where
  trackingId : String
  status : SubmissionStatus
  invoice : Invoice
  isDuplicate : Bool
  decision : Option Decision
  reason : Option String
  approval : Option ApprovalStatusSnapshot
  deriving DecidableEq

def SubmissionStatusResponse.fromSubmission (submission : Submission) : SubmissionStatusResponse where
  trackingId := submission.trackingId
  status := submission.status
  invoice := submission.invoice
  isDuplicate := submission.isDuplicate
  decision := submission.decision
  reason :=
    if submission.status = .failed then
      some "Processing failed. Please contact support with the tracking id."
    else submission.decision.map (·.reason)
  approval := none

/-! ## The client -/

/-- What `httpx` receives: the status code, and what the body validates to, or the text of the error. -/
structure HttpResponse where
  statusCode : ℕ
  snapshot : Except String ApprovalStatusSnapshot

inductive ApprovalStatusClientError
  /-- an `httpx.HTTPError` -/
  | invocationFailed (details : String)
  /-- `raise_for_status` -/
  | statusError (statusCode : ℕ)
  | unexpectedBody (details : String)
  | bulkheadTimeout (message : String)
  deriving DecidableEq

structure ApprovalStatusClient (σ : Sig) where
  getStatus : String → Prog σ Exn (Except ApprovalStatusClientError (Option ApprovalStatusSnapshot))

namespace DaprApprovalStatusClient

/-- What `get_status` makes of a response. -/
def received (response : HttpResponse) : Except ApprovalStatusClientError (Option ApprovalStatusSnapshot) :=
  if response.statusCode = 404 then .ok none
  else if response.statusCode < 200 ∨ 299 < response.statusCode then
    .error (.statusError response.statusCode)
  else
    match response.snapshot with
    | .ok snapshot => .ok (some snapshot)
    | .error details => .error (.unexpectedBody details)

/-- The headers of the call. -/
def headers (trackingId : String) : List (String × String) := [("X-Correlation-Id", trackingId)]

/-- `get_status` over the `get` of the HTTP client; a failure of `httpx` is its text. -/
def getStatus {σ : Sig} (get : String → List (String × String) → Prog σ Exn (Except String HttpResponse))
    (trackingId : String) :
    Prog σ Exn (Except ApprovalStatusClientError (Option ApprovalStatusSnapshot)) := do
  match ← get trackingId (headers trackingId) with
  | .error details => return .error (.invocationFailed details)
  | .ok response => return received response

end DaprApprovalStatusClient

/-- `get_status` behind the bulkhead. -/
def BulkheadApprovalStatusClient.getStatus {σ : Sig} (client : ApprovalStatusClient σ) (bulkhead : Bulkhead)
    (acquire : Prog σ Exn Unit) (trackingId : String) :
    Prog σ Exn (Except ApprovalStatusClientError (Option ApprovalStatusSnapshot)) :=
  (bulkhead.run acquire (client.getStatus trackingId) "approval-status").handle fun
    | .bulkheadTimeoutError message => .ret (.error (.bulkheadTimeout message))
    | e => .raise e

/-- A human decides on the submission. -/
def Submission.escalated (submission : Submission) : Bool :=
  match submission.decision with
  | some decision => decision.route = .humanReview
  | none => false

/-- `get_status_response` -/
def IntakeService.getStatusResponse {σ : Sig} (svc : IntakeService σ) (client : ApprovalStatusClient σ)
    (trackingId : String) : Prog σ Exn (Option SubmissionStatusResponse) := do
  match ← svc.repository.get trackingId with
  | none => return none
  | some submission =>
    let response := SubmissionStatusResponse.fromSubmission submission
    if submission.escalated then
      match ← client.getStatus trackingId with
      | .error _ => return some response
      | .ok none => return some response
      | .ok (some live) => return some { response with approval := some live }
    else return some response

/-! ## The service with its sidecar -/

inductive IntakeApiOp
  | state (o : Versioned.Op IntakeValue)
  | publishSubmitted (event : InvoiceSubmittedEvent)
  | publishCompleted (event : DecisionCompletedEvent)
  /-- a slot of the bulkhead -/
  | acquire
  /-- `GET .../invoke/approval/method/approvals/{tracking_id}` -/
  | getApproval (trackingId : String) (headers : List (String × String))

@[reducible] def IntakeApiOp.Reply : IntakeApiOp → Type
  | state o => o.Reply
  | publishSubmitted _ => Unit
  | publishCompleted _ => Unit
  | acquire => Unit
  | getApproval _ _ => Except String HttpResponse

abbrev intakeApiSig : Sig := ⟨IntakeApiOp, IntakeApiOp.Reply⟩

def intakeClient : StateClient intakeApiSig IntakeValue where
  getState key := @Prog.op intakeApiSig Exn (.state (.get key))
  executeStateTransaction writes := @Prog.op intakeApiSig Exn (.state (.transact writes))

def intakeApi : IntakeService intakeApiSig where
  repository := daprStateInvoiceRepository intakeClient
  publisher := ⟨DaprDecisionPublisher.publish fun e => @Prog.op intakeApiSig Exn (.publishSubmitted e)⟩
  decisionCompletedPublisher :=
    ⟨DaprDecisionCompletedPublisher.publish fun e => @Prog.op intakeApiSig Exn (.publishCompleted e)⟩

/-- The client behind its bulkhead. -/
def approvalStatusClient (bulkhead : Bulkhead) : ApprovalStatusClient intakeApiSig where
  getStatus := BulkheadApprovalStatusClient.getStatus
    ⟨DaprApprovalStatusClient.getStatus fun t headers =>
      @Prog.op intakeApiSig Exn (.getApproval t headers)⟩ bulkhead
    (@Prog.op intakeApiSig Exn .acquire)

/-! ## The behaviours of the call -/

/-- One call: the deadline passes before a slot is free or during the call, `httpx` fails, or it receives
a response. -/
inductive StatusBehaviour
  | noSlot
  | deadline
  | failure (details : String)
  | response (response : HttpResponse)

namespace StatusBehaviour

/-- How the operations are answered: the store as it is, the call as it behaves. -/
def answer (behaviour : StatusBehaviour) : (o : IntakeApiOp) → Versioned.Store IntakeValue →
    Except Exn o.Reply × Versioned.Store IntakeValue
  | .state o, store => o.perform (.rpcError "") .serve store
  | .publishSubmitted _, store => (.ok (), store)
  | .publishCompleted _, store => (.ok (), store)
  | .acquire, store =>
    match behaviour with
    | noSlot => (.error .cancelledError, store)
    | _ => (.ok (), store)
  | .getApproval _ _, store =>
    match behaviour with
    | failure details => (.ok (.error details), store)
    | response r => (.ok (.ok r), store)
    | _ => (.error .cancelledError, store)

/-- The status that a call obtains: of a valid body with a success code. -/
def obtained : StatusBehaviour → Option ApprovalStatusSnapshot
  | response ⟨statusCode, .ok snapshot⟩ =>
    if 200 ≤ statusCode ∧ statusCode ≤ 299 then some snapshot else none
  | _ => none

end StatusBehaviour

section Degrades
variable {behaviour : StatusBehaviour} {t : String} {store : Versioned.Store IntakeValue}

theorem getStatus_obtained (bulkhead : Bulkhead) (behaviour : StatusBehaviour) (t : String)
    (store : Versioned.Store IntakeValue) : ∃ r,
    ((approvalStatusClient bulkhead).getStatus t).eval behaviour.answer store = (.ok r, store) ∧
      r.toOption.join = behaviour.obtained := by
  cases behaviour with
  | noSlot => exact ⟨_, rfl, rfl⟩
  | deadline => exact ⟨_, rfl, rfl⟩
  | failure details => exact ⟨_, rfl, rfl⟩
  | response response =>
    refine ⟨DaprApprovalStatusClient.received response, rfl, ?_⟩
    obtain ⟨statusCode, details | snapshot⟩ := response
    · simp only [DaprApprovalStatusClient.received, StatusBehaviour.obtained]
      split_ifs <;> rfl
    · simp only [DaprApprovalStatusClient.received, StatusBehaviour.obtained]
      split_ifs with h404 hok hstatus hok hok
      · omega
      · rfl
      · omega
      · rfl
      · rfl
      · omega

theorem eval_getSubmission {s : Submission}
    (hs : store.value (DaprStateInvoiceRepository.submissionKey t) = some (.submission s)) :
    (intakeApi.repository.get t).eval behaviour.answer store = (.ok (some s), store) := by
  show (DaprStateInvoiceRepository.get intakeClient t).eval behaviour.answer store = _
  have hread : (intakeClient.getState (DaprStateInvoiceRepository.submissionKey t)).eval
      behaviour.answer store =
      (.ok (some (.submission s), store.etag (DaprStateInvoiceRepository.submissionKey t)), store) := by
    rw [← hs]
    rfl
  rw [DaprStateInvoiceRepository.get_eq, Prog.eval_attempt, hread]
  rfl

theorem getStatusResponse_eq (client : ApprovalStatusClient intakeApiSig) (t : String) :
    intakeApi.getStatusResponse client t = (intakeApi.repository.get t).attempt (Prog.onOk fun found =>
      match found with
      | none => .ret none
      | some s =>
        if s.escalated then (client.getStatus t).attempt (Prog.onOk fun r =>
          .ret (some { SubmissionStatusResponse.fromSubmission s with approval := r.toOption.join }))
        else .ret (some (.fromSubmission s))) := by
  refine Prog.attempt_congr fun r => ?_
  rcases r with e | _ | s
  · rfl
  · rfl
  · simp only [Prog.onOk_ok]
    split_ifs
    · refine Prog.attempt_congr fun r => ?_
      rcases r with e | e | _ | live <;> rfl
    · rfl

theorem eval_getStatusResponse {client : ApprovalStatusClient intakeApiSig} {s : Submission}
    (hs : store.value (DaprStateInvoiceRepository.submissionKey t) = some (.submission s))
    {r : Except ApprovalStatusClientError (Option ApprovalStatusSnapshot)}
    (hr : (client.getStatus t).eval behaviour.answer store = (.ok r, store)) :
    (intakeApi.getStatusResponse client t).eval behaviour.answer store =
      (.ok (some { SubmissionStatusResponse.fromSubmission s with
        approval := if s.escalated then r.toOption.join else none }), store) := by
  rw [getStatusResponse_eq, Prog.eval_attempt, eval_getSubmission hs, Prog.onOk_ok]
  dsimp only
  split_ifs with hescalated
  · rw [Prog.eval_attempt, hr]
    rfl
  · rfl

end Degrades

/-- **Degrades gracefully**: whatever becomes of the call to Approval, a stored submission is answered as
it is recorded, with a live status just where it was escalated and the call obtained one. -/
theorem status_degrades (bulkhead : Bulkhead) (behaviour : StatusBehaviour) (t : String)
    (store : Versioned.Store IntakeValue) (s : Submission)
    (hs : store.value (DaprStateInvoiceRepository.submissionKey t) = some (.submission s)) :
    (intakeApi.getStatusResponse (approvalStatusClient bulkhead) t).eval behaviour.answer store =
      (.ok (some { SubmissionStatusResponse.fromSubmission s with
        approval := if s.escalated then behaviour.obtained else none }), store) := by
  obtain ⟨r, hr, hobtained⟩ := getStatus_obtained bulkhead behaviour t store
  rw [eval_getStatusResponse hs hr, hobtained]

/-- A submission that waits for a human. -/
def escalatedLaptop : Submission where
  trackingId := "t-1"
  invoice := laptop
  dedupKey := "acme|1"
  isDuplicate := false
  status := .completed
  decision := some ⟨.humanReview, "Amount/category policy violation(s): AUTONOMY-CEILING.",
    ["AUTONOMY-CEILING"], "t-1"⟩

def laptopStore : Versioned.Store IntakeValue :=
  Versioned.Store.empty.put (DaprStateInvoiceRepository.submissionKey "t-1") (.submission escalatedLaptop)

theorem laptop_degrades : (intakeApi.getStatusResponse (approvalStatusClient ⟨"5.0"⟩) "t-1").eval
    (StatusBehaviour.response ⟨200, .ok ⟨"pending", none⟩⟩).answer laptopStore =
      (.ok (some { SubmissionStatusResponse.fromSubmission escalatedLaptop with
        approval := some ⟨"pending", none⟩ }), laptopStore) :=
  status_degrades ⟨"5.0"⟩ (.response ⟨200, .ok ⟨"pending", none⟩⟩) "t-1" laptopStore
    escalatedLaptop (by decide)

/-! ## Approval's side -/

/-- The value of the `StrEnum`. -/
def ApprovalStatus.value : ApprovalStatus → String
  | pending => "pending"
  | waitingInfo => "waiting_info"
  | approved => "approved"
  | rejected => "rejected"

/-- How Approval verifies tokens: `app.state.jwt_secret` and `JWT_SECRET`. -/
structure ApprovalApi where
  jwt : Jwt
  state : Option String
  env : Option String

namespace ApprovalApi
variable (api : ApprovalApi)

/-- `GET /approvals/{tracking_id}`, when the clock reads `now`. -/
def getApproval {σ : Sig} (svc : ApprovalService σ) (headers : List (String × String)) (now : ℚ)
    (trackingId : String) : Prog σ Exn PendingApproval := do
  let _ ← .ofExcept (getCurrentUser api.jwt api.state api.env (headers.lookup "Authorization") now)
  (svc.get trackingId).handle fun
    | .approvalNotFoundError _ => .raise (.httpException 404 "tracking_id not found" [])
    | e => .raise e

/-- The response of the route, as Intake reads it. -/
def response : Except Exn PendingApproval → HttpResponse
  | .ok approval => ⟨200, .ok ⟨approval.status.value, approval.additionalInfo⟩⟩
  | .error (.httpException statusCode detail _) => ⟨statusCode, .error detail⟩
  | .error _ => ⟨500, .error "internal_error"⟩

end ApprovalApi

/-- **No live status**: Intake's call has no token, whatever headers other than `Authorization` the
sidecars add, and so Approval's route refuses it in every state, while it answers the status to whoever
shows a token. The status of an escalated submission never shows what the approver did. -/
theorem status_never_live (bulkhead : Bulkhead) (api : ApprovalApi) (now : ℚ)
    (added : List (String × String))
    (hadded : added.lookup "Authorization" = none) (approvals : ApprovalDapr) (t : String)
    (store : Versioned.Store IntakeValue) (s : Submission)
    (hs : store.value (DaprStateInvoiceRepository.submissionKey t) = some (.submission s)) :
    (intakeApi.getStatusResponse (approvalStatusClient bulkhead) t).eval
      (StatusBehaviour.response (ApprovalApi.response
        ((api.getApproval daprApproval (DaprApprovalStatusClient.headers t ++ added) now t).eval
          ApprovalDapr.perform approvals).1)).answer store =
      (.ok (some (.fromSubmission s)), store) ∧
    ∀ header user a, getCurrentUser api.jwt api.state api.env (some header) now = .ok user →
      approvals.store.value (DaprStateApprovalRepository.layout.key t) = some (.record a) →
      ApprovalApi.response ((api.getApproval daprApproval [("Authorization", header)] now t).eval
        ApprovalDapr.perform approvals).1 = ⟨200, .ok ⟨a.status.value, a.additionalInfo⟩⟩ := by
  constructor
  · have hlookup : (DaprApprovalStatusClient.headers t ++ added).lookup "Authorization" = none := hadded
    have hrefused : ((api.getApproval daprApproval (DaprApprovalStatusClient.headers t ++ added) now t).eval
        ApprovalDapr.perform approvals).1 = .error (unauthorized "missing bearer token") := by
      simp only [ApprovalApi.getApproval, hlookup]
      rfl
    rw [hrefused]
    obtain ⟨r, hr, hobtained⟩ := getStatus_obtained bulkhead
      (.response (ApprovalApi.response (.error (unauthorized "missing bearer token")))) t store
    rw [eval_getStatusResponse hs hr, hobtained]
    split_ifs <;> rfl
  · intro header user a huser ha
    have hlookup : [("Authorization", header)].lookup "Authorization" = some header := rfl
    have hget : (daprApproval.get t).eval ApprovalDapr.perform approvals = (.ok a, approvals) := by
      show ((IndexedState.get approvalStateClient DaprStateApprovalRepository.layout t).attempt _).eval
          _ _ = _
      rw [IndexedState.get_eq, Prog.eval_attempt, Prog.eval_attempt]
      have hread : (approvalStateClient.getState (DaprStateApprovalRepository.layout.key t)).eval
          ApprovalDapr.perform approvals =
            (.ok (some (.record a), approvals.store.etag (DaprStateApprovalRepository.layout.key t)),
              approvals) := by
        rw [← ha]
        rfl
      rw [hread]
      rfl
    have hserved : (api.getApproval daprApproval [("Authorization", header)] now t).eval
        ApprovalDapr.perform approvals = (.ok a, approvals) := by
      simp only [ApprovalApi.getApproval, hlookup, huser]
      show ((daprApproval.get t).handle _).eval _ _ = _
      rw [Prog.handle_eq, Prog.eval_attempt, hget]
      rfl
    rw [hserved]
    rfl

/-- A library that accepts nothing. -/
def closedApi : ApprovalApi :=
  ⟨⟨fun _ _ => "", fun _ _ _ => .error "Not enough segments"⟩, some "vault", none⟩

theorem laptop_never_live : (intakeApi.getStatusResponse (approvalStatusClient ⟨"5.0"⟩) "t-1").eval
    (StatusBehaviour.response (ApprovalApi.response ((closedApi.getApproval daprApproval
      (DaprApprovalStatusClient.headers "t-1" ++ [("traceparent", "00-0af7-b7ad-01")]) 0 "t-1").eval
        ApprovalDapr.perform .empty).1)).answer laptopStore =
      (.ok (some (.fromSubmission escalatedLaptop)), laptopStore) :=
  (status_never_live ⟨"5.0"⟩ closedApi 0 [("traceparent", "00-0af7-b7ad-01")] (by decide)
    .empty "t-1" laptopStore escalatedLaptop (by decide)).1

end ApprovalFlow
