import ApprovalFlow.Async.Lockstep
import ApprovalFlow.Intake.Status

/-!
# What the answers do not show

The texts of infrastructure errors, and the errors that submissions keep of them, show in no answer of
Intake: two runs that differ in nothing else answer alike, in every interleaving.

* `Exn.Alike`, `Submission.erased`: exceptions up to their texts, submissions up to their errors.
* `IntakeRequest`, `intakeServer`: the requests of Intake on one sidecar; every operation may fail with
  any exception.
* `Confidential.coupling`, `pairs_body`: every handler does the same in both runs.
* `errors_not_shown`: so the answers and the published events are the same.
-/

namespace ApprovalFlow
open Async Versioned

/-- Exceptions that differ at most in the text that came from the infrastructure. -/
inductive Exn.Alike : Exn → Exn → Prop
  | refl (e : Exn) : Alike e e
  | rpcError (details details' : String) : Alike (.rpcError details) (.rpcError details')
  | decisionPublisherError (message message' : String) :
      Alike (.decisionPublisherError message) (.decisionPublisherError message')
  | decisionCompletedPublisherError (message message' : String) :
      Alike (.decisionCompletedPublisherError message) (.decisionCompletedPublisherError message')
  | invoiceRepositoryError (message message' : String) :
      Alike (.invoiceRepositoryError (.text message)) (.invoiceRepositoryError (.text message'))

/-- The submission without its error. -/
def Submission.erased (s : Submission) : Submission := { s with error := none }

def IntakeValue.erased : IntakeValue → IntakeValue
  | submission s => submission s.erased
  | pointer t => pointer t

/-- What `httpx` receives, up to the text of its error and of a body that does not validate. -/
def erasedReply : Except String HttpResponse → Except Unit (ℕ × Option ApprovalStatusSnapshot)
  | .ok response => .ok (response.statusCode, response.snapshot.toOption)
  | .error _ => .error ()

/-! ## The requests -/

inductive IntakeRequest
  | submit (trackingId : String) (invoice : Invoice)
  | process (trackingId : String)
  | complete (correlationId : String) (decision : Decision)
  | status (trackingId : String)

inductive IntakeAnswer
  | accepted (trackingId : String)
  | done
  | status (response : SubmissionStatusResponse)
  deriving DecidableEq

/-- `GET /invoices/{tracking_id}` -/
def intakeApi.getInvoiceStatus (bulkhead : Bulkhead) (trackingId : String) :
    Prog intakeApiSig Exn IntakeAnswer := do
  match ← intakeApi.getStatusResponse (approvalStatusClient bulkhead) trackingId with
  | none => .raise (.httpException 404 "tracking_id not found" [])
  | some response => return .status response

/-- What a request runs. -/
def intakeApi.body (bulkhead : Bulkhead) : IntakeRequest → Prog intakeApiSig Exn IntakeAnswer
  | .submit t invoice => IntakeAnswer.accepted <$> intakeApi.submit t invoice
  | .process t => (fun _ => IntakeAnswer.done) <$> intakeApi.process t
  | .complete t d => (fun _ => IntakeAnswer.done) <$> intakeApi.complete t d
  | .status t => intakeApi.getInvoiceStatus bulkhead t

/-- What is answered: an unhandled exception shows as Starlette's plain 500. -/
def shown : Except Exn IntakeAnswer → Except (ℕ × String) IntakeAnswer
  | .ok answer => .ok answer
  | .error (.httpException statusCode detail _) => .error (statusCode, detail)
  | .error _ => .error (500, "Internal Server Error")

/-- What a request answered, if it did. -/
def answerOf (t : Thread intakeApiSig Exn IntakeAnswer IntakeRequest) :
    Option (Except (ℕ × String) IntakeAnswer) :=
  match t.status with
  | .running _ => none
  | .done r => some (shown r)

/-- The store, and what was published. -/
structure IntakeSidecar where
  store : Store IntakeValue
  submitted : List InvoiceSubmittedEvent
  completed : List DecisionCompletedEvent

/-- What becomes of a request, the exception if it fails, and what Approval answers. -/
structure SidecarChoice where
  reception : Reception
  failure : Exn
  approval : Except String HttpResponse

namespace IntakeSidecar

def empty : IntakeSidecar := ⟨.empty, [], []⟩

/-- A request that is served with `reply` and leaves `s'`. -/
def receive {α : Type} (c : SidecarChoice) (s : IntakeSidecar) (reply : α) (s' : IntakeSidecar) :
    Except Exn α × IntakeSidecar :=
  match c.reception with
  | .serve => (.ok reply, s')
  | .refuse => (.error c.failure, s)
  | .lose => (.error c.failure, s')

def perform (c : SidecarChoice) : (o : IntakeApiOp) → IntakeSidecar → Except Exn o.Reply × IntakeSidecar
  | .state o, s =>
    let r := o.perform c.failure c.reception s.store
    (r.1, { s with store := r.2 })
  | .publishSubmitted e, s => receive c s () { s with submitted := s.submitted ++ [e] }
  | .publishCompleted e, s => receive c s () { s with completed := s.completed ++ [e] }
  | .acquire, s => receive c s () s
  | .getApproval _ _, s => receive c s c.approval s

end IntakeSidecar

/-- Concurrent requests. -/
def intakeServer (bulkhead : Bulkhead) :
    System intakeApiSig Exn IntakeAnswer IntakeSidecar SidecarChoice IntakeRequest where
  body := intakeApi.body bulkhead
  invoke _ s := some s
  exec := IntakeSidecar.perform

/-! ## The coupling -/

namespace Confidential
open Coupling

/-- Choices that differ at most in texts. -/
structure AlikeChoice (c c' : SidecarChoice) : Prop where
  reception : c.reception = c'.reception
  failure : c.failure.Alike c'.failure
  approval : erasedReply c.approval = erasedReply c'.approval

/-- States that differ at most in the errors of submissions. -/
structure AlikeState (s s' : IntakeSidecar) : Prop where
  store : s.store.map IntakeValue.erased = s'.store.map IntakeValue.erased
  submitted : s.submitted = s'.submitted
  completed : s.completed = s'.completed

/-- The same operations, on submissions up to their errors; replies up to errors and texts. -/
def coupling : Coupling intakeApiSig Exn where
  ops
    | .state (.get k), .state (.get k') => k = k'
    | .state (.transact ws), .state (.transact ws') =>
      ws.map (Write.map IntakeValue.erased) = ws'.map (Write.map IntakeValue.erased)
    | .publishSubmitted e, .publishSubmitted e' => e = e'
    | .publishCompleted e, .publishCompleted e' => e = e'
    | .acquire, .acquire => True
    | .getApproval t headers, .getApproval t' headers' => t = t' ∧ headers = headers'
    | _, _ => False
  replies
    | .state (.get _), .state (.get _) =>
      Both (fun a b => a.1.map IntakeValue.erased = b.1.map IntakeValue.erased ∧ a.2 = b.2) Exn.Alike
    | .state (.transact _), .state (.transact _) => Both (fun _ _ => True) Exn.Alike
    | .publishSubmitted _, .publishSubmitted _ => Both (fun _ _ => True) Exn.Alike
    | .publishCompleted _, .publishCompleted _ => Both (fun _ _ => True) Exn.Alike
    | .acquire, .acquire => Both (fun _ _ => True) Exn.Alike
    | .getApproval _ _, .getApproval _ _ => Both (fun a b => erasedReply a = erasedReply b) Exn.Alike
    | _, _ => fun _ _ => False

/-- Two coroutines that end alike. -/
abbrev Same {α β : Type} (p : Prog intakeApiSig Exn α) (p' : Prog intakeApiSig Exn β)
    (V : α → β → Prop) : Prop :=
  coupling.Pairs p p' (Both V Exn.Alike)

theorem same_raise {α β : Type} {V : α → β → Prop} {e e' : Exn} (h : e.Alike e') :
    Same (.raise e : Prog intakeApiSig Exn α) (.raise e' : Prog intakeApiSig Exn β) V := h

theorem same_ret {α β : Type} {V : α → β → Prop} {a : α} {b : β} (h : V a b) :
    Same (.ret a : Prog intakeApiSig Exn α) (.ret b) V := h

/-! ### The client -/

theorem same_getState (k : String) : Same (intakeClient.getState k) (intakeClient.getState k)
    fun a b => a.1.map IntakeValue.erased = b.1.map IntakeValue.erased ∧ a.2 = b.2 :=
  @Coupling.pairs_op intakeApiSig Exn coupling (.state (.get k)) (.state (.get k)) _ rfl fun _ _ h => h

theorem same_transact {ws ws' : List (Write IntakeValue)}
    (h : ws.map (Write.map IntakeValue.erased) = ws'.map (Write.map IntakeValue.erased)) :
    Same (intakeClient.executeStateTransaction ws) (intakeClient.executeStateTransaction ws')
      fun _ _ => True :=
  @Coupling.pairs_op intakeApiSig Exn coupling (.state (.transact ws)) (.state (.transact ws')) _ h
    fun _ _ h => h

theorem same_read {error : String → Exn} (herror : ∀ d d', (error d).Alike (error d')) (k : String) :
    Same (intakeClient.read error k) (intakeClient.read error k)
      fun a b => a.1.map IntakeValue.erased = b.1.map IntakeValue.erased ∧ a.2 = b.2 := by
  refine (same_getState k).handle fun e e' h => ?_
  cases h with
  | refl => exact .refl _
  | rpcError d d' => exact herror d d'
  | decisionPublisherError m m' => exact .decisionPublisherError m m'
  | decisionCompletedPublisherError m m' => exact .decisionCompletedPublisherError m m'
  | invoiceRepositoryError m m' => exact .invoiceRepositoryError m m'

theorem erased_writes {s s' : Submission} (h : s.erased = s'.erased) :
    (DaprStateInvoiceRepository.writes s).map (Write.map IntakeValue.erased) =
      (DaprStateInvoiceRepository.writes s').map (Write.map IntakeValue.erased) := by
  have hid : s.erased.trackingId = s'.erased.trackingId := by rw [h]
  have hkey : s.erased.dedupKey = s'.erased.dedupKey := by rw [h]
  have hid : s.trackingId = s'.trackingId := hid
  have hkey : s.dedupKey = s'.dedupKey := hkey
  simp [DaprStateInvoiceRepository.writes, Write.map, IntakeValue.erased, h, hid, hkey]

/-! ### The repository -/

theorem same_save {s s' : Submission} (h : s.erased = s'.erased) :
    Same (intakeApi.repository.save s) (intakeApi.repository.save s') fun _ _ => True := by
  refine (same_transact (erased_writes h)).handle fun e e' he => ?_
  cases he with
  | refl => cases e <;> exact .refl _
  | rpcError d d' => exact .invoiceRepositoryError _ _
  | decisionPublisherError m m' => exact .decisionPublisherError m m'
  | decisionCompletedPublisherError m m' => exact .decisionCompletedPublisherError m m'
  | invoiceRepositoryError m m' => exact .invoiceRepositoryError m m'

/-- The same submission, up to its error, or none. -/
abbrev AlikeFound (a b : Option Submission) : Prop := a.map Submission.erased = b.map Submission.erased

theorem same_get (t : String) :
    Same (intakeApi.repository.get t) (intakeApi.repository.get t) AlikeFound := by
  refine (same_read (fun _ _ => .invoiceRepositoryError _ _) _).bind fun a b h => ?_
  obtain ⟨data, etag⟩ := a
  obtain ⟨data', etag'⟩ := b
  obtain ⟨hdata, -⟩ := h
  rcases data with _ | s | p <;> rcases data' with _ | s' | p'
  case none.none => exact same_ret rfl
  case some.submission.some.submission =>
    refine same_ret ?_
    injection hdata with hdata
    injection hdata with hdata
    exact congrArg some hdata
  case some.pointer.some.pointer => exact same_raise (.refl _)
  all_goals cases hdata

theorem same_found {α : Type} {V : α → α → Prop} {f : Option Submission → Prog intakeApiSig Exn α}
    (hnone : Same (f none) (f none) V)
    (hsome : ∀ s s', s.erased = s'.erased → Same (f (some s)) (f (some s')) V) (a b : Option Submission)
    (h : AlikeFound a b) : Same (f a) (f b) V := by
  cases a with
  | none =>
    cases b with
    | none => exact hnone
    | some s' => cases h
  | some s =>
    cases b with
    | none => cases h
    | some s' => exact hsome s s' (Option.some.inj h)

theorem same_follow (key t : String) : Same (DaprStateInvoiceRepository.follow intakeClient key t)
    (DaprStateInvoiceRepository.follow intakeClient key t) AlikeFound := by
  exact (same_get t).bind (same_found (same_raise (.refl _)) fun s s' h => same_ret (congrArg some h))

theorem same_findByDedupKey (key : String) :
    Same (intakeApi.repository.findByDedupKey key)
      (intakeApi.repository.findByDedupKey key) AlikeFound := by
  refine (same_read (fun _ _ => .invoiceRepositoryError _ _) _).bind fun a b h => ?_
  obtain ⟨data, etag⟩ := a
  obtain ⟨data', etag'⟩ := b
  obtain ⟨hdata, -⟩ := h
  rcases data with _ | s | p <;> rcases data' with _ | s' | p'
  case none.none => exact same_ret rfl
  case some.submission.some.submission => exact same_raise (.refl _)
  case some.pointer.some.pointer =>
    obtain rfl : p = p' := by
      injection hdata with hdata
      injection hdata
    dsimp only
    split
    all_goals first | exact same_ret rfl | exact same_raise (.refl _) | exact same_follow key _
  all_goals cases hdata

/-! ### The service -/

section Service
variable {s s' : Submission} {t : String}

theorem erased_eq (h : s.erased = s'.erased) : s.trackingId = s'.trackingId ∧ s.invoice = s'.invoice ∧
    s.isDuplicate = s'.isDuplicate ∧ s.status = s'.status ∧ s.decision = s'.decision := by
  injection h with hid hinvoice _ hdup hstatus hdecision
  exact ⟨hid, hinvoice, hdup, hstatus, hdecision⟩

theorem same_submit (t : String) (invoice : Invoice) :
    Same (intakeApi.submit t invoice) (intakeApi.submit t invoice) fun a b => a = b := by
  refine (same_findByDedupKey _).bind fun found found' hfound => ?_
  have hsome : found.isSome = found'.isSome := by
    rw [← Option.isSome_map (f := Submission.erased), hfound, Option.isSome_map]
  rw [hsome]
  exact (same_save rfl).bind fun _ _ _ => same_ret rfl

theorem same_complete (t : String) (d : Decision) :
    Same (intakeApi.complete t d) (intakeApi.complete t d) fun _ _ => True := by
  refine (same_get t).bind (same_found (same_ret trivial) fun s s' h => ?_)
  obtain ⟨-, -, -, hstatus, -⟩ := erased_eq h
  dsimp only
  rw [hstatus]
  split_ifs
  · exact same_ret trivial
  · refine same_save ?_
    show ({ s.erased with status := .completed, decision := some d } : Submission) =
      { s'.erased with status := .completed, decision := some d }
    rw [h]

theorem same_publish {E : Type} {publish : E → Prog intakeApiSig Exn Unit} {error : String → Exn} {e : E}
    (hpublish : Same (publish e) (publish e) fun _ _ => True)
    (herror : ∀ d d', (error d).Alike (error d')) :
    Same (publishOrRaise error publish e) (publishOrRaise error publish e) fun _ _ => True := by
  refine hpublish.handle fun e e' h => ?_
  cases h with
  | refl => cases e <;> exact .refl _
  | rpcError d d' => exact herror d d'
  | decisionPublisherError m m' => exact .decisionPublisherError m m'
  | decisionCompletedPublisherError m m' => exact .decisionCompletedPublisherError m m'
  | invoiceRepositoryError m m' => exact .invoiceRepositoryError m m'

theorem same_publishSubmitted (invoice : Invoice) (t : String) :
    Same (intakeApi.publisher.publish invoice t) (intakeApi.publisher.publish invoice t) fun _ _ => True :=
  same_publish (@Coupling.pairs_op intakeApiSig Exn coupling (.publishSubmitted ⟨invoice, t⟩)
    (.publishSubmitted ⟨invoice, t⟩) _ rfl fun _ _ h => h) fun _ _ => .decisionPublisherError _ _

theorem same_publishCompleted (event : DecisionCompletedEvent) :
    Same (intakeApi.decisionCompletedPublisher.publish event)
      (intakeApi.decisionCompletedPublisher.publish event) fun _ _ => True :=
  same_publish (@Coupling.pairs_op intakeApiSig Exn coupling (.publishCompleted event)
    (.publishCompleted event) _ rfl fun _ _ h => h) fun _ _ => .decisionCompletedPublisherError _ _

theorem same_processDuplicate (t : String) (h : s.erased = s'.erased) :
    Same (intakeApi.processDuplicate t s) (intakeApi.processDuplicate t s') fun _ _ => True := by
  obtain ⟨-, hinvoice, -, hstatus, -⟩ := erased_eq h
  unfold IntakeService.processDuplicate
  rw [hstatus, hinvoice]
  split_ifs
  · exact same_ret trivial
  · refine (same_complete t _).bind fun _ _ _ => (same_publishCompleted _).handle fun e e' he => ?_
    cases he with
    | refl => cases e <;> first | exact .refl _ | exact same_ret trivial
    | rpcError d d' => exact .rpcError d d'
    | decisionPublisherError m m' => exact .decisionPublisherError m m'
    | decisionCompletedPublisherError m m' => exact same_ret trivial
    | invoiceRepositoryError m m' => exact .invoiceRepositoryError m m'

theorem erased_status (h : s.erased = s'.erased) (status : SubmissionStatus)
    (error error' : Option String) : Submission.erased { s with status := status, error := error } =
      Submission.erased { s' with status := status, error := error' } := by
  show ({ s.erased with status := status } : Submission) = { s'.erased with status := status }
  rw [h]

theorem same_processNew (t : String) (h : s.erased = s'.erased) :
    Same (intakeApi.processNew t s) (intakeApi.processNew t s') fun _ _ => True := by
  obtain ⟨-, hinvoice, -, -, -⟩ := erased_eq h
  have hpublish : Same (intakeApi.publisher.publish s.invoice t) (intakeApi.publisher.publish s'.invoice t)
      fun _ _ => True := by
    rw [hinvoice]
    exact same_publishSubmitted _ t
  refine (same_save (erased_status h .processing s.error s'.error)).bind fun _ _ _ =>
    hpublish.handle fun e e' he => ?_
  cases he with
  | refl => cases e <;> first | exact .refl _ | exact same_save (erased_status h .failed _ _)
  | rpcError d d' => exact .rpcError d d'
  | decisionPublisherError m m' => exact same_save (erased_status h .failed _ _)
  | decisionCompletedPublisherError m m' => exact .decisionCompletedPublisherError m m'
  | invoiceRepositoryError m m' => exact .invoiceRepositoryError m m'

theorem same_process (t : String) : Same (intakeApi.process t) (intakeApi.process t) fun _ _ => True := by
  refine (same_get t).bind (same_found (same_raise (.refl _)) fun s s' h => ?_)
  obtain ⟨-, -, hdup, -, -⟩ := erased_eq h
  dsimp only
  rw [hdup]
  split_ifs
  · exact same_processDuplicate t h
  · exact same_processNew t h

/-! ### The status -/

/-- A handler that lets the infrastructure's exceptions pass. -/
theorem same_passed {α : Type} {V : α → α → Prop} {p p' : Prog intakeApiSig Exn α}
    {f : Exn → Prog intakeApiSig Exn α}
    (hp : Same p p' V) (hself : ∀ e, Same (f e) (f e) V)
    (hrpc : ∀ d, f (.rpcError d) = .raise (.rpcError d))
    (hsubmitted : ∀ m, f (.decisionPublisherError m) = .raise (.decisionPublisherError m))
    (hcompleted : ∀ m, f (.decisionCompletedPublisherError m) = .raise (.decisionCompletedPublisherError m))
    (hrepository : ∀ m, f (.invoiceRepositoryError (.text m)) =
      .raise (.invoiceRepositoryError (.text m))) :
    Same (p.handle f) (p'.handle f) V := by
  refine hp.handle fun e e' h => ?_
  cases h with
  | refl => exact hself e
  | rpcError d d' =>
    rw [hrpc, hrpc]
    exact .rpcError d d'
  | decisionPublisherError m m' =>
    rw [hsubmitted, hsubmitted]
    exact .decisionPublisherError m m'
  | decisionCompletedPublisherError m m' =>
    rw [hcompleted, hcompleted]
    exact .decisionCompletedPublisherError m m'
  | invoiceRepositoryError m m' =>
    rw [hrepository, hrepository]
    exact .invoiceRepositoryError m m'

theorem same_timeout {α : Type} {V : α → α → Prop} {p p' : Prog intakeApiSig Exn α} (hp : Same p p' V) :
    Same (Bulkhead.timeout p) (Bulkhead.timeout p') V :=
  same_passed hp (fun e => by cases e <;> exact .refl _) (fun _ => rfl) (fun _ => rfl)
    (fun _ => rfl) fun _ => rfl

theorem same_run {α : Type} {V : α → α → Prop} {acquire : Prog intakeApiSig Exn Unit}
    {call : Prog intakeApiSig Exn α}
    (bulkhead : Bulkhead) (label : String) (hacquire : Same acquire acquire fun _ _ => True)
    (hcall : Same call call V) :
    Same (bulkhead.run acquire call label) (bulkhead.run acquire call label) V := by
  refine (same_timeout hacquire).attempt fun r r' hr => ?_
  cases r with
  | ok u =>
    cases r' with
    | error e => exact hr.elim
    | ok u' =>
      exact same_passed (same_timeout hcall) (fun e => by cases e <;> exact .refl _)
        (fun _ => rfl) (fun _ => rfl) (fun _ => rfl) fun _ => rfl
  | error e =>
    cases r' with
    | ok u' => exact hr.elim
    | error e' =>
      have hr : e.Alike e' := hr
      cases hr with
      | refl => cases e <;> exact .refl _
      | rpcError d d' => exact .rpcError d d'
      | decisionPublisherError m m' => exact .decisionPublisherError m m'
      | decisionCompletedPublisherError m m' => exact .decisionCompletedPublisherError m m'
      | invoiceRepositoryError m m' => exact .invoiceRepositoryError m m'

/-- What is received is the same, up to the texts of errors. -/
theorem received_erased {a b : HttpResponse} (h : erasedReply (.ok a) = erasedReply (.ok b)) :
    (DaprApprovalStatusClient.received a).toOption.join =
      (DaprApprovalStatusClient.received b).toOption.join := by
  obtain ⟨code, snapshot⟩ := a
  obtain ⟨code', snapshot'⟩ := b
  simp only [erasedReply, Except.ok.injEq, Prod.mk.injEq] at h
  obtain ⟨rfl, hsnapshot⟩ := h
  simp only [DaprApprovalStatusClient.received]
  split_ifs
  · rfl
  · rfl
  · cases snapshot with
    | ok live =>
      cases snapshot' with
      | ok live' => exact hsnapshot
      | error d' => cases hsnapshot
    | error d =>
      cases snapshot' with
      | ok live' => cases hsnapshot
      | error d' => rfl

theorem same_getStatus (bulkhead : Bulkhead) (t : String) :
    Same ((approvalStatusClient bulkhead).getStatus t) ((approvalStatusClient bulkhead).getStatus t)
      fun a b => a.toOption.join = b.toOption.join := by
  have hacquire : Same (@Prog.op intakeApiSig Exn .acquire) (@Prog.op intakeApiSig Exn .acquire)
      fun _ _ => True :=
    @Coupling.pairs_op intakeApiSig Exn coupling .acquire .acquire _ trivial fun _ _ h => h
  have hcall : Same (DaprApprovalStatusClient.getStatus
      (fun t headers => @Prog.op intakeApiSig Exn (.getApproval t headers)) t)
      (DaprApprovalStatusClient.getStatus
        (fun t headers => @Prog.op intakeApiSig Exn (.getApproval t headers)) t)
      fun a b => a.toOption.join = b.toOption.join := by
    have hget : Same (@Prog.op intakeApiSig Exn (.getApproval t (DaprApprovalStatusClient.headers t)))
        (@Prog.op intakeApiSig Exn (.getApproval t (DaprApprovalStatusClient.headers t)))
        fun a b => erasedReply a = erasedReply b :=
      @Coupling.pairs_op intakeApiSig Exn coupling (.getApproval t (DaprApprovalStatusClient.headers t))
        (.getApproval t (DaprApprovalStatusClient.headers t)) _ ⟨rfl, rfl⟩ fun _ _ h => h
    refine hget.bind fun a b h => ?_
    cases a with
    | ok response =>
      cases b with
      | ok response' => exact same_ret (received_erased h)
      | error d' => cases h
    | error d =>
      cases b with
      | ok response' => cases h
      | error d' => exact same_ret rfl
  exact same_passed (same_run bulkhead "approval-status" hacquire hcall)
    (fun e => by cases e <;> exact .refl _) (fun _ => rfl) (fun _ => rfl) (fun _ => rfl) fun _ => rfl

theorem same_status (bulkhead : Bulkhead) (t : String) :
    Same (intakeApi.getStatusResponse (approvalStatusClient bulkhead) t)
      (intakeApi.getStatusResponse (approvalStatusClient bulkhead) t) fun a b => a = b := by
  rw [getStatusResponse_eq]
  refine (same_get t).bind (same_found (same_ret rfl) fun s s' h => ?_)
  obtain ⟨hid, hinvoice, hdup, hstatus, hdecision⟩ := erased_eq h
  have hescalated : s.escalated = s'.escalated := by
    rw [Submission.escalated, Submission.escalated, hdecision]
  have hresponse : SubmissionStatusResponse.fromSubmission s = .fromSubmission s' := by
    simp only [SubmissionStatusResponse.fromSubmission, hid, hinvoice, hdup, hstatus, hdecision]
  dsimp only
  rw [hescalated, hresponse]
  split_ifs
  · exact (same_getStatus bulkhead t).bind fun a b hlive => same_ret (by rw [hlive])
  · exact same_ret rfl

theorem same_map {α β : Type} {V : α → α → Prop} {p : Prog intakeApiSig Exn α} (f : α → β) (h : Same p p V)
    (hf : ∀ a b, V a b → f a = f b) : Same (f <$> p) (f <$> p) fun a b => a = b :=
  h.bind fun a b hab => same_ret (hf a b hab)

theorem same_getInvoiceStatus (bulkhead : Bulkhead) (t : String) :
    Same (intakeApi.getInvoiceStatus bulkhead t) (intakeApi.getInvoiceStatus bulkhead t) fun a b =>
      a = b := by
  refine (same_status bulkhead t).bind fun response response' h => ?_
  rw [h]
  cases response' with
  | none => exact same_raise (.refl _)
  | some response => exact same_ret rfl

end Service

/-- **Every handler does the same in both runs.** -/
theorem pairs_body (bulkhead : Bulkhead) (request : IntakeRequest) :
    Same (intakeApi.body bulkhead request) (intakeApi.body bulkhead request) fun a b => a = b := by
  cases request with
  | submit t invoice => exact same_map _ (same_submit t invoice) fun _ _ h => congrArg _ h
  | process t => exact same_map _ (same_process t) fun _ _ _ => rfl
  | complete t d => exact same_map _ (same_complete t d) fun _ _ _ => rfl
  | status t => exact same_getInvoiceStatus bulkhead t

/-! ### The sidecar -/

section Sidecar
variable {c c' : SidecarChoice} {s s' : IntakeSidecar}

theorem alike_state (hc : AlikeChoice c c') (hs : AlikeState s s') {o o' : Versioned.Op IntakeValue}
    (ho : coupling.ops (.state o) (.state o')) :
    AlikeState (IntakeSidecar.perform c (.state o) s).2 (IntakeSidecar.perform c' (.state o') s').2 ∧
      coupling.replies (.state o) (.state o') (IntakeSidecar.perform c (.state o) s).1
        (IntakeSidecar.perform c' (.state o') s').1 := by
  obtain ⟨reception, failure, approval⟩ := c
  obtain ⟨reception', failure', approval'⟩ := c'
  obtain ⟨hreception, hfailure, -⟩ := hc
  obtain rfl : reception = reception' := hreception
  obtain ⟨hstore, hsubmitted, hcompleted⟩ := hs
  cases o with
  | get k =>
    cases o' with
    | transact ws => exact ho.elim
    | get k' =>
      obtain rfl : k = k' := ho
      cases reception with
      | serve =>
        have hvalue : (s.store.value k).map IntakeValue.erased =
            (s'.store.value k).map IntakeValue.erased := by
          rw [← Store.value_map, hstore, Store.value_map]
        have hetag : s.store.etag k = s'.store.etag k := by
          rw [← Store.etag_map (f := IntakeValue.erased) s.store, hstore, Store.etag_map]
        exact ⟨⟨hstore, hsubmitted, hcompleted⟩, hvalue, hetag⟩
      | refuse => exact ⟨⟨hstore, hsubmitted, hcompleted⟩, hfailure⟩
      | lose => exact ⟨⟨hstore, hsubmitted, hcompleted⟩, hfailure⟩
  | transact ws =>
    cases o' with
    | get k => exact ho.elim
    | transact ws' =>
      obtain ⟨hmap, hreply⟩ :=
        @Versioned.Op.transact_map _ _ failure _ _ _ _ _ _ failure' hstore ho reception
      refine ⟨⟨hmap, hsubmitted, hcompleted⟩, ?_⟩
      show Both _ Exn.Alike ((Versioned.Op.transact ws).perform failure reception s.store).1
        ((Versioned.Op.transact ws').perform failure' reception s'.store).1
      rcases hreply with ⟨h, h'⟩ | ⟨h, h'⟩
      · rw [h, h']
        trivial
      · rw [h, h']
        exact hfailure

theorem alike_receive {α : Type} {V : α → α → Prop} (hc : AlikeChoice c c') (hs : AlikeState s s')
    {a a' : α} (ha : V a a') {s₁ s₁' : IntakeSidecar} (hs₁ : AlikeState s₁ s₁') :
    AlikeState (IntakeSidecar.receive c s a s₁).2 (IntakeSidecar.receive c' s' a' s₁').2 ∧
      Both V Exn.Alike (IntakeSidecar.receive c s a s₁).1 (IntakeSidecar.receive c' s' a' s₁').1 := by
  simp only [IntakeSidecar.receive, ← hc.reception]
  cases c.reception with
  | serve => exact ⟨hs₁, ha⟩
  | refuse => exact ⟨hs, hc.failure⟩
  | lose => exact ⟨hs₁, hc.failure⟩

theorem alike_perform (hc : AlikeChoice c c') (hs : AlikeState s s') {o o' : IntakeApiOp}
    (ho : coupling.ops o o') :
    AlikeState (IntakeSidecar.perform c o s).2 (IntakeSidecar.perform c' o' s').2 ∧
      coupling.replies o o' (IntakeSidecar.perform c o s).1 (IntakeSidecar.perform c' o' s').1 := by
  cases o <;> cases o'
  case state.state o o' => exact alike_state hc hs ho
  case publishSubmitted.publishSubmitted e e' =>
    obtain rfl : e = e' := ho
    exact alike_receive hc hs trivial ⟨hs.store, by rw [hs.submitted], hs.completed⟩
  case publishCompleted.publishCompleted e e' =>
    obtain rfl : e = e' := ho
    exact alike_receive hc hs trivial ⟨hs.store, hs.submitted, by rw [hs.completed]⟩
  case acquire.acquire => exact alike_receive hc hs trivial hs
  case getApproval.getApproval =>
    exact alike_receive (V := fun a b => erasedReply a = erasedReply b) hc hs hc.approval hs
  case state.publishSubmitted o e => cases o <;> exact ho.elim
  case state.publishCompleted o e => cases o <;> exact ho.elim
  case state.acquire o => cases o <;> exact ho.elim
  case state.getApproval o t headers => cases o <;> exact ho.elim
  all_goals exact ho.elim

end Sidecar

theorem respects (bulkhead : Bulkhead) : coupling.Respects (intakeServer bulkhead) AlikeState AlikeChoice
    fun _ => Both (fun a b => a = b) Exn.Alike where
  exec _ _ _ _ _ _ hc ho hs := alike_perform hc hs ho
  invoke _ s s' hs := .inr ⟨s, s', rfl, rfl, hs⟩
  body := pairs_body bulkhead

theorem shown_eq {r r' : Except Exn IntakeAnswer} (h : Both (fun a b => a = b) Exn.Alike r r') :
    shown r = shown r' := by
  cases r with
  | ok a =>
    cases r' with
    | ok b => exact congrArg Except.ok h
    | error e => exact h.elim
  | error e =>
    cases r' with
    | ok b => exact h.elim
    | error e' =>
      have h : e.Alike e' := h
      cases h <;> rfl

theorem answerOf_eq {threads threads' : List (Thread intakeApiSig Exn IntakeAnswer IntakeRequest)}
    (h : List.Forall₂ (Twins coupling fun _ => Both (fun a b => a = b) Exn.Alike) threads threads') :
    threads.map answerOf = threads'.map answerOf := by
  induction h with
  | nil => rfl
  | cons ht _ ih =>
    rw [List.map_cons, List.map_cons, ih]
    cases ht with
    | running _ => rfl
    | done hr =>
      simp only [answerOf]
      rw [shown_eq hr]

end Confidential

/-- What a schedule of requests shows, if it is possible: what every request answered, and what was
published. -/
def intakeServer.visible (bulkhead : Bulkhead) (schedule : List (Action SidecarChoice IntakeRequest)) :
    Option (List (Option (Except (ℕ × String) IntakeAnswer)) × List InvoiceSubmittedEvent ×
      List DecisionCompletedEvent) :=
  ((intakeServer bulkhead).runActions (fun _ _ => true) schedule (System.start .empty)).map fun cfg =>
    (cfg.threads.map answerOf, cfg.world.state.submitted, cfg.world.state.completed)

open Confidential Coupling in
/-- **Errors are not shown**: two schedules of requests that differ in the texts of errors show the same. -/
theorem errors_not_shown (bulkhead : Bulkhead)
    (schedule schedule' : List (Action SidecarChoice IntakeRequest))
    (h : List.Forall₂ (Coupling.Corresponds AlikeChoice) schedule schedule') :
    intakeServer.visible bulkhead schedule = intakeServer.visible bulkhead schedule' := by
  have hstart : Coupling.Coupled coupling AlikeState (fun _ => Both (fun a b => a = b) Exn.Alike)
      (System.start .empty : Config intakeApiSig Exn IntakeAnswer IntakeSidecar IntakeRequest)
        (System.start .empty) :=
    ⟨⟨rfl, rfl, rfl⟩, .nil⟩
  simp only [intakeServer.visible]
  rcases (respects bulkhead).sound h hstart with ⟨hnone, hnone'⟩ | ⟨cfg, cfg', hcfg, hcfg', hcoupled⟩
  · rw [hnone, hnone']
  · rw [hcfg, hcfg', Option.map_some, Option.map_some, hcoupled.state.submitted, hcoupled.state.completed,
      answerOf_eq hcoupled.threads]

/-- A submission whose publication fails with the given text, and then its status. -/
def failedSubmission (details : String) : List (Action SidecarChoice IntakeRequest) :=
  let served : SidecarChoice := ⟨.serve, .rpcError "", .error ""⟩
  [.invoke (.submit "t-1" laptop), .step 0 served, .step 0 served, .respond 0,
    .invoke (.process "t-1"), .step 1 served, .step 1 served,
      .step 1 ⟨.refuse, .rpcError details, .error ""⟩,
    .step 1 served, .respond 1, .invoke (.status "t-1"), .step 2 served, .respond 2]

theorem failedSubmission_not_shown :
    (intakeServer.visible ⟨"5.0"⟩ (failedSubmission "redis: 10.0.0.7 refused")).isSome ∧
    intakeServer.visible ⟨"5.0"⟩ (failedSubmission "redis: 10.0.0.7 refused") =
      intakeServer.visible ⟨"5.0"⟩ (failedSubmission "broker: queue full") := by
  have hserved : Confidential.AlikeChoice ⟨.serve, .rpcError "", .error ""⟩
      ⟨.serve, .rpcError "", .error ""⟩ :=
    ⟨rfl, .refl _, rfl⟩
  have hrefused : Confidential.AlikeChoice ⟨.refuse, .rpcError "redis: 10.0.0.7 refused", .error ""⟩
      ⟨.refuse, .rpcError "broker: queue full", .error ""⟩ := ⟨rfl, .rpcError _ _, rfl⟩
  refine ⟨by decide +kernel, errors_not_shown ⟨"5.0"⟩ _ _ ?_⟩
  refine .cons (.invoke _) (.cons (.step 0 hserved) (.cons (.step 0 hserved) (.cons (.respond 0) ?_)))
  refine .cons (.invoke _) (.cons (.step 1 hserved) (.cons (.step 1 hserved) (.cons (.step 1 hrefused) ?_)))
  refine .cons (.step 1 hserved) (.cons (.respond 1) ?_)
  exact .cons (.invoke _) (.cons (.step 2 hserved) (.cons (.respond 2) .nil))

end ApprovalFlow
