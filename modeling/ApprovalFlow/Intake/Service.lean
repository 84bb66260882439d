import ApprovalFlow.Async.Prog
import ApprovalFlow.Shared.Contracts
import ApprovalFlow.Shared.Errors

/-!
# The intake service

A submission is stored under a fresh tracking id, sent on for a decision unless it is a known duplicate,
and completed when its decision arrives.

* `Submission`: the record of a submission.
* `InvoiceRepository`, `DecisionPublisher`, `DecisionCompletedPublisher`: the protocols, coroutines over
  any signature.
* `IntakeService`: `submit`, `process`, `complete`.
-/

namespace ApprovalFlow
open Async

inductive SubmissionStatus
  | received
  | processing
  | completed
  | failed
  deriving DecidableEq, Repr

structure Submission where
  trackingId : String
  invoice : Invoice
  dedupKey : String
  isDuplicate : Bool
  status : SubmissionStatus
  decision : Option Decision := none
  error : Option String := none
  deriving DecidableEq

structure InvoiceRepository (σ : Sig) where
  save : Submission → Prog σ Exn Unit
  get : String → Prog σ Exn (Option Submission)
  findByDedupKey : String → Prog σ Exn (Option Submission)

structure DecisionPublisher (σ : Sig) where
  publish : Invoice → (correlationId : String) → Prog σ Exn Unit

structure DecisionCompletedPublisher (σ : Sig) where
  publish : DecisionCompletedEvent → Prog σ Exn Unit

structure IntakeService (σ : Sig) where
  repository : InvoiceRepository σ
  publisher : DecisionPublisher σ
  decisionCompletedPublisher : DecisionCompletedPublisher σ

/-- The record of a new submission. -/
def Submission.received (trackingId : String) (invoice : Invoice) (isDuplicate : Bool) : Submission where
  trackingId := trackingId
  invoice := invoice
  dedupKey := computeDedupKey invoice
  isDuplicate := isDuplicate
  status := .received

namespace IntakeService
variable {σ : Sig} (svc : IntakeService σ)

/-- `submit`, for the tracking id that `uuid4` draws. -/
def submit (trackingId : String) (invoice : Invoice) : Prog σ Exn String := do
  let existing ← svc.repository.findByDedupKey (computeDedupKey invoice)
  svc.repository.save (.received trackingId invoice existing.isSome)
  return trackingId

def complete (correlationId : String) (decision : Decision) : Prog σ Exn Unit := do
  match ← svc.repository.get correlationId with
  | none => return ()
  | some submission =>
    if submission.status = .completed then return ()
    else svc.repository.save { submission with status := .completed, decision := some decision }

/-- `process`, for a submission that is known to be a duplicate. -/
def processDuplicate (trackingId : String) (submission : Submission) : Prog σ Exn Unit :=
  if submission.status = .completed then return ()
  else do
    let decision := buildDuplicateDecision trackingId
    svc.complete trackingId decision
    (svc.decisionCompletedPublisher.publish ⟨submission.invoice, decision, none⟩).handle fun
      | .decisionCompletedPublisherError _ => return ()
      | e => .raise e

/-- `process`, for a new invoice. -/
def processNew (trackingId : String) (submission : Submission) : Prog σ Exn Unit := do
  svc.repository.save { submission with status := .processing }
  (svc.publisher.publish submission.invoice trackingId).handle fun
    | .decisionPublisherError message =>
      svc.repository.save { submission with status := .failed, error := some message }
    | e => .raise e

def process (trackingId : String) : Prog σ Exn Unit := do
  match ← svc.repository.get trackingId with
  | none => .raise .assertionError
  | some submission =>
    if submission.isDuplicate then svc.processDuplicate trackingId submission
    else svc.processNew trackingId submission

end IntakeService

end ApprovalFlow
