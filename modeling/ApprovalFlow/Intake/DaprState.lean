import ApprovalFlow.Intake.Service
import ApprovalFlow.Shared.StateClient

/-!
# Intake over the Dapr state store

`submission:{tracking_id}` holds a submission, `dedup:{dedup_key}` the tracking id of the last one with
that key; both are written in one transaction without etags.

* `IntakeValue`: what a document of the store decodes to.
* `DaprStateInvoiceRepository`, `DaprDecisionPublisher`, `DaprDecisionCompletedPublisher`: the repository
  and the publishers.
-/

namespace ApprovalFlow
open Async

/-- The documents of Intake's store. -/
inductive IntakeValue
  | submission (submission : Submission)
  | pointer (trackingId : String)
  deriving DecidableEq

/-- `Submission.model_validate_json`. -/
def IntakeValue.toSubmission : IntakeValue → Except Exn Submission
  | submission s => .ok s
  | pointer _ => .error .validationError

namespace DaprStateInvoiceRepository

def submissionKey (trackingId : String) : String := "submission:" ++ trackingId

def dedupKey (key : String) : String := "dedup:" ++ key

/-- The transaction of a save. -/
def writes (s : Submission) : List (Versioned.Write IntakeValue) :=
  [⟨submissionKey s.trackingId, .submission s, none⟩, ⟨dedupKey s.dedupKey, .pointer s.trackingId, none⟩]

theorem value_writes (store : Versioned.Store IntakeValue) (s : Submission) (t : String) :
    (store.puts (writes s)).value (submissionKey t) =
      if t = s.trackingId then some (.submission s) else store.value (submissionKey t) := by
  have hne : submissionKey t ≠ dedupKey s.dedupKey := fun h => by
    have hlist := congrArg String.toList h
    simp only [submissionKey, dedupKey, String.toList_append] at hlist
    cases hlist
  have hinj : submissionKey t = submissionKey s.trackingId ↔ t = s.trackingId :=
    String.append_right_inj "submission:"
  show ((store.put (submissionKey s.trackingId) (.submission s)).put (dedupKey s.dedupKey) _).value _ = _
  rw [Versioned.Store.value_put_ne _ _ hne, Versioned.Store.value_put]
  simp only [hinj]

variable {σ : Sig} (client : StateClient σ IntakeValue)

def save (submission : Submission) : Prog σ Exn Unit :=
  (client.executeStateTransaction (writes submission)).handle fun
    | .rpcError details =>
      .raise (.invoiceRepositoryError (.text ("Failed to save submission: " ++ details)))
    | e => .raise e

def get (trackingId : String) : Prog σ Exn (Option Submission) := do
  let (data, _) ← client.read
      (fun details => .invoiceRepositoryError (.text ("Failed to read submission: " ++ details)))
    (submissionKey trackingId)
  match data with
  | none => return none
  | some data => some <$> Prog.ofExcept data.toSubmission

/-- What a read of a submission returns. -/
def found : Option IntakeValue → Except Exn (Option Submission)
  | none => .ok none
  | some data => data.toSubmission.map some

theorem get_eq (trackingId : String) : get client trackingId =
    (client.getState (submissionKey trackingId)).attempt (StateClient.afterRead
      (fun details => .invoiceRepositoryError (.text ("Failed to read submission: " ++ details)))
      fun response => .ofExcept (found response.1)) := by
  rw [get, client.read_bind]
  refine Prog.attempt_congr fun reply => ?_
  rcases reply with e | ⟨data, etag⟩
  · rfl
  · cases data with
    | none => rfl
    | some data => cases data <;> rfl

/-- Follow a pointer. -/
def follow (key trackingId : String) : Prog σ Exn (Option Submission) := do
  match ← get client trackingId with
  | none => .raise (.invoiceRepositoryError (.danglingPointer key trackingId))
  | some submission => return some submission

def findByDedupKey (key : String) : Prog σ Exn (Option Submission) := do
  let (data, _) ← client.read
      (fun details => .invoiceRepositoryError (.text ("Failed to read dedup pointer: " ++ details)))
    (dedupKey key)
  match data with
  | none => return none
  -- an empty document reads as an absent one
  | some (.pointer "") => return none
  | some (.pointer trackingId) => follow client key trackingId
  -- a document that is no pointer names no submission
  | some (.submission _) => .raise (.invoiceRepositoryError (.danglingPointer key ""))

end DaprStateInvoiceRepository

def daprStateInvoiceRepository {σ : Sig} (client : StateClient σ IntakeValue) : InvoiceRepository σ where
  save := DaprStateInvoiceRepository.save client
  get := DaprStateInvoiceRepository.get client
  findByDedupKey := DaprStateInvoiceRepository.findByDedupKey client

/-- `publish` over the `publish_event` of the Dapr client. -/
def DaprDecisionPublisher.publish {σ : Sig} (publishEvent : InvoiceSubmittedEvent → Prog σ Exn Unit)
    (invoice : Invoice) (correlationId : String) : Prog σ Exn Unit :=
  publishOrRaise
    (fun details => .decisionPublisherError ("Failed to publish invoice.submitted: " ++ details))
    publishEvent ⟨invoice, correlationId⟩

/-- `publish` over the `publish_event` of the Dapr client. -/
def DaprDecisionCompletedPublisher.publish {σ : Sig}
    (publishEvent : DecisionCompletedEvent → Prog σ Exn Unit) :
    DecisionCompletedEvent → Prog σ Exn Unit :=
  publishOrRaise (fun details =>
    .decisionCompletedPublisherError ("Failed to publish decision.completed: " ++ details))
    publishEvent

end ApprovalFlow
