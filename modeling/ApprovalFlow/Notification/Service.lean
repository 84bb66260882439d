import ApprovalFlow.Shared.Contracts
import ApprovalFlow.Shared.StateClient

/-!
# The notification service

The last consumer of the events: it sends one message for a terminal outcome and marks the tracking id as
notified.

* `NotificationRepository`, `NotificationChannel`: the protocols, coroutines over any signature.
* `NotificationService.handle`: its three subscriptions.
* `DaprStateNotificationRepository`: the marks in the Dapr state store.
-/

namespace ApprovalFlow
open Async

structure NotificationRepository (σ : Sig) where
  alreadyNotified : String → Prog σ Exn Bool
  markNotified : String → Prog σ Exn Unit

structure NotificationChannel (σ : Sig) where
  send : Invoice → (trackingId message source : String) → Prog σ Exn Unit

structure NotificationService (σ : Sig) where
  repository : NotificationRepository σ
  channel : NotificationChannel σ

namespace NotificationService
variable {σ : Sig} (svc : NotificationService σ)

/-- `_reject_or_duplicate_message`. -/
def rejectOrDuplicateMessage (decision : Decision) : String :=
  if decision.route = .duplicate then "Invoice identified as duplicate: " ++ decision.reason
  else "Invoice rejected: " ++ decision.reason

/-- `_approval_rejected_message`. -/
def approvalRejectedMessage (decision : Decision) : String := "Rejected by approver: " ++ decision.reason

/-- The value of a resolution. -/
def resolutionValue : PaymentResolution → String
  | .completed => "completed"
  | .failed => "failed"

/-- `_payment_message`. -/
def paymentMessage (event : PaymentCompletedEvent) : String :=
  "Payment " ++ resolutionValue event.resolution ++ ": " ++ event.reason

/-- `_notify`. -/
def notify (invoice : Invoice) (trackingId message source : String) : Prog σ Exn Unit := do
  if ← svc.repository.alreadyNotified trackingId then return ()
  else do
    svc.channel.send invoice trackingId message source
    svc.repository.markNotified trackingId

def handleDecisionCompleted (event : DecisionCompletedEvent) : Prog σ Exn Unit :=
  if event.decision.route ≠ .reject ∧ event.decision.route ≠ .duplicate then return ()
  else svc.notify event.invoice event.decision.correlationId
    (rejectOrDuplicateMessage event.decision) "decision.completed"

def handleApprovalCompleted (event : ApprovalCompletedEvent) : Prog σ Exn Unit :=
  if event.resolution ≠ .rejected then return ()
  else svc.notify event.invoice event.decision.correlationId
    (approvalRejectedMessage event.decision) "approval.completed"

def handlePaymentCompleted (event : PaymentCompletedEvent) : Prog σ Exn Unit :=
  svc.notify event.invoice event.decision.correlationId (paymentMessage event) "payment.completed"

end NotificationService

/-- An event that a topic delivers to Notification. -/
inductive NotificationDelivery
  | decisionCompleted (event : DecisionCompletedEvent)
  | approvalCompleted (event : ApprovalCompletedEvent)
  | paymentCompleted (event : PaymentCompletedEvent)
  deriving DecidableEq

def NotificationService.handle {σ : Sig} (svc : NotificationService σ) :
    NotificationDelivery → Prog σ Exn Unit
  | .decisionCompleted event => svc.handleDecisionCompleted event
  | .approvalCompleted event => svc.handleApprovalCompleted event
  | .paymentCompleted event => svc.handlePaymentCompleted event

/-! ## Over the Dapr state store -/

namespace DaprStateNotificationRepository
variable {σ : Sig} (client : StateClient σ Unit)

/-- `notification:{tracking_id}` holds a bare marker. -/
def key (trackingId : String) : String := "notification:" ++ trackingId

def alreadyNotified (trackingId : String) : Prog σ Exn Bool := do
  let (data, _) ← client.read
    (fun details => .notificationRepositoryError
      (.text ("Failed to read notification state: " ++ details))) (key trackingId)
  return data.isSome

def markNotified (trackingId : String) : Prog σ Exn Unit :=
  (client.executeStateTransaction [⟨key trackingId, (), none⟩]).handle fun
    | .rpcError details =>
      .raise (.notificationRepositoryError (.text ("Failed to mark notified: " ++ details)))
    | e => .raise e

end DaprStateNotificationRepository

def daprStateNotificationRepository {σ : Sig} (client : StateClient σ Unit) : NotificationRepository σ where
  alreadyNotified := DaprStateNotificationRepository.alreadyNotified client
  markNotified := DaprStateNotificationRepository.markNotified client

end ApprovalFlow
