import ApprovalFlow.Approval.Service
import ApprovalFlow.Shared.IndexedState
import ApprovalFlow.Async.Pool

/-!
# Approval over the Dapr state store

`approval:{tracking_id}` holds a record, `approval:index` the ids of all records.

* `ApprovalValue`: what a document of the store decodes to.
* `DaprStateApprovalRepository`, `DaprApprovalOutcomePublisher`: the repository and the publisher.
* `approvalClients`: any number of concurrent calls of the service on one store.
-/

namespace ApprovalFlow
open Async

/-- The documents of Approval's store. -/
inductive ApprovalValue
  | record (approval : PendingApproval)
  | index (trackingIds : List String)
  deriving DecidableEq

namespace ApprovalValue

/-- `PendingApproval.model_validate_json`. -/
def toRecord : ApprovalValue → Except Exn PendingApproval
  | record approval => .ok approval
  | index _ => .error .validationError

/-- `list(json.loads(raw))`: of an object, its keys. -/
def toIndex : ApprovalValue → List String
  | record _ => ["tracking_id", "invoice", "decision", "recommendation", "status", "additional_info"]
  | index ids => ids

end ApprovalValue

namespace DaprStateApprovalRepository

/-- `approval:{tracking_id}` and `approval:index`. -/
def layout : IndexedLayout ApprovalValue PendingApproval where
  keyPrefix := "approval:"
  trackingId := PendingApproval.trackingId
  record := .record
  index := .index
  toRecord := ApprovalValue.toRecord
  toIndex := ApprovalValue.toIndex
  readIndexError details := .approvalRepositoryError (.text ("Failed to read approval index: " ++ details))
  readError details := .approvalRepositoryError (.text ("Failed to read approval: " ++ details))
  retriesError trackingId := .approvalRepositoryError (.exceededRetries "saving approval" trackingId)

variable {σ : Sig} (client : StateClient σ ApprovalValue)

def save (approval : PendingApproval) : Prog σ Exn Unit := IndexedState.save client layout approval

def get (trackingId : String) : Prog σ Exn (Option PendingApproval) :=
  IndexedState.get client layout trackingId

def listPending : Prog σ Exn (List PendingApproval) := IndexedState.listAll client layout

end DaprStateApprovalRepository

def daprStateApprovalRepository {σ : Sig} (client : StateClient σ ApprovalValue) :
    ApprovalRepository σ where
  save := DaprStateApprovalRepository.save client
  get := DaprStateApprovalRepository.get client
  listPending := DaprStateApprovalRepository.listPending client

/-- `publish` over the `publish_event` of the Dapr client. -/
def DaprApprovalOutcomePublisher.publish {σ : Sig}
    (publishEvent : ApprovalCompletedEvent → Prog σ Exn Unit) :
    ApprovalCompletedEvent → Prog σ Exn Unit :=
  publishOrRaise (fun details =>
    .approvalOutcomePublisherError ("Failed to publish approval.completed: " ++ details))
    publishEvent

/-! ## The service on one sidecar -/

inductive ApprovalDaprOp
  | state (o : Versioned.Op ApprovalValue)
  | publishEvent (event : ApprovalCompletedEvent)

@[reducible] def ApprovalDaprOp.Reply : ApprovalDaprOp → Type
  | state o => o.Reply
  | publishEvent _ => Unit

abbrev approvalDaprSig : Sig := ⟨ApprovalDaprOp, ApprovalDaprOp.Reply⟩

def approvalStateClient : StateClient approvalDaprSig ApprovalValue where
  getState key := @Prog.op approvalDaprSig Exn (.state (.get key))
  executeStateTransaction writes := @Prog.op approvalDaprSig Exn (.state (.transact writes))

def daprApproval : ApprovalService approvalDaprSig where
  repository := daprStateApprovalRepository approvalStateClient
  publisher :=
    ⟨DaprApprovalOutcomePublisher.publish fun e => @Prog.op approvalDaprSig Exn (.publishEvent e)⟩

structure ApprovalDapr where
  store : Versioned.Store ApprovalValue
  published : List ApprovalCompletedEvent

namespace ApprovalDapr

def empty : ApprovalDapr := ⟨.empty, []⟩

/-- Every operation is served; a transaction with a stale etag is refused. -/
def perform : (o : ApprovalDaprOp) → ApprovalDapr → Except Exn o.Reply × ApprovalDapr
  | .state o, s =>
    let r := o.perform (.rpcError "") .serve s.store
    (r.1, { s with store := r.2 })
  | .publishEvent e, s => (.ok (), { s with published := s.published ++ [e] })

end ApprovalDapr

/-- Concurrent calls of the service. -/
def approvalClients :
    System approvalDaprSig Exn (Option PendingApproval) ApprovalDapr Unit ApprovalCall where
  body := daprApproval.call
  invoke _ s := some s
  exec _ o s := s.perform o

end ApprovalFlow
