import ApprovalFlow.Approval.Service
import ApprovalFlow.Store.Dict
import ApprovalFlow.Async.Calls

/-!
# Approval over the in-memory repository

Every save, get and publish is one atomic operation here, which may instead raise its infrastructure
error without effect.

* `ApprovalState`, `perform`, `faultyApproval`: the state of a deployment, what an operation does to it,
  and the handler in which operations may fail.
* `approvalRun`: calls one after another, from an empty store.
-/

namespace ApprovalFlow
open Async

inductive ApprovalOp
  | saveApproval (approval : PendingApproval)
  | getApproval (trackingId : String)
  | listPending
  | publish (event : ApprovalCompletedEvent)

@[reducible] def ApprovalOp.Reply : ApprovalOp → Type
  | getApproval _ => Option PendingApproval
  | listPending => List PendingApproval
  | _ => Unit

abbrev approvalSig : Sig := ⟨ApprovalOp, ApprovalOp.Reply⟩

abbrev ApprovalOp.await (o : ApprovalOp) : Prog approvalSig Exn o.Reply := @Prog.op approvalSig Exn o

/-- The service over the operations. -/
def inMemoryApproval : ApprovalService approvalSig where
  repository := ⟨fun a => (ApprovalOp.saveApproval a).await, fun t => (ApprovalOp.getApproval t).await,
    ApprovalOp.listPending.await⟩
  publisher := ⟨fun e => (ApprovalOp.publish e).await⟩

structure ApprovalState where
  approvals : Dict String PendingApproval
  published : List ApprovalCompletedEvent

namespace ApprovalState

def empty : ApprovalState := ⟨.empty, []⟩

def perform : (o : ApprovalOp) → ApprovalState → Except Exn o.Reply × ApprovalState
  | .saveApproval a, s => (.ok (), { s with approvals := s.approvals.insert a.trackingId a })
  | .getApproval t, s => (.ok (s.approvals.get? t), s)
  | .listPending, s => (.ok s.approvals.values, s)
  | .publish e, s => (.ok (), { s with published := s.published ++ [e] })

/-- The infrastructure error of an operation. -/
def infraError (details : String) : ApprovalOp → Exn
  | .saveApproval _ => .approvalRepositoryError (.text details)
  | .getApproval _ => .approvalRepositoryError (.text details)
  | .listPending => .approvalRepositoryError (.text details)
  | .publish _ => .approvalOutcomePublisherError details

end ApprovalState

/-- An operation is performed, or it fails. -/
inductive ApprovalChoice
  | answer
  | fail (details : String)
  deriving DecidableEq, Repr

/-- Operations that may fail without effect. -/
def faultyApproval : Handler approvalSig Exn ApprovalState ApprovalChoice
  | .answer, o, s => s.perform o
  | .fail details, o, s => (.error (ApprovalState.infraError details o), s)

abbrev ApprovalRun := List (ApprovalCall × List ApprovalChoice)

abbrev ApprovalHistory := List (Ran approvalSig Exn (Option PendingApproval) ApprovalCall)

/-- A run from the empty store: its history and its final state. -/
def approvalRun (run : ApprovalRun) : ApprovalHistory × ApprovalState :=
  runCalls faultyApproval inMemoryApproval.call run .empty

/-! ## What an operation can do -/

section Rules
variable {β : Type} {Q : Outcome Exn β → ApprovalState × List (Awaited approvalSig Exn) → Prop}
    {s : ApprovalState}
  {l : List (Awaited approvalSig Exn)}

/-- **The rule of an operation**: the process crashes there, the operation is performed, or it fails. -/
theorem wp_faultyApproval (o : ApprovalOp) (f : Except Exn o.Reply → Prog approvalSig Exn β) :
    wp faultyApproval.logged (o.await.attempt f) Q (s, l) ↔
      Q .crashed (s, l) ∧
        wp faultyApproval.logged (f (s.perform o).1) Q ((s.perform o).2, ⟨o, (s.perform o).1⟩ :: l) ∧
        ∀ details, wp faultyApproval.logged (f (.error (ApprovalState.infraError details o))) Q
          (s, ⟨o, .error (ApprovalState.infraError details o)⟩ :: l) := by
  rw [Prog.op_attempt, wp_await]
  refine and_congr Iff.rfl ⟨fun h => ⟨h .answer, fun details => h (.fail details)⟩, fun h c => ?_⟩
  cases c with
  | answer => exact h.1
  | fail details => exact h.2 details

theorem wp_saveApproval (a : PendingApproval) (f : Except Exn Unit → Prog approvalSig Exn β) :
    wp faultyApproval.logged ((inMemoryApproval.repository.save a).attempt f) Q (s, l) ↔
      Q .crashed (s, l) ∧
        wp faultyApproval.logged (f (.ok ())) Q
          ({ s with approvals := s.approvals.insert a.trackingId a }, ⟨.saveApproval a, .ok ()⟩ :: l) ∧
        ∀ details, wp faultyApproval.logged (f (.error (.approvalRepositoryError (.text details)))) Q
          (s, ⟨.saveApproval a, .error (.approvalRepositoryError (.text details))⟩ :: l) :=
  wp_faultyApproval (.saveApproval a) f

theorem wp_getApproval (t : String) (f : Except Exn (Option PendingApproval) → Prog approvalSig Exn β) :
    wp faultyApproval.logged ((inMemoryApproval.repository.get t).attempt f) Q (s, l) ↔
      Q .crashed (s, l) ∧
        wp faultyApproval.logged (f (.ok (s.approvals.get? t))) Q
          (s, ⟨.getApproval t, .ok (s.approvals.get? t)⟩ :: l) ∧
        ∀ details, wp faultyApproval.logged (f (.error (.approvalRepositoryError (.text details)))) Q
          (s, ⟨.getApproval t, .error (.approvalRepositoryError (.text details))⟩ :: l) :=
  wp_faultyApproval (.getApproval t) f

theorem wp_publishApproval (e : ApprovalCompletedEvent) (f : Except Exn Unit → Prog approvalSig Exn β) :
    wp faultyApproval.logged ((inMemoryApproval.publisher.publish e).attempt f) Q (s, l) ↔
      Q .crashed (s, l) ∧
        wp faultyApproval.logged (f (.ok ())) Q
          ({ s with published := s.published ++ [e] }, ⟨.publish e, .ok ()⟩ :: l) ∧
        ∀ details, wp faultyApproval.logged (f (.error (.approvalOutcomePublisherError details))) Q
          (s, ⟨.publish e, .error (.approvalOutcomePublisherError details)⟩ :: l) :=
  wp_faultyApproval (.publish e) f

end Rules

end ApprovalFlow
