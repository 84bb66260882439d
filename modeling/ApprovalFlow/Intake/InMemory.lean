import ApprovalFlow.Intake.Service
import ApprovalFlow.Store.Dict

/-!
# Intake over the in-memory repository

Reads and saves are atomic; a publish may be refused, or accepted and its reply lost.

* `InMemoryInvoiceRepository`: the submissions by tracking id, and the last one saved with each dedup key.
* `IntakeState`, `exec`: the state of a deployment, and what an operation does to it.
* `IntakeCall`, `inMemoryIntake`: the methods, over the operations.
-/

namespace ApprovalFlow
open Async

/-- `_by_tracking_id` and `_by_dedup_key`. -/
structure InMemoryInvoiceRepository where
  byTrackingId : Dict String Submission
  byDedupKey : Dict String Submission

namespace InMemoryInvoiceRepository

def empty : InMemoryInvoiceRepository := ⟨.empty, .empty⟩

def save (submission : Submission) (r : InMemoryInvoiceRepository) : InMemoryInvoiceRepository :=
  ⟨r.byTrackingId.insert submission.trackingId submission,
    r.byDedupKey.insert submission.dedupKey submission⟩

def get (trackingId : String) (r : InMemoryInvoiceRepository) : Option Submission :=
  r.byTrackingId.get? trackingId

def findByDedupKey (dedupKey : String) (r : InMemoryInvoiceRepository) : Option Submission :=
  r.byDedupKey.get? dedupKey

variable (s : Submission) (r : InMemoryInvoiceRepository)

@[simp] theorem findByDedupKey_empty (k : String) : findByDedupKey k empty = none := rfl

theorem get_save (t : String) : get t (r.save s) = if t = s.trackingId then some s else r.get t :=
  Dict.get?_insert _ _ _ _

theorem findByDedupKey_save (k : String) :
    findByDedupKey k (r.save s) = if k = s.dedupKey then some s else r.findByDedupKey k :=
  Dict.get?_insert _ _ _ _

end InMemoryInvoiceRepository

inductive IntakeOp
  | saveSubmission (submission : Submission)
  | getSubmission (trackingId : String)
  | findByDedupKey (dedupKey : String)
  | publishSubmitted (invoice : Invoice) (correlationId : String)
  | publishCompleted (event : DecisionCompletedEvent)

@[reducible] def IntakeOp.Reply : IntakeOp → Type
  | getSubmission _ => Option Submission
  | findByDedupKey _ => Option Submission
  | _ => Unit

abbrev intakeSig : Sig := ⟨IntakeOp, IntakeOp.Reply⟩

abbrev IntakeOp.await (o : IntakeOp) : Prog intakeSig Exn o.Reply := @Prog.op intakeSig Exn o

/-- The service over the operations. -/
def inMemoryIntake : IntakeService intakeSig where
  repository := ⟨fun s => (IntakeOp.saveSubmission s).await, fun t => (IntakeOp.getSubmission t).await,
    fun k => (IntakeOp.findByDedupKey k).await⟩
  publisher := ⟨fun i t => (IntakeOp.publishSubmitted i t).await⟩
  decisionCompletedPublisher := ⟨fun e => (IntakeOp.publishCompleted e).await⟩

inductive IntakeCall
  | submit (trackingId : String) (invoice : Invoice)
  | process (trackingId : String)
  | complete (correlationId : String) (decision : Decision)

def inMemoryIntake.call : IntakeCall → Prog intakeSig Exn Unit
  | .submit t i => (fun _ => ()) <$> inMemoryIntake.submit t i
  | .process t => inMemoryIntake.process t
  | .complete t d => inMemoryIntake.complete t d

/-- The repository, and what the broker accepted. -/
structure IntakeState where
  repository : InMemoryInvoiceRepository
  submitted : List InvoiceSubmittedEvent
  completed : List DecisionCompletedEvent

/-- What becomes of a publish: it is answered, it is refused, or it is accepted and the reply is lost. -/
inductive IntakeChoice
  | answer
  | refuse (details : String)
  | lose (details : String)
  deriving DecidableEq

namespace IntakeChoice

/-- The event reaches the broker. -/
def accepted : IntakeChoice → Bool
  | refuse _ => false
  | _ => true

/-- What the publisher returns, or raises. -/
def reply (error : String → Exn) : IntakeChoice → Except Exn Unit
  | answer => .ok ()
  | refuse details => .error (error details)
  | lose details => .error (error details)

end IntakeChoice

namespace IntakeState

def empty : IntakeState := ⟨.empty, [], []⟩

def exec (c : IntakeChoice) : (o : IntakeOp) → IntakeState → Except Exn o.Reply × IntakeState
  | .saveSubmission s, st => (.ok (), { st with repository := st.repository.save s })
  | .getSubmission t, st => (.ok (st.repository.get t), st)
  | .findByDedupKey k, st => (.ok (st.repository.findByDedupKey k), st)
  | .publishSubmitted i t, st =>
    (c.reply .decisionPublisherError,
      if c.accepted then { st with submitted := st.submitted ++ [⟨i, t⟩] } else st)
  | .publishCompleted e, st =>
    (c.reply .decisionCompletedPublisherError,
      if c.accepted then { st with completed := st.completed ++ [e] } else st)

theorem repository_publishSubmitted (c : IntakeChoice) (i : Invoice) (t : String) (st : IntakeState) :
    (exec c (.publishSubmitted i t) st).2.repository = st.repository := by
  simp only [exec]
  split_ifs <;> rfl

theorem repository_publishCompleted (c : IntakeChoice) (e : DecisionCompletedEvent) (st : IntakeState) :
    (exec c (.publishCompleted e) st).2.repository = st.repository := by
  simp only [exec]
  split_ifs <;> rfl

end IntakeState

end ApprovalFlow
