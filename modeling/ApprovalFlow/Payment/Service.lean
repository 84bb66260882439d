import ApprovalFlow.Async.Prog
import ApprovalFlow.Shared.Contracts
import ApprovalFlow.Shared.Errors

/-!
# The payment saga

Payment's records, the protocols of what it awaits, and the saga that coordinates them: reserve the
department's budget, save the record, charge, and on a decline release what was reserved.

* `PaymentRecord`, `Budget`: the models.
* `PaymentRepository`, `BudgetRepository`, `PaymentGateway`, `PaymentOutcomePublisher`: the protocols,
  coroutines over any signature.
* `PaymentService`: `handleDecisionCompleted`, `handleApprovalCompleted`, and `runSaga` where both
  converge.
-/

namespace ApprovalFlow
open Numeric Async

inductive PaymentStatus
  | reserved
  | completed
  | failed
  deriving DecidableEq, Repr

/-- `_TERMINAL_STATUSES`. -/
def PaymentStatus.terminal : PaymentStatus → Bool
  | reserved => false
  | completed => true
  | failed => true

structure PaymentRecord where
  trackingId : String
  invoice : Invoice
  decision : Decision
  status : PaymentStatus
  department : String
  reservedAmount : Decimal
  reason : Option String
  deriving DecidableEq

structure Budget where
  department : String
  total : Decimal
  remaining : Decimal
  deriving DecidableEq, Repr

/-! ## Protocols -/

structure PaymentRepository (σ : Sig) where
  save : PaymentRecord → Prog σ Exn Unit
  get : String → Prog σ Exn (Option PaymentRecord)
  listAll : Prog σ Exn (List PaymentRecord)

structure BudgetRepository (σ : Sig) where
  ensureSeeded : String → Decimal → Prog σ Exn Unit
  get : String → Prog σ Exn (Option Budget)
  reserve : String → Decimal → Prog σ Exn Unit
  release : String → Decimal → Prog σ Exn Unit

structure PaymentOutcomePublisher (σ : Sig) where
  publish : PaymentCompletedEvent → Prog σ Exn Unit

structure PaymentGateway (σ : Sig) where
  charge : Invoice → String → Prog σ Exn Unit

structure PaymentService (σ : Sig) where
  repository : PaymentRepository σ
  budgetRepository : BudgetRepository σ
  publisher : PaymentOutcomePublisher σ
  gateway : PaymentGateway σ

/-! ## The records of the saga -/

namespace PaymentRecord

/-- The record of a new reservation. -/
def ofReservation (invoice : Invoice) (decision : Decision) : PaymentRecord where
  trackingId := decision.correlationId
  invoice := invoice
  decision := decision
  status := .reserved
  department := invoice.department
  reservedAmount := invoice.total
  reason := none

/-- The record of a rejection: nothing was reserved. -/
def ofRejection (invoice : Invoice) (decision : Decision) (reason : String) : PaymentRecord where
  trackingId := decision.correlationId
  invoice := invoice
  decision := decision
  status := .failed
  department := invoice.department
  reservedAmount := .zero
  reason := some reason

def declined (record : PaymentRecord) (message : String) : PaymentRecord :=
  { record with status := .failed, reason := some message }

def completed (record : PaymentRecord) : PaymentRecord :=
  { record with status := .completed, reason := some "payment executed successfully" }

/-- The resolution that is published for a record. -/
def resolution (record : PaymentRecord) : PaymentResolution :=
  if record.status = .completed then .completed else .failed

/-- The event that is published for a record. -/
def event (record : PaymentRecord) : PaymentCompletedEvent where
  invoice := record.invoice
  decision := record.decision
  resolution := record.resolution
  reason := record.reason.getD ""

end PaymentRecord

/-! ## The service -/

namespace PaymentService
variable {σ : Sig} (svc : PaymentService σ)

/-- `_publish`. -/
def publish (record : PaymentRecord) : Prog σ Exn Unit := svc.publisher.publish record.event

/-- `_reject`. -/
def reject (invoice : Invoice) (decision : Decision) (reason : String) : Prog σ Exn Unit := do
  let record := PaymentRecord.ofRejection invoice decision reason
  svc.repository.save record
  svc.publish record

/-- `_execute_charge`. -/
def executeCharge (record : PaymentRecord) : Prog σ Exn Unit :=
  if record.status ≠ .reserved then .raise .runtimeError
  else (svc.gateway.charge record.invoice record.trackingId).attempt fun
    | .error (.paymentGatewayError message) => do
      svc.budgetRepository.release record.department record.reservedAmount
      svc.repository.save (record.declined message)
      svc.publish (record.declined message)
    | .error e => .raise e
    | .ok _ => do
      svc.repository.save record.completed
      svc.publish record.completed

/-- `_run_saga`. -/
def runSaga (invoice : Invoice) (decision : Decision) : Prog σ Exn Unit := do
  match ← svc.repository.get decision.correlationId with
  | some record => if record.status.terminal then return () else svc.executeCharge record
  | none =>
    (svc.budgetRepository.reserve invoice.department invoice.total).attempt fun
      | .error (.insufficientBudgetError _) => svc.reject invoice decision "insufficient department budget"
      | .error (.budgetNotFoundError _) =>
        svc.reject invoice decision ("no budget configured for department " ++ invoice.department)
      | .error e => .raise e
      | .ok _ => do
        let record := PaymentRecord.ofReservation invoice decision
        svc.repository.save record
        svc.executeCharge record

def handleDecisionCompleted (event : DecisionCompletedEvent) : Prog σ Exn Unit :=
  if event.decision.route ≠ .autoApprove then return () else svc.runSaga event.invoice event.decision

def handleApprovalCompleted (event : ApprovalCompletedEvent) : Prog σ Exn Unit :=
  if event.resolution ≠ .approved then return () else svc.runSaga event.invoice event.decision

def get (trackingId : String) : Prog σ Exn PaymentRecord := do
  match ← svc.repository.get trackingId with
  | none => .raise (.paymentNotFoundError trackingId)
  | some record => return record

def getBudget (department : String) : Prog σ Exn Budget := do
  match ← svc.budgetRepository.get department with
  | none => .raise (.budgetNotFoundError department)
  | some budget => return budget

end PaymentService

/-! ## The bodies, as tries -/

namespace PaymentService
variable {σ : Sig} (svc : PaymentService σ)

/-- Save a record, then announce it. -/
def saveAndPublish (record : PaymentRecord) : Prog σ Exn Unit :=
  (svc.repository.save record).attempt (.onOk fun _ => svc.publisher.publish record.event)

/-- The saga after the charge. -/
def afterCharge (record : PaymentRecord) : Except Exn Unit → Prog σ Exn Unit
  | .error (.paymentGatewayError message) =>
    (svc.budgetRepository.release record.department record.reservedAmount).attempt
      (.onOk fun _ => svc.saveAndPublish (record.declined message))
  | .error e => .raise e
  | .ok _ => svc.saveAndPublish record.completed

theorem executeCharge_eq {record : PaymentRecord} (h : record.status = .reserved) :
    svc.executeCharge record =
      (svc.gateway.charge record.invoice record.trackingId).attempt (svc.afterCharge record) := by
  unfold executeCharge
  rw [if_neg (not_not.mpr h)]
  rfl

/-- The saga on a stored record. -/
def resume (record : PaymentRecord) : Prog σ Exn Unit :=
  if record.status.terminal then .ret () else svc.executeCharge record

/-- The saga after the reservation. -/
def afterReserve (invoice : Invoice) (decision : Decision) : Except Exn Unit → Prog σ Exn Unit
  | .error (.insufficientBudgetError _) =>
    svc.saveAndPublish (.ofRejection invoice decision "insufficient department budget")
  | .error (.budgetNotFoundError _) =>
    svc.saveAndPublish (.ofRejection invoice decision
      ("no budget configured for department " ++ invoice.department))
  | .error e => .raise e
  | .ok _ => (svc.repository.save (.ofReservation invoice decision)).attempt
      (.onOk fun _ => svc.executeCharge (.ofReservation invoice decision))

/-- The saga after the guard. -/
def afterGet (invoice : Invoice) (decision : Decision) : Option PaymentRecord → Prog σ Exn Unit
  | some record => svc.resume record
  | none =>
    (svc.budgetRepository.reserve invoice.department invoice.total).attempt
      (svc.afterReserve invoice decision)

theorem runSaga_eq (invoice : Invoice) (decision : Decision) : svc.runSaga invoice decision =
    (svc.repository.get decision.correlationId).attempt (.onOk (svc.afterGet invoice decision)) := by
  rw [runSaga, Prog.bind_eq]
  refine Prog.attempt_congr fun r => ?_
  rcases r with e | _ | record <;> rfl

@[simp] theorem resume_of_terminal {record : PaymentRecord} (h : record.status.terminal = true) :
    svc.resume record = .ret () := if_pos h

theorem resume_of_reserved {record : PaymentRecord} (h : record.status = .reserved) :
    svc.resume record = svc.executeCharge record := by
  simp [resume, h, PaymentStatus.terminal]

/-- A reservation that raises is rejected, or the exception propagates. -/
theorem afterReserve_error (invoice : Invoice) (decision : Decision) (e : Exn) :
    svc.afterReserve invoice decision (.error e) = .raise e ∨
      ∃ reason, svc.afterReserve invoice decision (.error e) =
        svc.saveAndPublish (.ofRejection invoice decision reason) := by
  unfold afterReserve
  split
  · exact .inr ⟨_, rfl⟩
  · exact .inr ⟨_, rfl⟩
  · next h => cases h; exact .inl rfl
  · contradiction

end PaymentService

theorem PaymentStatus.terminal_eq_false {st : PaymentStatus} : st.terminal = false ↔ st = .reserved := by
  cases st <;> simp [PaymentStatus.terminal]

/-! ## Deliveries -/

/-- An event that a topic delivers to Payment. -/
inductive PaymentDelivery
  | decisionCompleted (event : DecisionCompletedEvent)
  | approvalCompleted (event : ApprovalCompletedEvent)
  deriving DecidableEq

namespace PaymentDelivery

/-- The invoice and the decision that the event triggers a payment for. -/
def trigger : PaymentDelivery → Option (Invoice × Decision)
  | decisionCompleted e => if e.decision.route ≠ .autoApprove then none else some (e.invoice, e.decision)
  | approvalCompleted e => if e.resolution ≠ .approved then none else some (e.invoice, e.decision)

def invoice : PaymentDelivery → Invoice
  | decisionCompleted e => e.invoice
  | approvalCompleted e => e.invoice

/-- The id that the event correlates with. -/
def trackingId : PaymentDelivery → String
  | decisionCompleted e => e.decision.correlationId
  | approvalCompleted e => e.decision.correlationId

theorem trigger_eq {delivery : PaymentDelivery} {i : Invoice} {dec : Decision}
    (h : delivery.trigger = some (i, dec)) :
    i = delivery.invoice ∧ dec.correlationId = delivery.trackingId := by
  cases delivery with
  | decisionCompleted e => simp only [trigger] at h; split_ifs at h; cases h; exact ⟨rfl, rfl⟩
  | approvalCompleted e => simp only [trigger] at h; split_ifs at h; cases h; exact ⟨rfl, rfl⟩

end PaymentDelivery

def PaymentService.handle {σ : Sig} (svc : PaymentService σ) : PaymentDelivery → Prog σ Exn Unit
  | .decisionCompleted event => svc.handleDecisionCompleted event
  | .approvalCompleted event => svc.handleApprovalCompleted event

theorem PaymentService.handle_eq {σ : Sig} (svc : PaymentService σ) (d : PaymentDelivery) :
    svc.handle d = match d.trigger with
      | none => .ret ()
      | some (invoice, decision) => svc.runSaga invoice decision := by
  cases d with
  | decisionCompleted e =>
    simp only [handle, handleDecisionCompleted, PaymentDelivery.trigger]
    split_ifs <;> rfl
  | approvalCompleted e =>
    simp only [handle, handleApprovalCompleted, PaymentDelivery.trigger]
    split_ifs <;> rfl

end ApprovalFlow
