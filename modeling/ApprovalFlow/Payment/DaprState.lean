import ApprovalFlow.Payment.InMemory
import ApprovalFlow.Shared.IndexedState
import ApprovalFlow.Async.Pool

/-!
# Payment over the Dapr state store

`payment:{tracking_id}` holds a record, `payment:index` the ids of all records, `budget:{department}` a
budget.

* `PaymentValue`: what a document of the store decodes to.
* `DaprStatePaymentRepository`: a record and the index are written in one transaction, conditional on the
  index.
* `DaprStateBudgetRepository`: a budget is read and written conditionally, up to five times.
* `paymentClients`: any number of concurrent deliveries to the service on one store.
-/

namespace ApprovalFlow
open Numeric Async

/-- The documents of Payment's store. -/
inductive PaymentValue
  | record (payment : PaymentRecord)
  | index (trackingIds : List String)
  | budget (budget : Budget)
  deriving DecidableEq

namespace PaymentValue

/-- `PaymentRecord.model_validate_json`. -/
def toRecord : PaymentValue → Except Exn PaymentRecord
  | record payment => .ok payment
  | _ => .error .validationError

/-- `Budget.model_validate_json`. -/
def toBudget : PaymentValue → Except Exn Budget
  | budget b => .ok b
  | _ => .error .validationError

/-- `list(json.loads(raw))`: of an object, its keys. -/
def toIndex : PaymentValue → List String
  | record _ => ["tracking_id", "invoice", "decision", "status", "department", "reserved_amount", "reason"]
  | index ids => ids
  | budget _ => ["department", "total", "remaining"]

end PaymentValue

namespace DaprStatePaymentRepository

/-- `payment:{tracking_id}` and `payment:index`. -/
def layout : IndexedLayout PaymentValue PaymentRecord where
  keyPrefix := "payment:"
  trackingId := PaymentRecord.trackingId
  record := .record
  index := .index
  toRecord := PaymentValue.toRecord
  toIndex := PaymentValue.toIndex
  readIndexError details := .paymentRepositoryError (.text ("Failed to read payment index: " ++ details))
  readError details := .paymentRepositoryError (.text ("Failed to read payment: " ++ details))
  retriesError trackingId := .paymentRepositoryError (.exceededRetries "saving payment" trackingId)

variable {σ : Sig} (client : StateClient σ PaymentValue)

def save (payment : PaymentRecord) : Prog σ Exn Unit := IndexedState.save client layout payment

def get (trackingId : String) : Prog σ Exn (Option PaymentRecord) :=
  IndexedState.get client layout trackingId

def listAll : Prog σ Exn (List PaymentRecord) := IndexedState.listAll client layout

end DaprStatePaymentRepository

def daprStatePaymentRepository {σ : Sig} (client : StateClient σ PaymentValue) : PaymentRepository σ where
  save := DaprStatePaymentRepository.save client
  get := DaprStatePaymentRepository.get client
  listAll := DaprStatePaymentRepository.listAll client

namespace DaprStateBudgetRepository
variable {σ : Sig} (client : StateClient σ PaymentValue) (rnd : Rounding)

def key (department : String) : String := "budget:" ++ department

def readError (details : String) : Exn :=
  .budgetRepositoryError (.text ("Failed to read budget: " ++ details))

/-- Where a budget is absent, write the seed; a lost race is no error. -/
def ensureSeeded (department : String) (total : Decimal) : Prog σ Exn Unit := do
  let (data, etag) ← client.read
    (fun details => .budgetRepositoryError (.text ("Failed to read budget for seeding: " ++ details)))
      (key department)
  match data with
  | some _ => return ()
  | none => client.write [⟨key department, .budget ⟨department, total, total⟩, some etag⟩] (return ())

def get (department : String) : Prog σ Exn (Option Budget) := do
  let (data, _) ← client.read readError (key department)
  match data with
  | none => return none
  | some data => some <$> Prog.ofExcept data.toBudget

/-- The attempts that are left of a change of a budget: read it, write what `f` makes of it,
conditionally. -/
def updateLoop (f : Budget → Except Exn Budget) (action department : String) : Nat → Prog σ Exn Unit
  | 0 => .raise (.budgetRepositoryError (.exceededRetries action department))
  | n + 1 => do
    let (data, etag) ← client.read readError (key department)
    match data with
    | none => .raise (.budgetNotFoundError department)
    | some data =>
      let budget ← Prog.ofExcept data.toBudget
      let updated ← Prog.ofExcept (f budget)
      client.write [⟨key department, .budget updated, some etag⟩] (updateLoop f action department n)

def reserve (department : String) (amount : Decimal) : Prog σ Exn Unit :=
  updateLoop client (InMemoryBudgetRepository.reserved rnd department amount) "reserving budget for"
    department maxRetries

def release (department : String) (amount : Decimal) : Prog σ Exn Unit :=
  updateLoop client (InMemoryBudgetRepository.released rnd department amount) "releasing budget for"
    department maxRetries

/-- What an attempt writes, or raises, for the document it read. -/
def updated (f : Budget → Except Exn Budget) (department : String) : Option PaymentValue → Except Exn Budget
  | none => .error (.budgetNotFoundError department)
  | some data => data.toBudget.bind f

/-- One attempt: a read and a conditional write. -/
theorem updateLoop_succ (f : Budget → Except Exn Budget) (action department : String) (n : Nat) :
    updateLoop client f action department (n + 1) =
      (client.getState (key department)).attempt (StateClient.afterRead readError fun response =>
        match updated f department response.1 with
        | .error e => .raise e
        | .ok budget =>
          (client.executeStateTransaction [⟨key department, .budget budget, some response.2⟩]).attempt
            (StateClient.afterWrite (updateLoop client f action department n))) := by
  rw [updateLoop, client.read_bind]
  congr 2
  funext ⟨data, etag⟩
  cases data with
  | none => rfl
  | some data =>
    simp only [updated]
    cases hb : data.toBudget with
    | error e => rfl
    | ok b =>
      simp only [Prog.ofExcept_ok, Prog.bind_eq, Prog.attempt_ret, Prog.onOk_ok, Except.bind]
      cases f b with
      | error e => rfl
      | ok u => rw [Prog.ofExcept_ok, Prog.attempt_ret, Prog.onOk_ok, client.write_eq]

theorem ensureSeeded_eq (department : String) (total : Decimal) :
    ensureSeeded client department total =
      (client.getState (key department)).attempt (StateClient.afterRead
        (fun details => .budgetRepositoryError (.text ("Failed to read budget for seeding: " ++ details)))
        fun response => match response.1 with
          | some _ => .ret ()
          | none => (client.executeStateTransaction
              [⟨key department, .budget ⟨department, total, total⟩, some response.2⟩]).attempt
                (StateClient.afterWrite (.ret ()))) := by
  rw [ensureSeeded, client.read_bind]
  congr 2
  funext ⟨data, etag⟩
  cases data with
  | none => exact client.write_eq _ _
  | some data => rfl

theorem key_ne (department trackingId : String) :
    key department ≠ DaprStatePaymentRepository.layout.key trackingId := by
  intro h
  have hlist := congrArg String.toList h
  simp only [key, IndexedLayout.key, DaprStatePaymentRepository.layout, String.toList_append] at hlist
  cases hlist

end DaprStateBudgetRepository

def daprStateBudgetRepository {σ : Sig} (client : StateClient σ PaymentValue) (rnd : Rounding) :
    BudgetRepository σ where
  ensureSeeded := DaprStateBudgetRepository.ensureSeeded client
  get := DaprStateBudgetRepository.get client
  reserve := DaprStateBudgetRepository.reserve client rnd
  release := DaprStateBudgetRepository.release client rnd

/-- `publish` over the `publish_event` of the Dapr client. -/
def DaprPaymentOutcomePublisher.publish {σ : Sig} (publishEvent : PaymentCompletedEvent → Prog σ Exn Unit) :
    PaymentCompletedEvent → Prog σ Exn Unit :=
  publishOrRaise (fun details =>
    .paymentOutcomePublisherError ("Failed to publish payment.completed: " ++ details)) publishEvent

/-! ## The service on one sidecar -/

inductive PaymentDaprOp
  | state (o : Versioned.Op PaymentValue)
  | charge (invoice : Invoice) (idempotencyKey : String)
  | publishEvent (event : PaymentCompletedEvent)

@[reducible] def PaymentDaprOp.Reply : PaymentDaprOp → Type
  | state o => o.Reply
  | charge _ _ => Unit
  | publishEvent _ => Unit

abbrev paymentDaprSig : Sig := ⟨PaymentDaprOp, PaymentDaprOp.Reply⟩

def paymentStateClient : StateClient paymentDaprSig PaymentValue where
  getState key := @Prog.op paymentDaprSig Exn (.state (.get key))
  executeStateTransaction writes := @Prog.op paymentDaprSig Exn (.state (.transact writes))

def daprPayment (rnd : Rounding) : PaymentService paymentDaprSig where
  repository := daprStatePaymentRepository paymentStateClient
  budgetRepository := daprStateBudgetRepository paymentStateClient rnd
  publisher := ⟨DaprPaymentOutcomePublisher.publish fun e => @Prog.op paymentDaprSig Exn (.publishEvent e)⟩
  gateway := ⟨fun i k => @Prog.op paymentDaprSig Exn (.charge i k)⟩

structure PaymentDapr where
  store : Versioned.Store PaymentValue
  gateway : Gateway
  published : List PaymentCompletedEvent

/-- Every operation is served, a new charge is answered by `verdict`; a transaction with a stale etag is
refused. -/
def PaymentDapr.perform (verdict : Option String) :
    (o : PaymentDaprOp) → PaymentDapr → Except Exn o.Reply × PaymentDapr
  | .state o, s =>
    let r := o.perform (.rpcError "") .serve s.store
    (r.1, { s with store := r.2 })
  | .charge _ k, s =>
    let r := s.gateway.charge verdict k
    (r.1, { s with gateway := r.2 })
  | .publishEvent e, s => (.ok (), { s with published := s.published ++ [e] })

/-- Concurrent deliveries of events that trigger a payment of `t`. -/
def paymentClients (rnd : Rounding) (t : String) :
    System paymentDaprSig Exn Unit PaymentDapr (Option String) PaymentDelivery where
  body := (daprPayment rnd).handle
  invoke delivery s := if delivery.trigger.any (·.2.correlationId == t) then some s else none
  exec v o s := s.perform v o

end ApprovalFlow
