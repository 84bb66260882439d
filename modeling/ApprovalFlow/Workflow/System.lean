import ApprovalFlow.Intake.DaprState
import ApprovalFlow.Decision.Decider
import ApprovalFlow.Approval.DaprState
import ApprovalFlow.Payment.DaprState
import ApprovalFlow.Notification.Service

/-!
# The workflow

Intake, Decision, Approval, Payment and Notification as one system: any number of handlers, interleaved
at every await, each service on its own state store, the services connected by the topics.

* `Message`: what is published. The broker keeps every message and may deliver it to a subscriber at any
  time, any number of times or never.
* `WorkflowOp`, `WorkflowState.perform`: what a handler awaits. Every operation may fail before or after
  it takes effect, with any exception; the model completes with any text; the gateway answers a new
  charge as it likes.
* `WorkflowCall`: what may be invoked: submissions, the deliveries of messages, the approvers' calls.
* `workflow`: the system.
-/

namespace ApprovalFlow
open Numeric Async

inductive Message
  | invoiceSubmitted (event : InvoiceSubmittedEvent)
  | decisionCompleted (event : DecisionCompletedEvent)
  | approvalCompleted (event : ApprovalCompletedEvent)
  | paymentCompleted (event : PaymentCompletedEvent)
  deriving DecidableEq

/-- The services that keep state. -/
inductive Service
  | intake
  | approval
  | payment
  | notification
  deriving DecidableEq

/-- What the documents of a service's store decode to. -/
@[reducible] def Service.Document : Service → Type
  | intake => IntakeValue
  | approval => ApprovalValue
  | payment => PaymentValue
  | notification => Unit

inductive WorkflowOp
  | state (service : Service) (o : Versioned.Op service.Document)
  | complete (systemPrompt userPrompt : String)
  | charge (invoice : Invoice) (idempotencyKey : String)
  | send (invoice : Invoice) (trackingId message source : String)
  | publishEvent (message : Message)

@[reducible] def WorkflowOp.Reply : WorkflowOp → Type
  | state _ o => o.Reply
  | complete _ _ => String
  | charge _ _ => Unit
  | send _ _ _ _ => Unit
  | publishEvent _ => Unit

abbrev workflowSig : Sig := ⟨WorkflowOp, WorkflowOp.Reply⟩

/-- The client of a service's store. -/
def workflowClient (service : Service) : StateClient workflowSig service.Document where
  getState key := @Prog.op workflowSig Exn (.state service (.get key))
  executeStateTransaction writes := @Prog.op workflowSig Exn (.state service (.transact writes))

def publishEvent (message : Message) : Prog workflowSig Exn Unit :=
  @Prog.op workflowSig Exn (.publishEvent message)

/-! ## The services -/

/-- What a deployment is configured with: the contract models' JSON, the arithmetic of the router and of
the budgets, the thresholds, the policy and its retrieval. -/
structure Deployment (ν : Type) where
  json : ContractJson
  arith : Arith ν
  rounding : Rounding
  thresholds : AutonomyThresholds
  policy : String
  retrieve : Invoice → Option String

def workflowIntake : IntakeService workflowSig where
  repository := daprStateInvoiceRepository (workflowClient .intake)
  publisher := ⟨DaprDecisionPublisher.publish fun e => publishEvent (.invoiceSubmitted e)⟩
  decisionCompletedPublisher :=
    ⟨DaprDecisionCompletedPublisher.publish fun e => publishEvent (.decisionCompleted e)⟩

def workflowApproval : ApprovalService workflowSig where
  repository := daprStateApprovalRepository (workflowClient .approval)
  publisher := ⟨DaprApprovalOutcomePublisher.publish fun e => publishEvent (.approvalCompleted e)⟩

def workflowNotification : NotificationService workflowSig where
  repository := daprStateNotificationRepository (workflowClient .notification)
  channel := ⟨fun i t m source => @Prog.op workflowSig Exn (.send i t m source)⟩

namespace Deployment
variable {ν : Type} (env : Deployment ν)

def decider : Decider workflowSig ν where
  provider := ⟨fun s u => @Prog.op workflowSig Exn (.complete s u)⟩
  json := env.json
  arith := env.arith
  thresholds := env.thresholds
  policy := env.policy
  retrieve := env.retrieve

def decision : DecisionService workflowSig ν where
  decider := env.decider
  outcomePublisher := ⟨DaprDecisionOutcomePublisher.publish fun e => publishEvent (.decisionCompleted e)⟩

def payment : PaymentService workflowSig where
  repository := daprStatePaymentRepository (workflowClient .payment)
  budgetRepository := daprStateBudgetRepository (workflowClient .payment) env.rounding
  publisher := ⟨DaprPaymentOutcomePublisher.publish fun e => publishEvent (.paymentCompleted e)⟩
  gateway := ⟨fun i k => @Prog.op workflowSig Exn (.charge i k)⟩

end Deployment

/-! ## Calls -/

/-- What may be invoked. `submit` draws its tracking id; `process` runs in the background of a
submission. -/
inductive WorkflowCall
  | submit (trackingId : String) (invoice : Invoice)
  | process (trackingId : String)
  | complete (event : DecisionCompletedEvent)
  | decide (event : InvoiceSubmittedEvent)
  | approval (call : ApprovalCall)
  | seed (department : String) (total : Decimal)
  | pay (delivery : PaymentDelivery)
  | notify (delivery : NotificationDelivery)
  deriving DecidableEq

/-- The message that is delivered. -/
def PaymentDelivery.message : PaymentDelivery → Message
  | decisionCompleted e => .decisionCompleted e
  | approvalCompleted e => .approvalCompleted e

/-- The message that is delivered. -/
def NotificationDelivery.message : NotificationDelivery → Message
  | decisionCompleted e => .decisionCompleted e
  | approvalCompleted e => .approvalCompleted e
  | paymentCompleted e => .paymentCompleted e

/-- The message that a call handles, if it handles one. -/
def WorkflowCall.message : WorkflowCall → Option Message
  | complete e => some (.decisionCompleted e)
  | decide e => some (.invoiceSubmitted e)
  | approval (.decisionCompleted e) => some (.decisionCompleted e)
  | pay delivery => some delivery.message
  | notify delivery => some delivery.message
  | _ => none

/-- What a call runs. -/
def Deployment.body {ν : Type} (env : Deployment ν) : WorkflowCall → Prog workflowSig Exn Unit
  | .submit t i => (fun _ => ()) <$> workflowIntake.submit t i
  | .process t => workflowIntake.process t
  | .complete e => workflowIntake.complete e.decision.correlationId e.decision
  | .decide e => env.decision.handleInvoiceSubmitted e
  | .approval c => (fun _ => ()) <$> workflowApproval.call c
  | .seed d x => env.payment.budgetRepository.ensureSeeded d x
  | .pay delivery => env.payment.handle delivery
  | .notify delivery => workflowNotification.handle delivery

/-! ## The state -/

structure WorkflowState where
  issued : List String
  stores : (service : Service) → Versioned.Store service.Document
  gateway : Gateway
  published : List Message

/-- What the environment chooses for an operation: what becomes of the request, the exception if it
fails, the gateway's answer to a new charge, and the model's completion. -/
structure WorkflowChoice where
  reception : Versioned.Reception
  failure : Exn
  verdict : Option String
  completion : String

namespace WorkflowState

def empty : WorkflowState := ⟨[], fun _ => .empty, .empty, []⟩

/-- A request that is served with `reply` and leaves `s'`. -/
def receive {α : Type} (c : WorkflowChoice) (s : WorkflowState) (reply : Except Exn α)
    (s' : WorkflowState) : Except Exn α × WorkflowState :=
  match c.reception with
  | .serve => (reply, s')
  | .refuse => (.error c.failure, s)
  | .lose => (.error c.failure, s')

def perform (c : WorkflowChoice) : (o : WorkflowOp) → WorkflowState → Except Exn o.Reply × WorkflowState
  | .state service o, s =>
    let r := o.perform c.failure c.reception (s.stores service)
    (r.1, { s with stores := Function.update s.stores service r.2 })
  | .complete _ _, s => receive c s (.ok c.completion) s
  | .charge _ k, s =>
    receive c s (s.gateway.charge c.verdict k).1 { s with gateway := (s.gateway.charge c.verdict k).2 }
  | .send _ _ _ _, s => receive c s (.ok ()) s
  | .publishEvent m, s => receive c s (.ok ()) { s with published := s.published ++ [m] }

/-- A call may be made: a drawn id is fresh, a background task is one of a submission, a message was
published. -/
def invoke (call : WorkflowCall) (s : WorkflowState) : Option WorkflowState :=
  match call with
  | .submit t _ => if t ∈ s.issued then none else some { s with issued := t :: s.issued }
  | .process t => if t ∈ s.issued then some s else none
  | call =>
    match call.message with
    | none => some s
    | some m => if m ∈ s.published then some s else none

/-! ### What an operation can do -/

section
variable {c : WorkflowChoice} {s : WorkflowState}

theorem receive_keeps {α β : Type} (f : WorkflowState → β) {reply : Except Exn α}
    {s' : WorkflowState} (h : f s' = f s) : f (receive c s reply s').2 = f s := by
  unfold receive
  cases c.reception
  · exact h
  · rfl
  · exact h

theorem issued_perform (o : WorkflowOp) : (s.perform c o).2.issued = s.issued := by
  cases o with
  | state service o => rfl
  | complete _ _ => exact receive_keeps (·.issued) rfl
  | charge _ _ => exact receive_keeps (·.issued) rfl
  | send _ _ _ _ => exact receive_keeps (·.issued) rfl
  | publishEvent _ => exact receive_keeps (·.issued) rfl

theorem published_perform (o : WorkflowOp) : (s.perform c o).2.published = s.published ∨
    ∃ m, o = .publishEvent m ∧ (s.perform c o).2.published = s.published ++ [m] := by
  cases o with
  | state service o => exact .inl rfl
  | complete _ _ => exact .inl (receive_keeps (·.published) rfl)
  | charge _ _ => exact .inl (receive_keeps (·.published) rfl)
  | send _ _ _ _ => exact .inl (receive_keeps (·.published) rfl)
  | publishEvent m =>
    simp only [perform, receive]
    cases c.reception
    · exact .inr ⟨m, rfl, rfl⟩
    · exact .inl rfl
    · exact .inr ⟨m, rfl, rfl⟩

theorem stores_perform (o : WorkflowOp) (service : Service) :
    (s.perform c o).2.stores service = s.stores service ∨
      ∃ ws, o = .state service (.transact ws) ∧ c.reception ≠ .refuse ∧ (s.stores service).Current ws ∧
        (s.perform c o).2.stores service = (s.stores service).puts ws := by
  cases o with
  | state service' o =>
    by_cases h : service = service'
    · subst h
      have hstore : (s.perform c (.state service o)).2.stores service =
          (o.perform c.failure c.reception (s.stores service)).2 := Function.update_self _ _ _
      rw [hstore]
      rcases o.perform_store c.failure c.reception (s.stores service) with
          h | ⟨ws, rfl, hserved, hcurrent, h⟩
      · exact .inl h
      · exact .inr ⟨ws, rfl, hserved, hcurrent, h⟩
    · exact .inl (Function.update_of_ne h _ _)
  | complete _ _ => exact .inl (receive_keeps (·.stores service) rfl)
  | charge _ _ => exact .inl (receive_keeps (·.stores service) rfl)
  | send _ _ _ _ => exact .inl (receive_keeps (·.stores service) rfl)
  | publishEvent _ => exact .inl (receive_keeps (·.stores service) rfl)

theorem stores_of_ok {service : Service} {ws : List (Versioned.Write service.Document)}
    (h : (s.perform c (.state service (.transact ws))).1 = .ok ()) :
    (s.perform c (.state service (.transact ws))).2.stores service = (s.stores service).puts ws := by
  have hstore : (s.perform c (.state service (.transact ws))).2.stores service =
      ((Versioned.Op.transact ws).perform c.failure c.reception (s.stores service)).2 :=
        Function.update_self _ _ _
  rw [hstore]
  exact Versioned.Op.puts_of_ok h

/-- What making a call changes: a submission draws a fresh id. -/
theorem invoke_cases {call : WorkflowCall} {s' : WorkflowState} (h : invoke call s = some s') :
    (∃ t invoice, call = .submit t invoice ∧ t ∉ s.issued ∧ s' = { s with issued := t :: s.issued }) ∨
      (∀ t invoice, call ≠ .submit t invoice) ∧ s' = s ∧ ∀ m, call.message = some m → m ∈ s.published := by
  cases call with
  | submit t invoice =>
    simp only [invoke] at h
    split_ifs at h with ht
    exact .inl ⟨t, invoice, rfl, ht, (Option.some.inj h).symm⟩
  | process t =>
    simp only [invoke] at h
    split_ifs at h with ht
    exact .inr ⟨(fun _ _ h => by cases h), (Option.some.inj h).symm, fun m hm => by cases hm⟩
  | _ =>
    refine .inr ⟨(fun _ _ h => by cases h), ?_⟩
    simp only [invoke] at h
    split at h
    · next hnone =>
      refine ⟨(Option.some.inj h).symm, fun m hm => ?_⟩
      rw [hnone] at hm
      cases hm
    · next m hsome =>
      split_ifs at h with hm
      refine ⟨(Option.some.inj h).symm, fun m' hm' => ?_⟩
      rw [hsome] at hm'
      cases hm'
      exact hm

end

end WorkflowState

def workflow {ν : Type} (env : Deployment ν) :
    System workflowSig Exn Unit WorkflowState WorkflowChoice WorkflowCall where
  body := env.body
  invoke := WorkflowState.invoke
  exec := WorkflowState.perform

/-! ## A deployment -/

/-- The default thresholds, a model that answers in plain JSON, amounts in the default context. -/
def plainDeployment : Deployment Decimal where
  json := PlainJson.json
  arith := Arith.decimal defaultContext
  rounding := defaultContext.rounding
  thresholds := defaultThresholds
  policy := ""
  retrieve _ := some ""

/-- The request is served, a new charge is accepted, and the model recommends so. -/
def WorkflowChoice.recommending (kind : String) : WorkflowChoice where
  reception := .serve
  failure := .rpcError ""
  verdict := none
  completion := PlainJson.recommendationText kind

/-- Thread `i` performs `n` operations. -/
def steps (i n : Nat) (kind : String) : List (Action WorkflowChoice WorkflowCall) :=
  List.replicate n (.step i (.recommending kind))

end ApprovalFlow
