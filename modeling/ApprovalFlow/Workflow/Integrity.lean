import ApprovalFlow.Async.Contract
import ApprovalFlow.Workflow.Ceiling
import ApprovalFlow.Workflow.Exclusive

/-!
# What the services hand on

Every handler, checked on its own against one contract: it hands on an invoice only under the tracking id
under which it read or was given it, calls a payment completed only after the gateway did, announces a
payment only as it was saved, and marks an id as notified only after it sent.

* `Facts`: what the handlers may rely on; `Facts.Document`, `Facts.Genuine`: what documents and messages
  say of it.
* `Facts.contract`: what is asked of every operation, and what its reply gives.
* `keeps_body`: every handler keeps the contract; `honoured`: the state of the workflow honours it.
* `invoices_unchanged`, `recorded_happened`, `executions_le_submissions`: what follows for every
  interleaving.
-/

namespace ApprovalFlow.Workflow
open Numeric Async Versioned

/-- The invoices that were submitted, each with its tracking id; the ids that were charged; the payments
that were saved; the ids that were notified. -/
structure Facts where
  submitted : Invoice → String → Prop
  charged : String → Prop
  saved : PaymentRecord → Prop
  sent : String → Prop

namespace Facts
variable (F : Facts)

/-- A payment is about a submitted invoice, and completed only if it was charged. -/
structure Paid (p : PaymentRecord) : Prop where
  keyed : p.decision.correlationId = p.trackingId
  submitted : F.submitted p.invoice p.trackingId
  charged : p.status = .completed → F.charged p.trackingId

/-- What a document under a key says. -/
def Document : (service : Service) → String → service.Document → Prop
  | .intake, key, .submission s =>
    key = DaprStateInvoiceRepository.submissionKey s.trackingId ∧ F.submitted s.invoice s.trackingId
  | .intake, _, .pointer _ => True
  | .approval, _, .record a => a.decision.correlationId = a.trackingId ∧ F.submitted a.invoice a.trackingId
  | .approval, _, .index _ => True
  | .payment, _, .record p => F.Paid p
  | .payment, _, .index _ => True
  | .payment, _, .budget _ => True
  | .notification, key, _ => ∃ t, key = DaprStateNotificationRepository.key t ∧ F.sent t

/-- What a message says. -/
def Genuine : Message → Prop
  | .invoiceSubmitted e => F.submitted e.invoice e.correlationId
  | .decisionCompleted e => F.submitted e.invoice e.decision.correlationId
  | .approvalCompleted e => F.submitted e.invoice e.decision.correlationId
  | .paymentCompleted e => F.submitted e.invoice e.decision.correlationId ∧
    (e.resolution = .completed → F.charged e.decision.correlationId) ∧
    ∃ p, F.saved p ∧ p.decision.correlationId = p.trackingId ∧ p.event = e

/-- The payments that a transaction saves were saved. -/
def SavesPayments (ws : List (Write PaymentValue)) : Prop :=
  ∀ u ∈ ws, ∀ p, u.key = paymentKey p.trackingId → u.data = .record p → F.saved p

def contract : Contract workflowSig Exn where
  asks
    | .state service (.transact ws) => ∀ u ∈ ws, F.Document service u.key u.data
    | .charge invoice t => F.submitted invoice t
    | .send invoice t _ _ => F.submitted invoice t
    | .publishEvent m => F.Genuine m
    | _ => True
  gives
    | .state service (.get key), .ok response => ∀ d, response.1 = some d → F.Document service key d
    | .state .payment (.transact ws), .ok _ => F.SavesPayments ws
    | .charge _ t, .ok _ => F.charged t
    | .send _ t _ _, .ok _ => F.sent t
    | _, _ => True

/-! ## The clients -/

variable {F}

theorem keeps_getState (service : Service) (key : String) :
    F.contract.Keeps ((workflowClient service).getState key) fun r =>
      ∀ response, r = .ok response → ∀ d, response.1 = some d → F.Document service key d :=
  @Contract.keeps_op workflowSig Exn F.contract (.state service (.get key)) _ trivial
    fun r hr response hresponse => by
    rw [hresponse] at hr
    exact hr

theorem keeps_transact (service : Service) {ws : List (Write service.Document)}
    (h : ∀ u ∈ ws, F.Document service u.key u.data) :
    F.contract.Keeps ((workflowClient service).executeStateTransaction ws)
      (F.contract.gives (.state service (.transact ws))) :=
  @Contract.keeps_op workflowSig Exn F.contract (.state service (.transact ws)) _ h fun _ hr => hr

theorem keeps_publish {E : Type} (message : E → Message) {error : String → Exn} {e : E}
    (h : F.Genuine (message e)) :
    F.contract.Keeps (publishOrRaise error (fun e => publishEvent (message e)) e) fun _ => True := by
  refine Contract.Keeps.handle (Φ := fun _ => True) ?_ (fun e _ => ?_) fun _ _ => trivial
  · exact @Contract.keeps_op workflowSig Exn F.contract (.publishEvent (message e)) _ h fun _ _ => trivial
  · cases e <;> trivial

theorem keeps_get (service : Service) {R : Type} (layout : IndexedLayout service.Document R) (t : String) :
    F.contract.Keeps (IndexedState.get (workflowClient service) layout t) fun r =>
      ∀ a, r = .ok (some a) → ∃ d, F.Document service (layout.key t) d ∧ layout.toRecord d = .ok a := by
  rw [IndexedState.get_eq]
  refine (keeps_getState service _).attempt fun r hr => ?_
  cases r with
  | error e => exact fun a ha => by cases ha
  | ok response =>
    refine Contract.keeps_ofExcept fun a ha => ?_
    cases hd : response.1 with
    | none =>
      rw [hd] at ha
      cases ha
    | some d =>
      refine ⟨d, hr response rfl d hd, ?_⟩
      rw [hd] at ha
      simp only [IndexedState.found] at ha
      cases hrecord : layout.toRecord d with
      | error e =>
        rw [hrecord] at ha
        cases ha
      | ok b =>
        rw [hrecord] at ha
        cases ha
        rfl

theorem keeps_afterWrite {retry : Prog workflowSig Exn Unit} {Φ : Except Exn Unit → Prop}
    (h : F.contract.Keeps retry Φ)
    {r : Except Exn Unit} (hok : r = .ok () → Φ (.ok ())) (herror : ∀ e, Φ (.error e)) :
    F.contract.Keeps (StateClient.afterWrite retry r) Φ := by
  rcases r with e | u
  · cases e
    case rpcError details => exact h
    all_goals exact herror _
  · exact hok rfl

/-- A save of an indexed repository; a transaction that was answered gives `Done`. -/
theorem keeps_save (service : Service) {R : Type} (layout : IndexedLayout service.Document R)
    {r : R} {Done : Prop}
    (h : ∀ ids etag, ∀ u ∈ IndexedState.writes layout r ids etag, F.Document service u.key u.data)
    (hdone : ∀ ids etag, F.contract.gives
      (.state service (.transact (IndexedState.writes layout r ids etag))) (.ok ()) → Done) :
    F.contract.Keeps (IndexedState.save (workflowClient service) layout r) fun result =>
      result = .ok () → Done := by
  unfold IndexedState.save
  generalize maxRetries = n
  induction n with
  | zero => exact fun hr => by cases hr
  | succ n ih =>
    rw [IndexedState.saveLoop_succ]
    refine (keeps_getState service _).attempt fun reply _ => ?_
    cases reply with
    | error e => exact fun hr => by cases hr
    | ok response =>
      refine (keeps_transact service (h _ _)).attempt fun reply hreply => ?_
      refine keeps_afterWrite ih (fun hr _ => ?_) fun e hr => by cases hr
      rw [hr] at hreply
      exact hdone _ _ hreply

/-! ## Intake -/

section Intake
variable {t : String}

theorem keeps_saveSubmission {s : Submission} (h : F.submitted s.invoice s.trackingId) :
    F.contract.Keeps (workflowIntake.repository.save s) fun _ => True := by
  have hwrites : ∀ u ∈ DaprStateInvoiceRepository.writes s, F.Document .intake u.key u.data := by
    intro u hu
    rcases List.mem_pair.mp hu with rfl | rfl
    · exact ⟨rfl, h⟩
    · trivial
  refine (keeps_transact .intake hwrites).handle (fun e _ => ?_) fun _ _ => trivial
  cases e <;> trivial

theorem keeps_getSubmission (t : String) : F.contract.Keeps (workflowIntake.repository.get t) fun r =>
    ∀ s, r = .ok (some s) → s.trackingId = t ∧ F.submitted s.invoice t := by
  show F.contract.Keeps (DaprStateInvoiceRepository.get (workflowClient .intake) t) _
  rw [DaprStateInvoiceRepository.get_eq]
  refine (keeps_getState .intake _).attempt fun r hr => ?_
  cases r with
  | error e => exact fun s hs => by cases hs
  | ok response =>
    refine Contract.keeps_ofExcept fun s hs => ?_
    have hdocument := hr response rfl
    rcases hd : response.1 with _ | s' | t'
    · rw [hd] at hs
      cases hs
    · rw [hd] at hs
      cases hs
      obtain ⟨hkey, hsubmitted⟩ := hdocument _ hd
      have hid : t = s.trackingId := (String.append_right_inj "submission:").mp hkey
      exact ⟨hid.symm, hid ▸ hsubmitted⟩
    · rw [hd] at hs
      cases hs

theorem keeps_findByDedupKey (key : String) :
    F.contract.Keeps (workflowIntake.repository.findByDedupKey key) fun _ => True := by
  show F.contract.Keeps (DaprStateInvoiceRepository.findByDedupKey (workflowClient .intake) key) _
  rw [DaprStateInvoiceRepository.findByDedupKey, StateClient.read_bind]
  refine (keeps_getState .intake _).attempt fun r _ => ?_
  rcases r with e | ⟨data, etag⟩
  · trivial
  · simp only [StateClient.afterRead]
    split
    · trivial
    · trivial
    · refine (keeps_getSubmission _).bind (fun found _ => ?_) fun _ _ => trivial
      cases found <;> trivial
    · trivial

theorem keeps_submit {invoice : Invoice} (h : F.submitted invoice t) :
    F.contract.Keeps ((fun _ => ()) <$> workflowIntake.submit t invoice) fun _ => True := by
  rw [Prog.map_eq]
  refine Contract.Keeps.attempt (Φ := fun _ => True) ?_ fun r _ => by cases r <;> trivial
  refine (keeps_findByDedupKey _).bind (fun existing _ => ?_) fun _ _ => trivial
  exact (keeps_saveSubmission h).bind (fun _ _ => trivial) fun _ _ => trivial

theorem keeps_complete (t : String) (d : Decision) :
    F.contract.Keeps (workflowIntake.complete t d) fun _ => True := by
  refine (keeps_getSubmission t).bind (fun found hfound => ?_) fun _ _ => trivial
  cases found with
  | none => trivial
  | some s =>
    obtain ⟨hid, hs⟩ := hfound s rfl
    dsimp only
    split_ifs
    · trivial
    · exact keeps_saveSubmission (hid ▸ hs)

theorem keeps_processDuplicate {s : Submission} (h : F.submitted s.invoice t) :
    F.contract.Keeps (workflowIntake.processDuplicate t s) fun _ => True := by
  unfold IntakeService.processDuplicate
  split_ifs
  · trivial
  · refine (keeps_complete t _).bind (fun _ _ => ?_) fun _ _ => trivial
    refine (keeps_publish .decisionCompleted (e := ⟨s.invoice, buildDuplicateDecision t, none⟩) h).handle
      (fun e _ => ?_) fun _ _ => trivial
    cases e <;> trivial

theorem keeps_processNew {s : Submission} (hid : s.trackingId = t) (h : F.submitted s.invoice t) :
    F.contract.Keeps (workflowIntake.processNew t s) fun _ => True := by
  have hs : F.submitted s.invoice s.trackingId := hid.symm ▸ h
  refine (keeps_saveSubmission (s := { s with status := .processing }) hs).bind
    (fun _ _ => ?_) fun _ _ => trivial
  refine (keeps_publish .invoiceSubmitted (e := ⟨s.invoice, t⟩) h).handle (fun e _ => ?_) fun _ _ => trivial
  cases e
  case decisionPublisherError message =>
    exact keeps_saveSubmission (s := { s with status := .failed, error := some message }) hs
  all_goals trivial

theorem keeps_process (t : String) : F.contract.Keeps (workflowIntake.process t) fun _ => True := by
  refine (keeps_getSubmission t).bind (fun found hfound => ?_) fun _ _ => trivial
  cases found with
  | none => trivial
  | some s =>
    obtain ⟨hid, hs⟩ := hfound s rfl
    dsimp only
    split_ifs
    · exact keeps_processDuplicate hs
    · exact keeps_processNew hid hs

end Intake

/-! ## Decision -/

theorem keeps_decide {ν : Type} (env : Deployment ν) {e : InvoiceSubmittedEvent}
    (h : F.submitted e.invoice e.correlationId) :
    F.contract.Keeps (env.decision.handleInvoiceSubmitted e) fun _ => True := by
  have hdecide : F.contract.Keeps (env.decider.decide e.invoice e.correlationId false) fun r =>
      ∀ outcome, r = .ok outcome → outcome.decision.correlationId = e.correlationId := by
    rw [Decider.decide_eq]
    refine Contract.Keeps.attempt (Φ := fun _ => True) ?_ fun reply _ => ?_
    · exact @Contract.keeps_op workflowSig Exn F.contract (.complete _ _) _ trivial fun _ _ => trivial
    · exact Contract.keeps_ofExcept fun outcome houtcome =>
        (Router.routeDecision_routed (Decider.conclude_routed houtcome)).1
  refine hdecide.bind (fun outcome houtcome => ?_) fun _ _ => trivial
  refine keeps_publish .decisionCompleted ?_
  show F.submitted e.invoice outcome.decision.correlationId
  rw [houtcome outcome rfl]
  exact h

/-! ## Approval -/

theorem keeps_saveApproval {a : PendingApproval} (hid : a.decision.correlationId = a.trackingId)
    (h : F.submitted a.invoice a.trackingId) :
    F.contract.Keeps (workflowApproval.repository.save a) fun _ => True := by
  refine (keeps_save .approval DaprStateApprovalRepository.layout (fun ids etag u hu => ?_)
    fun _ _ _ => True.intro).mono fun _ _ => trivial
  rcases List.mem_pair.mp hu with rfl | rfl
  · exact ⟨hid, h⟩
  · trivial

theorem submitted_of_plan {c : ApprovalCall} {stored : Option PendingApproval} {u : PendingApproval}
    {announce : Option ApprovalResolution} (hplan : c.plan stored = .write u announce)
    (hstored : ∀ a, stored = some a → a.decision.correlationId = a.trackingId ∧
      F.submitted a.invoice a.trackingId)
    (hdelivered : ∀ e, c = .decisionCompleted e → F.submitted e.invoice e.decision.correlationId) :
    u.decision.correlationId = u.trackingId ∧ F.submitted u.invoice u.trackingId := by
  rcases (ApprovalCall.plan_write hplan).2 with ⟨e, rfl, -, rfl⟩ | ⟨a, ha, -, hu⟩
  · exact ⟨rfl, hdelivered e rfl⟩
  · rw [hu]
    exact hstored a ha

theorem keeps_approval (c : ApprovalCall)
    (hdelivered : ∀ e, c = .decisionCompleted e → F.submitted e.invoice e.decision.correlationId) :
    F.contract.Keeps ((fun _ => ()) <$> workflowApproval.call c) fun _ => True := by
  rw [Prog.map_eq]
  refine Contract.Keeps.attempt (Φ := fun _ => True) ?_ fun r _ => by cases r <;> trivial
  rw [ApprovalService.call_eq]
  split_ifs
  · trivial
  · refine (keeps_get .approval DaprStateApprovalRepository.layout c.trackingId).attempt fun r hr => ?_
    cases r with
    | error e => trivial
    | ok stored =>
      have hstored (a : PendingApproval) (ha : stored = some a) :
          a.decision.correlationId = a.trackingId ∧ F.submitted a.invoice a.trackingId := by
        obtain ⟨d, hd, hrecord⟩ := hr a (ha ▸ rfl)
        cases d with
        | index ids => cases hrecord
        | record a' =>
          cases hrecord
          exact hd
      rw [Prog.onOk_ok]
      cases hplan : c.plan stored with
      | stop r => exact Contract.keeps_ofExcept trivial
      | write u announce =>
        obtain ⟨hid, hu⟩ := submitted_of_plan hplan hstored hdelivered
        refine (keeps_saveApproval hid hu).attempt fun r _ => ?_
        cases r with
        | error e => trivial
        | ok _ =>
          rw [Prog.onOk_ok]
          cases announce with
          | none => trivial
          | some resolution =>
            refine (keeps_publish .approvalCompleted (e := u.event resolution) ?_).attempt fun r _ =>
              by cases r <;> trivial
            show F.submitted u.invoice u.decision.correlationId
            rw [hid]
            exact hu

/-! ## Payment -/

section Payment
variable {ν : Type} (env : Deployment ν)

theorem keeps_budget {d : String} {b : Budget} {etag : Option Nat} : F.contract.Keeps
    ((workflowClient .payment).executeStateTransaction
      [⟨DaprStateBudgetRepository.key d, .budget b, etag⟩]) fun _ => True := by
  refine (keeps_transact .payment fun u hu => ?_).mono fun _ _ => trivial
  rw [List.mem_singleton.mp hu]
  trivial

theorem keeps_updateLoop (f : Budget → Except Exn Budget) (action d : String) (n : Nat) :
    F.contract.Keeps (DaprStateBudgetRepository.updateLoop (workflowClient .payment) f action d n)
      fun _ => True := by
  induction n with
  | zero => trivial
  | succ n ih =>
    rw [DaprStateBudgetRepository.updateLoop_succ]
    refine (keeps_getState .payment _).attempt fun r _ => ?_
    cases r with
    | error e => trivial
    | ok response =>
      simp only [StateClient.afterRead]
      cases DaprStateBudgetRepository.updated f d response.1 with
      | error e => trivial
      | ok b => exact keeps_budget.attempt fun r _ =>
        keeps_afterWrite ih (fun _ => trivial) fun _ => trivial

theorem keeps_ensureSeeded (d : String) (total : Decimal) :
    F.contract.Keeps (env.payment.budgetRepository.ensureSeeded d total) fun _ => True := by
  show F.contract.Keeps (DaprStateBudgetRepository.ensureSeeded (workflowClient .payment) d total) _
  rw [DaprStateBudgetRepository.ensureSeeded_eq]
  refine (keeps_getState .payment _).attempt fun r _ => ?_
  cases r with
  | error e => trivial
  | ok response =>
    simp only [StateClient.afterRead]
    cases response.1 with
    | some data => trivial
    | none =>
      exact keeps_budget.attempt fun r _ =>
        keeps_afterWrite (Contract.keeps_ret trivial) (fun _ => trivial) fun _ => trivial

theorem keeps_savePayment {p : PaymentRecord} (h : F.Paid p) :
    F.contract.Keeps (env.payment.repository.save p) fun r => r = .ok () → F.saved p := by
  refine keeps_save .payment DaprStatePaymentRepository.layout (fun ids etag u hu => ?_)
    fun ids etag hsaves => ?_
  · rcases List.mem_pair.mp hu with rfl | rfl
    · exact h
    · trivial
  · exact hsaves _ List.mem_cons_self p rfl rfl

theorem keeps_saveAndPublish {p : PaymentRecord} (h : F.Paid p) :
    F.contract.Keeps (env.payment.saveAndPublish p) fun _ => True := by
  refine (keeps_savePayment env h).attempt fun r hr => ?_
  cases r with
  | error e => trivial
  | ok u =>
    refine keeps_publish .paymentCompleted (e := p.event) ⟨?_, fun hresolution =>
      ?_, p, hr rfl, h.keyed, rfl⟩
    · show F.submitted p.invoice p.decision.correlationId
      rw [h.keyed]
      exact h.submitted
    · show F.charged p.decision.correlationId
      rw [h.keyed]
      refine h.charged ?_
      by_contra hstatus
      have hfailed : p.event.resolution = .failed := if_neg hstatus
      rw [hfailed] at hresolution
      cases hresolution

theorem keeps_executeCharge {p : PaymentRecord} (h : F.Paid p) :
    F.contract.Keeps (env.payment.executeCharge p) fun _ => True := by
  by_cases hstatus : p.status = .reserved
  · rw [PaymentService.executeCharge_eq _ hstatus]
    have hcharge : F.contract.Keeps (env.payment.gateway.charge p.invoice p.trackingId) fun r =>
        ∀ u, r = .ok u → F.charged p.trackingId :=
      @Contract.keeps_op workflowSig Exn F.contract (.charge p.invoice p.trackingId) _ h.submitted
        fun r hr u hu => by
        rw [hu] at hr
        exact hr
    refine hcharge.attempt fun r hr => ?_
    rcases r with e | u
    · cases e
      case paymentGatewayError message =>
        refine (keeps_updateLoop _ _ _ _).attempt fun r _ => ?_
        cases r with
        | error e => trivial
        | ok u =>
          exact keeps_saveAndPublish env (p := p.declined message) ⟨h.keyed, h.submitted, fun hc =>
            by cases hc⟩
      all_goals trivial
    · exact keeps_saveAndPublish env (p := p.completed) ⟨h.keyed, h.submitted, fun _ => hr u rfl⟩
  · unfold PaymentService.executeCharge
    rw [if_pos hstatus]
    trivial

theorem keeps_afterReserve {invoice : Invoice} {d : Decision} (h : F.submitted invoice d.correlationId)
    (r : Except Exn Unit) : F.contract.Keeps (env.payment.afterReserve invoice d r) fun _ => True := by
  cases r with
  | error e =>
    rcases env.payment.afterReserve_error invoice d e with hraise | ⟨reason, hreject⟩
    · rw [hraise]
      trivial
    · rw [hreject]
      exact keeps_saveAndPublish env (p := .ofRejection invoice d reason) ⟨rfl, h, fun hc => by cases hc⟩
  | ok u =>
    have hpaid : F.Paid (.ofReservation invoice d) := ⟨rfl, h, fun hc => by cases hc⟩
    refine (keeps_savePayment env hpaid).attempt fun r _ => ?_
    cases r with
    | error e => trivial
    | ok u => exact keeps_executeCharge env hpaid

theorem keeps_runSaga {invoice : Invoice} {d : Decision} (h : F.submitted invoice d.correlationId) :
    F.contract.Keeps (env.payment.runSaga invoice d) fun _ => True := by
  rw [PaymentService.runSaga_eq]
  refine (keeps_get .payment DaprStatePaymentRepository.layout d.correlationId).attempt fun r hr => ?_
  rcases r with e | _ | p
  · trivial
  · exact (keeps_updateLoop _ _ _ _).attempt fun r _ => keeps_afterReserve env h r
  · obtain ⟨data, hdocument, hrecord⟩ := hr p rfl
    cases data with
    | index ids => cases hrecord
    | budget b => cases hrecord
    | record p' =>
      cases hrecord
      show F.contract.Keeps (env.payment.resume p) _
      unfold PaymentService.resume
      split_ifs
      · trivial
      · exact keeps_executeCharge env hdocument

theorem keeps_pay {delivery : PaymentDelivery} (h : F.Genuine delivery.message) :
    F.contract.Keeps (env.payment.handle delivery) fun _ => True := by
  rw [PaymentService.handle_eq]
  cases htrigger : delivery.trigger with
  | none => trivial
  | some triggered =>
    obtain ⟨invoice, d⟩ := triggered
    refine keeps_runSaga env ?_
    cases delivery with
    | decisionCompleted e =>
      simp only [PaymentDelivery.trigger] at htrigger
      split_ifs at htrigger
      cases htrigger
      exact h
    | approvalCompleted e =>
      simp only [PaymentDelivery.trigger] at htrigger
      split_ifs at htrigger
      cases htrigger
      exact h

end Payment

/-! ## Notification -/

theorem keeps_notify {invoice : Invoice} {t : String} (h : F.submitted invoice t)
    (message source : String) :
    F.contract.Keeps (workflowNotification.notify invoice t message source) fun _ => True := by
  have hsend : F.contract.Keeps (workflowNotification.channel.send invoice t message source) fun r =>
      ∀ u, r = .ok u → F.sent t :=
    @Contract.keeps_op workflowSig Exn F.contract (.send invoice t message source) _ h fun r hr u hu => by
      rw [hu] at hr
      exact hr
  have hcheck : F.contract.Keeps (workflowNotification.repository.alreadyNotified t) fun _ => True := by
    show F.contract.Keeps
        (DaprStateNotificationRepository.alreadyNotified (workflowClient .notification) t) _
    rw [DaprStateNotificationRepository.alreadyNotified, StateClient.read_bind]
    exact (keeps_getState .notification _).attempt fun r _ => by cases r <;> trivial
  refine hcheck.bind (fun notified _ => ?_) fun _ _ => trivial
  cases notified with
  | true => trivial
  | false =>
    refine hsend.bind (fun u hu => ?_) fun _ _ => trivial
    refine (keeps_transact .notification fun v hv => ?_).handle (fun e _ => ?_) fun _ _ => trivial
    · rw [List.mem_singleton.mp hv]
      exact ⟨t, rfl, hu u rfl⟩
    · cases e <;> trivial

theorem keeps_handle {delivery : NotificationDelivery} (h : F.Genuine delivery.message) :
    F.contract.Keeps (workflowNotification.handle delivery) fun _ => True := by
  cases delivery with
  | decisionCompleted e =>
    simp only [NotificationService.handle, NotificationService.handleDecisionCompleted]
    split_ifs
    · trivial
    · exact keeps_notify h _ _
  | approvalCompleted e =>
    simp only [NotificationService.handle, NotificationService.handleApprovalCompleted]
    split_ifs
    · trivial
    · exact keeps_notify h _ _
  | paymentCompleted e => exact keeps_notify h.1 _ _

/-! ## Every call -/

variable (F) in
/-- What the state of a run says. -/
structure Stored (s : WorkflowState) : Prop where
  documents : ∀ service key d, (s.stores service).value key = some d → F.Document service key d
  messages : ∀ m ∈ s.published, F.Genuine m
  executed : s.gateway.executionCount = s.gateway.results.keys.length
  charged : ∀ t ∈ s.gateway.results.keys, ∃ invoice, F.submitted invoice t

variable (F) in
/-- The submissions that a run makes were made. -/
def Made : WorkflowCall → Prop
  | .submit t invoice => F.submitted invoice t
  | _ => True

variable (F) in
/-- The charges, the saves of payments and the sends that a run performs happened. -/
def Happened : (o : WorkflowOp) → Except Exn o.Reply → Prop
  | .state .payment (.transact ws), .ok _ => F.SavesPayments ws
  | .charge _ t, .ok _ => F.charged t
  | .send _ t _ _, .ok _ => F.sent t
  | _, _ => True

theorem keeps_body {ν : Type} (env : Deployment ν) {call : WorkflowCall}
    {s s' : WorkflowState} (hs : F.Stored s)
    (hmade : F.Made call) (hinvoke : WorkflowState.invoke call s = some s') :
    F.contract.Keeps (env.body call) fun _ => True := by
  have hdelivered {m : Message} (hm : call.message = some m) : F.Genuine m := by
    rcases WorkflowState.invoke_cases hinvoke with ⟨t, invoice, rfl, -⟩ | ⟨-, -, h⟩
    · cases hm
    · exact hs.messages m (h m hm)
  cases call with
  | submit t invoice => exact keeps_submit hmade
  | process t => exact keeps_process t
  | complete e => exact keeps_complete _ _
  | decide e => exact keeps_decide env (hdelivered rfl)
  | approval c =>
    refine keeps_approval c fun e he => ?_
    subst he
    exact hdelivered rfl
  | seed d total => exact keeps_ensureSeeded env d total
  | pay delivery => exact keeps_pay env (hdelivered rfl)
  | notify delivery => exact keeps_handle (hdelivered rfl)

/-! ## The state -/

theorem stored_empty : F.Stored .empty :=
  ⟨(fun _ _ _ h => by cases h), fun _ h => absurd h List.not_mem_nil, rfl,
    fun _ h => absurd h List.not_mem_nil⟩

theorem executed_charge (verdict : Option String) (t : String) {g : Gateway}
    (h : g.executionCount = g.results.keys.length) :
    (g.charge verdict t).2.executionCount = (g.charge verdict t).2.results.keys.length ∧
      ∀ k ∈ (g.charge verdict t).2.results.keys, k = t ∨ k ∈ g.results.keys := by
  unfold Gateway.charge
  cases hcached : g.results.get? t with
  | some cached => exact ⟨h, fun k hk => .inr hk⟩
  | none =>
    have hnew : t ∉ g.results.keys := fun hmem => (Dict.mem_keys _ _).mp hmem hcached
    have hkeys : (g.results.insert t verdict).keys = g.results.keys ++ [t] := by
      rw [Dict.keys_insert, if_neg hnew]
    refine ⟨?_, fun k hk => ?_⟩
    · show g.executionCount + 1 = (g.results.insert t verdict).keys.length
      rw [hkeys, List.length_append, h]
      rfl
    · rw [hkeys] at hk
      rcases List.mem_append.mp hk with hk | hk
      · exact .inr hk
      · exact .inl (List.mem_singleton.mp hk)

theorem stored_perform {s : WorkflowState} (hs : F.Stored s) {o : WorkflowOp} (ho : F.contract.asks o)
    (c : WorkflowChoice) : F.Stored (s.perform c o).2 := by
  have hgateway : (s.perform c o).2.gateway = s.gateway ∨
      ∃ invoice t, F.submitted invoice t ∧
        (s.perform c o).2.gateway = (s.gateway.charge c.verdict t).2 := by
    cases o with
    | state service o => exact .inl rfl
    | complete _ _ => exact .inl (WorkflowState.receive_keeps (·.gateway) rfl)
    | send _ _ _ _ => exact .inl (WorkflowState.receive_keeps (·.gateway) rfl)
    | publishEvent _ => exact .inl (WorkflowState.receive_keeps (·.gateway) rfl)
    | charge invoice t =>
      simp only [WorkflowState.perform, WorkflowState.receive]
      cases c.reception
      · exact .inr ⟨invoice, t, ho, rfl⟩
      · exact .inl rfl
      · exact .inr ⟨invoice, t, ho, rfl⟩
  refine ⟨fun service key d hd => ?_, fun m hm => ?_, ?_, fun t ht => ?_⟩
  · rcases WorkflowState.stores_perform (c := c) (s := s) o service with h | ⟨ws, rfl, -, -, h⟩
    · exact hs.documents service key d (h ▸ hd)
    · rw [h] at hd
      rcases Store.mem_of_value_puts hd with hd | ⟨u, hu, rfl, rfl⟩
      · exact hs.documents service key d hd
      · exact ho u hu
  · rcases WorkflowState.published_perform (c := c) (s := s) o with h | ⟨m', rfl, h⟩
    · exact hs.messages m (h ▸ hm)
    · rw [h] at hm
      rcases List.mem_append.mp hm with hm | hm
      · exact hs.messages m hm
      · rw [List.mem_singleton.mp hm]
        exact ho
  · rcases hgateway with h | ⟨invoice, t, -, h⟩
    · rw [h]
      exact hs.executed
    · rw [h]
      exact (executed_charge c.verdict t hs.executed).1
  · rcases hgateway with h | ⟨invoice, t', hsubmitted, h⟩
    · exact hs.charged t (h ▸ ht)
    · rw [h] at ht
      rcases (executed_charge c.verdict t' hs.executed).2 t ht with rfl | ht
      · exact ⟨invoice, hsubmitted⟩
      · exact hs.charged t ht

theorem gives_perform {s : WorkflowState} (hs : F.Stored s) {o : WorkflowOp} (c : WorkflowChoice)
    (h : F.Happened o (s.perform c o).1) : F.contract.gives o (s.perform c o).1 := by
  cases o with
  | complete _ _ => trivial
  | charge invoice t =>
    revert h
    cases (s.perform c (.charge invoice t)).1 <;> exact id
  | send invoice t message source =>
    revert h
    cases (s.perform c (.send invoice t message source)).1 <;> exact id
  | publishEvent m => trivial
  | state service o =>
    cases o with
    | transact ws =>
      revert h
      cases (s.perform c (.state service (.transact ws))).1 <;> cases service <;> exact id
    | get key =>
      simp only [WorkflowState.perform]
      cases c.reception
      · exact fun d hd => hs.documents service key d hd
      · trivial
      · trivial

theorem honoured {ν : Type} (env : Deployment ν) :
    F.contract.Honoured (workflow env) F.Stored F.Made F.Happened fun _ _ => True where
  exec c _ _ hs ho hhappened := ⟨stored_perform hs ho c, gives_perform hs c hhappened⟩
  invoke call s s' hs hmade hinvoke := by
    refine ⟨?_, keeps_body env hs hmade hinvoke⟩
    rcases WorkflowState.invoke_cases hinvoke with ⟨t, invoice, -, -, rfl⟩ | ⟨-, rfl, -⟩
    · exact ⟨hs.documents, hs.messages, hs.executed, hs.charged⟩
    · exact hs

end Facts

/-! ## Runs -/

section Runs
variable {ν : Type} {env : Deployment ν} {cfg : WorkflowRun}

/-- The record of a payment was saved. -/
def SavedPayment (p : PaymentRecord) (log : List WorkflowEvent) : Prop :=
  ∃ i call ws, .perform i call (.state .payment (.transact ws)) (.ok ()) ∈ log ∧
    ∃ u ∈ ws, u.key = paymentKey p.trackingId ∧ u.data = .record p

/-- What happened in a run. -/
def factsOf (log : List WorkflowEvent) : Facts where
  submitted invoice t := Invoked (.submit t invoice) log
  charged t := ∃ i call invoice, .perform i call (.charge invoice t) (.ok ()) ∈ log
  saved p := SavedPayment p log
  sent t := ∃ i call invoice message source, .perform i call (.send invoice t message source) (.ok ()) ∈ log

theorem kept (hr : (workflow env).Reach (fun _ _ => True) (System.start .empty) cfg) :
    (factsOf cfg.world.log).contract.Kept (factsOf cfg.world.log).Stored (fun _ _ => True) cfg := by
  refine (Facts.honoured env).sound Facts.stored_empty hr (fun i call he => ?_) fun i call o r he => ?_
  · cases call
    case submit t invoice => exact ⟨i, he⟩
    all_goals trivial
  · cases o
    case state service o =>
      cases o with
      | get key => cases service <;> trivial
      | transact ws =>
        cases service
        case payment => cases r with
          | error e => trivial
          | ok u => exact fun v hv p hkey hdata => ⟨i, call, ws, he, v, hv, hkey, hdata⟩
        all_goals trivial
    case charge invoice t => cases r with
      | error e => trivial
      | ok u => exact ⟨i, call, invoice, he⟩
    case send invoice t message source => cases r with
      | error e => trivial
      | ok u => exact ⟨i, call, invoice, message, source, he⟩
    all_goals trivial

theorem submitted_once (hr : (workflow env).Reach (fun _ _ => True) (System.start .empty) cfg) {t : String}
    {invoice invoice' : Invoice} (h : Invoked (.submit t invoice) cfg.world.log)
    (h' : Invoked (.submit t invoice') cfg.world.log) : invoice = invoice' := by
  obtain ⟨i, hi⟩ := h
  obtain ⟨j, hj⟩ := h'
  induction hr with
  | refl => exact absurd hi List.not_mem_nil
  | @tail cfg cfg' a hr _ ha ih =>
    cases a with
    | invoke c =>
      obtain ⟨s, hs, rfl⟩ := System.act_invoke ha
      have hfresh (k : Nat) (invoice₀ invoice₁ : Invoice) (hc : c = .submit t invoice₀) :
          .invoke k (.submit t invoice₁) ∉ cfg.world.log := by
        intro hk
        subst hc
        have hissued := (sound hr).drawn.issued k t invoice₁ hk
        have hinvoke : WorkflowState.invoke (.submit t invoice₀) cfg.world.state = some s := hs
        rcases WorkflowState.invoke_cases hinvoke with ⟨t', invoice', heq, hnew, -⟩ | ⟨hne, -⟩
        · cases heq
          exact hnew hissued
        · exact hne t invoice₀ rfl
      replace hi := List.mem_cons.mp hi
      replace hj := List.mem_cons.mp hj
      rcases hi with hi | hi <;> rcases hj with hj | hj
      · cases hi
        cases hj
        rfl
      · cases hi
        exact (hfresh j _ _ rfl hj).elim
      · cases hj
        exact (hfresh i _ _ rfl hi).elim
      · exact ih hi hj
    | step k c =>
      obtain ⟨call, o, f, -, rfl⟩ := System.act_step ha
      exact ih ((List.mem_cons.mp hi).resolve_left fun heq => by cases heq)
        ((List.mem_cons.mp hj).resolve_left fun heq => by cases heq)
    | respond k =>
      obtain ⟨call, p, r, -, -, rfl⟩ := System.act_respond ha
      exact ih ((List.mem_cons.mp hi).resolve_left fun heq => by cases heq)
        ((List.mem_cons.mp hj).resolve_left fun heq => by cases heq)

/-- The invoice was submitted under the tracking id, and no other was. -/
def Submitted (t : String) (invoice : Invoice) (log : List WorkflowEvent) : Prop :=
  Invoked (.submit t invoice) log ∧ ∀ invoice', Invoked (.submit t invoice') log → invoice' = invoice

theorem submitted_of_fact (hr : (workflow env).Reach (fun _ _ => True) (System.start .empty) cfg)
    {t : String}
    {invoice : Invoice} (h : (factsOf cfg.world.log).submitted invoice t) :
    Submitted t invoice cfg.world.log :=
  ⟨h, fun _ h' => submitted_once hr h' h⟩

/-- What was charged under the id is the invoice that was submitted. -/
theorem charge_of_fact (hr : (workflow env).Reach (fun _ _ => True) (System.start .empty) cfg) {t : String}
    {invoice : Invoice} (hs : (factsOf cfg.world.log).submitted invoice t)
    (hc : (factsOf cfg.world.log).charged t) :
    ∃ i call, .perform i call (.charge invoice t) (.ok ()) ∈ cfg.world.log := by
  obtain ⟨i, call, invoice', he⟩ := hc
  obtain rfl := submitted_once hr hs ((kept hr).asked i call (.charge invoice' t) _ he)
  exact ⟨i, call, he⟩

end Runs

/-- What a message is about. -/
def subject : Message → Invoice × String
  | .invoiceSubmitted e => (e.invoice, e.correlationId)
  | .decisionCompleted e => (e.invoice, e.decision.correlationId)
  | .approvalCompleted e => (e.invoice, e.decision.correlationId)
  | .paymentCompleted e => (e.invoice, e.decision.correlationId)

/-- **Invoices travel unchanged**: whatever is charged, notified, published or kept under a tracking id
is the one invoice that was submitted under it, in every interleaving. -/
theorem invoices_unchanged {ν : Type} (env : Deployment ν) (cfg : WorkflowRun)
    (hr : (workflow env).Reach (fun _ _ => True) (System.start .empty) cfg) :
    (∀ i call invoice t reply, .perform i call (.charge invoice t) reply ∈ cfg.world.log →
      Submitted t invoice cfg.world.log) ∧
    (∀ i call invoice t message source reply,
      .perform i call (.send invoice t message source) reply ∈ cfg.world.log →
      Submitted t invoice cfg.world.log) ∧
    (∀ m ∈ cfg.world.state.published, Submitted (subject m).2 (subject m).1 cfg.world.log) ∧
    (∀ t s, (cfg.world.state.stores .intake).value (DaprStateInvoiceRepository.submissionKey t) =
      some (.submission s) → s.trackingId = t ∧ Submitted t s.invoice cfg.world.log) ∧
    (∀ t a, (cfg.world.state.stores .approval).value (approvalKey t) = some (.record a) →
      a.trackingId = t ∧ Submitted t a.invoice cfg.world.log) ∧
    ∀ t p, (cfg.world.state.stores .payment).value (paymentKey t) = some (.record p) →
      p.trackingId = t ∧ Submitted t p.invoice cfg.world.log := by
  have h := kept hr
  have hsound := sound hr
  refine ⟨fun i call invoice t reply he => ?_, fun i call invoice t message source reply he => ?_,
    fun m hm => ?_, fun t s hs => ?_, fun t a ha => ?_, fun t p hp => ?_⟩
  · exact submitted_of_fact hr (h.asked i call (.charge invoice t) reply he)
  · exact submitted_of_fact hr (h.asked i call (.send invoice t message source) reply he)
  · have hgenuine := h.state.messages m hm
    cases m with
    | invoiceSubmitted e => exact submitted_of_fact hr hgenuine
    | decisionCompleted e => exact submitted_of_fact hr hgenuine
    | approvalCompleted e => exact submitted_of_fact hr hgenuine
    | paymentCompleted e => exact submitted_of_fact hr hgenuine.1
  · obtain ⟨rfl, -⟩ := hsound.documented .intake t s hs
    exact ⟨rfl, submitted_of_fact hr (h.state.documents .intake _ _ hs).2⟩
  · obtain ⟨rfl, -⟩ := hsound.documented .approval t a ha
    exact ⟨rfl, submitted_of_fact hr (h.state.documents .approval _ _ ha).2⟩
  · obtain ⟨rfl, -⟩ := hsound.documented .payment t p hp
    exact ⟨rfl, submitted_of_fact hr (h.state.documents .payment _ _ hp).submitted⟩

/-- The laptop is paid, and its payment is notified. -/
def notifiedSchedule : List (Action WorkflowChoice WorkflowCall) :=
  paySchedule ++
    [.invoke (.notify (.paymentCompleted ⟨laptop, laptopApproved, .completed,
      "payment executed successfully"⟩))] ++
    steps 5 3 ""

def notifiedRun : WorkflowRun :=
  ((workflow plainDeployment).runActions (fun _ _ => true) notifiedSchedule (System.start .empty)).get
    (by decide +kernel)

theorem notified_reach : (workflow plainDeployment).Reach
    (fun _ _ => True) (System.start .empty) notifiedRun :=
  System.reach_of_runActions (fun _ _ _ => trivial) notifiedSchedule (Option.some_get _).symm

theorem notified_unchanged : Submitted "t-1" laptop notifiedRun.world.log := by
  have hcharged : notifiedRun.world.log.any (charges laptop "t-1") = true := by decide +kernel
  obtain ⟨e, he, hcharge⟩ := List.any_eq_true.mp hcharged
  obtain ⟨i, call, reply, rfl⟩ := charges_eq hcharge
  exact (invoices_unchanged plainDeployment notifiedRun notified_reach).1 i call laptop "t-1" reply he

/-- **What is recorded happened**: a payment is recorded or announced as completed only after the gateway
accepted a charge of its invoice under its tracking id, and an id is marked as notified only after a
notification for it was sent. -/
theorem recorded_happened {ν : Type} (env : Deployment ν) (cfg : WorkflowRun)
    (hr : (workflow env).Reach (fun _ _ => True) (System.start .empty) cfg) :
    (∀ t p, (cfg.world.state.stores .payment).value (paymentKey t) = some (.record p) →
      p.status = .completed →
      ∃ i call, .perform i call (.charge p.invoice t) (.ok ()) ∈ cfg.world.log) ∧
    (∀ e, .paymentCompleted e ∈ cfg.world.state.published → e.resolution = .completed →
      ∃ i call, .perform i call (.charge e.invoice e.decision.correlationId) (.ok ()) ∈ cfg.world.log) ∧
    ∀ t mark, (cfg.world.state.stores .notification).value (DaprStateNotificationRepository.key t) =
      some mark →
      ∃ i call invoice message source,
        .perform i call (.send invoice t message source) (.ok ()) ∈ cfg.world.log := by
  have h := kept hr
  refine ⟨fun t p hp hstatus => ?_, fun e he hresolution => ?_, fun t mark hmark => ?_⟩
  · obtain ⟨rfl, -⟩ := (sound hr).documented .payment t p hp
    have hpaid : (factsOf cfg.world.log).Paid p := h.state.documents .payment _ _ hp
    exact charge_of_fact hr hpaid.submitted (hpaid.charged hstatus)
  · have hgenuine := h.state.messages _ he
    exact charge_of_fact hr hgenuine.1 (hgenuine.2.1 hresolution)
  · obtain ⟨t', hkey, hsent⟩ := h.state.documents .notification _ _ hmark
    rwa [(String.append_right_inj "notification:").mp hkey]

theorem notified_happened : ∃ i call invoice message source,
    .perform i call (.send invoice "t-1" message source) (.ok ()) ∈ notifiedRun.world.log :=
  (recorded_happened plainDeployment notifiedRun notified_reach).2.2 "t-1" () (by decide +kernel)

/-- **One execution per submission**: every key that the gateway executed is the tracking id of a
submission, and it executed no more charges than there were submissions. -/
theorem executions_le_submissions {ν : Type} (env : Deployment ν) (cfg : WorkflowRun)
    (hr : (workflow env).Reach (fun _ _ => True) (System.start .empty) cfg) :
    (∀ t ∈ cfg.world.state.gateway.results.keys, ∃ invoice, Submitted t invoice cfg.world.log) ∧
      cfg.world.state.gateway.executionCount ≤ cfg.world.state.issued.length := by
  have h := kept hr
  refine ⟨fun t ht => ?_, ?_⟩
  · obtain ⟨invoice, hs⟩ := h.state.charged t ht
    exact ⟨invoice, submitted_of_fact hr hs⟩
  · rw [h.state.executed]
    refine (cfg.world.state.gateway.results.nodup.subperm fun t ht => ?_).length_le
    obtain ⟨invoice, i, hi⟩ := h.state.charged t ht
    exact (sound hr).drawn.issued i t invoice hi

theorem notified_executions : 0 < notifiedRun.world.state.gateway.executionCount ∧
    notifiedRun.world.state.gateway.executionCount ≤ notifiedRun.world.state.issued.length :=
  ⟨by decide +kernel, (executions_le_submissions plainDeployment notifiedRun notified_reach).2⟩

end ApprovalFlow.Workflow
