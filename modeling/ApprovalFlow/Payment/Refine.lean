import ApprovalFlow.Payment.Linearize
import ApprovalFlow.Shared.Refine
import ApprovalFlow.Workflow.Indexes

/-!
# Payment over the Dapr state store is Payment over dictionaries

The saga takes several requests for what the in-memory repositories do at once. If requests may be
refused but no reply is lost, its clients cannot tell the difference: whatever they see of the one, in
any interleaving, they can see of the other.

* `PaymentRequest`, `PaymentService.serve`: the deliveries and the reads.
* `daprPaymentServer`, `inMemoryPaymentServer`: the service at both levels.
* `Stored`: the store holds the records, the index and the budgets of the dictionaries.
* `SagaRefines`, `SagaRefines.serve`: where the methods of the repositories refine, the requests do.
* `daprPayment_refines`: the runs.
-/

namespace ApprovalFlow
open Async Async.Coupling Versioned Numeric

/-! ## The requests -/

inductive PaymentRequest
  | deliver (delivery : PaymentDelivery)
  | getPayment (trackingId : String)
  | getBudget (department : String)
  deriving DecidableEq

/-- The tracking id of a request. -/
def PaymentRequest.trackingId : PaymentRequest → Option String
  | deliver delivery => some delivery.trackingId
  | getPayment t => some t
  | getBudget _ => none

inductive PaymentAnswer
  | done
  | payment (record : PaymentRecord)
  | budget (budget : Budget)
  deriving DecidableEq

def PaymentService.serve {σ : Sig} (svc : PaymentService σ) : PaymentRequest → Prog σ Exn PaymentAnswer
  | .deliver delivery => (fun _ => .done) <$> svc.handle delivery
  | .getPayment t => .payment <$> svc.get t
  | .getBudget d => .budget <$> svc.getBudget d

/-- Requests on one sidecar, which may refuse them. -/
def PaymentDapr.exec : Handler paymentDaprSig Exn PaymentDapr PaymentChoice
  | .answer, o, s => s.perform none o
  | .decline message, o, s => s.perform (some message) o
  | .fail details, _, s => (.error (.rpcError details), s)

/-- The service over the Dapr state store; `index` is no tracking id. -/
def daprPaymentServer (rnd : Rounding) :
    System paymentDaprSig Exn PaymentAnswer PaymentDapr PaymentChoice PaymentRequest where
  body := (daprPayment rnd).serve
  invoke request s := if request.trackingId = some "index" then none else some s
  exec := PaymentDapr.exec

/-- The service over the in-memory repositories. -/
def inMemoryPaymentServer (rnd : Rounding) :
    System paymentSig Exn PaymentAnswer PaymentState PaymentChoice PaymentRequest where
  body := inMemoryPayment.serve
  invoke request s := if request.trackingId = some "index" then none else some s
  exec := faultyPayment rnd

namespace Payment

/-- The dictionaries that a store stands for. -/
structure Stored (s : PaymentDapr) (t : PaymentState) : Prop where
  payments : IndexedState.Mirrors DaprStatePaymentRepository.layout s.store t.payments
  budgets : Stands s.store t.budgets
  gateway : s.gateway = t.gateway
  published : s.published = t.published

/-- The two levels. -/
def paymentLevels (rnd : Rounding) :
    Levels paymentDaprSig paymentSig Exn PaymentDapr PaymentState PaymentChoice PaymentChoice where
  exec := PaymentDapr.exec
  spec := faultyPayment rnd
  Rep := Stored
  Evolves s s' := s.store.Evolves s'.store
  refl s := .refl s.store
  trans h h' := h.trans h'
  evolves c o s := by
    cases c with
    | fail details => exact .refl _
    | answer => cases o with
      | state o => exact o.evolves_perform _ _ s.store
      | _ => exact .refl _
    | decline message => cases o with
      | state o => exact o.evolves_perform _ _ s.store
      | _ => exact .refl _

variable {rnd : Rounding} {s : PaymentDapr} {t : PaymentState}

/-! ## The operations -/

theorem Stored.save (h : Stored s t) {r : PaymentRecord} (hr : r.trackingId ≠ "index") (etag : ℕ) :
    Stored { s with store := s.store.puts (IndexedState.writes DaprStatePaymentRepository.layout r
      (IndexedState.index DaprStatePaymentRepository.layout s.store) etag) }
      { t with payments := t.payments.insert r.trackingId r } where
  payments := h.payments.commit DaprStatePaymentRepository.lawful hr etag
  budgets d := by
    rw [IndexedState.value_writes_of_ne s.store r _ etag (DaprStateBudgetRepository.key_ne d)]
    exact h.budgets d
  gateway := h.gateway
  published := h.published

theorem Stored.putBudget (h : Stored s t) (d : String) (b : Budget) :
    Stored { s with store := s.store.put (DaprStateBudgetRepository.key d) (.budget b) }
      { t with budgets := t.budgets.insert d b } where
  payments := h.payments.congr fun t => Store.value_put_ne _ _ (DaprStateBudgetRepository.key_ne d t).symm
  budgets := h.budgets.put d b
  gateway := h.gateway
  published := h.published

theorem serves : Serves (paymentLevels rnd) paymentStateClient PaymentDapr.store
    fun s store => { s with store := store } where
  getState key := by
    refine ⟨_, _, rfl, fun c s => ?_⟩
    cases c with
    | answer => exact ⟨rfl, .inl rfl⟩
    | decline message => exact ⟨rfl, .inl rfl⟩
    | fail details => exact ⟨rfl, .inr ⟨details, rfl⟩⟩
  executeStateTransaction ws := by
    refine ⟨_, _, rfl, fun c s => ?_⟩
    have hserved (v : Option String) : s.store.Current ws ∧
        s.perform v (.state (.transact ws)) = (.ok (), { s with store := s.store.puts ws }) ∨
          s.perform v (.state (.transact ws)) = (.error (.rpcError ""), s) := by
      by_cases h : s.store.Current ws
      · exact .inl ⟨h, by simp only [PaymentDapr.perform, Op.perform_current h]⟩
      · exact .inr (by simp only [PaymentDapr.perform, Op.perform_stale h])
    have hperform {reply : Except Exn Unit × PaymentDapr} (h : s.store.Current ws ∧
        reply = (.ok (), { s with store := s.store.puts ws }) ∨ reply = (.error (.rpcError ""), s)) :
        s.store.Current ws ∧ reply.2 = { s with store := s.store.puts ws } ∧
            (Prog.ofExcept reply.1 : Prog paymentDaprSig Exn Unit) = .ret () ∨
          reply.2 = s ∧ ∃ details, (Prog.ofExcept reply.1 : Prog paymentDaprSig Exn Unit) =
            .raise (.rpcError details) := by
      rcases h with ⟨h, rfl⟩ | rfl
      · exact .inl ⟨h, rfl, rfl⟩
      · exact .inr ⟨rfl, "", rfl⟩
    cases c with
    | answer => exact hperform (hserved none)
    | decline message => exact hperform (hserved (some message))
    | fail details => exact .inr ⟨rfl, details, rfl⟩
  evolves h := h

theorem performs (o : PaymentOp) (t : PaymentState) :
    (paymentLevels rnd).Performs o.await t (t.perform rnd none o).1 (t.perform rnd none o).2 :=
  Levels.performs_op (L := paymentLevels rnd) o .answer t

theorem performs_fail (o : PaymentOp) (details : String) (t : PaymentState) :
    (paymentLevels rnd).Performs o.await t (.error (PaymentState.infraError details o)) t :=
  Levels.performs_op (L := paymentLevels rnd) o (.fail details) t

/-- Where the infrastructure error of an operation is the repository's, the operation may fail as the
repository does. -/
theorem mayFail {o : PaymentOp}
    (ho : ∀ details, PaymentState.infraError details o = .paymentRepositoryError (.text details)) :
    IndexedState.MayFail (paymentLevels rnd) DaprStatePaymentRepository.layout o.await := by
  intro t e he
  refine ⟨_, performs_fail o "" t, ?_⟩
  rw [ho]
  obtain ⟨details, rfl⟩ | ⟨details, rfl⟩ | ⟨trackingId, rfl⟩ := he <;> exact .paymentRepositoryError _ _

theorem refines_savePayment {r : PaymentRecord} (hr : r.trackingId ≠ "index") :
    (paymentLevels rnd).Refines ((daprPayment rnd).repository.save r)
      (inMemoryPayment.repository.save r) s SameReply :=
  IndexedState.refines_save serves rfl (mayFail fun _ => rfl) fun _ t etag h =>
    ⟨_, performs (.savePayment r) t, h.save hr etag⟩

theorem refines_getPayment {trackingId : String} (ht : trackingId ≠ "index") :
    (paymentLevels rnd).Refines ((daprPayment rnd).repository.get trackingId)
      (inMemoryPayment.repository.get trackingId) s
      (Both (fun a b => a = b ∧ ∀ r, a = some r → r.trackingId = trackingId) Exn.SameClass) :=
  IndexedState.refines_get serves DaprStatePaymentRepository.lawful PaymentState.payments
    (fun h => h.payments) ht rfl (mayFail fun _ => rfl) fun t => performs (.getPayment trackingId) t

/-- What a change of a budget does to the dictionary, told from the document that it reads. -/
theorem Stands.update {store : Store PaymentValue} {budgets : Dict String Budget} (h : Stands store budgets)
    (f : Budget → Except Exn Budget) (d : String) : InMemoryBudgetRepository.update f d budgets =
      match DaprStateBudgetRepository.updated f d (store.value (DaprStateBudgetRepository.key d)) with
      | .error e => (.error e, budgets)
      | .ok b => (.ok (), budgets.insert d b) := by
  rw [InMemoryBudgetRepository.update, h d]
  cases budgets.get? d with
  | none => rfl
  | some b => rfl

/-- An attempt of a change; where its write fails, it goes on with `retry`. -/
def updateAttempt (f : Budget → Except Exn Budget) (d : String) (retry : Prog paymentDaprSig Exn Unit) :
    Prog paymentDaprSig Exn Unit :=
  (paymentStateClient.getState (DaprStateBudgetRepository.key d)).attempt
    (StateClient.afterRead DaprStateBudgetRepository.readError fun response =>
      match DaprStateBudgetRepository.updated f d response.1 with
      | .error e => .raise e
      | .ok budget => (paymentStateClient.executeStateTransaction
          [⟨DaprStateBudgetRepository.key d, .budget budget, some response.2⟩]).attempt
            (StateClient.afterWrite retry))

/-- **A change of a budget** is a change under the lock, where it commits or where it reads a budget that
it rejects. -/
theorem refines_update {f : Budget → Except Exn Budget} {action d : String} {q : Prog paymentSig Exn Unit}
    (hq : q.result? = none)
    (hdone : ∀ t, (paymentLevels rnd).Performs q t (InMemoryBudgetRepository.update f d t.budgets).1
      { t with budgets := (InMemoryBudgetRepository.update f d t.budgets).2 })
    (hfail : ∀ t, (paymentLevels rnd).Performs q t (.error (.budgetRepositoryError (.text ""))) t) :
    (paymentLevels rnd).Refines
      (DaprStateBudgetRepository.updateLoop paymentStateClient f action d maxRetries) q s
      SameReply := by
  have hraise (failure : Failure) (s₁ t) : ∃ r, (paymentLevels rnd).Performs q t r t ∧
      (paymentLevels rnd).Refines (.raise (.budgetRepositoryError failure)) (.ofExcept r) s₁ SameReply :=
    ⟨_, hfail t, .budgetRepositoryError _ _⟩
  refine Levels.refines_retries (updateAttempt f d)
    (DaprStateBudgetRepository.updateLoop_succ paymentStateClient f action d) (fun retry s hretry => ?_)
    (fun s₁ t _ => hraise _ s₁ t) 4 s
  refine serves.refines_getState hq (fun s₁ t _ hrep => ?_) fun s₁ t details _ => hraise _ s₁ t
  have hupdate := hrep.budgets.update f d
  simp only [StateClient.afterRead, Store.get]
  cases hupdated : DaprStateBudgetRepository.updated f d
    (s₁.store.value (DaprStateBudgetRepository.key d)) with
  | error e =>
    -- the change raises where it reads
    have hperforms := hdone t
    rw [hupdate, hupdated] at hperforms
    exact .inr ⟨_, hperforms, Exn.SameClass.refl e⟩
  | ok b =>
    refine .inl (serves.refines_transact hq (fun s₂ t₂ hev hrep₂ hcurrent => ?_)
      fun s₂ t₂ _ _ hrep₂ => hretry s₂ t₂ hrep₂)
    -- the budget is still the one that was read
    have hvalue := hev.value_eq (Store.current_single.mp hcurrent)
    have hperforms := hdone t₂
    rw [hrep₂.budgets.update f d, hvalue, hupdated] at hperforms
    exact ⟨_, _, hperforms, hrep₂.putBudget d b, rfl⟩

theorem refines_getBudget (d : String) :
    (paymentLevels rnd).Refines ((daprPayment rnd).budgetRepository.get d)
      (inMemoryPayment.budgetRepository.get d) s SameReply := by
  show (paymentLevels rnd).Refines (DaprStateBudgetRepository.get paymentStateClient d) _ s SameReply
  rw [DaprStateBudgetRepository.get, StateClient.read_bind]
  refine serves.refines_getState rfl (fun s₁ t _ hrep => .inr ⟨_, performs (.getBudget d) t, ?_⟩)
    fun s₁ t details _ =>
    ⟨_, performs_fail (.getBudget d) "" t, .budgetRepositoryError _ _⟩
  simp only [StateClient.afterRead, Store.get, hrep.budgets d]
  cases hget : t.budgets.get? d with
  | none => exact hget.symm
  | some b => exact hget.symm

theorem refines_charge (i : Invoice) (k : String) :
    (paymentLevels rnd).Refines ((daprPayment rnd).gateway.charge i k)
      (inMemoryPayment.gateway.charge i k) s SameReply := by
  have hcharge (v : Option String) {s₁ : PaymentDapr} {t : PaymentState} (h : Stored s₁ t) :
      Stored (s₁.perform v (.charge i k)).2 (t.perform rnd v (.charge i k)).2 ∧
        SameReply (s₁.perform v (.charge i k)).1 (t.perform rnd v (.charge i k)).1 := by
    have hgateway : s₁.gateway.charge v k = t.gateway.charge v k := by rw [h.gateway]
    refine ⟨⟨h.payments, h.budgets, congrArg Prod.snd hgateway, h.published⟩, ?_⟩
    show SameReply (s₁.gateway.charge v k).1 (t.gateway.charge v k).1
    rw [hgateway]
    exact .refl _
  refine Levels.refines_op fun s₁ t c _ hrep => ⟨c, ?_⟩
  cases c with
  | answer => exact hcharge none hrep
  | decline message => exact hcharge (some message) hrep
  | fail details => exact ⟨hrep, Exn.SameClass.refl _⟩

theorem refines_publish (e : PaymentCompletedEvent) :
    (paymentLevels rnd).Refines ((daprPayment rnd).publisher.publish e)
      (inMemoryPayment.publisher.publish e) s SameReply := by
  have hpublish {s₁ : PaymentDapr} {t : PaymentState} (h : Stored s₁ t) :
      Stored { s₁ with published := s₁.published ++ [e] } { t with published := t.published ++ [e] } :=
    ⟨h.payments, h.budgets, h.gateway, congrArg (· ++ [e]) h.published⟩
  refine Levels.refines_await rfl fun s₁ t c _ hrep => .inr ?_
  cases c with
  | answer => exact ⟨_, _, performs (.publish e) t, hpublish hrep, rfl⟩
  | decline message => exact ⟨_, _, performs (.publish e) t, hpublish hrep, rfl⟩
  | fail details =>
    exact ⟨_, t, performs_fail (.publish e) ("Failed to publish payment.completed: " ++ details) t, hrep,
      Exn.SameClass.refl _⟩

/-! ## The saga -/

/-- Two services whose methods refine one another. -/
structure SagaRefines {σ τ : Sig} {S T C D : Type} (L : Levels σ τ Exn S T C D) (svc : PaymentService σ)
    (svc' : PaymentService τ) : Prop where
  save : ∀ {r s}, r.trackingId ≠ "index" →
    L.Refines (svc.repository.save r) (svc'.repository.save r) s SameReply
  get : ∀ {t s}, t ≠ "index" → L.Refines (svc.repository.get t) (svc'.repository.get t) s
    (Both (fun a b => a = b ∧ ∀ r, a = some r → r.trackingId = t) Exn.SameClass)
  getBudget : ∀ {d s}, L.Refines (svc.budgetRepository.get d) (svc'.budgetRepository.get d) s SameReply
  reserve : ∀ {d x s}, L.Refines (svc.budgetRepository.reserve d x)
    (svc'.budgetRepository.reserve d x) s SameReply
  release : ∀ {d x s}, L.Refines (svc.budgetRepository.release d x)
    (svc'.budgetRepository.release d x) s SameReply
  publish : ∀ {e s}, L.Refines (svc.publisher.publish e) (svc'.publisher.publish e) s SameReply
  charge : ∀ {i k s}, L.Refines (svc.gateway.charge i k) (svc'.gateway.charge i k) s SameReply

theorem sagaRefines : SagaRefines (paymentLevels rnd) (daprPayment rnd) inMemoryPayment where
  save := refines_savePayment
  get := refines_getPayment
  getBudget := refines_getBudget _
  reserve {d x _} := refines_update rfl (fun t => performs (.reserve d x) t) fun t =>
    performs_fail (.reserve d x) "" t
  release {d x _} := refines_update rfl (fun t => performs (.release d x) t) fun t =>
    performs_fail (.release d x) "" t
  publish := refines_publish _
  charge := refines_charge _ _

namespace SagaRefines
variable {σ τ : Sig} {S T C D : Type} {L : Levels σ τ Exn S T C D} {svc : PaymentService σ}
    {svc' : PaymentService τ} {s : S}

theorem saveAndPublish (h : SagaRefines L svc svc') {r : PaymentRecord} (hr : r.trackingId ≠ "index") :
    L.Refines (svc.saveAndPublish r) (svc'.saveAndPublish r) s SameReply :=
  (h.save hr).onOk fun _ _ _ _ _ => h.publish

theorem afterCharge (h : SagaRefines L svc svc') {r : PaymentRecord} (hr : r.trackingId ≠ "index")
    {reply reply' : Except Exn Unit} (hreply : SameReply reply reply') :
    L.Refines (svc.afterCharge r reply) (svc'.afterCharge r reply') s SameReply := by
  cases reply <;> cases reply'
  case ok.ok => exact h.saveAndPublish hr
  case ok.error => exact hreply.elim
  case error.ok => exact hreply.elim
  case error.error e e' =>
    cases hreply with
    | refl =>
      cases e
      case paymentGatewayError message => exact h.release.onOk fun _ _ _ _ _ => h.saveAndPublish hr
      all_goals exact Exn.SameClass.refl _
    | paymentRepositoryError failure failure' => exact .paymentRepositoryError _ _
    | budgetRepositoryError failure failure' => exact .budgetRepositoryError _ _
    | approvalRepositoryError failure failure' => exact .approvalRepositoryError _ _

theorem executeCharge (h : SagaRefines L svc svc') {r : PaymentRecord} (hr : r.trackingId ≠ "index") :
    L.Refines (svc.executeCharge r) (svc'.executeCharge r) s SameReply := by
  by_cases hreserved : r.status = .reserved
  · rw [svc.executeCharge_eq hreserved, svc'.executeCharge_eq hreserved]
    exact h.charge.attempt fun _ _ _ _ hreply => h.afterCharge hr hreply
  · unfold PaymentService.executeCharge
    rw [if_pos hreserved, if_pos hreserved]
    exact Exn.SameClass.refl _

theorem resume (h : SagaRefines L svc svc') {r : PaymentRecord} (hr : r.trackingId ≠ "index") :
    L.Refines (svc.resume r) (svc'.resume r) s SameReply := by
  unfold PaymentService.resume
  split_ifs
  · exact rfl
  · exact h.executeCharge hr

theorem afterReserve (h : SagaRefines L svc svc') {i : Invoice} {decision : Decision}
    (ht : decision.correlationId ≠ "index")
    {reply reply' : Except Exn Unit} (hreply : SameReply reply reply') :
    L.Refines (svc.afterReserve i decision reply) (svc'.afterReserve i decision reply') s SameReply := by
  cases reply <;> cases reply'
  case ok.ok => exact (h.save ht).onOk fun _ _ _ _ _ => h.executeCharge ht
  case ok.error => exact hreply.elim
  case error.ok => exact hreply.elim
  case error.error e e' =>
    cases hreply with
    | refl =>
      cases e
      case insufficientBudgetError d => exact h.saveAndPublish ht
      case budgetNotFoundError d => exact h.saveAndPublish ht
      all_goals exact Exn.SameClass.refl _
    | paymentRepositoryError failure failure' => exact .paymentRepositoryError _ _
    | budgetRepositoryError failure failure' => exact .budgetRepositoryError _ _
    | approvalRepositoryError failure failure' => exact .approvalRepositoryError _ _

theorem runSaga (h : SagaRefines L svc svc') {i : Invoice} {decision : Decision}
    (ht : decision.correlationId ≠ "index") :
    L.Refines (svc.runSaga i decision) (svc'.runSaga i decision) s SameReply := by
  rw [svc.runSaga_eq, svc'.runSaga_eq]
  refine (h.get ht).onOk fun found found' s₁ _ hfound => ?_
  obtain ⟨rfl, hkeyed⟩ := hfound
  cases found with
  | none => exact h.reserve.attempt fun _ _ _ _ hreply => h.afterReserve ht hreply
  | some r => exact h.resume (hkeyed r rfl ▸ ht)

theorem handle (h : SagaRefines L svc svc') {delivery : PaymentDelivery}
    (ht : delivery.trackingId ≠ "index") :
    L.Refines (svc.handle delivery) (svc'.handle delivery) s SameReply := by
  rw [svc.handle_eq, svc'.handle_eq]
  cases htrigger : delivery.trigger with
  | none => exact rfl
  | some trigger =>
    obtain ⟨i, decision⟩ := trigger
    exact h.runSaga ((PaymentDelivery.trigger_eq htrigger).2 ▸ ht)

theorem serve (h : SagaRefines L svc svc') {request : PaymentRequest}
    (ht : request.trackingId ≠ some "index") :
    L.Refines (svc.serve request) (svc'.serve request) s SameReply := by
  cases request with
  | deliver delivery =>
    refine (h.handle fun heq => ht (congrArg some heq)).onOk fun _ _ _ _ _ => ?_
    exact rfl
  | getPayment t =>
    have hget : L.Refines (svc.get t) (svc'.get t) s SameReply := by
      refine (h.get fun heq => ht (congrArg some heq)).onOk fun found found' s₁ _ hfound => ?_
      obtain ⟨rfl, -⟩ := hfound
      cases found with
      | none => exact Exn.SameClass.refl _
      | some r => exact rfl
    refine hget.onOk fun _ _ _ _ heq => ?_
    exact congrArg _ heq
  | getBudget d =>
    have hget : L.Refines (svc.getBudget d) (svc'.getBudget d) s SameReply := by
      refine h.getBudget.onOk fun found found' s₁ _ hfound => ?_
      cases hfound
      cases found with
      | none => exact Exn.SameClass.refl _
      | some b => exact rfl
    refine hget.onOk fun _ _ _ _ heq => ?_
    exact congrArg _ heq

end SagaRefines

/-- **Payment refines Payment over dictionaries**: whatever clients see of the service over the Dapr
state store, in any interleaving of deliveries and reads in which requests may be refused and no reply is
lost, they can see of the service over the in-memory repositories, where every operation of a repository
is one step; with the same charges and published events. -/
theorem daprPayment_refines (rnd : Rounding) (s : PaymentDapr) (t : PaymentState) (hs : Stored s t)
    (cfg : Config paymentDaprSig Exn PaymentAnswer PaymentDapr PaymentRequest)
    (hr : (daprPaymentServer rnd).Reach (fun _ _ => True) (System.start s) cfg) :
    ∃ cfg', (inMemoryPaymentServer rnd).Reach (fun _ _ => True) (System.start t) cfg' ∧
      Stored cfg.world.state cfg'.world.state ∧
        Levels.SameHistory (fun _ => SameReply) cfg.world.log cfg'.world.log := by
  have habstracts : (paymentLevels rnd).Abstracts (daprPaymentServer rnd) (inMemoryPaymentServer rnd)
      fun _ => SameReply :=
    Levels.abstracts_of_guard rfl rfl (fun _ _ => rfl) (fun _ _ => rfl) fun _ _ ht => sagaRefines.serve ht
  obtain ⟨cfg', hr', h⟩ := habstracts.sound hs hr
  exact ⟨cfg', hr', h.state, h.history⟩

/-- Two laptops for a budget that pays for one, both deliveries reading it. The second one loses the
race, finds nothing left, and is rejected, its save refused once. -/
def racedDeliveries : List (Action PaymentChoice PaymentRequest) :=
  let answered := List.map fun i => Action.step i PaymentChoice.answer
  [.invoke (.deliver laptopApproved),
      .invoke (.deliver (.approvalCompleted ⟨laptop, ⟨.humanReview, "", [], "t-2"⟩, .approved⟩))] ++
    answered [0, 0, 1, 1, 0, 1, 1, 1] ++ [.step 1 (.fail "connection reset")] ++
      answered [1, 1, 1] ++ [.respond 1] ++
    answered [0, 0, 0, 0, 0, 0] ++ [.respond 0, .invoke (.getBudget "engineering")] ++
      answered [2] ++ [.respond 2]

/-- A budget of 100 dollars. -/
def oneLaptop : PaymentDapr where
  store := Store.empty.put (DaprStateBudgetRepository.key "engineering")
    (.budget ⟨"engineering", .ofInt 100, .ofInt 100⟩)
  gateway := .empty
  published := []

theorem stored_oneLaptop : Stored oneLaptop (.seeded [("engineering", .ofInt 100)]) :=
  (Stored.mk .empty stands_empty rfl rfl : Stored ⟨.empty, .empty, []⟩ (.seeded [])).putBudget
    "engineering" _

def racedPayments : Config paymentDaprSig Exn PaymentAnswer PaymentDapr PaymentRequest :=
  ((daprPaymentServer defaultContext.rounding).runActions
    (fun _ _ => true) racedDeliveries (System.start oneLaptop)).get (by decide +kernel)

theorem racedDeliveries_refine :
    ∃ cfg', (inMemoryPaymentServer defaultContext.rounding).Reach (fun _ _ => True)
        (System.start (.seeded [("engineering", .ofInt 100)])) cfg' ∧
      Stored racedPayments.world.state cfg'.world.state ∧
      Levels.SameHistory (fun _ => SameReply) racedPayments.world.log cfg'.world.log :=
  daprPayment_refines _ oneLaptop _ stored_oneLaptop racedPayments
    (System.reach_of_runActions (fun _ _ _ => trivial) racedDeliveries (Option.some_get _).symm)

end Payment

end ApprovalFlow
