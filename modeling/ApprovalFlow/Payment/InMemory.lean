import ApprovalFlow.Payment.Service
import ApprovalFlow.Store.Dict
import ApprovalFlow.Async.Calls

/-!
# Payment over the in-memory repositories

Every repository method, publish and charge is one atomic operation here, which may instead raise its
infrastructure error without effect.

* `InMemoryBudgetRepository`: the locked budgets, as functions on a dictionary, for a rounding of the
  arithmetic.
* `Gateway`: the replies a gateway keeps by idempotency key; `SimulatedPaymentGateway`: the one that
  declines a set of invoice ids.
* `PaymentState`, `perform`, `faultyPayment`: the state of a deployment, what an operation does to it, and the
  handler in which operations may fail.
-/

namespace ApprovalFlow
open Numeric Async

/-! ## Budgets -/

namespace InMemoryBudgetRepository

def ensureSeeded (department : String) (total : Decimal) (budgets : Dict String Budget) :
    Dict String Budget :=
  match budgets.get? department with
  | some _ => budgets
  | none => budgets.insert department ⟨department, total, total⟩

/-- What `reserve` stores, or raises, where it finds `budget`. -/
def reserved (rnd : Rounding) (department : String) (amount : Decimal) (budget : Budget) :
    Except Exn Budget :=
  if budget.remaining < amount then .error (.insufficientBudgetError department)
  else (Exn.ofSignal (rnd.sub budget.remaining amount)).map fun r => { budget with remaining := r }

/-- What `release` stores, or raises, where it finds `budget`. -/
def released (rnd : Rounding) (department : String) (amount : Decimal) (budget : Budget) :
    Except Exn Budget :=
  (Exn.ofSignal (rnd.add budget.remaining amount)).bind fun newRemaining =>
    if budget.total < newRemaining then .error (.budgetCorruptionError department newRemaining budget.total)
    else .ok { budget with remaining := newRemaining }

theorem released_of_fits {rnd : Rounding} (department : String) {amount : Decimal} {budget : Budget}
    (hfits : rnd.Fits (budget.remaining.toRat + amount.toRat))
    (hle : budget.remaining.toRat + amount.toRat ≤ budget.total.toRat) :
    ∃ c, released rnd department amount budget = .ok { budget with remaining := c } ∧
      c.toRat = budget.remaining.toRat + amount.toRat := by
  obtain ⟨c, hc, hval⟩ := Rounding.add_of_fits hfits
  have hlt : ¬ budget.total < c := by
    rw [Decimal.lt_iff, hval, not_lt]
    exact hle
  refine ⟨c, ?_, hval⟩
  simp only [released, hc, Exn.ofSignal, Except.bind, if_neg hlt]

/-- Replace the budget of a department, under the lock. -/
def update (f : Budget → Except Exn Budget) (department : String) (budgets : Dict String Budget) :
    Except Exn Unit × Dict String Budget :=
  match budgets.get? department with
  | none => (.error (.budgetNotFoundError department), budgets)
  | some budget =>
    match f budget with
    | .error e => (.error e, budgets)
    | .ok b => (.ok (), budgets.insert department b)

def reserve (rnd : Rounding) (department : String) (amount : Decimal) :
    Dict String Budget → Except Exn Unit × Dict String Budget :=
  update (reserved rnd department amount) department

def release (rnd : Rounding) (department : String) (amount : Decimal) :
    Dict String Budget → Except Exn Unit × Dict String Budget :=
  update (released rnd department amount) department

end InMemoryBudgetRepository

/-! ## The gateway -/

/-- Replies by idempotency key (`none` for a success), and the number of executed charges. -/
structure Gateway where
  results : Dict String (Option String)
  executionCount : Nat

namespace Gateway

def empty : Gateway := ⟨.empty, 0⟩

/-- The reply to a charge. -/
def reply : Option String → Except Exn Unit
  | none => .ok ()
  | some message => .error (.paymentGatewayError message)

/-- `charge`, when a new charge would be answered by `verdict`: a known key replays its reply. -/
def charge (verdict : Option String) (idempotencyKey : String) (g : Gateway) : Except Exn Unit × Gateway :=
  match g.results.get? idempotencyKey with
  | some cached => (reply cached, g)
  | none => (reply verdict, ⟨g.results.insert idempotencyKey verdict, g.executionCount + 1⟩)

end Gateway

namespace Gateway
variable {verdict : Option String} {k : String} {g g' : Gateway} {r : Except Exn Unit}

theorem charge_reply (h : g.charge verdict k = (r, g')) :
    r = .ok () ∨ ∃ m, r = .error (.paymentGatewayError m) := by
  have hreply (v : Option String) : reply v = .ok () ∨ ∃ m, reply v = .error (.paymentGatewayError m) := by
    cases v with
    | none => exact .inl rfl
    | some m => exact .inr ⟨m, rfl⟩
  unfold charge at h
  split at h <;> cases h
  · exact hreply _
  · exact hreply _

theorem charge_result (verdict : Option String) (k : String) (g : Gateway) :
    ∃ v, (g.charge verdict k).1 = reply v ∧ (g.charge verdict k).2.results.get? k = some v := by
  unfold charge
  cases h : g.results.get? k with
  | some v => exact ⟨v, rfl, h⟩
  | none => exact ⟨verdict, rfl, Dict.get?_insert_self _ _ _⟩

end Gateway

/-- A gateway that declines the invoices with these ids. -/
structure SimulatedPaymentGateway where
  failureIds : List String

def SimulatedPaymentGateway.verdict (gw : SimulatedPaymentGateway) (invoice : Invoice) : Option String :=
  if invoice.id ∈ gw.failureIds then
    some ("Simulated gateway decline for invoice " ++ invoice.id ++ " (PAYMENT_SIMULATE_FAILURE_IDS).")
  else none

/-! ## Operations -/

inductive PaymentOp
  | savePayment (payment : PaymentRecord)
  | getPayment (trackingId : String)
  | listPayments
  | ensureSeeded (department : String) (total : Decimal)
  | getBudget (department : String)
  | reserve (department : String) (amount : Decimal)
  | release (department : String) (amount : Decimal)
  | publish (event : PaymentCompletedEvent)
  | charge (invoice : Invoice) (idempotencyKey : String)

@[reducible] def PaymentOp.Reply : PaymentOp → Type
  | getPayment _ => Option PaymentRecord
  | listPayments => List PaymentRecord
  | getBudget _ => Option Budget
  | _ => Unit

abbrev paymentSig : Sig := ⟨PaymentOp, PaymentOp.Reply⟩

abbrev PaymentOp.await (o : PaymentOp) : Prog paymentSig Exn o.Reply := @Prog.op paymentSig Exn o

/-- The service over the operations. -/
def inMemoryPayment : PaymentService paymentSig where
  repository := ⟨fun p => (PaymentOp.savePayment p).await, fun t => (PaymentOp.getPayment t).await,
    PaymentOp.listPayments.await⟩
  budgetRepository :=
    ⟨fun d x => (PaymentOp.ensureSeeded d x).await, fun d => (PaymentOp.getBudget d).await,
    fun d x => (PaymentOp.reserve d x).await, fun d x => (PaymentOp.release d x).await⟩
  publisher := ⟨fun e => (PaymentOp.publish e).await⟩
  gateway := ⟨fun i k => (PaymentOp.charge i k).await⟩

structure PaymentState where
  payments : Dict String PaymentRecord
  budgets : Dict String Budget
  gateway : Gateway
  published : List PaymentCompletedEvent

namespace PaymentState

/-- The state after startup: every department seeded. -/
def seeded (seeds : List (String × Decimal)) : PaymentState where
  payments := .empty
  budgets := seeds.foldl (fun b seed => InMemoryBudgetRepository.ensureSeeded seed.1 seed.2 b) .empty
  gateway := .empty
  published := []

/-- What an operation does, when a new charge would be answered by `verdict`. -/
def perform (rnd : Rounding) (verdict : Option String) : (o : PaymentOp) → PaymentState →
    Except Exn o.Reply × PaymentState
  | .savePayment p, s => (.ok (), { s with payments := s.payments.insert p.trackingId p })
  | .getPayment t, s => (.ok (s.payments.get? t), s)
  | .listPayments, s => (.ok s.payments.values, s)
  | .ensureSeeded d x, s =>
    (.ok (), { s with budgets := InMemoryBudgetRepository.ensureSeeded d x s.budgets })
  | .getBudget d, s => (.ok (s.budgets.get? d), s)
  | .reserve d x, s =>
    let r := InMemoryBudgetRepository.reserve rnd d x s.budgets
    (r.1, { s with budgets := r.2 })
  | .release d x, s =>
    let r := InMemoryBudgetRepository.release rnd d x s.budgets
    (r.1, { s with budgets := r.2 })
  | .publish e, s => (.ok (), { s with published := s.published ++ [e] })
  | .charge _ k, s =>
    let r := s.gateway.charge verdict k
    (r.1, { s with gateway := r.2 })

/-- The infrastructure error of an operation. -/
def infraError (details : String) : PaymentOp → Exn
  | .savePayment _ => .paymentRepositoryError (.text details)
  | .getPayment _ => .paymentRepositoryError (.text details)
  | .listPayments => .paymentRepositoryError (.text details)
  | .ensureSeeded _ _ => .budgetRepositoryError (.text details)
  | .getBudget _ => .budgetRepositoryError (.text details)
  | .reserve _ _ => .budgetRepositoryError (.text details)
  | .release _ _ => .budgetRepositoryError (.text details)
  | .publish _ => .paymentOutcomePublisherError details
  | .charge _ _ => .rpcError details

end PaymentState

/-- What the environment chooses for an operation: that it is performed, a new charge being accepted or
declined, or that it fails. -/
inductive PaymentChoice
  | answer
  | decline (message : String)
  | fail (details : String)
  deriving DecidableEq, Repr

/-- Operations that may fail without effect, and a gateway that may answer anything to a new key. -/
def faultyPayment (rnd : Rounding) : Handler paymentSig Exn PaymentState PaymentChoice
  | .answer, o, s => s.perform rnd none o
  | .decline message, o, s => s.perform rnd (some message) o
  | .fail details, o, s => (.error (PaymentState.infraError details o), s)

/-- Deliveries one after another, each with what the environment chooses for its operations. -/
abbrev PaymentRun := List (PaymentDelivery × List PaymentChoice)

abbrev PaymentHistory := List (Ran paymentSig Exn Unit PaymentDelivery)

/-- A run from startup: its history and its final state. -/
def paymentRun (rnd : Rounding) (seeds : List (String × Decimal)) (run : PaymentRun) :
    PaymentHistory × PaymentState :=
  runCalls (faultyPayment rnd) inMemoryPayment.handle run (.seeded seeds)

/-- One more delivery: its entry in the history and the state it leaves. -/
def deliver (rnd : Rounding) (delivery : PaymentDelivery) (cs : List PaymentChoice) (s : PaymentState) :
    Ran paymentSig Exn Unit PaymentDelivery × PaymentState :=
  runCall (faultyPayment rnd) inMemoryPayment.handle delivery cs s

theorem InMemoryBudgetRepository.get?_ensureSeeded {d d' : String} {x : Decimal}
    {budgets : Dict String Budget} {b : Budget} (h : (ensureSeeded d x budgets).get? d' = some b) :
    budgets.get? d' = some b ∨ d' = d ∧ b = ⟨d, x, x⟩ := by
  unfold ensureSeeded at h
  split at h
  · exact .inl h
  · rw [Dict.get?_insert] at h
    split_ifs at h with hd
    · cases h; exact .inr ⟨hd, rfl⟩
    · exact .inl h

theorem PaymentState.mem_seeded {seeds : List (String × Decimal)} {d : String} {b : Budget}
    (h : (PaymentState.seeded seeds).budgets.get? d = some b) : ∃ x, (d, x) ∈ seeds ∧ b = ⟨d, x, x⟩ := by
  have hfold (rest : List (String × Decimal)) (budgets : Dict String Budget)
      (hrest : ∀ seed ∈ rest, seed ∈ seeds)
      (hb : ∀ d b, budgets.get? d = some b → ∃ x, (d, x) ∈ seeds ∧ b = ⟨d, x, x⟩) :
      ∀ d b,
        (rest.foldl (fun b seed => InMemoryBudgetRepository.ensureSeeded seed.1 seed.2 b) budgets).get?
          d = some b →
        ∃ x, (d, x) ∈ seeds ∧ b = ⟨d, x, x⟩ := by
    induction rest generalizing budgets with
    | nil => exact hb
    | cons seed rest ih =>
      refine ih _ (fun s hs => hrest s (List.mem_cons_of_mem _ hs)) fun d b h => ?_
      rcases InMemoryBudgetRepository.get?_ensureSeeded h with h | ⟨rfl, rfl⟩
      · exact hb d b h
      · exact ⟨seed.2, hrest seed List.mem_cons_self, rfl⟩
  exact hfold seeds .empty (fun _ hs => hs) (fun _ _ h => by cases h) d b h

/-- The last delivery of every event returned normally. -/
def lastReturned : PaymentHistory → Bool
  | [] => true
  | r :: rest => (rest.any (·.call == r.call) || r.outcome == .returned ()) && lastReturned rest

/-- The router approves the laptop. -/
def laptopApproved : PaymentDelivery := .decisionCompleted ⟨laptop, ⟨.autoApprove, "", [], "t-1"⟩, none⟩

/-! ## What the saga awaits next -/

def PaymentOp.isSave : PaymentOp → Bool
  | savePayment _ => true
  | _ => false

def PaymentOp.isPublish : PaymentOp → Bool
  | publish _ => true
  | _ => false

/-- Entries after which the saga has one thing to do: a save after a move of a budget, a publish after a
terminal save. -/
structure Directed (P : Awaited paymentSig Exn → Bool) (N : PaymentOp → Bool) : Prop where
  get : ∀ t r, P ⟨.getPayment t, r⟩ = false
  charge : ∀ i t r, P ⟨.charge i t, r⟩ = false
  publish : ∀ e r, P ⟨.publish e, r⟩ = false
  failed : ∀ o e, P ⟨o, .error e⟩ = false
  reserve : ∀ d x, P ⟨.reserve d x, .ok ()⟩ = true → ∀ p, N (.savePayment p) = true
  release : ∀ d x, P ⟨.release d x, .ok ()⟩ = true → ∀ p, N (.savePayment p) = true
  save : ∀ p, P ⟨.savePayment p, .ok ()⟩ = true → p.status.terminal = true ∧ ∀ e, N (.publish e) = true

section Follows
variable {P : Awaited paymentSig Exn → Bool} {N : PaymentOp → Bool}

/-- An operation that may fail, and then is not followed by more than `f` says. -/
theorem Directed.op (h : Directed P N) {o : PaymentOp} {f : Except Exn o.Reply → Prog paymentSig Exn Unit}
    (hok : ∀ a, P ⟨o, .ok a⟩ = true → (f (.ok a)).Next N) (hf : ∀ r, (f r).Follows P N) :
    (o.await.attempt f).Follows P N := by
  refine Prog.follows_op fun r => ⟨fun hr => ?_, hf r⟩
  cases r with
  | ok a => exact hok a hr
  | error e =>
    rw [h.failed] at hr
    cases hr

theorem follows_saveAndPublish (h : Directed P N) (p : PaymentRecord) :
    (inMemoryPayment.saveAndPublish p).Follows P N := by
  refine h.op (fun _ hp => (h.save p hp).2 _) fun r => ?_
  cases r with
  | error e => trivial
  | ok _ =>
    refine fun r => ⟨fun hr => ?_, Prog.follows_ofExcept r⟩
    rw [h.publish] at hr
    cases hr

theorem follows_executeCharge (h : Directed P N) {record : PaymentRecord}
    (hst : record.status = .reserved) : (inMemoryPayment.executeCharge record).Follows P N := by
  rw [PaymentService.executeCharge_eq _ hst]
  refine h.op (fun _ hr => by rw [h.charge] at hr; cases hr) fun r => ?_
  rcases r with e | _
  · cases e
    case paymentGatewayError message =>
      refine h.op (fun _ hr => h.release _ _ hr _) fun r => ?_
      cases r with
      | error e => trivial
      | ok _ => exact follows_saveAndPublish h _
    all_goals trivial
  · exact follows_saveAndPublish h _

theorem follows_runSaga (h : Directed P N) (invoice : Invoice) (decision : Decision) :
    (inMemoryPayment.runSaga invoice decision).Follows P N := by
  rw [PaymentService.runSaga_eq]
  refine h.op (fun _ hr => by rw [h.get] at hr; cases hr) fun r => ?_
  rcases r with e | _ | record
  · trivial
  · refine h.op (fun _ hr => h.reserve _ _ hr _) fun r => ?_
    rcases r with e | _
    · rcases inMemoryPayment.afterReserve_error invoice decision e with he | ⟨reason, he⟩ <;> rw [he]
      · trivial
      · exact follows_saveAndPublish h _
    · refine h.op (fun _ hr => ?_) fun r => ?_
      · cases (h.save _ hr).1
      · cases r with
        | error e => trivial
        | ok _ => exact follows_executeCharge h rfl
  · rw [Prog.onOk_ok, PaymentService.afterGet]
    cases hst : record.status.terminal with
    | true =>
      rw [PaymentService.resume_of_terminal _ hst]
      trivial
    | false =>
      have hreserved := PaymentStatus.terminal_eq_false.mp hst
      rw [PaymentService.resume_of_reserved _ hreserved]
      exact follows_executeCharge h hreserved

/-- **What the saga does next**: after a move of a budget it saves, after the save of a terminal record
it publishes. -/
theorem follows_handle (h : Directed P N) (delivery : PaymentDelivery) :
    (inMemoryPayment.handle delivery).Follows P N := by
  rw [PaymentService.handle_eq]
  cases delivery.trigger with
  | none => trivial
  | some t => exact follows_runSaga h t.1 t.2

end Follows

/-! ## What an operation can do -/

variable {rnd : Rounding}

/-- **The rule of an operation**: the process crashes there, the operation is performed, or it fails. -/
theorem wp_faulty {β : Type} (o : PaymentOp) (f : Except Exn o.Reply → Prog paymentSig Exn β)
    (Q : Outcome Exn β → PaymentState × List (Awaited paymentSig Exn) → Prop) (s : PaymentState)
    (l : List (Awaited paymentSig Exn)) :
    wp (faultyPayment rnd).logged (o.await.attempt f) Q (s, l) ↔
      Q .crashed (s, l) ∧
        (∀ v, wp (faultyPayment rnd).logged (f (s.perform rnd v o).1) Q
          ((s.perform rnd v o).2, ⟨o, (s.perform rnd v o).1⟩ :: l)) ∧
        ∀ details, wp (faultyPayment rnd).logged (f (.error (PaymentState.infraError details o))) Q
          (s, ⟨o, .error (PaymentState.infraError details o)⟩ :: l) := by
  rw [Prog.op_attempt, wp_await]
  refine and_congr Iff.rfl ⟨fun h => ⟨fun v => ?_, fun details => h (.fail details)⟩, fun h c => ?_⟩
  · cases v with
    | none => exact h .answer
    | some m => exact h (.decline m)
  · cases c with
    | answer => exact h.1 none
    | decline m => exact h.1 (some m)
    | fail details => exact h.2 details

section Rules
variable {β : Type} {Q : Outcome Exn β → PaymentState × List (Awaited paymentSig Exn) → Prop}
    {s : PaymentState}
  {l : List (Awaited paymentSig Exn)}

theorem wp_save (p : PaymentRecord) (f : Except Exn Unit → Prog paymentSig Exn β) :
    wp (faultyPayment rnd).logged ((inMemoryPayment.repository.save p).attempt f) Q (s, l) ↔
      Q .crashed (s, l) ∧
        wp (faultyPayment rnd).logged (f (.ok ())) Q
          ({ s with payments := s.payments.insert p.trackingId p }, ⟨.savePayment p, .ok ()⟩ :: l) ∧
        ∀ details, wp (faultyPayment rnd).logged (f (.error (.paymentRepositoryError (.text details)))) Q
          (s, ⟨.savePayment p, .error (.paymentRepositoryError (.text details))⟩ :: l) := by
  refine (wp_faulty (.savePayment p) f Q s l).trans ?_
  simp only [PaymentState.perform, PaymentState.infraError, forall_const]

theorem wp_get (t : String) (f : Except Exn (Option PaymentRecord) → Prog paymentSig Exn β) :
    wp (faultyPayment rnd).logged ((inMemoryPayment.repository.get t).attempt f) Q (s, l) ↔
      Q .crashed (s, l) ∧
        wp (faultyPayment rnd).logged (f (.ok (s.payments.get? t))) Q
          (s, ⟨.getPayment t, .ok (s.payments.get? t)⟩ :: l) ∧
        ∀ details, wp (faultyPayment rnd).logged (f (.error (.paymentRepositoryError (.text details)))) Q
          (s, ⟨.getPayment t, .error (.paymentRepositoryError (.text details))⟩ :: l) := by
  refine (wp_faulty (.getPayment t) f Q s l).trans ?_
  simp only [PaymentState.perform, PaymentState.infraError, forall_const]

theorem wp_reserve (d : String) (x : Decimal) (f : Except Exn Unit → Prog paymentSig Exn β) :
    wp (faultyPayment rnd).logged ((inMemoryPayment.budgetRepository.reserve d x).attempt f) Q (s, l) ↔
      Q .crashed (s, l) ∧
        (∀ r budgets, InMemoryBudgetRepository.reserve rnd d x s.budgets = (r, budgets) →
          wp (faultyPayment rnd).logged (f r) Q ({ s with budgets := budgets }, ⟨.reserve d x, r⟩ :: l)) ∧
        ∀ details, wp (faultyPayment rnd).logged (f (.error (.budgetRepositoryError (.text details)))) Q
          (s, ⟨.reserve d x, .error (.budgetRepositoryError (.text details))⟩ :: l) := by
  refine (wp_faulty (.reserve d x) f Q s l).trans ?_
  simp only [PaymentState.perform, PaymentState.infraError, forall_const]
  refine and_congr Iff.rfl (and_congr ⟨fun h r budgets hr => ?_, fun h => h _ _ rfl⟩ Iff.rfl)
  rw [hr] at h
  exact h

theorem wp_release (d : String) (x : Decimal) (f : Except Exn Unit → Prog paymentSig Exn β) :
    wp (faultyPayment rnd).logged ((inMemoryPayment.budgetRepository.release d x).attempt f) Q (s, l) ↔
      Q .crashed (s, l) ∧
        (∀ r budgets, InMemoryBudgetRepository.release rnd d x s.budgets = (r, budgets) →
          wp (faultyPayment rnd).logged (f r) Q ({ s with budgets := budgets }, ⟨.release d x, r⟩ :: l)) ∧
        ∀ details, wp (faultyPayment rnd).logged (f (.error (.budgetRepositoryError (.text details)))) Q
          (s, ⟨.release d x, .error (.budgetRepositoryError (.text details))⟩ :: l) := by
  refine (wp_faulty (.release d x) f Q s l).trans ?_
  simp only [PaymentState.perform, PaymentState.infraError, forall_const]
  refine and_congr Iff.rfl (and_congr ⟨fun h r budgets hr => ?_, fun h => h _ _ rfl⟩ Iff.rfl)
  rw [hr] at h
  exact h

theorem wp_charge (i : Invoice) (k : String) (f : Except Exn Unit → Prog paymentSig Exn β) :
    wp (faultyPayment rnd).logged ((inMemoryPayment.gateway.charge i k).attempt f) Q (s, l) ↔
      Q .crashed (s, l) ∧
        (∀ v r gateway, s.gateway.charge v k = (r, gateway) →
          wp (faultyPayment rnd).logged (f r) Q ({ s with gateway := gateway }, ⟨.charge i k, r⟩ :: l)) ∧
        ∀ details, wp (faultyPayment rnd).logged (f (.error (.rpcError details))) Q
          (s, ⟨.charge i k, .error (.rpcError details)⟩ :: l) := by
  refine (wp_faulty (.charge i k) f Q s l).trans ?_
  simp only [PaymentState.perform, PaymentState.infraError]
  refine and_congr Iff.rfl (and_congr ⟨fun h v r gateway hr => ?_, fun h v => h _ _ _ rfl⟩ Iff.rfl)
  have := h v
  rw [hr] at this
  exact this

theorem wp_publish {Q : Outcome Exn Unit → PaymentState × List (Awaited paymentSig Exn) → Prop}
    (e : PaymentCompletedEvent) :
    wp (faultyPayment rnd).logged (inMemoryPayment.publisher.publish e) Q (s, l) ↔
      Q .crashed (s, l) ∧
        Q (.returned ()) ({ s with published := s.published ++ [e] }, ⟨.publish e, .ok ()⟩ :: l) ∧
        ∀ details, Q (.raised (.paymentOutcomePublisherError details))
          (s, ⟨.publish e, .error (.paymentOutcomePublisherError details)⟩ :: l) := by
  have hbody : inMemoryPayment.publisher.publish e = (PaymentOp.publish e).await.attempt .ofExcept :=
    (Prog.attempt_ofExcept _).symm
  rw [hbody]
  refine (wp_faulty (.publish e) .ofExcept Q s l).trans ?_
  simp only [PaymentState.perform, PaymentState.infraError, forall_const]
  rfl

end Rules

namespace InMemoryBudgetRepository
variable {d : String} {x : Decimal} {budgets budgets' : Dict String Budget} {f : Budget → Except Exn Budget}

theorem update_ok {d : String} (h : update f d budgets = (.ok (), budgets')) :
    ∃ b b', budgets.get? d = some b ∧ f b = .ok b' ∧ budgets' = budgets.insert d b' := by
  unfold update at h
  split at h
  · cases h
  · next b hb =>
    split at h
    · cases h
    · next b' hb' =>
      cases h
      exact ⟨b, b', hb, hb', rfl⟩

theorem update_error {d : String} {e : Exn} (h : update f d budgets = (.error e, budgets')) :
    budgets' = budgets := by
  unfold update at h
  split at h
  · cases h; rfl
  · split at h <;> cases h
    rfl

theorem reserved_ok {b b' : Budget} (h : reserved rnd d x b = .ok b') :
    ¬ b.remaining < x ∧ ∃ r, rnd.sub b.remaining x = .ok r ∧ b' = { b with remaining := r } := by
  unfold reserved at h
  split_ifs at h with hlt
  refine ⟨hlt, ?_⟩
  cases hr : rnd.sub b.remaining x with
  | error e => rw [hr] at h; cases h
  | ok r => rw [hr] at h; cases h; exact ⟨r, rfl, rfl⟩

theorem released_ok {b b' : Budget} (h : released rnd d x b = .ok b') :
    ∃ r, rnd.add b.remaining x = .ok r ∧ ¬ b.total < r ∧ b' = { b with remaining := r } := by
  unfold released at h
  cases hr : rnd.add b.remaining x with
  | error e => rw [hr] at h; cases h
  | ok r =>
    rw [hr] at h
    simp only [Exn.ofSignal, Except.bind] at h
    split_ifs at h with hlt
    cases h
    exact ⟨r, rfl, hlt, rfl⟩

end InMemoryBudgetRepository

end ApprovalFlow
