import ApprovalFlow.Payment.Bounds
import ApprovalFlow.Payment.Orphans

/-!
# Recovery

What a redelivery without failures makes of whatever the failures and crashes before it left.

* `Funded`: the budget of every reserved record exists; `run_funded`, after every run.
* `Settles`: the delivery returns and the record is terminal; `Stuck`: it reports a corrupt budget, and
  again at every redelivery while nothing else is delivered.
* `Refundable`: if the charge is declined, the refund fits the budget.
* `redelivery_settles`: a redelivery settles the payment where it is refundable, and else is stuck.
  `lost_refund_stuck`: after a decline whose save was lost.
-/

namespace ApprovalFlow.Payment
open Numeric Async

/-- The delivery returns and leaves a terminal record, which it announces unless it found it so. -/
def Settles (t : String) (s : PaymentState) (r : Except Exn Unit × PaymentState) : Prop :=
  r.1 = .ok () ∧ ∃ p, r.2.payments.get? t = some p ∧ p.status.terminal = true ∧
    (r.2 = s ∨ r.2.published = s.published ++ [p.event])

/-- The delivery reports a corrupt budget and leaves the record reserved; delivered again on what it
left, it does the same, whatever the gateway's verdict. -/
def Stuck (delivery : PaymentDelivery) (t : String) (r : Except Exn Unit × PaymentState) : Prop :=
  (∃ d new total, r.1 = .error (.budgetCorruptionError d new total)) ∧
    (∃ p, r.2.payments.get? t = some p ∧ p.status = .reserved) ∧
    ∀ verdict, (inMemoryPayment.handle delivery).eval (faultless .exact verdict) r.2 = r

/-- The gateway declines the charge under `t`, now or before. -/
def Declines (verdict : Option String) (t : String) (s : PaymentState) : Prop :=
  ∃ message, (s.gateway.charge verdict t).1 = .error (.paymentGatewayError message)

/-- If the charge is declined, the refund fits: the amount of a reserved record goes into its budget,
that of a new reservation into the budget it was taken from. -/
def Refundable (verdict : Option String) (invoice : Invoice) (t : String) (s : PaymentState) : Prop :=
  Declines verdict t s → match s.payments.get? t with
  | some p => p.status = .reserved → ∀ b, s.budgets.get? p.department = some b →
      b.remaining.toRat + p.reservedAmount.toRat ≤ b.total.toRat
  | none => ∀ b, s.budgets.get? invoice.department = some b → invoice.total.toRat ≤ b.remaining.toRat →
      b.remaining.toRat ≤ b.total.toRat

/-! ## Every reserved record has a budget -/

def Funded (s : PaymentState) : Prop :=
  ∀ t p, s.payments.get? t = some p → p.status = .reserved → ∃ b, s.budgets.get? p.department = some b

variable {s : PaymentState} {l : List (Awaited paymentSig Exn)}

/-- The outcome does not matter. -/
def LeavesFunded (_ : Outcome Exn Unit) (t : PaymentState × List (Awaited paymentSig Exn)) : Prop :=
  Funded t.1

theorem Funded.budgets (h : Funded s) {r : Except Exn Unit} {budgets : Dict String Budget} {d : String}
    {f : Budget → Except Exn Budget} (hr : InMemoryBudgetRepository.update f d s.budgets = (r, budgets)) :
    Funded { s with budgets := budgets } := by
  intro t p hp hst
  obtain ⟨b, hb⟩ := h t p hp hst
  cases r with
  | error e =>
    rw [InMemoryBudgetRepository.update_error hr]
    exact ⟨b, hb⟩
  | ok u =>
    obtain ⟨c, c', -, -, rfl⟩ := InMemoryBudgetRepository.update_ok hr
    show ∃ b, (s.budgets.insert d c').get? p.department = some b
    rw [Dict.get?_insert]
    split_ifs
    · exact ⟨c', rfl⟩
    · exact ⟨b, hb⟩

theorem Funded.save (h : Funded s) {p : PaymentRecord}
    (hp : p.status = .reserved → ∃ b, s.budgets.get? p.department = some b) :
    Funded { s with payments := s.payments.insert p.trackingId p } := by
  intro t q hq hst
  dsimp only at hq
  rw [Dict.get?_insert] at hq
  split_ifs at hq
  · cases hq
    exact hp hst
  · exact h t q hq hst

theorem publish_funded (h : Funded s) (e : PaymentCompletedEvent) :
    wp (faultyPayment .exact).logged (inMemoryPayment.publisher.publish e) LeavesFunded (s, l) := by
  rw [wp_publish]
  exact ⟨h, h, fun _ => h⟩

theorem saveAndPublish_funded (h : Funded s) {p : PaymentRecord} (hp : p.status ≠ .reserved) :
    wp (faultyPayment .exact).logged (inMemoryPayment.saveAndPublish p) LeavesFunded (s, l) := by
  unfold PaymentService.saveAndPublish
  rw [wp_save]
  exact ⟨h, publish_funded (h.save fun hst => absurd hst hp) _, fun _ => h⟩

theorem executeCharge_funded (h : Funded s) {p : PaymentRecord} (hp : p.status = .reserved) :
    wp (faultyPayment .exact).logged (inMemoryPayment.executeCharge p) LeavesFunded (s, l) := by
  rw [PaymentService.executeCharge_eq _ hp, wp_charge]
  refine ⟨h, fun v reply gateway hreply => ?_, fun _ => h⟩
  have h1 : Funded { s with gateway := gateway } := h
  rcases Gateway.charge_reply hreply with rfl | ⟨m, rfl⟩
  · exact saveAndPublish_funded h1 (by simp [PaymentRecord.completed])
  · rw [PaymentService.afterCharge, wp_release]
    refine ⟨h1, fun reply budgets hrel => ?_, fun _ => h1⟩
    have h2 := h1.budgets hrel
    cases reply with
    | error e => exact h2
    | ok u => exact saveAndPublish_funded h2 (by simp [PaymentRecord.declined])

theorem handle_funded (h : Funded s) (delivery : PaymentDelivery) :
    wp (faultyPayment .exact).logged (inMemoryPayment.handle delivery) LeavesFunded (s, l) := by
  rw [PaymentService.handle_eq]
  cases delivery.trigger with
  | none => exact h
  | some trigger =>
    obtain ⟨invoice, decision⟩ := trigger
    dsimp only
    rw [PaymentService.runSaga_eq, wp_get]
    refine ⟨h, ?_, fun _ => h⟩
    rw [Prog.onOk_ok]
    cases hget : s.payments.get? decision.correlationId with
    | some p =>
      rw [PaymentService.afterGet]
      cases hst : p.status.terminal with
      | true =>
        rw [PaymentService.resume_of_terminal _ hst]
        exact h
      | false =>
        have hp := PaymentStatus.terminal_eq_false.mp hst
        rw [PaymentService.resume_of_reserved _ hp]
        exact executeCharge_funded h hp
    | none =>
      rw [PaymentService.afterGet, wp_reserve]
      refine ⟨h, fun reply budgets hres => ?_, fun _ => h⟩
      have h1 := h.budgets hres
      cases reply with
      | error e =>
        rcases inMemoryPayment.afterReserve_error invoice decision e with he | ⟨reason, he⟩ <;> rw [he]
        · exact h1
        · exact saveAndPublish_funded h1 (by simp [PaymentRecord.ofRejection])
      | ok u =>
        obtain ⟨b, b', -, -, rfl⟩ := InMemoryBudgetRepository.update_ok hres
        have h2 := h1.save (p := .ofReservation invoice decision) fun _ => ⟨b', Dict.get?_insert_self _ _ _⟩
        rw [PaymentService.afterReserve, wp_save]
        exact ⟨h1, executeCharge_funded h2 rfl, fun _ => h1⟩

theorem run_funded (seeds : List (String × Decimal)) (run : PaymentRun) :
    Funded (paymentRun .exact seeds run).2 := by
  have hstep (delivery : PaymentDelivery) (s : PaymentState) (hs : Funded s) :
      wp (faultyPayment .exact).logged (inMemoryPayment.handle delivery)
        (fun _ t => True → Funded t.1) (s, []) :=
    wp_mono (fun _ _ ht _ => ht) (handle_funded hs delivery)
  refine runCalls_inv hstep run _ (fun t p hp _ => ?_) fun _ _ => trivial
  cases hp

/-! ## A delivery without failures -/

section Delivery
variable {verdict : Option String} {p : PaymentRecord} {b : Budget} {message : String}

theorem saveAndPublish_settles
    (s₀ : PaymentState) (hp : p.status.terminal = true) (hs : s.published = s₀.published) :
    Settles p.trackingId s₀ ((inMemoryPayment.saveAndPublish p).eval (faultless .exact verdict) s) := by
  have heval : (inMemoryPayment.saveAndPublish p).eval (faultless .exact verdict) s =
      (.ok (), { s with payments := s.payments.insert p.trackingId p, published := s.published ++
        [p.event] }) := by
    rw [PaymentService.saveAndPublish, Prog.eval_attempt]
    rfl
  rw [heval]
  exact ⟨rfl, p, Dict.get?_insert_self _ _ _, hp, .inr (by rw [hs])⟩

theorem eval_executeCharge (hp : p.status = .reserved) :
    (inMemoryPayment.executeCharge p).eval (faultless .exact verdict) s =
      (inMemoryPayment.afterCharge p (s.gateway.charge verdict p.trackingId).1).eval
        (faultless .exact verdict)
        { s with gateway := (s.gateway.charge verdict p.trackingId).2 } := by
  rw [PaymentService.executeCharge_eq _ hp, Prog.eval_attempt]
  have hcharge : (inMemoryPayment.gateway.charge p.invoice p.trackingId).eval (faultless .exact verdict) s =
      ((s.gateway.charge verdict p.trackingId).1,
        { s with gateway := (s.gateway.charge verdict p.trackingId).2 }) := Prog.eval_op _
  rw [hcharge]

theorem eval_release (p : PaymentRecord) (message : String) :
    (inMemoryPayment.afterCharge p (.error (.paymentGatewayError message))).eval
      (faultless .exact verdict) s =
      (Prog.onOk (fun _ => inMemoryPayment.saveAndPublish (p.declined message))
        (InMemoryBudgetRepository.release .exact p.department p.reservedAmount s.budgets).1).eval
          (faultless .exact verdict) { s with
            budgets :=
              (InMemoryBudgetRepository.release .exact p.department p.reservedAmount s.budgets).2 } := by
  rw [PaymentService.afterCharge, Prog.eval_attempt]
  have hrelease : (inMemoryPayment.budgetRepository.release p.department p.reservedAmount).eval
      (faultless .exact verdict) s =
        ((InMemoryBudgetRepository.release .exact p.department p.reservedAmount s.budgets).1,
          { s with
            budgets :=
              (InMemoryBudgetRepository.release .exact p.department p.reservedAmount s.budgets).2 }) :=
    Prog.eval_op _
  rw [hrelease]

/-- A reserved record is settled, unless the refund of a decline does not fit. -/
theorem executeCharge_settles (s₀ : PaymentState) (hs : s.published = s₀.published)
    (hp : p.status = .reserved) (hb : s.budgets.get? p.department = some b)
    (hfits : Declines verdict p.trackingId s → b.remaining.toRat + p.reservedAmount.toRat ≤ b.total.toRat) :
    Settles p.trackingId s₀ ((inMemoryPayment.executeCharge p).eval (faultless .exact verdict) s) := by
  rw [eval_executeCharge hp]
  rcases Gateway.charge_reply (Prod.mk.eta (p := s.gateway.charge verdict p.trackingId)).symm with
      hok | ⟨m, hm⟩
  · rw [hok]
    exact saveAndPublish_settles (p := p.completed) s₀ rfl hs
  · rw [hm, eval_release]
    obtain ⟨c, hrelease, -⟩ := @release_of_fits .exact _ _ _ _ hb rfl (hfits ⟨m, hm⟩)
    dsimp only
    rw [hrelease]
    exact saveAndPublish_settles (p := p.declined m) s₀ rfl hs

theorem charge_again (verdict verdict' : Option String) (k : String) (g : Gateway) :
    (g.charge verdict k).2.charge verdict' k = g.charge verdict k := by
  unfold Gateway.charge
  cases h : g.results.get? k with
  | some cached => simp only [h]
  | none => simp only [Dict.get?_insert_self]

theorem released_of_lt {x : Decimal} (d : String) (hlt : b.total.toRat < b.remaining.toRat + x.toRat) :
    ∃ new, InMemoryBudgetRepository.released .exact d x b =
      .error (.budgetCorruptionError d new b.total) := by
  have hfits : Rounding.exact.Fits (b.remaining.toRat + x.toRat) := rfl
  obtain ⟨c, hc, hval⟩ := Rounding.add_of_fits hfits
  have hgt : b.total < c := by
    rw [Decimal.lt_iff, hval]
    exact hlt
  refine ⟨c, ?_⟩
  simp only [InMemoryBudgetRepository.released, hc, Exn.ofSignal, Except.bind, if_pos hgt]

theorem executeCharge_refused {e : Exn} (hp : p.status = .reserved)
    (hb : s.budgets.get? p.department = some b)
    (hm : (s.gateway.charge verdict p.trackingId).1 = .error (.paymentGatewayError message))
    (hrel : InMemoryBudgetRepository.released .exact p.department p.reservedAmount b = .error e) :
    (inMemoryPayment.executeCharge p).eval (faultless .exact verdict) s =
      (.error e, { s with gateway := (s.gateway.charge verdict p.trackingId).2 }) := by
  rw [eval_executeCharge hp, hm, eval_release]
  simp only [InMemoryBudgetRepository.release, InMemoryBudgetRepository.update, hb, hrel,
    Prog.onOk_error, Prog.eval_raise]

variable {delivery : PaymentDelivery} {invoice : Invoice} {decision : Decision}

theorem eval_handle (htrigger : delivery.trigger = some (invoice, decision)) :
    (inMemoryPayment.handle delivery).eval (faultless .exact verdict) s =
      (inMemoryPayment.afterGet invoice decision (s.payments.get? decision.correlationId)).eval
        (faultless .exact verdict) s := by
  have hget : (inMemoryPayment.repository.get decision.correlationId).eval (faultless .exact verdict) s =
      (.ok (s.payments.get? decision.correlationId), s) := Prog.eval_op _
  rw [PaymentService.handle_eq, htrigger]
  dsimp only
  rw [PaymentService.runSaga_eq, Prog.eval_attempt, hget, Prog.onOk_ok]

theorem eval_resume (htrigger : delivery.trigger = some (invoice, decision)) (hp : p.status = .reserved)
    (hget : s.payments.get? decision.correlationId = some p) :
    (inMemoryPayment.handle delivery).eval (faultless .exact verdict) s =
      (inMemoryPayment.executeCharge p).eval (faultless .exact verdict) s := by
  rw [eval_handle htrigger, hget, PaymentService.afterGet, PaymentService.resume_of_reserved _ hp]

theorem executeCharge_stuck (htrigger : delivery.trigger = some (invoice, decision))
    (hp : p.status = .reserved)
    (ht : p.trackingId = decision.correlationId) (hget : s.payments.get? p.trackingId = some p)
    (hb : s.budgets.get? p.department = some b) (hdecline : Declines verdict p.trackingId s)
    (hlt : b.total.toRat < b.remaining.toRat + p.reservedAmount.toRat) :
    Stuck delivery p.trackingId ((inMemoryPayment.executeCharge p).eval (faultless .exact verdict) s) := by
  obtain ⟨m, hm⟩ := hdecline
  obtain ⟨new, hrel⟩ := released_of_lt p.department hlt
  rw [executeCharge_refused hp hb hm hrel]
  refine ⟨⟨_, _, _, rfl⟩, ⟨p, hget, hp⟩, fun verdict' => ?_⟩
  -- the redelivery finds the record and the reply that the gateway keeps
  have hagain : (s.gateway.charge verdict p.trackingId).2.charge verdict' p.trackingId =
      s.gateway.charge verdict p.trackingId := charge_again _ _ _ _
  set s' := { s with gateway := (s.gateway.charge verdict p.trackingId).2 } with hs'
  have hm' : (s'.gateway.charge verdict' p.trackingId).1 = .error (.paymentGatewayError m) := by
    rw [hs', hagain, hm]
  rw [eval_resume htrigger hp (by rw [← ht]; exact hget)]
  refine (executeCharge_refused (s := s') hp hb hm' hrel).trans ?_
  rw [hs', hagain]

theorem eval_reserved (c : Dict String Budget) :
    (inMemoryPayment.afterReserve invoice decision (.ok ())).eval (faultless .exact verdict)
      { s with budgets := c } =
      (inMemoryPayment.executeCharge (.ofReservation invoice decision)).eval (faultless .exact verdict)
        { s with
          payments := s.payments.insert decision.correlationId (.ofReservation invoice decision)
          budgets := c } := by
  have hsave : (inMemoryPayment.repository.save (.ofReservation invoice decision)).eval
      (faultless .exact verdict) { s with budgets := c } =
        (.ok (), { s with
          payments := s.payments.insert decision.correlationId (.ofReservation invoice decision)
          budgets := c }) := Prog.eval_op _
  simp only [PaymentService.afterReserve]
  rw [Prog.eval_attempt, hsave, Prog.onOk_ok]

end Delivery

/-! ## Redeliveries -/

section Redelivery
variable {verdict : Option String} {delivery : PaymentDelivery} {invoice : Invoice} {decision : Decision}

theorem resume_recovers (hf : Funded s) (hk : ∀ t p, s.payments.get? t = some p → p.trackingId = t)
    (htrigger : delivery.trigger = some (invoice, decision)) {p : PaymentRecord}
    (hget : s.payments.get? decision.correlationId = some p) :
    let r := (inMemoryPayment.handle delivery).eval (faultless .exact verdict) s
    (Refundable verdict invoice decision.correlationId s → Settles decision.correlationId s r) ∧
    (¬ Refundable verdict invoice decision.correlationId s → Stuck delivery decision.correlationId r) := by
  simp only [Refundable, hget]
  cases hst : p.status.terminal with
  | true =>
    rw [eval_handle htrigger, hget, PaymentService.afterGet, PaymentService.resume_of_terminal _ hst]
    refine ⟨fun _ => ⟨rfl, p, hget, hst, .inl rfl⟩, fun h => absurd (fun _ hp => ?_) h⟩
    rw [PaymentStatus.terminal_eq_false.mpr hp] at hst
    cases hst
  | false =>
    have hp := PaymentStatus.terminal_eq_false.mp hst
    obtain ⟨b, hb⟩ := hf _ p hget hp
    have ht := hk _ p hget
    rw [eval_resume htrigger hp hget, ← ht]
    rw [← ht] at hget
    refine ⟨fun h => executeCharge_settles s rfl hp hb fun hd => h hd hp b hb, fun h => ?_⟩
    rw [Classical.not_imp] at h
    obtain ⟨hd, h⟩ := h
    refine executeCharge_stuck htrigger hp ht hget hb hd (not_le.mp fun hle => h fun _ b' hb' => ?_)
    rw [hb] at hb'
    cases hb'
    exact hle

theorem reserve_recovers (htrigger : delivery.trigger = some (invoice, decision))
    (hget : s.payments.get? decision.correlationId = none) :
    let r := (inMemoryPayment.handle delivery).eval (faultless .exact verdict) s
    (Refundable verdict invoice decision.correlationId s → Settles decision.correlationId s r) ∧
    (¬ Refundable verdict invoice decision.correlationId s → Stuck delivery decision.correlationId r) := by
  have hreserve : (inMemoryPayment.budgetRepository.reserve invoice.department invoice.total).eval
      (faultless .exact verdict) s =
        ((InMemoryBudgetRepository.reserve .exact invoice.department invoice.total s.budgets).1,
          { s with
            budgets :=
              (InMemoryBudgetRepository.reserve .exact invoice.department invoice.total s.budgets).2 }) :=
    Prog.eval_op _
  rw [eval_handle htrigger, hget, PaymentService.afterGet, Prog.eval_attempt, hreserve]
  simp only [Refundable, hget]
  cases hb : s.budgets.get? invoice.department with
  | none =>
    have hnone : InMemoryBudgetRepository.reserve .exact invoice.department invoice.total s.budgets =
        (.error (.budgetNotFoundError invoice.department), s.budgets) := by
      simp only [InMemoryBudgetRepository.reserve, InMemoryBudgetRepository.update, hb]
    rw [hnone]
    refine ⟨fun _ => ?_, fun h => absurd (fun _ b hb => by cases hb) h⟩
    exact saveAndPublish_settles (p := .ofRejection invoice decision _) s rfl rfl
  | some b =>
    by_cases hlt : b.remaining.toRat < invoice.total.toRat
    · rw [reserve_of_lt hb hlt]
      refine ⟨fun _ => ?_, fun h => absurd (fun _ b' hb' hle => ?_) h⟩
      · exact saveAndPublish_settles (p := .ofRejection invoice decision _) s rfl rfl
      · cases hb'
        exact absurd hlt (not_lt.mpr hle)
    · have hle := not_lt.mp hlt
      obtain ⟨c, hreserved, hc⟩ := @reserve_of_fits .exact _ _ _ _ hb hle rfl
      rw [hreserved, eval_reserved]
      have hsum : c.toRat + invoice.total.toRat = b.remaining.toRat := by rw [hc, sub_add_cancel]
      refine ⟨fun h => ?_, fun h => ?_⟩
      · refine executeCharge_settles (p := .ofReservation invoice decision) s rfl rfl
          (Dict.get?_insert_self _ _ _) fun hd => ?_
        show c.toRat + invoice.total.toRat ≤ b.total.toRat
        rw [hsum]
        exact h hd b rfl hle
      · rw [Classical.not_imp] at h
        obtain ⟨hd, h⟩ := h
        refine executeCharge_stuck (p := .ofReservation invoice decision) htrigger rfl rfl
          (Dict.get?_insert_self _ _ _)
          (Dict.get?_insert_self _ _ _) hd (not_le.mp fun hroom => h fun b' hb' _ => ?_)
        cases hb'
        rw [← hsum]
        exact hroom

end Redelivery

/-- **Recovery**: after any run, with any failures and crashes, a delivery without failures settles its
payment, where the refund of a declined charge fits the budget; where it does not, the payment is stuck.
-/
theorem redelivery_settles (seeds : List (String × Decimal)) (run : PaymentRun) (delivery : PaymentDelivery)
    (verdict : Option String) (invoice : Invoice) (decision : Decision)
    (htrigger : delivery.trigger = some (invoice, decision)) :
    let s := (paymentRun .exact seeds run).2
    let r := (inMemoryPayment.handle delivery).eval (faultless .exact verdict) s
    (Refundable verdict invoice decision.correlationId s → Settles decision.correlationId s r) ∧
    (¬ Refundable verdict invoice decision.correlationId s → Stuck delivery decision.correlationId r) := by
  have hf := run_funded seeds run
  have hk := (run_accounts seeds run).keyed
  cases hget : (paymentRun .exact seeds run).2.payments.get? decision.correlationId with
  | some p => exact resume_recovers hf hk htrigger hget
  | none => exact reserve_recovers htrigger hget

/-- The laptop's charge is declined and its amount released, and the save of the declined record is lost. -/
def lostRefund : PaymentHistory × PaymentState :=
  paymentRun .exact [("engineering", .ofInt 1000)]
    [(laptopApproved, [.answer, .answer, .answer, .decline "card expired", .answer,
      .fail "connection lost"])]

/-- **A lost save after a refund** leaves the payment stuck. -/
theorem lost_refund_stuck : Stuck laptopApproved "t-1"
    ((inMemoryPayment.handle laptopApproved).eval (faultless .exact none) lostRefund.2) := by
  refine (redelivery_settles _ _ laptopApproved none laptop ⟨.autoApprove, "", [], "t-1"⟩ rfl).2 fun h => ?_
  have hget : lostRefund.2.payments.get? "t-1" =
      some (.ofReservation laptop ⟨.autoApprove, "", [], "t-1"⟩) := by decide
  have hb : lostRefund.2.budgets.get? "engineering" =
      some ⟨"engineering", .ofInt 1000, .ofInt 1000⟩ := by decide
  have hroom := h ⟨"card expired", by decide⟩
  simp only [show (paymentRun _ _ _).2.payments.get? "t-1" = _ from hget] at hroom
  have hle := hroom rfl _ hb
  norm_num [PaymentRecord.ofReservation, laptop] at hle

end ApprovalFlow.Payment
