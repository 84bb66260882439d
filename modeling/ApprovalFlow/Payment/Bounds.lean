import ApprovalFlow.Payment.InMemory
import ApprovalFlow.Decision.Router

/-!
# Budget bounds

Deliveries one after another, without faults; the gateway answers each new charge as it likes.

* `Bounded`: every remaining balance lies between zero and the total.
* `Covered`: a new reservation leaves at most the total, without rounding.
* `budgets_bounded`: in a run whose deliveries are covered every state is bounded and no budget is corrupt;
  `credit_note_corrupts_budget`: an approved credit note.
-/

namespace ApprovalFlow.Payment
open Numeric Async

/-- Every operation answered, a new charge by `verdict`. -/
def faultless (rnd : Rounding) (verdict : Option String) (o : PaymentOp) (s : PaymentState) :
    Except Exn o.Reply × PaymentState :=
  s.perform rnd verdict o

/-- Deliveries after startup, each with the verdict on a new charge: their results, and the states they
leave. -/
def deliveries (rnd : Rounding) (seeds : List (String × Decimal))
    (run : List (PaymentDelivery × Option String)) : List (Except Exn Unit × PaymentState) :=
  trace (faultless rnd) inMemoryPayment.handle run (.seeded seeds)

/-- `0 <= remaining <= total`, of every department. -/
def Bounded (s : PaymentState) : Prop :=
  ∀ d b, s.budgets.get? d = some b → Decimal.zero ≤ b.remaining ∧ b.remaining ≤ b.total

/-- A delivery that makes a new reservation leaves no more than the total, a number that fits the
precision. -/
def Covered (rnd : Rounding) (delivery : PaymentDelivery) (s : PaymentState) : Prop :=
  ∀ invoice decision, delivery.trigger = some (invoice, decision) →
    s.payments.get? decision.correlationId = none →
    ∀ b, s.budgets.get? invoice.department = some b → invoice.total.toRat ≤ b.remaining.toRat →
      b.remaining.toRat - invoice.total.toRat ≤ b.total.toRat ∧
        rnd.Fits (b.remaining.toRat - invoice.total.toRat)

/-! ## The invariant -/

/-- A budget within its bounds, and one that arithmetic produced. -/
def Sound (rnd : Rounding) (b : Budget) : Prop :=
  0 ≤ b.remaining.toRat ∧ b.remaining.toRat ≤ b.total.toRat ∧ rnd.Fits b.remaining.toRat

/-- Every budget is sound and every record terminal. -/
structure Cleared (rnd : Rounding) (s : PaymentState) : Prop where
  sound : ∀ d b, s.budgets.get? d = some b → Sound rnd b
  terminal : ∀ t r, s.payments.get? t = some r → r.status.terminal = true

variable {rnd : Rounding} {s : PaymentState}

theorem Cleared.bounded (h : Cleared rnd s) : Bounded s := by
  intro d b hb
  obtain ⟨h0, hle, -⟩ := h.sound d b hb
  rw [Decimal.le_iff, Decimal.le_iff, Decimal.toRat_zero]
  exact ⟨h0, hle⟩

theorem sound_insert {budgets : Dict String Budget}
    (h : ∀ d b, budgets.get? d = some b → Sound rnd b) (d : String)
    {b : Budget} (hb : Sound rnd b) : ∀ d' b', (budgets.insert d b).get? d' = some b' → Sound rnd b' := by
  intro d' b' hb'
  rw [Dict.get?_insert] at hb'
  split_ifs at hb' with hd
  · cases hb'
    exact hb
  · exact h d' b' hb'

theorem terminal_insert {payments : Dict String PaymentRecord} {t : String} {p : PaymentRecord}
    (h : ∀ t' r, t' ≠ t → payments.get? t' = some r → r.status.terminal = true)
    (hp : p.status.terminal = true) :
    ∀ t' r, (payments.insert t p).get? t' = some r → r.status.terminal = true := by
  intro t' r hr
  rw [Dict.get?_insert] at hr
  split_ifs at hr with ht
  · cases hr
    exact hp
  · exact h t' r ht hr

theorem startup_cleared {seeds : List (String × Decimal)}
    (h : ∀ seed ∈ seeds, 0 ≤ seed.2.toRat ∧ rnd.Fits seed.2.toRat) : Cleared rnd (.seeded seeds) where
  sound d b hb := by
    obtain ⟨x, hx, rfl⟩ := PaymentState.mem_seeded hb
    exact ⟨(h _ hx).1, le_rfl, (h _ hx).2⟩
  terminal t r hr := by cases hr

/-! ## Exact moves -/

section Moves
variable {budgets : Dict String Budget} {d : String} {x : Decimal} {b : Budget}

theorem release_of_fits (hb : budgets.get? d = some b) (hfits : rnd.Fits (b.remaining.toRat + x.toRat))
    (hle : b.remaining.toRat + x.toRat ≤ b.total.toRat) :
    ∃ c, InMemoryBudgetRepository.release rnd d x budgets =
      (.ok (), budgets.insert d { b with remaining := c }) ∧
      c.toRat = b.remaining.toRat + x.toRat := by
  obtain ⟨c, hc, hval⟩ := InMemoryBudgetRepository.released_of_fits d hfits hle
  refine ⟨c, ?_, hval⟩
  simp only [InMemoryBudgetRepository.release, InMemoryBudgetRepository.update, hb, hc]

theorem reserve_of_fits (hb : budgets.get? d = some b) (hle : x.toRat ≤ b.remaining.toRat)
    (hfits : rnd.Fits (b.remaining.toRat - x.toRat)) :
    ∃ c, InMemoryBudgetRepository.reserve rnd d x budgets =
      (.ok (), budgets.insert d { b with remaining := c }) ∧
      c.toRat = b.remaining.toRat - x.toRat := by
  obtain ⟨c, hc, hval⟩ := Rounding.sub_of_fits hfits
  have hlt : ¬ b.remaining < x := by
    rw [Decimal.lt_iff, not_lt]
    exact hle
  refine ⟨c, ?_, hval⟩
  simp only [InMemoryBudgetRepository.reserve, InMemoryBudgetRepository.update, hb,
    InMemoryBudgetRepository.reserved, hc, if_neg hlt]
  rfl

theorem reserve_of_lt (hb : budgets.get? d = some b) (hlt : b.remaining.toRat < x.toRat) :
    InMemoryBudgetRepository.reserve rnd d x budgets = (.error (.insufficientBudgetError d), budgets) := by
  rw [← Decimal.lt_iff] at hlt
  simp only [InMemoryBudgetRepository.reserve, InMemoryBudgetRepository.update, hb,
    InMemoryBudgetRepository.reserved, if_pos hlt]

end Moves

/-! ## What a delivery leaves -/

/-- A delivery reports no corruption and leaves a cleared state. -/
def ClearedBy (rnd : Rounding) (r : Except Exn Unit × PaymentState) : Prop :=
  Cleared rnd r.2 ∧ ∀ d new total, r.1 ≠ .error (.budgetCorruptionError d new total)

variable {v : Option String}

theorem saveAndPublish_cleared {p : PaymentRecord} (hp : p.status.terminal = true)
    (hsound : ∀ d b, s.budgets.get? d = some b → Sound rnd b)
    (hterminal : ∀ t r, t ≠ p.trackingId → s.payments.get? t = some r → r.status.terminal = true) :
    ClearedBy rnd ((inMemoryPayment.saveAndPublish p).eval (faultless rnd v) s) := by
  have heval : (inMemoryPayment.saveAndPublish p).eval (faultless rnd v) s =
      (.ok (), { s with payments := s.payments.insert p.trackingId p, published := s.published ++
        [p.event] }) := by
    rw [PaymentService.saveAndPublish, Prog.eval_attempt]
    rfl
  rw [heval]
  exact ⟨⟨hsound, terminal_insert hterminal hp⟩, fun d new total h => by cases h⟩

/-- The charge of a record, where its budget has room for the amount to be released. -/
theorem executeCharge_cleared {p : PaymentRecord} (hp : p.status = .reserved)
    (hsound : ∀ d b, s.budgets.get? d = some b → Sound rnd b)
    (hterminal : ∀ t r, t ≠ p.trackingId → s.payments.get? t = some r → r.status.terminal = true)
    {b : Budget}
    (hb : s.budgets.get? p.department = some b) {q : ℚ}
    (hq : b.remaining.toRat + p.reservedAmount.toRat = q)
    (hfits : rnd.Fits q) (hnonneg : 0 ≤ q) (hle : q ≤ b.total.toRat) :
    ClearedBy rnd ((inMemoryPayment.executeCharge p).eval (faultless rnd v) s) := by
  rw [PaymentService.executeCharge_eq _ hp, Prog.eval_attempt]
  have hcharge : (inMemoryPayment.gateway.charge p.invoice p.trackingId).eval (faultless rnd v) s =
      ((s.gateway.charge v p.trackingId).1,
        { s with gateway := (s.gateway.charge v p.trackingId).2 }) := Prog.eval_op _
  rw [hcharge]
  rcases Gateway.charge_reply (Prod.mk.eta (p := s.gateway.charge v p.trackingId)).symm with hok | ⟨m, hm⟩
  · rw [hok]
    exact saveAndPublish_cleared rfl hsound hterminal
  · rw [hm, PaymentService.afterCharge, Prog.eval_attempt]
    subst hq
    obtain ⟨c, hrelease, hc⟩ := release_of_fits hb hfits hle
    have heval : (inMemoryPayment.budgetRepository.release p.department p.reservedAmount).eval
        (faultless rnd v) { s with gateway := (s.gateway.charge v p.trackingId).2 } =
          ((InMemoryBudgetRepository.release rnd p.department p.reservedAmount s.budgets).1,
            { s with
              gateway := (s.gateway.charge v p.trackingId).2,
              budgets :=
                (InMemoryBudgetRepository.release rnd p.department p.reservedAmount s.budgets).2 }) :=
      Prog.eval_op _
    rw [heval, hrelease]
    have hsound' : Sound rnd { b with remaining := c } := by
      show 0 ≤ c.toRat ∧ c.toRat ≤ b.total.toRat ∧ rnd.Fits c.toRat
      rw [hc]
      exact ⟨hnonneg, hle, hfits⟩
    exact saveAndPublish_cleared rfl (sound_insert hsound p.department hsound') hterminal

section Saga
variable {invoice : Invoice} {decision : Decision}

/-- The saga after the reservation, which left `c` of the budget. -/
theorem afterReserve_cleared (h : Cleared rnd s) {b : Budget} {c : Decimal}
    (hb : s.budgets.get? invoice.department = some b)
    (hc : c.toRat = b.remaining.toRat - invoice.total.toRat) (hle : invoice.total.toRat ≤ b.remaining.toRat)
    (htotal : b.remaining.toRat - invoice.total.toRat ≤ b.total.toRat)
    (hfits : rnd.Fits (b.remaining.toRat - invoice.total.toRat)) :
    ClearedBy rnd ((inMemoryPayment.afterReserve invoice decision (.ok ())).eval (faultless rnd v)
      { s with budgets := s.budgets.insert invoice.department { b with remaining := c } }) := by
  have hsound : Sound rnd { b with remaining := c } := by
    show 0 ≤ c.toRat ∧ c.toRat ≤ b.total.toRat ∧ rnd.Fits c.toRat
    rw [hc]
    exact ⟨sub_nonneg.mpr hle, htotal, hfits⟩
  have hsave (s' : PaymentState) :
      (inMemoryPayment.repository.save (.ofReservation invoice decision)).eval (faultless rnd v) s' =
        (.ok (), { s' with
          payments := s'.payments.insert decision.correlationId (.ofReservation invoice decision) }) :=
    Prog.eval_op _
  simp only [PaymentService.afterReserve]
  rw [Prog.eval_attempt, hsave, Prog.onOk_ok]
  obtain ⟨h0, hbound, hfits'⟩ := h.sound _ b hb
  refine executeCharge_cleared (q := b.remaining.toRat) rfl (sound_insert h.sound _ hsound)
    (fun t r (ht : t ≠ decision.correlationId) hr => ?_) (Dict.get?_insert_self _ _ _) ?_ hfits' h0 hbound
  · have hr' : (s.payments.insert decision.correlationId
        (.ofReservation invoice decision)).get? t = some r := hr
    rw [Dict.get?_insert_ne _ _ ht] at hr'
    exact h.terminal t r hr'
  · show c.toRat + invoice.total.toRat = b.remaining.toRat
    rw [hc, sub_add_cancel]

theorem reserve_cleared (h : Cleared rnd s)
    (hcov : ∀ b, s.budgets.get? invoice.department = some b → invoice.total.toRat ≤ b.remaining.toRat →
      b.remaining.toRat - invoice.total.toRat ≤ b.total.toRat ∧
        rnd.Fits (b.remaining.toRat - invoice.total.toRat)) :
    ClearedBy rnd ((inMemoryPayment.afterGet invoice decision none).eval (faultless rnd v) s) := by
  have hreserve : (inMemoryPayment.budgetRepository.reserve invoice.department invoice.total).eval
      (faultless rnd v) s =
      ((InMemoryBudgetRepository.reserve rnd invoice.department invoice.total s.budgets).1,
        { s with
          budgets :=
            (InMemoryBudgetRepository.reserve rnd invoice.department invoice.total s.budgets).2 }) :=
    Prog.eval_op _
  have hterminal (t : String) (r : PaymentRecord) (_ : t ≠ decision.correlationId)
      (hr : s.payments.get? t = some r) : r.status.terminal = true := h.terminal t r hr
  rw [PaymentService.afterGet, Prog.eval_attempt, hreserve]
  cases hb : s.budgets.get? invoice.department with
  | none =>
    have hnone : InMemoryBudgetRepository.reserve rnd invoice.department invoice.total s.budgets =
        (.error (.budgetNotFoundError invoice.department), s.budgets) := by
      simp only [InMemoryBudgetRepository.reserve, InMemoryBudgetRepository.update, hb]
    rw [hnone]
    exact saveAndPublish_cleared rfl h.sound hterminal
  | some b =>
    by_cases hlt : b.remaining.toRat < invoice.total.toRat
    · rw [reserve_of_lt hb hlt]
      exact saveAndPublish_cleared rfl h.sound hterminal
    · rw [not_lt] at hlt
      obtain ⟨htotal, hfits⟩ := hcov b hb hlt
      obtain ⟨c, hc, hval⟩ := reserve_of_fits hb hlt hfits
      rw [hc]
      exact afterReserve_cleared h hb hval hlt htotal hfits

end Saga

/-- **A covered delivery** keeps a cleared state cleared. -/
theorem handle_cleared (h : Cleared rnd s) (delivery : PaymentDelivery) (hcov : Covered rnd delivery s) :
    ClearedBy rnd ((inMemoryPayment.handle delivery).eval (faultless rnd v) s) := by
  rw [PaymentService.handle_eq]
  cases htrigger : delivery.trigger with
  | none => exact ⟨h, fun d new total h => by cases h⟩
  | some trigger =>
    obtain ⟨invoice, decision⟩ := trigger
    have hget : (inMemoryPayment.repository.get decision.correlationId).eval (faultless rnd v) s =
        (.ok (s.payments.get? decision.correlationId), s) := Prog.eval_op _
    dsimp only
    rw [PaymentService.runSaga_eq, Prog.eval_attempt, hget, Prog.onOk_ok]
    cases hrecord : s.payments.get? decision.correlationId with
    | some record =>
      have hterm : record.status.terminal = true := h.terminal _ _ hrecord
      rw [PaymentService.afterGet, PaymentService.resume_of_terminal _ hterm]
      exact ⟨h, fun d new total h => by cases h⟩
    | none => exact reserve_cleared h (hcov invoice decision htrigger hrecord)

/-- **Budget bounds**: with seeds that are not negative and fit the precision, in a run of covered
deliveries every state keeps `0 <= remaining <= total` for every department, and no delivery reports a
corrupt budget. -/
theorem budgets_bounded (rnd : Rounding) (seeds : List (String × Decimal))
    (hseeds : ∀ seed ∈ seeds, 0 ≤ seed.2.toRat ∧ rnd.Fits seed.2.toRat)
    (run : List (PaymentDelivery × Option String))
    (hrun : Meets (Covered rnd) (faultless rnd) inMemoryPayment.handle run (.seeded seeds)) :
    Bounded (.seeded seeds) ∧ ∀ r ∈ deliveries rnd seeds run,
      Bounded r.2 ∧ ∀ d new total, r.1 ≠ .error (.budgetCorruptionError d new total) := by
  have hstart : Cleared rnd (.seeded seeds) := startup_cleared hseeds
  refine ⟨hstart.bounded, trace_inv (I := Cleared rnd) (fun delivery v s hs hcov => ?_) run _ hstart hrun⟩
  have hcleared := handle_cleared (v := v) hs delivery hcov
  exact ⟨hcleared.1, hcleared.1.bounded, hcleared.2⟩

/-- An approval of the agent, with full confidence. -/
def approves : Recommendation := ⟨.approve, .one, [], "", by decide⟩

/-- The vendor of the laptop gives 50 dollars back. -/
def creditNote : Invoice :=
  { laptop with
    id := "INV-2", invoiceNumber := "A-2", lineItems := [⟨"credit", .ofInt 1, .ofInt (-50)⟩],
      total := .ofInt (-50) }

/-- What the router decides for an invoice that the agent approves. -/
def approved (invoice : Invoice) (correlationId : String) : Except Signal Decision :=
  routeDecision (.decimal defaultContext) invoice (some approves) false defaultThresholds correlationId

/-- A laptop that is paid. -/
def laptopPaid : List (PaymentDelivery × Option String) := [(laptopApproved, none)]

theorem budgets_bounded_laptop :
    Bounded (.seeded [("engineering", .ofInt 1000)]) ∧
      ∀ r ∈ deliveries .exact [("engineering", .ofInt 1000)] laptopPaid,
        Bounded r.2 ∧ ∀ d new total, r.1 ≠ .error (.budgetCorruptionError d new total) := by
  refine budgets_bounded .exact _ (fun seed hseed => ?_) laptopPaid
    ⟨fun i dec htrigger _ b hb _ => ?_, trivial⟩
  · rw [List.mem_singleton] at hseed
    subst hseed
    exact ⟨by simp, rfl⟩
  · cases htrigger
    cases hb
    refine ⟨?_, rfl⟩
    show (Decimal.ofInt 1000).toRat - (Decimal.ofInt 100).toRat ≤ (Decimal.ofInt 1000).toRat
    norm_num

/-- The credit note and the laptop, as the router approves them; the charge of the laptop is declined. -/
def creditRun : List (PaymentDelivery × Option String) :=
  [(creditNote, "t-1", none), (laptop, "t-2", some "card expired")].filterMap fun (invoice, t, verdict) =>
    (approved invoice t).toOption.map fun dec => (.decisionCompleted ⟨invoice, dec, some approves⟩, verdict)

/-- **A credit note corrupts its budget**: the router approves both invoices; the first leaves 1050 of
1000 dollars, and the release after the decline of the second is refused. -/
theorem credit_note_corrupts_budget :
    creditRun.length = 2 ∧
      ¬ ∀ r ∈ deliveries defaultContext.rounding [("engineering", .ofInt 1000)] creditRun,
        Bounded r.2 ∧ ∀ d new total, r.1 ≠ .error (.budgetCorruptionError d new total) := by
  refine ⟨by decide, fun h => ?_⟩
  have hlast : (deliveries defaultContext.rounding [("engineering", .ofInt 1000)] creditRun)[1]?.map (·.1) =
      some (.error (.budgetCorruptionError "engineering" (.ofInt 1050) (.ofInt 1000))) := by decide +kernel
  obtain ⟨r, hr, heq⟩ := Option.map_eq_some_iff.mp hlast
  exact (h r (List.mem_of_getElem? hr)).2 _ _ _ heq

end ApprovalFlow.Payment
