import ApprovalFlow.Numeric.Sums
import ApprovalFlow.Payment.Bounds
import ApprovalFlow.Payment.Orphans

/-!
# Histories of deliveries

Deliveries one after another without failures, with the simulated gateway and amounts that are not
rounded.

* `delivered`: a delivery to its end; `replay`: the state after a history.
* `Ends`: the four ways in which the first triggering event of an id ends; `runSaga_ends`.
* `Steady`: what every delivery keeps, every record terminal and announced once; `Steady.delivered`.
* `firstTriggers`: the history without all but the first triggering event of each id.
* `Unrounded`: no budget is rounded in a history; `unrounded_exact`, `unrounded_multiples`: exact
  amounts, and cents.
* `replay_idempotent`: the two histories leave the same state, and what that state says of every id and
  department.
-/

namespace ApprovalFlow.Payment
open Numeric Async

/-- The verdict on the charge that an operation may be. -/
def chargeVerdict (gw : SimulatedPaymentGateway) : PaymentOp → Option String
  | .charge invoice _ => gw.verdict invoice
  | _ => none

/-- Every operation answered, new charges by the simulated gateway. -/
def simulated (rnd : Rounding) (gw : SimulatedPaymentGateway) (o : PaymentOp) (s : PaymentState) :
    Except Exn o.Reply × PaymentState :=
  s.perform rnd (chargeVerdict gw o) o

/-- A delivery to its end. -/
def delivered (rnd : Rounding) (gw : SimulatedPaymentGateway) (delivery : PaymentDelivery)
    (s : PaymentState) : Except Exn Unit × PaymentState :=
  (inMemoryPayment.handle delivery).eval (simulated rnd gw) s

/-- The state after a history of deliveries. -/
def replay (rnd : Rounding) (gw : SimulatedPaymentGateway) (history : List PaymentDelivery)
    (s : PaymentState) : PaymentState :=
  history.foldl (fun s delivery => (delivered rnd gw delivery s).2) s

/-- Keep the first triggering event of each id that is not among `seen`. -/
def firstTriggers (seen : List String) : List PaymentDelivery → List PaymentDelivery
  | [] => []
  | delivery :: history =>
    match delivery.trigger with
    | none => firstTriggers seen history
    | some (_, decision) =>
      if decision.correlationId ∈ seen then firstTriggers seen history
      else delivery :: firstTriggers (decision.correlationId :: seen) history

/-- The charges that the gateway executes in the deliveries of one id. -/
def executions (rnd : Rounding) (gw : SimulatedPaymentGateway) (t : String) :
    List PaymentDelivery → PaymentState → ℕ
  | [], _ => 0
  | delivery :: history, s =>
    let s' := (delivered rnd gw delivery s).2
    (if delivery.trackingId = t then s'.gateway.executionCount - s.gateway.executionCount else 0) +
      executions rnd gw t history s'

/-! ## Amounts -/

/-- What some deliveries ask for. -/
def asked (part : List PaymentDelivery) : ℚ := (part.map (·.invoice.total.toRat)).sum

/-- What is left of a budget after some of the deliveries to its department is not rounded. -/
def Unrounded (rnd : Rounding) (seeds : List (String × Decimal)) (history : List PaymentDelivery) : Prop :=
  ∀ seed ∈ seeds, ∀ part : List PaymentDelivery, part.Sublist history →
    (∀ delivery ∈ part, delivery.invoice.department = seed.1) → asked part ≤ seed.2.toRat →
      rnd.Fits (seed.2.toRat - asked part)

theorem unrounded_exact (seeds : List (String × Decimal)) (history : List PaymentDelivery) :
    Unrounded .exact seeds history := fun _ _ _ _ _ _ => rfl

/-- Amounts in one unit, such as cents, in budgets of up to `prec` digits. -/
theorem unrounded_multiples {ctx : Context} {e : ℤ} (he : ctx.etiny ≤ e) (hmax : ctx.prec + e ≤ ctx.emax)
    {seeds : List (String × Decimal)} {history : List PaymentDelivery}
    (hseeds : ∀ seed ∈ seeds, ∃ n : ℕ, n ≤ 10 ^ ctx.prec ∧ seed.2.toRat = n * 10 ^ e)
    (hhistory : ∀ delivery ∈ history, ∃ n : ℕ, delivery.invoice.total.toRat = n * 10 ^ e) :
    Unrounded ctx.rounding seeds history := by
  intro seed hseed part hpart _ hle
  obtain ⟨n, hn, hseed⟩ := hseeds seed hseed
  have hasked (part : List PaymentDelivery) (h : ∀ delivery ∈ part, delivery ∈ history) :
      ∃ m : ℕ, asked part = m * 10 ^ e := by
    induction part with
    | nil => exact ⟨0, by simp [asked]⟩
    | cons delivery part ih =>
      obtain ⟨m, hm⟩ := ih fun d hd => h d (List.mem_cons_of_mem _ hd)
      obtain ⟨k, hk⟩ := hhistory delivery (h delivery List.mem_cons_self)
      refine ⟨k + m, ?_⟩
      rw [asked, List.map_cons, List.sum_cons, hk, ← asked, hm]
      push_cast
      ring
  obtain ⟨m, hm⟩ := hasked part fun d hd => hpart.subset hd
  rw [hseed, hm] at hle ⊢
  have hmn : m ≤ n := by exact_mod_cast le_of_mul_le_mul_right hle (Grid.ten_zpow_pos e)
  have hleft : (n : ℚ) * 10 ^ e - m * 10 ^ e = (n - m : ℕ) * 10 ^ e := by
    rw [Nat.cast_sub hmn, sub_mul]
  rw [hleft]
  exact Context.fits_multiple he hmax ((Nat.sub_le n m).trans hn)

/-- The budget of an invoice is not rounded, before and after it is taken. -/
def Fitting (rnd : Rounding) (s : PaymentState) (invoice : Invoice) : Prop :=
  ∀ b, s.budgets.get? invoice.department = some b → invoice.total.toRat ≤ b.remaining.toRat →
    rnd.Fits (b.remaining.toRat - invoice.total.toRat) ∧ rnd.Fits b.remaining.toRat

/-! ## The first triggering event of an id -/

/-- How the saga of a new id ends: its record, the budgets and the gateway. -/
inductive Ends (gw : SimulatedPaymentGateway) (s : PaymentState) (invoice : Invoice) (decision : Decision) :
    PaymentRecord → Dict String Budget → Gateway → Prop
  | unknown (hb : s.budgets.get? invoice.department = none) : Ends gw s invoice decision
      (.ofRejection invoice decision ("no budget configured for department " ++ invoice.department))
        s.budgets s.gateway
  | short {b : Budget} (hb : s.budgets.get? invoice.department = some b) (hlt : b.remaining.toRat <
    invoice.total.toRat) :
      Ends gw s invoice decision (.ofRejection invoice decision "insufficient department budget")
        s.budgets s.gateway
  | paid {b : Budget} {c : Decimal} (hb : s.budgets.get? invoice.department = some b)
      (hc : c.toRat = b.remaining.toRat - invoice.total.toRat) :
      Ends gw s invoice decision (PaymentRecord.ofReservation invoice decision).completed
        (s.budgets.insert invoice.department { b with remaining := c })
        ⟨s.gateway.results.insert decision.correlationId none, s.gateway.executionCount + 1⟩
  | declined {b : Budget} {c : Decimal} {message : String} (hb : s.budgets.get? invoice.department = some b)
      (hc : c.toRat = b.remaining.toRat) :
      Ends gw s invoice decision ((PaymentRecord.ofReservation invoice decision).declined message)
        (s.budgets.insert invoice.department { b with remaining := c })
        ⟨s.gateway.results.insert decision.correlationId (some message), s.gateway.executionCount + 1⟩

section Saga
variable {rnd : Rounding} {gw : SimulatedPaymentGateway} {s : PaymentState} {invoice : Invoice}
    {decision : Decision}

theorem eval_await {β : Type} (o : PaymentOp) (f : Except Exn o.Reply → Prog paymentSig Exn β) :
    (o.await.attempt f).eval (simulated rnd gw) s =
      (f (simulated rnd gw o s).1).eval (simulated rnd gw) (simulated rnd gw o s).2 := by
  rw [Prog.eval_attempt, Prog.eval_op]

theorem eval_saveAndPublish
    (p : PaymentRecord) : (inMemoryPayment.saveAndPublish p).eval (simulated rnd gw) s =
    (.ok (),
      { s with payments := s.payments.insert p.trackingId p, published := s.published ++ [p.event] }) := by
  rw [PaymentService.saveAndPublish, Prog.eval_attempt]
  rfl

/-- The saga after a reservation that leaves `c`. -/
theorem afterReserve_ends {b : Budget} {c : Decimal} (hb : s.budgets.get? invoice.department = some b)
    (hc : c.toRat = b.remaining.toRat - invoice.total.toRat) (hle : b.remaining.toRat ≤ b.total.toRat)
    (hfits : rnd.Fits b.remaining.toRat) (hcharge : s.gateway.results.get? decision.correlationId = none) :
    ∃ record budgets gateway, Ends gw s invoice decision record budgets gateway ∧
      (inMemoryPayment.afterReserve invoice decision (.ok ())).eval (simulated rnd gw)
          { s with budgets := s.budgets.insert invoice.department { b with remaining := c } } =
        (.ok (), ⟨s.payments.insert decision.correlationId record, budgets, gateway,
          s.published ++ [record.event]⟩) := by
  have hreserved : (inMemoryPayment.afterReserve invoice decision (.ok ())).eval (simulated rnd gw)
      { s with budgets := s.budgets.insert invoice.department { b with remaining := c } } =
      (inMemoryPayment.executeCharge (.ofReservation invoice decision)).eval (simulated rnd gw)
        { s with
          payments := s.payments.insert decision.correlationId (.ofReservation invoice decision)
          budgets := s.budgets.insert invoice.department { b with remaining := c } } :=
    eval_await (.savePayment (.ofReservation invoice decision)) _
  rw [hreserved, PaymentService.executeCharge_eq _ rfl]
  have hcharged : simulated rnd gw (.charge invoice decision.correlationId)
      { s with
        payments := s.payments.insert decision.correlationId (.ofReservation invoice decision)
        budgets := s.budgets.insert invoice.department { b with remaining := c } } =
      (Gateway.reply (gw.verdict invoice),
        ⟨s.payments.insert decision.correlationId (.ofReservation invoice decision),
          s.budgets.insert invoice.department { b with remaining := c },
          ⟨s.gateway.results.insert decision.correlationId
            (gw.verdict invoice), s.gateway.executionCount + 1⟩,
          s.published⟩) := by
    simp only [simulated, PaymentState.perform, Gateway.charge, chargeVerdict, hcharge]
  have hsaved (record : PaymentRecord) (budgets : Dict String Budget) (gateway : Gateway)
      (published : List PaymentCompletedEvent) :
      ((.ok (), ⟨(s.payments.insert decision.correlationId (.ofReservation invoice decision)).insert
        decision.correlationId record, budgets, gateway, published⟩) : Except Exn Unit × PaymentState) =
      (.ok (), ⟨s.payments.insert decision.correlationId record, budgets, gateway, published⟩) := by
    rw [Dict.insert_insert]
  cases hv : gw.verdict invoice with
  | none =>
    refine ⟨_, _, _, .paid hb hc, (eval_await (.charge invoice decision.correlationId) _).trans ?_⟩
    rw [hcharged, hv]
    exact (eval_saveAndPublish (PaymentRecord.ofReservation invoice decision).completed).trans
      (hsaved _ _ _ _)
  | some message =>
    have hroom : c.toRat + invoice.total.toRat ≤ b.total.toRat := by rw [hc, sub_add_cancel]; exact hle
    have hback : rnd.Fits (c.toRat + invoice.total.toRat) := by
      rwa [hc, sub_add_cancel]
    obtain ⟨c', hrelease, hc'⟩ :=
      release_of_fits
        (Dict.get?_insert_self s.budgets invoice.department { b with remaining := c }) hback hroom
    rw [Dict.insert_insert] at hrelease
    refine ⟨_, _, _, @Ends.declined _ _ _ _ b c' message hb (hc'.trans (by rw [hc, sub_add_cancel])),
      (eval_await (.charge invoice decision.correlationId) _).trans ?_⟩
    rw [hcharged, hv]
    refine (eval_await (.release invoice.department invoice.total) _).trans ?_
    simp only [simulated, PaymentState.perform, hrelease]
    exact (eval_saveAndPublish ((PaymentRecord.ofReservation invoice decision).declined message)).trans
      (hsaved _ _ _ _)

/-- **The four endings** of the saga of a new id. -/
theorem runSaga_ends (hnew : s.payments.get? decision.correlationId = none)
    (hcharge : s.gateway.results.get? decision.correlationId = none)
    (hbudget : ∀ b, s.budgets.get? invoice.department = some b → b.remaining.toRat ≤ b.total.toRat)
    (hfits : Fitting rnd s invoice) :
    ∃ record budgets gateway, Ends gw s invoice decision record budgets gateway ∧
      (inMemoryPayment.runSaga invoice decision).eval (simulated rnd gw) s =
        (.ok (), ⟨s.payments.insert decision.correlationId record, budgets, gateway,
          s.published ++ [record.event]⟩) := by
  have hget : (inMemoryPayment.runSaga invoice decision).eval (simulated rnd gw) s =
      (inMemoryPayment.afterReserve invoice decision
        (InMemoryBudgetRepository.reserve rnd invoice.department invoice.total s.budgets).1).eval
          (simulated rnd gw) { s with
            budgets :=
              (InMemoryBudgetRepository.reserve rnd invoice.department invoice.total s.budgets).2 } := by
    rw [PaymentService.runSaga_eq]
    refine (eval_await (.getPayment decision.correlationId) _).trans ?_
    show Prog.eval
        _ (inMemoryPayment.afterGet invoice decision (s.payments.get? decision.correlationId)) s = _
    rw [hnew]
    exact eval_await (.reserve invoice.department invoice.total) _
  rw [hget]
  cases hb : s.budgets.get? invoice.department with
  | none =>
    have hreserve : InMemoryBudgetRepository.reserve rnd invoice.department invoice.total s.budgets =
        (.error (.budgetNotFoundError invoice.department), s.budgets) := by
      simp only [InMemoryBudgetRepository.reserve, InMemoryBudgetRepository.update, hb]
    rw [hreserve]
    exact ⟨_, _, _, .unknown hb, eval_saveAndPublish _⟩
  | some b =>
    by_cases hlt : b.remaining.toRat < invoice.total.toRat
    · rw [reserve_of_lt hb hlt]
      exact ⟨_, _, _, .short hb hlt, eval_saveAndPublish _⟩
    · obtain ⟨htaken, hwhole⟩ := hfits b hb (not_lt.mp hlt)
      obtain ⟨c, hreserve, hc⟩ := reserve_of_fits hb (not_lt.mp hlt) htaken
      rw [hreserve]
      exact afterReserve_ends hb hc (hbudget b hb) hwhole hcharge

end Saga

/-! ## What every delivery keeps -/

/-- Every record is terminal and announced once, every charge has a record, and the budgets balance. -/
structure Steady (s : PaymentState) : Prop where
  terminal : ∀ t r, s.payments.get? t = some r →
    r.status.terminal = true ∧ r.trackingId = t ∧ r.decision.correlationId = t
  charged : ∀ t, s.payments.get? t = none → s.gateway.results.get? t = none
  announced : ∀ t, s.published.filter (·.decision.correlationId = t) =
    (s.payments.get? t).toList.map PaymentRecord.event
  balanced : Balanced s
  bounded : ∀ d b, s.budgets.get? d = some b → b.remaining.toRat ≤ b.total.toRat

theorem seeded_steady (seeds : List (String × Decimal)) : Steady (.seeded seeds) where
  terminal t r h := by cases h
  charged t _ := rfl
  announced t := rfl
  balanced d b hb := by
    obtain ⟨x, -, rfl⟩ := PaymentState.mem_seeded hb
    simp [PaymentState.seeded]
  bounded d b hb := by
    obtain ⟨x, -, rfl⟩ := PaymentState.mem_seeded hb
    exact le_rfl

section Ends
variable {gw : SimulatedPaymentGateway} {s : PaymentState} {invoice : Invoice} {decision : Decision}
  {record : PaymentRecord} {budgets : Dict String Budget} {gateway : Gateway}

theorem Ends.files (h : Ends gw s invoice decision record budgets gateway) :
    record.status.terminal = true ∧ record.trackingId = decision.correlationId ∧
      record.decision = decision := by
  cases h <;> exact ⟨rfl, rfl, rfl⟩

theorem Ends.charges (h : Ends gw s invoice decision record budgets gateway) :
    gateway.executionCount ≤ s.gateway.executionCount + 1 ∧
      ∀ t, t ≠ decision.correlationId → gateway.results.get? t = s.gateway.results.get? t := by
  cases h with
  | unknown => exact ⟨Nat.le_succ _, fun t _ => rfl⟩
  | short => exact ⟨Nat.le_succ _, fun t _ => rfl⟩
  | paid => exact ⟨le_rfl, fun t ht => Dict.get?_insert_ne _ _ ht⟩
  | declined => exact ⟨le_rfl, fun t ht => Dict.get?_insert_ne _ _ ht⟩

theorem Ends.takes (h : Ends gw s invoice decision record budgets gateway) (d : String) {b' : Budget}
    (hb' : budgets.get? d = some b') : ∃ b, s.budgets.get? d = some b ∧ b'.total = b.total ∧
      b'.remaining.toRat = b.remaining.toRat - held d record := by
  have hsame {r : PaymentRecord} (hr : held d r = 0) (hb : s.budgets.get? d = some b') :
      ∃ b, s.budgets.get? d = some b ∧ b'.total = b.total ∧
        b'.remaining.toRat = b.remaining.toRat - held d r :=
    ⟨b', hb, rfl, by rw [hr, sub_zero]⟩
  cases h with
  | unknown => exact hsame (held_rejection _ _ _ _) hb'
  | short => exact hsame (held_rejection _ _ _ _) hb'
  | @paid b c hb hc =>
    rw [held_completed d rfl, held_reserved d rfl]
    rw [Dict.get?_insert] at hb'
    split_ifs at hb' with hd
    · cases hb'
      subst hd
      exact ⟨b, hb, rfl, by rw [hc]; simp [PaymentRecord.ofReservation]⟩
    · exact ⟨b', hb', rfl, by simp [PaymentRecord.ofReservation, Ne.symm hd]⟩
  | @declined b c message hb hc =>
    rw [Dict.get?_insert] at hb'
    split_ifs at hb' with hd
    · cases hb'
      subst hd
      exact ⟨b, hb, rfl, by rw [held_declined, sub_zero, hc]⟩
    · exact hsame (held_declined _ _ _) hb'

theorem Ends.holds (h : Ends gw s invoice decision record budgets gateway) (d : String) :
    held d record = 0 ∨ invoice.department = d ∧ held d record = invoice.total.toRat := by
  cases h with
  | unknown => exact .inl (held_rejection _ _ _ _)
  | short => exact .inl (held_rejection _ _ _ _)
  | paid =>
    rw [held_completed d rfl, held_reserved d rfl]
    split_ifs with hd
    · exact .inr ⟨hd, rfl⟩
    · exact .inl rfl
  | declined => exact .inl (held_declined _ _ _)

theorem held_nonneg (h : Ends gw s invoice decision record budgets gateway) (hpos : 0 ≤ invoice.total.toRat)
    (d : String) : 0 ≤ held d record := by
  rcases h.holds d with hd | ⟨-, hd⟩
  · exact hd.ge
  · rw [hd]
    exact hpos

/-- **The first triggering event** of an id leaves a steady state. -/
theorem Steady.ends (hs : Steady s) (hnew : s.payments.get? decision.correlationId = none)
    (hpos : 0 ≤ invoice.total.toRat) (h : Ends gw s invoice decision record budgets gateway) :
    Steady ⟨s.payments.insert decision.correlationId record, budgets, gateway,
      s.published ++ [record.event]⟩ where
  terminal t r hr := by
    dsimp only at hr
    rw [Dict.get?_insert] at hr
    split_ifs at hr with ht
    · cases hr
      obtain ⟨h1, h2, h3⟩ := h.files
      exact ⟨h1, h2.trans ht.symm, by rw [h3, ht]⟩
    · exact hs.terminal t r hr
  charged t ht := by
    dsimp only at ht ⊢
    rw [Dict.get?_insert] at ht
    split_ifs at ht with hne
    rw [h.charges.2 t hne]
    exact hs.charged t ht
  announced t := by
    dsimp only
    rw [List.filter_append, hs.announced t, Dict.get?_insert]
    have hid : record.event.decision.correlationId = decision.correlationId :=
      congrArg Decision.correlationId h.files.2.2
    split_ifs with ht
    · subst ht
      rw [hnew]
      simp [hid]
    · simp [hid, Ne.symm ht]
  balanced d b' hb' := by
    obtain ⟨b, hb, htotal, hremaining⟩ := h.takes d hb'
    show b'.total.toRat - b'.remaining.toRat =
        Dict.weigh (held d) (s.payments.insert decision.correlationId record)
    rw [Dict.weigh_insert_new _ _ _ hnew, ← hs.balanced d b hb, htotal, hremaining]
    ring
  bounded d b' hb' := by
    obtain ⟨b, hb, htotal, hremaining⟩ := h.takes d hb'
    rw [htotal, hremaining]
    have := held_nonneg h hpos d
    have := hs.bounded d b hb
    linarith

end Ends

/-! ## Deliveries -/

section Deliveries
variable {rnd : Rounding} {gw : SimulatedPaymentGateway} {s : PaymentState} {delivery : PaymentDelivery}

/-- A delivery that triggers nothing, or whose id has a record, changes nothing. -/
theorem delivered_known (hs : Steady s) (h : ∀ i dec, delivery.trigger = some (i, dec) →
    s.payments.get? dec.correlationId ≠ none) : delivered rnd gw delivery s = (.ok (), s) := by
  unfold delivered
  rw [PaymentService.handle_eq]
  cases htrigger : delivery.trigger with
  | none => rfl
  | some trigger =>
    obtain ⟨i, dec⟩ := trigger
    obtain ⟨r, hr⟩ := Option.ne_none_iff_exists'.mp (h i dec htrigger)
    dsimp only
    rw [PaymentService.runSaga_eq]
    refine (eval_await (.getPayment dec.correlationId) _).trans ?_
    show Prog.eval _ (inMemoryPayment.afterGet i dec (s.payments.get? dec.correlationId)) s = _
    rw [hr]
    show Prog.eval _ (inMemoryPayment.resume r) s = _
    rw [PaymentService.resume_of_terminal _ (hs.terminal _ r hr).1]
    rfl

theorem delivered_first (hs : Steady s) {i : Invoice} {dec : Decision}
    (htrigger : delivery.trigger = some (i, dec))
    (hnew : s.payments.get? dec.correlationId = none) (hfits : Fitting rnd s i) :
    ∃ record budgets gateway, Ends gw s i dec record budgets gateway ∧ delivered rnd gw delivery s =
      (.ok (), ⟨s.payments.insert dec.correlationId record, budgets, gateway,
        s.published ++ [record.event]⟩) := by
  unfold delivered
  rw [PaymentService.handle_eq, htrigger]
  exact runSaga_ends hnew (hs.charged _ hnew) (fun b hb => hs.bounded _ b hb) hfits

/-- What a delivery does, seen from the state before it. -/
structure Advances (delivery : PaymentDelivery) (s : PaymentState)
    (r : Except Exn Unit × PaymentState) : Prop where
  returned : r.1 = .ok ()
  steady : Steady r.2
  kept : ∀ t record, s.payments.get? t = some record → r.2.payments.get? t = some record
  new : ∀ t, r.2.payments.get? t ≠ none → s.payments.get? t = none →
    ∃ i dec, delivery.trigger = some (i, dec) ∧ dec.correlationId = t
  filed : ∀ i dec, delivery.trigger = some (i, dec) → r.2.payments.get? dec.correlationId ≠ none
  charges : r.2.gateway.executionCount ≤ s.gateway.executionCount + 1
  budgets : ∀ d b', r.2.budgets.get? d = some b' → ∃ b, s.budgets.get? d = some b ∧ b'.total = b.total ∧
    (b'.remaining.toRat = b.remaining.toRat ∨
      delivery.invoice.department = d ∧ b'.remaining.toRat =
        b.remaining.toRat - delivery.invoice.total.toRat)

theorem delivered_advances (hs : Steady s) (hpos : 0 ≤ delivery.invoice.total.toRat)
    (hfits : Fitting rnd s delivery.invoice) : Advances delivery s (delivered rnd gw delivery s) := by
  by_cases hknown : ∀ i dec, delivery.trigger = some (i, dec) → s.payments.get? dec.correlationId ≠ none
  · rw [delivered_known hs hknown]
    exact ⟨rfl, hs, fun t r h => h, fun t h h' => absurd h' h, hknown, Nat.le_succ _,
      fun d b hb => ⟨b, hb, rfl, .inl rfl⟩⟩
  · push Not at hknown
    obtain ⟨i, dec, htrigger, hnew⟩ := hknown
    obtain rfl : i = delivery.invoice := (PaymentDelivery.trigger_eq htrigger).1
    obtain ⟨record, budgets, gateway, hends, heq⟩ :=
      @delivered_first rnd gw s delivery hs _ dec htrigger hnew hfits
    rw [heq]
    refine ⟨rfl, hs.ends hnew hpos hends, fun t r hr => ?_, fun t ht hnone => ⟨_, dec, htrigger, ?_⟩,
      fun i' dec' htrigger' => ?_, hends.charges.1, fun d b' hb' => ?_⟩
    · have hne : t ≠ dec.correlationId := fun h => by rw [h, hnew] at hr; cases hr
      exact (Dict.get?_insert_ne _ _ hne).trans hr
    · by_contra hne
      exact ht ((Dict.get?_insert_ne _ _ (Ne.symm hne)).trans hnone)
    · rw [htrigger] at htrigger'
      cases htrigger'
      rw [Dict.get?_insert_self]
      exact Option.some_ne_none _
    · obtain ⟨b, hb, htotal, hremaining⟩ := hends.takes d hb'
      refine ⟨b, hb, htotal, ?_⟩
      rcases hends.holds d with hd | ⟨hdepartment, hd⟩
      · exact .inl (by rw [hremaining, hd, sub_zero])
      · exact .inr ⟨hdepartment, by rw [hremaining, hd]⟩

end Deliveries

/-! ## Histories -/

section Histories
variable {rnd : Rounding} {gw : SimulatedPaymentGateway} {s : PaymentState} {history : List PaymentDelivery}

theorem replay_cons (delivery : PaymentDelivery) :
    replay rnd gw (delivery :: history) s = replay rnd gw history (delivered rnd gw delivery s).2 := rfl

/-- Every delivery of a history of invoices that are not negative. -/
def NonNegative (history : List PaymentDelivery) : Prop :=
  ∀ delivery ∈ history, 0 ≤ delivery.invoice.total.toRat

variable (rnd gw) in
/-- No budget is rounded on the way. -/
def Smooth : List PaymentDelivery → PaymentState → Prop
  | [], _ => True
  | delivery :: history, s =>
    0 ≤ delivery.invoice.total.toRat ∧ Fitting rnd s delivery.invoice ∧
      Smooth history (delivered rnd gw delivery s).2

/-- Every budget is what some of the past deliveries have left of its seed. -/
def Spent (seeds : List (String × Decimal)) (past : List PaymentDelivery) (s : PaymentState) : Prop :=
  ∀ d b, s.budgets.get? d = some b → (d, b.total) ∈ seeds ∧
    ∃ part : List PaymentDelivery, part.Sublist past ∧
    (∀ delivery ∈ part, delivery.invoice.department = d) ∧ b.remaining.toRat = b.total.toRat - asked part

theorem seeded_spent (seeds : List (String × Decimal)) : Spent seeds [] (.seeded seeds) := by
  intro d b hb
  obtain ⟨x, hx, rfl⟩ := PaymentState.mem_seeded hb
  exact ⟨hx, [], List.Sublist.refl _, fun _ h => (by cases h), by simp [asked]⟩

theorem asked_concat (part : List PaymentDelivery) (delivery : PaymentDelivery) :
    asked (part ++ [delivery]) = asked part + delivery.invoice.total.toRat := by
  simp [asked]

/-- The next delivery finds a budget that is not rounded. -/
theorem Spent.fitting {seeds : List (String × Decimal)} {past : List PaymentDelivery}
    {delivery : PaymentDelivery} (h : Spent seeds past s) (hpos : 0 ≤ delivery.invoice.total.toRat)
    (hfits : Unrounded rnd seeds (past ++ delivery :: history)) : Fitting rnd s delivery.invoice := by
  intro b hb hle
  obtain ⟨hseed, part, hpart, hdepartment, hremaining⟩ := h _ b hb
  have hpast : past.Sublist (past ++ delivery :: history) := List.sublist_append_left _ _
  have hnext : (part ++ [delivery]).Sublist (past ++ delivery :: history) :=
    hpart.append (List.singleton_sublist.mpr List.mem_cons_self)
  have htaken := hfits _ hseed (part ++ [delivery]) hnext (fun d hd => ?_) ?_
  · refine ⟨?_, hremaining ▸ hfits _ hseed part (hpart.trans hpast) hdepartment ?_⟩
    · rwa [asked_concat, ← sub_sub, ← hremaining] at htaken
    · show asked part ≤ b.total.toRat
      linarith
  · rcases List.mem_append.mp hd with hd | hd
    · exact hdepartment d hd
    · rw [List.mem_singleton.mp hd]
  · rw [asked_concat]
    show asked part + delivery.invoice.total.toRat ≤ b.total.toRat
    linarith

theorem Spent.delivered {seeds : List (String × Decimal)} {past : List PaymentDelivery}
    {delivery : PaymentDelivery}
    (h : Spent seeds past s) {r : Except Exn Unit × PaymentState} (hr : Advances delivery s r) :
    Spent seeds (past ++ [delivery]) r.2 := by
  intro d b' hb'
  obtain ⟨b, hb, htotal, hremaining⟩ := hr.budgets d b' hb'
  obtain ⟨hseed, part, hpart, hdepartment, hleft⟩ := h d b hb
  rw [htotal]
  refine ⟨hseed, ?_⟩
  rcases hremaining with hsame | ⟨hd, hless⟩
  · exact ⟨part, hpart.trans (List.sublist_append_left _ _), hdepartment, hsame.trans hleft⟩
  · refine ⟨part ++ [delivery], hpart.append (List.Sublist.refl _), fun x hx => ?_, ?_⟩
    · rcases List.mem_append.mp hx with hx | hx
      · exact hdepartment x hx
      · rw [List.mem_singleton.mp hx, hd]
    · rw [hless, hleft, asked_concat, sub_sub]

theorem smooth_of_unrounded {seeds : List (String × Decimal)} {past : List PaymentDelivery} (hs : Steady s)
    (hspent : Spent seeds past s) (hpos : NonNegative history)
    (hfits : Unrounded rnd seeds (past ++ history)) : Smooth rnd gw history s := by
  induction history generalizing s past with
  | nil => trivial
  | cons delivery history ih =>
    have hdelivery := hpos delivery List.mem_cons_self
    have hfitting := hspent.fitting hdelivery hfits
    have hadvances := @delivered_advances rnd gw s delivery hs hdelivery hfitting
    refine ⟨hdelivery, hfitting, ih hadvances.steady (hspent.delivered hadvances) (fun d hd => ?_) ?_⟩
    · exact hpos d (List.mem_cons_of_mem _ hd)
    · rwa [List.append_assoc, List.singleton_append]

/-- **The run lemma**: a history keeps a steady state steady, keeps its records, and files one for each
new trigger. -/
theorem replay_steady (hs : Steady s) (hsmooth : Smooth rnd gw history s) :
    Steady (replay rnd gw history s) ∧
    (∀ t record, s.payments.get? t = some record →
      (replay rnd gw history s).payments.get? t = some record) ∧
    ∀ delivery ∈ history, ∀ i dec, delivery.trigger = some (i, dec) →
      (replay rnd gw history s).payments.get? dec.correlationId ≠ none := by
  induction history generalizing s with
  | nil => exact ⟨hs, fun t r h => h, fun d hd => (by cases hd)⟩
  | cons delivery history ih =>
    obtain ⟨hpos, hfits, hrest⟩ := hsmooth
    have h1 := @delivered_advances rnd gw s delivery hs hpos hfits
    obtain ⟨h2, hkept, hfiled⟩ := ih h1.steady hrest
    refine ⟨h2, fun t r hr => hkept t r (h1.kept t r hr), fun d hd i dec htrigger => ?_⟩
    rcases List.mem_cons.mp hd with rfl | hd
    · obtain ⟨r, hr⟩ := Option.ne_none_iff_exists'.mp (h1.filed i dec htrigger)
      rw [replay_cons, hkept _ r hr]
      exact Option.some_ne_none r
    · exact hfiled d hd i dec htrigger

/-- **Redeliveries change nothing**: the first triggering events of the ids leave the same state. -/
theorem replay_firstTriggers (hs : Steady s) (hsmooth : Smooth rnd gw history s) (seen : List String)
    (hseen : ∀ t ∈ seen, s.payments.get? t ≠ none) :
    replay rnd gw (firstTriggers seen history) s = replay rnd gw history s := by
  induction history generalizing s seen with
  | nil => rfl
  | cons delivery history ih =>
    obtain ⟨hpos, hfits, hrest⟩ := hsmooth
    have h1 := @delivered_advances rnd gw s delivery hs hpos hfits
    have hknown (h : ∀ i dec, delivery.trigger = some (i, dec) → s.payments.get? dec.correlationId ≠ none) :
        replay rnd gw (firstTriggers seen history) s =
          replay rnd gw history (delivered rnd gw delivery s).2 := by
      rw [delivered_known hs h] at hrest ⊢
      exact ih hs hrest seen hseen
    unfold firstTriggers
    rw [replay_cons]
    split
    · next htrigger => exact hknown fun i dec h => by rw [htrigger] at h; cases h
    · next i dec htrigger =>
      split_ifs with hmem
      · refine hknown fun i' dec' h => ?_
        rw [htrigger] at h
        cases h
        exact hseen _ hmem
      · rw [replay_cons]
        refine ih h1.steady hrest _ fun t ht => ?_
        rcases List.mem_cons.mp ht with rfl | ht
        · exact h1.filed i dec htrigger
        · obtain ⟨r, hr⟩ := Option.ne_none_iff_exists'.mp (hseen t ht)
          rw [h1.kept t r hr]
          exact Option.some_ne_none r

theorem executions_of_known {t : String} (hs : Steady s) (hsmooth : Smooth rnd gw history s)
    (ht : s.payments.get? t ≠ none) : executions rnd gw t history s = 0 := by
  induction history generalizing s with
  | nil => rfl
  | cons delivery history ih =>
    obtain ⟨hpos, hfits, hrest⟩ := hsmooth
    have h1 := @delivered_advances rnd gw s delivery hs hpos hfits
    have hkept : (delivered rnd gw delivery s).2.payments.get? t ≠ none := by
      obtain ⟨r, hr⟩ := Option.ne_none_iff_exists'.mp ht
      rw [h1.kept t r hr]
      exact Option.some_ne_none r
    unfold executions
    dsimp only
    rw [ih h1.steady hrest hkept, add_zero]
    split_ifs with hid
    · rw [delivered_known hs fun i dec h => by rw [(PaymentDelivery.trigger_eq h).2, hid]; exact ht]
      exact Nat.sub_self _
    · rfl

theorem executions_le_one (t : String) (hs : Steady s) (hsmooth : Smooth rnd gw history s) :
    executions rnd gw t history s ≤ 1 := by
  induction history generalizing s with
  | nil => exact Nat.zero_le 1
  | cons delivery history ih =>
    obtain ⟨hpos, hfits, hafter⟩ := hsmooth
    have h1 := @delivered_advances rnd gw s delivery hs hpos hfits
    have hrest := ih h1.steady hafter
    unfold executions
    dsimp only
    by_cases hid : delivery.trackingId = t
    · rw [if_pos hid]
      cases htrigger : delivery.trigger with
      | none =>
        rw [delivered_known hs fun i dec h => by rw [htrigger] at h; cases h] at hrest ⊢
        show s.gateway.executionCount - s.gateway.executionCount + executions rnd gw t history s ≤ 1
        rw [Nat.sub_self, zero_add]
        exact hrest
      | some trigger =>
        obtain ⟨i, dec⟩ := trigger
        have hfiled := h1.filed i dec htrigger
        rw [(PaymentDelivery.trigger_eq htrigger).2, hid] at hfiled
        rw [executions_of_known h1.steady hafter hfiled]
        have := h1.charges
        omega
    · rw [if_neg hid]
      omega

end Histories

/-- What a state says of an id that was triggered. -/
structure Concluded (t : String) (s : PaymentState) (record : PaymentRecord) : Prop where
  stored : s.payments.get? t = some record
  only : ∀ r ∈ s.payments.values, r.trackingId = t → r = record
  terminal : record.status = .completed ∨ record.status = .failed
  announced : s.published.filter (·.decision.correlationId = t) = [record.event]
  resolution : record.event.resolution = .completed ↔ record.status = .completed

theorem Steady.concluded {s : PaymentState} (hs : Steady s) {t : String} (h : s.payments.get? t ≠ none) :
    ∃ record, Concluded t s record := by
  obtain ⟨r, hr⟩ := Option.ne_none_iff_exists'.mp h
  have hterminal := (hs.terminal t r hr).1
  refine ⟨r, hr, fun r' hr' ht => ?_, ?_, by rw [hs.announced, hr]; rfl, ?_⟩
  · obtain ⟨k, hk⟩ := (Dict.mem_values _ _).mp hr'
    rw [← (hs.terminal k r' hk).2.1, ht, hr] at hk
    exact (Option.some.inj hk).symm
  · cases hst : r.status with
    | reserved => rw [hst] at hterminal; cases hterminal
    | completed => exact .inl rfl
    | failed => exact .inr rfl
  · simp only [PaymentRecord.event, PaymentRecord.resolution]
    split_ifs with hst <;> simp [hst]

/-- What the completed records of a department reserved. -/
def completedAmounts (d : String) (s : PaymentState) : List ℚ :=
  (s.payments.values.filter fun r => r.status = .completed ∧ r.department = d).map (·.reservedAmount.toRat)

theorem Steady.balance {s : PaymentState} (hs : Steady s) {d : String} {b : Budget}
    (hb : s.budgets.get? d = some b) :
    b.total.toRat - b.remaining.toRat = (completedAmounts d s).sum := by
  rw [hs.balanced d b hb, Dict.weigh, completedAmounts, Dict.values]
  have hitems (l : List (String × PaymentRecord)) (hl : ∀ p ∈ l, p.2.status.terminal = true) :
      (l.map fun p => held d p.2).sum =
        (((l.map Prod.snd).filter fun r => r.status = .completed ∧ r.department = d).map
        (·.reservedAmount.toRat)).sum := by
    induction l with
    | nil => rfl
    | cons p l ih =>
      have hp := hl p List.mem_cons_self
      rw [List.map_cons, List.sum_cons, ih fun q hq => hl q (List.mem_cons_of_mem _ hq),
        List.map_cons, List.filter_cons]
      cases hst : p.2.status with
      | reserved => rw [hst] at hp; cases hp
      | completed => by_cases hd : p.2.department = d <;> simp [held, hst, hd]
      | failed => simp [held, hst]
  exact hitems _ fun p hp => (hs.terminal p.1 p.2 ((Dict.mem_iff _ _ _).mp hp)).1

/-- **The saga is idempotent over whole histories**: where no budget is rounded, a history leaves the
state of its first triggering events, in which every triggered id has one terminal record, announced once
and charged at most once, and every department spent what its completed records reserved. -/
theorem replay_idempotent (rnd : Rounding) (gw : SimulatedPaymentGateway) (seeds : List (String × Decimal))
    (history : List PaymentDelivery) (hpos : NonNegative history) (hfits : Unrounded rnd seeds history) :
    let s := replay rnd gw history (.seeded seeds)
    s = replay rnd gw (firstTriggers [] history) (.seeded seeds) ∧
    (∀ delivery ∈ history, ∀ i dec, delivery.trigger = some (i, dec) →
      (∃ record, Concluded dec.correlationId s record) ∧
        executions rnd gw dec.correlationId history (.seeded seeds) ≤ 1) ∧
    ∀ d b, s.budgets.get? d = some b → b.total.toRat - b.remaining.toRat = (completedAmounts d s).sum := by
  have hstart := seeded_steady seeds
  have hsmooth : Smooth rnd gw history (.seeded seeds) :=
    smooth_of_unrounded hstart (seeded_spent seeds) hpos (by rwa [List.nil_append])
  obtain ⟨hs, -, hfiled⟩ := replay_steady hstart hsmooth
  refine ⟨(replay_firstTriggers hstart hsmooth [] fun t ht => (by cases ht)).symm,
    fun delivery hd i dec htrigger => ?_, fun d b hb => hs.balance hb⟩
  exact ⟨hs.concluded (hfiled delivery hd i dec htrigger), executions_le_one _ hstart hsmooth⟩

/-- The laptop is approved by the router and again by a person; the amounts are exact, or whole dollars. -/
theorem replay_idempotent_laptop :
    let history := [laptopApproved, .approvalCompleted ⟨laptop, ⟨.autoApprove, "", [], "t-1"⟩, .approved⟩]
    ∀ rnd ∈ [Rounding.exact, defaultContext.rounding],
      replay rnd ⟨[]⟩ history (.seeded [("engineering", .ofInt 1000)]) =
        replay rnd ⟨[]⟩ (firstTriggers [] history) (.seeded [("engineering", .ofInt 1000)]) := by
  intro history rnd hrnd
  have htotal : ∀ delivery ∈ history, delivery.invoice.total.toRat = (100 : ℕ) * 10 ^ (0 : ℤ) := by
    intro delivery hd
    rcases List.mem_pair.mp hd with rfl | rfl <;> rfl
  have hpos : NonNegative history := fun delivery hd => by
    rw [htotal delivery hd]
    norm_num
  have hfits : Unrounded rnd [("engineering", .ofInt 1000)] history := by
    rcases List.mem_pair.mp hrnd with rfl | rfl
    · exact unrounded_exact _ _
    · refine unrounded_multiples (e := 0) (by decide) (by decide) (fun seed hseed => ⟨1000, by decide, ?_⟩)
        fun delivery hd => ⟨100, htotal delivery hd⟩
      rw [List.mem_singleton.mp hseed]
      rfl
  exact (replay_idempotent rnd ⟨[]⟩ _ history hpos hfits).1

end ApprovalFlow.Payment
