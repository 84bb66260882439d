import ApprovalFlow.Payment.InMemory
import Mathlib.Tactic.Ring

/-!
# Reservations and records

What a department has spent, `total - remaining`, against what the payment records of the department
hold. A reserve and the save of its record are two operations, and so are a release and the save of its
record: a failure between them leaves a leak.

* `leak d`: the amounts a delivery moved at department `d` without recording them.
* `handle_keeps`, `run_accounts`: after every run, with any failures and crashes, `total - remaining` is
  what the records hold plus all leaks.
* `reservations_recorded`: where nothing fails directly after a move the two are equal, as the saga then
  saves; `lost_save_orphans_reservation`: a lost save orphans a reservation.
-/

namespace ApprovalFlow.Payment
open Numeric Async

/-- What a record holds of the budget of department `d`. -/
def held (d : String) (r : PaymentRecord) : ℚ :=
  if r.department = d ∧ r.status ≠ .failed then r.reservedAmount.toRat else 0

/-- `g d` is what department `d` spent beyond what its records hold. -/
structure Accounts (s : PaymentState) (g : String → ℚ) : Prop where
  keyed : ∀ t r, s.payments.get? t = some r → r.trackingId = t
  gap : ∀ d b, s.budgets.get? d = some b →
    b.total.toRat - b.remaining.toRat = Dict.weigh (held d) s.payments + g d

/-- Every department spent what its records hold. -/
def Balanced (s : PaymentState) : Prop :=
  ∀ d b, s.budgets.get? d = some b → b.total.toRat - b.remaining.toRat = Dict.weigh (held d) s.payments

/-- What an operation took from the budget of department `d`. -/
def moved (d : String) : Awaited paymentSig Exn → ℚ
  | ⟨.reserve d' x, .ok _⟩ => if d' = d then x.toRat else 0
  | ⟨.release d' x, .ok _⟩ => if d' = d then -x.toRat else 0
  | _ => 0

/-- A reserve or a release of an amount. -/
def moves : Awaited paymentSig Exn → Bool
  | ⟨.reserve _ x, .ok _⟩ => x.coeff ≠ 0
  | ⟨.release _ x, .ok _⟩ => x.coeff ≠ 0
  | _ => false

/-- A save that succeeded. -/
def saved : Awaited paymentSig Exn → Bool
  | ⟨.savePayment _, .ok _⟩ => true
  | _ => false

/-- What a delivery took from department `d` with no save directly after it; `next` is the entry that
follows the log. -/
def leak (d : String) : Option (Awaited paymentSig Exn) → List (Awaited paymentSig Exn) → ℚ
  | _, [] => 0
  | next, a :: l => (if next.any saved then 0 else moved d a) + leak d (some a) l

/-! ## One operation -/

section Operations
variable {s : PaymentState} {g : String → ℚ} {d : String} {x : Decimal} {budgets : Dict String Budget}

theorem Accounts.congr {g' : String → ℚ} (h : Accounts s g) (hg : ∀ d, g d = g' d) : Accounts s g' :=
  ⟨h.keyed, fun d b hb => by rw [h.gap d b hb, hg]⟩

theorem Accounts.spend (h : Accounts s g) {b b' : Budget} (hb : s.budgets.get? d = some b) (y : ℚ)
    (ht : b'.total = b.total) (hr : b'.remaining.toRat = b.remaining.toRat - y) :
    Accounts { s with budgets := s.budgets.insert d b' } fun e => g e + if d = e then y else 0 := by
  refine ⟨h.keyed, fun e c hc => ?_⟩
  by_cases hde : d = e
  · subst hde
    rw [Dict.get?_insert_self] at hc
    cases hc
    have := h.gap d b hb
    rw [if_pos rfl, ht, hr]
    linarith
  · rw [Dict.get?_insert_ne _ _ (Ne.symm hde)] at hc
    rw [if_neg hde, add_zero]
    exact h.gap e c hc

theorem Accounts.reserve (h : Accounts s g)
    (hr : InMemoryBudgetRepository.reserve .exact d x s.budgets = (.ok (), budgets)) :
    Accounts { s with budgets := budgets } fun e => g e + if d = e then x.toRat else 0 := by
  obtain ⟨b, b', hb, hb', rfl⟩ := InMemoryBudgetRepository.update_ok hr
  obtain ⟨-, r, hsub, rfl⟩ := InMemoryBudgetRepository.reserved_ok hb'
  exact h.spend hb _ rfl (Option.some.inj (Rounding.sub_ok hsub)).symm

theorem Accounts.release (h : Accounts s g)
    (hr : InMemoryBudgetRepository.release .exact d x s.budgets = (.ok (), budgets)) :
    Accounts { s with budgets := budgets } fun e => g e + if d = e then -x.toRat else 0 := by
  obtain ⟨b, b', hb, hb', rfl⟩ := InMemoryBudgetRepository.update_ok hr
  obtain ⟨r, hadd, -, rfl⟩ := InMemoryBudgetRepository.released_ok hb'
  refine h.spend hb _ rfl ?_
  rw [sub_neg_eq_add]
  exact (Option.some.inj (Rounding.add_ok hadd)).symm

theorem keyed_insert {payments : Dict String PaymentRecord}
    (h : ∀ t r, payments.get? t = some r → r.trackingId = t)
    (p : PaymentRecord) : ∀ t r, (payments.insert p.trackingId p).get? t = some r → r.trackingId = t := by
  intro t r hr
  rw [Dict.get?_insert] at hr
  split_ifs at hr with ht
  · cases hr
    exact ht.symm
  · exact h t r hr

theorem Accounts.saveNew (h : Accounts s g) {p : PaymentRecord} (hp : s.payments.get? p.trackingId = none) :
    Accounts { s with payments := s.payments.insert p.trackingId p } fun e => g e - held e p := by
  refine ⟨keyed_insert h.keyed p, fun e b hb => ?_⟩
  rw [h.gap e b hb, Dict.weigh_insert_new (held e) _ p hp]
  ring

theorem Accounts.saveOver (h : Accounts s g) {p q : PaymentRecord}
    (hq : s.payments.get? p.trackingId = some q) :
    Accounts { s with payments := s.payments.insert p.trackingId p } fun e =>
      g e + held e q - held e p := by
  refine ⟨keyed_insert h.keyed p, fun e b hb => ?_⟩
  have hw := Dict.weigh_insert_old (held e) _ p hq
  rw [h.gap e b hb, eq_sub_of_add_eq hw]
  ring

end Operations

/-! ## One delivery -/

/-- What a delivery leaves that started from `g`: its leaks. -/
def Keeps (g : String → ℚ) (_ : Outcome Exn Unit)
    (t : PaymentState × List (Awaited paymentSig Exn)) : Prop :=
  Accounts t.1 fun d => g d + leak d none t.2

/-- Between two operations, with no move waiting for its save. -/
structure Settled (g : String → ℚ) (s : PaymentState) (l : List (Awaited paymentSig Exn)) : Prop where
  accounts : Accounts s fun d => g d + leak d none l
  settled : ∀ next d, leak d next l = leak d none l

variable {s : PaymentState} {g : String → ℚ} {l : List (Awaited paymentSig Exn)}

/-- Until it is saved, a move is a leak. -/
theorem leak_move (hl : ∀ next d, leak d next l = leak d none l) (a : Awaited paymentSig Exn) (d : String) :
    leak d none (a :: l) = leak d none l + moved d a := by
  rw [leak, hl, add_comm]
  rfl

theorem leak_cons_of_moved {a : Awaited paymentSig Exn} (ha : ∀ d, moved d a = 0)
    (next : Option (Awaited paymentSig Exn)) (d : String) : leak d next (a :: l) = leak d (some a) l := by
  simp [leak, ha]

theorem Settled.entry (h : Settled g s l) {s' : PaymentState} {a : Awaited paymentSig Exn}
    (ha : ∀ d, moved d a = 0)
    (hs : Accounts s (fun d => g d + leak d none l) → Accounts s' fun d => g d + leak d none l) :
    Settled g s' (a :: l) := by
  have hl (next : Option (Awaited paymentSig Exn)) (d : String) : leak d next (a :: l) = leak d none l := by
    rw [leak_cons_of_moved ha, h.settled]
  exact ⟨(hs h.accounts).congr fun d => by rw [hl], fun next d => by rw [hl, hl]⟩

theorem Accounts.of_eq {s' : PaymentState} (h : Accounts s g) (hp : s'.payments = s.payments)
    (hb : s'.budgets = s.budgets) : Accounts s' g := by
  obtain ⟨h1, h2⟩ := h
  constructor
  · rwa [hp]
  · rwa [hp, hb]

theorem Settled.keeps (h : Settled g s l) (out : Outcome Exn Unit) : Keeps g out (s, l) := h.accounts

theorem Settled.entry_keeps (h : Settled g s l) (out : Outcome Exn Unit) {s' : PaymentState}
    {a : Awaited paymentSig Exn} (ha : ∀ d, moved d a = 0) (hp : s'.payments = s.payments)
    (hb : s'.budgets = s.budgets) : Keeps g out (s', a :: l) :=
  (h.entry ha fun hs => hs.of_eq hp hb).accounts

theorem publish_keeps (h : Settled g s l) (e : PaymentCompletedEvent) :
    wp (faultyPayment .exact).logged (inMemoryPayment.publisher.publish e) (Keeps g) (s, l) := by
  rw [wp_publish]
  exact ⟨h.keeps _, h.entry_keeps _ (fun _ => rfl) rfl rfl, fun _ => h.entry_keeps _ (fun _ => rfl) rfl rfl⟩

/-- A save that nothing waits for. -/
theorem saveAndPublish_keeps (h : Settled g s l) {p : PaymentRecord}
    (hp : Accounts { s with payments := s.payments.insert p.trackingId p } fun d => g d + leak d none l) :
    wp (faultyPayment .exact).logged (inMemoryPayment.saveAndPublish p) (Keeps g) (s, l) := by
  unfold PaymentService.saveAndPublish
  rw [wp_save]
  exact ⟨h.keeps _, publish_keeps (h.entry (fun _ => rfl) fun _ => hp) _,
    fun _ => h.entry_keeps _ (fun _ => rfl) rfl rfl⟩

/-- Directly after a move, a save records it; where the save fails, the move is a leak. -/
theorem save_after_move {a : Awaited paymentSig Exn} {p : PaymentRecord}
    {k : Unit → Prog paymentSig Exn Unit}
    (hs : Accounts s fun d => g d + leak d none (a :: l)) (hl : ∀ next d, leak d next l = leak d none l)
    (hp : Accounts { s with payments := s.payments.insert p.trackingId p } fun d => g d + leak d none l)
    (hk : ∀ l', Settled g { s with payments := s.payments.insert p.trackingId p } l' →
      wp (faultyPayment .exact).logged (k ()) (Keeps g)
        ({ s with payments := s.payments.insert p.trackingId p }, l')) :
    wp (faultyPayment .exact).logged ((inMemoryPayment.repository.save p).attempt (.onOk k)) (Keeps g)
      (s, a :: l) := by
  have hsaved (next : Option (Awaited paymentSig Exn)) (d : String) :
      leak d next (⟨.savePayment p, .ok ()⟩ :: a :: l) = leak d none l := by simp [leak, saved, moved, hl]
  rw [wp_save]
  refine ⟨hs, hk _ ⟨hp.congr fun d => by rw [hsaved], fun next d => by rw [hsaved, hsaved]⟩,
    fun details => ?_⟩
  exact hs.congr fun d => by simp [leak, saved, moved]

theorem held_declined (d message : String) (r : PaymentRecord) : held d (r.declined message) = 0 := by
  simp [held, PaymentRecord.declined]

theorem held_rejection (d reason : String) (i : Invoice) (dec : Decision) :
    held d (.ofRejection i dec reason) = 0 := by
  simp [held, PaymentRecord.ofRejection]

theorem held_completed (d : String) {r : PaymentRecord} (hr : r.status = .reserved) :
    held d r.completed = held d r := by
  simp [held, PaymentRecord.completed, hr]

theorem held_reserved (d : String) {r : PaymentRecord} (hr : r.status = .reserved) :
    held d r = if r.department = d then r.reservedAmount.toRat else 0 := by
  simp [held, hr]

theorem executeCharge_keeps (h : Settled g s l) {r : PaymentRecord} (hr : r.status = .reserved)
    (hs : s.payments.get? r.trackingId = some r) :
    wp (faultyPayment .exact).logged (inMemoryPayment.executeCharge r) (Keeps g) (s, l) := by
  rw [PaymentService.executeCharge_eq _ hr, wp_charge]
  refine ⟨h.keeps _, fun v reply gateway hreply => ?_, fun _ => h.entry_keeps _ (fun _ => rfl) rfl rfl⟩
  have h1 : Settled g { s with gateway := gateway } (⟨.charge r.invoice r.trackingId, reply⟩ :: l) :=
    h.entry (fun _ => rfl) fun hs => hs.of_eq rfl rfl
  rcases Gateway.charge_reply hreply with rfl | ⟨m, rfl⟩
  · refine saveAndPublish_keeps h1 ((h1.accounts.saveOver (p := r.completed) hs).congr fun d => ?_)
    rw [held_completed d hr]
    ring
  · rw [PaymentService.afterCharge, wp_release]
    refine ⟨h1.keeps _, fun reply budgets hrel => ?_, fun _ => h1.entry_keeps _ (fun _ => rfl) rfl rfl⟩
    cases reply with
    | error e =>
      exact h1.entry_keeps _ (fun _ => rfl) rfl (InMemoryBudgetRepository.update_error hrel)
    | ok u =>
      have h2 := h1.accounts.release hrel
      refine save_after_move (p := r.declined m) (h2.congr fun d => ?_) h1.settled
        ((h2.saveOver (p := r.declined m) hs).congr fun d => ?_) fun l' h3 => publish_keeps h3 _
      · rw [leak_move h1.settled, add_assoc]
        rfl
      · rw [held_declined, held_reserved d hr]
        split_ifs <;> ring

theorem runSaga_keeps (h : Settled g s l) (i : Invoice) (dec : Decision) :
    wp (faultyPayment .exact).logged (inMemoryPayment.runSaga i dec) (Keeps g) (s, l) := by
  rw [PaymentService.runSaga_eq, wp_get]
  refine ⟨h.keeps _, ?_, fun _ => h.entry_keeps _ (fun _ => rfl) rfl rfl⟩
  have h1 : Settled g s (⟨.getPayment dec.correlationId, .ok (s.payments.get? dec.correlationId)⟩ :: l) :=
    h.entry (fun _ => rfl) id
  rw [Prog.onOk_ok]
  cases hget : s.payments.get? dec.correlationId with
  | some r =>
    rw [hget] at h1
    rw [PaymentService.afterGet]
    cases hst : r.status.terminal with
    | true =>
      rw [PaymentService.resume_of_terminal _ hst]
      exact h1.keeps _
    | false =>
      have hr := PaymentStatus.terminal_eq_false.mp hst
      rw [PaymentService.resume_of_reserved _ hr]
      exact executeCharge_keeps h1 hr (by rwa [h.accounts.keyed _ _ hget])
  | none =>
    rw [hget] at h1
    rw [PaymentService.afterGet, wp_reserve]
    refine ⟨h1.keeps _, fun reply budgets hres => ?_, fun _ => h1.entry_keeps _ (fun _ => rfl) rfl rfl⟩
    cases reply with
    | error e =>
      have h2 : Settled g { s with budgets := budgets } (⟨.reserve i.department i.total, .error e⟩ :: _) :=
        h1.entry (fun _ => rfl) fun hs => hs.of_eq rfl (InMemoryBudgetRepository.update_error hres)
      rcases inMemoryPayment.afterReserve_error i dec e with he | ⟨reason, he⟩ <;> rw [he]
      · exact h2.keeps _
      · refine saveAndPublish_keeps h2
          ((h2.accounts.saveNew (p := .ofRejection i dec reason) hget).congr fun d => ?_)
        rw [held_rejection, sub_zero]
    | ok u =>
      have h2 := h1.accounts.reserve hres
      refine save_after_move (p := .ofReservation i dec) (h2.congr fun d => ?_) h1.settled
        ((h2.saveNew (p := .ofReservation i dec) hget).congr fun d => ?_) fun l' h3 => ?_
      · rw [leak_move h1.settled, add_assoc]
        rfl
      · rw [held_reserved d rfl]
        exact add_sub_cancel_right _ _
      · exact executeCharge_keeps h3 rfl (Dict.get?_insert_self _ _ _)

/-- **One delivery**: what it moves without recording it is all that changes the accounts. -/
theorem handle_keeps (h : Accounts s g) (delivery : PaymentDelivery) :
    wp (faultyPayment .exact).logged (inMemoryPayment.handle delivery) (Keeps g) (s, []) := by
  have h0 : Settled g s [] := ⟨h.congr fun d => (add_zero _).symm, fun _ _ => rfl⟩
  rw [PaymentService.handle_eq]
  cases delivery.trigger with
  | none => exact h0.keeps _
  | some t => exact runSaga_keeps h0 t.1 t.2

/-! ## Runs -/

/-- What a run took from department `d` without recording it. -/
def leaked (d : String) (history : List (Ran paymentSig Exn Unit PaymentDelivery)) : ℚ :=
  (history.map fun r => leak d none r.log).sum

theorem runCalls_accounts (run : PaymentRun) (h : Accounts s g) :
    Accounts (runCalls (faultyPayment .exact) inMemoryPayment.handle run s).2 fun d =>
      g d + leaked d (runCalls (faultyPayment .exact) inMemoryPayment.handle run s).1 := by
  induction run generalizing s g with
  | nil => exact h.congr fun d => (add_zero _).symm
  | cons c run ih =>
    obtain ⟨delivery, cs⟩ := c
    have h1 :=
      runCall_of_wp (Q := fun r t => Accounts t fun d => g d + leak d none r.log)
        (handle_keeps h delivery) cs
    refine (ih h1).congr fun d => ?_
    rw [runCalls_cons, leaked, leaked, List.map_cons, List.sum_cons, add_assoc]

theorem seeded_accounts (seeds : List (String × Decimal)) : Accounts (.seeded seeds) fun _ => 0 := by
  refine ⟨(fun _ _ h => nomatch h), fun d b hb => ?_⟩
  obtain ⟨x, -, rfl⟩ := PaymentState.mem_seeded hb
  simp [PaymentState.seeded]

/-- **Every run**: with any failures and crashes, a department spent what its records hold and what
leaked. -/
theorem run_accounts (seeds : List (String × Decimal)) (run : PaymentRun) :
    Accounts (paymentRun .exact seeds run).2 fun d => leaked d (paymentRun .exact seeds run).1 :=
  (runCalls_accounts run (seeded_accounts seeds)).congr fun _ => zero_add _

theorem moved_of_not_moves {a : Awaited paymentSig Exn} (h : moves a = false)
    (d : String) : moved d a = 0 := by
  have hzero {x : Decimal} (hx : x.coeff = 0) : x.toRat = 0 := by simp [Decimal.toRat, Decimal.int, hx]
  unfold moved
  split
  · rw [hzero (by simpa [moves] using h), ite_self]
  · rw [hzero (by simpa [moves] using h), neg_zero, ite_self]
  · rfl

theorem leak_of_followed {next : Option (Awaited paymentSig Exn)} (h : followed moves saved next l = true)
    (d : String) : leak d next l = 0 := by
  induction l generalizing next with
  | nil => rfl
  | cons a l ih =>
    simp only [followed, Bool.and_eq_true, Bool.or_eq_true, Bool.not_eq_true'] at h
    rw [leak, ih h.2, add_zero]
    split_ifs with hs
    · rfl
    · exact moved_of_not_moves (h.1.resolve_right hs) d

/-- After a move the saga saves. -/
theorem directed_moves : Directed moves PaymentOp.isSave where
  get _ _ := rfl
  charge _ _ _ := rfl
  publish _ _ := rfl
  failed o _ := by cases o <;> rfl
  reserve _ _ _ _ := rfl
  release _ _ _ _ := rfl
  save p hp := by cases hp

theorem saved_of_isSave (a : Awaited paymentSig Exn) (ha : (a.op.isSave && a.answered) = true) :
    saved a = true := by
  obtain ⟨o, r⟩ := a
  cases o <;> cases r <;> first | rfl | cases ha

/-- **Nothing is orphaned**: in every run in which, directly after each reserve and each release that
moves an amount, no delivery crashes and what it awaits next is answered, every department spent exactly
what its reserved and completed records hold. -/
theorem reservations_recorded (seeds : List (String × Decimal)) (run : PaymentRun)
    (h : ∀ r ∈ (paymentRun .exact seeds run).1, r.spared moves = true) :
    Balanced (paymentRun .exact seeds run).2 := by
  have hsaved : ∀ r ∈ (paymentRun .exact seeds run).1, followed moves saved none r.log = true := fun r hr =>
    followed_mono saved_of_isSave
      (followed_runCalls (h := faultyPayment .exact) (follows_handle directed_moves) run
      (.seeded seeds) r hr (h r hr))
  intro d b hb
  have hleak : leaked d (paymentRun .exact seeds run).1 = 0 :=
    List.sum_eq_zero fun x hx => by
      obtain ⟨r, hr, rfl⟩ := List.mem_map.mp hx
      exact leak_of_followed (hsaved r hr) d
  rw [(run_accounts seeds run).gap d b hb, hleak, add_zero]

/-- A delivery without a failure. -/
theorem reservations_recorded_laptop :
    Balanced
      (paymentRun .exact [("engineering", .ofInt 1000)] [(laptopApproved, List.replicate 6 .answer)]).2 :=
  reservations_recorded _ _ (by decide)

/-- The save after the reservation is lost, and the event is delivered again. -/
def lostSave : PaymentHistory × PaymentState :=
  paymentRun .exact [("engineering", .ofInt 1000)]
    [(laptopApproved, [.answer, .answer, .fail "connection lost"]),
      (laptopApproved, List.replicate 6 .answer)]

/-- The amount is reserved twice and recorded once. -/
theorem lost_save_orphans_reservation : lastReturned lostSave.1 = true ∧ ¬ Balanced lostSave.2 := by
  refine ⟨by decide, fun h => ?_⟩
  have hitems : lostSave.2.payments.items =
      [("t-1", (PaymentRecord.ofReservation laptop ⟨.autoApprove, "", [], "t-1"⟩).completed)] := by decide
  have hgap := h "engineering" ⟨"engineering", .ofInt 1000, ⟨false, 800, 0⟩⟩ (by decide)
  rw [Dict.weigh, hitems] at hgap
  simp [held, PaymentRecord.completed, PaymentRecord.ofReservation, laptop, Decimal.toRat, Decimal.int,
    Decimal.ofInt] at hgap
  norm_num at hgap

end ApprovalFlow.Payment
