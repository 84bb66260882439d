import ApprovalFlow.Payment.DaprState

/-!
# Concurrent resumption

A reservation is stored and any number of deliveries that trigger its payment run concurrently on one
Dapr store. The guard of the saga is a read: two deliveries that both find the reservation both charge
it.

* `OneReader`: no delivery reads a reservation that another one has read.
* `Stage`: how far the one delivery that resumes the reservation has come.
* `compensated_once`: then a decline is credited once, the record ends in one status, every delivery
  returns and one event is published; `compensated_twice`: two deliveries that both read the reservation.
-/

namespace ApprovalFlow.Payment
open Numeric Async Versioned DaprStatePaymentRepository

abbrev PaymentEvent := Event paymentDaprSig Exn Unit PaymentDelivery

abbrev PaymentWorld := World paymentDaprSig Exn Unit PaymentDapr PaymentDelivery

abbrev PaymentConfig := Config paymentDaprSig Exn Unit PaymentDapr PaymentDelivery

/-- The record that is stored for an id. -/
def recordOf (t : String) (s : PaymentDapr) : Option PaymentRecord :=
  match s.store.value (layout.key t) with
  | some (.record q) => some q
  | _ => none

/-- The budget that is stored for a department. -/
def budgetOf (d : String) (s : PaymentDapr) : Option Budget :=
  match s.store.value (DaprStateBudgetRepository.key d) with
  | some (.budget u) => some u
  | _ => none

/-- The event is a read that found a reservation under the id. -/
def readsReserved (t : String) : PaymentEvent → Bool
  | .perform _ _ (.state (.get k)) (.ok (some (.record q), _)) => k == layout.key t && q.status == .reserved
  | _ => false

/-- The deliveries that read a reservation. -/
def readers (t : String) (log : List PaymentEvent) : List Nat :=
  (log.filter (readsReserved t)).map Event.tid

/-- A reservation is read once. -/
def OneReader (t : String) : StepCond paymentDaprSig Exn Unit PaymentDapr (Option String) PaymentDelivery :=
  fun w _ _ o _ => ∀ q, o = .state (.get (layout.key t)) → recordOf t w.state = some q →
    q.status = .reserved → readers t w.log = []

/-- A stored reservation, and the budget that its amount was taken from. -/
structure Resumable (rnd : Rounding) (t : String) (s : PaymentDapr) (p : PaymentRecord)
    (b : Budget) : Prop where
  id : p.trackingId = t
  reserved : p.status = .reserved
  record : recordOf t s = some p
  budget : budgetOf p.department s = some b
  room : b.remaining.toRat + p.reservedAmount.toRat ≤ b.total.toRat
  fits : rnd.Fits (b.remaining.toRat + p.reservedAmount.toRat)

/-- The record and the budget that the gateway's reply settles a reservation to; `b'` is the budget
credited once. -/
inductive Resolved (t : String) (p : PaymentRecord) (b b' : Budget) (s : PaymentDapr) :
    PaymentRecord → Budget → Prop
  | completed : s.gateway.results.get? t = some none → Resolved t p b b' s p.completed b
  | declined {m : String} : s.gateway.results.get? t = some (some m) → Resolved t p b b' s (p.declined m) b'

/-- What is stored and published. -/
structure Shows (t d : String) (q : PaymentRecord) (u : Budget)
    (pub : List PaymentCompletedEvent) (s : PaymentDapr) : Prop where
  record : recordOf t s = some q
  budget : budgetOf d s = some u
  published : s.published = pub

/-- How far a resumption has come, when `pub` was published before it. -/
inductive Stage (t : String) (p : PaymentRecord) (b b' : Budget) (pub : List PaymentCompletedEvent)
    (s : PaymentDapr) : Prop
  | charging (h : Shows t p.department p b pub s)
  | credited (h : Shows t p.department p b' pub s)
  | saved {q : PaymentRecord} {u : Budget} (hs : Resolved t p b b' s q u)
    (h : Shows t p.department q u pub s)
  | announced {q : PaymentRecord} {u : Budget} (hs : Resolved t p b b' s q u)
      (h : Shows t p.department q u (pub ++ [q.event]) s)

/-- Nobody has read the reservation, or one delivery resumes it. -/
def Resuming (t : String) (p : PaymentRecord) (b b' : Budget) (s₀ : PaymentDapr)
    (w : PaymentWorld) : Prop :=
  (readers t w.log = [] ∧ w.state = s₀) ∨ ∃ i, readers t w.log = [i] ∧ Stage t p b b' s₀.published w.state

/-- The others leave what thread `i` resumes to it; a terminal record stays. -/
structure Yields (t : String) (i : Nat) (w w₁ : PaymentWorld) : Prop where
  keep : ∀ j, readers t w.log = [j] → readers t w₁.log = [j]
  fresh : readers t w₁.log = [i] → readers t w.log = [i]
  hold : readers t w.log = [i] → w₁.state = w.state
  final : ∀ q, recordOf t w.state = some q → q.status.terminal = true → recordOf t w₁.state = some q

/-- The delivery returned, and somebody resumed the reservation; if it was this delivery, it is settled. -/
def Resumed (t : String) (p : PaymentRecord) (b b' : Budget) (pub : List PaymentCompletedEvent) (i : Nat)
    (r : Except Exn Unit) (w : PaymentWorld) : Prop :=
  r = .ok () ∧ ∃ j, readers t w.log = [j] ∧
    (j = i → ∃ q u, Resolved t p b b' w.state q u ∧ Shows t p.department q u (pub ++ [q.event]) w.state)

section Basics
variable {t : String} {p : PaymentRecord} {b b' : Budget} {pub : List PaymentCompletedEvent}
    {s s₀ : PaymentDapr}
  {w w₁ : PaymentWorld} {i : Nat}

theorem value_of_recordOf {q : PaymentRecord} (h : recordOf t s = some q) :
    s.store.value (layout.key t) = some (.record q) := by
  unfold recordOf at h
  split at h
  · next hv => rw [hv, Option.some.inj h]
  · cases h

theorem value_of_budgetOf {d : String} {u : Budget} (h : budgetOf d s = some u) :
    s.store.value (DaprStateBudgetRepository.key d) = some (.budget u) := by
  unfold budgetOf at h
  split at h
  · next hv => rw [hv, Option.some.inj h]
  · cases h

theorem readers_cons_false {e : PaymentEvent} (h : readsReserved t e = false) (log : List PaymentEvent) :
    readers t (e :: log) = readers t log := by
  rw [readers, List.filter_cons_of_neg (by simp [h]), readers]

theorem readers_cons_true {e : PaymentEvent} (h : readsReserved t e = true) (log : List PaymentEvent) :
    readers t (e :: log) = e.tid :: readers t log := by
  rw [readers, List.filter_cons_of_pos h, List.map_cons, readers]

theorem readsReserved_get_ne {k : String} (hk : k ≠ layout.key t) (c : PaymentDelivery)
    (r : Except Exn (Option PaymentValue × Nat)) :
    readsReserved t (.perform i c (.state (.get k)) r : PaymentEvent) = false := by
  rcases r with e | ⟨_ | v, n⟩
  · rfl
  · rfl
  · cases v with
    | record q => simp [readsReserved, hk]
    | index ids => rfl
    | budget u => rfl

theorem Resolved.terminal {q : PaymentRecord} {u : Budget} (h : Resolved t p b b' s q u) :
    q.status.terminal = true := by
  cases h <;> rfl

theorem Resolved.trackingId {q : PaymentRecord} {u : Budget} (h : Resolved t p b b' s q u) :
    q.trackingId = p.trackingId := by
  cases h <;> rfl

theorem Resolved.gateway_eq {q : PaymentRecord} {u : Budget}
    (h : Resolved t p b b' s q u) {s' : PaymentDapr}
    (hg : s'.gateway = s.gateway) : Resolved t p b b' s' q u := by
  cases h with
  | completed h => exact .completed (hg ▸ h)
  | declined h => exact .declined (hg ▸ h)

theorem Stage.budget (h : Stage t p b b' pub s) :
    budgetOf p.department s = some b ∨ budgetOf p.department s = some b' := by
  cases h with
  | charging h => exact .inl h.budget
  | credited h => exact .inr h.budget
  | saved hs h => cases hs <;> simp [h.budget]
  | announced hs h => cases hs <;> simp [h.budget]

theorem Stage.published (h : Stage t p b b' pub s) : s.published = pub ∨ ∃ e, s.published = pub ++ [e] := by
  cases h with
  | charging h => exact .inl h.published
  | credited h => exact .inl h.published
  | saved _ h => exact .inl h.published
  | announced _ h => exact .inr ⟨_, h.published⟩

/-- What is stored and published is as before, or as a stage left it. -/
theorem Resuming.stage (h : Resuming t p b b' s₀ w) :
    w.state = s₀ ∨ Stage t p b b' s₀.published w.state := by
  rcases h with ⟨-, hs⟩ | ⟨_, -, hs⟩
  · exact .inl hs
  · exact .inr hs

theorem Yields.refl (i : Nat) (w : PaymentWorld) : Yields t i w w :=
  ⟨fun _ h => h, id, fun _ => rfl, fun _ h _ => h⟩

theorem Yields.trans {w₂ : PaymentWorld} (h : Yields t i w w₁) (h' : Yields t i w₁ w₂) :
    Yields t i w w₂ where
  keep j hj := h'.keep j (h.keep j hj)
  fresh hi := h.fresh (h'.fresh hi)
  hold hi := (h'.hold (h.keep i hi)).trans (h.hold hi)
  final q hq hterm := h'.final q (h.final q hq hterm) hterm

theorem Yields.idle (j : Nat) {e : PaymentEvent} (he : readsReserved t e = false) :
    Yields t j w ⟨w.state, e :: w.log⟩ := by
  refine ⟨fun j' hj => ?_, fun hj => ?_, fun _ => rfl, fun _ hq _ => hq⟩
  · rw [readers_cons_false he]
    exact hj
  · rw [readers_cons_false he] at hj
    exact hj

theorem Resuming.idle (h : Resuming t p b b' s₀ w) {e : PaymentEvent} (he : readsReserved t e = false) :
    Resuming t p b b' s₀ ⟨w.state, e :: w.log⟩ := by
  unfold Resuming
  rw [readers_cons_false he]
  exact h

theorem Resumed.stable {r : Except Exn Unit} (hR : Yields t i w w₁) (h : Resumed t p b b' pub i r w) :
    Resumed t p b b' pub i r w₁ := by
  obtain ⟨hr, j, hj, hdone⟩ := h
  refine ⟨hr, j, hR.keep j hj, fun hji => ?_⟩
  subst hji
  rw [hR.hold hj]
  exact hdone rfl

end Basics

/-! ## A delivery -/

section Deliveries
variable {rnd : Rounding} {t : String} {p : PaymentRecord} {b b' : Budget} {s₀ : PaymentDapr}
    {w : PaymentWorld} {i : Nat}
  {c : PaymentDelivery}

abbrev SafeDelivery {β : Type} (rnd : Rounding) (t : String) (p : PaymentRecord)
    (b b' : Budget) (s₀ : PaymentDapr)
    (i : Nat) (c : PaymentDelivery) (prog : Prog paymentDaprSig Exn β)
    (Φ : Except Exn β → PaymentWorld → Prop) (w : PaymentWorld) : Prop :=
  Safe (paymentClients rnd t) (OneReader t) (Resuming t p b b' s₀) (Yields t) i c prog Φ w

/-- **An operation of the delivery that resumes**: the state is its own, and it leads to another stage. -/
theorem safe_own {β : Type} {o : PaymentDaprOp} {f : Except Exn o.Reply → Prog paymentDaprSig Exn β}
    {Φ : Except Exn β → PaymentWorld → Prop} {s : PaymentDapr}
    (hown : readers t w.log = [i]) (hs : w.state = s)
    (hstep : ∀ v, readsReserved t (.perform i c o (s.perform v o).1) = false ∧
      (∀ q, recordOf t s = some q → q.status.terminal = true → recordOf t (s.perform v o).2 = some q) ∧
      Stage t p b b' s₀.published (s.perform v o).2 ∧
      ∀ w₁, readers t w₁.log = [i] → w₁.state = (s.perform v o).2 →
        SafeDelivery rnd t p b b' s₀ i c (f (s.perform v o).1) Φ w₁) :
    SafeDelivery rnd t p b b' s₀ i c (.await o f) Φ w := by
  intro w₁ hR _ v _
  have hown₁ : readers t w₁.log = [i] := hR.keep i hown
  have hs₁ : w₁.state = s := (hR.hold hown).trans hs
  obtain ⟨hevent, hfinal, hstage, hnext⟩ := hstep v
  subst hs₁
  have hreaders : readers t (w₁.performed (paymentClients rnd t).exec i c o v).log = readers t w₁.log :=
    readers_cons_false hevent w₁.log
  refine ⟨.inr ⟨i, hreaders.trans hown₁, hstage⟩,
    fun j hj => ⟨fun j' hj' => ?_, fun hj' => ?_, fun hj' => ?_, hfinal⟩, ?_⟩
  · rw [hreaders]
    exact hj'
  · rw [hreaders] at hj'
    exact hj'
  · rw [hown₁, List.singleton_inj] at hj'
    exact absurd hj'.symm hj
  · exact hnext _ (hreaders.trans hown₁) rfl

theorem dapr_getState_attempt {β : Type} (k : String)
    (f : Except Exn (Option PaymentValue × Nat) → Prog paymentDaprSig Exn β) :
    (paymentStateClient.getState k).attempt f = .await (.state (.get k)) f :=
  Prog.op_attempt (σ := paymentDaprSig) (.state (.get k)) f

/-- A read by the delivery that resumes, of another key than the record's. -/
theorem safe_own_getState {β : Type} {k : String}
    {f : Except Exn (Option PaymentValue × Nat) → Prog paymentDaprSig Exn β}
    {Φ : Except Exn β → PaymentWorld → Prop} {s : PaymentDapr}
    (hown : readers t w.log = [i]) (hs : w.state = s)
    (hk : k ≠ layout.key t) (hstage : Stage t p b b' s₀.published s)
    (h : ∀ w₁, readers t w₁.log = [i] → w₁.state = s →
      SafeDelivery rnd t p b b' s₀ i c (f (.ok (s.store.get k))) Φ w₁) :
    SafeDelivery rnd t p b b' s₀ i c ((paymentStateClient.getState k).attempt f) Φ w := by
  rw [dapr_getState_attempt]
  exact safe_own hown hs fun v => ⟨readsReserved_get_ne hk c _, fun q hq _ => hq, hstage, h⟩

/-- A transaction by the delivery that resumes, with the etag it read. -/
theorem safe_own_transact {β : Type} {ws : List (Write PaymentValue)}
    {f : Except Exn Unit → Prog paymentDaprSig Exn β}
    {Φ : Except Exn β → PaymentWorld → Prop} {s : PaymentDapr}
    (hown : readers t w.log = [i]) (hs : w.state = s) (hcurrent : s.store.Current ws)
    (hfinal : ∀ q, recordOf t s = some q → q.status.terminal = true →
      recordOf t { s with store := s.store.puts ws } = some q)
    (hstage : Stage t p b b' s₀.published { s with store := s.store.puts ws })
    (h : ∀ w₁, readers t w₁.log = [i] → w₁.state = { s with store := s.store.puts ws } →
      SafeDelivery rnd t p b b' s₀ i c (f (.ok ())) Φ w₁) :
    SafeDelivery rnd t p b b' s₀ i c ((paymentStateClient.executeStateTransaction ws).attempt f) Φ w := by
  have hop : (paymentStateClient.executeStateTransaction ws).attempt f = .await (.state (.transact ws)) f :=
    Prog.op_attempt (σ := paymentDaprSig) (.state (.transact ws)) f
  rw [hop]
  refine safe_own hown hs fun v => ?_
  have hperform : s.perform v (.state (.transact ws)) = (.ok (), { s with store := s.store.puts ws }) := by
    rw [PaymentDapr.perform, Op.perform_current hcurrent]
  rw [hperform]
  exact ⟨rfl, hfinal, hstage, h⟩

theorem recordOf_save (ht : t ≠ "index") {s : PaymentDapr} {q : PaymentRecord}
    (hq : q.trackingId = t) (ids : List String)
    (etag : Nat) :
    recordOf t { s with store := s.store.puts (IndexedState.writes layout q ids etag) } = some q := by
  have hq' : t = layout.trackingId q := hq.symm
  unfold recordOf
  dsimp only
  rw [IndexedState.value_writes, if_neg ht, if_pos hq']
  rfl

theorem budgetOf_save {d : String} {s : PaymentDapr} (q : PaymentRecord) (ids : List String) (etag : Nat) :
    budgetOf d { s with store := s.store.puts (IndexedState.writes layout q ids etag) } = budgetOf d s := by
  unfold budgetOf
  dsimp only
  rw [IndexedState.value_writes_of_ne _ _ _ _ (DaprStateBudgetRepository.key_ne d)]

theorem safe_saveAndPublish (ht : t ≠ "index") (hid : p.trackingId = t)
    (hp : p.status = .reserved) {s : PaymentDapr}
    {q : PaymentRecord} {u : Budget} (hown : readers t w.log = [i]) (hs : w.state = s)
    (hsettled : Resolved t p b b' s q u) (hshows : Shows t p.department p u s₀.published s)
    (hstage : Stage t p b b' s₀.published s) :
    SafeDelivery rnd t p b b' s₀ i c ((daprPayment rnd).saveAndPublish q)
      (Resumed t p b b' s₀.published i) w := by
  rw [PaymentService.saveAndPublish]
  show SafeDelivery rnd t p b b' s₀ i c
      ((IndexedState.saveLoop paymentStateClient layout q 5).attempt _) _ w
  rw [IndexedState.saveLoop_succ, Prog.attempt_assoc]
  have hindex : layout.indexKey ≠ layout.key t := fun h => ht (IndexedState.key_inj.mp h).symm
  refine safe_own_getState hown hs hindex hstage fun w₁ hown₁ hs₁ => ?_
  simp only [StateClient.afterRead]
  rw [Prog.attempt_assoc]
  have hq : q.trackingId = t := hsettled.trackingId.trans hid
  generalize hids : IndexedState.ids layout (s.store.get layout.indexKey).1 = ids
  have hshows₂ : Shows t p.department q u s₀.published
      { s with store := s.store.puts (IndexedState.writes layout q ids (s.store.get layout.indexKey).2) } :=
    ⟨recordOf_save ht hq _ _, (budgetOf_save q _ _).trans hshows.budget, hshows.published⟩
  have hsettled₂ : Resolved t p b b'
      { s with
        store := s.store.puts (IndexedState.writes layout q ids (s.store.get layout.indexKey).2) } q u :=
    hsettled.gateway_eq rfl
  refine safe_own_transact hown₁ hs₁
    ((IndexedState.current_writes _ _ _ _).mpr rfl) (fun q' hq' hterm => ?_)
    (.saved hsettled₂ hshows₂) fun w₂ hown₂ hs₂ => ?_
  · rw [hshows.record] at hq'
    cases hq'
    rw [hp] at hterm
    cases hterm
  · simp only [StateClient.afterWrite, Prog.attempt_ret, Prog.onOk_ok]
    show SafeDelivery rnd t p b b' s₀ i c
        ((@Prog.op paymentDaprSig Exn (.publishEvent q.event)).handle _) _ w₂
    rw [Prog.handle_eq, Prog.op_attempt]
    generalize hpaid :
      { s with store := s.store.puts (IndexedState.writes layout q ids (s.store.get layout.indexKey).2) } =
      paid at hs₂ hshows₂ hsettled₂
    have hshows₃ : Shows t p.department q u (s₀.published ++ [q.event])
        { paid with published := paid.published ++ [q.event] } :=
      ⟨hshows₂.record, hshows₂.budget, by rw [← hshows₂.published]⟩
    have hsettled₃ : Resolved t p b b' { paid with published := paid.published ++ [q.event] } q u :=
      hsettled₂.gateway_eq rfl
    refine safe_own hown₂ hs₂ fun v =>
      ⟨rfl, fun q' hq' _ => hq', .announced hsettled₃ hshows₃, fun w₃ hown₃ hs₃ => ?_⟩
    refine ⟨rfl, i, hown₃, fun _ => ⟨q, u, ?_, ?_⟩⟩
    · rw [hs₃]
      exact hsettled₃
    · rw [hs₃]
      exact hshows₃

theorem recordOf_putBudget {d : String} {s : PaymentDapr} (u : Budget) :
    recordOf t { s with store := s.store.put (DaprStateBudgetRepository.key d) (.budget u) } =
      recordOf t s := by
  unfold recordOf
  dsimp only
  rw [Store.value_put_ne _ _ (DaprStateBudgetRepository.key_ne d t).symm]

theorem budgetOf_putBudget {d : String} {s : PaymentDapr} (u : Budget) :
    budgetOf d { s with store := s.store.put (DaprStateBudgetRepository.key d) (.budget u) } = some u := by
  unfold budgetOf
  dsimp only
  rw [Store.value_put_self]

theorem safe_compensate (ht : t ≠ "index") (hid : p.trackingId = t) (hp : p.status = .reserved)
    (hreleased : InMemoryBudgetRepository.released rnd p.department p.reservedAmount b = .ok b')
    {s : PaymentDapr}
    {m : String} (hown : readers t w.log = [i]) (hs : w.state = s)
    (hdeclined : s.gateway.results.get? t = some (some m))
    (hshows : Shows t p.department p b s₀.published s) :
    SafeDelivery rnd t p b b' s₀ i c
      (((daprPayment rnd).budgetRepository.release p.department p.reservedAmount).attempt
      (.onOk fun _ => (daprPayment rnd).saveAndPublish (p.declined m)))
        (Resumed t p b b' s₀.published i) w := by
  show SafeDelivery rnd t p b b' s₀ i c
      ((DaprStateBudgetRepository.updateLoop paymentStateClient _ _ _ 5).attempt _) _ w
  rw [DaprStateBudgetRepository.updateLoop_succ, Prog.attempt_assoc]
  refine safe_own_getState hown hs (DaprStateBudgetRepository.key_ne _ t) (.charging hshows)
    fun w₁ hown₁ hs₁ => ?_
  have hupdated : DaprStateBudgetRepository.updated
      (InMemoryBudgetRepository.released rnd p.department p.reservedAmount) p.department
      (s.store.get (DaprStateBudgetRepository.key p.department)).1 = .ok b' := by
    rw [Store.get, value_of_budgetOf hshows.budget]
    exact hreleased
  simp only [StateClient.afterRead, hupdated]
  rw [Prog.attempt_assoc]
  have hshows₂ : Shows t p.department p b' s₀.published
      { s with store := s.store.put (DaprStateBudgetRepository.key p.department) (.budget b') } :=
    ⟨(recordOf_putBudget b').trans hshows.record, budgetOf_putBudget b', hshows.published⟩
  refine safe_own_transact hown₁ hs₁ (Store.current_single.mpr rfl)
    (fun q hq _ => (recordOf_putBudget b').trans hq) (.credited hshows₂) fun w₂ hown₂ hs₂ => ?_
  simp only [StateClient.afterWrite, Prog.attempt_ret, Prog.onOk_ok]
  exact safe_saveAndPublish ht hid hp hown₂ hs₂ (.declined hdeclined) hshows₂ (.credited hshows₂)

theorem safe_executeCharge (ht : t ≠ "index") (hid : p.trackingId = t) (hp : p.status = .reserved)
    (hreleased : InMemoryBudgetRepository.released rnd p.department p.reservedAmount b = .ok b')
    (hown : readers t w.log = [i]) (hs : w.state = s₀) (hshows : Shows t p.department p b s₀.published s₀) :
    SafeDelivery rnd t p b b' s₀ i c ((daprPayment rnd).executeCharge p)
      (Resumed t p b b' s₀.published i) w := by
  rw [PaymentService.executeCharge_eq _ hp]
  have hop (f : Except Exn Unit → Prog paymentDaprSig Exn Unit) :
      ((daprPayment rnd).gateway.charge p.invoice p.trackingId).attempt f =
        .await (.charge p.invoice p.trackingId) f :=
    Prog.op_attempt (σ := paymentDaprSig) (.charge p.invoice p.trackingId) f
  rw [hop]
  refine safe_own hown hs fun v => ?_
  have hshows₁ (g : Gateway) : Shows t p.department p b s₀.published { s₀ with gateway := g } :=
    ⟨hshows.record, hshows.budget, hshows.published⟩
  refine ⟨rfl, fun q hq _ => hq, .charging (hshows₁ _), fun w₁ hown₁ hs₁ => ?_⟩
  obtain ⟨verdict, hreply, hresult⟩ := Gateway.charge_result v p.trackingId s₀.gateway
  rw [hid] at hresult
  show SafeDelivery rnd t p b b' s₀ i c
      ((daprPayment rnd).afterCharge p (s₀.gateway.charge v p.trackingId).1) _ w₁
  rw [hreply]
  cases verdict with
  | none =>
    exact safe_saveAndPublish ht hid hp hown₁ hs₁ (.completed (hid ▸ hresult)) (hshows₁ _)
      (.charging (hshows₁ _))
  | some m => exact safe_compensate ht hid hp hreleased hown₁ hs₁ (hid ▸ hresult) (hshows₁ _)

/-- The world after thread `i` read the record. -/
abbrev afterGuard (rnd : Rounding) (t : String) (i : Nat) (c : PaymentDelivery) (v : Option String)
    (w : PaymentWorld) : PaymentWorld :=
  w.performed (paymentClients rnd t).exec i c (.state (.get (layout.key t))) v

theorem readsReserved_guard {q : PaymentRecord} (hq : recordOf t w.state = some q) :
    readsReserved t (.perform i c (.state (.get (layout.key t)))
      (.ok (w.state.store.get (layout.key t))) : PaymentEvent) = (q.status == .reserved) := by
  rw [Store.get, value_of_recordOf hq]
  simp [readsReserved]

theorem safe_first (ht : t ≠ "index") (h : Resumable rnd t s₀ p b)
    (hreleased : InMemoryBudgetRepository.released rnd p.department p.reservedAmount b = .ok b')
    (hnone : readers t w.log = []) (hstate : w.state = s₀) (v : Option String) :
    Resuming t p b b' s₀ (afterGuard rnd t i c v w) ∧
      (∀ j, j ≠ i → Yields t j w (afterGuard rnd t i c v w)) ∧
      SafeDelivery rnd t p b b' s₀ i c ((daprPayment rnd).resume p) (Resumed t p b b' s₀.published i)
        (afterGuard rnd t i c v w) := by
  have hrecord : recordOf t w.state = some p := hstate ▸ h.record
  have hevent := (readsReserved_guard (i := i) (c := c) hrecord).trans (beq_iff_eq.mpr h.reserved)
  have hreaders : readers t (afterGuard rnd t i c v w).log = [i] := by
    calc readers t _ = i :: readers t w.log := readers_cons_true hevent w.log
      _ = [i] := by rw [hnone]
  have hshows : Shows t p.department p b s₀.published s₀ := ⟨h.record, h.budget, rfl⟩
  refine ⟨.inr ⟨i, hreaders, ?_⟩, fun j hj =>
    ⟨fun j' hj' => ?_, fun hj' => ?_, fun _ => rfl, fun q hq _ => hq⟩, ?_⟩
  · show Stage t p b b' s₀.published w.state
    rw [hstate]
    exact .charging hshows
  · rw [hnone] at hj'
    cases hj'
  · rw [hreaders, List.singleton_inj] at hj'
    exact absurd hj'.symm hj
  · rw [PaymentService.resume_of_reserved _ h.reserved]
    exact safe_executeCharge ht h.id h.reserved hreleased hreaders hstate hshows

theorem safe_late (hI : Resuming t p b b' s₀ w) {q : PaymentRecord} (hq : recordOf t w.state = some q)
    (hterm : q.status.terminal = true) {k : Nat} (hk : readers t w.log = [k]) (hki : k ≠ i)
    (v : Option String) :
    Resuming t p b b' s₀ (afterGuard rnd t i c v w) ∧
      (∀ j, j ≠ i → Yields t j w (afterGuard rnd t i c v w)) ∧
      SafeDelivery rnd t p b b' s₀ i c ((daprPayment rnd).resume q) (Resumed t p b b' s₀.published i)
        (afterGuard rnd t i c v w) := by
  have hstatus : (q.status == .reserved) = false := by
    cases hs : q.status with
    | reserved =>
      rw [hs] at hterm
      cases hterm
    | completed => rfl
    | failed => rfl
  have hevent := (readsReserved_guard (i := i) (c := c) hq).trans hstatus
  refine ⟨hI.idle hevent, fun j _ => Yields.idle j hevent, ?_⟩
  rw [PaymentService.resume_of_terminal _ hterm]
  exact ⟨rfl, k, (readers_cons_false hevent w.log).trans hk, fun heq => absurd heq hki⟩

/-- **A delivery**: it resumes the reservation, or finds it settled. -/
theorem safe_handle (ht : t ≠ "index") (h : Resumable rnd t s₀ p b)
    (hreleased : InMemoryBudgetRepository.released rnd p.department p.reservedAmount b = .ok b')
    (htrigger : c.trigger.any (·.2.correlationId == t) = true) (hidle : readers t w.log ≠ [i]) :
    SafeDelivery rnd t p b b' s₀ i c ((daprPayment rnd).handle c) (Resumed t p b b' s₀.published i) w := by
  rw [PaymentService.handle_eq]
  obtain ⟨⟨invoice, decision⟩, htrigger, hcorr⟩ := (Option.any_eq_true _ _).mp htrigger
  rw [beq_iff_eq] at hcorr
  rw [htrigger]
  dsimp only
  rw [PaymentService.runSaga_eq, hcorr]
  show SafeDelivery rnd t p b b' s₀ i c ((IndexedState.get paymentStateClient layout t).attempt _) _ w
  rw [IndexedState.get_eq, Prog.attempt_assoc]
  rw [dapr_getState_attempt]
  intro w₁ hR hI v hcond
  have hfound {q : PaymentRecord} (hq : recordOf t w₁.state = some q) :
      IndexedState.found layout (w₁.state.store.get (layout.key t)).1 = .ok (some q) := by
    rw [Store.get, value_of_recordOf hq]
    rfl
  -- what the guard finds decides the rest of the delivery
  have hguard {q : PaymentRecord} (hq : recordOf t w₁.state = some q)
      (hresume : Resuming t p b b' s₀ (afterGuard rnd t i c v w₁) ∧
        (∀ j, j ≠ i → Yields t j w₁ (afterGuard rnd t i c v w₁)) ∧
          SafeDelivery rnd t p b b' s₀ i c ((daprPayment rnd).resume q) (Resumed t p b b' s₀.published i)
            (afterGuard rnd t i c v w₁)) :
      Resuming t p b b' s₀ (afterGuard rnd t i c v w₁) ∧
        (∀ j, j ≠ i → Yields t j w₁ (afterGuard rnd t i c v w₁)) ∧
        SafeDelivery rnd t p b b' s₀ i c ((StateClient.afterRead layout.readError
            (fun response => .ofExcept (IndexedState.found layout response.1))
            (.ok (w₁.state.store.get (layout.key t)))).attempt
              (.onOk ((daprPayment rnd).afterGet invoice decision)))
          (Resumed t p b b' s₀.published i) (afterGuard rnd t i c v w₁) := by
    simp only [StateClient.afterRead, hfound hq, Prog.ofExcept_ok, Prog.attempt_ret, Prog.onOk_ok]
    exact hresume
  rcases hI with ⟨hnone, hstate⟩ | ⟨k, hk, hstage⟩
  · exact hguard (hstate ▸ h.record) (safe_first ht h hreleased hnone hstate v)
  · have hki : k ≠ i := by
      intro heq
      subst heq
      exact hidle (hR.fresh hk)
    have hclosed {u : Budget} {pub : List PaymentCompletedEvent}
        (hshows : Shows t p.department p u pub w₁.state) : False := by
      have hnil := hcond p rfl hshows.record h.reserved
      rw [hk] at hnil
      cases hnil
    cases hstage with
    | charging hshows => exact (hclosed hshows).elim
    | credited hshows => exact (hclosed hshows).elim
    | saved hs hshows =>
      exact hguard hshows.record
        (safe_late (.inr ⟨k, hk, .saved hs hshows⟩) hshows.record hs.terminal hk hki v)
    | announced hs hshows =>
      exact hguard hshows.record
        (safe_late (.inr ⟨k, hk, .announced hs hshows⟩) hshows.record hs.terminal hk hki v)

end Deliveries

/-- The proof outline of the deliveries. -/
def resumption {rnd : Rounding} {t : String} {s₀ : PaymentDapr} {p : PaymentRecord}
    {b b' : Budget} (ht : t ≠ "index") (h : Resumable rnd t s₀ p b)
    (hreleased : InMemoryBudgetRepository.released rnd p.department p.reservedAmount b = .ok b') :
    Outline (paymentClients rnd t) (OneReader t) where
  I := Resuming t p b b' s₀
  R := Yields t
  Post i _ := Resumed t p b b' s₀.published i
  refl := Yields.refl
  trans _ _ _ _ h h' := h.trans h'
  post_stable hR _ hpost := hpost.stable hR
  invoke := by
    intro w n c s hI hfresh hs
    simp only [paymentClients, Option.ite_none_right_eq_some] at hs
    obtain ⟨htrigger, hs⟩ := hs
    cases hs
    refine ⟨hI.idle rfl, fun j _ => Yields.idle j rfl, safe_handle ht h hreleased htrigger fun hn => ?_⟩
    rw [readers_cons_false rfl] at hn
    have hmem : n ∈ readers t w.log := hn ▸ List.mem_singleton_self n
    obtain ⟨e, he, htid⟩ := List.mem_map.mp hmem
    exact absurd htid (Nat.ne_of_lt (hfresh e (List.mem_filter.mp he).1))
  respond := by
    intro w i c r hI _
    exact ⟨hI.idle rfl, fun j => Yields.idle j rfl⟩

/-- There were deliveries, and all of them returned or raised. -/
def Finished (cfg : PaymentConfig) : Prop := cfg.threads ≠ [] ∧ ∀ th ∈ cfg.threads, ∃ r, th.status = .done r

section Runs
variable {rnd : Rounding} {t : String} {s₀ : PaymentDapr} {p : PaymentRecord}
    {b b' : Budget} {ht : t ≠ "index"}
  {h : Resumable rnd t s₀ p b}
    {hreleased : InMemoryBudgetRepository.released rnd p.department p.reservedAmount b = .ok b'}
  {cfg : PaymentConfig}

theorem resumed_of_done (hholds : (resumption ht h hreleased).Holds cfg) {i : Nat}
    {th : Thread paymentDaprSig Exn Unit PaymentDelivery} (hi : cfg.threads[i]? = some th)
    {result : Except Exn Unit}
    (hth : th.status = .done result) : Resumed t p b b' s₀.published i result cfg.world := by
  have hok := hholds.threads i th hi
  unfold Outline.ThreadOk at hok
  rw [hth] at hok
  exact hok

/-- When all deliveries have finished, so has the one that resumed the reservation. -/
theorem resolved_of_finished (hholds : (resumption ht h hreleased).Holds cfg) (hfinished : Finished cfg) :
    ∃ q u, Resolved t p b b' cfg.world.state q u ∧
      Shows t p.department q u (s₀.published ++ [q.event]) cfg.world.state := by
  obtain ⟨hne, hall⟩ := hfinished
  obtain ⟨th₀, hth₀⟩ := List.exists_mem_of_ne_nil _ hne
  obtain ⟨i₀, hi₀⟩ := List.mem_iff_getElem?.mp hth₀
  obtain ⟨r₀, hr₀⟩ := hall th₀ hth₀
  obtain ⟨-, j, hj, -⟩ := resumed_of_done hholds hi₀ hr₀
  have hmem : j ∈ readers t cfg.world.log := hj ▸ List.mem_singleton_self j
  obtain ⟨e, he, rfl⟩ := List.mem_map.mp hmem
  have hlt : e.tid < cfg.threads.length := hholds.fresh e (List.mem_filter.mp he).1
  obtain ⟨r₁, hr₁⟩ := hall _ (List.getElem_mem hlt)
  obtain ⟨-, k, hk, hsettled⟩ := resumed_of_done hholds (List.getElem?_eq_getElem hlt) hr₁
  refine hsettled ?_
  rw [hj, List.singleton_inj] at hk
  exact hk.symm

end Runs

/-- **Compensated once**: in every interleaving in which the reservation is read once, no delivery
raises, the budget is credited at most once and at most one event is published; when all deliveries have
finished, the record is settled by the gateway's reply, the budget is credited if and only if that reply
is a decline, and one event is published; a terminal record stays. -/
theorem compensated_once (rnd : Rounding) (t : String) (ht : t ≠ "index") (s : PaymentDapr)
    (p : PaymentRecord) (b : Budget) (h : Resumable rnd t s p b) (cfg : PaymentConfig)
    (hreach : (paymentClients rnd t).Reach (meets (OneReader t)) (System.start s) cfg) :
    (∀ th ∈ cfg.threads, ∀ result, th.status = .done result → result = .ok ()) ∧
      (∃ r, r.toRat = b.remaining.toRat + p.reservedAmount.toRat ∧
        (budgetOf p.department cfg.world.state = some b ∨
          budgetOf p.department cfg.world.state = some { b with remaining := r }) ∧
        (Finished cfg → ∃ q u, Resolved t p b { b with remaining := r } cfg.world.state q u ∧
          Shows t p.department q u (s.published ++ [q.event]) cfg.world.state)) ∧
      (cfg.world.state.published = s.published ∨ ∃ e, cfg.world.state.published = s.published ++ [e]) ∧
      ∀ cfg', (paymentClients rnd t).Reach (meets (OneReader t)) cfg cfg' →
        ∀ q, recordOf t cfg.world.state = some q →
        q.status.terminal = true → recordOf t cfg'.world.state = some q := by
  obtain ⟨r, hreleased, hr⟩ := InMemoryBudgetRepository.released_of_fits p.department h.fits h.room
  have hholds := (resumption ht h hreleased).sound (.inl ⟨rfl, rfl⟩) hreach
  have hstage : cfg.world.state = s ∨
      Stage t p b { b with remaining := r } s.published cfg.world.state := hholds.inv.stage
  refine ⟨fun th hmem result hth => ?_, ⟨r, hr, ?_, resolved_of_finished hholds⟩, ?_,
    fun cfg' hreach' => ?_⟩
  · obtain ⟨i, hi⟩ := List.mem_iff_getElem?.mp hmem
    exact (resumed_of_done hholds hi hth).1
  · rcases hstage with hs | hs
    · exact .inl (hs ▸ h.budget)
    · exact hs.budget
  · rcases hstage with hs | hs
    · exact .inl (hs ▸ rfl)
    · exact hs.published
  · have hsees : Yields t cfg'.threads.length cfg.world cfg'.world :=
      (hholds.observe hreach').2 _ (Nat.le_refl _)
    exact hsees.final

/-! ## Two runs -/

/-- The action reads the record. -/
def readsGuard (t : String) (cfg : PaymentConfig) : Action (Option String) PaymentDelivery → Bool
  | .step i _ =>
    match cfg.threads[i]? with
    | some ⟨_, .running (.await (.state (.get k)) _)⟩ => k == layout.key t
    | _ => false
  | _ => false

/-- Nobody has read the reservation, it is settled, or the action does not read it. -/
def firstOrSettled (t : String) (cfg : PaymentConfig) (a : Action (Option String) PaymentDelivery) : Bool :=
  (readers t cfg.world.log).isEmpty || (recordOf t cfg.world.state).all (·.status != .reserved) ||
    !readsGuard t cfg a

theorem meets_of_firstOrSettled (t : String) (cfg : PaymentConfig)
    (a : Action (Option String) PaymentDelivery)
    (h : firstOrSettled t cfg a = true) : meets (OneReader t) cfg a := by
  cases a with
  | invoke c => trivial
  | respond i => trivial
  | step i v =>
    intro call o k hi q ho hq hstatus
    subst ho
    have hreads : readsGuard t cfg (.step i v) = true := by
      simp only [readsGuard, hi, beq_self_eq_true]
    rw [firstOrSettled, hreads, hq, Option.all_some, hstatus] at h
    simpa using h

/-- The laptop's 100 dollars are reserved, and `spent` dollars of 1000 in all. -/
def laptopReserved (spent : Int) : PaymentDapr where
  store :=
    ((Store.empty.put (layout.key "t-1")
      (.record (.ofReservation laptop ⟨.autoApprove, "", [], "t-1"⟩))).put
    layout.indexKey (.index ["t-1"])).put (DaprStateBudgetRepository.key "engineering")
      (.budget ⟨"engineering", .ofInt 1000, .ofInt (1000 - spent)⟩)
  gateway := .empty
  published := []

theorem laptop_resumable :
    Resumable .exact "t-1" (laptopReserved 100) (.ofReservation laptop ⟨.autoApprove, "", [], "t-1"⟩)
    ⟨"engineering", .ofInt 1000, .ofInt 900⟩ where
  id := rfl
  reserved := rfl
  record := by decide
  budget := by decide
  room := by
    show (Decimal.ofInt 900).toRat + (Decimal.ofInt 100).toRat ≤ (Decimal.ofInt 1000).toRat
    norm_num
  fits := rfl

/-- A decline, and a delivery that comes after it. -/
def declinedOnce : List (Action (Option String) PaymentDelivery) :=
  [.invoke laptopApproved, .step 0 none, .step 0 (some "card expired"), .step 0 none,
    .step 0 none, .step 0 none,
    .step 0 none, .step 0 none, .respond 0, .invoke laptopApproved, .step 1 none, .respond 1]

def laptopDeclined : PaymentConfig :=
  ((paymentClients .exact "t-1").runActions (firstOrSettled "t-1") declinedOnce
    (System.start (laptopReserved 100))).get (by decide +kernel)

theorem compensated_once_laptop :
    (∀ th ∈ laptopDeclined.threads, ∀ result, th.status = .done result → result = .ok ()) ∧
      (∃ r : Decimal, r.toRat = (Decimal.ofInt 900).toRat + (Decimal.ofInt 100).toRat ∧
        (budgetOf "engineering" laptopDeclined.world.state = some ⟨"engineering", .ofInt 1000, .ofInt 900⟩ ∨
          budgetOf "engineering" laptopDeclined.world.state = some ⟨"engineering", .ofInt 1000, r⟩) ∧
        (Finished laptopDeclined →
          ∃ q u, Resolved "t-1" (.ofReservation laptop ⟨.autoApprove, "", [], "t-1"⟩)
            ⟨"engineering", .ofInt 1000, .ofInt 900⟩ ⟨"engineering", .ofInt 1000, r⟩
              laptopDeclined.world.state q u ∧
          Shows "t-1" "engineering" q u [q.event] laptopDeclined.world.state)) ∧
      (laptopDeclined.world.state.published = [] ∨ ∃ e, laptopDeclined.world.state.published = [e]) ∧
      ∀ cfg', (paymentClients .exact "t-1").Reach (meets (OneReader "t-1")) laptopDeclined cfg' → ∀ q,
        recordOf "t-1" laptopDeclined.world.state = some q → q.status.terminal = true →
          recordOf "t-1" cfg'.world.state = some q :=
  compensated_once .exact "t-1" (by decide) (laptopReserved 100) _ _ laptop_resumable laptopDeclined
    (System.reach_of_runActions (meets_of_firstOrSettled "t-1") declinedOnce (Option.some_get _).symm)

/-- Two deliveries of the approved laptop that both read the reservation, and whose charge is declined. -/
def doubleResume : List (Action (Option String) PaymentDelivery) :=
  [.invoke laptopApproved, .invoke laptopApproved, .step 0 none, .step 1 none,
    .step 0 (some "card expired"),
    .step 1 none, .step 0 none, .step 0 none, .step 1 none, .step 1 none, .step 0 none,
      .step 0 none, .step 0 none,
    .respond 0, .step 1 none, .step 1 none, .step 1 none, .respond 1]

def doublyResumed : PaymentConfig :=
  ((paymentClients defaultContext.rounding "t-1").runActions (fun _ _ => true) doubleResume
    (System.start (laptopReserved 200))).get (by decide +kernel)

/-- **Compensated twice**: with 200 of 1000 dollars spent, 100 of them on the laptop, the decline of the
laptop gives all 200 back, and is announced twice. -/
theorem compensated_twice :
    (paymentClients defaultContext.rounding "t-1").Reach
      (fun _ _ => True) (System.start (laptopReserved 200)) doublyResumed ∧
      (recordOf "t-1" (laptopReserved 200)).map (·.status) = some .reserved ∧
      budgetOf "engineering" (laptopReserved 200) = some ⟨"engineering", .ofInt 1000, .ofInt 800⟩ ∧
      budgetOf "engineering" doublyResumed.world.state = some ⟨"engineering", .ofInt 1000, .ofInt 1000⟩ ∧
      (doublyResumed.world.state.published.map (·.resolution)) = [.failed, .failed] :=
  ⟨System.reach_of_runActions (fun _ _ _ => trivial) doubleResume (Option.some_get _).symm, by decide,
    by decide, by decide +kernel, by decide +kernel⟩

end ApprovalFlow.Payment
