import ApprovalFlow.Workflow.System

/-!
# Where everything in a run comes from

Every document and every message of a run goes back to a submission, an answer of the model or an
approver's call. The facts are about the log and the published messages, which only grow.

* `Justified`: what a published message goes back to; `Filed`, `Backed`: an approval, a payment.
* `Sound`: every message is justified, every document goes back to messages, every charge above the
  ceiling to an approval.
* `Allowed`: the operations that keep a run sound; `Allowed.sound`, `Allowed.sees`.
-/

namespace ApprovalFlow.Workflow
open Numeric Async Versioned

abbrev WorkflowEvent := Event workflowSig Exn Unit WorkflowCall

abbrev WorkflowWorld := World workflowSig Exn Unit WorkflowState WorkflowCall

abbrev WorkflowRun := Config workflowSig Exn Unit WorkflowState WorkflowCall

abbrev approvalKey (t : String) : String := DaprStateApprovalRepository.layout.key t

abbrev paymentKey (t : String) : String := DaprStatePaymentRepository.layout.key t

/-! ## The facts -/

/-- The submissions that an event tries to write. -/
def submissionsOf : WorkflowEvent → List Submission
  | .perform _ _ (.state .intake (.transact ws)) _ => ws.filterMap fun u =>
    match u.data with
    | .submission s => some s
    | .pointer _ => none
  | _ => []

def submissions (log : List WorkflowEvent) : List Submission := log.flatMap submissionsOf

def Invoked (call : WorkflowCall) (log : List WorkflowEvent) : Prop := ∃ i, .invoke i call ∈ log

/-- The approver's call that resolves an item. -/
def resolving (t : String) : ApprovalResolution → ApprovalCall
  | .approved => .approve t
  | .rejected => .reject t

/-- A resolution of the item was saved. -/
def Saved (t : String) (r : ApprovalResolution) (log : List WorkflowEvent) : Prop :=
  ∃ i c a ids etag, .perform i c (.state .approval
      (.transact (IndexedState.writes DaprStateApprovalRepository.layout a ids etag))) (.ok ()) ∈ log ∧
    a.trackingId = t ∧ a.status.resolution = some r

/-- The decision was published, for a human to review. -/
def Escalated (published : List Message) (invoice : Invoice) (decision : Decision) : Prop :=
  decision.route = .humanReview ∧ ∃ r, .decisionCompleted ⟨invoice, decision, r⟩ ∈ published

/-- A message that triggers the payment was published. -/
def Triggered (published : List Message) (invoice : Invoice) (decision : Decision) : Prop :=
  ∃ delivery : PaymentDelivery, delivery.message ∈ published ∧ delivery.trigger = some (invoice, decision)

structure Filed (published : List Message) (a : PendingApproval) : Prop where
  keyed : a.decision.correlationId = a.trackingId
  escalated : Escalated published a.invoice a.decision

structure Backed (published : List Message) (p : PaymentRecord) : Prop where
  keyed : p.decision.correlationId = p.trackingId
  triggered : Triggered published p.invoice p.decision

section
variable {ν : Type} (env : Deployment ν)

/-- What a message goes back to. -/
inductive Justified (w : WorkflowWorld) : Message → Prop
  | submitted {e : InvoiceSubmittedEvent} {s : Submission} (hs : s ∈ submissions w.log)
    (hid : s.trackingId = e.correlationId)
      (hnew : s.isDuplicate = false) : Justified w (.invoiceSubmitted e)
  | decided {i : Nat} {e : InvoiceSubmittedEvent} {systemPrompt userPrompt : String}
    {reply : Except Exn String}
      {outcome : DecisionOutcome}
      (hreply : .perform i (.decide e) (.complete systemPrompt userPrompt) reply ∈ w.log)
      (he : .invoiceSubmitted e ∈ w.state.published)
      (houtcome : env.decider.conclude e.invoice e.correlationId false reply = .ok outcome) :
      Justified w (.decisionCompleted ⟨e.invoice, outcome.decision, outcome.recommendation⟩)
  | duplicate {s : Submission} (invoice : Invoice) (hs : s ∈ submissions w.log)
    (hdup : s.isDuplicate = true) :
      Justified w (.decisionCompleted ⟨invoice, buildDuplicateDecision s.trackingId, none⟩)
  | resolved {e : ApprovalCompletedEvent} (hindex : e.decision.correlationId ≠ "index")
      (hescalated : Escalated w.state.published e.invoice e.decision)
      (hcall : Invoked (.approval (resolving e.decision.correlationId e.resolution)) w.log)
      (hsaved : Saved e.decision.correlationId e.resolution w.log) : Justified w (.approvalCompleted e)
  | paid (e : PaymentCompletedEvent) : Justified w (.paymentCompleted e)

/-- Drawn ids are fresh, and all versions of a submission agree on whether it is a duplicate. -/
structure Drawn (w : WorkflowWorld) : Prop where
  issued : ∀ i t invoice, .invoke i (.submit t invoice) ∈ w.log → t ∈ w.state.issued
  unique : ∀ i j t invoice invoice', .invoke i (.submit t invoice) ∈ w.log →
    .invoke j (.submit t invoice') ∈ w.log → i = j
  known : ∀ s ∈ submissions w.log, s.trackingId ∈ w.state.issued
  unanimous : ∀ s ∈ submissions w.log, ∀ s' ∈ submissions w.log, s.trackingId = s'.trackingId →
    s.isDuplicate = s'.isDuplicate

/-- What the documents of a store go back to. -/
def Documented (w : WorkflowWorld) : (service : Service) → Store service.Document → Prop
  | .intake, store =>
    ∀ t s, store.value (DaprStateInvoiceRepository.submissionKey t) = some (.submission s) →
    s.trackingId = t ∧ s ∈ submissions w.log
  | .approval, store => ∀ t a, store.value (approvalKey t) = some (.record a) →
    a.trackingId = t ∧ t ≠ "index" ∧ Filed w.state.published a
  | .payment, store =>
    ∀ t p, store.value (paymentKey t) = some (.record p) → p.trackingId = t ∧ Backed w.state.published p
  | .notification, _ => True

/-- A charge above the ceiling comes after an approval. -/
def WithinCeiling (log : List WorkflowEvent) : Prop :=
  ∀ i call invoice t reply older, .perform i call (.charge invoice t) reply :: older <:+ log →
    env.thresholds.ceiling < invoice.total → Invoked (.approval (.approve t)) older

/-- The resolution that a document records. -/
def recorded : ApprovalValue → Option ApprovalResolution
  | .record a => a.status.resolution
  | .index _ => none

/-- Thread `i` read the item, and found no resolution. -/
def Reviewed (i : Nat) (t : String) (log : List WorkflowEvent) : Prop :=
  ∃ call found etag, .perform i call (.state .approval (.get (approvalKey t))) (.ok (found, etag)) ∈ log ∧
    found.bind recorded = none

/-- What is written to Approval's store is a save, with the resolution that its call brings, of an item
that was read without one. -/
def Saves (log : List WorkflowEvent) : Prop :=
  ∀ i call ws reply, .perform i call (.state .approval (.transact ws)) reply ∈ log →
    ∃ c a ids etag, call = .approval c ∧
      ws = IndexedState.writes DaprStateApprovalRepository.layout a ids etag ∧
      a.status.resolution = c.resolution ∧ Reviewed i a.trackingId log

structure Sound (w : WorkflowWorld) : Prop where
  drawn : Drawn w
  documented : ∀ service, Documented w service (w.state.stores service)
  messages : ∀ m ∈ w.state.published, Justified env w m
  charges : WithinCeiling env w.log
  saves : Saves w.log

/-- The submission is a version of one that was written, or thread `i` drew its id and writes it first. -/
def Recorded (w : WorkflowWorld) (i : Nat) (s : Submission) : Prop :=
  (∃ s' ∈ submissions w.log, s'.trackingId = s.trackingId ∧ s'.isDuplicate = s.isDuplicate) ∨
    ((∃ invoice, .invoke i (.submit s.trackingId invoice) ∈ w.log) ∧
      ∀ s' ∈ submissions w.log, s'.trackingId ≠ s.trackingId)

/-- The transactions that keep a run sound. -/
def AllowedWrites (w : WorkflowWorld) (i : Nat) (call : WorkflowCall) :
    (service : Service) → List (Write service.Document) → Prop
  | .intake, ws => ∃ s, ws = DaprStateInvoiceRepository.writes s ∧ Recorded w i s
  | .approval, ws => ∃ c a ids etag, call = .approval c ∧
    ws = IndexedState.writes DaprStateApprovalRepository.layout a ids etag ∧
      a.status.resolution = c.resolution ∧
    Reviewed i a.trackingId w.log ∧ Filed w.state.published a
  | .payment, ws => (∃ p ids etag, ws = IndexedState.writes DaprStatePaymentRepository.layout p ids etag ∧
      Backed w.state.published p) ∨ ∃ d b etag, ws = [⟨DaprStateBudgetRepository.key d, .budget b, etag⟩]
  | .notification, _ => True

/-- The operations that keep a run sound. -/
def Allowed (w : WorkflowWorld) (i : Nat) (call : WorkflowCall) : WorkflowOp → Prop
  | .state service (.transact ws) => AllowedWrites w i call service ws
  | .charge invoice t =>
    ∃ decision, decision.correlationId = t ∧ Triggered w.state.published invoice decision
  | .publishEvent m => Justified env w m
  | _ => True

/-! ## What only grows -/

structure Grows (w w₁ : WorkflowWorld) : Prop where
  log : w.log <:+ w₁.log
  published : w.state.published ⊆ w₁.state.published

/-- What thread `i` sees of the others: the run grows, and nobody writes a submission whose id it drew
before it does. -/
structure Sees (i : Nat) (w w₁ : WorkflowWorld) : Prop extends Grows w w₁ where
  own : ∀ t invoice, .invoke i (.submit t invoice) ∈ w.log → (∀ s ∈ submissions w.log, s.trackingId ≠ t) →
    ∀ s ∈ submissions w₁.log, s.trackingId ≠ t

variable {env} {w w₁ w₂ : WorkflowWorld} {i : Nat}

theorem Grows.refl (w : WorkflowWorld) : Grows w w := ⟨List.suffix_refl _, List.Subset.refl _⟩

theorem Grows.trans (h : Grows w w₁) (h' : Grows w₁ w₂) : Grows w w₂ :=
  ⟨h.log.trans h'.log, List.Subset.trans h.published h'.published⟩

theorem Grows.mem_log (h : Grows w w₁) {e : WorkflowEvent} (he : e ∈ w.log) : e ∈ w₁.log := h.log.subset he

theorem Sees.refl (i : Nat) (w : WorkflowWorld) : Sees i w w := ⟨.refl w, fun _ _ _ h => h⟩

theorem Sees.trans (h : Sees i w w₁) (h' : Sees i w₁ w₂) : Sees i w w₂ :=
  ⟨h.toGrows.trans h'.toGrows, fun t invoice ht hnone =>
    h'.own t invoice (h.mem_log ht) (h.own t invoice ht hnone)⟩

theorem mem_submissions {log : List WorkflowEvent} {s : Submission} :
    s ∈ submissions log ↔ ∃ e ∈ log, s ∈ submissionsOf e := List.mem_flatMap

theorem Grows.mem_submissions (h : Grows w w₁) {s : Submission} (hs : s ∈ submissions w.log) :
    s ∈ submissions w₁.log := by
  obtain ⟨e, he, hse⟩ := Workflow.mem_submissions.mp hs
  exact Workflow.mem_submissions.mpr ⟨e, h.mem_log he, hse⟩

theorem Invoked.mono (h : Grows w w₁) {call : WorkflowCall} (hc : Invoked call w.log) :
    Invoked call w₁.log := by
  obtain ⟨i, hi⟩ := hc
  exact ⟨i, h.mem_log hi⟩

theorem Saved.mono (h : Grows w w₁) {t : String} {r : ApprovalResolution} (hs : Saved t r w.log) :
    Saved t r w₁.log := by
  obtain ⟨i, c, a, ids, etag, he, ha⟩ := hs
  exact ⟨i, c, a, ids, etag, h.mem_log he, ha⟩

theorem Reviewed.mono (h : Grows w w₁) {t : String} (hr : Reviewed i t w.log) : Reviewed i t w₁.log := by
  obtain ⟨call, found, etag, hmem, hopen⟩ := hr
  exact ⟨call, found, etag, h.mem_log hmem, hopen⟩

theorem Escalated.mono (h : Grows w w₁) {invoice : Invoice} {d : Decision}
    (he : Escalated w.state.published invoice d) : Escalated w₁.state.published invoice d := by
  obtain ⟨hroute, r, hr⟩ := he
  exact ⟨hroute, r, h.published hr⟩

theorem Triggered.mono (h : Grows w w₁) {invoice : Invoice} {d : Decision}
    (ht : Triggered w.state.published invoice d) : Triggered w₁.state.published invoice d := by
  obtain ⟨delivery, hd, htrigger⟩ := ht
  exact ⟨delivery, h.published hd, htrigger⟩

theorem Filed.mono (h : Grows w w₁) {a : PendingApproval} (ha : Filed w.state.published a) :
    Filed w₁.state.published a :=
  ⟨ha.keyed, ha.escalated.mono h⟩

theorem Backed.mono (h : Grows w w₁) {p : PaymentRecord} (hp : Backed w.state.published p) :
    Backed w₁.state.published p :=
  ⟨hp.keyed, hp.triggered.mono h⟩

theorem Justified.mono (h : Grows w w₁) {m : Message} (hm : Justified env w m) : Justified env w₁ m := by
  cases hm with
  | submitted hs hid hnew => exact .submitted (h.mem_submissions hs) hid hnew
  | decided hreply he houtcome => exact .decided (h.mem_log hreply) (h.published he) houtcome
  | duplicate invoice hs hdup => exact .duplicate invoice (h.mem_submissions hs) hdup
  | resolved hindex hescalated hcall hsaved =>
    exact .resolved hindex (hescalated.mono h) (hcall.mono h) (hsaved.mono h)
  | paid e => exact .paid e

theorem Documented.mono (h : Grows w w₁) {service : Service} {store : Store service.Document}
    (hs : Documented w service store) : Documented w₁ service store := by
  cases service with
  | intake => exact fun t s hv => ⟨(hs t s hv).1, h.mem_submissions (hs t s hv).2⟩
  | approval => exact fun t a hv => ⟨(hs t a hv).1, (hs t a hv).2.1, (hs t a hv).2.2.mono h⟩
  | payment => exact fun t p hv => ⟨(hs t p hv).1, (hs t p hv).2.mono h⟩
  | notification => trivial

/-! ## What is allowed keeps a run sound -/

section Steps
variable {c : WorkflowChoice} {call : WorkflowCall} {o : WorkflowOp}

/-- The world after thread `i` performed `o`. -/
abbrev after (env : Deployment ν) (w : WorkflowWorld) (i : Nat) (call : WorkflowCall)
    (o : WorkflowOp) (c : WorkflowChoice) : WorkflowWorld :=
  w.performed (workflow env).exec i call o c

theorem grows_after (env : Deployment ν) (w : WorkflowWorld) (i : Nat)
    (call : WorkflowCall) (o : WorkflowOp)
    (c : WorkflowChoice) : Grows w (after env w i call o c) := by
  refine ⟨List.suffix_cons _ _, ?_⟩
  show w.state.published ⊆ (w.state.perform c o).2.published
  rcases WorkflowState.published_perform (c := c) (s := w.state) o with h | ⟨m, -, h⟩
  · rw [h]
    exact List.Subset.refl _
  · rw [h]
    exact List.subset_append_left _ _

theorem submissions_performed (w : WorkflowWorld) (i : Nat) (call : WorkflowCall) (o : WorkflowOp)
    (c : WorkflowChoice) : submissions (after env w i call o c).log =
      submissionsOf (.perform i call o (w.state.perform c o).1) ++ submissions w.log := rfl

/-- Only a transaction on Intake's store writes a submission. -/
theorem submissions_after (ho : Allowed env w i call o) (c : WorkflowChoice) :
    submissions (after env w i call o c).log = submissions w.log ∨
      ∃ s, submissions (after env w i call o c).log = s :: submissions w.log ∧ Recorded w i s := by
  rw [submissions_performed]
  cases o with
  | state service o =>
    cases service with
    | intake =>
      cases o with
      | get k => exact .inl rfl
      | transact ws =>
        obtain ⟨s, rfl, hs⟩ := ho
        exact .inr ⟨s, rfl, hs⟩
    | approval => exact .inl rfl
    | payment => exact .inl rfl
    | notification => exact .inl rfl
  | complete _ _ => exact .inl rfl
  | charge _ _ => exact .inl rfl
  | send _ _ _ _ => exact .inl rfl
  | publishEvent _ => exact .inl rfl

theorem mem_log_after {e : WorkflowEvent} (h : e ∈ (after env w i call o c).log) :
    e = .perform i call o (w.state.perform c o).1 ∨ e ∈ w.log := List.mem_cons.mp h

theorem Drawn.after (h : Drawn w) (ho : Allowed env w i call o) : Drawn (after env w i call o c) := by
  have hinvoke {j : Nat} {t : String} {invoice : Invoice}
      (hj : .invoke j (.submit t invoice) ∈ (Workflow.after env w i call o c).log) :
      .invoke j (.submit t invoice) ∈ w.log := by
    rcases mem_log_after hj with he | he
    · cases he
    · exact he
  have hissued : (Workflow.after env w i call o c).state.issued = w.state.issued :=
    WorkflowState.issued_perform o
  have hissue : ∀ j t invoice, .invoke j (.submit t invoice) ∈ (Workflow.after env w i call o c).log →
      t ∈ (Workflow.after env w i call o c).state.issued := fun j t invoice hj => by
    rw [hissued]
    exact h.issued j t invoice (hinvoke hj)
  have hunique : ∀ j k t invoice invoice', .invoke j (.submit t invoice) ∈
      (Workflow.after env w i call o c).log →
      .invoke k (.submit t invoice') ∈ (Workflow.after env w i call o c).log → j = k :=
    fun j k t invoice invoice' hj hk => h.unique j k t invoice invoice' (hinvoke hj) (hinvoke hk)
  rcases submissions_after ho c with hsame | ⟨u, hnew, hu⟩
  · refine ⟨hissue, hunique, ?_, ?_⟩
    · rw [hsame, hissued]
      exact h.known
    · rw [hsame]
      exact h.unanimous
  · have hold {v : Submission} (hv : v ∈ submissions w.log) (hid : v.trackingId = u.trackingId) :
        v.isDuplicate = u.isDuplicate := by
      rcases hu with ⟨u', hu', huid, hdup⟩ | ⟨-, hnone⟩
      · exact (h.unanimous v hv u' hu' (hid.trans huid.symm)).trans hdup
      · exact absurd hid (hnone v hv)
    refine ⟨hissue, hunique, fun s hs => ?_, fun s hs s' hs' hid => ?_⟩
    · rw [hissued]
      rw [hnew] at hs
      rcases List.mem_cons.mp hs with rfl | hs
      · rcases hu with ⟨s', hs', hid, -⟩ | ⟨⟨invoice, hinvoke⟩, -⟩
        · exact hid ▸ h.known s' hs'
        · exact h.issued i _ invoice hinvoke
      · exact h.known s hs
    · rw [hnew] at hs hs'
      rcases List.mem_cons.mp hs with heq | hmem <;> rcases List.mem_cons.mp hs' with heq' | hmem'
      · rw [heq, heq']
      · subst heq
        exact (hold hmem' hid.symm).symm
      · subst heq'
        exact hold hmem hid
      · exact h.unanimous s hmem s' hmem' hid

theorem Documented.puts {service : Service} {store : Store service.Document}
    {ws : List (Write service.Document)}
    (h : Documented w service store) (hg : Grows w w₁) (hws : AllowedWrites w i call service ws)
    {r : Except Exn Unit}
    (hlogged : .perform i call (.state service (.transact ws)) r ∈ w₁.log) :
    Documented w₁ service (store.puts ws) := by
  cases service with
  | intake =>
    obtain ⟨s, rfl, -⟩ := hws
    intro t s' hv
    rw [DaprStateInvoiceRepository.value_writes] at hv
    split_ifs at hv with ht
    · cases hv
      exact ⟨ht.symm, mem_submissions.mpr ⟨_, hlogged, List.mem_singleton_self s⟩⟩
    · exact h.mono hg t s' hv
  | approval =>
    obtain ⟨c, a, ids, etag, -, rfl, -, -, ha⟩ := hws
    intro t a' hv
    rw [IndexedState.value_writes] at hv
    split_ifs at hv with hindex ht
    · cases hv
    · cases hv
      exact ⟨ht.symm, hindex, ha.mono hg⟩
    · exact h.mono hg t a' hv
  | payment =>
    rcases hws with ⟨p, ids, etag, rfl, hp⟩ | ⟨d, b, etag, rfl⟩
    · intro t p' hv
      rw [IndexedState.value_writes] at hv
      split_ifs at hv with hindex ht
      · cases hv
      · cases hv
        exact ⟨ht.symm, hp.mono hg⟩
      · exact h.mono hg t p' hv
    · intro t p' hv
      rw [Store.puts_cons, Store.puts_nil,
        Store.value_put_ne _ _ (DaprStateBudgetRepository.key_ne d t).symm] at hv
      exact h.mono hg t p' hv
  | notification => trivial

theorem documented_after (h : ∀ service, Documented w service (w.state.stores service))
    (ho : Allowed env w i call o)
    (service : Service) :
    Documented (after env w i call o c) service ((after env w i call o c).state.stores service) := by
  have hg := grows_after env w i call o c
  show Documented _ service ((w.state.perform c o).2.stores service)
  rcases WorkflowState.stores_perform (c := c) (s := w.state) o service with
      hstore | ⟨ws, rfl, -, -, hstore⟩
  · rw [hstore]
    exact (h service).mono hg
  · rw [hstore]
    exact (h service).puts hg ho List.mem_cons_self

theorem messages_after (h : ∀ m ∈ w.state.published, Justified env w m) (ho : Allowed env w i call o) :
    ∀ m ∈ (after env w i call o c).state.published, Justified env (after env w i call o c) m := by
  have hg := grows_after env w i call o c
  intro m hm
  change m ∈ (w.state.perform c o).2.published at hm
  rcases WorkflowState.published_perform (c := c) (s := w.state) o with hpub | ⟨m', rfl, hpub⟩
  · rw [hpub] at hm
    exact (h m hm).mono hg
  · rw [hpub, List.mem_append, List.mem_singleton] at hm
    rcases hm with hm | rfl
    · exact (h m hm).mono hg
    · exact ho.mono hg

/-- **Above the ceiling**, what triggers a payment is an approver's call. -/
theorem Sound.approved (h : Sound env w) {invoice : Invoice} {d : Decision}
    (ht : Triggered w.state.published invoice d)
    (hgt : env.thresholds.ceiling < invoice.total) :
    Invoked (.approval (.approve d.correlationId)) w.log := by
  obtain ⟨delivery, hmem, htrigger⟩ := ht
  have hjustified := h.messages _ hmem
  cases delivery with
  | decisionCompleted e =>
    simp only [PaymentDelivery.trigger] at htrigger
    split_ifs at htrigger with hroute
    cases htrigger
    rw [ne_eq, not_not] at hroute
    cases hjustified with
    | decided hreply he houtcome =>
      have hle := Router.autoApprove_le_ceiling (Decider.conclude_routed houtcome) hroute
      exact absurd (Decimal.lt_iff.mp hgt) (not_lt.mpr hle)
    | duplicate invoice hs hdup => cases hroute
  | approvalCompleted e =>
    simp only [PaymentDelivery.trigger] at htrigger
    split_ifs at htrigger with hresolution
    cases htrigger
    rw [ne_eq, not_not] at hresolution
    cases hjustified with
    | resolved hindex hescalated hcall hsaved =>
      rw [hresolution] at hcall
      exact hcall

theorem WithinCeiling.cons (h : WithinCeiling env w.log) {e : WorkflowEvent}
    (he : ∀ i call invoice t reply, e = .perform i call (.charge invoice t) reply →
      env.thresholds.ceiling < invoice.total → Invoked (.approval (.approve t)) w.log) : WithinCeiling
        env (e :: w.log) := by
  intro i call invoice t reply older hsuffix hgt
  rcases List.suffix_cons_iff.mp hsuffix with heq | hsuffix
  · cases heq
    exact he i call invoice t reply rfl hgt
  · exact h i call invoice t reply older hsuffix hgt

theorem Saves.cons (h : Saves w.log) {e : WorkflowEvent}
    (he : ∀ i call ws reply, e = .perform i call (.state .approval (.transact ws)) reply →
      AllowedWrites w i call .approval ws) : Saves (e :: w.log) := by
  have hreviewed {i : Nat} {t : String} : Reviewed i t w.log → Reviewed i t (e :: w.log) := fun hr =>
    hr.imp fun _ hr => hr.imp fun _ hr => hr.imp fun _ hr => ⟨List.mem_cons_of_mem _ hr.1, hr.2⟩
  intro i call ws reply hmem
  rcases List.mem_cons.mp hmem with rfl | hmem
  · obtain ⟨c, a, ids, etag, hcall, hws, ha, hr, -⟩ := he i call ws reply rfl
    exact ⟨c, a, ids, etag, hcall, hws, ha, hreviewed hr⟩
  · obtain ⟨c, a, ids, etag, hcall, hws, ha, hr⟩ := h i call ws reply hmem
    exact ⟨c, a, ids, etag, hcall, hws, ha, hreviewed hr⟩

/-- **What is allowed keeps a run sound.** -/
theorem Allowed.sound (ho : Allowed env w i call o) (h : Sound env w) :
    Sound env (after env w i call o c) := by
  refine ⟨h.drawn.after ho, documented_after h.documented ho, messages_after h.messages ho,
    h.charges.cons ?_, h.saves.cons ?_⟩
  · rintro _ _ invoice t reply heq hgt
    cases heq
    obtain ⟨d, rfl, htriggered⟩ := ho
    exact h.approved htriggered hgt
  · rintro _ _ ws reply heq
    cases heq
    exact ho

/-- The other threads see no submission under the ids that they drew. -/
theorem Allowed.sees (ho : Allowed env w i call o) (h : Sound env w) {j : Nat} (hj : j ≠ i) :
    Sees j w (after env w i call o c) := by
  refine ⟨grows_after env w i call o c, fun t invoice ht hnone s hs => ?_⟩
  rcases submissions_after ho c with hsame | ⟨u, hnew, hu⟩
  · rw [hsame] at hs
    exact hnone s hs
  · rw [hnew] at hs
    rcases List.mem_cons.mp hs with rfl | hs
    · rcases hu with ⟨s', hs', hid, -⟩ | ⟨⟨invoice', hinvoke⟩, -⟩
      · rw [← hid]
        exact hnone s' hs'
      · -- the id was drawn once
        rintro rfl
        exact hj (h.drawn.unique j i _ invoice invoice' ht hinvoke)
    · exact hnone s hs

theorem sees_after (ho : submissionsOf (.perform i call o (w.state.perform c o).1) = []) (j : Nat) :
    Sees j w (after env w i call o c) := by
  refine ⟨grows_after env w i call o c, fun t invoice ht hnone s hs => ?_⟩
  rw [submissions_performed, ho, List.nil_append] at hs
  exact hnone s hs

end Steps

end

end ApprovalFlow.Workflow
