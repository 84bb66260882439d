import ApprovalFlow.Audit.Repository
import ApprovalFlow.Store.Projector

/-!
# The audit projection and the order of events

* `AuditKind`, `AuditStory`: the three types of events, and one payload for each.
* `AuditStory.row`: the row that a set of types of events leaves, up to the values of its timestamps.
* `memory`, `postgres`: the two repositories as projectors; `merges`: both merge an event by adding its
  type.
* `order_free`: a history leaves the row of the set of types that occurred in it, in either repository.
-/

namespace ApprovalFlow
open Numeric

inductive AuditKind
  | decision
  | approval
  | payment
  deriving DecidableEq

namespace AuditEvent

def kind : AuditEvent → AuditKind
  | decision _ => .decision
  | approval _ => .approval
  | payment _ => .payment

end AuditEvent

/-- What the events of one tracking id say: an invoice, its decision, and a payload for each type of
event. -/
structure AuditStory where
  invoice : Invoice
  decision : Decision
  recommendation : Option Recommendation
  approval : ApprovalResolution
  payment : PaymentResolution
  reason : String

namespace AuditStory
variable (story : AuditStory)

/-- The event of each type. -/
def event : AuditKind → AuditEvent
  | .decision => .decision ⟨story.invoice, story.decision, story.recommendation⟩
  | .approval => .approval ⟨story.invoice, story.decision, story.approval⟩
  | .payment => .payment ⟨story.invoice, story.decision, story.payment, story.reason⟩

/-- The row after events of the given types, with 0 for a timestamp that is set; `total` is the stored
amount. -/
def row (total : Decimal) (s : Finset AuditKind) : AuditTrail :=
  let recommendation := if .decision ∈ s then story.recommendation else none
  { baseFields story.invoice story.decision with
    total := total
    recommendationType := recommendation.map (·.recommendation)
    recommendationConfidence := recommendation.map (·.confidence)
    recommendationCitedRules := recommendation.map (·.citedRules)
    recommendationReasoning := recommendation.map (·.reasoning)
    decisionCompletedAt := if .decision ∈ s then some 0 else none
    approvalResolution := if .approval ∈ s then some story.approval else none
    approvalCompletedAt := if .approval ∈ s then some 0 else none
    paymentResolution := if .payment ∈ s then some story.payment else none
    paymentReason := if .payment ∈ s then some story.reason else none
    paymentCompletedAt := if .payment ∈ s then some 0 else none }

end AuditStory

/-- A row up to the values of its timestamps. -/
def AuditTrail.untimed (trail : AuditTrail) : AuditTrail :=
  { trail with
    decisionCompletedAt := trail.decisionCompletedAt.map fun _ => 0
    approvalCompletedAt := trail.approvalCompletedAt.map fun _ => 0
    paymentCompletedAt := trail.paymentCompletedAt.map fun _ => 0 }

/-! ## The repositories as projectors -/

open InMemoryAuditRepository PostgresAuditRepository

/-- The row that an event leaves in the dictionary. -/
def InMemoryAuditRepository.merges : AuditEvent × Timestamp → Option AuditTrail → AuditTrail
  | (.decision event, now) => merged (decisionFields event now)
  | (.approval event, now) => merged (approvalFields event now)
  | (.payment event, now) => merged (paymentFields event now)

/-- The row that an event leaves in the table. -/
def PostgresAuditRepository.merges : AuditEvent × Timestamp → Option AuditTrail → AuditTrail
  | (.decision event, now) => upserted decisionSet (decisionParams event now)
  | (.approval event, now) => upserted approvalSet (approvalParams event now)
  | (.payment event, now) => upserted paymentSet (paymentParams event now)

abbrev AuditProjector := Projector String (AuditEvent × Timestamp) AuditTrail

def memory : AuditProjector := ⟨fun e => e.1.correlationId, InMemoryAuditRepository.merges⟩

def postgres : AuditProjector := ⟨fun e => e.1.correlationId, PostgresAuditRepository.merges⟩

theorem recordAll_memory (deliveries : List (AuditEvent × Timestamp)) (rows : AuditRows) :
    AuditService.recordAll inMemoryAuditRepository deliveries rows = memory.run rows deliveries := by
  unfold AuditService.recordAll Projector.run
  congr 1
  funext rows e
  obtain ⟨event, now⟩ := e
  cases event <;> rfl

theorem recordAll_postgres (deliveries : List (AuditEvent × Timestamp)) (rows : AuditRows) :
    AuditService.recordAll postgresAuditRepository deliveries rows = postgres.run rows deliveries := by
  unfold AuditService.recordAll Projector.run
  congr 1
  funext rows e
  obtain ⟨event, now⟩ := e
  cases event <;> rfl

/-! ## Merging adds a type -/

theorem AuditTrail.untimed_eq {trail u : AuditTrail} (h : trail.untimed = u) :
    ∃ d a p : Option Timestamp, trail =
      { u with decisionCompletedAt := d, approvalCompletedAt := a, paymentCompletedAt := p } ∧
      d.map (fun _ => 0) = u.decisionCompletedAt ∧ a.map (fun _ => 0) = u.approvalCompletedAt ∧
      p.map (fun _ => 0) = u.paymentCompletedAt := by
  subst h
  exact ⟨trail.decisionCompletedAt, trail.approvalCompletedAt, trail.paymentCompletedAt, rfl, rfl, rfl, rfl⟩

section Merge
variable {story : AuditStory} {now : Timestamp} {r : Option AuditTrail} {s : Finset AuditKind}

theorem memory_merge (c : AuditKind)
    (h : r.map AuditTrail.untimed = Projector.seen (story.row story.invoice.total) s) :
    (memory.merge (story.event c, now) r).untimed = story.row story.invoice.total (insert c s) := by
  cases r with
  | none =>
    obtain rfl := Projector.seen_eq_none.mp h
    cases c <;> simp [memory, AuditStory.event, InMemoryAuditRepository.merges, merged,
      create, decisionFields,
      approvalFields, paymentFields, baseFields, AuditTrail.untimed, AuditStory.row]
  | some trail =>
    obtain ⟨d, a, p, rfl, hd, ha, hp⟩ := AuditTrail.untimed_eq (Projector.seen_eq_some.mp h).2
    simp only [AuditStory.row] at hd ha hp
    cases c with
    | decision =>
      cases hr : story.recommendation <;>
        simp [memory, AuditStory.event, InMemoryAuditRepository.merges, merged, modelCopy,
          decisionFields, baseFields, AuditTrail.untimed, AuditStory.row, ha, hp, hr]
    | approval =>
      simp [memory, AuditStory.event, InMemoryAuditRepository.merges, merged, modelCopy,
        approvalFields, baseFields, AuditTrail.untimed, AuditStory.row, hd, hp]
    | payment =>
      simp [memory, AuditStory.event, InMemoryAuditRepository.merges, merged, modelCopy,
        paymentFields, baseFields, AuditTrail.untimed, AuditStory.row, hd, ha]

theorem postgres_merge (c : AuditKind)
    (h : r.map AuditTrail.untimed = Projector.seen (story.row (numeric story.invoice.total)) s) :
    (postgres.merge (story.event c, now) r).untimed =
      story.row (numeric story.invoice.total) (insert c s) := by
  cases r with
  | none =>
    obtain rfl := Projector.seen_eq_none.mp h
    cases c <;> simp [postgres, AuditStory.event, PostgresAuditRepository.merges, upserted,
      decisionParams, approvalParams,
      paymentParams, baseParams, baseFields, AuditTrail.untimed, AuditStory.row]
  | some trail =>
    obtain ⟨d, a, p, rfl, hd, ha, hp⟩ := AuditTrail.untimed_eq (Projector.seen_eq_some.mp h).2
    simp only [AuditStory.row] at hd ha hp
    cases c with
    | decision =>
      simp [postgres, AuditStory.event, PostgresAuditRepository.merges, upserted, decisionSet,
        decisionParams, baseSet, baseParams, baseFields, AuditTrail.untimed, AuditStory.row, ha, hp]
    | approval =>
      simp [postgres, AuditStory.event, PostgresAuditRepository.merges, upserted, approvalSet,
        approvalParams, baseSet, baseParams, baseFields, AuditTrail.untimed, AuditStory.row, hd, hp]
    | payment =>
      simp [postgres, AuditStory.event, PostgresAuditRepository.merges, upserted, paymentSet,
        paymentParams, baseSet, baseParams, baseFields, AuditTrail.untimed, AuditStory.row, hd, ha]

end Merge

/-! ## Histories -/

/-- The two repositories, each with what it stores of an amount. -/
inductive Backend : AuditRepository → (Decimal → Decimal) → Prop
  | memory : Backend inMemoryAuditRepository id
  | postgres : Backend postgresAuditRepository numeric

/-- The types of the events of a tracking id in a history. -/
def occurred (trackingId : String) (deliveries : List (AuditEvent × Timestamp)) : Finset AuditKind :=
  memory.kinds (·.1.kind) trackingId deliveries

theorem mem_occurred {trackingId : String} {deliveries : List (AuditEvent × Timestamp)} {c : AuditKind} :
    c ∈ occurred trackingId deliveries ↔ ∃ e ∈ deliveries, e.1.correlationId = trackingId ∧ e.1.kind = c :=
  Projector.mem_kinds _

/-- The deliveries for the story's id tell the story. -/
def AuditStory.Told (story : AuditStory) (deliveries : List (AuditEvent × Timestamp)) : Prop :=
  ∀ e ∈ deliveries, e.1.correlationId = story.decision.correlationId → e.1 = story.event e.1.kind

section Histories
variable {repository : AuditRepository} {amount : Decimal → Decimal} {story : AuditStory} {rows : AuditRows}
  {deliveries : List (AuditEvent × Timestamp)}

/-- **The row of a history** is the row of the types of events in it. -/
theorem untimed_getTrail (hb : Backend repository amount)
    (hnew : rows.get? story.decision.correlationId = none) (htold : story.Told deliveries) :
    (AuditService.getTrail repository story.decision.correlationId
      (AuditService.recordAll repository deliveries rows)).map AuditTrail.untimed =
      Projector.seen (story.row (amount story.invoice.total))
        (occurred story.decision.correlationId deliveries) := by
  cases hb with
  | memory =>
    rw [recordAll_memory]
    refine Projector.view_run hnew fun e he hk r s hr => ?_
    have hevent := htold e he hk
    obtain ⟨event, now⟩ := e
    dsimp only at hevent ⊢
    rw [hevent, memory_merge _ hr, ← hevent]
    rfl
  | postgres =>
    rw [recordAll_postgres]
    refine Projector.view_run (p := postgres) hnew fun e he hk r s hr => ?_
    have hevent := htold e he hk
    obtain ⟨event, now⟩ := e
    dsimp only at hevent ⊢
    rw [hevent, postgres_merge _ hr, ← hevent]

theorem getTrail_frame (hb : Backend repository amount) {trackingId : String}
    (h : ∀ e ∈ deliveries, e.1.correlationId ≠ trackingId) :
    AuditService.getTrail repository trackingId (AuditService.recordAll repository deliveries rows) =
      AuditService.getTrail repository trackingId rows := by
  cases hb with
  | memory =>
    rw [recordAll_memory]
    exact Projector.get?_run_of_ne h
  | postgres =>
    rw [recordAll_postgres]
    exact Projector.get?_run_of_ne (p := postgres) h

end Histories

/-- Each field of a row that belongs to a type of event is set, to what the events say, exactly if one
occurred. -/
structure Reflects (story : AuditStory) (s : Finset AuditKind) (trail : AuditTrail) : Prop where
  recommendationType : ∀ x, trail.recommendationType = some x ↔
    .decision ∈ s ∧ story.recommendation.map (·.recommendation) = some x
  recommendationConfidence : ∀ x, trail.recommendationConfidence = some x ↔
    .decision ∈ s ∧ story.recommendation.map (·.confidence) = some x
  recommendationCitedRules : ∀ x, trail.recommendationCitedRules = some x ↔
    .decision ∈ s ∧ story.recommendation.map (·.citedRules) = some x
  recommendationReasoning : ∀ x, trail.recommendationReasoning = some x ↔
    .decision ∈ s ∧ story.recommendation.map (·.reasoning) = some x
  decisionCompletedAt : trail.decisionCompletedAt.isSome = true ↔ .decision ∈ s
  approvalResolution : ∀ x, trail.approvalResolution = some x ↔ .approval ∈ s ∧ story.approval = x
  approvalCompletedAt : trail.approvalCompletedAt.isSome = true ↔ .approval ∈ s
  paymentResolution : ∀ x, trail.paymentResolution = some x ↔ .payment ∈ s ∧ story.payment = x
  paymentReason : ∀ x, trail.paymentReason = some x ↔ .payment ∈ s ∧ story.reason = x
  paymentCompletedAt : trail.paymentCompletedAt.isSome = true ↔ .payment ∈ s

theorem Reflects.of_untimed {story : AuditStory} {s : Finset AuditKind} {total : Decimal}
    {trail : AuditTrail} (h : trail.untimed = story.row total s) : Reflects story s trail := by
  obtain ⟨d, a, p, rfl, hd, ha, hp⟩ := AuditTrail.untimed_eq h
  have hset {c : AuditKind} {o : Option Timestamp} (ho : o.map (fun _ => 0) = if c ∈ s then some 0
      else none) : o.isSome = true ↔ c ∈ s := by
    rw [← Option.isSome_map (f := fun _ => 0), ho]
    split_ifs with hc <;> simp [hc]
  have hpayload {α β : Type} {c : AuditKind} (o : Option α) (f : α → β) (x : β) :
      (if c ∈ s then o else none).map f = some x ↔ c ∈ s ∧ o.map f = some x := by
    split_ifs with hc <;> simp [hc]
  have hvalue {β : Type} {c : AuditKind} (y x : β) : (if c ∈ s then some y else none) = some x ↔
      c ∈ s ∧ y = x := by
    split_ifs with hc <;> simp [hc]
  exact ⟨hpayload _ _, hpayload _ _, hpayload _ _, hpayload _ _, hset hd, hvalue _,
    hset ha, hvalue _, hvalue _, hset hp⟩

/-- **The projection does not depend on the order of events or on their repetition**: two histories with
the same events of a tracking id, told by one story, leave the same row up to the values of its
timestamps; the row reflects what occurred, and other rows stay. -/
theorem order_free {repository : AuditRepository} {amount : Decimal → Decimal}
    (hb : Backend repository amount)
    (story : AuditStory) (deliveries deliveries' : List (AuditEvent × Timestamp)) (rows rows' : AuditRows)
    (hnew : rows.get? story.decision.correlationId = none)
    (hnew' : rows'.get? story.decision.correlationId = none)
    (htold : story.Told deliveries) (htold' : story.Told deliveries')
    (hsame : ∀ event : AuditEvent, event.correlationId = story.decision.correlationId →
      (event ∈ deliveries.map Prod.fst ↔ event ∈ deliveries'.map Prod.fst)) :
    let trail := AuditService.getTrail repository story.decision.correlationId
      (AuditService.recordAll repository deliveries rows)
    let trail' := AuditService.getTrail repository story.decision.correlationId
      (AuditService.recordAll repository deliveries' rows')
    trail.map AuditTrail.untimed = trail'.map AuditTrail.untimed ∧
    (trail = none ↔ occurred story.decision.correlationId deliveries = ∅) ∧
    (∀ row, trail = some row → Reflects story (occurred story.decision.correlationId deliveries) row) ∧
    ∀ other, (∀ e ∈ deliveries, e.1.correlationId ≠ other) →
      AuditService.getTrail repository other (AuditService.recordAll repository deliveries rows) =
        AuditService.getTrail repository other rows := by
  have hrow := untimed_getTrail hb hnew htold
  have hrow' := untimed_getTrail hb hnew' htold'
  have hkinds : occurred story.decision.correlationId deliveries =
      occurred story.decision.correlationId deliveries' := by
    have hsub {l l' : List (AuditEvent × Timestamp)} (h : ∀ event : AuditEvent,
        event.correlationId = story.decision.correlationId → event ∈ l.map Prod.fst →
          event ∈ l'.map Prod.fst)
        {c : AuditKind} (hc : c ∈ occurred story.decision.correlationId l) :
        c ∈ occurred story.decision.correlationId l' := by
      obtain ⟨e, he, hk, rfl⟩ := mem_occurred.mp hc
      obtain ⟨e', he', heq⟩ := List.mem_map.mp (h e.1 hk (List.mem_map_of_mem he))
      exact mem_occurred.mpr ⟨e', he', by rw [heq]; exact hk, by rw [heq]⟩
    ext c
    exact ⟨hsub fun event hk => (hsame event hk).mp, hsub fun event hk => (hsame event hk).mpr⟩
  refine ⟨by rw [hrow, hrow', hkinds], ?_, fun row htrail => ?_, fun other h => getTrail_frame hb h⟩
  · rw [← @Projector.seen_eq_none _ _ _ (story.row (amount story.invoice.total)), ← hrow]
    cases AuditService.getTrail repository story.decision.correlationId
      (AuditService.recordAll repository deliveries rows) <;> simp
  · rw [htrail, Option.map_some] at hrow
    exact .of_untimed (Projector.seen_eq_some.mp hrow).2

/-- A laptop that is approved and paid. -/
def laptopStory : AuditStory where
  invoice := laptop
  decision := ⟨.autoApprove, "Within autonomy ceiling.", [], "t1"⟩
  recommendation := none
  approval := .approved
  payment := .completed
  reason := "Payment succeeded."

/-- Deliveries of the story's events. -/
def AuditStory.tell (story : AuditStory) (l : List (AuditKind × Timestamp)) :
    List (AuditEvent × Timestamp) :=
  l.map fun e => (story.event e.1, e.2)

theorem AuditStory.told_tell (story : AuditStory) (l : List (AuditKind × Timestamp)) :
    story.Told (story.tell l) := by
  intro e he _
  obtain ⟨⟨c, now⟩, -, rfl⟩ := List.mem_map.mp he
  cases c <;> rfl

/-- The payment before the decision, and again after it. -/
theorem laptop_order_free :
    (AuditService.getTrail postgresAuditRepository "t1" (AuditService.recordAll postgresAuditRepository
      (laptopStory.tell [(.decision, 5), (.payment, 7)]) .empty)).map AuditTrail.untimed =
    (AuditService.getTrail postgresAuditRepository "t1" (AuditService.recordAll postgresAuditRepository
      (laptopStory.tell [(.payment, 6), (.decision, 8), (.payment, 9)]) .empty)).map AuditTrail.untimed :=
  (order_free .postgres laptopStory (laptopStory.tell [(.decision, 5), (.payment, 7)])
    (laptopStory.tell [(.payment, 6), (.decision, 8), (.payment, 9)]) .empty .empty rfl rfl
      (laptopStory.told_tell _)
    (laptopStory.told_tell _) (by
      intro event _
      simp only [AuditStory.tell, List.map_cons, List.map_nil, List.mem_cons, List.not_mem_nil, or_false]
      tauto)).1

end ApprovalFlow
