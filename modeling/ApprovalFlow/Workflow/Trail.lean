import ApprovalFlow.Audit.Agree
import ApprovalFlow.Workflow.Integrity

/-!
# The audit trail of a run

Audit subscribes to the three topics of outcomes. What it records of a run of the workflow, from any
messages that were published, delivered in any order and any number of times, is what happened in the
run.

* `Merges`: what a row holds after an event, in either repository.
* `Witnessed`: what an event that was published goes back to.
* `Truthful`: a row of the trail against the run; `trail_truthful`: every row of both repositories.
-/

namespace ApprovalFlow
open Numeric

/-- The message that delivers the event. -/
def AuditEvent.message : AuditEvent → Message
  | decision event => .decisionCompleted event
  | approval event => .approvalCompleted event
  | payment event => .paymentCompleted event

def AuditEvent.paymentResolution? : AuditEvent → Option PaymentResolution
  | payment event => some event.resolution
  | _ => none

/-! ## What a merge leaves -/

/-- The columns that are copied out of the invoice. -/
structure AuditTrail.OfInvoice (row : AuditTrail) (i : Invoice) : Prop where
  invoice : row.invoice = i
  invoiceNumber : row.invoiceNumber = i.invoiceNumber
  vendor : row.vendor = i.vendor
  department : row.department = i.department
  category : row.category = i.category.value
  total : row.total.toRat = i.total.toRat
  currency : row.currency = i.currency

/-- The invoice is that of the event, and a resolution stays until another one comes. -/
structure Merges (e : AuditEvent) (r : Option AuditTrail) (row : AuditTrail) : Prop where
  keyed : (∀ old, r = some old → old.trackingId = e.correlationId) → row.trackingId = e.correlationId
  columns : row.OfInvoice e.invoice
  approval : row.approvalResolution = e.resolution?.or (r.bind (·.approvalResolution))
  payment : row.paymentResolution = e.paymentResolution?.or (r.bind (·.paymentResolution))

open InMemoryAuditRepository PostgresAuditRepository

theorem memory_merges (e : AuditEvent) (now : Timestamp) (r : Option AuditTrail) :
    Merges e r (memory.merge (e, now) r) := by
  cases e with
  | decision event => cases r <;> exact ⟨fun _ => rfl, ⟨rfl, rfl, rfl, rfl, rfl, rfl, rfl⟩, rfl, rfl⟩
  | approval event => cases r <;> exact ⟨fun _ => rfl, ⟨rfl, rfl, rfl, rfl, rfl, rfl, rfl⟩, rfl, rfl⟩
  | payment event => cases r <;> exact ⟨fun _ => rfl, ⟨rfl, rfl, rfl, rfl, rfl, rfl, rfl⟩, rfl, rfl⟩

theorem postgres_merges (e : AuditEvent) (now : Timestamp) (r : Option AuditTrail) :
    Merges e r (postgres.merge (e, now) r) := by
  cases e with
  | decision event =>
    cases r with
    | none => exact ⟨fun _ => rfl, ⟨rfl, rfl, rfl, rfl, rfl, toRat_numeric _, rfl⟩, rfl, rfl⟩
    | some old => exact ⟨fun h => h old rfl, ⟨rfl, rfl, rfl, rfl, rfl, toRat_numeric _, rfl⟩, rfl, rfl⟩
  | approval event =>
    cases r with
    | none => exact ⟨fun _ => rfl, ⟨rfl, rfl, rfl, rfl, rfl, toRat_numeric _, rfl⟩, rfl, rfl⟩
    | some old => exact ⟨fun h => h old rfl, ⟨rfl, rfl, rfl, rfl, rfl, toRat_numeric _, rfl⟩, rfl, rfl⟩
  | payment event =>
    cases r with
    | none => exact ⟨fun _ => rfl, ⟨rfl, rfl, rfl, rfl, rfl, toRat_numeric _, rfl⟩, rfl, rfl⟩
    | some old => exact ⟨fun h => h old rfl, ⟨rfl, rfl, rfl, rfl, rfl, toRat_numeric _, rfl⟩, rfl, rfl⟩

/-- Both repositories are projections of the deliveries that merge in this way. -/
theorem exists_projector {repository : AuditRepository} {amount : Decimal → Decimal}
    (hb : Backend repository amount) : ∃ p : AuditProjector, (∀ e, p.key e = e.1.correlationId) ∧
      (∀ deliveries, AuditService.recordAll repository deliveries .empty = p.run .empty deliveries) ∧
      (∀ t rows, AuditService.getTrail repository t rows = rows.get? t) ∧
      ∀ e now r, Merges e r (p.merge (e, now) r) := by
  cases hb with
  | memory => exact ⟨memory, fun _ => rfl, fun _ => recordAll_memory _ _, fun _ _ => rfl, memory_merges⟩
  | postgres =>
    exact ⟨postgres, fun _ => rfl, fun _ => recordAll_postgres _ _, fun _ _ => rfl, postgres_merges⟩

namespace Workflow
open Async

section Runs
variable {ν : Type} {env : Deployment ν} {cfg : WorkflowRun} {t : String}

/-- What an event goes back to. -/
structure Witnessed (log : List WorkflowEvent) (e : AuditEvent) : Prop where
  submitted : (factsOf log).submitted e.invoice e.correlationId
  resolved : ∀ r, e.resolution? = some r →
    Invoked (.approval (resolving e.correlationId r)) log ∧ Saved e.correlationId r log
  paid : e.paymentResolution? = some .completed → (factsOf log).charged e.correlationId
  recorded : ∀ r, e.paymentResolution? = some r →
    ∃ p, SavedPayment p log ∧ p.trackingId = e.correlationId ∧ p.resolution = r

theorem witnessed (hr : (workflow env).Reach (fun _ _ => True) (System.start .empty) cfg) {e : AuditEvent}
    (he : e.message ∈ cfg.world.state.published) : Witnessed cfg.world.log e := by
  have hgenuine := (kept hr).state.messages _ he
  have hjustified := (sound hr).messages _ he
  cases e with
  | decision event =>
    exact ⟨hgenuine, (fun r h => by cases h), (fun h => by cases h), (fun r h => by cases h)⟩
  | approval event =>
    refine ⟨hgenuine, fun r h => ?_, (fun h => by cases h), (fun r h => by cases h)⟩
    cases h
    cases hjustified with
    | resolved hindex hescalated hcall hsaved => exact ⟨hcall, hsaved⟩
  | payment event =>
    obtain ⟨hsubmitted, hcharged, p, hsaved, hkeyed, rfl⟩ := hgenuine
    exact ⟨hsubmitted, (fun r h => by cases h), fun h => hcharged (Option.some.inj h),
      fun r h => ⟨p, hsaved, hkeyed.symm, Option.some.inj h⟩⟩

/-- A row against the run: it is about the submitted invoice, a resolution was an approver's and was
saved, a payment was saved as noted, a completed payment was charged, above the ceiling only after an
approval. -/
structure Truthful (env : Deployment ν) (log : List WorkflowEvent) (t : String)
    (row : AuditTrail) : Prop where
  keyed : row.trackingId = t
  submitted : Submitted t row.invoice log
  columns : row.OfInvoice row.invoice
  resolved : ∀ r, row.approvalResolution = some r → Invoked (.approval (resolving t r)) log ∧ Saved t r log
  recorded : ∀ r, row.paymentResolution = some r → ∃ p, SavedPayment p log ∧
    p.trackingId = t ∧ p.resolution = r
  paid : row.paymentResolution = some .completed →
    ∃ i call, .perform i call (.charge row.invoice t) (.ok ()) ∈ log
  ceiling : row.paymentResolution = some .completed → env.thresholds.ceiling < row.invoice.total →
    Invoked (.approval (.approve t)) log

/-- What every merge keeps of a row. -/
structure Recounts (log : List WorkflowEvent) (t : String) (row : AuditTrail) : Prop where
  keyed : row.trackingId = t
  submitted : (factsOf log).submitted row.invoice t
  columns : row.OfInvoice row.invoice
  resolved : ∀ r, row.approvalResolution = some r → Invoked (.approval (resolving t r)) log ∧ Saved t r log
  paid : row.paymentResolution = some .completed → (factsOf log).charged t
  recorded : ∀ r, row.paymentResolution = some r → ∃ p, SavedPayment p log ∧
    p.trackingId = t ∧ p.resolution = r

theorem Recounts.merge {log : List WorkflowEvent} {e : AuditEvent}
    {r : Option AuditTrail} {row : AuditTrail}
    (he : Witnessed log e) (hold : ∀ old, r = some old → Recounts log e.correlationId old)
    (h : Merges e r row) : Recounts log e.correlationId row where
  keyed := h.keyed fun old hr => (hold old hr).keyed
  submitted := h.columns.invoice ▸ he.submitted
  columns := h.columns.invoice.symm ▸ h.columns
  resolved resolution hres := by
    rw [h.approval, Option.or_eq_some_iff] at hres
    rcases hres with hnew | ⟨-, hres⟩
    · exact he.resolved resolution hnew
    · obtain ⟨old, hr, hres⟩ := Option.bind_eq_some_iff.mp hres
      exact (hold old hr).resolved resolution hres
  paid hres := by
    rw [h.payment, Option.or_eq_some_iff] at hres
    rcases hres with hnew | ⟨-, hres⟩
    · exact he.paid hnew
    · obtain ⟨old, hr, hres⟩ := Option.bind_eq_some_iff.mp hres
      exact (hold old hr).paid hres
  recorded resolution hres := by
    rw [h.payment, Option.or_eq_some_iff] at hres
    rcases hres with hnew | ⟨-, hres⟩
    · exact he.recorded resolution hnew
    · obtain ⟨old, hr, hres⟩ := Option.bind_eq_some_iff.mp hres
      exact (hold old hr).recorded resolution hres

/-- An accepted charge above the ceiling comes after an approval. -/
theorem approved_of_charge (hr : (workflow env).Reach (fun _ _ => True) (System.start .empty) cfg) {i : ℕ}
    {call : WorkflowCall} {invoice : Invoice} {reply : Except Exn Unit}
    (he : .perform i call (.charge invoice t) reply ∈ cfg.world.log)
    (hgt : env.thresholds.ceiling < invoice.total) :
    Invoked (.approval (.approve t)) cfg.world.log := by
  obtain ⟨newer, older, hlog⟩ := List.append_of_mem he
  obtain ⟨j, hj⟩ := (sound hr).charges i call invoice t reply older ⟨newer, hlog.symm⟩ hgt
  refine ⟨j, ?_⟩
  rw [hlog]
  exact List.mem_append_right _ (List.mem_cons_of_mem _ hj)

theorem Recounts.truthful (hr : (workflow env).Reach (fun _ _ => True) (System.start .empty) cfg)
    {row : AuditTrail} (h : Recounts cfg.world.log t row) : Truthful env cfg.world.log t row where
  keyed := h.keyed
  submitted := submitted_of_fact hr h.submitted
  columns := h.columns
  resolved := h.resolved
  recorded := h.recorded
  paid hpaid := charge_of_fact hr h.submitted (h.paid hpaid)
  ceiling hpaid hgt := by
    obtain ⟨i, call, he⟩ := charge_of_fact hr h.submitted (h.paid hpaid)
    exact approved_of_charge hr he hgt

end Runs

/-- **The trail is truthful**: whatever published messages are delivered to Audit, in any order and any
number of times, every row of either repository tells what happened in the run; every delivered id has a
row, and there are no more rows than submissions. -/
theorem trail_truthful {ν : Type} (env : Deployment ν) (cfg : WorkflowRun)
    (hr : (workflow env).Reach (fun _ _ => True) (System.start .empty) cfg) (repository : AuditRepository)
    (amount : Decimal → Decimal) (hb : Backend repository amount)
    (deliveries : List (AuditEvent × Timestamp))
    (hd : ∀ d ∈ deliveries, d.1.message ∈ cfg.world.state.published) :
    let rows := AuditService.recordAll repository deliveries .empty
    (∀ t row, AuditService.getTrail repository t rows = some row → Truthful env cfg.world.log t row) ∧
      (∀ d ∈ deliveries, AuditService.getTrail repository d.1.correlationId rows ≠ none) ∧
      rows.keys.length ≤ cfg.world.state.issued.length := by
  obtain ⟨p, hkey, hrun, hget, hmerges⟩ := exists_projector hb
  simp only [hrun, hget]
  have hrecounts : ∀ t row, (p.run .empty deliveries).get? t = some row → Recounts cfg.world.log t row := by
    refine Projector.forall_run (fun d hmem r hold => ?_) fun t row h => by cases h
    rw [hkey] at hold ⊢
    exact .merge (witnessed hr (hd d hmem)) hold (hmerges d.1 d.2 r)
  refine ⟨fun t row h => (hrecounts t row h).truthful hr, fun d hmem => ?_, ?_⟩
  · rw [← Dict.mem_keys, Projector.keys_run, Projector.mem_firstKeys, ← hkey]
    exact List.mem_map_of_mem hmem
  · refine ((p.run .empty deliveries).nodup.subperm fun t ht => ?_).length_le
    obtain ⟨row, hrow⟩ := Option.ne_none_iff_exists'.mp ((Dict.mem_keys _ _).mp ht)
    obtain ⟨i, hi⟩ := (hrecounts t row hrow).submitted
    exact (sound hr).drawn.issued i t row.invoice hi

/-- The outcomes of the notified laptop, the payment's twice and first. -/
def notifiedDeliveries : List (AuditEvent × Timestamp) :=
  let paid : AuditEvent := .payment ⟨laptop, laptopApproved, .completed, "payment executed successfully"⟩
  [(paid, 1), (.decision ⟨laptop, laptopApproved, some (PlainJson.recommended .approve)⟩, 2), (paid, 3)]

theorem notified_trail : ∃ row,
    AuditService.getTrail postgresAuditRepository "t-1"
      (AuditService.recordAll postgresAuditRepository notifiedDeliveries .empty) = some row ∧
    row.paymentResolution = some .completed ∧ Truthful plainDeployment notifiedRun.world.log "t-1" row := by
  have hdelivered : ∀ d ∈ notifiedDeliveries, d.1.message ∈ notifiedRun.world.state.published := by
    decide +kernel
  have htrail :=
    (trail_truthful plainDeployment notifiedRun notified_reach postgresAuditRepository _ .postgres
    notifiedDeliveries hdelivered).1
  obtain ⟨row, hrow⟩ := Option.isSome_iff_exists.mp
    (show (AuditService.getTrail postgresAuditRepository "t-1"
      (AuditService.recordAll postgresAuditRepository notifiedDeliveries .empty)).isSome = true by
        decide +kernel)
  refine ⟨row, hrow, ?_, htrail "t-1" row hrow⟩
  have hpaid : (AuditService.getTrail postgresAuditRepository "t-1"
      (AuditService.recordAll postgresAuditRepository notifiedDeliveries .empty)).map
        (·.paymentResolution) = some (some .completed) := by decide +kernel
  rw [hrow] at hpaid
  exact Option.some.inj hpaid

end Workflow

end ApprovalFlow
