import ApprovalFlow.Shared.Contracts
import ApprovalFlow.Store.Dict

/-!
# The audit trail

One row for each tracking id, merged from the events of the three topics.

* `AuditTrail`: a row; `AuditFields`: the fields that one event brings.
* `InMemoryAuditRepository`: the dictionary, whose `merge` updates the fields that are there.
* `PostgresAuditRepository`: the table `audit_trail`, whose statements insert a row or set the columns
  that they list.
* `AuditService.record`: the three handlers.
-/

namespace ApprovalFlow
open Numeric

/-- `datetime.now(UTC)`, in microseconds. -/
abbrev Timestamp := Nat

structure AuditTrail where
  trackingId : String
  invoiceNumber : String
  vendor : String
  department : String
  category : String
  total : Decimal
  currency : String
  invoice : Invoice
  route : Route
  decisionReason : String
  triggeredRules : List String
  recommendationType : Option RecommendationType := none
  recommendationConfidence : Option PyFloat := none
  recommendationCitedRules : Option (List String) := none
  recommendationReasoning : Option String := none
  decisionCompletedAt : Option Timestamp := none
  approvalResolution : Option ApprovalResolution := none
  approvalCompletedAt : Option Timestamp := none
  paymentResolution : Option PaymentResolution := none
  paymentReason : Option String := none
  paymentCompletedAt : Option Timestamp := none
  deriving DecidableEq

/-- What every one of the events carries. -/
structure BaseFields where
  trackingId : String
  invoiceNumber : String
  vendor : String
  department : String
  category : String
  total : Decimal
  currency : String
  invoice : Invoice
  route : Route
  decisionReason : String
  triggeredRules : List String

/-- `_base_fields`. -/
def baseFields (invoice : Invoice) (decision : Decision) : BaseFields where
  trackingId := decision.correlationId
  invoiceNumber := invoice.invoiceNumber
  vendor := invoice.vendor
  department := invoice.department
  category := invoice.category.value
  total := invoice.total
  currency := invoice.currency
  invoice := invoice
  route := decision.route
  decisionReason := decision.reason
  triggeredRules := decision.triggeredRules

/-- `fields: dict[str, object]`: the base fields, and the others where the key is there. -/
structure AuditFields extends BaseFields where
  recommendationType : Option RecommendationType := none
  recommendationConfidence : Option PyFloat := none
  recommendationCitedRules : Option (List String) := none
  recommendationReasoning : Option String := none
  decisionCompletedAt : Option Timestamp := none
  approvalResolution : Option ApprovalResolution := none
  approvalCompletedAt : Option Timestamp := none
  paymentResolution : Option PaymentResolution := none
  paymentReason : Option String := none
  paymentCompletedAt : Option Timestamp := none

/-- The events of the three topics. -/
inductive AuditEvent
  | decision (event : DecisionCompletedEvent)
  | approval (event : ApprovalCompletedEvent)
  | payment (event : PaymentCompletedEvent)
  deriving DecidableEq

def AuditEvent.correlationId : AuditEvent → String
  | decision event => event.decision.correlationId
  | approval event => event.decision.correlationId
  | payment event => event.decision.correlationId

/-- The rows, by tracking id. -/
abbrev AuditRows := Dict String AuditTrail

structure AuditRepository where
  upsertDecision : DecisionCompletedEvent → Timestamp → AuditRows → AuditRows
  upsertApproval : ApprovalCompletedEvent → Timestamp → AuditRows → AuditRows
  upsertPayment : PaymentCompletedEvent → Timestamp → AuditRows → AuditRows
  get : String → AuditRows → Option AuditTrail

/-! ## In memory -/

namespace InMemoryAuditRepository

/-- `AuditTrail(**fields)`. -/
def create (fields : AuditFields) : AuditTrail :=
  { fields with }

/-- `existing.model_copy(update=fields)`. -/
def modelCopy (existing : AuditTrail) (fields : AuditFields) : AuditTrail where
  trackingId := fields.trackingId
  invoiceNumber := fields.invoiceNumber
  vendor := fields.vendor
  department := fields.department
  category := fields.category
  total := fields.total
  currency := fields.currency
  invoice := fields.invoice
  route := fields.route
  decisionReason := fields.decisionReason
  triggeredRules := fields.triggeredRules
  recommendationType := fields.recommendationType.or existing.recommendationType
  recommendationConfidence := fields.recommendationConfidence.or existing.recommendationConfidence
  recommendationCitedRules := fields.recommendationCitedRules.or existing.recommendationCitedRules
  recommendationReasoning := fields.recommendationReasoning.or existing.recommendationReasoning
  decisionCompletedAt := fields.decisionCompletedAt.or existing.decisionCompletedAt
  approvalResolution := fields.approvalResolution.or existing.approvalResolution
  approvalCompletedAt := fields.approvalCompletedAt.or existing.approvalCompletedAt
  paymentResolution := fields.paymentResolution.or existing.paymentResolution
  paymentReason := fields.paymentReason.or existing.paymentReason
  paymentCompletedAt := fields.paymentCompletedAt.or existing.paymentCompletedAt

/-- The row that `_merge` stores. -/
def merged (fields : AuditFields) : Option AuditTrail → AuditTrail
  | none => create fields
  | some existing => modelCopy existing fields

/-- `_merge`. -/
def merge (trackingId : String) (fields : AuditFields) (rows : AuditRows) : AuditRows :=
  rows.insert trackingId (merged fields (rows.get? trackingId))

/-- The fields of `upsert_decision`: no key for a recommendation that is not there. -/
def decisionFields (event : DecisionCompletedEvent) (now : Timestamp) : AuditFields :=
  { baseFields event.invoice event.decision with
    decisionCompletedAt := some now
    recommendationType := event.recommendation.map (·.recommendation)
    recommendationConfidence := event.recommendation.map (·.confidence)
    recommendationCitedRules := event.recommendation.map (·.citedRules)
    recommendationReasoning := event.recommendation.map (·.reasoning) }

def approvalFields (event : ApprovalCompletedEvent) (now : Timestamp) : AuditFields :=
  { baseFields event.invoice event.decision with
    approvalResolution := some event.resolution
    approvalCompletedAt := some now }

def paymentFields (event : PaymentCompletedEvent) (now : Timestamp) : AuditFields :=
  { baseFields event.invoice event.decision with
    paymentResolution := some event.resolution
    paymentReason := some event.reason
    paymentCompletedAt := some now }

end InMemoryAuditRepository

open InMemoryAuditRepository in
def inMemoryAuditRepository : AuditRepository where
  upsertDecision event now := merge event.decision.correlationId (decisionFields event now)
  upsertApproval event now := merge event.decision.correlationId (approvalFields event now)
  upsertPayment event now := merge event.decision.correlationId (paymentFields event now)
  get trackingId rows := rows.get? trackingId

/-! ## Postgres -/

namespace PostgresAuditRepository

/-- A `NUMERIC` column: the value, without a positive exponent and without a negative zero. -/
def numeric (d : Decimal) : Decimal :=
  let n := d.int * 10 ^ d.exp.toNat
  ⟨decide (n < 0), n.natAbs, min d.exp 0⟩

/-- `_base_params`, with `NULL` in the columns that no statement lists. -/
def baseParams (invoice : Invoice) (decision : Decision) : AuditTrail :=
  { baseFields invoice decision with total := numeric invoice.total }

/-- The row to insert of `_UPSERT_DECISION_SQL`. -/
def decisionParams (event : DecisionCompletedEvent) (now : Timestamp) : AuditTrail :=
  { baseParams event.invoice event.decision with
    recommendationType := event.recommendation.map (·.recommendation)
    recommendationConfidence := event.recommendation.map (·.confidence)
    recommendationCitedRules := event.recommendation.map (·.citedRules)
    recommendationReasoning := event.recommendation.map (·.reasoning)
    decisionCompletedAt := some now }

def approvalParams (event : ApprovalCompletedEvent) (now : Timestamp) : AuditTrail :=
  { baseParams event.invoice event.decision with
    approvalResolution := some event.resolution
    approvalCompletedAt := some now }

def paymentParams (event : PaymentCompletedEvent) (now : Timestamp) : AuditTrail :=
  { baseParams event.invoice event.decision with
    paymentResolution := some event.resolution
    paymentReason := some event.reason
    paymentCompletedAt := some now }

/-- `_BASE_SET`. -/
def baseSet (row excluded : AuditTrail) : AuditTrail :=
  { row with
    invoiceNumber := excluded.invoiceNumber
    vendor := excluded.vendor
    department := excluded.department
    category := excluded.category
    total := excluded.total
    currency := excluded.currency
    invoice := excluded.invoice
    route := excluded.route
    decisionReason := excluded.decisionReason
    triggeredRules := excluded.triggeredRules }

/-- The `SET` clause of `_UPSERT_DECISION_SQL`. -/
def decisionSet (row excluded : AuditTrail) : AuditTrail :=
  { baseSet row excluded with
    recommendationType := excluded.recommendationType
    recommendationConfidence := excluded.recommendationConfidence
    recommendationCitedRules := excluded.recommendationCitedRules
    recommendationReasoning := excluded.recommendationReasoning
    decisionCompletedAt := excluded.decisionCompletedAt }

def approvalSet (row excluded : AuditTrail) : AuditTrail :=
  { baseSet row excluded with
    approvalResolution := excluded.approvalResolution
    approvalCompletedAt := excluded.approvalCompletedAt }

def paymentSet (row excluded : AuditTrail) : AuditTrail :=
  { baseSet row excluded with
    paymentResolution := excluded.paymentResolution
    paymentReason := excluded.paymentReason
    paymentCompletedAt := excluded.paymentCompletedAt }

/-- The row after `INSERT .. ON CONFLICT (tracking_id) DO UPDATE SET ..`. -/
def upserted (set : AuditTrail → AuditTrail → AuditTrail) (excluded : AuditTrail) :
    Option AuditTrail → AuditTrail
  | none => excluded
  | some row => set row excluded

/-- The statement. -/
def execute (set : AuditTrail → AuditTrail → AuditTrail) (excluded : AuditTrail)
    (rows : AuditRows) : AuditRows :=
  rows.insert excluded.trackingId (upserted set excluded (rows.get? excluded.trackingId))

end PostgresAuditRepository

open PostgresAuditRepository in
def postgresAuditRepository : AuditRepository where
  upsertDecision event now := execute decisionSet (decisionParams event now)
  upsertApproval event now := execute approvalSet (approvalParams event now)
  upsertPayment event now := execute paymentSet (paymentParams event now)
  get trackingId rows := rows.get? trackingId

/-! ## The service -/

namespace AuditService
variable (repository : AuditRepository)

def recordDecisionCompleted (event : DecisionCompletedEvent) (now : Timestamp)
    (rows : AuditRows) : AuditRows :=
  repository.upsertDecision event now rows

def recordApprovalCompleted (event : ApprovalCompletedEvent) (now : Timestamp)
    (rows : AuditRows) : AuditRows :=
  repository.upsertApproval event now rows

def recordPaymentCompleted (event : PaymentCompletedEvent) (now : Timestamp)
    (rows : AuditRows) : AuditRows :=
  repository.upsertPayment event now rows

/-- The handler of an event, at a time. -/
def record (rows : AuditRows) : AuditEvent × Timestamp → AuditRows
  | (.decision event, now) => recordDecisionCompleted repository event now rows
  | (.approval event, now) => recordApprovalCompleted repository event now rows
  | (.payment event, now) => recordPaymentCompleted repository event now rows

def getTrail (trackingId : String) (rows : AuditRows) : Option AuditTrail := repository.get trackingId rows

/-- Deliveries one after another. -/
def recordAll (deliveries : List (AuditEvent × Timestamp)) (rows : AuditRows) : AuditRows :=
  deliveries.foldl (record repository) rows

end AuditService

end ApprovalFlow
