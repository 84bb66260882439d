import ApprovalFlow.Numeric.Arith

/-!
# The shared contracts

The shapes the services exchange: invoices, the agent's recommendation, the router's decision, and the
events of the topics `invoice.submitted`, `decision.completed`, `approval.completed` and
`payment.completed`. What the contract checks of a field is a field here (`Invoice.currency_ok`,
`Recommendation.confidence_ok`), so a value that fails it cannot be built.
-/

namespace ApprovalFlow
open Numeric

inductive Category
  | meals
  | travel
  | saas
  | hardware
  | other
  deriving DecidableEq, Repr

/-- The value of the enumeration, as JSON has it. -/
def Category.value : Category → String
  | meals => "meals"
  | travel => "travel"
  | saas => "saas"
  | hardware => "hardware"
  | other => "other"

inductive RecommendationType
  | approve
  | escalate
  | reject
  deriving DecidableEq, Repr

inductive Route
  | autoApprove
  | humanReview
  | reject
  | duplicate
  deriving DecidableEq, Repr

/-- The value of the enumeration. -/
def Route.value : Route → String
  | autoApprove => "auto_approve"
  | humanReview => "human_review"
  | reject => "reject"
  | duplicate => "duplicate"

theorem Route.value_inj {a b : Route} : a.value = b.value ↔ a = b := by
  cases a <;> cases b <;> decide

structure LineItem where
  description : String
  quantity : Decimal
  unitPrice : Decimal
  deriving DecidableEq

structure Date where
  year : Nat
  month : Nat
  day : Nat
  deriving DecidableEq

/-- `^[A-Z]{3}$`. -/
def isCurrency (s : String) : Bool := s.toList.length == 3 && s.toList.all fun c => 'A' ≤ c && c ≤ 'Z'

structure Invoice where
  id : String
  submitter : String
  department : String
  vendor : String
  vendorKnown : Bool
  invoiceNumber : String
  currency : String
  category : Category
  attendees : Option Int
  lineItems : List LineItem
  taxAmount : Decimal
  total : Decimal
  receiptPresent : Bool
  date : Date
  notes : Option String
  currency_ok : isCurrency currency = true := by decide
  deriving DecidableEq

/-- Agent output, advisory only. -/
structure Recommendation where
  recommendation : RecommendationType
  confidence : PyFloat
  citedRules : List String
  reasoning : String
  confidence_ok : PyFloat.le .zero confidence = true ∧ PyFloat.le confidence .one = true
  deriving DecidableEq

/-- Router output. -/
structure Decision where
  route : Route
  reason : String
  triggeredRules : List String
  correlationId : String
  deriving DecidableEq, Repr

structure DecisionOutcome where
  decision : Decision
  recommendation : Option Recommendation
  deriving DecidableEq

structure DecisionCompletedEvent where
  invoice : Invoice
  decision : Decision
  recommendation : Option Recommendation
  deriving DecidableEq

inductive ApprovalResolution
  | approved
  | rejected
  deriving DecidableEq, Repr

structure ApprovalCompletedEvent where
  invoice : Invoice
  decision : Decision
  resolution : ApprovalResolution
  deriving DecidableEq

inductive PaymentResolution
  | completed
  | failed
  deriving DecidableEq, Repr

structure PaymentCompletedEvent where
  invoice : Invoice
  decision : Decision
  resolution : PaymentResolution
  reason : String
  deriving DecidableEq

structure InvoiceSubmittedEvent where
  invoice : Invoice
  correlationId : String
  deriving DecidableEq

/-- The DUPLICATE decision that the router's gate 1 and Intake's short-circuit share. -/
def buildDuplicateDecision (correlationId : String) : Decision where
  route := .duplicate
  reason := "Duplicate of an already-processed invoice (same vendor, invoice number, and total)."
  triggeredRules := ["GLOBAL-DUP"]
  correlationId := correlationId

/-- GLOBAL-DUP: vendor, invoice number and total. -/
def computeDedupKey (invoice : Invoice) : String :=
  invoice.vendor ++ "|" ++ invoice.invoiceNumber ++ "|" ++ invoice.total.toString

/-- A laptop for 100 dollars. -/
def laptop : Invoice where
  id := "INV-1"
  submitter := "dana"
  department := "engineering"
  vendor := "Acme"
  vendorKnown := true
  invoiceNumber := "A-1"
  currency := "USD"
  category := .hardware
  attendees := none
  lineItems := [⟨"laptop", .ofInt 1, .ofInt 100⟩]
  taxAmount := .zero
  total := .ofInt 100
  receiptPresent := true
  date := ⟨2026, 1, 5⟩
  notes := none

end ApprovalFlow
