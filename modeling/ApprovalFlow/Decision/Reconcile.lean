import ApprovalFlow.Decision.Policy
import ApprovalFlow.Numeric.Sums

/-!
# The reconciliation in rounded arithmetic

* `Invoice.drift`: what rounding adds to the sum of an invoice, none where a product or a partial sum
  overflows.
* `mathReconciles_eq`: the check compares the drifted sum; `mathReconciles_exact_iff`: when it answers as
  the exact sum does.
* `routeDecision_returns_iff`: routing traps exactly where the sum overflows.
-/

namespace ApprovalFlow
open Numeric

/-- The exact value of line items and tax. -/
def Invoice.sumValue (invoice : Invoice) : ℚ := invoice.itemsValue + invoice.taxAmount.toRat

/-- What rounding adds to the sum: the errors of the products and of the partial sums. -/
def Invoice.drift (rnd : Rounding) (invoice : Invoice) : Option ℚ := do
  let δ ← rnd.dotDrift 0 0 (invoice.lineItems.map fun item => (item.quantity.toRat, item.unitPrice.toRat))
  let ε ← rnd.err (invoice.itemsValue + δ + invoice.taxAmount.toRat)
  return δ + ε

namespace Router
variable {ctx : Context} {invoice : Invoice} {recommendation : Option Recommendation} {isDuplicate : Bool}
  {thresholds : AutonomyThresholds} {correlationId : String}

theorem lineItemsTotal_value (ctx : Context) (invoice : Invoice) :
    (lineItemsTotal (.decimal ctx) invoice).toOption.map Decimal.toRat =
    (ctx.rounding.dotDrift 0 0 (invoice.lineItems.map fun item =>
      (item.quantity.toRat, item.unitPrice.toRat))).map (invoice.itemsValue + ·) := by
  rw [lineItemsTotal_eq]
  have h := @Rounding.dot_value ctx.rounding invoice.structural.amounts .zero 0 0 (by simp)
  unfold Invoice.structural at h
  simp only [List.map_map, zero_add] at h
  exact h

theorem mathReconciles_eq (ctx : Context) (invoice : Invoice) :
    (mathReconciles (.decimal ctx) invoice).toOption =
    (invoice.drift ctx.rounding).map fun δ => decide (invoice.sumValue + δ = invoice.total.toRat) := by
  have hitems := lineItemsTotal_value ctx invoice
  unfold mathReconciles Invoice.drift Invoice.sumValue
  cases hi : lineItemsTotal (.decimal ctx) invoice with
  | error e =>
    rw [hi] at hitems
    rw [Option.map_eq_none_iff.mp hitems.symm]
    rfl
  | ok items =>
    rw [hi] at hitems
    obtain ⟨δ, hδ, hvalue⟩ := Option.map_eq_some_iff.mp hitems.symm
    rw [hδ]
    show (((ctx.rounding.add items invoice.taxAmount).bind fun sum =>
        .ok (sum.same invoice.total)).toOption) =
      ((ctx.rounding.err (invoice.itemsValue + δ + invoice.taxAmount.toRat)).bind fun ε =>
        some (δ + ε)).map _
    rw [hvalue]
    cases hsum : ctx.rounding.add items invoice.taxAmount with
    | error e =>
      rw [Rounding.err_add_error hsum]
      rfl
    | ok sum =>
      rw [Rounding.err_add_ok hsum]
      show some (sum.same invoice.total) = some (decide _)
      congr 1
      rw [Bool.eq_iff_iff, decide_eq_true_iff, Decimal.same_iff, ← hvalue]
      exact Eq.congr (by ring) rfl

theorem mathReconciles_of_drift {δ : ℚ} (h : invoice.drift ctx.rounding = some δ) :
    mathReconciles (.decimal ctx) invoice = .ok (decide (invoice.sumValue + δ = invoice.total.toRat)) := by
  have heq := mathReconciles_eq ctx invoice
  rw [h] at heq
  cases hm : mathReconciles (.decimal ctx) invoice with
  | error e => rw [hm] at heq; cases heq
  | ok b => rw [hm] at heq; exact congrArg Except.ok (Option.some.inj heq)

theorem mathReconciles_of_overflow (h : invoice.drift ctx.rounding = none) :
    ∃ signal, mathReconciles (.decimal ctx) invoice = .error signal := by
  have heq := mathReconciles_eq ctx invoice
  rw [h] at heq
  cases hm : mathReconciles (.decimal ctx) invoice with
  | error e => exact ⟨e, rfl⟩
  | ok b => rw [hm] at heq; cases heq

/-- The drift leads a sum neither away from the total nor to it: it is zero, or the sum misses the total,
and by something else. -/
def DriftHarmless (gap δ : ℚ) : Prop := δ = 0 ∨ gap ≠ 0 ∧ gap ≠ δ

theorem driftHarmless_iff {sum total δ : ℚ} :
    (sum + δ = total ↔ sum = total) ↔ DriftHarmless (total - sum) δ := by
  unfold DriftHarmless
  constructor
  · intro h
    by_cases h0 : total - sum = 0
    · left
      have := h.mpr (by linarith)
      linarith
    · right
      refine ⟨h0, fun hδ => h0 ?_⟩
      have := h.mp (by linarith)
      linarith
  · rintro (rfl | ⟨h0, hδ⟩)
    · rw [add_zero]
    · constructor
      · intro h
        exact absurd (by linarith) hδ
      · intro h
        exact absurd (by linarith) h0

/-- **When the check is exact**: it answers as the exact sum does exactly where nothing overflows and the
drift is harmless, and it answers that the sum reconciles exactly where it should, where the drift is
harmless or, for want of one, the sum misses the total. -/
theorem mathReconciles_exact_iff (ctx : Context) (invoice : Invoice) :
    (mathReconciles (.decimal ctx) invoice = .ok (decide (invoice.sumValue = invoice.total.toRat)) ↔
      ∃ δ, invoice.drift ctx.rounding = some δ ∧ DriftHarmless (invoice.total.toRat - invoice.sumValue) δ) ∧
    ((mathReconciles (.decimal ctx) invoice = .ok true ↔ invoice.sumValue = invoice.total.toRat) ↔
      (∀ δ, invoice.drift ctx.rounding = some δ →
        DriftHarmless (invoice.total.toRat - invoice.sumValue) δ) ∧
        (invoice.drift ctx.rounding = none → invoice.total.toRat - invoice.sumValue ≠ 0)) := by
  cases hd : invoice.drift ctx.rounding with
  | none =>
    obtain ⟨e, he⟩ := mathReconciles_of_overflow hd
    rw [he, sub_ne_zero]
    constructor
    · simp
    · simp [eq_comm]
  | some δ =>
    rw [mathReconciles_of_drift hd, Except.ok.injEq, Except.ok.injEq, decide_eq_true_iff, decide_eq_decide,
      driftHarmless_iff]
    simp

/-- A hundred and four dollars, between an entry of 1E28 dollars and its reversal. -/
def reversed (total : ℤ) : Invoice :=
  { laptop with
    lineItems := [⟨"entry", .ofInt 1, ⟨false, 1, 28⟩⟩, ⟨"laptop", .ofInt 1, .ofInt 104⟩,
      ⟨"reversal", .ofInt 1, ⟨true, 1, 28⟩⟩]
    total := .ofInt total }

/-- A total of 100 reconciles, and the exact total of 104 does not. -/
theorem reversed_reconciles :
    (mathReconciles (.decimal defaultContext) (reversed 100) = .ok true ∧
      (reversed 100).sumValue ≠ (reversed 100).total.toRat) ∧
    mathReconciles (.decimal defaultContext) (reversed 104) = .ok false ∧
      (reversed 104).sumValue = (reversed 104).total.toRat := by
  decide +kernel

/-! ## Traps -/

/-- A total that reconciles is the value of a sum, so it does not overflow. -/
theorem value_total_of_reconciles (h : mathReconciles (.decimal ctx) invoice = .ok true) :
    (ctx.value invoice.total.toRat).isSome = true := by
  unfold mathReconciles at h
  obtain ⟨items, -, h⟩ := bind_ok h
  obtain ⟨sum, hsum, h⟩ := bind_ok h
  have hsame : sum.same invoice.total = true := Except.ok.inj h
  have hadd : ctx.rounding.add items invoice.taxAmount = .ok sum := hsum
  have hvalue : ctx.value (items.toRat + invoice.taxAmount.toRat) = some sum.toRat := Rounding.add_ok hadd
  rw [← Decimal.same_iff.mp hsame, Context.value_idem hvalue]
  rfl

/-- What the cap divides is the total of a sum that reconciles. -/
theorem categoryCapViolation_ok (h : mathReconciles (.decimal ctx) invoice = .ok true) :
    ∃ cap, categoryCapViolation (.decimal ctx) invoice thresholds = .ok cap := by
  unfold categoryCapViolation
  cases invoice.category with
  | meals =>
    cases invoice.attendees with
    | none => exact ⟨_, rfl⟩
    | some n =>
      dsimp only
      split_ifs with hpos
      · have hattendees : (1 : ℚ) ≤ |(Decimal.ofInt n).toRat| := by
          rw [Decimal.toRat_ofInt, abs_of_pos (by exact_mod_cast hpos)]
          exact_mod_cast hpos
        obtain ⟨perAttendee, hdiv⟩ := Context.divide_ok hattendees (value_total_of_reconciles h)
        show ∃ cap, ((ctx.divide invoice.total (.ofInt n)).bind _) = .ok cap
        rw [hdiv]
        exact ⟨_, rfl⟩
      · exact ⟨_, rfl⟩
  | saas => exact ⟨_, rfl⟩
  | hardware => exact ⟨_, rfl⟩
  | travel => exact ⟨_, rfl⟩
  | other => exact ⟨_, rfl⟩

/-- **When routing traps**: for a duplicate never, otherwise exactly where a product or a partial sum
overflows. -/
theorem routeDecision_returns_iff (ctx : Context) (invoice : Invoice)
    (recommendation : Option Recommendation)
    (isDuplicate : Bool) (thresholds : AutonomyThresholds) (correlationId : String) :
    (∃ decision, routeDecision (.decimal ctx) invoice recommendation isDuplicate thresholds correlationId =
      .ok decision) ↔ isDuplicate = true ∨ (invoice.drift ctx.rounding).isSome = true := by
  by_cases hdup : isDuplicate = true
  · unfold routeDecision
    rw [if_pos hdup]
    exact ⟨fun _ => .inl hdup, fun _ => ⟨_, rfl⟩⟩
  cases hd : invoice.drift ctx.rounding with
  | none =>
    obtain ⟨e, he⟩ := mathReconciles_of_overflow hd
    constructor
    · rintro ⟨decision, h⟩
      unfold routeDecision at h
      rw [if_neg hdup] at h
      obtain ⟨stops, hstops, -⟩ := bind_ok h
      unfold hardStops at hstops
      rw [he] at hstops
      cases hstops
    · rintro (h | h)
      · exact absurd h hdup
      · cases h
  | some δ =>
    refine ⟨fun _ => .inr rfl, fun _ => ?_⟩
    have hmath := mathReconciles_of_drift hd
    obtain ⟨stops, hstops⟩ : ∃ stops, hardStops (.decimal ctx) invoice thresholds = .ok stops := by
      unfold hardStops
      rw [hmath]
      exact ⟨_, rfl⟩
    by_cases hnil : stops = []
    · rw [hnil] at hstops
      obtain ⟨cap, hcap⟩ :=
        @categoryCapViolation_ok ctx invoice thresholds (hardStops_nil_iff.mp hstops).math
      obtain ⟨broken, hbroken⟩ : ∃ broken, violations (.decimal ctx) invoice thresholds = .ok broken := by
        unfold violations
        rw [hcap]
        exact ⟨_, rfl⟩
      exact routeDecision_total hstops hbroken recommendation isDuplicate correlationId
    · exact routeDecision_ok_of_gated (.inr fun h => hnil (Except.ok.inj (hstops.symm.trans h)))
        (.inr ⟨stops, hstops⟩) recommendation correlationId

/-- Ten pieces at 9E999999 dollars. -/
def astronomical : Invoice := { laptop with lineItems := [⟨"laptop", .ofInt 10, ⟨false, 9, 999999⟩⟩] }

theorem astronomical_overflows :
    routeDecision (.decimal defaultContext) astronomical none false defaultThresholds "t1" =
      .error .overflow := by
  decide +kernel

end Router

end ApprovalFlow
