import ApprovalFlow.Decision.Config

/-!
# Approval against the written policy

* `autoApproves_iff`: an approval, gate by gate; `hardStops_nil_iff`, `violations_nil_iff`: the gates,
  condition by condition.
* `Stricter`, `autoApproves_antitone`: stricter thresholds approve no more.
* `PolicyApproves`: what the policy document asks of an approval; `autoApproves_iff_policy_iff`: the
  router approves exactly that, up to meals without a positive number of attendees.
-/

namespace ApprovalFlow
open Numeric

namespace Router
variable {ν : Type} {ar : Arith ν} {invoice : Invoice} {recommendation : Option Recommendation}
    {isDuplicate : Bool}
  {thresholds : AutonomyThresholds} {correlationId : String}

/-- `route_decision` returns AUTO_APPROVE. -/
def AutoApproves (ar : Arith ν) (invoice : Invoice) (recommendation : Option Recommendation)
    (isDuplicate : Bool) (thresholds : AutonomyThresholds) (correlationId : String) : Prop :=
  ∃ decision, routeDecision ar invoice recommendation isDuplicate thresholds correlationId = .ok decision ∧
    decision.route = .autoApprove

/-- **An approval**: the gates before the confidence gate pass, and the confidence is not below the
threshold. -/
theorem autoApproves_iff : AutoApproves ar invoice recommendation isDuplicate thresholds correlationId ↔
    Passes ar invoice recommendation isDuplicate thresholds ∧
      ∃ r, recommendation = some r ∧ r.confidence.lt thresholds.minConfidence = false := by
  unfold AutoApproves
  constructor
  · rintro ⟨decision, h, hroute⟩
    have hpasses := Passes.of_autoApprove h hroute
    have hdecision := Except.ok.inj (h.symm.trans hpasses.routeDecision_eq)
    rw [hdecision] at hroute
    exact ⟨hpasses, hpasses.autoApprove_iff.mp hroute⟩
  · rintro ⟨hpasses, hconfidence⟩
    exact ⟨_, hpasses.routeDecision_eq, hpasses.autoApprove_iff.mpr hconfidence⟩

/-! ## The gates, condition by condition -/

/-- No hard stop. -/
structure Unstopped (ar : Arith ν) (invoice : Invoice) (thresholds : AutonomyThresholds) : Prop where
  vendor : invoice.vendorKnown = true
  currency : invoice.currency = "USD"
  receipt : invoice.total.toRat ≤ thresholds.receiptRequiredAbove.toRat ∨ invoice.receiptPresent = true
  attendees : invoice.category = .meals → invoice.attendees ≠ none
  math : mathReconciles ar invoice = .ok true

theorem not_exceeds_iff {a b : Decimal} : exceeds ar a b = false ↔ a.toRat ≤ b.toRat := by
  rw [← Bool.not_eq_true, exceeds_iff, not_lt]

theorem ite_nil_iff {p : Prop} [Decidable p] (rule : String) : (if p then [] else [rule]) = [] ↔ p := by
  split_ifs with h <;> simp [h]

theorem ite_rule_iff {p : Prop} [Decidable p] (rule : String) : (if p then [rule] else []) = [] ↔ ¬ p := by
  split_ifs with h <;> simp [h]

theorem hardStops_nil_iff : hardStops ar invoice thresholds = .ok [] ↔ Unstopped ar invoice thresholds := by
  unfold hardStops
  cases hm : mathReconciles ar invoice with
  | error e =>
    constructor
    · intro h
      cases h
    · intro h
      have := h.math
      rw [hm] at this
      cases this
  | ok reconciles =>
    show Except.ok _ = Except.ok _ ↔ _
    rw [Except.ok.injEq]
    simp only [List.append_eq_nil_iff, ite_nil_iff, ite_rule_iff]
    constructor
    · rintro ⟨⟨⟨⟨hvendor, hcurrency⟩, hreceipt⟩, hattendees⟩, hmath⟩
      refine ⟨hvendor, hcurrency, ?_, fun hc hn => hattendees ⟨hc, hn⟩, hmath ▸ hm⟩
      rw [Bool.and_eq_true, not_and_or, Bool.not_eq_true, not_exceeds_iff] at hreceipt
      exact hreceipt.imp_right fun h => by simpa using h
    · intro h
      refine ⟨⟨⟨⟨h.vendor, h.currency⟩, ?_⟩, fun hc => h.attendees hc.1 hc.2⟩,
        Except.ok.inj (hm.symm.trans h.math)⟩
      rw [Bool.and_eq_true, not_and_or, Bool.not_eq_true, not_exceeds_iff]
      exact h.receipt.imp_right fun h => by simpa using h

theorem violations_nil_iff : violations ar invoice thresholds = .ok [] ↔
    invoice.total.toRat ≤ thresholds.ceiling.toRat ∧
      categoryCapViolation ar invoice thresholds = .ok none := by
  unfold violations
  cases hcap : categoryCapViolation ar invoice thresholds with
  | error e => exact ⟨fun h => (by cases h), fun h => (by cases h.2)⟩
  | ok cap =>
    show Except.ok _ = Except.ok _ ↔ _
    rw [Except.ok.injEq, List.append_eq_nil_iff, ite_rule_iff, Bool.not_eq_true,
      not_exceeds_iff, Except.ok.injEq]
    cases cap <;> simp

/-- No category cap is broken. -/
def WithinCap (ar : Arith ν) (invoice : Invoice) (thresholds : AutonomyThresholds) : Prop :=
  match invoice.category with
  | .meals => ∀ n, invoice.attendees = some n → 0 < n →
      ∃ perAttendee, ar.div (ar.ofDecimal invoice.total) (ar.ofDecimal (.ofInt n)) = .ok perAttendee ∧
        ar.lt (ar.ofDecimal thresholds.mealPerAttendeeCap) perAttendee = false
  | .saas => invoice.total.toRat ≤ thresholds.saasMonthlyCap.toRat
  | .hardware => invoice.total.toRat ≤ thresholds.hardwareCap.toRat
  | .travel => invoice.total.toRat ≤ thresholds.travelManagerApprovalThreshold.toRat
  | .other => True

theorem capped_none_iff {total cap : Decimal} (rule : String) :
    (pure (if exceeds ar total cap then some rule else none) : Except Signal (Option String)) = .ok none ↔
      total.toRat ≤ cap.toRat := by
  rw [← @not_exceeds_iff _ ar]
  cases exceeds ar total cap with
  | true => exact ⟨fun h => (by cases h), fun h => (by cases h)⟩
  | false => exact ⟨fun _ => rfl, fun _ => rfl⟩

theorem perAttendee_none_iff {cap : ν} {quotient : Except Signal ν} (rule : String) :
    (do let perAttendee ← quotient
        return if ar.lt cap perAttendee then some rule else none : Except Signal (Option String)) =
          .ok none ↔
      ∃ perAttendee, quotient = .ok perAttendee ∧ ar.lt cap perAttendee = false := by
  cases quotient with
  | error e => exact ⟨fun h => (by cases h), fun ⟨_, h, _⟩ => (by cases h)⟩
  | ok perAttendee =>
    show Except.ok (if ar.lt cap perAttendee then _ else _) = _ ↔ _
    cases hlt : ar.lt cap perAttendee with
    | true =>
      constructor
      · intro h
        cases h
      · rintro ⟨q, hq, h⟩
        cases hq
        rw [hlt] at h
        cases h
    | false => exact ⟨fun _ => ⟨perAttendee, rfl, hlt⟩, fun _ => rfl⟩

theorem categoryCapViolation_none_iff :
    categoryCapViolation ar invoice thresholds = .ok none ↔ WithinCap ar invoice thresholds := by
  unfold categoryCapViolation WithinCap
  cases invoice.category with
  | meals =>
    cases hn : invoice.attendees with
    | none => exact ⟨fun _ n h => (by cases h), fun _ => rfl⟩
    | some n =>
      dsimp only
      split_ifs with hpos
      · rw [perAttendee_none_iff]
        exact ⟨fun h m hm _ => Option.some.inj hm ▸ h, fun h => h n rfl hpos⟩
      · exact ⟨fun _ m hm h => absurd (Option.some.inj hm ▸ h) hpos, fun _ => rfl⟩
  | saas => exact capped_none_iff "SAAS-01"
  | hardware => exact capped_none_iff "HW-02"
  | travel => exact capped_none_iff "TRAVEL-02"
  | other => exact ⟨fun _ => trivial, fun _ => rfl⟩

/-! ## Stricter thresholds -/

/-- Every limit is at most that of `t`, and the confidence at least; the severe rules are arbitrary. -/
structure Stricter (t' t : AutonomyThresholds) : Prop where
  ceiling : t'.ceiling ≤ t.ceiling
  minConfidence : t.minConfidence.le t'.minConfidence = true
  receiptRequiredAbove : t'.receiptRequiredAbove ≤ t.receiptRequiredAbove
  mealPerAttendeeCap : t'.mealPerAttendeeCap ≤ t.mealPerAttendeeCap
  saasMonthlyCap : t'.saasMonthlyCap ≤ t.saasMonthlyCap
  hardwareCap : t'.hardwareCap ≤ t.hardwareCap
  travelManagerApprovalThreshold : t'.travelManagerApprovalThreshold ≤ t.travelManagerApprovalThreshold

/-- The recommendations are equal except in the confidence, which is at most that of `r`. -/
structure LessConfident (r' r : Recommendation) : Prop where
  recommendation : r'.recommendation = r.recommendation
  citedRules : r'.citedRules = r.citedRules
  reasoning : r'.reasoning = r.reasoning
  confidence : r'.confidence.le r.confidence = true

section Stricter
variable {ctx : Context} {t' t : AutonomyThresholds}

theorem Unstopped.mono (h : Stricter t' t) (hu : Unstopped ar invoice t') : Unstopped ar invoice t where
  vendor := hu.vendor
  currency := hu.currency
  receipt := hu.receipt.imp_left fun hle => hle.trans (Decimal.le_iff.mp h.receiptRequiredAbove)
  attendees := hu.attendees
  math := hu.math

/-- Both thresholds are compared with one quotient. -/
theorem WithinCap.mono (h : Stricter t' t) (hw : WithinCap (.decimal ctx) invoice t') :
    WithinCap (.decimal ctx) invoice t := by
  unfold WithinCap at *
  cases hc : invoice.category with
  | meals =>
    rw [hc] at hw
    intro n hn hpos
    obtain ⟨perAttendee, hdiv, hlt⟩ := hw n hn hpos
    refine ⟨perAttendee, hdiv, ?_⟩
    have hle : ¬ t'.mealPerAttendeeCap < perAttendee := of_decide_eq_false hlt
    refine decide_eq_false fun hgt => hle ?_
    exact Decimal.lt_iff.mpr ((Decimal.le_iff.mp h.mealPerAttendeeCap).trans_lt (Decimal.lt_iff.mp hgt))
  | saas => rw [hc] at hw; exact hw.trans (Decimal.le_iff.mp h.saasMonthlyCap)
  | hardware => rw [hc] at hw; exact hw.trans (Decimal.le_iff.mp h.hardwareCap)
  | travel => rw [hc] at hw; exact hw.trans (Decimal.le_iff.mp h.travelManagerApprovalThreshold)
  | other => trivial

theorem Passes.mono {r' r : Recommendation} (h : Stricter t' t) (hr : LessConfident r' r)
    (hp : Passes (.decimal ctx) invoice (some r') isDuplicate t') :
    Passes (.decimal ctx) invoice (some r) isDuplicate t := by
  obtain ⟨hceiling, hcap⟩ := violations_nil_iff.mp hp.limits
  obtain ⟨_, hrec, happrove⟩ := hp.approved
  cases hrec
  refine ⟨hp.fresh, hardStops_nil_iff.mpr ((hardStops_nil_iff.mp hp.stops).mono h),
    violations_nil_iff.mpr ⟨?_, ?_⟩, r, rfl, ?_⟩
  · exact hceiling.trans (Decimal.le_iff.mp h.ceiling)
  · exact categoryCapViolation_none_iff.mpr ((categoryCapViolation_none_iff.mp hcap).mono h)
  · rw [← hr.recommendation]
    exact happrove

/-- **Tightening the policy never creates an approval.** -/
theorem autoApproves_antitone {r' r : Recommendation} (h : Stricter t' t) (hr : LessConfident r' r)
    (happroves : AutoApproves (.decimal ctx) invoice (some r') isDuplicate t' correlationId) :
    AutoApproves (.decimal ctx) invoice (some r) isDuplicate t correlationId := by
  obtain ⟨hpasses, _, hrec, hlt⟩ := autoApproves_iff.mp happroves
  cases hrec
  refine autoApproves_iff.mpr ⟨hpasses.mono h hr, r, rfl, PyFloat.not_lt_of_le ?_⟩
  have hmin : t'.minConfidence ≠ .nan := by
    intro hnan
    have := h.minConfidence
    rw [hnan, PyFloat.le_nan] at this
    cases this
  have hle : t'.minConfidence.le r'.confidence = true := PyFloat.le_of_not_lt r'.confidence_ne_nan hmin hlt
  exact PyFloat.le_trans h.minConfidence (PyFloat.le_trans hle hr.confidence)

end Stricter

/-- A ceiling of 200, and no severe rules. -/
def tightened : AutonomyThresholds :=
  { defaultThresholds with ceiling := .ofInt 200, severeViolationRules := [] }

/-- An approval with a confidence of 0.9. -/
def lessSure : Recommendation :=
  { PlainJson.recommended .approve with confidence := .ofFrac 9 10, confidence_ok := by decide +kernel }

/-- The laptop is approved with 0.9 and `tightened`, and so with 0.95 and the defaults. -/
theorem laptop_approved_under_defaults :
    AutoApproves (.decimal defaultContext) laptop (some (PlainJson.recommended .approve)) false
      defaultThresholds "t1" := by
  have hstricter : Stricter tightened defaultThresholds :=
    ⟨by decide, by decide +kernel, by decide, by decide, by decide, by decide, by decide⟩
  have hle : (PyFloat.ofFrac 9 10).le (PyFloat.ofFrac 95 100) = true := by decide +kernel
  have hless : LessConfident lessSure (PlainJson.recommended .approve) := 
    ⟨rfl, rfl, rfl, by dsimp only [lessSure, PlainJson.recommended]; exact hle⟩
  exact autoApproves_antitone hstricter hless ⟨⟨.autoApprove,
    "Within autonomy ceiling and category policy, known vendor, receipt present, high agent confidence.", [], "t1"⟩,
    by decide +kernel, rfl⟩

/-! ## The written policy -/

end Router

/-- The exact value of the line items. -/
def Invoice.itemsValue (invoice : Invoice) : ℚ :=
  (invoice.lineItems.map fun item => item.quantity.toRat * item.unitPrice.toRat).sum

/-- The limit of the category, for meals a limit per attendee. -/
def CategoryLimit (invoice : Invoice) (thresholds : AutonomyThresholds) : Prop :=
  match invoice.category with
  | .meals =>
    ∃ n, invoice.attendees = some n ∧ invoice.total.toRat ≤ n * thresholds.mealPerAttendeeCap.toRat
  | .saas => invoice.total.toRat ≤ thresholds.saasMonthlyCap.toRat
  | .hardware => invoice.total.toRat ≤ thresholds.hardwareCap.toRat
  | .travel => invoice.total.toRat ≤ thresholds.travelManagerApprovalThreshold.toRat
  | .other => True

/-- What the policy asks of every approval, whatever the category. -/
structure CommonConditions (invoice : Invoice) (recommendation : Option Recommendation) (isDuplicate : Bool)
    (thresholds : AutonomyThresholds) : Prop where
  fresh : isDuplicate = false
  vendor : invoice.vendorKnown = true
  currency : invoice.currency = "USD"
  receipt : invoice.total.toRat ≤ thresholds.receiptRequiredAbove.toRat ∨ invoice.receiptPresent = true
  math : invoice.itemsValue + invoice.taxAmount.toRat = invoice.total.toRat
  ceiling : invoice.total.toRat ≤ thresholds.ceiling.toRat
  agent : ∃ r, recommendation = some r ∧ r.recommendation = .approve ∧
    thresholds.minConfidence.le r.confidence = true

/-- `auto_approve` as the policy document has it. -/
def PolicyApproves (invoice : Invoice) (recommendation : Option Recommendation) (isDuplicate : Bool)
    (thresholds : AutonomyThresholds) : Prop :=
  CommonConditions invoice recommendation isDuplicate thresholds ∧ CategoryLimit invoice thresholds

/-- A meal for no attendees, or fewer, above the limit for that many. -/
def Uncounted (invoice : Invoice) (thresholds : AutonomyThresholds) : Prop :=
  invoice.category = .meals ∧
    ∃ n ≤ 0, invoice.attendees = some n ∧ n * thresholds.mealPerAttendeeCap.toRat < invoice.total.toRat

namespace Router
variable {invoice : Invoice} {recommendation : Option Recommendation} {isDuplicate : Bool}
  {thresholds : AutonomyThresholds} {correlationId : String}

theorem foldlM_exact (items : List LineItem) (acc : ℚ) :
    items.foldlM (fun acc item => do
      let amount ← Arith.exact.mul (Arith.exact.ofDecimal item.quantity)
          (Arith.exact.ofDecimal item.unitPrice)
      Arith.exact.add acc amount) acc =
      (.ok (acc + (items.map fun item => item.quantity.toRat * item.unitPrice.toRat).sum) : Except
        Signal ℚ) := by
  induction items generalizing acc with
  | nil => simp; rfl
  | cons item items ih =>
    rw [List.foldlM_cons]
    change items.foldlM _ (acc + item.quantity.toRat * item.unitPrice.toRat) = _
    rw [ih, List.map_cons, List.sum_cons, add_assoc]

theorem mathReconciles_exact :
    mathReconciles .exact invoice =
      .ok (decide (invoice.itemsValue + invoice.taxAmount.toRat = invoice.total.toRat)) := by
  have hitems : lineItemsTotal Arith.exact invoice = .ok invoice.itemsValue := by
    unfold lineItemsTotal
    rw [foldlM_exact]
    show Except.ok (Decimal.zero.toRat + _) = _
    rw [Decimal.toRat_zero, zero_add]
    rfl
  unfold mathReconciles
  rw [hitems]
  rfl

theorem perAttendee_exact_iff {total cap : Decimal} {n : ℤ} (hpos : 0 < n) :
    (∃ perAttendee, Arith.exact.div (Arith.exact.ofDecimal total) (Arith.exact.ofDecimal (.ofInt n)) =
      .ok perAttendee ∧
      Arith.exact.lt (Arith.exact.ofDecimal cap) perAttendee = false) ↔ total.toRat ≤ n * cap.toRat := by
  have hpos' : (0 : ℚ) < n := by exact_mod_cast hpos
  have hdiv : Arith.exact.div (Arith.exact.ofDecimal total) (Arith.exact.ofDecimal (.ofInt n)) =
      .ok (total.toRat / n) := by
    show (if (Decimal.ofInt n).toRat = 0 then _ else _) = _
    rw [Decimal.toRat_ofInt, if_neg hpos'.ne']
    show Except.ok (total.toRat / (Decimal.ofInt n).toRat) = _
    rw [Decimal.toRat_ofInt]
  have hlt : Arith.exact.lt (Arith.exact.ofDecimal cap) (total.toRat / n) = false ↔
      total.toRat ≤ n * cap.toRat := by
    show decide (cap.toRat < total.toRat / n) = false ↔ _
    rw [decide_eq_false_iff_not, not_lt, div_le_iff₀ hpos', mul_comm]
  rw [hdiv, ← hlt]
  constructor
  · rintro ⟨q, hq, h⟩
    cases hq
    exact h
  · intro h
    exact ⟨_, rfl, h⟩

/-- A counted meal: the cap per attendee is the limit of the policy. -/
theorem counted_iff (hcount : ¬ Uncounted invoice thresholds) :
    ((invoice.category = .meals → invoice.attendees ≠ none) ∧ WithinCap .exact invoice thresholds) ↔
      CategoryLimit invoice thresholds := by
  unfold Uncounted at hcount
  unfold WithinCap CategoryLimit
  cases hc : invoice.category with
  | meals =>
    cases hn : invoice.attendees with
    | none => simp
    | some n =>
      rcases le_or_gt n 0 with hle | hpos
      · have hlimit : invoice.total.toRat ≤ n * thresholds.mealPerAttendeeCap.toRat :=
          not_lt.mp fun hlt => hcount ⟨hc, n, hle, hn, hlt⟩
        constructor
        · intro _
          exact ⟨n, rfl, hlimit⟩
        · intro _
          refine ⟨by simp, fun m hm hpos => ?_⟩
          cases hm
          omega
      · constructor
        · intro h
          exact ⟨n, rfl, (perAttendee_exact_iff hpos).mp (h.2 n rfl hpos)⟩
        · rintro ⟨m, hm, hlimit⟩
          cases hm
          refine ⟨by simp, fun k hk hpos => ?_⟩
          cases hk
          exact (perAttendee_exact_iff hpos).mpr hlimit
  | saas => simp
  | hardware => simp
  | travel => simp
  | other => simp

theorem uncounted_iff (hcount : Uncounted invoice thresholds) :
    ((invoice.category = .meals → invoice.attendees ≠ none) ∧ WithinCap .exact invoice thresholds) ∧
      ¬ CategoryLimit invoice thresholds := by
  obtain ⟨hc, n, hle, hn, hlt⟩ := hcount
  unfold WithinCap CategoryLimit
  rw [hc, hn]
  refine ⟨⟨by simp, fun m hm hpos => ?_⟩, ?_⟩
  · cases hm
    omega
  · rintro ⟨m, hm, hlimit⟩
    cases hm
    exact absurd hlimit (not_le.mpr hlt)

theorem confidence_iff (hmin : thresholds.minConfidence ≠ .nan) (r : Recommendation) :
    r.confidence.lt thresholds.minConfidence = false ↔ thresholds.minConfidence.le r.confidence = true :=
  ⟨PyFloat.le_of_not_lt r.confidence_ne_nan hmin, PyFloat.not_lt_of_le⟩

/-- **An approval in exact arithmetic**: the common conditions, and the cap of the category. -/
theorem autoApproves_exact_iff (hmin : thresholds.minConfidence ≠ .nan) :
    AutoApproves .exact invoice recommendation isDuplicate thresholds correlationId ↔
      CommonConditions invoice recommendation isDuplicate thresholds ∧
        (invoice.category = .meals → invoice.attendees ≠ none) ∧ WithinCap .exact invoice thresholds := by
  rw [autoApproves_iff]
  constructor
  · rintro ⟨hpasses, r, hrec, hlt⟩
    obtain ⟨hceiling, hcap⟩ := violations_nil_iff.mp hpasses.limits
    have hstops := hardStops_nil_iff.mp hpasses.stops
    have hmath := Except.ok.inj (mathReconciles_exact.symm.trans hstops.math)
    obtain ⟨r', hrec', happrove⟩ := hpasses.approved
    cases hrec.symm.trans hrec'
    exact ⟨⟨hpasses.fresh, hstops.vendor, hstops.currency, hstops.receipt,
      of_decide_eq_true hmath, hceiling, r, hrec,
      happrove, (confidence_iff hmin r).mp hlt⟩, hstops.attendees, categoryCapViolation_none_iff.mp hcap⟩
  · rintro ⟨hcommon, hattendees, hcap⟩
    obtain ⟨r, hrec, happrove, hle⟩ := hcommon.agent
    have hmath : mathReconciles .exact invoice = .ok true := by
      rw [mathReconciles_exact, decide_eq_true hcommon.math]
    exact ⟨⟨hcommon.fresh,
      hardStops_nil_iff.mpr ⟨hcommon.vendor, hcommon.currency, hcommon.receipt, hattendees, hmath⟩,
      violations_nil_iff.mpr ⟨hcommon.ceiling, categoryCapViolation_none_iff.mpr hcap⟩, r,
        hrec, happrove⟩, r, hrec,
      (confidence_iff hmin r).mpr hle⟩

/-- **The router approves what the policy approves, except for uncounted meals**: exactly where a meal
for no attendees is above its limit, and meets all common conditions, they differ. -/
theorem autoApproves_iff_policy_iff (invoice : Invoice) (recommendation : Option Recommendation)
    (isDuplicate : Bool)
    (thresholds : AutonomyThresholds) (correlationId : String) (hmin : thresholds.minConfidence ≠ .nan) :
    (AutoApproves .exact invoice recommendation isDuplicate thresholds correlationId ↔
      PolicyApproves invoice recommendation isDuplicate thresholds) ↔
    ¬ (CommonConditions invoice recommendation isDuplicate thresholds ∧ Uncounted invoice thresholds) := by
  rw [autoApproves_exact_iff hmin, PolicyApproves]
  by_cases hcount : Uncounted invoice thresholds
  · obtain ⟨hcap, hlimit⟩ := uncounted_iff hcount
    constructor
    · rintro h ⟨hcommon, -⟩
      exact hlimit (h.mp ⟨hcommon, hcap⟩).2
    · intro h
      exact ⟨fun hr => absurd ⟨hr.1, hcount⟩ h, fun hp => absurd ⟨hp.1, hcount⟩ h⟩
  · rw [counted_iff hcount]
    exact ⟨fun _ h => hcount h.2, fun _ => Iff.rfl⟩

/-- A dinner for 200 dollars. -/
def dinner (attendees : Int) : Invoice :=
  { laptop with
    category := .meals
    attendees := some attendees
    lineItems := [⟨"dinner", .ofInt 1, .ofInt 200⟩]
    total := .ofInt 200 }

/-- For three the dinner is within the policy, and the router approves it. -/
theorem dinner_for_three_approved :
    AutoApproves .exact (dinner 3) (some (PlainJson.recommended .approve)) false
      defaultThresholds "t2" := by
  have hcount : ¬ Uncounted (dinner 3) defaultThresholds := by
    rintro ⟨-, n, hle, hn, -⟩
    cases hn
    omega
  have hpolicy :=
    (autoApproves_iff_policy_iff (dinner 3) (some (PlainJson.recommended .approve)) false defaultThresholds
    "t2" (by decide +kernel)).mpr fun h => hcount h.2
  refine hpolicy.mpr ⟨⟨rfl, rfl, rfl, .inr rfl,
    by decide +kernel, by decide +kernel, _, rfl, rfl, by decide +kernel⟩,
    3, rfl, by decide +kernel⟩

/-- For nobody it is above the limit, and the router approves it all the same. -/
theorem dinner_for_nobody_approved :
    AutoApproves .exact (dinner 0) (some (PlainJson.recommended .approve)) false defaultThresholds "t2" ∧
      ¬ PolicyApproves (dinner 0) (some (PlainJson.recommended .approve)) false defaultThresholds := by
  constructor
  · exact ⟨⟨.autoApprove,
      "Within autonomy ceiling and category policy, known vendor, receipt present, high agent confidence.", [], "t2"⟩,
      by decide +kernel, rfl⟩
  · rintro ⟨-, n, hn, hlimit⟩
    cases hn
    revert hlimit
    decide +kernel

end Router

end ApprovalFlow
