import ApprovalFlow.Shared.Contracts

/-!
# The decision router

Six gates in order: duplicate, hard stops, the agent's rejection, ceiling and category caps, the agent's
signal, approval.

* `AutonomyThresholds`, `defaultThresholds`: the configured limits.
* `routeDecision`: the router, for an arithmetic of the amounts; a trapped condition of the arithmetic is
  its only exception.
* `Routed`: what a decision of the router says of the gates; `routeDecision_routed`.
-/

namespace ApprovalFlow
open Numeric

structure AutonomyThresholds where
  ceiling : Decimal
  minConfidence : PyFloat
  receiptRequiredAbove : Decimal
  mealPerAttendeeCap : Decimal
  saasMonthlyCap : Decimal
  hardwareCap : Decimal
  travelManagerApprovalThreshold : Decimal
  severeViolationRules : List String
  deriving DecidableEq

/-- `DEFAULT_THRESHOLDS`. -/
def defaultThresholds : AutonomyThresholds where
  ceiling := .ofInt 250
  minConfidence := .ofFrac 8 10
  receiptRequiredAbove := .ofInt 25
  mealPerAttendeeCap := .ofInt 75
  saasMonthlyCap := .ofInt 200
  hardwareCap := .ofInt 1000
  travelManagerApprovalThreshold := .ofInt 1500
  severeViolationRules := ["MEAL-03"]

namespace Router
variable {ν : Type} (ar : Arith ν)

/-- `a > b`. -/
def exceeds (a b : Decimal) : Bool := ar.lt (ar.ofDecimal b) (ar.ofDecimal a)

/-- `_line_items_total`. -/
def lineItemsTotal (invoice : Invoice) : Except Signal ν :=
  invoice.lineItems.foldlM
    (fun acc item => do
      let amount ← ar.mul (ar.ofDecimal item.quantity) (ar.ofDecimal item.unitPrice)
      ar.add acc amount)
    (ar.ofDecimal .zero)

/-- `_math_reconciles`. -/
def mathReconciles (invoice : Invoice) : Except Signal Bool := do
  let items ← lineItemsTotal ar invoice
  let sum ← ar.add items (ar.ofDecimal invoice.taxAmount)
  return ar.eq sum (ar.ofDecimal invoice.total)

/-- `_category_cap_violation`. -/
def categoryCapViolation (invoice : Invoice) (thresholds : AutonomyThresholds) :
    Except Signal (Option String) :=
  match invoice.category with
  | .meals =>
    match invoice.attendees with
    | none => return none
    | some attendees =>
      if 0 < attendees then do
        let perAttendee ← ar.div (ar.ofDecimal invoice.total) (ar.ofDecimal (.ofInt attendees))
        return if ar.lt (ar.ofDecimal thresholds.mealPerAttendeeCap) perAttendee then some "MEAL-01"
          else none
      else return none
  | .saas => return if exceeds ar invoice.total thresholds.saasMonthlyCap then some "SAAS-01" else none
  | .hardware => return if exceeds ar invoice.total thresholds.hardwareCap then some "HW-02" else none
  | .travel =>
    return if exceeds ar invoice.total thresholds.travelManagerApprovalThreshold then some "TRAVEL-02"
      else none
  | .other => return none

/-- The hard stops of gate 2, in the order of their checks. -/
def hardStops (invoice : Invoice) (thresholds : AutonomyThresholds) : Except Signal (List String) := do
  let reconciles ← mathReconciles ar invoice
  return (if invoice.vendorKnown then [] else ["GLOBAL-VENDOR"]) ++
    (if invoice.currency = "USD" then [] else ["GLOBAL-FX"]) ++
    (if exceeds ar invoice.total thresholds.receiptRequiredAbove &&
      !invoice.receiptPresent then ["GLOBAL-RECEIPT"]
      else []) ++
    (if invoice.category = .meals ∧ invoice.attendees = none then ["MEAL-01"] else []) ++
    if reconciles then [] else ["GLOBAL-MATH"]

/-- The violations of gate 4. -/
def violations (invoice : Invoice) (thresholds : AutonomyThresholds) : Except Signal (List String) := do
  let cap ← categoryCapViolation ar invoice thresholds
  return (if exceeds ar invoice.total thresholds.ceiling then ["AUTONOMY-CEILING"] else []) ++ cap.toList

/-- The severe rules that a rejection cites. -/
def severe (recommendation : Recommendation) (thresholds : AutonomyThresholds) : List String :=
  recommendation.citedRules.filter (· ∈ thresholds.severeViolationRules)

/-- `", ".join(rules)`. -/
def joined (rules : List String) : String := ", ".intercalate rules

/-- Gate 3, for a recommendation to reject. -/
def agentReject (recommendation : Recommendation) (thresholds : AutonomyThresholds)
    (correlationId : String) : Decision :=
  if severe recommendation thresholds ≠ [] then
    ⟨.reject, "Severe policy violation: " ++ joined (severe recommendation thresholds) ++ ".",
      severe recommendation thresholds, correlationId⟩
  else
    ⟨.humanReview, "Agent recommended reject but cited no configured severe-violation rule.",
      ["AGENT-REJECT-UNVERIFIED"], correlationId⟩

/-- Gates 5 and 6. -/
def agentSignal (recommendation : Option Recommendation) (thresholds : AutonomyThresholds)
    (correlationId : String) : Decision :=
  match recommendation with
  | none => ⟨.humanReview, "No agent recommendation available.", [], correlationId⟩
  | some r =>
    if r.recommendation = .escalate then ⟨.humanReview, "Agent recommended escalation.",
      r.citedRules, correlationId⟩
    else if r.confidence.lt thresholds.minConfidence then
      ⟨.humanReview, "Agent confidence " ++ r.confidence.fixed2 ++ " is below the " ++
        thresholds.minConfidence.fixed2 ++ " threshold.", ["AUTONOMY-CONFIDENCE"], correlationId⟩
    else
      ⟨.autoApprove,
        "Within autonomy ceiling and category policy, known vendor, receipt present, high agent confidence.",
        [], correlationId⟩

/-- Gates 4 to 6. -/
def withinLimits (invoice : Invoice) (recommendation : Option Recommendation)
    (thresholds : AutonomyThresholds) (correlationId : String) : Except Signal Decision := do
  let broken ← violations ar invoice thresholds
  if broken ≠ [] then
    return ⟨.humanReview, "Amount/category policy violation(s): " ++ joined broken ++ ".",
      broken, correlationId⟩
  return agentSignal recommendation thresholds correlationId

end Router

open Router in
/-- `route_decision`. -/
def routeDecision {ν : Type} (ar : Arith ν) (invoice : Invoice) (recommendation : Option Recommendation)
    (isDuplicate : Bool) (thresholds : AutonomyThresholds) (correlationId : String) :
    Except Signal Decision :=
  if isDuplicate then return buildDuplicateDecision correlationId
  else do
    let stops ← hardStops ar invoice thresholds
    if stops ≠ [] then
      return ⟨.humanReview, "Hard stop(s) triggered: " ++ joined stops ++ ".", stops, correlationId⟩
    match recommendation with
    | some r =>
      if r.recommendation = .reject then return agentReject r thresholds correlationId
      else withinLimits ar invoice recommendation thresholds correlationId
    | none => withinLimits ar invoice none thresholds correlationId

/-! ## What a route says -/

namespace Router
variable {ν : Type} {ar : Arith ν} {invoice : Invoice} {recommendation : Option Recommendation}
    {isDuplicate : Bool}
  {thresholds : AutonomyThresholds} {correlationId : String} {decision : Decision}

/-- What a decision of the router says of the gates that it passed. -/
inductive Routed (ar : Arith ν) (invoice : Invoice) (recommendation : Option Recommendation)
    (isDuplicate : Bool) (thresholds : AutonomyThresholds) : Route → Prop
  | duplicate (h : isDuplicate = true) : Routed ar invoice recommendation isDuplicate thresholds .duplicate
  | humanReview (h : isDuplicate = false) :
    Routed ar invoice recommendation isDuplicate thresholds .humanReview
  | reject (r : Recommendation) (h : isDuplicate = false)
    (hstops : hardStops ar invoice thresholds = .ok [])
      (hr : recommendation = some r) (hreject : r.recommendation = .reject)
      (hsevere : severe r thresholds ≠ []) :
      Routed ar invoice recommendation isDuplicate thresholds .reject
  | autoApprove (r : Recommendation) (h : isDuplicate = false)
    (hstops : hardStops ar invoice thresholds = .ok [])
      (hlimits : violations ar invoice thresholds = .ok []) (hr : recommendation = some r)
      (happrove : r.recommendation = .approve)
      (hconfidence : r.confidence.lt thresholds.minConfidence = false) :
      Routed ar invoice recommendation isDuplicate thresholds .autoApprove

theorem exceeds_iff (ar : Arith ν) {a b : Decimal} : exceeds ar a b = true ↔ b.toRat < a.toRat :=
  ar.lt_ofDecimal b a

theorem withinLimits_routed
    (h : withinLimits ar invoice recommendation thresholds correlationId = .ok decision)
    (hdup : isDuplicate = false) (hstops : hardStops ar invoice thresholds = .ok [])
    (hnot : ∀ r, recommendation = some r → r.recommendation ≠ .reject) :
    decision.correlationId = correlationId ∧
      Routed ar invoice recommendation isDuplicate thresholds decision.route := by
  unfold withinLimits at h
  cases hv : violations ar invoice thresholds with
  | error e => rw [hv] at h; cases h
  | ok broken =>
    rw [hv] at h
    change (if broken ≠ [] then _ else _) = _ at h
    split_ifs at h with hb
    · cases h
      exact ⟨rfl, .humanReview hdup⟩
    · rw [not_not] at hb
      subst hb
      cases h
      cases hrec : recommendation with
      | none => exact ⟨rfl, .humanReview hdup⟩
      | some r =>
        unfold agentSignal
        dsimp only
        split_ifs with hesc hconf
        · exact ⟨rfl, .humanReview hdup⟩
        · exact ⟨rfl, .humanReview hdup⟩
        · have happrove : r.recommendation = .approve := by
            cases hkind : r.recommendation with
            | approve => rfl
            | escalate => exact absurd hkind hesc
            | reject => exact absurd hkind (hnot r hrec)
          exact ⟨rfl, .autoApprove r hdup hstops hv rfl happrove (Bool.eq_false_iff.mpr hconf)⟩

/-- **What the router decides**: the correlation id is the one it was given, and the route says what the
gates found. -/
theorem routeDecision_routed
    (h : routeDecision ar invoice recommendation isDuplicate thresholds correlationId = .ok decision) :
    decision.correlationId = correlationId ∧
      Routed ar invoice recommendation isDuplicate thresholds decision.route := by
  unfold routeDecision at h
  split_ifs at h with hdup
  · cases h
    exact ⟨rfl, .duplicate hdup⟩
  · rw [Bool.not_eq_true] at hdup
    cases hs : hardStops ar invoice thresholds with
    | error e => rw [hs] at h; cases h
    | ok stops =>
      rw [hs] at h
      change (if stops ≠ [] then _ else _) = _ at h
      split_ifs at h with hstops
      · cases h
        exact ⟨rfl, .humanReview hdup⟩
      · rw [not_not] at hstops
        subst hstops
        cases hrec : recommendation with
        | none =>
          rw [hrec] at h
          exact withinLimits_routed h hdup hs fun r hr => by cases hr
        | some r =>
          rw [hrec] at h
          dsimp only at h
          split_ifs at h with hreject
          · cases h
            unfold agentReject
            split_ifs with hsevere
            · exact ⟨rfl, .reject r hdup hs rfl hreject hsevere⟩
            · exact ⟨rfl, .humanReview hdup⟩
          · refine withinLimits_routed h hdup hs fun r' hr' => ?_
            cases hr'
            exact hreject

/-- The arithmetic of gates 2 and 4 is all that can fail. -/
theorem routeDecision_total {stops broken : List String} (hs : hardStops ar invoice thresholds = .ok stops)
    (hv : violations ar invoice thresholds = .ok broken) (recommendation : Option Recommendation)
    (isDuplicate : Bool) (correlationId : String) :
    ∃ decision, routeDecision ar invoice recommendation isDuplicate thresholds correlationId =
      .ok decision := by
  have hwithin (r : Option Recommendation) :
      ∃ decision, withinLimits ar invoice r thresholds correlationId = .ok decision := by
    unfold withinLimits
    rw [hv]
    show ∃ decision, (if broken ≠ [] then _ else _) = _
    split_ifs
    exacts [⟨_, rfl⟩, ⟨_, rfl⟩]
  unfold routeDecision
  split_ifs
  · exact ⟨_, rfl⟩
  · rw [hs]
    show ∃ decision, (if stops ≠ [] then _ else _) = _
    split_ifs
    · exact ⟨_, rfl⟩
    · cases recommendation with
      | none => exact hwithin none
      | some r =>
        show ∃ decision, (if r.recommendation = .reject then _ else _) = _
        split_ifs
        exacts [⟨_, rfl⟩, hwithin (some r)]

/-- Without a recommendation the router rejects and approves nothing. -/
theorem route_of_none
    (h : routeDecision ar invoice none isDuplicate thresholds correlationId = .ok decision) :
    decision.route = .humanReview ∨ decision.route = .duplicate := by
  have hrouted := (routeDecision_routed h).2
  cases hroute : decision.route with
  | humanReview => exact .inl rfl
  | duplicate => exact .inr rfl
  | reject => rw [hroute] at hrouted; cases hrouted with | reject r _ _ hr => cases hr
  | autoApprove => rw [hroute] at hrouted; cases hrouted with | autoApprove r _ _ _ hr => cases hr

theorem le_ceiling_of_violations (h : violations ar invoice thresholds = .ok []) :
    invoice.total.toRat ≤ thresholds.ceiling.toRat := by
  unfold violations at h
  cases hcap : categoryCapViolation ar invoice thresholds with
  | error e => rw [hcap] at h; cases h
  | ok cap =>
    rw [hcap] at h
    have hnil : (if exceeds ar invoice.total thresholds.ceiling then ["AUTONOMY-CEILING"] else []) ++
        cap.toList = [] :=
      Except.ok.inj h
    by_contra hgt
    rw [if_pos ((exceeds_iff ar).mpr (not_le.mp hgt))] at hnil
    cases hnil

/-- **The ceiling**: the router approves no amount above it. -/
theorem autoApprove_le_ceiling
    (h : routeDecision ar invoice recommendation isDuplicate thresholds correlationId = .ok decision)
    (hroute : decision.route = .autoApprove) : invoice.total.toRat ≤ thresholds.ceiling.toRat := by
  have hrouted := (routeDecision_routed h).2
  rw [hroute] at hrouted
  cases hrouted with
  | autoApprove r _ _ hlimits _ _ _ => exact le_ceiling_of_violations hlimits

end Router

end ApprovalFlow
