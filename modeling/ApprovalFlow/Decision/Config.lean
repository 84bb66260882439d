import ApprovalFlow.Decision.Gates
import ApprovalFlow.Numeric.Text

/-!
# The configuration

The thresholds that the router enforces, as the configuration store has them.

* `mergeThresholds`: the texts of the store over the fallback, field by field;
  `mergeThresholds_minConfidence`.
* `loadPolicyAndThresholds`: the startup.
* `Passes`: the gates before the confidence gate; `autoApprove_iff`: with them, the confidence decides.
* `approved_within_gates_iff`: an approval is within the configured confidence and ceiling exactly when
  the confidence does not read as NaN.
-/

namespace ApprovalFlow
open Numeric Async

/-- `raw: dict[str, str]`. -/
abbrev RawConfig := String → Option String

/-- `_parse_decimal`, whose comparison with the fallback raises for a signaling NaN. -/
def parseDecimal (field : String) (raw : RawConfig) (fallback : Decimal) : Except Exn DecimalValue :=
  match raw field with
  | none => .ok (.finite fallback)
  | some text =>
    match DecimalValue.ofText text with
    | none => .ok (.finite fallback)
    | some (.nan true) => .error (.arithmetic .invalidOperation)
    | some value => .ok value

/-- A `Decimal` field of a contract model is finite. -/
def validDecimal : DecimalValue → Except Exn Decimal
  | .finite d => .ok d
  | _ => .error .validationError

/-- The confidence that the router compares with. -/
def mergeMinConfidence (raw : RawConfig) (fallback : PyFloat) : PyFloat :=
  match raw "min_confidence" with
  | none => fallback
  | some text => (PyFloat.ofText text).getD fallback

/-- `frozenset(v.strip() for v in text.split(",") if v.strip())`. -/
def parseRules (text : String) : List String :=
  (((text.toList.splitOn ',').map (Text.strip Text.isSpace)).filter (· ≠ [])).map String.ofList

def mergeThresholds (raw : RawConfig) (fallback : AutonomyThresholds) : Except Exn AutonomyThresholds := do
  let ceiling ← parseDecimal "ceiling" raw fallback.ceiling
  let receiptRequiredAbove ← parseDecimal "receipt_required_above" raw fallback.receiptRequiredAbove
  let mealPerAttendeeCap ← parseDecimal "meal_per_attendee_cap" raw fallback.mealPerAttendeeCap
  let saasMonthlyCap ← parseDecimal "saas_monthly_cap" raw fallback.saasMonthlyCap
  let hardwareCap ← parseDecimal "hardware_cap" raw fallback.hardwareCap
  let travelManagerApprovalThreshold ←
    parseDecimal "travel_manager_approval_threshold" raw fallback.travelManagerApprovalThreshold
  return {
    ceiling := ← validDecimal ceiling
    minConfidence := mergeMinConfidence raw fallback.minConfidence
    receiptRequiredAbove := ← validDecimal receiptRequiredAbove
    mealPerAttendeeCap := ← validDecimal mealPerAttendeeCap
    saasMonthlyCap := ← validDecimal saasMonthlyCap
    hardwareCap := ← validDecimal hardwareCap
    travelManagerApprovalThreshold := ← validDecimal travelManagerApprovalThreshold
    severeViolationRules :=
      ((raw "severe_violation_rules").map parseRules).getD fallback.severeViolationRules }

/-- `_fetch_raw_config`: an unreachable store is an empty one. -/
def fetchRawConfig {σ : Sig} (getConfiguration : Prog σ Exn RawConfig) : Prog σ Exn RawConfig :=
  getConfiguration.handle fun
    | .rpcError _ | .timeoutError => .ret fun _ => none
    | e => .raise e

def loadPolicyAndThresholds {σ : Sig} (getConfiguration : Prog σ Exn RawConfig) (policyFallback : String)
    (thresholdsFallback : AutonomyThresholds) : Prog σ Exn (String × AutonomyThresholds) := do
  let raw ← fetchRawConfig getConfiguration
  let thresholds ← Prog.ofExcept (mergeThresholds raw thresholdsFallback)
  return ((raw "policy_text").getD policyFallback, thresholds)

/-! ## The effective confidence -/

section Merge
variable {raw : RawConfig} {fallback thresholds : AutonomyThresholds}

theorem mergeThresholds_minConfidence (h : mergeThresholds raw fallback = .ok thresholds) :
    thresholds.minConfidence = mergeMinConfidence raw fallback.minConfidence := by
  unfold mergeThresholds at h
  -- six fields are parsed, then six validated
  iterate 12 obtain ⟨_, -, h⟩ := bind_ok h
  cases h
  rfl

/-- The configured confidence reads as NaN. -/
def ReadsNan (raw : RawConfig) : Prop := (raw "min_confidence").bind PyFloat.ofText = some .nan

instance (raw : RawConfig) : Decidable (ReadsNan raw) := inferInstanceAs (Decidable (_ = _))

theorem minConfidence_nan_iff (h : mergeThresholds raw fallback = .ok thresholds)
    (hf : fallback.minConfidence ≠ .nan) : thresholds.minConfidence = .nan ↔ ReadsNan raw := by
  rw [mergeThresholds_minConfidence h, mergeMinConfidence, ReadsNan]
  cases raw "min_confidence" with
  | none => exact ⟨fun h => absurd h hf, fun h => (by cases h)⟩
  | some text =>
    show (PyFloat.ofText text).getD fallback.minConfidence = .nan ↔ PyFloat.ofText text = some .nan
    cases PyFloat.ofText text with
    | none => exact ⟨fun h => absurd h hf, fun h => (by cases h)⟩
    | some x => exact ⟨congrArg some, Option.some.inj⟩

end Merge

/-! ## The gates before the confidence gate -/

namespace Router
variable {ν : Type} {ar : Arith ν} {invoice : Invoice} {recommendation : Option Recommendation}
    {isDuplicate : Bool}
  {thresholds : AutonomyThresholds} {correlationId : String} {decision : Decision}

/-- No gate before the confidence gate stops the invoice, and the agent approves it. -/
structure Passes (ar : Arith ν) (invoice : Invoice) (recommendation : Option Recommendation)
    (isDuplicate : Bool) (thresholds : AutonomyThresholds) : Prop where
  fresh : isDuplicate = false
  stops : hardStops ar invoice thresholds = .ok []
  limits : violations ar invoice thresholds = .ok []
  approved : ∃ r, recommendation = some r ∧ r.recommendation = .approve

theorem Passes.of_autoApprove
    (h : routeDecision ar invoice recommendation isDuplicate thresholds correlationId = .ok decision)
    (hroute : decision.route = .autoApprove) : Passes ar invoice recommendation isDuplicate thresholds := by
  have hrouted := (routeDecision_routed h).2
  rw [hroute] at hrouted
  cases hrouted with
  | autoApprove r hdup hstops hlimits hr happrove _ => exact ⟨hdup, hstops, hlimits, r, hr, happrove⟩

theorem Passes.routeDecision_eq (h : Passes ar invoice recommendation isDuplicate thresholds) :
    routeDecision ar invoice recommendation isDuplicate thresholds correlationId =
      .ok (agentSignal recommendation thresholds correlationId) := by
  obtain ⟨r, rfl, happrove⟩ := h.approved
  unfold routeDecision withinLimits
  rw [h.fresh, h.stops, h.limits]
  show (if r.recommendation = .reject then _ else _) = _
  rw [if_neg (by rw [happrove]; decide)]
  rfl

/-- **After the other gates the confidence decides**, by a comparison that NaN fails. -/
theorem Passes.autoApprove_iff (h : Passes ar invoice recommendation isDuplicate thresholds) :
    (agentSignal recommendation thresholds correlationId).route = .autoApprove ↔
      ∃ r, recommendation = some r ∧ r.confidence.lt thresholds.minConfidence = false := by
  obtain ⟨r, rfl, happrove⟩ := h.approved
  unfold agentSignal
  dsimp only
  rw [if_neg (by rw [happrove]; decide)]
  cases hlt : r.confidence.lt thresholds.minConfidence with
  | true => exact ⟨fun h => (by cases h), fun ⟨r', hr, h'⟩ => (by cases hr; rw [hlt] at h'; cases h')⟩
  | false => exact ⟨fun _ => ⟨r, rfl, hlt⟩, fun _ => rfl⟩

end Router

theorem Recommendation.confidence_ne_nan (r : Recommendation) : r.confidence ≠ .nan := by
  intro h
  have := r.confidence_ok.2
  rw [h] at this
  cases this

/-! ## The gates of an approval -/

/-- The recommendation meets the configured confidence and the invoice the configured ceiling. -/
def WithinGates (thresholds : AutonomyThresholds) (invoice : Invoice) (outcome : DecisionOutcome) : Prop :=
  (∃ r, outcome.recommendation = some r ∧ thresholds.minConfidence.le r.confidence = true) ∧
    invoice.total.toRat ≤ thresholds.ceiling.toRat

namespace Decider
variable {σ : Sig} {ν : Type}

/-- **An approval is within the configured gates exactly when the confidence does not read as NaN**,
unless an earlier gate stops the invoice. -/
theorem approved_within_gates_iff (decider : Decider σ ν) (raw : RawConfig)
    (hstart : mergeThresholds raw defaultThresholds = .ok decider.thresholds) (provider : LLMProvider σ)
    (invoice : Invoice) (correlationId : String) (isDuplicate : Bool) (reply : Outcome Exn String)
    (result : Outcome Exn DecisionOutcome) (r : Option Recommendation) (hr : Answers decider.json reply r)
    (h : decider.Decided provider invoice correlationId isDuplicate reply result) :
    (∀ outcome, result = .returned outcome → outcome.decision.route = .autoApprove →
      WithinGates decider.thresholds invoice outcome) ↔
    (Router.Passes decider.arith invoice r isDuplicate decider.thresholds → ¬ ReadsNan raw) := by
  have hnan := minConfidence_nan_iff hstart (by decide +kernel)
  have hresult := h.result_eq hr
  constructor
  · intro hwithin hpasses hreads
    have hmin := hnan.mpr hreads
    obtain ⟨rec, hrec, -⟩ := hpasses.approved
    have happroved := (@Router.Passes.autoApprove_iff _ _ _ _ _ _ correlationId hpasses).mpr
      ⟨rec, hrec, by rw [hmin, PyFloat.lt_nan]⟩
    rw [hpasses.routeDecision_eq] at hresult
    obtain ⟨⟨r', -, hle⟩, -⟩ := hwithin _ hresult happroved
    rw [hmin, PyFloat.nan_le] at hle
    cases hle
  · intro hcond outcome hreturned hroute
    rw [hresult] at hreturned
    obtain ⟨hrec, hrouted⟩ := outcome_of_returned hreturned
    subst hrec
    have hpasses := Router.Passes.of_autoApprove hrouted hroute
    refine ⟨?_, Router.autoApprove_le_ceiling hrouted hroute⟩
    have hdecision : outcome.decision =
        Router.agentSignal outcome.recommendation decider.thresholds correlationId :=
      Except.ok.inj (hrouted.symm.trans hpasses.routeDecision_eq)
    rw [hdecision] at hroute
    obtain ⟨rec, hrec, hlt⟩ := hpasses.autoApprove_iff.mp hroute
    exact ⟨rec, hrec, PyFloat.le_of_not_lt rec.confidence_ne_nan
      (fun hmin => hcond hpasses (hnan.mp hmin)) hlt⟩

/-- A store that holds a text for the confidence and nothing else. -/
def confidenceText (text : String) : RawConfig :=
  fun key => if key = "min_confidence" then some text else none

/-- With the text `0.8` the laptop is approved, within the gates. -/
theorem laptop_within_gates :
    ∃ outcome,
      (((laptopDecider (MockProvider.complete (PlainJson.recommendationText "approve"))).decide
          laptop "t1" false).run idle [] ()).1 = .returned outcome ∧
      outcome.decision.route = .autoApprove ∧ WithinGates defaultThresholds laptop outcome := by
  have hwithin :=
    (approved_within_gates_iff (laptopDecider (MockProvider.complete "")) (confidenceText "0.8")
      (by decide +kernel) (MockProvider.complete (PlainJson.recommendationText "approve"))
      laptop "t1" false _ _ _
    (.text (PlainJson.recommendationText "approve")) ⟨Unit, Unit, idle, [], (), rfl, rfl⟩).mpr
      fun _ => by decide +kernel
  have hrun :
      (((laptopDecider (MockProvider.complete (PlainJson.recommendationText "approve"))).decide laptop "t1"
      false).run idle [] ()).1 = .returned ⟨⟨.autoApprove,
        "Within autonomy ceiling and category policy, known vendor, receipt present, high agent confidence.", [], "t1"⟩,
        some (PlainJson.recommended .approve)⟩ := by
    decide +kernel
  exact ⟨_, hrun, rfl, hwithin _ hrun rfl⟩

/-- With the text `nan` the startup succeeds and the laptop is approved, within no gate. -/
theorem nan_confidence_approves :
    ∃ thresholds, mergeThresholds (confidenceText "nan") defaultThresholds = .ok thresholds ∧
      ∃ outcome, (({ laptopDecider (MockProvider.complete (PlainJson.recommendationText "approve")) with
          thresholds := thresholds }.decide laptop "t1" false).run idle [] ()).1 = .returned outcome ∧
        outcome.decision.route = .autoApprove ∧ ¬ WithinGates thresholds laptop outcome := by
  refine ⟨{ defaultThresholds with minConfidence := .nan }, by decide +kernel,
    ⟨⟨.autoApprove,
      "Within autonomy ceiling and category policy, known vendor, receipt present, high agent confidence.",
      [], "t1"⟩, some (PlainJson.recommended .approve)⟩, by decide +kernel, rfl, ?_⟩
  rintro ⟨⟨r, -, hle⟩, -⟩
  cases hle

end Decider

end ApprovalFlow
