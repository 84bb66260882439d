import ApprovalFlow.Decision.Provider

/-!
# What a decision depends on

Two runs of `decide`, with different providers or for different invoices.

* `Structural`: the fields that the gates read.
* `routeDecision_congr`: the router reads no other field.
* `Gated`: a duplicate, or an invoice that gate 2 stops; `routeDecision_gated`: its decision needs no
  recommendation.
* `decision_blind`: the two together, over the runs of `decide`.
-/

namespace ApprovalFlow
open Numeric Async

/-! ## The fields that the router reads -/

/-- The fields of an invoice that the gates read. -/
structure Structural where
  vendorKnown : Bool
  currency : String
  category : Category
  attendees : Option Int
  total : Decimal
  taxAmount : Decimal
  receiptPresent : Bool
  amounts : List (Decimal × Decimal)

/-- What the gates read of an invoice. -/
def Invoice.structural (invoice : Invoice) : Structural where
  vendorKnown := invoice.vendorKnown
  currency := invoice.currency
  category := invoice.category
  attendees := invoice.attendees
  total := invoice.total
  taxAmount := invoice.taxAmount
  receiptPresent := invoice.receiptPresent
  amounts := invoice.lineItems.map fun item => (item.quantity, item.unitPrice)

namespace Router
variable {ν : Type} {ar : Arith ν} {a b : Invoice} {thresholds : AutonomyThresholds}

theorem lineItemsTotal_eq (invoice : Invoice) : lineItemsTotal ar invoice =
    invoice.structural.amounts.foldlM
      (fun acc amount => do
        let product ← ar.mul (ar.ofDecimal amount.1) (ar.ofDecimal amount.2)
        ar.add acc product)
      (ar.ofDecimal .zero) := by
  unfold lineItemsTotal Invoice.structural
  rw [List.foldlM_map]

theorem hardStops_congr (h : a.structural = b.structural) :
    hardStops ar a thresholds = hardStops ar b thresholds := by
  have hitems : lineItemsTotal ar a = lineItemsTotal ar b := by rw [lineItemsTotal_eq, lineItemsTotal_eq, h]
  have hvendor : a.vendorKnown = b.vendorKnown := congrArg Structural.vendorKnown h
  have hcurrency : a.currency = b.currency := congrArg Structural.currency h
  have hcategory : a.category = b.category := congrArg Structural.category h
  have hattendees : a.attendees = b.attendees := congrArg Structural.attendees h
  have htotal : a.total = b.total := congrArg Structural.total h
  have htax : a.taxAmount = b.taxAmount := congrArg Structural.taxAmount h
  have hreceipt : a.receiptPresent = b.receiptPresent := congrArg Structural.receiptPresent h
  unfold hardStops mathReconciles
  rw [hitems, hvendor, hcurrency, hcategory, hattendees, htotal, htax, hreceipt]

theorem violations_congr (h : a.structural = b.structural) :
    violations ar a thresholds = violations ar b thresholds := by
  have hcategory : a.category = b.category := congrArg Structural.category h
  have hattendees : a.attendees = b.attendees := congrArg Structural.attendees h
  have htotal : a.total = b.total := congrArg Structural.total h
  unfold violations categoryCapViolation
  rw [hcategory, hattendees, htotal]

/-- **The router reads nothing else** of an invoice. -/
theorem routeDecision_congr (h : a.structural = b.structural) (recommendation : Option Recommendation)
    (isDuplicate : Bool) (correlationId : String) :
    routeDecision ar a recommendation isDuplicate thresholds correlationId =
      routeDecision ar b recommendation isDuplicate thresholds correlationId := by
  unfold routeDecision withinLimits
  rw [hardStops_congr h, violations_congr h]

/-! ## The structural gates -/

/-- Gate 1 or gate 2 ends the routing: a duplicate, a hard stop, or arithmetic that traps in the check of
the sum. -/
def Gated (ar : Arith ν) (invoice : Invoice) (isDuplicate : Bool)
    (thresholds : AutonomyThresholds) : Prop :=
  isDuplicate = true ∨ hardStops ar invoice thresholds ≠ .ok []

instance (ar : Arith ν) (invoice : Invoice) (isDuplicate : Bool) (thresholds : AutonomyThresholds) :
    Decidable (Gated ar invoice isDuplicate thresholds) := inferInstanceAs (Decidable (_ ∨ _))

/-- **Past a structural gate** the recommendation is not read. -/
theorem routeDecision_gated {isDuplicate : Bool} (h : Gated ar a isDuplicate thresholds)
    (r r' : Option Recommendation) (correlationId : String) :
    routeDecision ar a r isDuplicate thresholds correlationId =
      routeDecision ar a r' isDuplicate thresholds correlationId := by
  unfold routeDecision
  by_cases hdup : isDuplicate = true
  · rw [if_pos hdup, if_pos hdup]
  · rw [if_neg hdup, if_neg hdup]
    have hstops := h.resolve_left hdup
    cases hs : hardStops ar a thresholds with
    | error e => rfl
    | ok stops =>
      have hne : stops ≠ [] := fun hnil => hstops (hnil ▸ hs)
      show (if stops ≠ [] then _ else _) = if stops ≠ [] then _ else _
      rw [if_pos hne, if_pos hne]

theorem routeDecision_ok_of_gated {isDuplicate : Bool} (h : Gated ar a isDuplicate thresholds)
    (hok : isDuplicate = true ∨ ∃ stops, hardStops ar a thresholds = .ok stops) (r : Option Recommendation)
    (correlationId : String) : ∃ d, routeDecision ar a r isDuplicate thresholds correlationId = .ok d := by
  unfold routeDecision
  by_cases hdup : isDuplicate = true
  · rw [if_pos hdup]
    exact ⟨_, rfl⟩
  · rw [if_neg hdup]
    obtain ⟨stops, hs⟩ := hok.resolve_left hdup
    have hne : stops ≠ [] := fun hnil => h.resolve_left hdup (hnil ▸ hs)
    rw [hs]
    show ∃ d, (if stops ≠ [] then _ else _) = _
    rw [if_pos hne]
    exact ⟨_, rfl⟩

end Router

/-! ## Runs of `decide` -/

/-- The decision at the end of a run. -/
def decisionOf (result : Outcome Exn DecisionOutcome) : Outcome Exn Decision :=
  result.andThen (Except.map DecisionOutcome.decision)

/-- What a language model can do, any text or a failure, and the recommendation that is read from it. -/
inductive Answers (json : ContractJson) : Outcome Exn String → Option Recommendation → Prop
  | text (raw : String) : Answers json (.returned raw) (json.validateRecommendation raw)
  | failure (message : String) : Answers json (.raised (.llmProviderError message)) none

namespace Decider
variable {σ : Sig} {ν : Type} (decider : Decider σ ν)

/-- A run of `decide` with a provider: the end of the provider's part and the result. -/
def Decided (provider : LLMProvider σ) (invoice : Invoice) (correlationId : String) (isDuplicate : Bool)
    (reply : Outcome Exn String) (result : Outcome Exn DecisionOutcome) : Prop :=
  ∃ (S C : Type) (h : Handler σ Exn S C) (cs : List C) (s : S),
    reply =
      ((provider.complete systemPrompt
        (buildUserPrompt decider.json invoice (decider.policyText invoice))).run
      h cs s).1 ∧
    result = (({ decider with provider := provider }.decide invoice correlationId isDuplicate).run h cs s).1

variable {decider} {provider : LLMProvider σ} {invoice : Invoice} {correlationId : String}
    {isDuplicate : Bool}
  {reply : Outcome Exn String} {result : Outcome Exn DecisionOutcome} {r : Option Recommendation}

theorem andThen_conclude (h : Answers decider.json reply r) :
    reply.andThen (decider.conclude invoice correlationId isDuplicate) = Outcome.ofExcept
      ((Exn.ofSignal (routeDecision decider.arith invoice r isDuplicate decider.thresholds
        correlationId)).map (⟨·, r⟩)) := by
  cases h with
  | text raw =>
    show Outcome.ofExcept _ = _
    rw [conclude_eq]
    rfl
  | failure message => rfl

theorem Decided.result_eq (h : decider.Decided provider invoice correlationId isDuplicate reply result)
    (hr : Answers decider.json reply r) : result = Outcome.ofExcept
      ((Exn.ofSignal (routeDecision decider.arith invoice r isDuplicate decider.thresholds
        correlationId)).map (⟨·, r⟩)) := by
  obtain ⟨S, C, hd, cs, s, rfl, rfl⟩ := h
  rw [run_decide]
  exact andThen_conclude hr

theorem Decided.decision_eq (h : decider.Decided provider invoice correlationId isDuplicate reply result)
    (hr : Answers decider.json reply r) : decisionOf result = Outcome.ofExcept
      (Exn.ofSignal (routeDecision decider.arith invoice r isDuplicate decider.thresholds
        correlationId)) := by
  rw [h.result_eq hr, decisionOf, Outcome.andThen_ofExcept]
  cases routeDecision decider.arith invoice r isDuplicate decider.thresholds correlationId <;> rfl

theorem outcome_of_returned {d : Except Signal Decision} {outcome : DecisionOutcome}
    (h : Outcome.ofExcept ((Exn.ofSignal d).map (DecisionOutcome.mk · r)) = .returned outcome) :
    r = outcome.recommendation ∧ d = .ok outcome.decision := by
  cases d with
  | error s => cases h
  | ok d => cases h; exact ⟨rfl, rfl⟩

/-- **The language model and free text decide nothing past a structural gate**: for a gated invoice any
two answers lead to the same decision, and two invoices with the same structure lead to the same decision
on the same recommendation. -/
theorem decision_blind (decider : Decider σ ν) (p₁ p₂ : LLMProvider σ) (a b : Invoice)
    (correlationId : String)
    (isDuplicate : Bool) (reply₁ reply₂ : Outcome Exn String)
    (result₁ result₂ : Outcome Exn DecisionOutcome)
    (r₁ r₂ : Option Recommendation) (hr₁ : Answers decider.json reply₁ r₁)
    (hr₂ : Answers decider.json reply₂ r₂)
    (h₁ : decider.Decided p₁ a correlationId isDuplicate reply₁ result₁)
    (h₂ : decider.Decided p₂ b correlationId isDuplicate reply₂ result₂) :
    (a = b → Router.Gated decider.arith a isDuplicate decider.thresholds →
      decisionOf result₁ = decisionOf result₂ ∧
        ((isDuplicate = true ∨ ∃ stops, Router.hardStops decider.arith a decider.thresholds = .ok stops) →
          ∃ decision, decisionOf result₁ = .returned decision)) ∧
    (a.structural = b.structural → r₁ = r₂ → decisionOf result₁ = decisionOf result₂) := by
  rw [h₁.decision_eq hr₁, h₂.decision_eq hr₂]
  constructor
  · rintro rfl hgated
    refine ⟨by rw [Router.routeDecision_gated hgated r₁ r₂], fun hok => ?_⟩
    obtain ⟨d, hd⟩ := Router.routeDecision_ok_of_gated hgated hok r₁ correlationId
    exact ⟨d, by rw [hd]; rfl⟩
  · rintro hs rfl
    rw [Router.routeDecision_congr hs]

/-- A laptop from an unknown vendor. -/
def unknownLaptop : Invoice := { laptop with vendorKnown := false }

def idle : Handler groqSig Exn Unit Unit := fun _ o s => GroqBehaviour.noSlot.answer o s

/-- One model approves it, another fails, and the decision is the same. -/
theorem unknown_vendor_blind :
    let result (provider : LLMProvider groqSig) :=
      decisionOf (((laptopDecider provider).decide unknownLaptop "t1" false).run idle [] ()).1
    result (MockProvider.complete (PlainJson.recommendationText "approve")) =
        result ⟨fun _ _ => .raise (.llmProviderError "down")⟩ ∧
      ∃ decision, result (MockProvider.complete (PlainJson.recommendationText "approve")) =
        .returned decision := by
  have h := (decision_blind (laptopDecider (MockProvider.complete "")) (MockProvider.complete
    (PlainJson.recommendationText "approve"))
      ⟨fun _ _ => .raise (.llmProviderError "down")⟩ unknownLaptop unknownLaptop
    "t1" false _ _ _ _ _ _ (.text (PlainJson.recommendationText "approve")) (.failure "down")
    ⟨Unit, Unit, idle, [], (), rfl, rfl⟩ ⟨Unit, Unit, idle, [], (), rfl, rfl⟩).1 rfl (by decide +kernel)
  exact ⟨h.1, h.2 (.inr ⟨["GLOBAL-VENDOR"], by decide +kernel⟩)⟩

end Decider

end ApprovalFlow
