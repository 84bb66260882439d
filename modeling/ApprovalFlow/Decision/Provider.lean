import ApprovalFlow.Decision.Decider

/-!
# The providers

* `GroqProvider.complete`: Groq's chat completions; `BulkheadLLMProvider.complete`: a provider behind a
  bulkhead.
* `MockProvider.complete`: one configured response.
* `GroqBehaviour`: all that can happen to one call of the Groq client behind the bulkhead;
  `parsed_complete`: what the provider makes of each.
-/

namespace ApprovalFlow
open Numeric Async

/-! ## The bulkhead -/

/-- `Bulkhead`, with the text of its `timeout_seconds`. -/
structure Bulkhead where
  timeoutSeconds : String

namespace Bulkhead
variable {σ : Sig} {α : Type}

/-- The body of `async with asyncio.timeout(..)`: at its deadline it is cancelled, and the cancellation
leaves the block as `TimeoutError`. -/
def timeout (body : Prog σ Exn α) : Prog σ Exn α :=
  body.handle fun
    | .cancelledError => .raise .timeoutError
    | e => .raise e

/-- `run`, whose `acquire` waits for a slot. -/
def run (bulkhead : Bulkhead) (acquire : Prog σ Exn Unit) (call : Prog σ Exn α)
    (label : String) : Prog σ Exn α :=
  let expired (phase : String) : Exn → Prog σ Exn α
    | .timeoutError => .raise (.bulkheadTimeoutError
        (label ++ ": bulkhead " ++ phase ++ " timeout after " ++ bulkhead.timeoutSeconds ++ "s"))
    | e => .raise e
  (timeout acquire).attempt fun
    | .error e => expired "capacity" e
    | .ok _ => (timeout call).handle (expired "call")

end Bulkhead

/-! ## Groq -/

/-- `response.choices`, each with the `content` of its message. -/
structure ChatCompletion where
  choices : List (Option String)
  deriving DecidableEq

/-- What the provider awaits: a slot of the bulkhead, and the client's `create`. -/
inductive GroqOp
  | acquire
  | create (model systemPrompt userMessage : String)

@[reducible] def GroqOp.Reply : GroqOp → Type
  | acquire => Unit
  | create _ _ _ => ChatCompletion

abbrev groqSig : Sig := ⟨GroqOp, GroqOp.Reply⟩

structure GroqProvider where
  model : String

/-- `response.choices[0].message.content`, which must not be empty. -/
def GroqProvider.content (provider : GroqProvider) (response : ChatCompletion) : Except Exn String :=
  match response.choices with
  | [] => .error .indexError
  | none :: _ =>
    .error (.llmProviderError ("Groq returned an empty completion (" ++ provider.model ++ ")."))
  | some content :: _ =>
    if content = "" then
      .error (.llmProviderError ("Groq returned an empty completion (" ++ provider.model ++ ")."))
    else .ok content

/-- `GroqProvider.complete`. -/
def GroqProvider.complete (provider : GroqProvider) : LLMProvider groqSig where
  complete system user := (Prog.op (σ := groqSig) (.create provider.model system user)).attempt fun
    | .error (.groqError message) =>
      .raise (.llmProviderError ("Groq API call failed (" ++ provider.model ++ "): " ++ message))
    | .error e => .raise e
    | .ok response => .ofExcept (provider.content response)

/-- `BulkheadLLMProvider.complete`. -/
def BulkheadLLMProvider.complete (provider : LLMProvider groqSig) (bulkhead : Bulkhead) :
    LLMProvider groqSig where
  complete system user :=
    (bulkhead.run (Prog.op (σ := groqSig) .acquire) (provider.complete system user) "groq").handle fun
      | .bulkheadTimeoutError message => .raise (.llmProviderError message)
      | e => .raise e

/-- `MockProvider.complete`. -/
def MockProvider.complete {σ : Sig} (response : String) : LLMProvider σ where
  complete _ _ := .ret response

/-! ## The behaviours of Groq -/

/-- One call of the client: the deadline passes before a slot is free or during the call, the client
fails, or it responds. -/
inductive GroqBehaviour
  | noSlot
  | deadline
  | failure (message : String)
  | response (completion : ChatCompletion)

/-- How the operations are answered. -/
def GroqBehaviour.answer (behaviour : GroqBehaviour) : (o : GroqOp) → Unit → Except Exn o.Reply × Unit
  | .acquire, _ =>
    match behaviour with
    | .noSlot => (.error .cancelledError, ())
    | _ => (.ok (), ())
  | .create _ _ _, _ =>
    match behaviour with
    | .failure message => (.error (.groqError message), ())
    | .response completion => (.ok completion, ())
    | _ => (.error .cancelledError, ())

/-- The schema-valid recommendation that a call obtains: the first choice's. -/
def GroqBehaviour.obtained (json : ContractJson) : GroqBehaviour → Option Recommendation
  | .response ⟨some content :: _⟩ => if content = "" then none else json.validateRecommendation content
  | _ => none

variable {groq : GroqProvider} {bulkhead : Bulkhead} {behaviour : GroqBehaviour} {json : ContractJson}

/-- The provider's reply to each behaviour: a failure of the provider, unless there are no choices. -/
theorem parsed_complete (systemPrompt userPrompt : String) :
    Decider.parsed json
      (((BulkheadLLMProvider.complete (GroqProvider.complete groq) bulkhead).complete systemPrompt
      userPrompt).eval behaviour.answer ()).1 =
    match behaviour with
    | .response ⟨[]⟩ => .error .indexError
    | _ => .ok (behaviour.obtained json) := by
  rcases behaviour with _ | _ | message | ⟨_ | ⟨_ | content, rest⟩⟩
  · rfl
  · rfl
  · rfl
  · rfl
  · rfl
  · have hcontent : groq.content ⟨some content :: rest⟩ =
        if content = "" then
          .error (.llmProviderError ("Groq returned an empty completion (" ++ groq.model ++ ")."))
        else .ok content := rfl
    show Decider.parsed json
        ((((((Prog.ofExcept (groq.content ⟨some content :: rest⟩)).handle _).handle _).handle _).eval
      _ ()).1) = .ok (if content = "" then none else json.validateRecommendation content)
    rw [hcontent]
    by_cases hempty : content = ""
    · rw [if_pos hempty, if_pos hempty]
      rfl
    · rw [if_neg hempty, if_neg hempty]
      rfl

/-- **The agent fails clean exactly when the response has a choice**: `decide` returns an outcome, without a
recommendation and for a human unless one was obtained. -/
theorem decide_fails_clean_iff {ν : Type} (decider : Decider groqSig ν) (groq : GroqProvider)
    (bulkhead : Bulkhead)
    (invoice : Invoice) (correlationId : String) (isDuplicate : Bool) (behaviour : GroqBehaviour)
    (hroute : ∀ r, ∃ d, routeDecision decider.arith invoice r isDuplicate decider.thresholds
      correlationId = .ok d) :
    (∃ outcome, (({ decider with
        provider := BulkheadLLMProvider.complete (GroqProvider.complete groq) bulkhead }.decide
          invoice correlationId isDuplicate).eval behaviour.answer ()).1 = .ok outcome ∧
      (behaviour.obtained decider.json = none → outcome.recommendation = none ∧
        (outcome.decision.route = .humanReview ∨ outcome.decision.route = .duplicate))) ↔
    behaviour ≠ .response ⟨[]⟩ := by
  rw [Decider.decide_eq, Prog.eval_attempt, Prog.eval_ofExcept, Decider.conclude_eq, parsed_complete]
  constructor
  · rintro ⟨outcome, hok, -⟩ rfl
    cases hok
  · intro hne
    have hparsed : (match (motive := GroqBehaviour → Except Exn (Option Recommendation)) behaviour with
        | .response ⟨[]⟩ => .error .indexError
        | _ => .ok (behaviour.obtained decider.json)) = .ok (behaviour.obtained decider.json) := by
      split
      · exact absurd rfl hne
      · rfl
    obtain ⟨d, hd⟩ := hroute (behaviour.obtained decider.json)
    refine ⟨⟨d, behaviour.obtained decider.json⟩, ?_, fun hnone => ⟨hnone, ?_⟩⟩
    · rw [hparsed]
      show (Exn.ofSignal (routeDecision _ _ _ _ _ _)).map _ = _
      rw [hd]
      rfl
    · rw [hnone] at hd
      exact Router.route_of_none hd

/-- A decider of laptops. -/
def laptopDecider {σ : Sig} (provider : LLMProvider σ) : Decider σ Decimal where
  provider := provider
  json := PlainJson.json
  arith := Arith.decimal defaultContext
  thresholds := defaultThresholds
  policy := ""
  retrieve _ := some ""

theorem laptop_routable (r : Option Recommendation) :
    ∃ d, routeDecision (Arith.decimal defaultContext) laptop r false defaultThresholds "t1" = .ok d :=
  @Router.routeDecision_total _ _ _ _ [] [] (by decide +kernel) (by decide +kernel) r false "t1"

/-- The mock text is no recommendation. -/
theorem mock_text_fails_clean :
    ∃ outcome,
      (((laptopDecider (BulkheadLLMProvider.complete (GroqProvider.complete ⟨"openai/gpt-oss-120b"⟩)
          ⟨"15.0"⟩)).decide laptop "t1" false).eval (GroqBehaviour.response
            ⟨[some "This is a mock response from MockProvider."]⟩).answer ()).1 = .ok outcome ∧
      (GroqBehaviour.obtained PlainJson.json
        (.response ⟨[some "This is a mock response from MockProvider."]⟩) = none →
        outcome.recommendation = none ∧
          (outcome.decision.route = .humanReview ∨ outcome.decision.route = .duplicate)) :=
  (decide_fails_clean_iff (laptopDecider (MockProvider.complete "")) ⟨"openai/gpt-oss-120b"⟩
    ⟨"15.0"⟩ laptop "t1" false
    (.response ⟨[some "This is a mock response from MockProvider."]⟩) laptop_routable).mpr (by simp)

/-- A response without choices ends `decide` in an `IndexError`. -/
theorem no_choices_raises :
    (∀ r, ∃ d, routeDecision (Arith.decimal defaultContext) laptop r false defaultThresholds "t1" = .ok d) ∧
    (((laptopDecider (BulkheadLLMProvider.complete
      (GroqProvider.complete ⟨"openai/gpt-oss-120b"⟩) ⟨"15.0"⟩)).decide
      laptop "t1" false).eval (GroqBehaviour.response ⟨[]⟩).answer ()).1 = .error .indexError :=
  ⟨laptop_routable, rfl⟩

end ApprovalFlow
