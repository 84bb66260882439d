import ApprovalFlow.Numeric.Decimal

/-!
# The exceptions

One constructor for each exception class, with the data its message is made of.
-/

namespace ApprovalFlow
open Numeric

/-- The message of an infrastructure error: a text, `Exceeded 5 retries {action} {key!r}`, or one that
names a key. -/
inductive Failure
  | text (message : String)
  | exceededRetries (action : String) (key : String)
  | danglingPointer (dedupKey : String) (trackingId : String)
  | unreadableCounter (key : String) (details : String)
  | corruptedCounter (key : String)
  deriving DecidableEq, Repr

inductive Exn
  /-- `grpc.RpcError` -/
  | rpcError (details : String)
  /-- `pydantic.ValidationError` -/
  | validationError
  /-- a trapped condition of `decimal` -/
  | arithmetic (signal : Signal)
  | assertionError
  | runtimeError
  | indexError
  | keyError (key : String)
  /-- what `asyncio.timeout` throws into the await at which its deadline passes -/
  | cancelledError
  | timeoutError
  | bulkheadTimeoutError (message : String)
  /-- `groq.GroqError` -/
  | groqError (message : String)
  | invoiceRepositoryError (failure : Failure)
  | decisionPublisherError (message : String)
  | decisionCompletedPublisherError (message : String)
  | llmProviderError (message : String)
  | agentError
  | decisionOutcomePublisherError (message : String)
  | approvalNotFoundError (trackingId : String)
  | approvalAlreadyResolvedError (trackingId : String)
  | approvalNotAwaitingInfoError (trackingId : String)
  | approvalRepositoryError (failure : Failure)
  | approvalOutcomePublisherError (message : String)
  | paymentNotFoundError (trackingId : String)
  | budgetNotFoundError (department : String)
  | insufficientBudgetError (department : String)
  | budgetCorruptionError (department : String) (newRemaining total : Decimal)
  | budgetRepositoryError (failure : Failure)
  | paymentRepositoryError (failure : Failure)
  | paymentGatewayError (message : String)
  | paymentOutcomePublisherError (message : String)
  | notificationRepositoryError (failure : Failure)
  | notificationChannelError (message : String)
  | userAlreadyExistsError (email : String)
  | invalidCredentialsError
  | userRepositoryError (message : String)
  | rateLimiterError (failure : Failure)
  | valueError (message : String)
  | zeroDivisionError
  /-- `fastapi.HTTPException` -/
  | httpException (statusCode : Nat) (detail : String) (headers : List (String × String))
  deriving DecidableEq, Repr

/-- What a sequence that ends well has done. -/
theorem bind_ok {ε α β : Type} {x : Except ε α} {f : α → Except ε β} {b : β} (h : x >>= f = .ok b) :
    ∃ a, x = .ok a ∧ f a = .ok b := by
  cases x with
  | error e => cases h
  | ok a => exact ⟨a, rfl, h⟩

theorem bind_of_ok {ε α β : Type} {x : Except ε α} {a : α} (h : x = .ok a)
    (f : α → Except ε β) : x >>= f = f a := by
  rw [h]
  rfl

/-- Arithmetic inside a coroutine. -/
def Exn.ofSignal {α : Type} : Except Signal α → Except Exn α
  | .ok a => .ok a
  | .error s => .error (.arithmetic s)

end ApprovalFlow
