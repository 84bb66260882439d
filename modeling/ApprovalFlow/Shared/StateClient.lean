import ApprovalFlow.Async.Prog
import ApprovalFlow.Store.Versioned
import ApprovalFlow.Shared.Errors

/-!
# The Dapr client

What the services use of the Dapr client, as coroutines over any signature.

* `StateClient`: the two calls of the state API, and the retries of a conditional write.
* `publishOrRaise`: `publish_event` under a publisher's exception.
-/

namespace ApprovalFlow
open Async

/-- `get_state` and `execute_state_transaction` of one service's store; `V` is what its documents decode
to. -/
structure StateClient (σ : Sig) (V : Type) where
  getState : String → Prog σ Exn (Option V × Nat)
  executeStateTransaction : List (Versioned.Write V) → Prog σ Exn Unit

/-- `_MAX_RETRIES`. -/
def maxRetries : Nat := 5

namespace StateClient
variable {σ : Sig} {V : Type} (client : StateClient σ V)

/-- The exception of a failed read: RPC errors become the repository's. -/
def readFailure (error : String → Exn) : Exn → Exn
  | .rpcError details => error details
  | e => e

/-- `get_state` under the repository's exceptions. -/
def read (error : String → Exn) (key : String) : Prog σ Exn (Option V × Nat) :=
  (client.getState key).handle fun e => .raise (readFailure error e)

/-- A conditional write; where it fails, go on with `retry`. -/
def write (writes : List (Versioned.Write V)) (retry : Prog σ Exn Unit) : Prog σ Exn Unit :=
  (client.executeStateTransaction writes).handle fun
    | .rpcError _ => retry
    | e => .raise e

/-- What follows a read. -/
def afterRead {α : Type} (error : String → Exn) (f : Option V × Nat → Prog σ Exn α) :
    Except Exn (Option V × Nat) → Prog σ Exn α
  | .ok response => f response
  | .error e => .raise (readFailure error e)

theorem read_bind {α : Type} (error : String → Exn) (key : String) (f : Option V × Nat → Prog σ Exn α) :
    client.read error key >>= f = (client.getState key).attempt (afterRead error f) := by
  rw [Prog.bind_eq, read, Prog.handle_eq, Prog.attempt_assoc]
  exact Prog.attempt_congr fun r => by cases r <;> rfl

/-- What follows a conditional write. -/
def afterWrite (retry : Prog σ Exn Unit) : Except Exn Unit → Prog σ Exn Unit
  | .ok _ => .ret ()
  | .error (.rpcError _) => retry
  | .error e => .raise e

theorem write_eq (writes : List (Versioned.Write V)) (retry : Prog σ Exn Unit) :
    client.write writes retry = (client.executeStateTransaction writes).attempt (afterWrite retry) := by
  rw [write, Prog.handle_eq]
  refine Prog.attempt_congr fun r => ?_
  rcases r with e | u
  · cases e <;> rfl
  · rfl

end StateClient

/-- `publish` of a Dapr publisher: an RPC error becomes the publisher's own. -/
def publishOrRaise {σ : Sig} {E : Type} (error : String → Exn)
    (publishEvent : E → Prog σ Exn Unit) (event : E) : Prog σ Exn Unit :=
  (publishEvent event).handle fun
    | .rpcError details => .raise (error details)
    | e => .raise e

/-! ## The store itself -/

/-- The signature of a store. -/
abbrev storeSig (V : Type) : Sig := ⟨Versioned.Op V, Versioned.Op.Reply⟩

/-- The client of a store. -/
def storeClient (V : Type) : StateClient (storeSig V) V where
  getState key := @Prog.op (storeSig V) Exn (.get key)
  executeStateTransaction writes := @Prog.op (storeSig V) Exn (.transact writes)

theorem getState_attempt {V α : Type} (key : String)
    (f : Except Exn (Option V × Nat) → Prog (storeSig V) Exn α) :
    ((storeClient V).getState key).attempt f = .await (.get key) f :=
  @Prog.op_attempt (storeSig V) Exn α (.get key) f

theorem executeStateTransaction_attempt {V α : Type} (writes : List (Versioned.Write V))
    (f : Except Exn Unit → Prog (storeSig V) Exn α) :
    ((storeClient V).executeStateTransaction writes).attempt f = .await (.transact writes) f :=
  @Prog.op_attempt (storeSig V) Exn α (.transact writes) f

/-- A store behind a network that may refuse requests and lose replies. -/
def lossyStore (V : Type) : Handler (storeSig V) Exn (Versioned.Store V) Versioned.Reception :=
  fun c o s => o.perform (.rpcError "") c s

/-- What a transaction on such a store may come to. -/
theorem lossyStore_cases {V : Type} (c : Versioned.Reception) (ws : List (Versioned.Write V))
    (s : Versioned.Store V) :
    c = .serve ∧ s.Current ws ∧ lossyStore V c (.transact ws) s = (.ok (), s.puts ws) ∨
      c = .lose ∧ s.Current ws ∧ lossyStore V c (.transact ws) s = (.error (.rpcError ""), s.puts ws) ∨
        lossyStore V c (.transact ws) s = (.error (.rpcError ""), s) :=
  Versioned.Op.transact_cases (Exn.rpcError "") c ws s

end ApprovalFlow
