import ApprovalFlow.Numeric.Separator
import ApprovalFlow.Shared.StateClient
import ApprovalFlow.Store.Dict
import Mathlib.Algebra.Order.Floor.Ring

/-!
# The rate limiter

Fixed windows: one counter for a scope, an identity and a bucket of the clock. The clock reads in any
ordered field.

* `bucketAndRetryAfter`, `rateLimitKey`: the bucket of a reading, the seconds to its end, and the key of
  the counter.
* `InMemoryRateLimiter`, `DaprStateRateLimiter`: `hit` on a dictionary, and on the store with conditional
  writes.
* `Counts`: the store holds the counts of the dictionary.
* `rateLimitKey_inj`: no two counters share a key, where scopes have no colon.
-/

namespace ApprovalFlow
open Async Numeric

structure RateLimitResult where
  allowed : Bool
  retryAfterSeconds : ℤ
  deriving DecidableEq, Repr

def validateRateLimitParams (limit windowSeconds : ℤ) : Except Exn Unit :=
  if limit < 1 then .error (.valueError ("limit must be >= 1, got " ++ toString limit))
  else if windowSeconds < 1 then
    .error (.valueError ("window_seconds must be >= 1, got " ++ toString windowSeconds))
  else .ok ()

theorem validateRateLimitParams_ok {limit windowSeconds : ℤ} :
    validateRateLimitParams limit windowSeconds = .ok () ↔ 1 ≤ limit ∧ 1 ≤ windowSeconds := by
  unfold validateRateLimitParams
  split_ifs with hlimit hwindow
  · simp [hlimit]
  · simp [hwindow]
  · simp only [true_iff]
    omega

section Clock
variable {K : Type} [Field K] [LinearOrder K] [FloorRing K]

/-- `int(x)` cuts the fraction off. -/
def truncate (x : K) : ℤ := if 0 ≤ x then ⌊x⌋ else ⌈x⌉

/-- `int(now // window_seconds)` -/
def bucketOf (now : K) (windowSeconds : ℤ) : ℤ := ⌊now / windowSeconds⌋

def bucketAndRetryAfter (now : K) (windowSeconds : ℤ) : ℤ × ℤ :=
  let bucket := bucketOf now windowSeconds
  let windowEnd := (bucket + 1) * windowSeconds
  (bucket, truncate (windowEnd - now))

end Clock

/-- `_key` -/
def rateLimitKey (scope identity : String) (bucket : ℤ) : String :=
  "ratelimit:" ++ scope ++ ":" ++ identity ++ ":" ++ toString bucket

/-- **No counter is shared**: the scope ends at the first colon after the prefix, the bucket begins after
the last. -/
theorem rateLimitKey_inj {scope scope' identity identity' : String} {bucket bucket' : ℤ}
    (h : ':' ∉ scope.toList) (h' : ':' ∉ scope'.toList) :
    rateLimitKey scope identity bucket = rateLimitKey scope' identity' bucket' ↔
      scope = scope' ∧ identity = identity' ∧ bucket = bucket' := by
  have hbucket (b : ℤ) : ':' ∉ (toString b).toList := not_mem_integer rfl (by decide) b
  have htext (s i : String) (b : ℤ) : (rateLimitKey s i b).toList =
      "ratelimit:".toList ++ ((s.toList ++ ':' :: i.toList) ++ ':' :: (toString b).toList) := by
    unfold rateLimitKey
    simp
  rw [← String.toList_inj, htext, htext, List.append_cancel_left_eq,
    append_sep_inj (hbucket bucket) (hbucket bucket'),
    sep_append_inj h h', String.toList_inj, String.toList_inj, String.toList_inj, and_assoc]
  exact and_congr_right' (and_congr_right' ⟨integer_inj, congrArg toString⟩)

/-! ## In memory -/

/-- The counts, by key. -/
abbrev InMemoryRateLimiter := Dict String ℤ

namespace InMemoryRateLimiter
variable {K : Type} [Field K] [LinearOrder K] [FloorRing K]

/-- The count of a key. -/
def count (counts : InMemoryRateLimiter) (key : String) : ℤ := (counts.get? key).getD 0

def hit (scope identity : String) (limit windowSeconds : ℤ) (now : K) (counts : InMemoryRateLimiter) :
    Except Exn RateLimitResult × InMemoryRateLimiter :=
  match validateRateLimitParams limit windowSeconds with
  | .error e => (.error e, counts)
  | .ok () =>
    let (bucket, retryAfterSeconds) := bucketAndRetryAfter now windowSeconds
    let key := rateLimitKey scope identity bucket
    let current := counts.count key
    if limit ≤ current then (.ok ⟨false, retryAfterSeconds⟩, counts)
    else (.ok ⟨true, retryAfterSeconds⟩, counts.insert key (current + 1))

end InMemoryRateLimiter

/-! ## Over the Dapr state store -/

/-- The documents of the limiter's store. -/
inductive RateLimitValue
  | count (n : ℤ)
  | corrupt
  deriving DecidableEq

/-- `int(response.data) if response.data else 0` -/
def RateLimitValue.current (key : String) : Option RateLimitValue → Except Exn ℤ
  | none => .ok 0
  | some (count n) => .ok n
  | some corrupt => .error (.rateLimiterError (.corruptedCounter key))

namespace DaprStateRateLimiter
variable {σ : Sig} (client : StateClient σ RateLimitValue) (key : String) (limit retryAfterSeconds : ℤ)

/-- What a failed read raises. -/
def readError (details : String) : Exn := .rateLimiterError (.unreadableCounter key details)

/-- The conditional write of the next count. -/
def increment (current : ℤ) (etag : ℕ) : List (Versioned.Write RateLimitValue) :=
  [⟨key, .count (current + 1), some etag⟩]

theorem current_increment {s : Versioned.Store RateLimitValue} {current : ℤ} {etag : ℕ} :
    s.Current (increment key current etag) ↔ s.etag key = etag := Versioned.Store.current_single

/-- What follows an increment; a failed one is tried again. -/
def afterIncrement (retry : Prog σ Exn RateLimitResult) : Except Exn Unit → Prog σ Exn RateLimitResult
  | .ok _ => .ret ⟨true, retryAfterSeconds⟩
  | .error (.rpcError _) => retry
  | .error e => .raise e

/-- The attempts that are left. -/
def hitLoop : ℕ → Prog σ Exn RateLimitResult
  | 0 => .raise (.rateLimiterError (.exceededRetries "incrementing" key))
  | attempts + 1 => do
    let (data, etag) ← client.read (readError key) key
    let current ← .ofExcept (RateLimitValue.current key data)
    if limit ≤ current then return ⟨false, retryAfterSeconds⟩
    (client.executeStateTransaction (increment key current etag)).attempt
      (afterIncrement retryAfterSeconds (hitLoop attempts))

/-- What follows the count of a key. -/
def afterCount (retry : Prog σ Exn RateLimitResult) (etag : ℕ) : Except Exn ℤ → Prog σ Exn RateLimitResult
  | .error e => .raise e
  | .ok current =>
    if limit ≤ current then .ret ⟨false, retryAfterSeconds⟩
    else (client.executeStateTransaction (increment key current etag)).attempt
      (afterIncrement retryAfterSeconds retry)

theorem hitLoop_succ (attempts : ℕ) : hitLoop client key limit retryAfterSeconds (attempts + 1) =
    (client.getState key).attempt (StateClient.afterRead (readError key) fun response =>
      afterCount client key limit retryAfterSeconds
        (hitLoop client key limit retryAfterSeconds attempts) response.2
        (RateLimitValue.current key response.1)) := by
  rw [hitLoop, StateClient.read_bind]
  refine Prog.attempt_congr fun reply => ?_
  rcases reply with e | ⟨data, etag⟩
  · rfl
  · simp only [StateClient.afterRead]
    cases RateLimitValue.current key data with
    | error e => rfl
    | ok current =>
      show (if limit ≤ current then _ else _) = if limit ≤ current then _ else _
      split_ifs <;> rfl

variable {K : Type} [Field K] [LinearOrder K] [FloorRing K]

def hit (scope identity : String) (limit windowSeconds : ℤ) (now : K) : Prog σ Exn RateLimitResult := do
  Prog.ofExcept (validateRateLimitParams limit windowSeconds)
  let (bucket, retryAfterSeconds) := bucketAndRetryAfter now windowSeconds
  hitLoop client (rateLimitKey scope identity bucket) limit retryAfterSeconds maxRetries

variable {scope identity : String} {windowSeconds : ℤ} {now : K}

theorem hit_valid (h : validateRateLimitParams limit windowSeconds = .ok ()) :
    hit client scope identity limit windowSeconds now =
      hitLoop client (rateLimitKey scope identity (bucketOf now windowSeconds)) limit
        (bucketAndRetryAfter now windowSeconds).2 maxRetries := by
  unfold hit
  rw [h]
  rfl

theorem hit_invalid {e : Exn} (h : validateRateLimitParams limit windowSeconds = .error e) :
    hit client scope identity limit windowSeconds now = .raise e := by
  unfold hit
  rw [h]
  rfl

/-! ### The counts in the store -/

section Counts
variable {s : Versioned.Store RateLimitValue} {counts : InMemoryRateLimiter}

/-- The store holds these counts. -/
def Counts (s : Versioned.Store RateLimitValue) (counts : InMemoryRateLimiter) : Prop :=
  ∀ k, s.value k = (counts.get? k).map .count

theorem counts_empty : Counts .empty .empty := fun _ => rfl

theorem Counts.put (h : Counts s counts) (k : String) (n : ℤ) :
    Counts (s.put k (.count n)) (counts.insert k n) := by
  intro k'
  rw [Versioned.Store.value_put, Dict.get?_insert, h k']
  split_ifs <;> rfl

theorem Counts.current (h : Counts s counts) (k : String) :
    RateLimitValue.current k (s.value k) = .ok (counts.count k) := by
  rw [h k, InMemoryRateLimiter.count]
  cases counts.get? k <;> rfl

end Counts

end DaprStateRateLimiter

end ApprovalFlow
