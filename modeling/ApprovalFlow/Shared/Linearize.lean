import ApprovalFlow.Async.Linearize
import ApprovalFlow.Shared.RetryAfter

/-!
# The limiter on the store linearizes to the one in memory

Any number of clients hit any counters, with any limits, windows and clock readings, interleaved at every
await. Requests may be refused; no reply is lost.

* `limiterServer`: the clients.
* `hitPoints`: the linearization points: a read that finds the limit met, and a committed increment.
* `limiter_linearizes`: the answers are those of the limiter in memory, in an order that respects real
  time; a hit that raised counted nothing.
-/

namespace ApprovalFlow
open Async Versioned DaprStateRateLimiter

namespace LimiterLinearize
variable {K : Type} [Field K] [LinearOrder K] [FloorRing K]

/-- Concurrent hits; the environment serves a request, or refuses it. -/
def limiterServer :
    System (storeSig RateLimitValue) Exn RateLimitResult (Store RateLimitValue) Bool (HitOp K) where
  body h := (limiter (storeClient RateLimitValue)).hit h.scope h.identity h.limit h.windowSeconds h.now
  invoke _ s := some s
  exec served o s := o.perform (.rpcError "") (if served then .serve else .refuse) s

def isError : Except Exn RateLimitResult → Bool
  | .ok _ => false
  | .error _ => true

/-- The counter of a hit. -/
def counter (h : HitOp K) : String := rateLimitKey h.scope h.identity (bucketOf h.now h.windowSeconds)

def retryAfter (h : HitOp K) : ℤ := (bucketAndRetryAfter h.now h.windowSeconds).2

/-- A hit is refused where it reads a count that meets the limit, and allowed where it commits. -/
def hitPoint (h : HitOp K) : (o : Op RateLimitValue) → Except Exn o.Reply →
    Option (Except Exn RateLimitResult)
  | .get _, .ok (data, _) =>
    match RateLimitValue.current (counter h) data with
    | .ok n => if h.limit ≤ n then some (.ok ⟨false, retryAfter h⟩) else none
    | .error _ => none
  | .get _, .error _ => none
  | .transact _, .ok _ => some (.ok ⟨true, retryAfter h⟩)
  | .transact _, .error _ => none

def hitPoints : Points (limiterServer (K := K)) InMemoryRateLimiter where
  spec := InMemoryRateLimiter.answer
  failed := isError
  point := hitPoint
  Rel := Counts
  Evolves := Store.Evolves
  refl := Store.Evolves.refl
  trans h h' := h.trans h'
  exec _ o s := o.evolves_perform _ _ s
  invoke h := (Option.some.inj h).symm

variable {h : HitOp K}

theorem answer_valid (hvalid : validateRateLimitParams h.limit h.windowSeconds = .ok ())
    (counts : InMemoryRateLimiter) :
    InMemoryRateLimiter.answer h counts = if h.limit ≤ counts.count (counter h) then
      (.ok ⟨false, retryAfter h⟩, counts)
      else (.ok ⟨true, retryAfter h⟩, counts.insert (counter h) (counts.count (counter h) + 1)) := by
  simp only [InMemoryRateLimiter.answer, InMemoryRateLimiter.hit, hvalid]
  rfl

/-- An increment over the count that was read: it commits if nobody else counted, and is tried again
otherwise. -/
theorem increment_pending (hvalid : validateRateLimitParams h.limit h.windowSeconds = .ok ())
    {retry : Prog (storeSig RateLimitValue) Exn RateLimitResult} (hretry : ∀ s, hitPoints.Pending h retry s)
    {s : Store RateLimitValue} {counts : InMemoryRateLimiter} (hrel : Counts s counts)
    (hlt : ¬ h.limit ≤ counts.count (counter h)) : hitPoints.Pending h
      (.await (.transact (increment (counter h) (counts.count (counter h)) (s.etag (counter h))))
        (afterIncrement (retryAfter h) retry)) s := by
  intro s₁ counts₁ hev hrel₁ served
  have hrel₁ : Counts s₁ counts₁ := hrel₁
  cases served with
  | false => exact ⟨hrel₁, hretry _⟩
  | true =>
    simp only [limiterServer, if_true]
    by_cases hetag : s₁.etag (counter h) = s.etag (counter h)
    · -- nobody wrote the counter since the read
      have hcount : counts₁.count (counter h) = counts.count (counter h) := by
        have hcurrent := hrel₁.current (counter h)
        rw [hev.value_eq hetag, hrel.current (counter h)] at hcurrent
        exact (Except.ok.inj hcurrent).symm
      rw [Op.perform_current ((current_increment _).mpr hetag)]
      refine ⟨rfl, rfl, counts₁.insert (counter h) (counts.count (counter h) + 1), ?_, hrel₁.put _ _⟩
      show InMemoryRateLimiter.answer h counts₁ = _
      rw [answer_valid hvalid, hcount, if_neg hlt]
    · rw [Op.perform_stale fun hcurrent => hetag ((current_increment _).mp hcurrent)]
      exact ⟨hrel₁, hretry _⟩

/-- **The attempts**, by induction on those that are left. -/
theorem hitLoop_pending (hvalid : validateRateLimitParams h.limit h.windowSeconds = .ok ()) (attempts : ℕ)
    (s : Store RateLimitValue) : hitPoints.Pending h
      (hitLoop (storeClient RateLimitValue) (counter h) h.limit (retryAfter h) attempts) s := by
  induction attempts generalizing s with
  | zero => exact rfl
  | succ attempts ih =>
    rw [hitLoop_succ, getState_attempt]
    intro s₁ counts _ hrel served
    cases served with
    | false => exact ⟨hrel, rfl⟩
    | true =>
      have hcurrent := Counts.current hrel (counter h)
      simp only [limiterServer, if_true, Op.perform, Store.get, hitPoints, hitPoint, hcurrent,
        StateClient.afterRead, afterCount]
      by_cases hle : h.limit ≤ counts.count (counter h)
      · simp only [if_pos hle]
        exact ⟨rfl, rfl, counts, by rw [answer_valid hvalid, if_pos hle], hrel⟩
      · simp only [if_neg hle, executeStateTransaction_attempt]
        exact ⟨hrel, increment_pending hvalid ih hrel hle⟩

theorem body_pending (h : HitOp K) (s : Store RateLimitValue) :
    hitPoints.Pending h (limiterServer.body h) s := by
  show hitPoints.Pending h
      (hit (storeClient RateLimitValue) h.scope h.identity h.limit h.windowSeconds h.now) s
  cases hvalid : validateRateLimitParams h.limit h.windowSeconds with
  | error e =>
    rw [hit_invalid _ _ hvalid]
    exact rfl
  | ok u =>
    rw [hit_valid _ _ hvalid]
    exact hitLoop_pending hvalid _ s

end LimiterLinearize

open LimiterLinearize

/-- **Linearization**: from counts that the store holds, every interleaving of any hits is a sequential
run of the limiter in memory, in an order that respects real time; a hit that raised is no part of it,
and the store holds the counts of that run. -/
theorem limiter_linearizes {K : Type} [Field K] [LinearOrder K] [FloorRing K] (s : Store RateLimitValue)
    (counts : InMemoryRateLimiter) (hs : Counts s counts)
    (cfg : Config (storeSig RateLimitValue) Exn RateLimitResult (Store RateLimitValue) (HitOp K))
    (hr : limiterServer.Reach (fun _ _ => True) (System.start s) cfg) :
    ∃ es counts', Linearizes InMemoryRateLimiter.answer isError counts counts' cfg.world.log es ∧
      Counts cfg.world.state counts' := by
  obtain ⟨counts', hlin, hrel⟩ := hitPoints.linearizes body_pending hs hr
  exact ⟨_, counts', hlin, hrel⟩

/-- Two hits of one user that read the counter before either writes, the second with a refused request;
one hit is allowed. -/
def contendedHits : List (Action Bool (HitOp ℚ)) :=
  [.invoke ⟨"auth_login_email", "a@example.com", 1, 60, 0⟩,
    .invoke ⟨"auth_login_email", "a@example.com", 1, 60, 1⟩,
    .step 0 true, .step 1 true, .step 1 false, .step 0 true, .step 1 true, .respond 0, .respond 1]

def contended : Config (storeSig RateLimitValue) Exn RateLimitResult (Store RateLimitValue) (HitOp ℚ) :=
  (limiterServer.runActions (fun _ _ => true) contendedHits (System.start Store.empty)).get (by
    decide +kernel)

theorem contended_linearizes :
    ∃ es counts', Linearizes InMemoryRateLimiter.answer isError .empty counts' contended.world.log es ∧
      Counts contended.world.state counts' :=
  limiter_linearizes Store.empty .empty counts_empty contended
    (System.reach_of_runActions (fun _ _ _ => trivial) contendedHits (Option.some_get _).symm)

end ApprovalFlow
