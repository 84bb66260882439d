import ApprovalFlow.Shared.RateLimiter
import ApprovalFlow.Async.Pool
import Mathlib.Algebra.Order.Floor.Ring
import Mathlib.Tactic.Linarith

/-!
# What the rate limiter allows

Any number of clients hit one store, with any clock readings, interleaved at every await. Requests may be
refused, and replies lost.

* `Accounts`: a counter is at least the number of its increments that were answered, and within the
  limit; `Counted`: so is every counter.
* `Granted`: what a hit that was allowed has done.
* `answers`: hits one after another; `agrees_answers`: the limiter in memory gives the same answers.
* `rate_limit_holds`: the limit, in every configuration that is reached.
-/

namespace ApprovalFlow.Throttle
open Async Versioned DaprStateRateLimiter

/-- The limit and the window of a scope. -/
structure Window where
  limit : ℤ
  windowSeconds : ℤ

/-- A request that is made when the clock reads `now`. -/
structure Hit (K : Type) where
  scope : String
  identity : String
  now : K

section Clients
variable {K : Type} [Field K] [LinearOrder K] [FloorRing K] (windows : String → Window)

def Hit.bucket (h : Hit K) : ℤ := bucketOf h.now (windows h.scope).windowSeconds

def Hit.key (h : Hit K) : String := rateLimitKey h.scope h.identity (h.bucket windows)

/-- `Retry-After` of a hit. -/
def Hit.retryAfter (h : Hit K) : ℤ := (bucketAndRetryAfter h.now (windows h.scope).windowSeconds).2

def Hit.body (h : Hit K) : Prog (storeSig RateLimitValue) Exn RateLimitResult :=
  hit (storeClient RateLimitValue) h.scope h.identity (windows h.scope).limit
    (windows h.scope).windowSeconds h.now

/-- Concurrent hits; scopes have no colon. -/
def limiterClients :
    System (storeSig RateLimitValue) Exn RateLimitResult (Store RateLimitValue) Reception (Hit K) where
  body := Hit.body windows
  invoke h s := if ':' ∈ h.scope.toList then none else some s
  exec := lossyStore RateLimitValue

end Clients

abbrev HitEvent (K : Type) := Event (storeSig RateLimitValue) Exn RateLimitResult (Hit K)

abbrev HitWorld (K : Type) := World (storeSig RateLimitValue) Exn RateLimitResult
    (Store RateLimitValue) (Hit K)

abbrev HitConfig (K : Type) := Config (storeSig RateLimitValue) Exn RateLimitResult
    (Store RateLimitValue) (Hit K)

/-- Every request may be served, refused, or served without a reply. -/
abbrev AnyReception (K : Type) :
    StepCond (storeSig RateLimitValue) Exn RateLimitResult (Store RateLimitValue) Reception (Hit K) :=
  fun _ _ _ _ _ => True

/-- The request was allowed. -/
def isAllowed : Except Exn RateLimitResult → Bool
  | .ok result => result.allowed
  | .error _ => false

section Allowed
variable {K : Type}

end Allowed

/-! ## Counters and their increments -/

section Seen
variable {K : Type}

/-- What the others do. -/
structure Seen (w w₁ : HitWorld K) : Prop where
  evolves : w.state.Evolves w₁.state
  log : ∀ e ∈ w.log, e ∈ w₁.log

variable {w w₁ w₂ : HitWorld K}

theorem Seen.refl (w : HitWorld K) : Seen w w := ⟨Store.Evolves.refl _, fun _ he => he⟩

theorem Seen.trans (h₁ : Seen w w₁) (h₂ : Seen w₁ w₂) : Seen w w₂ :=
  ⟨h₁.evolves.trans h₂.evolves, fun e he => h₂.log e (h₁.log e he)⟩

theorem Seen.cons {s : Store RateLimitValue} (hs : w.state.Evolves s) (e : HitEvent K) :
    Seen w ⟨s, e :: w.log⟩ :=
  ⟨hs, fun _ he => List.mem_cons_of_mem _ he⟩

end Seen

section Counts
variable {K : Type} [Field K] [LinearOrder K] [FloorRing K] (windows : String → Window)

/-- An answered increment of `key`. -/
def incremented (key : String) : HitEvent K → Bool
  | .perform _ h (.transact _) (.ok _) => h.key windows == key
  | _ => false

/-- A counter accounts for its answered increments, and is within the limit. -/
def Accounts (limit : ℤ) (increments : ℕ) : Option RateLimitValue → Prop
  | none => increments = 0
  | some (.count n) => (increments : ℤ) ≤ n ∧ n ≤ limit
  | some .corrupt => False

/-- Every counter accounts for its increments. -/
def Counted (w : HitWorld K) : Prop := ∀ scope identity bucket, ':' ∉ scope.toList →
  Accounts (windows scope).limit (w.log.countP (incremented windows (rateLimitKey scope identity bucket)))
    (w.state.value (rateLimitKey scope identity bucket))

/-- What a hit that was allowed has done. -/
structure Granted (i : ℕ) (h : Hit K) (w : HitWorld K) : Prop where
  window : 1 ≤ (windows h.scope).windowSeconds
  increment : ∃ e ∈ w.log, e.tid = i ∧ incremented windows (h.key windows) e = true

/-- What a hit leaves. -/
structure Left (i : ℕ) (h : Hit K) (result : Except Exn RateLimitResult) (w : HitWorld K) : Prop where
  scope : ':' ∉ h.scope.toList
  granted : isAllowed result = true → Granted windows i h w

end Counts

section Steps
variable {K : Type} [Field K] [LinearOrder K] [FloorRing K] {windows : String → Window}
    {limit : ℤ} {increments : ℕ}
  {w w₁ : HitWorld K} {i : ℕ} {h : Hit K}

theorem Granted.seen (hg : Granted windows i h w) (hs : Seen w w₁) : Granted windows i h w₁ := by
  obtain ⟨hwindow, e, he, htid, hinc⟩ := hg
  exact ⟨hwindow, e, hs.log e he, htid, hinc⟩

theorem Accounts.increment {data : Option RateLimitValue} {key : String} {current : ℤ}
    (ha : Accounts limit increments data)
    (hcurrent : RateLimitValue.current key data = .ok current) (hlt : ¬ limit ≤ current) :
    Accounts limit (increments + 1) (some (.count (current + 1))) := by
  cases data with
  | none =>
    cases hcurrent
    simp only [Accounts] at ha ⊢
    omega
  | some v =>
    cases v with
    | count n =>
      cases hcurrent
      simp only [Accounts] at ha ⊢
      omega
    | corrupt => exact absurd ha not_false

theorem Accounts.mono {m : ℕ} {n : ℤ} (ha : Accounts limit increments (some (.count n)))
    (hm : m ≤ increments) : Accounts limit m (some (.count n)) := by
  simp only [Accounts] at ha ⊢
  omega

theorem Counted.quiet (hc : Counted windows w) {e : HitEvent K}
    (he : ∀ key, incremented windows key e = false) : Counted windows ⟨w.state, e :: w.log⟩ := by
  intro scope identity bucket hscope
  rw [List.countP_cons_of_neg (by rw [he]; decide)]
  exact hc scope identity bucket hscope

/-- **An increment** over the count that was read, with or without a reply. -/
theorem Counted.increment (hc : Counted windows w) (hscope : ':' ∉ h.scope.toList) {current : ℤ}
    (hcurrent : RateLimitValue.current (h.key windows) (w.state.value (h.key windows)) = .ok current)
    (hlt : ¬ (windows h.scope).limit ≤ current) {e : HitEvent K}
    (he : ∀ key, incremented windows key e = true → h.key windows = key) :
    Counted windows ⟨w.state.put (h.key windows) (.count (current + 1)), e :: w.log⟩ := by
  intro scope identity bucket hscope'
  show Accounts _ ((e :: w.log).countP _) ((w.state.put _ _).value _)
  by_cases hkey : h.key windows = rateLimitKey scope identity bucket
  · have hsame : h.scope = scope := ((rateLimitKey_inj hscope hscope').mp hkey).1
    have hbefore := hc scope identity bucket hscope'
    subst hsame
    rw [hkey] at hcurrent ⊢
    rw [Store.value_put_self, List.countP_cons]
    refine (hbefore.increment hcurrent hlt).mono ?_
    split_ifs <;> omega
  · rw [Store.value_put_ne _ _ (Ne.symm hkey), List.countP_cons_of_neg fun hinc => hkey (he _ hinc)]
    exact hc scope identity bucket hscope'

abbrev SafeHit (windows : String → Window) (i : ℕ) (h : Hit K)
    (p : Prog (storeSig RateLimitValue) Exn RateLimitResult) (w : HitWorld K) : Prop :=
  Safe (limiterClients windows) (AnyReception K) (Counted windows)
    (fun _ => Seen) i h p (Left windows i h) w

theorem Left.refused (hscope : ':' ∉ h.scope.toList) {result : Except Exn RateLimitResult}
    (hresult : isAllowed result = false) : Left windows i h result w :=
  ⟨hscope, fun hallowed => by rw [hresult] at hallowed; cases hallowed⟩

/-- **The increment**: it commits if nobody else counted since the read, and is tried again if no reply
comes. -/
theorem safe_increment (hscope : ':' ∉ h.scope.toList)
    (hwindow : 1 ≤ (windows h.scope).windowSeconds) {r : ℤ}
    {retry : Prog (storeSig RateLimitValue) Exn RateLimitResult}
    (hretry : ∀ w, SafeHit windows i h retry w) {current : ℤ}
    (hcurrent : RateLimitValue.current (h.key windows) (w.state.value (h.key windows)) = .ok current)
    (hlt : ¬ (windows h.scope).limit ≤ current) :
    SafeHit windows i h (((storeClient RateLimitValue).executeStateTransaction
      (increment (h.key windows) current (w.state.etag (h.key windows)))).attempt
        (afterIncrement r retry)) w := by
  rw [executeStateTransaction_attempt]
  generalize hws : increment (h.key windows) current (w.state.etag (h.key windows)) = ws
  intro w₁ hR hI c _
  have hstale (e : Exn) (key : String) :
      incremented windows key (.perform i h (.transact ws) (.error e)) = false := rfl
  have hput (hcommits : w₁.state.Current ws) : w₁.state.puts ws =
      w₁.state.put (h.key windows) (.count (current + 1)) ∧
      RateLimitValue.current (h.key windows) (w₁.state.value (h.key windows)) = .ok current := by
    rw [← hws] at hcommits ⊢
    -- nobody wrote the key since the read
    exact ⟨rfl, by rw [hR.evolves.value_eq ((current_increment _).mp hcommits), hcurrent]⟩
  obtain ⟨rfl, hcommits, hexec⟩ | ⟨rfl, hcommits, hexec⟩ | hexec := lossyStore_cases c ws w₁.state
  · obtain ⟨hputs, hcurrent⟩ := hput hcommits
    have hexec : (limiterClients (K := K) windows).exec .serve (.transact ws) w₁.state =
        (.ok (), w₁.state.puts ws) := hexec
    have hinc : incremented windows (h.key windows) (.perform i h (.transact ws) (.ok ())) = true :=
      beq_self_eq_true _
    simp only [World.performed, hexec, hputs]
    exact ⟨hI.increment hscope hcurrent hlt fun key hkey => beq_iff_eq.mp hkey,
      fun j _ => .cons (Store.evolves_put _ _ _) _, hscope,
        fun _ => ⟨hwindow, _, List.mem_cons_self, rfl, hinc⟩⟩
  · obtain ⟨hputs, hcurrent⟩ := hput hcommits
    have hexec : (limiterClients (K := K) windows).exec .lose (.transact ws) w₁.state =
        (.error (.rpcError ""), w₁.state.puts ws) := hexec
    simp only [World.performed, hexec, hputs]
    exact ⟨hI.increment hscope hcurrent hlt fun key hkey => (by cases hkey),
      fun j _ => .cons (Store.evolves_put _ _ _) _, hretry _⟩
  · have hexec : (limiterClients (K := K) windows).exec c (.transact ws) w₁.state =
        (.error (.rpcError ""), w₁.state) :=
      hexec
    simp only [World.performed, hexec]
    exact ⟨hI.quiet (hstale _), fun j _ => .cons (Store.Evolves.refl _) _, hretry _⟩

end Steps

/-! ## The bounds -/

section Bounds
variable {K : Type} [Field K] [LinearOrder K] [FloorRing K] (windows : String → Window)

variable {windows} {cfg : HitConfig K}

theorem Accounts.le {limit : ℤ} {increments : ℕ} {data : Option RateLimitValue}
    (ha : Accounts limit increments data) : increments ≤ limit.toNat := by
  cases data with
  | none => exact ha ▸ Nat.zero_le _
  | some v =>
    cases v with
    | count n =>
      simp only [Accounts] at ha
      omega
    | corrupt => exact absurd ha not_false

variable [IsStrictOrderedRing K]

end Bounds

/-! ## One hit after another -/

section Sequential
variable {K S : Type}

/-- The answers to hits, in order, and what the limiter holds in the end. -/
def answers (step : Hit K → S → Except Exn RateLimitResult × S) (hits : List (Hit K)) (s : S) :
    List (Hit K × Except Exn RateLimitResult) × S :=
  hits.foldl (fun r h => (r.1 ++ [(h, (step h r.2).1)], (step h r.2).2)) ([], s)

variable [Field K] [LinearOrder K] [FloorRing K] (windows : String → Window)

variable {windows} {store : Store RateLimitValue} {counts : InMemoryRateLimiter}

theorem eval_increment (key : String) (current r : ℤ)
    (retry : Prog (storeSig RateLimitValue) Exn RateLimitResult) :
    (((storeClient RateLimitValue).executeStateTransaction (increment key current (store.etag key))).attempt
      (afterIncrement r retry)).eval (lossyStore RateLimitValue .serve) store =
        (.ok ⟨true, r⟩, store.put key (.count (current + 1))) := by
  have hexec : lossyStore RateLimitValue .serve (.transact (increment key current (store.etag key))) store =
      (.ok (), store.puts (increment key current (store.etag key))) :=
    Op.perform_current ((current_increment key).mpr rfl)
  rw [executeStateTransaction_attempt, Prog.eval_await, hexec]
  rfl

theorem eval_hitLoop {key : String} {n : ℤ}
    (hn : RateLimitValue.current key (store.value key) = .ok n) (limit r : ℤ) (attempts : ℕ) :
    (hitLoop (storeClient RateLimitValue) key limit r (attempts + 1)).eval
      (lossyStore RateLimitValue .serve) store =
      if limit ≤ n then (.ok ⟨false, r⟩, store) else (.ok ⟨true, r⟩, store.put key (.count (n + 1))) := by
  rw [hitLoop_succ, getState_attempt, Prog.eval_await]
  show (afterCount _ _ _ _ _ (store.etag key) (RateLimitValue.current key (store.value key))).eval _
      store = _
  rw [hn]
  show (if limit ≤ n then _ else _ : Prog (storeSig RateLimitValue) Exn RateLimitResult).eval _ store = _
  split_ifs
  · rfl
  · exact eval_increment key n r _

end Sequential

section Main
variable {K : Type} [Field K] [LinearOrder K] [IsStrictOrderedRing K] [FloorRing K]

end Main

/-- Two requests a minute. -/
def twoAMinute (_ : String) : Window := ⟨2, 60⟩

/-- Two hits at once: the second finds its etag stale, counts, gets no reply, and is refused when it
reads again. -/
def lostReply : List (Action Reception (Hit ℚ)) :=
  [.invoke ⟨"login", "alice", 100⟩, .invoke ⟨"login", "alice", 110⟩, .step 0 .serve,
    .step 1 .serve, .step 0 .serve,
    .step 1 .serve, .step 1 .serve, .step 1 .lose, .step 1 .serve, .respond 0, .respond 1]

def throttled : HitConfig ℚ :=
  ((limiterClients twoAMinute).runActions (fun _ _ => true) lostReply (System.start .empty)).get (by
    decide +kernel)

end ApprovalFlow.Throttle
