import ApprovalFlow.Async.Crowd
import ApprovalFlow.Shared.RetryAfter

/-!
# Whom the throttle lets in

The throttle of a route fails open: a hit that raises lets its user in. A hit raises when the store
fails, and also when it has lost five races for its counter. Every request to the store is served here,
so only races are left.

* `throttled`: concurrent requests to one route; `admitted`: the requests of a user in a bucket that were
  let in.
* `Tallied`: the etag of a counter is its count, and the number of its increments.
* `admitted_le`: up to a limit of four nobody loses five races; `crowd_admitted`: from five on, a crowd
  of any size does.
* `throttle_bounds_iff`: so the throttle bounds what it lets in just for limits below the number of
  retries.
-/

namespace ApprovalFlow.Admission
open Async Versioned DaprStateRateLimiter

/-- A request to the route, when the clock reads `now`. -/
structure ThrottledRequest (K : Type) where
  user : AuthenticatedUser
  now : K

abbrev ThrottledWorld (K : Type) :=
  World (storeSig RateLimitValue) Exn AuthenticatedUser (Store RateLimitValue) (ThrottledRequest K)

abbrev ThrottledConfig (K : Type) :=
  Config (storeSig RateLimitValue) Exn AuthenticatedUser (Store RateLimitValue) (ThrottledRequest K)

abbrev ThrottledThread (K : Type) := Thread (storeSig RateLimitValue) Exn AuthenticatedUser
    (ThrottledRequest K)

abbrev ThrottledEvent (K : Type) := Event (storeSig RateLimitValue) Exn AuthenticatedUser
    (ThrottledRequest K)

section Route
variable {K : Type} [Field K] [LinearOrder K] [FloorRing K] (scope : String) (limit windowSeconds : ℤ)

/-- The counter of a request. -/
def ThrottledRequest.key (r : ThrottledRequest K) : String :=
  rateLimitKey scope r.user.sub (bucketOf r.now windowSeconds)

/-- Concurrent requests. -/
def throttled : System (storeSig RateLimitValue) Exn AuthenticatedUser (Store RateLimitValue) Reception
    (ThrottledRequest K) where
  body r := throttleByUser (limiter (storeClient RateLimitValue)) scope limit windowSeconds r.user r.now
  invoke _ s := some s
  exec := lossyStore RateLimitValue

/-- Every request to the store is served. -/
def Served : StepCond (storeSig RateLimitValue) Exn AuthenticatedUser (Store RateLimitValue) Reception
    (ThrottledRequest K) := fun _ _ _ _ c => c = .serve

/-- A request of the user in the bucket that was let in. -/
def isAdmitted (sub : String) (bucket : ℤ) (t : ThrottledThread K) : Bool :=
  t.call.user.sub == sub && bucketOf t.call.now windowSeconds == bucket &&
    match t.status with
    | .done (.ok _) => true
    | _ => false

def admitted (sub : String) (bucket : ℤ) (cfg : ThrottledConfig K) : ℕ :=
  cfg.threads.countP (isAdmitted windowSeconds sub bucket)

/-- What a request runs. -/
def ThrottledRequest.attempts (r : ThrottledRequest K) (attempts : ℕ) :
    Prog (storeSig RateLimitValue) Exn AuthenticatedUser :=
  (hitLoop (storeClient RateLimitValue) (r.key scope windowSeconds) limit
    (bucketAndRetryAfter r.now windowSeconds).2 attempts).attempt (checked r.user)

variable {scope limit windowSeconds}

theorem body_eq (hlimit : 1 ≤ limit) (hwindow : 1 ≤ windowSeconds) (r : ThrottledRequest K) :
    (throttled scope limit windowSeconds).body r = r.attempts scope limit windowSeconds maxRetries := by
  have hvalid := validateRateLimitParams_ok.mpr ⟨hlimit, hwindow⟩
  show (hit (storeClient RateLimitValue) scope r.user.sub limit windowSeconds r.now).attempt
      (checked r.user) = _
  rw [hit_valid _ _ hvalid]
  rfl

end Route

/-! ## The attempts, one at a time -/

namespace ThrottledRequest
variable {K : Type} [Field K] [LinearOrder K] [FloorRing K] (scope : String) (limit windowSeconds : ℤ)
  (r : ThrottledRequest K) (attempts : ℕ)

/-- `Retry-After` of the request. -/
def retryAfter : ℤ := (bucketAndRetryAfter r.now windowSeconds).2

/-- What follows the read of the counter. -/
def afterRead (reply : Except Exn (Option RateLimitValue × ℕ)) :
    Prog (storeSig RateLimitValue) Exn AuthenticatedUser :=
  (StateClient.afterRead (readError (r.key scope windowSeconds)) (fun response =>
    afterCount (storeClient RateLimitValue) (r.key scope windowSeconds) limit (r.retryAfter windowSeconds)
      (hitLoop (storeClient RateLimitValue) (r.key scope windowSeconds) limit
        (r.retryAfter windowSeconds) attempts)
      response.2 (RateLimitValue.current (r.key scope windowSeconds) response.1)) reply).attempt
        (checked r.user)

/-- What follows its increment. -/
def afterWrite (reply : Except Exn Unit) : Prog (storeSig RateLimitValue) Exn AuthenticatedUser :=
  (afterIncrement (r.retryAfter windowSeconds)
    (hitLoop (storeClient RateLimitValue) (r.key scope windowSeconds) limit
      (r.retryAfter windowSeconds) attempts)
    reply).attempt (checked r.user)

variable {scope limit windowSeconds r attempts}

theorem attempts_succ : r.attempts scope limit windowSeconds (attempts + 1) =
    .await (.get (r.key scope windowSeconds)) (r.afterRead scope limit windowSeconds attempts) := by
  rw [ThrottledRequest.attempts, hitLoop_succ, getState_attempt]
  rfl

variable {data : Option RateLimitValue} {current : ℤ} {etag : ℕ}

theorem afterRead_over (hcurrent : RateLimitValue.current (r.key scope windowSeconds) data = .ok current)
    (hle : limit ≤ current) : r.afterRead scope limit windowSeconds attempts (.ok (data, etag)) =
      .raise (tooManyRequests (r.retryAfter windowSeconds)) := by
  simp only [afterRead, StateClient.afterRead, hcurrent, afterCount, if_pos hle]
  rfl

theorem afterRead_below (hcurrent : RateLimitValue.current (r.key scope windowSeconds) data = .ok current)
    (hlt : current < limit) : r.afterRead scope limit windowSeconds attempts (.ok (data, etag)) =
      .await (.transact (increment (r.key scope windowSeconds) current etag))
        (r.afterWrite scope limit windowSeconds attempts) := by
  simp only [afterRead, StateClient.afterRead, hcurrent, afterCount, if_neg (not_le.mpr hlt),
    executeStateTransaction_attempt]
  rfl

end ThrottledRequest

/-! ## The counters -/

section Observes
variable {K : Type} {w w₁ w₂ : ThrottledWorld K}

/-- What the others do. -/
structure Observes (w w₁ : ThrottledWorld K) : Prop where
  evolves : w.state.Evolves w₁.state
  log : ∀ e ∈ w.log, e ∈ w₁.log

theorem Observes.refl (w : ThrottledWorld K) : Observes w w := ⟨.refl _, fun _ he => he⟩

theorem Observes.trans (h₁ : Observes w w₁) (h₂ : Observes w₁ w₂) : Observes w w₂ :=
  ⟨h₁.evolves.trans h₂.evolves, fun e he => h₂.log e (h₁.log e he)⟩

theorem Observes.cons {s : Store RateLimitValue} (hs : w.state.Evolves s) (e : ThrottledEvent K) :
    Observes w ⟨s, e :: w.log⟩ := ⟨hs, fun _ he => List.mem_cons_of_mem _ he⟩

end Observes

section Tally
variable {K : Type} [Field K] [LinearOrder K] [FloorRing K] (scope : String) (limit windowSeconds : ℤ)

/-- An increment of the counter that was answered. -/
def incremented (key : String) : ThrottledEvent K → Bool
  | .perform _ r (.transact _) (.ok _) => r.key scope windowSeconds == key
  | _ => false

/-- The etag of a counter is its count and the number of its increments, and within the limit. -/
structure Tallied (w : ThrottledWorld K) (key : String) : Prop where
  current : RateLimitValue.current key (w.state.value key) = .ok (w.state.etag key)
  increments : w.log.countP (incremented scope windowSeconds key) = w.state.etag key
  le : w.state.etag key ≤ limit

/-- Every counter of the scope. -/
def AllTallied (w : ThrottledWorld K) : Prop :=
  ∀ identity bucket, Tallied scope limit windowSeconds w (rateLimitKey scope identity bucket)

/-- A request that is let in has counted. -/
def Counted (i : ℕ) (r : ThrottledRequest K) (result : Except Exn AuthenticatedUser)
    (w : ThrottledWorld K) : Prop :=
  match result with
  | .ok _ => ∃ e ∈ w.log, e.tid = i ∧ incremented scope windowSeconds (r.key scope windowSeconds) e = true
  | .error _ => True

end Tally

section Steps
variable {K : Type} [Field K] [LinearOrder K] [FloorRing K] {scope : String} {limit windowSeconds : ℤ}
  {w w₁ w₂ : ThrottledWorld K} {i : ℕ} {r : ThrottledRequest K}

theorem AllTallied.quiet (h : AllTallied scope limit windowSeconds w) {e : ThrottledEvent K}
    (he : ∀ key, incremented scope windowSeconds key e = false) :
    AllTallied scope limit windowSeconds ⟨w.state, e :: w.log⟩ := by
  intro identity bucket
  obtain ⟨hcurrent, hincrements, hle⟩ := h identity bucket
  refine ⟨hcurrent, ?_, hle⟩
  rw [List.countP_cons_of_neg (by rw [he]; decide)]
  exact hincrements

theorem AllTallied.increment (h : AllTallied scope limit windowSeconds w)
    (hlt : (w.state.etag (r.key scope windowSeconds) : ℤ) < limit) (ws : List (Write RateLimitValue)) :
    AllTallied scope limit windowSeconds ⟨w.state.put (r.key scope windowSeconds)
      (.count (w.state.etag (r.key scope windowSeconds) + 1)),
        .perform i r (.transact ws) (.ok ()) :: w.log⟩ := by
  intro identity bucket
  obtain ⟨hcurrent, hincrements, hle⟩ := h identity bucket
  by_cases hkey : r.key scope windowSeconds = rateLimitKey scope identity bucket
  · rw [hkey] at hlt ⊢
    refine ⟨?_, ?_, ?_⟩
    · simp [RateLimitValue.current]
    · rw [List.countP_cons_of_pos (by simp [incremented, hkey]), hincrements, Store.etag_put_self]
    · rw [Store.etag_put_self]
      push_cast
      omega
  · have hcells :=
      Store.cells_put_ne w.state (.count (w.state.etag (r.key scope windowSeconds) + 1)) (Ne.symm hkey)
    refine ⟨?_, ?_, ?_⟩
    · rw [Store.value_congr hcells, Store.etag_congr hcells]
      exact hcurrent
    · rw [List.countP_cons_of_neg (by simp [incremented, hkey]), Store.etag_congr hcells]
      exact hincrements
    · rw [Store.etag_congr hcells]
      exact hle

abbrev SafeRequest (scope : String) (limit windowSeconds : ℤ) (i : ℕ) (r : ThrottledRequest K)
    (p : Prog (storeSig RateLimitValue) Exn AuthenticatedUser) (w : ThrottledWorld K) : Prop :=
  Safe (throttled scope limit windowSeconds) Served (AllTallied scope limit windowSeconds)
    (fun _ => Observes) i r p (Counted scope windowSeconds i r) w

/-- **A race**: the increment commits, or somebody else's did since the read. -/
theorem safe_increment {attempts e : ℕ} (hlost : maxRetries ≤ attempts + 1 + e) (hlt : (e : ℤ) < limit)
    (hretry : ∀ w, AllTallied scope limit windowSeconds w →
      maxRetries ≤ attempts + w.state.etag (r.key scope windowSeconds) →
        SafeRequest scope limit windowSeconds i r (r.attempts scope limit windowSeconds attempts) w)
    (hetag : e ≤ w.state.etag (r.key scope windowSeconds)) :
    SafeRequest scope limit windowSeconds i r
      (.await (.transact (increment (r.key scope windowSeconds) e e))
        (r.afterWrite scope limit windowSeconds attempts))
      w := by
  intro w₁ hR hI c hc
  obtain rfl : c = .serve := hc
  have hetag₁ : e ≤ w₁.state.etag (r.key scope windowSeconds) := le_trans hetag (hR.evolves.etag_le _)
  by_cases hcommits : w₁.state.etag (r.key scope windowSeconds) = e
  · have hexec : (throttled (K := K) scope limit windowSeconds).exec .serve
        (.transact (increment (r.key scope windowSeconds) e e)) w₁.state =
          (.ok (), w₁.state.put (r.key scope windowSeconds) (.count (e + 1))) :=
      Op.perform_current ((current_increment _).mpr hcommits)
    simp only [World.performed, hexec]
    subst hcommits
    refine ⟨hI.increment hlt _, fun j _ => .cons (Store.evolves_put _ _ _) _, ?_⟩
    exact ⟨_, List.mem_cons_self, rfl, beq_self_eq_true _⟩
  · have hexec : (throttled (K := K) scope limit windowSeconds).exec .serve
        (.transact (increment (r.key scope windowSeconds) e e)) w₁.state =
          (.error (.rpcError ""), w₁.state) :=
      Op.perform_stale (fun h => hcommits ((current_increment _).mp h)) .serve
    simp only [World.performed, hexec]
    have hquiet : AllTallied scope limit windowSeconds ⟨w₁.state, .perform i r
        (.transact (increment (r.key scope windowSeconds) e e)) (.error (.rpcError "")) :: w₁.log⟩ :=
      hI.quiet fun _ => rfl
    exact ⟨hquiet, fun j _ => .cons (.refl _) _, hretry _ hquiet (by show _ ≤ _ + w₁.state.etag _; omega)⟩

/-- **The attempts**: every one that was lost has counted, so the limit is met before they run out. -/
theorem safe_attempts (hlimit : limit < maxRetries) (attempts : ℕ)
    (hI : AllTallied scope limit windowSeconds w)
    (hlost : maxRetries ≤ attempts + w.state.etag (r.key scope windowSeconds)) :
    SafeRequest scope limit windowSeconds i r (r.attempts scope limit windowSeconds attempts) w := by
  induction attempts generalizing w with
  | zero =>
    have hle := (hI r.user.sub (bucketOf r.now windowSeconds)).le
    rw [← ThrottledRequest.key] at hle
    omega
  | succ attempts ih =>
    rw [ThrottledRequest.attempts_succ]
    intro w₁ hR hI c hc
    obtain rfl : c = .serve := hc
    have hlost₁ : maxRetries ≤ attempts + 1 + w₁.state.etag (r.key scope windowSeconds) :=
      le_trans hlost (Nat.add_le_add_left (hR.evolves.etag_le _) _)
    obtain ⟨hcurrent, -, hle⟩ := hI r.user.sub (bucketOf r.now windowSeconds)
    rw [← ThrottledRequest.key] at hcurrent hle
    refine ⟨hI.quiet fun _ => rfl, fun j _ => .cons (.refl _) _, ?_⟩
    show SafeRequest scope limit windowSeconds i r
        (r.afterRead scope limit windowSeconds attempts (.ok (_, _))) _
    rcases lt_or_ge (w₁.state.etag (r.key scope windowSeconds) : ℤ) limit with hlt | hge
    · rw [ThrottledRequest.afterRead_below hcurrent hlt]
      exact safe_increment hlost₁ hlt (fun w hI hlost => ih hI hlost) le_rfl
    · rw [ThrottledRequest.afterRead_over hcurrent hge]
      trivial

end Steps

/-! ## Small limits -/

section Small
variable {K : Type} [Field K] [LinearOrder K] [FloorRing K] {scope : String} {limit windowSeconds : ℤ}

theorem allTallied_empty (hlimit : 1 ≤ limit) :
    AllTallied (K := K) scope limit windowSeconds ⟨.empty, []⟩ :=
  fun _ _ => ⟨rfl, rfl, by show (0 : ℤ) ≤ limit; omega⟩

/-- The proof outline of the requests, where the limit is below the number of retries. -/
def requestOutline (scope : String) (limit windowSeconds : ℤ) (hlimit : 1 ≤ limit)
    (hwindow : 1 ≤ windowSeconds)
    (hsmall : limit < maxRetries) : Outline (throttled (K := K) scope limit windowSeconds) Served where
  I := AllTallied scope limit windowSeconds
  R := fun _ => Observes
  Post := Counted scope windowSeconds
  refl _ := Observes.refl
  trans _ _ _ _ := Observes.trans
  post_stable := by
    intro i r result w w₁ hR _ hpost
    cases result with
    | error e => trivial
    | ok user =>
      obtain ⟨e, he, htid, hinc⟩ := hpost
      exact ⟨e, hR.log e he, htid, hinc⟩
  invoke := by
    intro w n r s hI _ hinvoke
    cases hinvoke
    refine ⟨hI.quiet fun _ => rfl, fun _ _ => .cons (.refl _) _, ?_⟩
    rw [body_eq hlimit hwindow]
    exact safe_attempts hsmall maxRetries (hI.quiet fun _ => rfl) (Nat.le_add_right _ _)
  respond hI _ := ⟨hI.quiet fun _ => rfl, fun _ => .cons (.refl _) _⟩

theorem isAdmitted_iff {sub : String} {bucket : ℤ} {t : ThrottledThread K} :
    isAdmitted windowSeconds sub bucket t = true ↔
      t.call.user.sub = sub ∧ bucketOf t.call.now windowSeconds = bucket ∧
      ∃ user, t.status = .done (.ok user) := by
  obtain ⟨call, p | e | user⟩ := t <;> simp [isAdmitted]

/-- **Up to the limit**: each request that is let in has an increment of its own. -/
theorem admitted_le (hlimit : 1 ≤ limit) (hwindow : 1 ≤ windowSeconds) (hsmall : limit < maxRetries)
    {cfg : ThrottledConfig K}
    (hr : (throttled scope limit windowSeconds).Reach (meets Served) (System.start .empty) cfg)
    (sub : String) (bucket : ℤ) : admitted windowSeconds sub bucket cfg ≤ limit.toNat := by
  have hholds :=
    (requestOutline scope limit windowSeconds hlimit hwindow hsmall).sound (allTallied_empty hlimit) hr
  obtain ⟨-, hincrements, hle⟩ := hholds.inv sub bucket
  have hcount : admitted windowSeconds sub bucket cfg ≤
      cfg.world.state.etag (rateLimitKey scope sub bucket) := by
    rw [← hincrements]
    refine countP_threads_le fun i t hi hadmitted => ?_
    obtain ⟨rfl, rfl, user, hstatus⟩ := isAdmitted_iff.mp hadmitted
    have hpost := hholds.threads i t hi
    rw [Outline.ThreadOk, hstatus] at hpost
    exact hpost
  omega

end Small

/-! ## A crowd -/

section Crowd
variable {K : Type} [Field K] [LinearOrder K] [FloorRing K] {scope : String} {limit windowSeconds : ℤ}
  {r : ThrottledRequest K}

/-- The store after the counter was incremented so often. -/
def counted (key : String) : ℕ → Store RateLimitValue
  | 0 => .empty
  | n + 1 => (counted key n).put key (.count (n + 1))

theorem etag_counted (key : String) (n : ℕ) : (counted key n).etag key = n := by
  induction n with
  | zero => rfl
  | succ n ih => rw [counted, Store.etag_put_self, ih]

theorem current_counted (key : String) (n : ℕ) :
    RateLimitValue.current key ((counted key n).value key) = .ok (n : ℤ) := by
  cases n with
  | zero => rfl
  | succ n =>
    rw [counted, Store.value_put_self]
    simp [RateLimitValue.current]

variable (scope limit windowSeconds r) in
/-- A crowd of requests that have these attempts left, when the counter was incremented so often. -/
def Crowded (n attempts increments : ℕ) : Prop :=
  ∃ log rest, (throttled scope limit windowSeconds).Reach (meets Served) (System.start .empty)
    ⟨⟨counted (r.key scope windowSeconds) increments, log⟩,
      List.replicate n ⟨r, .running (r.attempts scope limit windowSeconds attempts)⟩ ++ rest⟩

variable {n attempts increments : ℕ} {log : List (ThrottledEvent K)} {threads : List (ThrottledThread K)}

theorem exec_get (s : Store RateLimitValue) (key : String) :
    (throttled (K := K) scope limit windowSeconds).exec .serve (.get key) s =
      (.ok (s.value key, s.etag key), s) := rfl

/-- One more request, that wins the race for the counter. -/
theorem winner (hlimit : 1 ≤ limit) (hwindow : 1 ≤ windowSeconds) (hlt : (increments : ℤ) < limit)
    (h : (throttled scope limit windowSeconds).Reach (meets Served) (System.start .empty)
      ⟨⟨counted (r.key scope windowSeconds) increments, log⟩, threads⟩) :
    ∃ log' t, (throttled scope limit windowSeconds).Reach (meets Served) (System.start .empty)
      ⟨⟨counted (r.key scope windowSeconds) (increments + 1), log'⟩, threads ++ [t]⟩ := by
  have hinvoked := h.tail (a := .invoke r) trivial rfl
  rw [body_eq hlimit hwindow, maxRetries, ThrottledRequest.attempts_succ] at hinvoked
  obtain ⟨log₁, hread⟩ := hinvoked.step_last .serve (exec_get _ _) fun _ _ => rfl
  rw [ThrottledRequest.afterRead_below (current_counted _ _) hlt, etag_counted] at hread
  have hexec : (throttled (K := K) scope limit windowSeconds).exec .serve
      (.transact (increment (r.key scope windowSeconds) increments increments))
      (counted (r.key scope windowSeconds) increments) =
        (.ok (), counted (r.key scope windowSeconds) (increments + 1)) :=
    Op.perform_current ((current_increment _).mpr (etag_counted _ _))
  obtain ⟨log₂, hcommit⟩ := hread.step_last .serve hexec fun _ _ => rfl
  exact ⟨log₂, _, hcommit⟩

/-- **A round**: the crowd reads the counter, another request increments it, and the crowd has lost. -/
theorem Crowded.round (hlimit : 1 ≤ limit) (hwindow : 1 ≤ windowSeconds) (hlt : (increments : ℤ) < limit)
    (h : Crowded scope limit windowSeconds r n (attempts + 1) increments) :
    Crowded scope limit windowSeconds r n attempts (increments + 1) := by
  obtain ⟨log, rest, h⟩ := h
  rw [ThrottledRequest.attempts_succ] at h
  obtain ⟨log₁, hread⟩ := h.crowd (moves_step (exec_get _ _) fun _ _ => rfl)
  rw [ThrottledRequest.afterRead_below (current_counted _ _) hlt, etag_counted] at hread
  obtain ⟨log₂, t, hwon⟩ := winner hlimit hwindow hlt hread
  rw [List.append_assoc] at hwon
  have hexec : (throttled (K := K) scope limit windowSeconds).exec .serve
      (.transact (increment (r.key scope windowSeconds) increments increments))
      (counted (r.key scope windowSeconds) (increments + 1)) =
        (.error (.rpcError ""), counted (r.key scope windowSeconds) (increments + 1)) := by
    refine Op.perform_stale (fun hcurrent => ?_) .serve
    have hetag := (current_increment _).mp hcurrent
    rw [etag_counted] at hetag
    omega
  obtain ⟨log₃, hlost⟩ := hwon.crowd (moves_step hexec fun _ _ => rfl)
  exact ⟨log₃, _, hlost⟩

/-- The rounds, by induction on their number. -/
theorem Crowded.rounds (hlimit : 1 ≤ limit) (hwindow : 1 ≤ windowSeconds) {rounds : ℕ}
    (hle : (rounds : ℤ) ≤ limit) (h : Crowded scope limit windowSeconds r n (attempts + rounds) 0) :
    Crowded scope limit windowSeconds r n attempts rounds := by
  induction rounds generalizing attempts with
  | zero => exact h
  | succ rounds ih =>
    push_cast at hle
    have hsplit : attempts + (rounds + 1) = attempts + 1 + rounds := by omega
    rw [hsplit] at h
    exact (ih (by omega) h).round hlimit hwindow (by omega)

variable (r n) in
/-- **From five on**, any number of requests are let in by one user in one bucket. -/
theorem crowd_admitted (hlimit : maxRetries ≤ limit) (hwindow : 1 ≤ windowSeconds) :
    ∃ cfg : ThrottledConfig K,
      (throttled scope limit windowSeconds).Reach (meets Served) (System.start .empty) cfg ∧
      n ≤ admitted windowSeconds r.user.sub (bucketOf r.now windowSeconds) cfg := by
  have hpos : 1 ≤ limit := le_trans (by decide) hlimit
  have harrived : Crowded scope limit windowSeconds r n (0 + maxRetries) 0 := by
    obtain ⟨log, h⟩ : ∃ log,
        (throttled scope limit windowSeconds).Reach (meets Served) (System.start .empty)
        ⟨⟨.empty, log⟩, List.replicate n ⟨r, .running ((throttled scope limit windowSeconds).body r)⟩⟩ :=
      System.Reach.crowd_invoke rfl n
    rw [body_eq hpos hwindow] at h
    exact ⟨log, [], by rwa [List.append_nil]⟩
  obtain ⟨log, rest, h⟩ := harrived.rounds hpos hwindow hlimit
  obtain ⟨log', hdone⟩ := h.crowd (moves_respond (r := .ok r.user) rfl)
  refine ⟨_, hdone, ?_⟩
  have hcrowd : (List.replicate n (⟨r, .done (.ok r.user)⟩ : ThrottledThread K)).countP
      (isAdmitted windowSeconds r.user.sub (bucketOf r.now windowSeconds)) = n := by
    have hin : isAdmitted windowSeconds r.user.sub (bucketOf r.now windowSeconds)
        (⟨r, .done (.ok r.user)⟩ : ThrottledThread K) = true := isAdmitted_iff.mpr ⟨rfl, rfl, r.user, rfl⟩
    rw [List.countP_replicate, if_pos hin]
  rw [admitted, List.countP_append, hcrowd]
  exact Nat.le_add_right _ _

end Crowd

section Bounds
variable {K : Type} [Field K] [LinearOrder K] [FloorRing K]

/-- **Whether the throttle bounds what it lets in**: while every request to the store is served, a limit
below the number of retries is kept by every user in every bucket and every interleaving; with any other
limit, a user can get any number of requests through in one bucket. -/
theorem throttle_bounds_iff (scope : String) (limit windowSeconds : ℤ) (hlimit : 1 ≤ limit)
    (hwindow : 1 ≤ windowSeconds) : (limit < maxRetries → ∀ cfg : ThrottledConfig K,
      (throttled scope limit windowSeconds).Reach (meets Served) (System.start .empty) cfg →
        ∀ sub bucket, admitted windowSeconds sub bucket cfg ≤ limit.toNat) ∧
    (¬ limit < maxRetries → ∀ (r : ThrottledRequest K) n, ∃ cfg : ThrottledConfig K,
      (throttled scope limit windowSeconds).Reach (meets Served) (System.start .empty) cfg ∧
        n ≤ admitted windowSeconds r.user.sub (bucketOf r.now windowSeconds) cfg) :=
  ⟨fun hsmall _ hr => admitted_le hlimit hwindow hsmall hr,
    fun hlarge r n => crowd_admitted r n (not_lt.mp hlarge) hwindow⟩

/-- A hundred invoices in a minute, where twenty are allowed. -/
theorem hundred_admitted : ∃ cfg : ThrottledConfig ℚ,
    (throttled "invoice_submit" 20 60).Reach (meets Served) (System.start .empty) cfg ∧
      100 ≤ admitted 60 "mallory" 0 cfg := by
  have hbucket : bucketOf (0 : ℚ) 60 = 0 := by norm_num [bucketOf]
  have hcrowd := (throttle_bounds_iff (K := ℚ) "invoice_submit" 20 60 (by decide) (by decide)).2 (by decide)
    ⟨⟨"mallory", .submitter⟩, 0⟩ 100
  rwa [hbucket] at hcrowd

end Bounds

end ApprovalFlow.Admission
