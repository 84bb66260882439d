import ApprovalFlow.Async.Calls
import ApprovalFlow.Shared.RetryAfter
import ApprovalFlow.Shared.Throttle

/-!
# Who is locked out

The throttle of the register and the login route counts a request twice, under its email and under its
address. Requests come one after another here, and the store serves them.

* `AuthAttempt`: a request; `AuthAttempt.check`: the dependency of its route; `attempted`: the store
  after a history.
* `Tallies`: every counter stands at the number of its hits, or at the limit if there were more.
* `let_in_iff`: a request is let in while fewer than the limit named its email and fewer came from its
  address. The refused ones count too, so who is refused for his address can still lock others out.
-/

namespace ApprovalFlow.Auth
open Async Versioned

/-- A request; the clock reads `now` at the first hit and `later` at the second. -/
structure AuthAttempt (K : Type) where
  request : Request
  email : String
  now : K
  later : K

section Attempts
variable {K : Type} [Field K] [LinearOrder K] [FloorRing K] (scope : String) (limit windowSeconds : ℤ)

namespace AuthAttempt
variable (a : AuthAttempt K)

def check : Prog (storeSig RateLimitValue) Exn Unit :=
  throttle (DaprStateRateLimiter.limiter (storeClient RateLimitValue)) a.request scope a.email
    limit windowSeconds a.now a.later

def emailKey : String := rateLimitKey (scope ++ "_email") a.email (bucketOf a.now windowSeconds)

def ipKey : String := rateLimitKey (scope ++ "_ip") (clientIp a.request) (bucketOf a.later windowSeconds)

/-- The hits of the request on a counter. -/
def hits (key : String) : ℕ :=
  (if key = a.emailKey scope windowSeconds then 1 else 0) + if key =
    a.ipKey scope windowSeconds then 1 else 0

end AuthAttempt

/-- The store after some requests. -/
def attempted (earlier : List (AuthAttempt K)) : Store RateLimitValue :=
  leaves (lossyStore RateLimitValue) (AuthAttempt.check scope limit windowSeconds)
    (earlier.map (·, .serve)) .empty

/-- The request is let in after the earlier ones. -/
def LetIn (earlier : List (AuthAttempt K)) (a : AuthAttempt K) : Prop :=
  ((a.check scope limit windowSeconds).eval (lossyStore RateLimitValue .serve)
    (attempted scope limit windowSeconds earlier)).1 = .ok ()

variable {scope limit windowSeconds} {s : Store RateLimitValue} {count : String → ℕ}

/-- Every counter is at its number of hits, and not beyond the limit. -/
def Tallies (limit : ℤ) (s : Store RateLimitValue) (count : String → ℕ) : Prop :=
  ∀ key, RateLimitValue.current key (s.value key) = .ok (min limit (count key))

theorem tallies_empty (hlimit : 1 ≤ limit) : Tallies limit .empty fun _ => 0 := by
  intro key
  have hzero : min limit ((0 : ℕ) : ℤ) = 0 := by omega
  rw [hzero]
  rfl

theorem Tallies.congr {count' : String → ℕ} (h : Tallies limit s count)
    (hc : ∀ key, count key = count' key) : Tallies limit s count' := by
  intro key
  rw [h key, hc]

/-- **One hit** is allowed while there were fewer than the limit, and counts. -/
theorem Tallies.hit (h : Tallies limit s count) (hlimit : 1 ≤ limit) (hwindow : 1 ≤ windowSeconds)
    (scope identity : String) (now : K) :
    ∃ s' r,
      ((DaprStateRateLimiter.limiter (storeClient RateLimitValue)).hit scope identity limit
        windowSeconds now).eval (lossyStore RateLimitValue .serve) s =
          (.ok ⟨decide ((count (rateLimitKey scope identity (bucketOf now windowSeconds)) : ℤ) < limit),
            r⟩, s') ∧
      Tallies limit s' fun key =>
        count key + if key = rateLimitKey scope identity (bucketOf now windowSeconds) then 1 else 0 := by
  have hvalid := validateRateLimitParams_ok.mpr ⟨hlimit, hwindow⟩
  show ∃ s' r, (DaprStateRateLimiter.hit _ _ _ _ _ _).eval _ s = _ ∧ _
  rw [DaprStateRateLimiter.hit_valid _ _ hvalid]
  generalize rateLimitKey scope identity (bucketOf now windowSeconds) = key
  have heval := Throttle.eval_hitLoop (h key) limit (bucketAndRetryAfter now windowSeconds).2 4
  by_cases hlt : (count key : ℤ) < limit
  · have hmin : min limit (count key : ℤ) = count key := by omega
    rw [hmin, if_neg (by omega)] at heval
    refine ⟨_, _, heval.trans (by rw [decide_eq_true hlt]), fun key' => ?_⟩
    dsimp only
    rw [Store.value_put]
    split_ifs with hkey
    · subst hkey
      have hnext : min limit ((count key' + 1 : ℕ) : ℤ) = count key' + 1 := by omega
      rw [hnext]
      rfl
    · exact h key'
  · have hmin : min limit (count key : ℤ) = limit := by omega
    rw [hmin, if_pos le_rfl] at heval
    refine ⟨_, _, heval.trans (by rw [decide_eq_false hlt]), fun key' => ?_⟩
    dsimp only
    rw [h key']
    split_ifs with hkey
    · subst hkey
      have hsame : min limit ((count key' + 1 : ℕ) : ℤ) = limit := by omega
      rw [hmin, hsame]
    · rfl

theorem eval_blocked (byEmail byIp : RateLimitResult) :
    (((blocked (.ok (byEmail, byIp)) : Prog (storeSig RateLimitValue) Exn Unit).eval
      (lossyStore RateLimitValue .serve) s).1 = .ok () ↔ byEmail.allowed = true ∧ byIp.allowed = true) ∧
    ((blocked (.ok (byEmail, byIp)) : Prog (storeSig RateLimitValue) Exn Unit).eval
      (lossyStore RateLimitValue .serve) s).2 = s := by
  obtain ⟨x, r⟩ := byEmail
  obtain ⟨y, r'⟩ := byIp
  cases x <;> cases y <;> simp [blocked]

/-- **One request** makes both its hits, and is let in if both are allowed. -/
theorem Tallies.check (h : Tallies limit s count) (hlimit : 1 ≤ limit) (hwindow : 1 ≤ windowSeconds)
    (a : AuthAttempt K) (hkeys : a.emailKey scope windowSeconds ≠ a.ipKey scope windowSeconds) :
    (((a.check scope limit windowSeconds).eval (lossyStore RateLimitValue .serve) s).1 = .ok () ↔
      (count (a.emailKey scope windowSeconds) : ℤ) < limit ∧
        (count (a.ipKey scope windowSeconds) : ℤ) < limit) ∧
    Tallies limit ((a.check scope limit windowSeconds).eval (lossyStore RateLimitValue .serve) s).2
      fun key =>
      count key + a.hits scope windowSeconds key := by
  obtain ⟨s₁, r₁, heval₁, h₁⟩ := h.hit hlimit hwindow (scope ++ "_email") a.email a.now
  obtain ⟨s₂, r₂, heval₂, h₂⟩ := h₁.hit hlimit hwindow (scope ++ "_ip") (clientIp a.request) a.later
  have hip : rateLimitKey (scope ++ "_ip") (clientIp a.request) (bucketOf a.later windowSeconds) ≠
      rateLimitKey (scope ++ "_email") a.email (bucketOf a.now windowSeconds) := hkeys.symm
  rw [if_neg hip, add_zero] at heval₂
  have hcheck : (a.check scope limit windowSeconds).eval (lossyStore RateLimitValue .serve) s =
      (blocked (.ok (⟨decide ((count (a.emailKey scope windowSeconds) : ℤ) < limit), r₁⟩,
        ⟨decide ((count (a.ipKey scope windowSeconds) : ℤ) < limit), r₂⟩))).eval
          (lossyStore RateLimitValue .serve) s₂ := by
    unfold AuthAttempt.check throttle
    rw [Prog.eval_attempt, Prog.bind_eq, Prog.eval_attempt, heval₁, Prog.onOk_ok,
      Prog.bind_eq, Prog.eval_attempt, heval₂]
    rfl
  rw [hcheck]
  obtain ⟨hadmitted, hstore⟩ := @eval_blocked s₂
    ⟨decide ((count (a.emailKey scope windowSeconds) : ℤ) < limit), r₁⟩
    ⟨decide ((count (a.ipKey scope windowSeconds) : ℤ) < limit), r₂⟩
  refine ⟨hadmitted.trans (by simp only [decide_eq_true_eq]), ?_⟩
  rw [hstore]
  exact h₂.congr fun key => by rw [add_assoc]; rfl

/-- The hits of some requests on a counter. -/
def totalHits (scope : String) (windowSeconds : ℤ) (earlier : List (AuthAttempt K)) (key : String) : ℕ :=
  (earlier.map (·.hits scope windowSeconds key)).sum

/-- **The run lemma**: every request counts, whether it was let in or not. -/
theorem tallies_attempted (hlimit : 1 ≤ limit) (hwindow : 1 ≤ windowSeconds)
    (hkeys : ∀ a b : AuthAttempt K, a.emailKey scope windowSeconds ≠ b.ipKey scope windowSeconds)
    (earlier : List (AuthAttempt K)) :
    Tallies limit (attempted scope limit windowSeconds earlier)
      (totalHits scope windowSeconds earlier) := by
  induction earlier using List.reverseRecOn with
  | nil => exact tallies_empty hlimit
  | append_singleton earlier a ih =>
    have hlast : attempted scope limit windowSeconds (earlier ++ [a]) =
        ((a.check scope limit windowSeconds).eval (lossyStore RateLimitValue .serve)
          (attempted scope limit windowSeconds earlier)).2 := by
      unfold attempted leaves
      rw [List.map_append, List.foldl_append]
      rfl
    rw [hlast]
    exact (ih.check hlimit hwindow a (hkeys a a)).2.congr fun key => by simp [totalHits]

theorem emailKey_ne_ipKey (hscope : ':' ∉ scope.toList) (a b : AuthAttempt K) :
    a.emailKey scope windowSeconds ≠ b.ipKey scope windowSeconds := by
  intro h
  have hemail : ':' ∉ (scope ++ "_email").toList := by simpa using hscope
  have hip : ':' ∉ (scope ++ "_ip").toList := by simpa using hscope
  obtain ⟨hsame, -⟩ := (rateLimitKey_inj hemail hip).mp h
  have hne : "_email" = "_ip" := (String.append_right_inj scope).mp hsame
  exact absurd hne (by decide)

theorem totalHits_eq {key : String} {P : AuthAttempt K → Prop} [DecidablePred P]
    (h : ∀ b : AuthAttempt K, b.hits scope windowSeconds key = if P b then 1 else 0)
    (earlier : List (AuthAttempt K)) :
    totalHits scope windowSeconds earlier key = earlier.countP P := by
  induction earlier with
  | nil => rfl
  | cons b earlier ih =>
    rw [List.countP_cons, ← ih]
    simp only [totalHits, List.map_cons, List.sum_cons, h, decide_eq_true_eq]
    omega

theorem totalHits_emailKey (hscope : ':' ∉ scope.toList) (earlier : List (AuthAttempt K))
    (a : AuthAttempt K) : totalHits scope windowSeconds earlier (a.emailKey scope windowSeconds) =
      earlier.countP fun b => b.email = a.email ∧
        bucketOf b.now windowSeconds = bucketOf a.now windowSeconds := by
  have hemail : ':' ∉ (scope ++ "_email").toList := by simpa using hscope
  apply totalHits_eq
  intro b
  have hkey : a.emailKey scope windowSeconds = b.emailKey scope windowSeconds ↔
      b.email = a.email ∧ bucketOf b.now windowSeconds = bucketOf a.now windowSeconds := by
    refine (rateLimitKey_inj hemail hemail).trans ?_
    simp only [true_and, eq_comm]
  simp only [AuthAttempt.hits, if_neg (emailKey_ne_ipKey hscope a b), hkey, add_zero]

theorem totalHits_ipKey (hscope : ':' ∉ scope.toList) (earlier : List (AuthAttempt K)) (a : AuthAttempt K) :
    totalHits scope windowSeconds earlier (a.ipKey scope windowSeconds) =
      earlier.countP fun b =>
        clientIp b.request = clientIp a.request ∧
          bucketOf b.later windowSeconds = bucketOf a.later windowSeconds := by
  have hip : ':' ∉ (scope ++ "_ip").toList := by simpa using hscope
  apply totalHits_eq
  intro b
  have hkey : a.ipKey scope windowSeconds = b.ipKey scope windowSeconds ↔
      clientIp b.request = clientIp a.request ∧
        bucketOf b.later windowSeconds = bucketOf a.later windowSeconds := by
    refine (rateLimitKey_inj hip hip).trans ?_
    simp only [true_and, eq_comm]
  simp only [AuthAttempt.hits, if_neg (emailKey_ne_ipKey hscope b a).symm, hkey, zero_add]

/-- **Who is let in**: after any requests, one after another, a request is let in exactly while fewer
than the limit of them named its email and fewer came from its address, in its buckets of the clock. It
does not matter which of them were let in. -/
theorem let_in_iff (scope : String) (limit windowSeconds : ℤ) (hscope : ':' ∉ scope.toList)
    (hlimit : 1 ≤ limit)
    (hwindow : 1 ≤ windowSeconds) (earlier : List (AuthAttempt K)) (a : AuthAttempt K) :
    LetIn scope limit windowSeconds earlier a ↔
      ((earlier.countP fun b => b.email = a.email ∧
        bucketOf b.now windowSeconds = bucketOf a.now windowSeconds : ℕ) : ℤ) < limit ∧
      ((earlier.countP fun b => clientIp b.request = clientIp a.request ∧
        bucketOf b.later windowSeconds = bucketOf a.later windowSeconds : ℕ) : ℤ) < limit := by
  have hkeys := @emailKey_ne_ipKey K _ _ _ scope windowSeconds hscope
  rw [← totalHits_emailKey hscope, ← totalHits_ipKey hscope]
  exact ((tallies_attempted hlimit hwindow hkeys earlier).check hlimit hwindow a (hkeys a a)).1

end Attempts

/-- A login at second 0 from an address. -/
def loginFrom (address email : String) : AuthAttempt ℚ := ⟨⟨some address, none⟩, email, 0, 0⟩

/-- Refused for his address, a client locks an account out for its owner: of four requests from one
address two are let in, the last two are for another account. -/
theorem lockout :
    let earlier := [loginFrom "9.9.9.9" "bob", loginFrom "9.9.9.9" "bob", loginFrom "9.9.9.9" "alice",
      loginFrom "9.9.9.9" "alice"]
    ¬ LetIn "auth_login" 2 60 (earlier.take 2) (loginFrom "9.9.9.9" "alice") ∧
      ¬ LetIn "auth_login" 2 60 earlier (loginFrom "1.1.1.1" "alice") := by
  intro earlier
  refine ⟨fun h => ?_, fun h => ?_⟩
  · have := ((let_in_iff "auth_login" 2 60 (by decide) (by decide) (by decide) _ _).mp h).2
    exact absurd this (by decide +kernel)
  · have := ((let_in_iff "auth_login" 2 60 (by decide) (by decide) (by decide) _ _).mp h).1
    exact absurd this (by decide +kernel)

end ApprovalFlow.Auth
