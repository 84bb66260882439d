import ApprovalFlow.Auth.Service
import ApprovalFlow.Shared.RateLimiter
import Mathlib.Algebra.Order.Floor.Ring
import Mathlib.Tactic.Linarith

/-!
# Retry-After

What a client that is refused is told, and where the clock stands when it obeys.

* `RateLimiter`: the protocol; `InMemoryRateLimiter.limiter`, `DaprStateRateLimiter.limiter`.
* `throttleByUser`, `Auth.throttle`: the dependencies of the routes, with the header of a refusal.
* `Escapes`: a client that waits as long as it is told leaves the exhausted window; `escapes_iff`: it
  does so where the clock reads whole seconds.
-/

namespace ApprovalFlow
open Async

/-- `RateLimiter`; `now` is what the clock reads at the call. -/
structure RateLimiter (σ : Sig) (K : Type) where
  hit : (scope identity : String) → (limit windowSeconds : ℤ) → (now : K) → Prog σ Exn RateLimitResult

structure AuthenticatedUser where
  sub : String
  role : Role
  deriving DecidableEq

/-- The response to a request over the limit. -/
def tooManyRequests (retryAfterSeconds : ℤ) : Exn :=
  .httpException 429 "rate limit exceeded" [("Retry-After", toString retryAfterSeconds)]

section Dependencies
variable {σ : Sig} {K : Type} (limiter : RateLimiter σ K)

/-- What `_check` makes of a hit. -/
def checked (user : AuthenticatedUser) : Except Exn RateLimitResult → Prog σ Exn AuthenticatedUser
  | .ok result => if result.allowed then .ret user else .raise (tooManyRequests result.retryAfterSeconds)
  | .error (.rateLimiterError _) => .ret user
  | .error e => .raise e

/-- `_check` of `throttle_by_user`. -/
def throttleByUser (scope : String) (limit windowSeconds : ℤ) (user : AuthenticatedUser) (now : K) :
    Prog σ Exn AuthenticatedUser :=
  (limiter.hit scope user.sub limit windowSeconds now).attempt (checked user)

namespace Auth

/-- What `_client_ip` reads of a request. -/
structure Request where
  forwardedFor : Option String
  host : Option String

/-- `_client_ip` -/
def clientIp (request : Request) : String :=
  match request.forwardedFor with
  | none => request.host.getD "unknown"
  | some header =>
    if header = "" then request.host.getD "unknown"
    else String.ofList (Numeric.Text.strip Numeric.Text.isSpace ((header.toList.splitOn ',').headD []))

/-- What `_throttle` makes of its two hits. -/
def blocked : Except Exn (RateLimitResult × RateLimitResult) → Prog σ Exn Unit
  | .ok (byEmail, byIp) =>
    if !byEmail.allowed || !byIp.allowed then
      .raise (tooManyRequests (if !byEmail.allowed then byEmail else byIp).retryAfterSeconds)
    else .ret ()
  | .error (.rateLimiterError _) => .ret ()
  | .error e => .raise e

/-- `_throttle`; the clock reads `now` at the first hit and `later` at the second. -/
def throttle (request : Request) (scope email : String) (limit windowSeconds : ℤ)
    (now later : K) : Prog σ Exn Unit :=
  Prog.attempt (do
    let byEmail ← limiter.hit (scope ++ "_email") email limit windowSeconds now
    let byIp ← limiter.hit (scope ++ "_ip") (clientIp request) limit windowSeconds later
    return (byEmail, byIp)) blocked

end Auth

/-! ## What is sent -/

variable {limiter} {S : Type} {h : (o : σ.Op) → S → Except Exn (σ.Res o) × S} {s : S} {scope : String}
  {limit windowSeconds : ℤ} {now later : K}

theorem throttleByUser_refused {user : AuthenticatedUser} {r : ℤ}
    (hhit : ((limiter.hit scope user.sub limit windowSeconds now).eval h s).1 = .ok ⟨false, r⟩) :
    ((throttleByUser limiter scope limit windowSeconds user now).eval h s).1 =
      .error (tooManyRequests r) := by
  unfold throttleByUser
  rw [Prog.eval_attempt, hhit]
  rfl

theorem Auth.throttle_refused {request : Request} {email : String} {byEmail byIp : RateLimitResult} {s' : S}
    (hemail : (limiter.hit (scope ++ "_email") email limit windowSeconds now).eval h s = (.ok byEmail, s'))
    (hip : ((limiter.hit (scope ++ "_ip") (clientIp request) limit windowSeconds later).eval h s').1 =
      .ok byIp)
    (hrefused : byEmail.allowed = false ∨ byIp.allowed = false) :
    ((throttle limiter request scope email limit windowSeconds now later).eval h s).1 =
      .error (tooManyRequests (if byEmail.allowed then byIp else byEmail).retryAfterSeconds) := by
  unfold throttle
  rw [Prog.eval_attempt, Prog.bind_eq, Prog.eval_attempt, hemail, Prog.onOk_ok, Prog.bind_eq,
    Prog.eval_attempt, hip]
  obtain ⟨allowedByEmail, r⟩ := byEmail
  obtain ⟨allowedByIp, r'⟩ := byIp
  cases allowedByEmail with
  | false => rfl
  | true =>
    obtain rfl : allowedByIp = false := hrefused.resolve_left Bool.noConfusion
    rfl

end Dependencies

/-! ## The limiters -/

section Limiters
variable {K : Type} [Field K] [LinearOrder K] [FloorRing K]

/-- A hit on the limiter in memory, as one operation. -/
structure HitOp (K : Type) where
  scope : String
  identity : String
  limit : ℤ
  windowSeconds : ℤ
  now : K

abbrev hitSig (K : Type) : Sig := ⟨HitOp K, fun _ => RateLimitResult⟩

def InMemoryRateLimiter.limiter : RateLimiter (hitSig K) K where
  hit scope identity limit windowSeconds now :=
    @Prog.op (hitSig K) Exn ⟨scope, identity, limit, windowSeconds, now⟩

def InMemoryRateLimiter.answer (o : HitOp K) (counts : InMemoryRateLimiter) :
    Except Exn RateLimitResult × InMemoryRateLimiter :=
  InMemoryRateLimiter.hit o.scope o.identity o.limit o.windowSeconds o.now counts

def DaprStateRateLimiter.limiter {σ : Sig} (client : StateClient σ RateLimitValue) : RateLimiter σ K where
  hit := DaprStateRateLimiter.hit client

variable {scope identity : String} {limit windowSeconds : ℤ} {now : K} {result : RateLimitResult}

/-- Every answer names the end of its window. -/
def Timely (windowSeconds : ℤ) (now : K) (result : RateLimitResult) : Prop :=
  1 ≤ windowSeconds ∧ result.retryAfterSeconds = (bucketAndRetryAfter now windowSeconds).2

theorem InMemoryRateLimiter.timely {counts : InMemoryRateLimiter}
    (h : (hit scope identity limit windowSeconds now counts).1 = .ok result) :
    Timely windowSeconds now result := by
  unfold hit at h
  cases hvalid : validateRateLimitParams limit windowSeconds with
  | error e =>
    rw [hvalid] at h
    cases h
  | ok u =>
    rw [hvalid] at h
    refine ⟨(validateRateLimitParams_ok.mp hvalid).2, ?_⟩
    dsimp only at h
    split_ifs at h with hle
    · cases h
      rfl
    · cases h
      rfl

namespace DaprStateRateLimiter
variable {σ : Sig} {client : StateClient σ RateLimitValue} {S : Type}
    {h : (o : σ.Op) → S → Except Exn (σ.Res o) × S} {s : S}

/-- However the store answers, by induction on the attempts that are left. -/
theorem retryAfter_hitLoop {key : String} {r : ℤ} (attempts : ℕ)
    (hok : ((hitLoop client key limit r attempts).eval h s).1 = .ok result) :
    result.retryAfterSeconds = r := by
  induction attempts generalizing s with
  | zero => cases hok
  | succ attempts ih =>
    rw [hitLoop_succ, Prog.eval_attempt] at hok
    generalize (client.getState key).eval h s = read at hok
    obtain ⟨reply, s₁⟩ := read
    cases reply with
    | error e => cases hok
    | ok response =>
      simp only [StateClient.afterRead] at hok
      cases hcurrent : RateLimitValue.current key response.1 with
      | error e =>
        rw [hcurrent] at hok
        cases hok
      | ok current =>
        rw [hcurrent, afterCount] at hok
        split_ifs at hok with hle
        · cases hok
          rfl
        · rw [Prog.eval_attempt] at hok
          generalize (client.executeStateTransaction (increment key current response.2)).eval h s₁ =
            write at hok
          obtain ⟨reply, s₂⟩ := write
          cases reply with
          | ok u =>
            cases hok
            rfl
          | error e =>
            cases e with
            | rpcError details => exact ih hok
            | _ => cases hok

theorem timely (hok : ((hit client scope identity limit windowSeconds now).eval h s).1 = .ok result) :
    Timely windowSeconds now result := by
  cases hvalid : validateRateLimitParams limit windowSeconds with
  | error e =>
    rw [hit_invalid _ _ hvalid] at hok
    cases hok
  | ok u =>
    rw [hit_valid _ _ hvalid] at hok
    exact ⟨(validateRateLimitParams_ok.mp hvalid).2, retryAfter_hitLoop maxRetries hok⟩

end DaprStateRateLimiter

end Limiters

/-! ## The window -/

/-- Who waits `r` seconds leaves the window, and counts on another counter. -/
structure Escapes {K : Type} [Field K] [LinearOrder K] [FloorRing K] (scope identity : String)
    (windowSeconds : ℤ) (now : K) (r : ℤ) : Prop where
  positive : 0 < r
  within : r ≤ windowSeconds
  later : bucketOf now windowSeconds < bucketOf (now + r) windowSeconds
  counter : rateLimitKey scope identity (bucketOf (now + r) windowSeconds) ≠
    rateLimitKey scope identity (bucketOf now windowSeconds)

section Window
variable {K : Type} [Field K] [LinearOrder K] [IsStrictOrderedRing K] [FloorRing K]
    {scope identity : String}
  {windowSeconds : ℤ} {now : K}

theorem bucketOf_le_iff (hw : 1 ≤ windowSeconds) {x : K} {bucket : ℤ} :
    bucket ≤ bucketOf x windowSeconds ↔ ((bucket * windowSeconds : ℤ) : K) ≤ x := by
  have hpos : (0 : K) < windowSeconds := by exact_mod_cast hw
  unfold bucketOf
  rw [Int.le_floor, le_div_iff₀ hpos, Int.cast_mul]

theorem lt_windowEnd (hw : 1 ≤ windowSeconds) (now : K) :
    now < (((bucketOf now windowSeconds + 1) * windowSeconds : ℤ) : K) := by
  apply not_le.mp
  intro hle
  have := (bucketOf_le_iff hw).mpr hle
  omega

theorem retryAfter_eq (hw : 1 ≤ windowSeconds) (now : K) : (bucketAndRetryAfter now windowSeconds).2 =
    ⌊(((bucketOf now windowSeconds + 1) * windowSeconds : ℤ) : K) - now⌋ := by
  show truncate _ = _
  unfold truncate
  rw [if_pos (sub_nonneg.mpr (lt_windowEnd hw now).le)]

/-- **Waiting as told leaves the window where the clock reads whole seconds**, and nowhere else. -/
theorem escapes_iff (hw : 1 ≤ windowSeconds) (scope identity : String) (now : K) :
    Escapes scope identity windowSeconds now (bucketAndRetryAfter now windowSeconds).2 ↔
      ∃ n : ℤ, now = n := by
  have hstart : _ ≤ now := (bucketOf_le_iff hw).mp le_rfl
  have hlt := lt_windowEnd hw now
  rw [retryAfter_eq hw]
  generalize hend : (bucketOf now windowSeconds + 1) * windowSeconds = windowEnd at *
  constructor
  · intro h
    -- the later reading is not before the end of the window, so nothing was cut off
    have hlater := (bucketOf_le_iff hw).mp (Int.add_one_le_iff.mpr h.later)
    rw [hend] at hlater
    have hfloor := Int.floor_le ((windowEnd : K) - now)
    refine ⟨windowEnd - ⌊(windowEnd : K) - now⌋, ?_⟩
    push_cast
    linarith
  · rintro ⟨n, rfl⟩
    have hfloor : ⌊(windowEnd : K) - n⌋ = windowEnd - n := by
      rw [← Int.cast_sub, Int.floor_intCast]
    have hbefore : n < windowEnd := by exact_mod_cast hlt
    have hafter : bucketOf (n : K) windowSeconds * windowSeconds ≤ n := by exact_mod_cast hstart
    have hlater : bucketOf (n : K) windowSeconds <
        bucketOf ((n : K) + (windowEnd - n : ℤ)) windowSeconds := by
      refine Int.lt_iff_add_one_le.mpr ((bucketOf_le_iff hw).mpr ?_)
      rw [hend]
      push_cast
      linarith
    rw [hfloor]
    refine ⟨by omega, ?_, hlater, fun hkey => ?_⟩
    · rw [add_mul, one_mul] at hend
      omega
    · have hbucket := Numeric.integer_inj ((String.append_right_inj _).mp hkey)
      omega

/-- **Retry-After.** Of the refused, exactly who is refused at a whole second escapes by waiting as long
as the header says, whatever either limiter holds; and every refusal sends the seconds of the hit that
was refused. -/
theorem retry_after_escapes_iff (scope identity : String) (limit windowSeconds : ℤ) (now : K) :
    (∀ (counts : InMemoryRateLimiter) (r : ℤ),
      ((InMemoryRateLimiter.limiter.hit scope identity limit windowSeconds now).eval
        InMemoryRateLimiter.answer counts).1 = .ok ⟨false, r⟩ →
      (Escapes scope identity windowSeconds now r ↔ ∃ n : ℤ, now = n)) ∧
    (∀ {σ : Sig} {S : Type} (client : StateClient σ RateLimitValue) (h : (o : σ.Op) → S → Except Exn (σ.Res o) × S) (s : S)
      (r : ℤ),
        (((DaprStateRateLimiter.limiter client).hit scope identity limit windowSeconds now).eval h s).1 =
        .ok ⟨false, r⟩ →
      (Escapes scope identity windowSeconds now r ↔ ∃ n : ℤ, now = n)) ∧
    (∀ {σ : Sig} {S : Type} (limiter : RateLimiter σ K) (h : (o : σ.Op) → S → Except Exn (σ.Res o) × S) (s : S)
      (user : AuthenticatedUser) (r : ℤ),
      ((limiter.hit scope user.sub limit windowSeconds now).eval h s).1 = .ok ⟨false, r⟩ →
      ((throttleByUser limiter scope limit windowSeconds user now).eval h s).1 =
        .error (tooManyRequests r)) ∧
    ∀ {σ : Sig} {S : Type} (limiter : RateLimiter σ K) (h : (o : σ.Op) → S → Except Exn (σ.Res o) × S) (s s' : S)
      (request : Auth.Request) (email : String) (later : K) (byEmail byIp : RateLimitResult),
      (limiter.hit (scope ++ "_email") email limit windowSeconds now).eval h s = (.ok byEmail, s') →
      ((limiter.hit (scope ++ "_ip") (Auth.clientIp request) limit windowSeconds later).eval h s').1 =
        .ok byIp →
      byEmail.allowed = false ∨ byIp.allowed = false →
      ((Auth.throttle limiter request scope email limit windowSeconds now later).eval h s).1 =
        .error (tooManyRequests (if byEmail.allowed then byIp else byEmail).retryAfterSeconds) := by
  have htimely {r : ℤ} (h : Timely windowSeconds now ⟨false, r⟩) :
      Escapes scope identity windowSeconds now r ↔ ∃ n : ℤ, now = n := by
    obtain ⟨hw, hr⟩ := h
    obtain rfl : r = _ := hr
    exact escapes_iff hw scope identity now
  refine ⟨fun counts r h => htimely ?_, fun client h s r hok => htimely (DaprStateRateLimiter.timely hok),
    fun limiter h s user r hhit => throttleByUser_refused hhit,
    fun limiter h s s' request email later byEmail byIp hemail hip hrefused =>
      Auth.throttle_refused hemail hip hrefused⟩
  have hhit : ((InMemoryRateLimiter.limiter.hit scope identity limit windowSeconds now).eval
      InMemoryRateLimiter.answer
      counts) = InMemoryRateLimiter.hit scope identity limit windowSeconds now counts := Prog.eval_op _
  rw [hhit] at h
  exact InMemoryRateLimiter.timely h

end Window

/-- One request a minute, and the windows of 60 and of 120 seconds exhausted. -/
def exhausted : InMemoryRateLimiter :=
  (Dict.empty.insert (rateLimitKey "login" "alice" 1) 1).insert (rateLimitKey "login" "alice" 2) 1

theorem escapes_at_125 : Escapes "login" "alice" 60 (125 : ℚ) 55 :=
  ((retry_after_escapes_iff "login" "alice" 1 60 (125 : ℚ)).1 exhausted 55 (by decide +kernel)).mpr
    ⟨125, by norm_num⟩

/-- Refused half a second before the end the header says 0; refused at 100.5 it says 19, and at 119.5 the
client is refused again. -/
theorem refused_again :
    ((InMemoryRateLimiter.hit "login" "alice" 1 60 (239 / 2 : ℚ) exhausted).1 = .ok ⟨false, 0⟩ ∧
      ¬ Escapes "login" "alice" 60 (239 / 2 : ℚ) 0) ∧
    ((InMemoryRateLimiter.hit "login" "alice" 1 60 (201 / 2 : ℚ) exhausted).1 = .ok ⟨false, 19⟩ ∧
      ¬ Escapes "login" "alice" 60 (201 / 2 : ℚ) 19) ∧
    (InMemoryRateLimiter.hit "login" "alice" 1 60 (201 / 2 + (19 : ℤ) : ℚ) exhausted).1 =
      .ok ⟨false, 0⟩ := by
  refine ⟨⟨by decide +kernel, fun h => absurd h.positive (by decide)⟩,
    ⟨by decide +kernel, fun h => ?_⟩, by decide +kernel⟩
  exact absurd h.later (by decide +kernel)

end ApprovalFlow
