import ApprovalFlow.Shared.RetryAfter
import Mathlib.Data.Rat.Floor

/-!
# Access tokens

Their issue at a login, their verification by every service, and the secret on both sides.

* `Jwt`: the token library, `Jwt.Lawful`: what it documents of the tokens that are issued here.
* `createAccessToken`, `decodeToken`, `getCurrentUser`, `requireRole`: the shared module.
* `SecretEnv`: where the secret comes from; `authSecret`, `stateSecret`: what Auth and the others obtain
  of it, and `secrets_agree`: that it is the same.
* `getCurrentUser_issued`: who is let in with an issued token, and until when.
-/

namespace ApprovalFlow

/-! ## Roles -/

/-- The value of the `IntEnum`: its rank. -/
def Role.value : Role → ℕ
  | submitter => 1
  | approver => 2
  | admin => 3

instance : LT Role := ⟨fun r r' => r.value < r'.value⟩

instance (r r' : Role) : Decidable (r < r') := inferInstanceAs (Decidable (r.value < r'.value))

/-- `role.name.lower()` -/
def Role.nameLower : Role → String
  | submitter => "submitter"
  | approver => "approver"
  | admin => "admin"

/-- `str.upper`, where it can come to the name of a role: two letters outside ASCII have an ASCII upper
case. -/
def upperChar : Char → Char
  | 'ı' => 'I'
  | 'ſ' => 'S'
  | c => c.toUpper

/-- `Role[str(role_raw).upper()]` -/
def Role.ofClaim (str : String) : Except Exn Role := Role.ofName (String.ofList (str.toList.map upperChar))

theorem Role.ofClaim_nameLower (r : Role) : Role.ofClaim r.nameLower = .ok r := by
  cases r <;> decide +kernel

/-! ## Tokens -/

/-- A value of a token's payload. -/
inductive Claim
  | text (value : String)
  | number (value : ℤ)
  /-- any other JSON value, with its `str` and its truth -/
  | other (str : String) (truthy : Bool)
  deriving DecidableEq

namespace Claim

def truthy : Claim → Bool
  | text value => !value.isEmpty
  | number value => value ≠ 0
  | other _ truthy => truthy

def str : Claim → String
  | text value => value
  | number value => toString value
  | other str _ => str

end Claim

/-- A payload. -/
abbrev Claims := List (String × Claim)

/-- `jwt.encode` and `jwt.decode` with the algorithm pinned to HS256; a decoding reads the clock. -/
structure Jwt where
  encode : Claims → (secret : String) → String
  decode : (token secret : String) → (now : ℚ) → Except String Claims

/-- The payload that is issued. -/
def accessClaims (sub role : String) (iat exp : ℤ) : Claims :=
  [("sub", .text sub), ("role", .text role), ("iat", .number iat), ("exp", .number exp)]

/-- A token decodes to its payload under its secret, from `iat` on and before `exp`, and then to nothing. -/
structure Jwt.Lawful (jwt : Jwt) : Prop where
  valid : ∀ (sub role : String) (iat exp : ℤ) (secret : String) (now : ℚ), iat ≤ now → now < exp →
    jwt.decode (jwt.encode (accessClaims sub role iat exp) secret) secret now =
      .ok (accessClaims sub role iat exp)
  invalid : ∀ (sub role : String) (iat exp : ℤ) (secret : String) (now : ℚ), ¬ (iat ≤ now ∧ now < exp) →
    ∃ reason, jwt.decode (jwt.encode (accessClaims sub role iat exp) secret) secret now = .error reason

/-- `TokenError` -/
inductive TokenError
  | invalid (reason : String)
  | missingClaim
  | unknownRole (raw : Claim)
  deriving DecidableEq

/-- What `decode_token` raises. -/
inductive TokenFailure
  | tokenError (error : TokenError)
  | validationError
  deriving DecidableEq

section Tokens
variable (jwt : Jwt)

/-- `create_access_token`, when the clock reads `now`. -/
def createAccessToken (expiresHours : ℤ) (now : ℚ) (subject : String) (role : Role)
    (secret : String) : String :=
  let iat := truncate now
  jwt.encode (accessClaims subject role.nameLower iat (iat + expiresHours * 3600)) secret

/-- What `decode_token` makes of a payload. -/
def userOfClaims (claims : Claims) : Except TokenFailure AuthenticatedUser :=
  match claims.lookup "sub", claims.lookup "role" with
  | some sub, some roleRaw =>
    if !sub.truthy || !roleRaw.truthy then .error (.tokenError .missingClaim)
    else
      match Role.ofClaim roleRaw.str with
      | .error _ => .error (.tokenError (.unknownRole roleRaw))
      | .ok role =>
        match sub with
        | .text sub => .ok ⟨sub, role⟩
        | _ => .error .validationError
  | _, _ => .error (.tokenError .missingClaim)

def decodeToken (token secret : String) (now : ℚ) : Except TokenFailure AuthenticatedUser :=
  match jwt.decode token secret now with
  | .error reason => .error (.tokenError (.invalid reason))
  | .ok claims => userOfClaims claims

/-- The token of an `Authorization` header. -/
def bearerToken (header : String) : Option String :=
  if "Bearer ".toList.isPrefixOf header.toList then some (String.ofList (header.toList.drop 7)) else none

/-- The value is there, and not empty. -/
def present (value : Option String) : Option String := value.filter (!·.isEmpty)

/-- `_get_secret` -/
def getSecret (env : Option String) : Except Exn String :=
  match present env with
  | none => .error .runtimeError
  | some secret => .ok secret

/-- What `get_current_user` verifies with, where `app.state.jwt_secret` is `state` and `JWT_SECRET` is
`env`. -/
def verifyingSecret (state env : Option String) : Except Exn String :=
  match present state with
  | some secret => .ok secret
  | none => getSecret env

def unauthorized (detail : String) : Exn := .httpException 401 detail []

/-- What `get_current_user` makes of a decoding. -/
def authenticated : Except TokenFailure AuthenticatedUser → Except Exn AuthenticatedUser
  | .ok user => .ok user
  | .error (.tokenError _) => .error (unauthorized "invalid or expired token")
  | .error .validationError => .error .validationError

/-- `get_current_user` -/
def getCurrentUser (state env : Option String) (header : Option String) (now : ℚ) :
    Except Exn AuthenticatedUser :=
  match header.bind bearerToken with
  | none => .error (unauthorized "missing bearer token")
  | some token => do
    let secret ← verifyingSecret state env
    authenticated (decodeToken jwt token secret now)

/-- `_check` of `require_role`. -/
def requireRole (minimum : Role) (user : AuthenticatedUser) : Except Exn AuthenticatedUser :=
  if user.role < minimum then .error (.httpException 403 "insufficient role" []) else .ok user

end Tokens

/-! ## The secret -/

/-- What a service finds at startup: `JWT_SECRET_DAPR_ENABLED`, the reply of the secret store, and
`JWT_SECRET`. -/
structure SecretEnv where
  daprEnabled : Option String
  reply : Except Exn (List (String × String))
  jwtSecret : Option String

/-- The flag is set to `true`, in any case. -/
def SecretEnv.enabled (env : SecretEnv) : Bool :=
  (env.daprEnabled.getD "false").toList.map Char.toLower = "true".toList

/-- `load_jwt_secret_from_dapr` -/
def loadJwtSecretFromDapr : Except Exn (List (String × String)) → Except Exn (Option String)
  | .error (.rpcError _) => .ok none
  | .error .timeoutError => .ok none
  | .error e => .error e
  | .ok secret => .ok (secret.lookup "JWT_SECRET")

/-- `resolve_jwt_secret` -/
def resolveJwtSecret (daprValue envFallback : Option String) : Option String :=
  match present daprValue with
  | some value => some value
  | none => envFallback

namespace SecretEnv
variable (env : SecretEnv)

/-- `app.state.jwt_secret` after the startup of a service that verifies tokens. -/
def stateSecret : Except Exn (Option String) :=
  if env.enabled then do
    let daprSecret ← loadJwtSecretFromDapr env.reply
    return present (resolveJwtSecret daprSecret env.jwtSecret)
  else .ok none

/-- The secret that `build_auth_service` gives to the service. -/
def buildSecret (jwtSecret : Option String) : Option String :=
  match present jwtSecret with
  | some secret => some secret
  | none => env.jwtSecret

/-- The secret of Auth's service after its startup. -/
def authSecret : Except Exn (Option String) :=
  if env.enabled then do
    let daprSecret ← loadJwtSecretFromDapr env.reply
    match present daprSecret with
    | some secret => return env.buildSecret (some secret)
    | none => return env.buildSecret none
  else .ok (env.buildSecret none)

end SecretEnv

/-! ## Both sides -/

theorem present_present (value : Option String) : present (present value) = present value := by
  unfold present
  rw [Option.filter_filter]
  simp

/-- **One secret**: whatever the secret store answers, Auth signs with the secret that the others verify
with. -/
theorem SecretEnv.secrets_agree (env : SecretEnv) {state auth : Option String}
    (hstate : env.stateSecret = .ok state)
    (hauth : env.authSecret = .ok auth) : verifyingSecret state env.jwtSecret = getSecret auth := by
  have hnone : present (none : Option String) = none := rfl
  unfold stateSecret at hstate
  unfold authSecret at hauth
  split_ifs at hstate hauth with henabled
  · obtain ⟨daprSecret, hload, hresolved⟩ := bind_ok hstate
    rw [hload] at hauth
    cases hresolved
    have hauth : (match present daprSecret with
        | some secret => pure (env.buildSecret (some secret))
        | none => pure (env.buildSecret none) : Except Exn (Option String)) = .ok auth := hauth
    rw [verifyingSecret, present_present, resolveJwtSecret]
    cases hdapr : present daprSecret with
    | some secret =>
      have hpresent : present (some secret) = some secret := by rw [← hdapr, present_present]
      rw [hdapr] at hauth
      cases hauth
      simp only [getSecret, buildSecret, hpresent]
    | none =>
      rw [hdapr] at hauth
      cases hauth
      simp only [getSecret, buildSecret, hnone]
      cases present env.jwtSecret <;> rfl
  · cases hstate
    cases hauth
    simp only [verifyingSecret, buildSecret, hnone]

section Issued
variable {jwt : Jwt} {hours : ℤ} {now : ℚ} {sub : String} {role : Role}

theorem bearerToken_bearer (token : String) : bearerToken ("Bearer " ++ token) = some token := by
  have htext : ("Bearer " ++ token).toList = "Bearer ".toList ++ token.toList := String.toList_append
  rw [bearerToken, if_pos]
  · rw [htext, List.drop_left' (by rfl), String.ofList_toList]
  · rw [htext]
    exact List.isPrefixOf_iff_prefix.mpr (List.prefix_append _ _)

theorem userOfClaims_issued (sub : String) (role : Role) (iat exp : ℤ) :
    userOfClaims (accessClaims sub role.nameLower iat exp) =
      if sub = "" then .error (.tokenError .missingClaim) else .ok ⟨sub, role⟩ := by
  have hsub : (accessClaims sub role.nameLower iat exp).lookup "sub" = some (.text sub) := rfl
  have hrole : (accessClaims sub role.nameLower iat exp).lookup "role" = some (.text role.nameLower) := rfl
  have hnonempty : (Claim.text role.nameLower).truthy = true := by cases role <;> decide +kernel
  simp only [userOfClaims, hsub, hrole, hnonempty, Claim.str, Role.ofClaim_nameLower]
  by_cases h : sub = ""
  · subst h
    rfl
  · simp [Claim.truthy, h]

/-- **Who is let in with an issued token**: its subject, in its role, from its issue to its expiry; an
empty subject is never let in. -/
theorem getCurrentUser_issued (hjwt : jwt.Lawful) {state env : Option String} {secret header : String}
    (hsecret : verifyingSecret state env = .ok secret)
    (hheader : bearerToken header = some (createAccessToken jwt hours now sub role secret)) (later : ℚ) :
    getCurrentUser jwt state env (some header) later =
      if sub ≠ "" ∧ truncate now ≤ later ∧ later < (truncate now + hours * 3600 : ℤ) then .ok ⟨sub, role⟩
      else .error (unauthorized "invalid or expired token") := by
  simp only [getCurrentUser, Option.bind_some, hheader, hsecret]
  show authenticated (decodeToken jwt (createAccessToken jwt hours now sub role secret) secret later) = _
  by_cases htime : truncate now ≤ later ∧ later < (truncate now + hours * 3600 : ℤ)
  · simp only [decodeToken, createAccessToken, hjwt.valid _ _ _ _ secret later htime.1 htime.2,
      userOfClaims_issued]
    by_cases hsub : sub = ""
    · rw [if_pos hsub, if_neg fun h => h.1 hsub]
      rfl
    · rw [if_neg hsub, if_pos ⟨hsub, htime⟩]
      rfl
  · obtain ⟨reason, hdecode⟩ :=
      hjwt.invalid sub role.nameLower (truncate now) (truncate now + hours * 3600) secret later htime
    simp only [decodeToken, createAccessToken, hdecode]
    rw [if_neg fun h => htime h.2]
    rfl

end Issued

end ApprovalFlow
