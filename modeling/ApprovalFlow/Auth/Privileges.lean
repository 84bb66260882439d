import ApprovalFlow.Async.Contract
import ApprovalFlow.Auth.Service
import ApprovalFlow.Shared.Auth
import Mathlib.Logic.Equiv.List

/-!
# Who gets which role

Registrations, logins and seedings in any interleaving, on a store that may refuse requests and lose
replies. Every handler is checked against one contract: an account is written only as it was registered
or seeded.

* `AuthRequest`, `authServer`: the calls of the service, each with what the clock reads.
* `Accounts.contract`, `keeps_body`: every handler keeps it.
* `issued_token_accepted`: what a token was issued for, and what it is good for at the other services.
* `unaryJwt`: a token library.
-/

namespace ApprovalFlow.Auth
open Async Versioned DaprStateUserRepository

/-- A call, when the clock reads `now`. -/
structure AuthRequest where
  now : ℚ
  call : AuthCall

/-- The service, with the tokens of `create_access_token`. -/
def authAt (jwt : Jwt) (hours : ℤ) (derive : String → String → String)
    (jwtSecret : Option String) (now : ℚ) : AuthService (storeSig User) :=
  daprAuth derive jwtSecret (createAccessToken jwt hours now)

/-- Concurrent calls of the service. -/
def authServer (jwt : Jwt) (hours : ℤ) (derive : String → String → String) (jwtSecret : Option String) :
    System (storeSig User) Exn AuthResponse (Store User) Reception AuthRequest where
  body request := (authAt jwt hours derive jwtSecret request.now).call request.call
  invoke _ s := some s
  exec := lossyStore User

abbrev AuthRun := Config (storeSig User) Exn AuthResponse (Store User) AuthRequest

abbrev AuthLog := List (Event (storeSig User) Exn AuthResponse AuthRequest)

/-! ## The contract -/

/-- The accounts that may be there. -/
abbrev Accounts := User → Prop

namespace Accounts

/-- An account is kept under its email. -/
def Kept (A : Accounts) (k : String) (u : User) : Prop := k = key u.email ∧ A u

def contract (A : Accounts) : Contract (storeSig User) Exn where
  asks
    | .transact ws => ∀ u ∈ ws, A.Kept u.key u.data
    | .get _ => True
  gives
    | .get k, .ok response => ∀ u, response.1 = some u → A.Kept k u
    | _, _ => True

variable (A : Accounts) (derive : String → String → String)

/-- The accounts that a call writes may be there. -/
def Made : AuthCall → Prop
  | .register email password salt => A ⟨email, derive password salt, salt, .submitter⟩
  | .login _ _ => True
  | .seed users => ∀ entry salt, (entry, salt) ∈ users → ∀ role, Role.ofName (upper entry.role) = .ok role →
    A ⟨entry.email, derive entry.password salt, salt, role⟩

/-- A login that returns has found an account with that password. -/
def Returns (jwt : Jwt) (hours : ℤ) (jwtSecret : Option String) (request : AuthRequest)
    (result : Except Exn AuthResponse) : Prop :=
  ∀ email password token, request.call = .login email password → result = .ok (.loggedIn token) →
    ∃ u secret, A u ∧ u.email = email ∧ derive password u.salt = u.passwordHash ∧ jwtSecret = some secret ∧
      secret ≠ "" ∧ token = createAccessToken jwt hours request.now email u.role secret

variable {A derive} {jwt : Jwt} {hours : ℤ} {jwtSecret : Option String} {now : ℚ}

theorem keeps_getState (k : String) : A.contract.Keeps ((storeClient User).getState k) fun r =>
    ∀ response, r = .ok response → ∀ u, response.1 = some u → A.Kept k u :=
  @Contract.keeps_op (storeSig User) Exn A.contract (.get k) _ trivial fun r hr response hresponse => by
    rw [hresponse] at hr
    exact hr

theorem keeps_write {k : String} {u : User} {etag : Option ℕ} (h : A.Kept k u) :
    A.contract.Keeps ((storeClient User).executeStateTransaction [⟨k, u, etag⟩]) fun _ => True :=
  @Contract.keeps_op (storeSig User) Exn A.contract (.transact [⟨k, u, etag⟩]) _
    (fun v hv => by rw [List.mem_singleton.mp hv]; exact h) fun _ _ => trivial

theorem keeps_getByEmail (email : String) : A.contract.Keeps (getByEmail (storeClient User) email) fun r =>
    ∀ u, r = .ok (some u) → u.email = email ∧ A u := by
  rw [getByEmail_eq]
  refine (keeps_getState _).attempt fun r hr => ?_
  cases r with
  | error e =>
    cases e
    all_goals exact fun u hu => by cases hu
  | ok response =>
    intro u hu
    obtain ⟨hkey, hA⟩ := hr response rfl u (Except.ok.inj hu)
    exact ⟨(key_inj.mp hkey).symm, hA⟩

theorem keeps_register {email password salt : String}
    (h : A ⟨email, derive password salt, salt, .submitter⟩) :
    A.contract.Keeps ((authAt jwt hours derive jwtSecret now).register email password salt) fun r =>
      ∀ token, r ≠ .ok (.loggedIn token) := by
  refine (keeps_getByEmail email).bind (fun found _ => ?_) fun e _ token h => by cases h
  cases found with
  | some u => exact fun token h => by cases h
  | none =>
    have hsave : A.contract.Keeps (save (storeClient User) ⟨email, derive password salt, salt, .submitter⟩)
        fun _ => True := by
      rw [save_eq]
      refine (keeps_write ⟨rfl, h⟩).attempt fun r _ => ?_
      cases r <;> trivial
    exact hsave.bind (fun _ _ => Contract.keeps_ret fun token h => by cases h) fun e _ token h => by cases h

theorem keeps_login (email password : String) :
    A.contract.Keeps ((authAt jwt hours derive jwtSecret now).login email password)
      (A.Returns derive jwt hours jwtSecret ⟨now, .login email password⟩) := by
  have hraise (e : Exn) : A.Returns derive jwt hours jwtSecret ⟨now, .login email password⟩ (.error e) :=
    fun _ _ _ _ h => by cases h
  refine (keeps_getByEmail email).bind (fun found hfound => ?_) fun e _ => hraise e
  cases found with
  | none => exact hraise _
  | some u =>
    obtain ⟨hemail, hA⟩ := hfound u rfl
    dsimp only
    split_ifs with hverify
    · exact hraise _
    · split
      · exact hraise _
      · next secret hsecret =>
        split_ifs with hempty
        · exact hraise _
        · intro email' password' token hcall htoken
          cases hcall
          cases htoken
          refine ⟨u, secret, hA, hemail, ?_, hsecret, fun h => hempty (by rw [h]; rfl),
            by rw [← hemail]; rfl⟩
          simpa [verifyPassword, authAt, daprAuth] using hverify

theorem keeps_seed {users : List (DemoUser × String)} (h : A.Made derive (.seed users)) :
    A.contract.Keeps ((authAt jwt hours derive jwtSecret now).seedDemoUsers users) fun r =>
      ∀ token, r ≠ .ok (.loggedIn token) := by
  induction users with
  | nil => exact fun token h => by cases h
  | cons entry rest ih =>
    obtain ⟨entry, salt⟩ := entry
    have hrest := ih fun e s he => h e s (List.mem_cons_of_mem _ he)
    simp only [AuthService.seedDemoUsers]
    cases hrole : Role.ofName (upper entry.role) with
    | error e => exact fun token h => by cases h
    | ok role =>
      have hA := h entry salt List.mem_cons_self role hrole
      have hseeded : A.contract.Keeps
          (ensureSeeded (storeClient User) ⟨entry.email, derive entry.password salt, salt, role⟩)
            fun _ => True := by
        rw [ensureSeeded_eq]
        refine (keeps_getState _).attempt fun r _ => ?_
        cases r with
        | error e => cases e <;> trivial
        | ok response =>
          simp only [StateClient.afterRead]
          cases response.1 with
          | some u => trivial
          | none =>
            refine (keeps_write ⟨rfl, hA⟩).attempt fun r _ => ?_
            cases r with
            | error e => cases e <;> trivial
            | ok _ => trivial
      exact hseeded.bind (fun _ _ => hrest) fun e _ token h => by cases h

theorem keeps_body {request : AuthRequest} (h : A.Made derive request.call) :
    A.contract.Keeps ((authServer jwt hours derive jwtSecret).body request)
      (A.Returns derive jwt hours jwtSecret request) := by
  obtain ⟨now, call⟩ := request
  cases call with
  | register email password salt =>
    exact (keeps_register h).mono fun r hr _ _ token hcall => by cases hcall
  | login email password => exact keeps_login email password
  | seed users => exact (keeps_seed h).mono fun r hr _ _ token hcall => by cases hcall

theorem honoured : A.contract.Honoured (authServer jwt hours derive jwtSecret)
    (fun s => ∀ k u, s.value k = some u → A.Kept k u)
      (fun request => A.Made derive request.call) (fun _ _ => True)
    (A.Returns derive jwt hours jwtSecret) where
  invoke request s s' hs hmade hinvoke := by
    cases hinvoke
    exact ⟨hs, keeps_body hmade⟩
  exec c o s hs ho _ := by
    refine ⟨fun k u hu => ?_, ?_⟩
    · rcases o.perform_store (Exn.rpcError "") c s with h | ⟨ws, rfl, -, -, h⟩
      · exact hs k u (h ▸ hu)
      · have hu : (s.puts ws).value k = some u := h ▸ hu
        rcases Store.mem_of_value_puts hu with hu | ⟨v, hv, rfl, rfl⟩
        · exact hs k u hu
        · exact ho v hv
    · cases o with
      | transact ws => trivial
      | get k =>
        cases c with
        | serve => exact fun u hu => hs k u hu
        | refuse => trivial
        | lose => trivial

end Accounts

/-! ## Runs -/

/-- An account that a registration of the run writes. -/
def Registered (derive : String → String → String) (u : User) (log : AuthLog) : Prop :=
  u.role = .submitter ∧ ∃ i now password, .invoke i ⟨now, .register u.email password u.salt⟩ ∈ log ∧
    u.passwordHash = derive password u.salt

/-- An account that a seeding of the run writes. -/
def Seeded (derive : String → String → String) (u : User) (log : AuthLog) : Prop :=
  ∃ i now users entry, .invoke i ⟨now, .seed users⟩ ∈ log ∧ (entry, u.salt) ∈ users ∧
    entry.email = u.email ∧
    Role.ofName (upper entry.role) = .ok u.role ∧ u.passwordHash = derive entry.password u.salt

/-- The login was answered with the token. -/
def LoggedIn (now : ℚ) (email password token : String) (log : AuthLog) : Prop :=
  ∃ i, .respond i ⟨now, .login email password⟩ (.ok (.loggedIn token)) ∈ log

/-- The token is Auth's, for an account of that email whose hash the password has. -/
structure Credited (jwt : Jwt) (hours : ℤ) (derive : String → String → String)
    (jwtSecret : Option String) (now : ℚ) (email password token : String) (u : User) : Prop where
  email_eq : u.email = email
  verified : derive password u.salt = u.passwordHash
  issued : ∃ secret, getSecret jwtSecret = .ok secret ∧
    token = createAccessToken jwt hours now email u.role secret

section Runs
variable {jwt : Jwt} {hours : ℤ} {derive : String → String → String}
    {jwtSecret : Option String} {cfg : AuthRun}

/-- A login is answered only with the token of an account that was registered or seeded, with a password
of its hash. -/
theorem LoggedIn.credited
    (hr : (authServer jwt hours derive jwtSecret).Reach (fun _ _ => True) (System.start .empty) cfg)
    {now : ℚ} {email password token : String} (h : LoggedIn now email password token cfg.world.log) :
    ∃ u, Credited jwt hours derive jwtSecret now email password token u ∧
      (Registered derive u cfg.world.log ∨ Seeded derive u cfg.world.log) := by
  let A : Accounts := fun u => Registered derive u cfg.world.log ∨ Seeded derive u cfg.world.log
  have hkept := (@Accounts.honoured A derive jwt hours jwtSecret).sound (fun k u hu => by cases hu) hr
    (fun i request he => ?_) fun _ _ _ _ _ => trivial
  · obtain ⟨i, hi⟩ := h
    obtain ⟨u, secret, hA, hemail, hverified, hsecret, hne, htoken⟩ :=
      hkept.ended i _ _ hi email password token rfl rfl
    refine ⟨u, ⟨hemail, hverified, secret, ?_, htoken⟩, hA⟩
    have hpresent : present (some secret) = some secret := by simp [present, hne]
    rw [getSecret, hsecret, hpresent]
  · obtain ⟨now', call⟩ := request
    cases call with
    | register email' password' salt => exact .inl ⟨rfl, i, now', password', he, rfl⟩
    | login email' password' => trivial
    | seed users =>
      exact fun entry salt hentry role hrole => .inr ⟨i, now', users, entry, he, hentry, rfl, hrole, rfl⟩

end Runs

/-- **What a login is good for**: in every interleaving a login is answered only with the token of an
account that was registered, as a submitter, or seeded, with a password of the same hash. Every service
with the same secret store lets the email in with it, for the routes of that account's role, until it
expires; an empty email is never let in. -/
theorem issued_token_accepted (jwt : Jwt) (hjwt : jwt.Lawful) (hours : ℤ)
    (derive : String → String → String)
    (env : SecretEnv) (state auth : Option String) (hstate : env.stateSecret = .ok state)
    (hauth : env.authSecret = .ok auth) (cfg : AuthRun)
    (hr : (authServer jwt hours derive auth).Reach (fun _ _ => True) (System.start .empty) cfg)
    (now : ℚ) (email password token : String) (h : LoggedIn now email password token cfg.world.log) :
    ∃ u, u.email = email ∧ derive password u.salt = u.passwordHash ∧
      (Registered derive u cfg.world.log ∨ Seeded derive u cfg.world.log) ∧
      ∀ minimum later,
        (getCurrentUser jwt state env.jwtSecret (some ("Bearer " ++ token)) later >>= requireRole minimum) =
          if email ≠ "" ∧ truncate now ≤ later ∧ later < (truncate now + hours * 3600 : ℤ) then
            if u.role < minimum then .error (.httpException 403 "insufficient role" [])
              else .ok ⟨email, u.role⟩
          else .error (.httpException 401 "invalid or expired token" []) := by
  obtain ⟨u, hcredited, haccount⟩ := h.credited hr
  obtain ⟨secret, hsecret, rfl⟩ := hcredited.issued
  refine ⟨u, hcredited.email_eq, hcredited.verified, haccount, fun minimum later => ?_⟩
  have hverifying : verifyingSecret state env.jwtSecret = .ok secret := by
    rw [env.secrets_agree hstate hauth, hsecret]
  rw [getCurrentUser_issued hjwt hverifying (bearerToken_bearer _) later]
  split_ifs with htime hrole
  · exact if_pos hrole
  · exact if_neg hrole
  · rfl

/-! ## A login -/

/-- What a token in unary says. -/
abbrev UnaryToken := List ℕ × List ℕ × ℤ × ℤ × List ℕ

def codes (text : String) : List ℕ := text.toList.map Char.toNat

def ofCodes (codes : List ℕ) : String := String.ofList (codes.map Char.ofNat)

theorem ofCodes_codes (text : String) : ofCodes (codes text) = text := by
  simp [ofCodes, codes, Function.comp_def]

/-- Tokens in unary: a library that keeps the laws. -/
def unaryJwt : Jwt where
  encode claims secret :=
    match claims with
    | [(_, .text sub), (_, .text role), (_, .number iat), (_, .number exp)] =>
      String.ofList (List.replicate
        (Encodable.encode ((codes sub, codes role, iat, exp, codes secret) : UnaryToken)) '1')
    | _ => ""
  decode token secret now :=
    match (Encodable.decode token.toList.length : Option UnaryToken) with
    | some (sub, role, iat, exp, secret') =>
      if ofCodes secret' = secret ∧ iat ≤ now ∧
        now < exp then .ok (accessClaims (ofCodes sub) (ofCodes role) iat exp)
      else .error "Signature verification failed"
    | none => .error "Not enough segments"

theorem unaryJwt_decode (sub role : String) (iat exp : ℤ) (secret : String) (now : ℚ) :
    unaryJwt.decode (unaryJwt.encode (accessClaims sub role iat exp) secret) secret now =
      if iat ≤ now ∧ now < exp then .ok (accessClaims sub role iat exp)
        else .error "Signature verification failed" := by
  simp only [unaryJwt, accessClaims, String.toList_ofList, List.length_replicate, Encodable.encodek,
    ofCodes_codes, true_and]

theorem unaryJwt_lawful : unaryJwt.Lawful where
  valid sub role iat exp secret now hiat hexp := by rw [unaryJwt_decode, if_pos ⟨hiat, hexp⟩]
  invalid sub role iat exp secret now h := ⟨_, by rw [unaryJwt_decode, if_neg h]⟩

def plainSecrets : SecretEnv := ⟨some "TRUE", .ok [("JWT_SECRET", "vault")], some "local"⟩

/-- An approver is seeded and logs in. -/
def approverRun : AuthRun :=
  ((authServer unaryJwt 8 (· ++ ·) (some "vault")).runActions (fun _ _ => true)
    [.invoke ⟨0, .seed [(⟨"approver@example.com", "pw", "approver"⟩, "salt")]⟩,
      .step 0 .serve, .step 0 .serve,
      .invoke ⟨0, .login "approver@example.com" "pw"⟩, .step 1 .serve, .respond 1]
        (System.start .empty)).get
    (by decide +kernel)

/-- The token it gets. -/
def approverToken : String := createAccessToken unaryJwt 8 0 "approver@example.com" .approver "vault"

theorem approver_reach : (authServer unaryJwt 8 (· ++ ·) (some "vault")).Reach
    (fun _ _ => True) (System.start .empty) approverRun :=
  System.reach_of_runActions (fun _ _ _ => trivial) _ (Option.some_get _).symm

theorem approver_loggedIn : LoggedIn 0 "approver@example.com" "pw" approverToken approverRun.world.log := by
  have hlast : approverRun.world.log.head? =
      some (.respond 1 ⟨0, .login "approver@example.com" "pw"⟩ (.ok (.loggedIn approverToken))) := rfl
  exact ⟨1, List.mem_of_mem_head? hlast⟩

theorem approver_accepted : ∃ u : User, u.email = "approver@example.com" ∧
    (getCurrentUser unaryJwt (some "vault") (some "local") (some ("Bearer " ++ approverToken)) 100 >>=
      requireRole .submitter) = .ok ⟨"approver@example.com", u.role⟩ := by
  obtain ⟨u, hemail, -, -, haccepted⟩ :=
    issued_token_accepted unaryJwt unaryJwt_lawful 8 (· ++ ·) plainSecrets
    (some "vault") (some "vault") (by decide +kernel) (by decide +kernel) approverRun approver_reach
      0 "approver@example.com"
    "pw" approverToken approver_loggedIn
  refine ⟨u, hemail, (haccepted .submitter 100).trans ?_⟩
  have hrole : ¬ u.role < .submitter := by cases u.role <;> decide
  rw [if_pos, if_neg hrole]
  refine ⟨by decide, ?_, ?_⟩ <;> norm_num [truncate]

end ApprovalFlow.Auth
