import ApprovalFlow.Auth.Privileges
import ApprovalFlow.Workflow.Integrity

/-!
# The endpoints

What may be invoked from outside: the routes of Intake and Approval, behind their dependencies. The
limiter may answer anything; a request that a dependency refuses invokes nothing.

* `ApiRequest`, `ApiRequest.dispatch`: a request, and the call it makes once it is let in.
* `Portal`: a run with the requests that were served; `PortalStep`: one step of it.
* `charged_on_request`: who asked for what is charged.
* `charged_after_privileged_login`: whose password stands behind a charge above the ceiling.
-/

namespace ApprovalFlow.Workflow
open Numeric Async

/-- The secret of a service: `app.state.jwt_secret` and `JWT_SECRET`. -/
structure ServiceSecret where
  state : Option String
  env : Option String

/-- How the services are started. -/
structure ApiConfig where
  jwt : Jwt
  intake : ServiceSecret
  approval : ServiceSecret
  submitLimit : ℤ
  submitWindowSeconds : ℤ

/-- A route with its path and body; `submit` draws the tracking id. -/
inductive ApiRoute
  | submitInvoice (trackingId : String) (invoice : Invoice)
  | approve (trackingId : String)
  | reject (trackingId : String)
  | requestInfo (trackingId : String)
  | additionalInfo (trackingId info : String)
  deriving DecidableEq

/-- A request, when the clock reads `now`. -/
structure ApiRequest where
  authorization : Option String
  now : ℚ
  route : ApiRoute

/-- The calls that only the routes make. -/
def isExternal : WorkflowCall → Bool
  | .submit _ _ => true
  | .approval (.decisionCompleted _) => false
  | .approval _ => true
  | _ => false

namespace ApiRequest
variable (config : ApiConfig) (request : ApiRequest)

def currentUser (service : ServiceSecret) : Except Exn AuthenticatedUser :=
  getCurrentUser config.jwt service.state service.env request.authorization request.now

/-- The dependencies of a route of Approval for approvers, and its call. -/
def asApprover (call : ApprovalCall) : Prog (hitSig ℚ) Exn WorkflowCall := do
  let user ← .ofExcept (request.currentUser config config.approval)
  let _ ← .ofExcept (requireRole .approver user)
  return .approval call

/-- The dependencies of the route, and the call it then makes. -/
def dispatch : Prog (hitSig ℚ) Exn WorkflowCall :=
  match request.route with
  | .submitInvoice t invoice => do
    let user ← .ofExcept (request.currentUser config config.intake)
    let user ← throttleByUser InMemoryRateLimiter.limiter "invoice_submit" config.submitLimit
        config.submitWindowSeconds
      user request.now
    return .submit t { invoice with submitter := user.sub }
  | .approve t => request.asApprover config (.approve t)
  | .reject t => request.asApprover config (.reject t)
  | .requestInfo t => request.asApprover config (.requestInfo t)
  | .additionalInfo t info => do
    let _ ← .ofExcept (request.currentUser config config.approval)
    return .approval (.addAdditionalInfo t info)

/-- Some limiter lets the request in, and it makes the call. -/
def Dispatched (call : WorkflowCall) : Prop :=
  ∃ (S : Type) (h : (o : HitOp ℚ) → S → Except Exn RateLimitResult × S) (s : S),
    ((request.dispatch config).eval h s).1 = .ok call

/-- Who asks for a call, and for what. -/
inductive Asks (user : AuthenticatedUser) : WorkflowCall → Prop
  | submit {t : String} {invoice : Invoice} (hroute : request.route = .submitInvoice t invoice)
      (huser : request.currentUser config config.intake = .ok user) :
      Asks user (.submit t { invoice with submitter := user.sub })
  | resolve {call : ApprovalCall} (huser : request.currentUser config config.approval = .ok user)
      (hrole : ¬ user.role < .approver) : Asks user (.approval call)
  | inform {t info : String} (hroute : request.route = .additionalInfo t info)
      (huser : request.currentUser config config.approval = .ok user) :
      Asks user (.approval (.addAdditionalInfo t info))

variable {config request}

section
variable {S : Type} {h : (o : HitOp ℚ) → S → Except Exn RateLimitResult × S} {s : S}

theorem eval_bind_ok {α β : Type} {p : Prog (hitSig ℚ) Exn α} {f : α → Prog (hitSig ℚ) Exn β} {b : β}
    (hok : ((p >>= f).eval h s).1 = .ok b) :
    ∃ a, (p.eval h s).1 = .ok a ∧ ((f a).eval h (p.eval h s).2).1 = .ok b := by
  have hattempt : ((p.attempt (Prog.onOk f)).eval h s).1 = .ok b := hok
  rw [Prog.eval_attempt] at hattempt
  cases hp : (p.eval h s).1 with
  | error e =>
    rw [hp] at hattempt
    cases hattempt
  | ok a =>
    rw [hp] at hattempt
    exact ⟨a, rfl, hattempt⟩

theorem eval_throttleByUser {limiter : RateLimiter (hitSig ℚ) ℚ} {scope : String} {limit windowSeconds : ℤ}
    {user user' : AuthenticatedUser} {now : ℚ}
    (hok : ((throttleByUser limiter scope limit windowSeconds user now).eval h s).1 = .ok user') :
    user' = user := by
  rw [throttleByUser, Prog.eval_attempt] at hok
  generalize ((limiter.hit scope user.sub limit windowSeconds now).eval h s).1 = reply at hok
  rcases reply with e | result
  · cases e
    case rateLimiterError failure => exact (Except.ok.inj hok).symm
    all_goals cases hok
  · simp only [checked] at hok
    split_ifs at hok
    · exact (Except.ok.inj hok).symm
    · cases hok

theorem eval_asApprover {call : ApprovalCall} {call' : WorkflowCall}
    (hok : ((request.asApprover config call).eval h s).1 = .ok call') :
    call' = .approval call ∧ ∃ user, request.currentUser config config.approval = .ok user ∧
      ¬ user.role < .approver := by
  obtain ⟨user, huser, hok⟩ := eval_bind_ok hok
  obtain ⟨user', hrole, hok⟩ := eval_bind_ok hok
  rw [Prog.eval_ofExcept] at huser hrole
  have hrole : requireRole .approver user = .ok user' := hrole
  unfold requireRole at hrole
  split_ifs at hrole with hlt
  exact ⟨(Except.ok.inj hok).symm, user, huser, hlt⟩

end

/-- **What stands behind a call** that a request makes. -/
theorem Dispatched.asks {call : WorkflowCall} (hcall : request.Dispatched config call) :
    ∃ user, request.Asks config user call := by
  obtain ⟨S, h, s, hok⟩ := hcall
  unfold dispatch at hok
  split at hok
  · next t invoice hroute =>
    obtain ⟨user, huser, hok⟩ := eval_bind_ok hok
    obtain ⟨user', hthrottle, hok⟩ := eval_bind_ok hok
    rw [Prog.eval_ofExcept] at huser
    obtain rfl := eval_throttleByUser hthrottle
    cases hok
    exact ⟨user', .submit hroute huser⟩
  · next t hroute =>
    obtain ⟨rfl, user, huser, hrole⟩ := eval_asApprover hok
    exact ⟨user, .resolve huser hrole⟩
  · next t hroute =>
    obtain ⟨rfl, user, huser, hrole⟩ := eval_asApprover hok
    exact ⟨user, .resolve huser hrole⟩
  · next t hroute =>
    obtain ⟨rfl, user, huser, hrole⟩ := eval_asApprover hok
    exact ⟨user, .resolve huser hrole⟩
  · next t info hroute =>
    obtain ⟨user, huser, hok⟩ := eval_bind_ok hok
    rw [Prog.eval_ofExcept] at huser
    cases hok
    exact ⟨user, .inform hroute huser⟩

end ApiRequest

/-! ## Runs -/

/-- A run, and the requests that were served in it, each with its thread. -/
structure Portal where
  run : WorkflowRun
  served : List (ℕ × ApiRequest)

/-- The action is none that only a request makes. -/
def isInternal : Action WorkflowChoice WorkflowCall → Bool
  | .invoke call => !isExternal call
  | _ => true

section Portal
variable {ν : Type} (env : Deployment ν) (config : ApiConfig)

/-- A request is let in and invokes its call, or the services go on among themselves. -/
inductive PortalStep : Portal → Portal → Prop
  | request {p : Portal} {request : ApiRequest} {call : WorkflowCall} {run : WorkflowRun}
      (hcall : request.Dispatched config call) (hact : (workflow env).act p.run (.invoke call) = some run) :
      PortalStep p ⟨run, (p.run.threads.length, request) :: p.served⟩
  | internal {p : Portal} {a : Action WorkflowChoice WorkflowCall} {run : WorkflowRun}
    (ha : isInternal a = true)
      (hact : (workflow env).act p.run a = some run) : PortalStep p ⟨run, p.served⟩

/-- The runs from the empty stores. -/
def Portal.Reached (p : Portal) : Prop :=
  Relation.ReflTransGen (PortalStep env config) ⟨System.start .empty, []⟩ p

/-- A call that only a request makes was made by one. -/
def Licensed (p : Portal) : Prop :=
  ∀ i call, .invoke i call ∈ p.run.world.log → isExternal call = true →
    ∃ request, (i, request) ∈ p.served ∧ ApiRequest.Dispatched config request call

variable {env config} {p p' : Portal}

theorem Portal.Reached.run (hp : p.Reached env config) :
    (workflow env).Reach (fun _ _ => True) (System.start .empty) p.run := by
  induction hp with
  | refl => exact .refl
  | tail _ hstep ih =>
    cases hstep with
    | request _ hact => exact ih.tail trivial hact
    | internal _ hact => exact ih.tail trivial hact

theorem Licensed.step (h : Licensed config p) (hstep : PortalStep env config p p') :
    Licensed config p' := by
  cases hstep with
  | @request request call run hcall hact =>
    intro i call' he hexternal
    obtain ⟨s, -, rfl⟩ := System.act_invoke hact
    rcases List.mem_cons.mp he with he | he
    · cases he
      exact ⟨request, List.mem_cons_self, hcall⟩
    · obtain ⟨request', hserved, hcall'⟩ := h i call' he hexternal
      exact ⟨request', List.mem_cons_of_mem _ hserved, hcall'⟩
  | @internal a run ha hact =>
    intro i call' he hexternal
    refine h i call' ?_ hexternal
    cases a with
    | invoke call =>
      obtain ⟨s, -, rfl⟩ := System.act_invoke hact
      refine (List.mem_cons.mp he).resolve_left fun heq => ?_
      cases heq
      have hinternal : (!isExternal call') = true := ha
      rw [hexternal] at hinternal
      cases hinternal
    | step i' c =>
      obtain ⟨call, o, k, -, rfl⟩ := System.act_step hact
      exact (List.mem_cons.mp he).resolve_left fun heq => by cases heq
    | respond i' =>
      obtain ⟨call, q, r, -, -, rfl⟩ := System.act_respond hact
      exact (List.mem_cons.mp he).resolve_left fun heq => by cases heq

theorem Portal.Reached.licensed (hp : p.Reached env config) : Licensed config p := by
  induction hp with
  | refl => exact fun _ _ he => absurd he List.not_mem_nil
  | tail _ hstep ih => exact ih.step hstep

end Portal

/-- **Who asked for it**: whatever is charged was submitted by the authenticated user that the invoice
names as its submitter, and above the ceiling it is charged only after a request of an authenticated
approver. -/
theorem charged_on_request {ν : Type} (env : Deployment ν) (config : ApiConfig) (p : Portal)
    (hp : p.Reached env config) (i : ℕ) (call : WorkflowCall) (invoice : Invoice) (t : String)
    (reply : Except Exn Unit) (newer older : List WorkflowEvent)
    (hlog : p.run.world.log = newer ++ .perform i call (.charge invoice t) reply :: older) :
    (∃ j request user, (j, request) ∈ p.served ∧ .invoke j (.submit t invoice) ∈ p.run.world.log ∧
      request.currentUser config config.intake = .ok user ∧ invoice.submitter = user.sub) ∧
    (env.thresholds.ceiling < invoice.total → ∃ j request user, (j, request) ∈ p.served ∧
      .invoke j (.approval (.approve t)) ∈ older ∧ request.currentUser config config.approval = .ok user ∧
      ¬ user.role < .approver) := by
  have hr := hp.run
  have hlicensed := hp.licensed
  refine ⟨?_, fun hgt => ?_⟩
  · have he : .perform i call (.charge invoice t) reply ∈ p.run.world.log := by
      rw [hlog]
      exact List.mem_append_right _ List.mem_cons_self
    obtain ⟨j, hj⟩ : Invoked (.submit t invoice) p.run.world.log :=
      (kept hr).asked i call (.charge invoice t) reply he
    obtain ⟨request, hserved, hcall⟩ := hlicensed j _ hj rfl
    obtain ⟨user, hasks⟩ := hcall.asks
    cases hasks with
    | submit hroute huser => exact ⟨j, request, user, hserved, hj, huser, rfl⟩
  · obtain ⟨j, hj⟩ :=
      (sound hr).charges i call invoice t reply older (hlog ▸ List.suffix_append newer _) hgt
    have hmem : .invoke j (.approval (.approve t)) ∈ p.run.world.log := by
      rw [hlog]
      exact List.mem_append_right _ (List.mem_cons_of_mem _ hj)
    obtain ⟨request, hserved, hcall⟩ := hlicensed j _ hmem rfl
    obtain ⟨user, hasks⟩ := hcall.asks
    cases hasks with
    | resolve huser hrole => exact ⟨j, request, user, hserved, hj, huser, hrole⟩

/-- Whoever is let in at Approval was given the token at a login of the run. -/
def Unforged (config : ApiConfig) (p : Portal) (logins : Auth.AuthRun) : Prop :=
  ∀ j request user, (j, request) ∈ p.served → request.currentUser config config.approval = .ok user →
    ∃ header token now email password, request.authorization = some header ∧
      bearerToken header = some token ∧ Auth.LoggedIn now email password token logins.world.log

/-- **Whose password stands behind it**: where tokens are not forged and Approval verifies with the
secret store of Auth, a charge above the ceiling takes a login with the password of a seeded approver or
admin. No registration leads to one. -/
theorem charged_after_privileged_login {ν : Type} (env : Deployment ν) (config : ApiConfig)
    (hjwt : config.jwt.Lawful)
    (secrets : SecretEnv) (auth : Option String) (hstate : secrets.stateSecret = .ok config.approval.state)
    (henv : config.approval.env = secrets.jwtSecret) (hauth : secrets.authSecret = .ok auth) (hours : ℤ)
    (derive : String → String → String) (logins : Auth.AuthRun)
    (hlogins : (Auth.authServer config.jwt hours derive auth).Reach
      (fun _ _ => True) (System.start .empty) logins)
    (p : Portal) (hp : p.Reached env config) (hunforged : Unforged config p logins) (i : ℕ)
    (call : WorkflowCall) (invoice : Invoice) (t : String) (reply : Except Exn Unit)
    (hcharge : .perform i call (.charge invoice t) reply ∈ p.run.world.log)
    (hgt : env.thresholds.ceiling < invoice.total) :
    ∃ now email password token u, Auth.LoggedIn now email password token logins.world.log ∧
      u.email = email ∧
      derive password u.salt = u.passwordHash ∧ Auth.Seeded derive u logins.world.log ∧
        ¬ u.role < .approver := by
  obtain ⟨newer, older, hlog⟩ := List.append_of_mem hcharge
  obtain ⟨j, hj⟩ :=
    (sound hp.run).charges i call invoice t reply older (hlog ▸ List.suffix_append newer _) hgt
  have hmem : .invoke j (.approval (.approve t)) ∈ p.run.world.log := by
    rw [hlog]
    exact List.mem_append_right _ (List.mem_cons_of_mem _ hj)
  obtain ⟨request, hserved, hcall⟩ := hp.licensed j _ hmem rfl
  obtain ⟨user, hasks⟩ := hcall.asks
  obtain ⟨huser, hrole⟩ : request.currentUser config config.approval = .ok user ∧
      ¬ user.role < .approver := by
    cases hasks with
    | resolve huser hrole => exact ⟨huser, hrole⟩
  obtain ⟨header, token, now, email, password, hauthorization, hheader, hlogin⟩ :=
    hunforged j request user hserved huser
  obtain ⟨u, hcredited, haccount⟩ := hlogin.credited hlogins
  obtain ⟨secret, hsecret, rfl⟩ := hcredited.issued
  have hverifying : verifyingSecret config.approval.state config.approval.env = .ok secret := by
    rw [henv, secrets.secrets_agree hstate hauth, hsecret]
  rw [ApiRequest.currentUser, hauthorization, getCurrentUser_issued hjwt hverifying hheader] at huser
  split_ifs at huser with htime
  obtain rfl : ⟨email, u.role⟩ = user := Except.ok.inj huser
  refine ⟨now, email, password, _, u, hlogin, hcredited.email_eq, hcredited.verified, ?_, hrole⟩
  refine haccount.resolve_left fun hregistered => ?_
  have hlt : Role.submitter < .approver := by decide
  rw [hregistered.1] at hrole
  exact hrole hlt

/-! ## A run -/

/-- What happens next: a request that makes a call, or an action of the services. -/
inductive PortalAction
  | request (request : ApiRequest) (call : WorkflowCall)
  | internal (action : Action WorkflowChoice WorkflowCall)

def PortalAction.action : PortalAction → Action WorkflowChoice WorkflowCall
  | .request _ call => .invoke call
  | .internal action => action

/-- The request is let in, or the action is none of a request. -/
def PortalAction.Allowed (config : ApiConfig) : PortalAction → Prop
  | .request r call => r.Dispatched config call
  | .internal action => isInternal action = true

/-- A schedule of allowed actions, and who was served in it. -/
theorem portal_of_schedule {ν : Type} {env : Deployment ν} {config : ApiConfig}
    {schedule : List PortalAction} {p : Portal}
    {run : WorkflowRun} (hp : p.Reached env config) (hallowed : ∀ a ∈ schedule, a.Allowed config)
    (hrun : (workflow env).runActions (fun _ _ => true) (schedule.map PortalAction.action) p.run =
      some run) :
    ∃ p' : Portal, p'.Reached env config ∧ p'.run = run ∧
      ∀ e ∈ p'.served, e ∈ p.served ∨ ∃ call, .request e.2 call ∈ schedule := by
  induction schedule generalizing p with
  | nil => exact ⟨p, hp, Option.some.inj hrun, fun e he => .inl he⟩
  | cons a schedule ih =>
    obtain ⟨run₁, hact, hrest⟩ := Option.bind_eq_some_iff.mp hrun
    have ha := hallowed a List.mem_cons_self
    have hallowed' := fun b hb => hallowed b (List.mem_cons_of_mem _ hb)
    cases a with
    | request request call =>
      obtain ⟨p', hp', hrun', hserved⟩ := ih (hp.tail (.request ha hact)) hallowed' hrest
      refine ⟨p', hp', hrun', fun e he => ?_⟩
      rcases hserved e he with he | ⟨call', hcall'⟩
      · rcases List.mem_cons.mp he with rfl | he
        · exact .inr ⟨call, List.mem_cons_self⟩
        · exact .inl he
      · exact .inr ⟨call', List.mem_cons_of_mem _ hcall'⟩
    | internal a =>
      obtain ⟨p', hp', hrun', hserved⟩ := ih (hp.tail (.internal ha hact)) hallowed' hrest
      refine ⟨p', hp', hrun', fun e he => ?_⟩
      rcases hserved e he with he | ⟨call', hcall'⟩
      · exact .inl he
      · exact .inr ⟨call', List.mem_cons_of_mem _ hcall'⟩

def portalConfig : ApiConfig where
  jwt := Auth.unaryJwt
  intake := ⟨some "vault", none⟩
  approval := ⟨some "vault", some "local"⟩
  submitLimit := 20
  submitWindowSeconds := 60

/-- A request with the token of the approver. -/
def approverRequest (route : ApiRoute) : ApiRequest := ⟨some ("Bearer " ++ Auth.approverToken), 100, route⟩

/-- The costly laptop, submitted by the approver. -/
def approverLaptop : Invoice := { costlyLaptop with submitter := "approver@example.com" }

/-- What the services do before the submission, between it and the approval, and after that. -/
def seeding : List (Action WorkflowChoice WorkflowCall) :=
  [.invoke (.seed "engineering" (.ofInt 1000))] ++ steps 0 2 "approve"

def escalation : List (Action WorkflowChoice WorkflowCall) :=
  steps 1 2 "approve" ++ [.invoke (.process "t-1")] ++ steps 2 3 "approve" ++
    [.invoke (.decide ⟨approverLaptop, "t-1"⟩)] ++ steps 3 2 "approve" ++
    [.invoke (.approval (.decisionCompleted ⟨approverLaptop, costlyDecision,
      some (PlainJson.recommended .approve)⟩))] ++
    steps 4 3 "approve"

def payment : List (Action WorkflowChoice WorkflowCall) :=
  steps 5 4 "approve" ++
    [.invoke (.pay (.approvalCompleted ⟨approverLaptop, costlyDecision, .approved⟩))] ++
    steps 6 6 "approve"

/-- The run of the costly laptop, with its two requests. -/
def approverSchedule : List PortalAction :=
  seeding.map .internal ++ .request (approverRequest (.submitInvoice "t-1" costlyLaptop))
    (.submit "t-1" approverLaptop) ::
    (escalation.map .internal ++ .request (approverRequest (.approve "t-1")) (.approval (.approve "t-1")) ::
      payment.map .internal)

theorem approver_currentUser (route : ApiRoute) {service : ServiceSecret}
    (hstate : service.state = some "vault") :
    (approverRequest route).currentUser portalConfig service = .ok ⟨"approver@example.com", .approver⟩ := by
  have hsecret : verifyingSecret service.state service.env = .ok "vault" := by
    rw [hstate]
    rfl
  refine (getCurrentUser_issued Auth.unaryJwt_lawful hsecret (bearerToken_bearer _) 100).trans (if_pos ?_)
  refine ⟨by decide, ?_, ?_⟩ <;> norm_num [truncate]

theorem approver_submits :
    (approverRequest (.submitInvoice "t-1" costlyLaptop)).Dispatched portalConfig
      (.submit "t-1" approverLaptop) := by
  refine ⟨Unit, fun _ _ => (.ok ⟨true, 0⟩, ()), (), ?_⟩
  simp only [ApiRequest.dispatch, approverRequest]
  rw [← approverRequest, approver_currentUser _ rfl]
  rfl

theorem approver_approves :
    (approverRequest (.approve "t-1")).Dispatched portalConfig (.approval (.approve "t-1")) := by
  refine ⟨Unit, fun _ _ => (.ok ⟨true, 0⟩, ()), (), ?_⟩
  simp only [ApiRequest.dispatch, approverRequest, ApiRequest.asApprover]
  rw [← approverRequest, approver_currentUser _ rfl]
  rfl

theorem approver_allowed : ∀ a ∈ approverSchedule, a.Allowed portalConfig := by
  have hinternal (actions : List (Action WorkflowChoice WorkflowCall)) (h : actions.all isInternal = true) :
      ∀ a ∈ actions.map PortalAction.internal, a.Allowed portalConfig := by
    intro a ha
    obtain ⟨action, haction, rfl⟩ := List.mem_map.mp ha
    exact List.all_eq_true.mp h action haction
  intro a ha
  rcases List.mem_append.mp ha with ha | ha
  · exact hinternal seeding (by decide +kernel) a ha
  rcases List.mem_cons.mp ha with rfl | ha
  · exact approver_submits
  rcases List.mem_append.mp ha with ha | ha
  · exact hinternal escalation (by decide +kernel) a ha
  rcases List.mem_cons.mp ha with rfl | ha
  · exact approver_approves
  · exact hinternal payment (by decide +kernel) a ha

def approverPaid : WorkflowRun :=
  ((workflow plainDeployment).runActions (fun _ _ => true) (approverSchedule.map PortalAction.action)
    (System.start .empty)).get (by decide +kernel)

theorem approver_portal : ∃ p : Portal, p.Reached plainDeployment portalConfig ∧ p.run = approverPaid ∧
    Unforged portalConfig p Auth.approverRun := by
  obtain ⟨p, hp, hrun, hserved⟩ :=
    portal_of_schedule (p := ⟨System.start .empty, []⟩) .refl approver_allowed
    (Option.some_get _).symm
  refine ⟨p, hp, hrun, fun j request user he _ => ?_⟩
  refine ⟨_, _, 0, "approver@example.com", "pw", ?_, bearerToken_bearer Auth.approverToken,
    Auth.approver_loggedIn⟩
  rcases hserved _ he with he | ⟨call, he⟩
  · cases he
  · have hrequest (actions : List (Action WorkflowChoice WorkflowCall)) :
        PortalAction.request request call ∉ actions.map PortalAction.internal := by
      simp
    rcases List.mem_append.mp he with he | he
    · exact absurd he (hrequest _)
    rcases List.mem_cons.mp he with heq | he
    · cases heq
      rfl
    rcases List.mem_append.mp he with he | he
    · exact absurd he (hrequest _)
    rcases List.mem_cons.mp he with heq | he
    · cases heq
      rfl
    · exact absurd he (hrequest _)

theorem approver_charged : ∃ i call reply,
    .perform i call (.charge approverLaptop "t-1") reply ∈ approverPaid.world.log := by
  have hcharged : approverPaid.world.log.any (charges approverLaptop "t-1") = true := by decide +kernel
  obtain ⟨e, he, hcharge⟩ := List.any_eq_true.mp hcharged
  obtain ⟨i, call, reply, rfl⟩ := charges_eq hcharge
  exact ⟨i, call, reply, he⟩

theorem approver_asked : ∃ (request : ApiRequest) (user : AuthenticatedUser),
    request.currentUser portalConfig portalConfig.approval = .ok user ∧ ¬ user.role < .approver := by
  obtain ⟨p, hp, hrun, -⟩ := approver_portal
  obtain ⟨i, call, reply, he⟩ := approver_charged
  obtain ⟨newer, older, hlog⟩ := List.append_of_mem he
  obtain ⟨j, request, user, -, -, huser, hrole⟩ :=
    (charged_on_request plainDeployment portalConfig p hp i call
    approverLaptop "t-1" reply newer older (hrun ▸ hlog)).2 (by decide +kernel)
  exact ⟨request, user, huser, hrole⟩

theorem approver_login_behind : ∃ u, Auth.Seeded (· ++ ·) u Auth.approverRun.world.log ∧
    ¬ u.role < .approver := by
  obtain ⟨p, hp, hrun, hunforged⟩ := approver_portal
  obtain ⟨i, call, reply, he⟩ := approver_charged
  obtain ⟨-, -, -, -, u, -, -, -, hseeded, hrole⟩ :=
    charged_after_privileged_login plainDeployment portalConfig
    Auth.unaryJwt_lawful Auth.plainSecrets (some "vault") (by decide +kernel) rfl
      (by decide +kernel) 8 (· ++ ·)
    Auth.approverRun Auth.approver_reach p hp hunforged i call approverLaptop "t-1" reply
      (hrun ▸ he) (by decide +kernel)
  exact ⟨u, hseeded, hrole⟩

end ApprovalFlow.Workflow
