import ApprovalFlow.Async.Prog
import ApprovalFlow.Shared.Contracts
import ApprovalFlow.Shared.Errors

/-!
# The approval service

Escalated items and the human decisions on them.

* `PendingApproval`: an escalated item, with the status that `approve`, `reject`, `requestInfo` and
  `addAdditionalInfo` move.
* `ApprovalRepository`, `ApprovalOutcomePublisher`: the protocols, coroutines over any signature.
* `ApprovalService`: the methods; `ApprovalService.call` runs one of them.
-/

namespace ApprovalFlow
open Async

inductive ApprovalStatus
  | pending
  | waitingInfo
  | approved
  | rejected
  deriving DecidableEq, Repr

/-- `_ACTIONABLE_STATUSES`. -/
def ApprovalStatus.actionable : ApprovalStatus → Bool
  | pending => true
  | waitingInfo => true
  | approved => false
  | rejected => false

structure PendingApproval where
  trackingId : String
  invoice : Invoice
  decision : Decision
  recommendation : Option Recommendation
  status : ApprovalStatus
  additionalInfo : Option String
  deriving DecidableEq

/-- The record of a first sighting. -/
def PendingApproval.ofEvent (event : DecisionCompletedEvent) : PendingApproval where
  trackingId := event.decision.correlationId
  invoice := event.invoice
  decision := event.decision
  recommendation := event.recommendation
  status := .pending
  additionalInfo := none

/-- The event that announces a resolution. -/
def PendingApproval.event (approval : PendingApproval) (resolution : ApprovalResolution) :
    ApprovalCompletedEvent where
  invoice := approval.invoice
  decision := approval.decision
  resolution := resolution

structure ApprovalRepository (σ : Sig) where
  save : PendingApproval → Prog σ Exn Unit
  get : String → Prog σ Exn (Option PendingApproval)
  listPending : Prog σ Exn (List PendingApproval)

structure ApprovalOutcomePublisher (σ : Sig) where
  publish : ApprovalCompletedEvent → Prog σ Exn Unit

structure ApprovalService (σ : Sig) where
  repository : ApprovalRepository σ
  publisher : ApprovalOutcomePublisher σ

namespace ApprovalService
variable {σ : Sig} (svc : ApprovalService σ)

def handleDecisionCompleted (event : DecisionCompletedEvent) : Prog σ Exn Unit :=
  if event.decision.route ≠ .humanReview then return ()
  else do
    match ← svc.repository.get event.decision.correlationId with
    | some _ => return ()
    | none => svc.repository.save (.ofEvent event)

def get (trackingId : String) : Prog σ Exn PendingApproval := do
  match ← svc.repository.get trackingId with
  | none => .raise (.approvalNotFoundError trackingId)
  | some approval => return approval

/-- `_require_actionable`. -/
def requireActionable (trackingId : String) : Prog σ Exn PendingApproval := do
  match ← svc.repository.get trackingId with
  | none => .raise (.approvalNotFoundError trackingId)
  | some approval =>
    if !approval.status.actionable then .raise (.approvalAlreadyResolvedError trackingId)
      else return approval

/-- `_resolve`. -/
def resolve (trackingId : String) (status : ApprovalStatus) (resolution : ApprovalResolution) :
    Prog σ Exn PendingApproval := do
  let approval ← svc.requireActionable trackingId
  let updated := { approval with status := status }
  svc.repository.save updated
  svc.publisher.publish (updated.event resolution)
  return updated

def approve (trackingId : String) : Prog σ Exn PendingApproval := svc.resolve trackingId .approved .approved

def reject (trackingId : String) : Prog σ Exn PendingApproval := svc.resolve trackingId .rejected .rejected

def requestInfo (trackingId : String) : Prog σ Exn PendingApproval := do
  let approval ← svc.requireActionable trackingId
  let updated := { approval with status := .waitingInfo }
  svc.repository.save updated
  return updated

def addAdditionalInfo (trackingId : String) (info : String) : Prog σ Exn PendingApproval := do
  match ← svc.repository.get trackingId with
  | none => .raise (.approvalNotFoundError trackingId)
  | some approval =>
    if approval.status ≠ .waitingInfo then .raise (.approvalNotAwaitingInfoError trackingId)
    else
      let updated := { approval with status := .pending, additionalInfo := some info }
      svc.repository.save updated
      return updated

end ApprovalService

/-! ## Calls -/

inductive ApprovalCall
  | decisionCompleted (event : DecisionCompletedEvent)
  | approve (trackingId : String)
  | reject (trackingId : String)
  | requestInfo (trackingId : String)
  | addAdditionalInfo (trackingId info : String)
  deriving DecidableEq

/-- The tracking id that a call is about. -/
def ApprovalCall.trackingId : ApprovalCall → String
  | decisionCompleted event => event.decision.correlationId
  | approve t => t
  | reject t => t
  | requestInfo t => t
  | addAdditionalInfo t _ => t

/-- Run a call; the record it returns, if any. -/
def ApprovalService.call {σ : Sig} (svc : ApprovalService σ) :
    ApprovalCall → Prog σ Exn (Option PendingApproval)
  | .decisionCompleted event => do
    svc.handleDecisionCompleted event
    return none
  | .approve t => some <$> svc.approve t
  | .reject t => some <$> svc.reject t
  | .requestInfo t => some <$> svc.requestInfo t
  | .addAdditionalInfo t info => some <$> svc.addAdditionalInfo t info

/-! ## What a call does with the stored record -/

/-- The resolution that a status records. -/
def ApprovalStatus.resolution : ApprovalStatus → Option ApprovalResolution
  | pending => none
  | waitingInfo => none
  | approved => some .approved
  | rejected => some .rejected

/-- A call stops with a result, or saves a record and announces a resolution. -/
inductive ApprovalPlan
  | stop (result : Except Exn (Option PendingApproval))
  | write (updated : PendingApproval) (announce : Option ApprovalResolution)

namespace ApprovalCall

/-- Calls that read nothing. -/
def ignored : ApprovalCall → Bool
  | decisionCompleted event => event.decision.route ≠ .humanReview
  | _ => false

/-- What a human action does with the stored record: the record it saves, or the exception it raises. -/
def plan : ApprovalCall → Option PendingApproval → ApprovalPlan
  | decisionCompleted event, none => .write (.ofEvent event) none
  | decisionCompleted _, some _ => .stop (.ok none)
  | approve t, none => .stop (.error (.approvalNotFoundError t))
  | approve t, some a =>
    if !a.status.actionable then .stop (.error (.approvalAlreadyResolvedError t))
    else .write { a with status := .approved } (some .approved)
  | reject t, none => .stop (.error (.approvalNotFoundError t))
  | reject t, some a =>
    if !a.status.actionable then .stop (.error (.approvalAlreadyResolvedError t))
    else .write { a with status := .rejected } (some .rejected)
  | requestInfo t, none => .stop (.error (.approvalNotFoundError t))
  | requestInfo t, some a =>
    if !a.status.actionable then .stop (.error (.approvalAlreadyResolvedError t))
    else .write { a with status := .waitingInfo } none
  | addAdditionalInfo t _, none => .stop (.error (.approvalNotFoundError t))
  | addAdditionalInfo t info, some a =>
    if a.status ≠ .waitingInfo then .stop (.error (.approvalNotAwaitingInfoError t))
    else .write { a with status := .pending, additionalInfo := some info } none

/-- The resolution that a call brings. -/
def resolution : ApprovalCall → Option ApprovalResolution
  | approve _ => some .approved
  | reject _ => some .rejected
  | _ => none

/-- What a call that saved `updated` returns. -/
def result (updated : PendingApproval) : ApprovalCall → Option PendingApproval
  | decisionCompleted _ => none
  | _ => some updated

/-- **What a plan can write**: a first sighting, or an actionable record with a new status; it announces
what the status records. -/
theorem plan_write {c : ApprovalCall} {stored : Option PendingApproval} {u : PendingApproval}
    {announce : Option ApprovalResolution} (h : c.plan stored = .write u announce) :
    announce = u.status.resolution ∧
      ((∃ e, c = .decisionCompleted e ∧ stored = none ∧ u = .ofEvent e) ∨
        ∃ a, stored = some a ∧ a.status.actionable = true ∧
          u = { a with status := u.status, additionalInfo := u.additionalInfo }) := by
  have hwaiting {st : ApprovalStatus} (hst : ¬ st ≠ .waitingInfo) : st.actionable = true := by
    rw [not_not.mp hst]; rfl
  rcases c with e | t | t | t | ⟨t, info⟩ <;> rcases stored with _ | a <;> simp only [plan] at h
  case decisionCompleted.none => cases h; exact ⟨rfl, .inl ⟨e, rfl, rfl, rfl⟩⟩
  case addAdditionalInfo.some =>
    split_ifs at h with hst
    cases h
    exact ⟨rfl, .inr ⟨a, rfl, hwaiting hst, rfl⟩⟩
  all_goals
    first
      | cases h
      | (split_ifs at h with hst
         cases h
         exact ⟨rfl, .inr ⟨a, rfl, by simpa using hst, rfl⟩⟩)

theorem plan_resolution {c : ApprovalCall} {stored : Option PendingApproval} {u : PendingApproval}
    {announce : Option ApprovalResolution} (h : c.plan stored = .write u announce) :
    u.status.resolution = c.resolution := by
  rcases c with e | t | t | t | ⟨t, info⟩ <;> rcases stored with _ | a <;> simp only [plan] at h
  all_goals
    first
      | (cases h
         rfl)
      | cases h
      | (split_ifs at h
         cases h
         rfl)

/-- A plan writes over no resolution: `_require_actionable`. -/
theorem plan_open {c : ApprovalCall} {stored : Option PendingApproval} {u : PendingApproval}
    {announce : Option ApprovalResolution} (h : c.plan stored = .write u announce) :
    stored.bind (·.status.resolution) = none := by
  rcases (plan_write h).2 with ⟨e, rfl, rfl, -⟩ | ⟨a, rfl, hactionable, -⟩
  · rfl
  · show a.status.resolution = none
    cases hst : a.status <;> rw [hst] at hactionable <;> first | rfl | cases hactionable

end ApprovalCall

namespace ApprovalService
variable {σ : Sig} (svc : ApprovalService σ)

/-- Save, announce, return. -/
def follow (c : ApprovalCall) : ApprovalPlan → Prog σ Exn (Option PendingApproval)
  | .stop r => .ofExcept r
  | .write updated announce => (svc.repository.save updated).attempt (.onOk fun _ =>
      match announce with
      | none => .ret (c.result updated)
      | some resolution =>
        (svc.publisher.publish (updated.event resolution)).attempt (.onOk fun _ => .ret (c.result updated)))

theorem map_resolve_eq (t : String) (status : ApprovalStatus)
    (resolution : ApprovalResolution) (c : ApprovalCall)
    (hnone : c.plan none = .stop (.error (.approvalNotFoundError t)))
    (hid : c.trackingId = t ∧ c.ignored = false) (hsome : ∀ a, c.plan (some a) =
      if !a.status.actionable then .stop (.error (.approvalAlreadyResolvedError t))
      else .write { a with status := status } (some resolution))
    (hresult : ∀ a, c.result a = some a) :
    some <$> svc.resolve t status resolution = if c.ignored then .ret none
      else (svc.repository.get c.trackingId).attempt (.onOk fun a => svc.follow c (c.plan a)) := by
  rw [hid.1, hid.2]
  simp only [resolve, requireActionable, Prog.bind_eq, Prog.pure_eq, Prog.map_eq, Prog.attempt_assoc,
    Bool.false_eq_true, if_false]
  refine Prog.attempt_congr fun r => ?_
  rcases r with e | _ | a
  · rfl
  · simp [hnone, follow]
  · simp only [Prog.onOk_ok, hsome]
    split_ifs
    · rfl
    · rw [Prog.attempt_ret, Prog.onOk_ok, Prog.attempt_assoc]
      refine Prog.attempt_congr fun r => ?_
      cases r with
      | error e => rfl
      | ok u =>
        simp only [Prog.onOk_ok, Prog.attempt_assoc]
        exact Prog.attempt_congr fun r => by cases r <;> simp [hresult]

/-- **Every call** reads one record, once, and follows its plan. -/
theorem call_eq (c : ApprovalCall) :
    svc.call c = if c.ignored then .ret none
      else (svc.repository.get c.trackingId).attempt (.onOk fun a => svc.follow c (c.plan a)) := by
  cases c with
  | decisionCompleted event =>
    simp only [call, handleDecisionCompleted, ApprovalCall.ignored, Prog.bind_eq, Prog.pure_eq]
    by_cases hroute : event.decision.route = .humanReview
    · simp only [hroute, ne_eq, not_true_eq_false, if_false, decide_false,
        Bool.false_eq_true, Prog.attempt_assoc]
      refine Prog.attempt_congr fun r => ?_
      rcases r with e | _ | a
      · rfl
      · exact Prog.attempt_congr fun r => by cases r <;> rfl
      · rfl
    · simp [hroute]
  | approve t =>
    exact svc.map_resolve_eq t .approved .approved (.approve t) rfl ⟨rfl, rfl⟩ (fun _ => rfl) fun _ => rfl
  | reject t =>
    exact svc.map_resolve_eq t .rejected .rejected (.reject t) rfl ⟨rfl, rfl⟩ (fun _ => rfl) fun _ => rfl
  | requestInfo t =>
    simp only [call, requestInfo, requireActionable, Prog.bind_eq, Prog.pure_eq,
      Prog.map_eq, Prog.attempt_assoc]
    refine Prog.attempt_congr fun r => ?_
    rcases r with e | _ | a
    · rfl
    · rfl
    · simp only [Prog.onOk_ok, ApprovalCall.plan]
      split_ifs
      · rfl
      · rw [Prog.attempt_ret, Prog.onOk_ok, Prog.attempt_assoc]
        exact Prog.attempt_congr fun r => by cases r <;> rfl
  | addAdditionalInfo t info =>
    simp only [call, addAdditionalInfo, Prog.bind_eq, Prog.pure_eq, Prog.map_eq, Prog.attempt_assoc]
    refine Prog.attempt_congr fun r => ?_
    rcases r with e | _ | a
    · rfl
    · rfl
    · simp only [Prog.onOk_ok, ApprovalCall.plan]
      split_ifs
      · rfl
      · rw [Prog.attempt_assoc]
        exact Prog.attempt_congr fun r => by cases r <;> rfl

end ApprovalService

end ApprovalFlow
