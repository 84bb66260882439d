import ApprovalFlow.Approval.DaprState
import ApprovalFlow.Approval.InMemory
import ApprovalFlow.Shared.Refine
import ApprovalFlow.Workflow.Indexes

/-!
# Approval over the Dapr state store is Approval over a dictionary

As for Payment: where requests may be refused but no reply is lost, whatever clients see of the service
over the Dapr state store, in any interleaving, they can see of the service over the in-memory
repository.

* `ApprovalRequest`, `ApprovalService.serve`: the calls, and `get`.
* `daprApprovalServer`, `inMemoryApprovalServer`: the service at both levels.
* `daprApproval_refines`: the runs.
-/

namespace ApprovalFlow
open Async Async.Coupling Versioned

inductive ApprovalRequest
  | call (c : ApprovalCall)
  | get (trackingId : String)
  deriving DecidableEq

/-- The tracking id of a request. -/
def ApprovalRequest.trackingId : ApprovalRequest → String
  | call c => c.trackingId
  | get t => t

def ApprovalService.serve {σ : Sig} (svc : ApprovalService σ) :
    ApprovalRequest → Prog σ Exn (Option PendingApproval)
  | .call c => svc.call c
  | .get t => some <$> svc.get t

/-- Requests on one sidecar, which may refuse them. -/
def ApprovalDapr.exec : Handler approvalDaprSig Exn ApprovalDapr ApprovalChoice
  | .answer, o, s => s.perform o
  | .fail details, _, s => (.error (.rpcError details), s)

/-- The service over the Dapr state store; `index` is no tracking id. -/
def daprApprovalServer :
    System approvalDaprSig Exn (Option PendingApproval) ApprovalDapr ApprovalChoice ApprovalRequest where
  body := daprApproval.serve
  invoke request s := if request.trackingId = "index" then none else some s
  exec := ApprovalDapr.exec

/-- The service over the in-memory repository. -/
def inMemoryApprovalServer :
    System approvalSig Exn (Option PendingApproval) ApprovalState ApprovalChoice ApprovalRequest where
  body := inMemoryApproval.serve
  invoke request s := if request.trackingId = "index" then none else some s
  exec := faultyApproval

namespace Approval

/-- The dictionary that a store stands for. -/
structure Stored (s : ApprovalDapr) (t : ApprovalState) : Prop where
  approvals : IndexedState.Mirrors DaprStateApprovalRepository.layout s.store t.approvals
  published : s.published = t.published

/-- The two levels. -/
def approvalLevels :
    Levels approvalDaprSig approvalSig Exn ApprovalDapr ApprovalState ApprovalChoice ApprovalChoice where
  exec := ApprovalDapr.exec
  spec := faultyApproval
  Rep := Stored
  Evolves s s' := s.store.Evolves s'.store
  refl s := .refl s.store
  trans h h' := h.trans h'
  evolves c o s := by
    cases c with
    | fail details => exact .refl _
    | answer => cases o with
      | state o => exact o.evolves_perform _ _ s.store
      | publishEvent e => exact .refl _

variable {s : ApprovalDapr} {t : ApprovalState}

/-! ## The operations -/

theorem Stored.save (h : Stored s t) {a : PendingApproval} (ha : a.trackingId ≠ "index") (etag : ℕ) :
    Stored { s with store := s.store.puts (IndexedState.writes DaprStateApprovalRepository.layout a
      (IndexedState.index DaprStateApprovalRepository.layout s.store) etag) }
      { t with approvals := t.approvals.insert a.trackingId a } :=
  ⟨h.approvals.commit DaprStateApprovalRepository.lawful ha etag, h.published⟩

theorem serves : Serves approvalLevels approvalStateClient ApprovalDapr.store fun s store =>
    { s with store := store } where
  getState key := by
    refine ⟨_, _, rfl, fun c s => ?_⟩
    cases c with
    | answer => exact ⟨rfl, .inl rfl⟩
    | fail details => exact ⟨rfl, .inr ⟨details, rfl⟩⟩
  executeStateTransaction ws := by
    refine ⟨_, _, rfl, fun c s => ?_⟩
    cases c with
    | fail details => exact .inr ⟨rfl, details, rfl⟩
    | answer =>
      by_cases h : s.store.Current ws
      · have hperform : s.perform (.state (.transact ws)) =
            (.ok (), { s with store := s.store.puts ws }) := by
          simp only [ApprovalDapr.perform, Op.perform_current h]
        exact .inl ⟨h, congrArg Prod.snd hperform, congrArg (fun r => Prog.ofExcept r.1) hperform⟩
      · have hperform : s.perform (.state (.transact ws)) = (.error (.rpcError ""), s) := by
          simp only [ApprovalDapr.perform, Op.perform_stale h]
        exact .inr ⟨congrArg Prod.snd hperform, "", congrArg (fun r => Prog.ofExcept r.1) hperform⟩
  evolves h := h

theorem performs (o : ApprovalOp) (t : ApprovalState) :
    approvalLevels.Performs o.await t (t.perform o).1 (t.perform o).2 :=
  Levels.performs_op (L := approvalLevels) o .answer t

theorem performs_fail (o : ApprovalOp) (details : String) (t : ApprovalState) :
    approvalLevels.Performs o.await t (.error (ApprovalState.infraError details o)) t :=
  Levels.performs_op (L := approvalLevels) o (.fail details) t

theorem mayFail {o : ApprovalOp}
    (ho : ∀ details, ApprovalState.infraError details o = .approvalRepositoryError (.text details)) :
    IndexedState.MayFail approvalLevels DaprStateApprovalRepository.layout o.await := by
  intro t e he
  refine ⟨_, performs_fail o "" t, ?_⟩
  rw [ho]
  obtain ⟨details, rfl⟩ | ⟨details, rfl⟩ | ⟨trackingId, rfl⟩ := he <;> exact .approvalRepositoryError _ _

theorem refines_saveApproval {a : PendingApproval} (ha : a.trackingId ≠ "index") :
    approvalLevels.Refines (daprApproval.repository.save a)
      (inMemoryApproval.repository.save a) s SameReply :=
  IndexedState.refines_save serves rfl (mayFail fun _ => rfl) fun _ t etag h =>
    ⟨_, performs (.saveApproval a) t, h.save ha etag⟩

theorem refines_getApproval {trackingId : String} (ht : trackingId ≠ "index") :
    approvalLevels.Refines (daprApproval.repository.get trackingId)
      (inMemoryApproval.repository.get trackingId) s
      (Both (fun a b => a = b ∧ ∀ r, a = some r → r.trackingId = trackingId) Exn.SameClass) :=
  IndexedState.refines_get serves DaprStateApprovalRepository.lawful ApprovalState.approvals
    (fun h => h.approvals) ht rfl (mayFail fun _ => rfl) fun t => performs (.getApproval trackingId) t

theorem refines_publish (e : ApprovalCompletedEvent) :
    approvalLevels.Refines (daprApproval.publisher.publish e)
      (inMemoryApproval.publisher.publish e) s SameReply := by
  refine Levels.refines_await rfl fun s₁ t c _ hrep => .inr ?_
  cases c with
  | answer =>
    exact ⟨_, _, performs (.publish e) t, ⟨hrep.approvals, congrArg (· ++ [e]) hrep.published⟩, rfl⟩
  | fail details =>
    exact ⟨_, t, performs_fail (.publish e) ("Failed to publish approval.completed: " ++ details) t, hrep,
      Exn.SameClass.refl _⟩

/-! ## The calls -/

theorem refines_follow {c : ApprovalCall} {plan : ApprovalPlan}
    (ht : ∀ updated announce, plan = .write updated announce → updated.trackingId ≠ "index") :
    approvalLevels.Refines (daprApproval.follow c plan) (inMemoryApproval.follow c plan) s SameReply := by
  cases plan with
  | stop result => exact Levels.refines_ofExcept (SameReply.refl result)
  | write updated announce =>
    refine (refines_saveApproval (ht updated announce rfl)).onOk fun _ _ _ _ _ => ?_
    cases announce with
    | none => exact rfl
    | some resolution =>
      refine (refines_publish _).onOk fun _ _ _ _ _ => ?_
      exact rfl

theorem trackingId_of_plan {c : ApprovalCall} {stored : Option PendingApproval}
    (hstored : ∀ a, stored = some a → a.trackingId = c.trackingId) {updated : PendingApproval}
    {announce : Option ApprovalResolution} (h : c.plan stored = .write updated announce) :
    updated.trackingId = c.trackingId := by
  obtain ⟨-, ⟨e, rfl, -, rfl⟩ | ⟨a, ha, -, hu⟩⟩ := ApprovalCall.plan_write h
  · rfl
  · rw [hu]
    exact hstored a ha

theorem refines_serve {request : ApprovalRequest} (ht : request.trackingId ≠ "index") :
    approvalLevels.Refines (daprApproval.serve request) (inMemoryApproval.serve request) s SameReply := by
  cases request with
  | call c =>
    show approvalLevels.Refines (daprApproval.call c) (inMemoryApproval.call c) s SameReply
    rw [ApprovalService.call_eq, ApprovalService.call_eq]
    split_ifs
    · exact rfl
    · refine (refines_getApproval ht).onOk fun found found' s₁ _ hfound => ?_
      obtain ⟨rfl, hkeyed⟩ := hfound
      exact refines_follow fun updated announce h => trackingId_of_plan hkeyed h ▸ ht
  | get t =>
    have hget : approvalLevels.Refines (daprApproval.get t) (inMemoryApproval.get t) s SameReply := by
      refine (refines_getApproval ht).onOk fun found found' s₁ _ hfound => ?_
      obtain ⟨rfl, -⟩ := hfound
      cases found with
      | none => exact Exn.SameClass.refl _
      | some a => exact rfl
    refine hget.onOk fun _ _ _ _ heq => ?_
    exact congrArg some heq

/-- **Approval refines Approval over a dictionary**: whatever clients see of the service over the Dapr
state store, in any interleaving of calls in which requests may be refused and no reply is lost, they can
see of the service over the in-memory repository, where every operation of the repository is one step;
with the same published events. -/
theorem daprApproval_refines (s : ApprovalDapr) (t : ApprovalState) (hs : Stored s t)
    (cfg : Config approvalDaprSig Exn (Option PendingApproval) ApprovalDapr ApprovalRequest)
    (hr : daprApprovalServer.Reach (fun _ _ => True) (System.start s) cfg) :
    ∃ cfg', inMemoryApprovalServer.Reach (fun _ _ => True) (System.start t) cfg' ∧
      Stored cfg.world.state cfg'.world.state ∧
        Levels.SameHistory (fun _ => SameReply) cfg.world.log cfg'.world.log := by
  have habstracts : approvalLevels.Abstracts daprApprovalServer inMemoryApprovalServer fun _ => SameReply :=
    Levels.abstracts_of_guard rfl rfl (fun _ _ => rfl) (fun _ _ => rfl) fun _ _ ht => refines_serve ht
  obtain ⟨cfg', hr', h⟩ := habstracts.sound hs hr
  exact ⟨cfg', hr', h.state, h.history⟩

/-- An escalated laptop, its save refused once, that is approved and rejected at the same time: the
rejection loses the race for the index, saves again, and cannot be published. -/
def racedResolutions : List (Action ApprovalChoice ApprovalRequest) :=
  let answered := List.map fun i => Action.step i ApprovalChoice.answer
  [.invoke (.call (.decisionCompleted ⟨laptop, ⟨.humanReview, "", [], "t-1"⟩, none⟩))] ++ answered [0, 0] ++
    [.step 0 (.fail "connection reset")] ++ answered [0, 0] ++
    [.respond 0, .invoke (.call (.approve "t-1")), .invoke (.call (.reject "t-1"))] ++
      answered [1, 2, 1, 2, 1, 2, 2, 2, 1] ++
    [.step 2 (.fail "broker down"), .respond 1, .respond 2, .invoke (.get "t-1")] ++
      answered [3] ++ [.respond 3]

def racedApprovals : Config approvalDaprSig Exn (Option PendingApproval) ApprovalDapr ApprovalRequest :=
  (daprApprovalServer.runActions (fun _ _ => true) racedResolutions (System.start .empty)).get (by
    decide +kernel)

theorem racedResolutions_refine :
    ∃ cfg', inMemoryApprovalServer.Reach (fun _ _ => True) (System.start .empty) cfg' ∧
      Stored racedApprovals.world.state cfg'.world.state ∧
      Levels.SameHistory (fun _ => SameReply) racedApprovals.world.log cfg'.world.log :=
  daprApproval_refines .empty .empty ⟨.empty, rfl⟩ racedApprovals
    (System.reach_of_runActions (fun _ _ _ => trivial) racedResolutions (Option.some_get _).symm)

end Approval

end ApprovalFlow
