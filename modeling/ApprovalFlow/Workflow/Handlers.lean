import ApprovalFlow.Workflow.Provenance

/-!
# Every handler keeps a run sound

* `Harmless`: operations that write no record, charge nothing and publish nothing.
* `SafeBody`: a handler performs only what is allowed, whatever the others do; a rule for each method
  that handlers use.
* `safe_body`: every call; `sound`: every reachable state.
-/

namespace ApprovalFlow.Workflow
open Numeric Async Versioned

variable {ν : Type} {env : Deployment ν} {w : WorkflowWorld} {i : Nat} {call : WorkflowCall}

/-- What writes no record, charges nothing and publishes nothing. -/
def Harmless : WorkflowOp → Prop
  | .state .intake (.transact _) => False
  | .state .approval (.transact _) => False
  | .state .payment (.transact ws) => ∃ d b etag, ws = [⟨DaprStateBudgetRepository.key d, .budget b, etag⟩]
  | .charge _ _ => False
  | .publishEvent _ => False
  | _ => True

theorem Harmless.allowed {o : WorkflowOp} (h : Harmless o) : Allowed env w i call o := by
  cases o with
  | state service o =>
    cases o with
    | get k => trivial
    | transact ws =>
      cases service with
      | intake => exact h.elim
      | approval => exact h.elim
      | payment => exact .inr h
      | notification => trivial
  | complete _ _ => trivial
  | charge _ _ => exact h.elim
  | send _ _ _ _ => trivial
  | publishEvent _ => exact h.elim

theorem Harmless.submissionsOf {o : WorkflowOp} (h : Harmless o) (r : Except Exn o.Reply) :
    submissionsOf (.perform i call o r) = [] := by
  cases o with
  | state service o =>
    cases o with
    | get k => cases service <;> rfl
    | transact ws =>
      cases service with
      | intake => exact h.elim
      | approval => rfl
      | payment => rfl
      | notification => rfl
  | complete _ _ => rfl
  | charge _ _ => rfl
  | send _ _ _ _ => rfl
  | publishEvent _ => rfl

/-- Nothing is asked of the environment. -/
abbrev Unrestricted : StepCond workflowSig Exn Unit WorkflowState WorkflowChoice WorkflowCall :=
  fun _ _ _ _ _ => True

/-- Whatever the others do, thread `i` performs only what is allowed. -/
abbrev SafeBody (env : Deployment ν) (i : Nat) (call : WorkflowCall) (p : Prog workflowSig Exn Unit)
    (w : WorkflowWorld) : Prop :=
  Safe (workflow env) Unrestricted (Sound env) Sees i call p (fun _ _ => True) w

/-! ## Rules -/

theorem safe_ofExcept (r : Except Exn Unit) : SafeBody env i call (.ofExcept r) w := by
  cases r <;> trivial

theorem SafeBody.tail {p : Prog workflowSig Exn Unit} (h : SafeBody env i call (p.attempt .ofExcept) w) :
    SafeBody env i call p w := by
  rwa [Prog.attempt_ofExcept] at h

section Rules
variable {β : Type} {f : Except Exn β → Prog workflowSig Exn Unit}

theorem safe_op {o : WorkflowOp} {f : Except Exn o.Reply → Prog workflowSig Exn Unit}
    (ho : ∀ w₁, Sees i w w₁ → Sound env w₁ → Allowed env w₁ i call o)
    (hf : ∀ w₁ c, Sees i w w₁ → Grows w (after env w₁ i call o c) → Sound env (after env w₁ i call o c) →
      SafeBody env i call (f (w₁.state.perform c o).1) (after env w₁ i call o c)) :
    SafeBody env i call ((@Prog.op workflowSig Exn o).attempt f) w := by
  rw [@Prog.op_attempt workflowSig Exn Unit o f]
  intro w₁ hR hI c _
  have hallowed := ho w₁ hR hI
  exact ⟨hallowed.sound hI, fun j hj => hallowed.sees hI hj,
    hf w₁ c hR (hR.toGrows.trans (grows_after env w₁ i call o c)) (hallowed.sound hI)⟩

theorem safe_harmless {p : Prog workflowSig Exn β} (hp : p.Only Harmless) (hI : Sound env w)
    (hf : ∀ r w₁, Sees i w w₁ → Sound env w₁ → SafeBody env i call (f r) w₁) :
    SafeBody env i call (p.attempt f) w := by
  refine Safe.attempt (Safe.of_only Sees.trans (fun w₁ o c hI₁ ho => ?_) hf hp (.refl i w) hI)
  exact ⟨(ho.allowed).sound hI₁, fun j => sees_after (ho.submissionsOf _) j⟩

theorem safe_getState {service : Service} {key : String}
    {f : Except Exn (Option service.Document × Nat) → Prog workflowSig Exn Unit}
    (hf : ∀ w₁, Sees i w w₁ → Sound env w₁ →
      .perform i call (.state service (.get key)) (.ok ((w₁.state.stores service).get key)) ∈ w₁.log →
        SafeBody env i call (f (.ok ((w₁.state.stores service).get key))) w₁)
    (herror : ∀ e w₁, Sees i w w₁ → Sound env w₁ → SafeBody env i call (f (.error e)) w₁) :
    SafeBody env i call (((workflowClient service).getState key).attempt f) w := by
  refine @safe_op _ env w i call (.state service (.get key)) f (fun _ _ _ => trivial) fun w₁ c hR _ hI => ?_
  have hsees : Sees i w₁ (after env w₁ i call (.state service (.get key)) c) :=
    sees_after (by cases service <;> rfl) i
  have hstore : (after env w₁ i call (.state service (.get key)) c).state.stores service =
      w₁.state.stores service := by
    show (w₁.state.perform c (.state service (.get key))).2.stores service = _
    rcases WorkflowState.stores_perform (c := c) (s := w₁.state) (.state service (.get key)) service
        with h | ⟨ws, h, -⟩
    · exact h
    · cases h
  have hreply : (w₁.state.perform c (.state service (.get key))).1 =
      .ok ((w₁.state.stores service).get key) ∨
      (w₁.state.perform c (.state service (.get key))).1 = .error c.failure := by
    simp only [WorkflowState.perform]
    cases c.reception
    · exact .inl rfl
    · exact .inr rfl
    · exact .inr rfl
  rcases hreply with h | h
  · rw [h, ← hstore]
    refine hf _ (hR.trans hsees) hI ?_
    rw [hstore, ← h]
    exact List.mem_cons_self
  · rw [h]
    exact herror _ _ (hR.trans hsees) hI

theorem safe_publish {E : Type} (message : E → Message) {error : String → Exn} {e : E}
    {f : Except Exn Unit → Prog workflowSig Exn Unit} (hm : Justified env w (message e))
    (hf : ∀ r w₁, Grows w w₁ → Sound env w₁ → SafeBody env i call (f r) w₁) :
    SafeBody env i call ((publishOrRaise error (fun e => publishEvent (message e)) e).attempt f) w := by
  rw [publishOrRaise, Prog.handle_eq, Prog.attempt_assoc]
  refine @safe_op _ env w i call (.publishEvent (message e)) _ (fun w₁ hR _ => hm.mono hR.toGrows)
    fun w₁ c _ hg hI => ?_
  cases (w₁.state.perform c (.publishEvent (message e))).1 with
  | ok u => exact hf _ _ hg hI
  | error e => cases e <;> exact hf _ _ hg hI

theorem safe_get {service : Service} {R : Type} {layout : IndexedLayout service.Document R} {t : String}
    {f : Except Exn (Option R) → Prog workflowSig Exn Unit}
    (hf : ∀ w₁ found etag, Sees i w w₁ → Sound env w₁ →
      found = (w₁.state.stores service).value (layout.key t) →
      .perform i call (.state service (.get (layout.key t))) (.ok (found, etag)) ∈ w₁.log →
        SafeBody env i call (f (IndexedState.found layout found)) w₁)
    (herror : ∀ e w₁, Sees i w w₁ → Sound env w₁ → SafeBody env i call (f (.error e)) w₁) :
    SafeBody env i call ((IndexedState.get (workflowClient service) layout t).attempt f) w := by
  rw [IndexedState.get_eq, Prog.attempt_assoc]
  refine safe_getState (fun w₁ hR hI hlogged => ?_) fun e w₁ hR hI => herror _ w₁ hR hI
  simp only [StateClient.afterRead, Prog.ofExcept_attempt]
  exact hf w₁ _ _ hR hI rfl hlogged

theorem safe_save {service : Service} {R : Type} {layout : IndexedLayout service.Document R} {r : R}
    {f : Except Exn Unit → Prog workflowSig Exn Unit} (hI : Sound env w)
    (hallowed : ∀ w₁, Grows w w₁ → ∀ ids etag,
      AllowedWrites w₁ i call service (IndexedState.writes layout r ids etag))
    (hf : ∀ w₁ ids etag, Grows w w₁ → Sound env w₁ →
      .perform i call (.state service (.transact (IndexedState.writes layout r ids etag))) (.ok ()) ∈
        w₁.log → SafeBody env i call (f (.ok ())) w₁)
    (herror : ∀ e w₁, Grows w w₁ → Sound env w₁ → SafeBody env i call (f (.error e)) w₁) :
    SafeBody env i call ((IndexedState.save (workflowClient service) layout r).attempt f) w := by
  unfold IndexedState.save
  generalize maxRetries = n
  induction n generalizing w with
  | zero => exact herror _ w (.refl w) hI
  | succ n ih =>
    rw [IndexedState.saveLoop_succ, Prog.attempt_assoc]
    refine safe_getState (fun w₁ hR hI₁ _ => ?_) fun e w₁ hR hI₁ => herror _ w₁ hR.toGrows hI₁
    simp only [StateClient.afterRead]
    rw [Prog.attempt_assoc]
    generalize IndexedState.ids layout _ = ids
    generalize ((w₁.state.stores service).get layout.indexKey).2 = etag
    refine @safe_op _ env w₁ i call (.state service (.transact (IndexedState.writes layout r ids etag))) _
      (fun w₂ hR₂ _ => hallowed w₂ (hR.toGrows.trans hR₂.toGrows) ids etag) fun w₂ c _ hg₃ hI₃ => ?_
    have hg := hR.toGrows.trans hg₃
    cases hreply :
      (w₂.state.perform c (.state service (.transact (IndexedState.writes layout r ids etag)))).1 with
    | ok u => exact hf _ ids etag hg hI₃ (hreply ▸ List.mem_cons_self)
    | error e =>
      cases e
      case rpcError details =>
        exact ih hI₃ (fun w₄ h₄ => hallowed w₄ (hg.trans h₄))
          (fun w₄ ids etag h₄ => hf w₄ ids etag (hg.trans h₄))
          fun e w₄ h₄ => herror e w₄ (hg.trans h₄)
      all_goals exact herror _ _ hg hI₃

end Rules

/-! ## Intake -/

theorem Recorded.stable {s : Submission} (h : Recorded w i s) {w₁ : WorkflowWorld} (hR : Sees i w w₁) :
    Recorded w₁ i s := by
  rcases h with ⟨s', hs', hsame⟩ | ⟨⟨invoice, hinvoke⟩, hnone⟩
  · exact .inl ⟨s', hR.mem_submissions hs', hsame⟩
  · exact .inr ⟨⟨invoice, hR.mem_log hinvoke⟩, hR.own _ invoice hinvoke hnone⟩

section Intake
variable {t : String}

theorem safe_saveSubmission {s : Submission} {f : Except Exn Unit → Prog workflowSig Exn Unit}
    (hs : Recorded w i s) (hf : ∀ r w₁, Grows w w₁ → Sound env w₁ → SafeBody env i call (f r) w₁) :
    SafeBody env i call ((workflowIntake.repository.save s).attempt f) w := by
  show SafeBody env i call ((DaprStateInvoiceRepository.save (workflowClient .intake) s).attempt f) w
  rw [DaprStateInvoiceRepository.save, Prog.handle_eq, Prog.attempt_assoc]
  refine @safe_op _ env w i call (.state .intake (.transact (DaprStateInvoiceRepository.writes s))) _
    (fun w₁ hR _ => ⟨s, rfl, hs.stable hR⟩) fun w₁ c _ hg hI => ?_
  cases (w₁.state.perform c (.state .intake (.transact (DaprStateInvoiceRepository.writes s)))).1 with
  | ok u => exact hf _ _ hg hI
  | error e => cases e <;> exact hf _ _ hg hI

theorem safe_getSubmission {f : Except Exn (Option Submission) → Prog workflowSig Exn Unit}
    (hf : ∀ w₁, Sees i w w₁ → Sound env w₁ → ∀ found : Option Submission,
      (∀ s, found = some s → s.trackingId = t ∧ s ∈ submissions w₁.log) →
        SafeBody env i call (f (.ok found)) w₁)
    (herror : ∀ e w₁, Sees i w w₁ → Sound env w₁ → SafeBody env i call (f (.error e)) w₁) :
    SafeBody env i call ((workflowIntake.repository.get t).attempt f) w := by
  show SafeBody env i call ((DaprStateInvoiceRepository.get (workflowClient .intake) t).attempt f) w
  rw [DaprStateInvoiceRepository.get_eq, Prog.attempt_assoc]
  refine safe_getState (fun w₁ hR hI _ => ?_) fun e w₁ hR hI => herror _ w₁ hR hI
  simp only [StateClient.afterRead, Prog.ofExcept_attempt]
  have hdocumented := hI.documented .intake t
  cases hv : (w₁.state.stores .intake).value (DaprStateInvoiceRepository.submissionKey t) with
  | none =>
    simp only [Store.get, hv]
    exact hf w₁ hR hI none fun s hs => by cases hs
  | some data =>
    simp only [Store.get, hv]
    cases data with
    | pointer t' => exact herror _ w₁ hR hI
    | submission s =>
      refine hf w₁ hR hI (some s) fun s' hs' => ?_
      cases hs'
      exact hdocumented s hv

theorem only_getState {service : Service} (key : String) :
    ((workflowClient service).getState key).Only Harmless :=
  @Prog.only_op workflowSig Exn Harmless (.state service (.get key)) (by cases service <;> trivial)

theorem only_read {service : Service} (error : String → Exn) (key : String) :
    ((workflowClient service).read error key).Only Harmless :=
  (only_getState key).handle fun _ => trivial

theorem only_findByDedupKey (key : String) :
    (workflowIntake.repository.findByDedupKey key).Only Harmless := by
  have hget (t : String) : (DaprStateInvoiceRepository.get (workflowClient .intake) t).Only Harmless := by
    rw [DaprStateInvoiceRepository.get_eq]
    refine (only_getState _).attempt fun r => ?_
    cases r with
    | error e => trivial
    | ok response => exact Prog.only_ofExcept _
  refine (only_read _ _).bind fun response => ?_
  obtain ⟨data, etag⟩ := response
  dsimp only
  split
  · trivial
  · trivial
  · refine (hget _).bind fun found => ?_
    cases found <;> trivial
  · trivial

theorem safe_submit {invoice : Invoice} (hI : Sound env w) (hinvoke : .invoke i (.submit t invoice) ∈ w.log)
    (hnone : ∀ s ∈ submissions w.log, s.trackingId ≠ t) :
    SafeBody env i call ((fun _ => ()) <$> workflowIntake.submit t invoice) w := by
  rw [Prog.map_eq, IntakeService.submit, Prog.bind_eq, Prog.attempt_assoc]
  refine safe_harmless (only_findByDedupKey _) hI fun r w₁ hR _ => ?_
  cases r with
  | error e => trivial
  | ok existing =>
    rw [Prog.onOk_ok, Prog.bind_eq, Prog.attempt_assoc]
    have hrecorded : Recorded w i (.received t invoice existing.isSome) := .inr ⟨⟨invoice, hinvoke⟩, hnone⟩
    refine safe_saveSubmission (hrecorded.stable hR) fun r w₂ _ _ => ?_
    cases r <;> trivial

theorem safe_complete {d : Decision} {f : Except Exn Unit → Prog workflowSig Exn Unit}
    (hf : ∀ r w₁, Grows w w₁ → Sound env w₁ → SafeBody env i call (f r) w₁) :
    SafeBody env i call ((workflowIntake.complete t d).attempt f) w := by
  rw [IntakeService.complete, Prog.bind_eq, Prog.attempt_assoc]
  refine safe_getSubmission (fun w₁ hR hI found hfound => ?_) fun e w₁ hR hI => hf _ w₁ hR.toGrows hI
  cases found with
  | none => exact hf _ w₁ hR.toGrows hI
  | some s =>
    rw [Prog.onOk_ok]
    dsimp only
    split_ifs with hcompleted
    · exact hf _ w₁ hR.toGrows hI
    · exact safe_saveSubmission (.inl ⟨s, (hfound s rfl).2, rfl, rfl⟩) fun r w₂ hg hI₂ =>
        hf r w₂ (hR.toGrows.trans hg) hI₂

theorem safe_processDuplicate {s : Submission} (hid : s.trackingId = t) (hs : s ∈ submissions w.log)
    (hdup : s.isDuplicate = true) : SafeBody env i call (workflowIntake.processDuplicate t s) w := by
  unfold IntakeService.processDuplicate
  split_ifs with hcompleted
  · trivial
  · refine safe_complete fun r w₁ hg _ => ?_
    cases r with
    | error e => trivial
    | ok u =>
      rw [Prog.onOk_ok, Prog.handle_eq]
      refine safe_publish .decisionCompleted ?_ fun r w₂ _ _ => ?_
      · rw [← hid]
        exact .duplicate s.invoice (hg.mem_submissions hs) hdup
      · rcases r with e | u
        · cases e <;> trivial
        · trivial

theorem safe_processNew {s : Submission} (hid : s.trackingId = t) (hs : s ∈ submissions w.log)
    (hnew : s.isDuplicate = false) : SafeBody env i call (workflowIntake.processNew t s) w := by
  unfold IntakeService.processNew
  rw [Prog.bind_eq]
  refine safe_saveSubmission (.inl ⟨s, hs, rfl, rfl⟩) fun r w₁ hg _ => ?_
  cases r with
  | error e => trivial
  | ok u =>
    rw [Prog.onOk_ok, Prog.handle_eq]
    refine safe_publish .invoiceSubmitted (.submitted (hg.mem_submissions hs) hid hnew) fun r w₂ hg₂ _ => ?_
    rcases r with e | u
    · cases e
      case decisionPublisherError message =>
        refine SafeBody.tail (safe_saveSubmission (.inl ⟨s, ?_, rfl, rfl⟩) fun r w₃ _ _ => safe_ofExcept r)
        exact hg₂.mem_submissions (hg.mem_submissions hs)
      all_goals trivial
    · trivial

theorem safe_process : SafeBody env i call (workflowIntake.process t) w := by
  rw [IntakeService.process, Prog.bind_eq]
  refine safe_getSubmission (fun w₁ _ _ found hfound => ?_) fun e w₁ _ _ => trivial
  cases found with
  | none => trivial
  | some s =>
    obtain ⟨hid, hs⟩ := hfound s rfl
    rw [Prog.onOk_ok]
    dsimp only
    split_ifs with hdup
    · exact safe_processDuplicate hid hs hdup
    · exact safe_processNew hid hs (Bool.eq_false_iff.mpr hdup)

end Intake

/-! ## Decision -/

theorem safe_decide {e : InvoiceSubmittedEvent} (he : .invoiceSubmitted e ∈ w.state.published) :
    SafeBody env i (.decide e) (env.decision.handleInvoiceSubmitted e) w := by
  rw [DecisionService.handleInvoiceSubmitted, Prog.bind_eq, Decider.decide_eq, Prog.attempt_assoc]
  refine @safe_op _ env w i (.decide e) (.complete systemPrompt (buildUserPrompt env.json e.invoice _)) _
    (fun _ _ _ => trivial) fun w₁ c _ hg _ => ?_
  rw [Prog.ofExcept_attempt]
  cases houtcome : env.decision.decider.conclude e.invoice e.correlationId false (w₁.state.perform c
      (.complete systemPrompt
        (buildUserPrompt env.json e.invoice (env.decision.decider.policyText e.invoice)))).1 with
  | error e => trivial
  | ok outcome =>
    rw [Prog.onOk_ok]
    exact SafeBody.tail (safe_publish .decisionCompleted
      (.decided List.mem_cons_self (hg.published he) houtcome) fun r _ _ _ => safe_ofExcept r)

/-! ## Approval -/

theorem call_of_resolution {c : ApprovalCall} {r : ApprovalResolution} (h : c.resolution = some r) :
    c = resolving c.trackingId r := by
  cases c <;> cases h <;> rfl

/-- Every plan writes an item whose decision was published for review. -/
theorem filed_of_plan {c : ApprovalCall} {stored : Option PendingApproval} {u : PendingApproval}
    {announce : Option ApprovalResolution} {published : List Message}
    (hstored : ∀ a, stored = some a → a.trackingId = c.trackingId ∧ Filed published a)
    (hdelivered : ∀ e, c = .decisionCompleted e → e.decision.route = .humanReview ∧
      .decisionCompleted e ∈ published)
    (h : c.plan stored = .write u announce) : u.trackingId = c.trackingId ∧ Filed published u := by
  rcases (ApprovalCall.plan_write h).2 with ⟨e, rfl, -, rfl⟩ | ⟨a, ha, -, hu⟩
  · obtain ⟨hroute, hmem⟩ := hdelivered e rfl
    exact ⟨rfl, rfl, hroute, e.recommendation, hmem⟩
  · obtain ⟨hid, hfiled⟩ := hstored a ha
    rw [hu]
    exact ⟨hid, hfiled.keyed, hfiled.escalated⟩

theorem safe_saveApproval {c : ApprovalCall} {u : PendingApproval}
    {f : Except Exn Unit → Prog workflowSig Exn Unit}
    (hI : Sound env w) (hu : Filed w.state.published u) (hresolution : u.status.resolution = c.resolution)
    (hreviewed : Reviewed i u.trackingId w.log)
    (hf : ∀ w₁ ids etag, Grows w w₁ → Sound env w₁ → .perform i (.approval c) (.state .approval
        (.transact (IndexedState.writes DaprStateApprovalRepository.layout u ids etag))) (.ok ()) ∈ w₁.log →
      SafeBody env i (.approval c) (f (.ok ())) w₁)
    (herror : ∀ e w₁, SafeBody env i (.approval c) (f (.error e)) w₁) :
    SafeBody env i (.approval c) ((workflowApproval.repository.save u).attempt f) w :=
  safe_save hI (fun _ hg ids etag => ⟨c, u, ids, etag, rfl, rfl, hresolution,
    hreviewed.mono hg, hu.mono hg⟩) hf fun e w₁ _ _ => herror e w₁

/-- A plan is followed: the item is saved, then its resolution is announced. -/
theorem safe_follow {c : ApprovalCall} {stored : Option PendingApproval} (hI : Sound env w)
    (hinvoke : .invoke i (.approval c) ∈ w.log)
    (hstored : ∀ a, stored = some a → a.trackingId = c.trackingId ∧ c.trackingId ≠ "index" ∧
      Filed w.state.published a)
    (hread : stored.bind (·.status.resolution) = none → Reviewed i c.trackingId w.log)
    (hdelivered : ∀ e, c = .decisionCompleted e →
      e.decision.route = .humanReview ∧ .decisionCompleted e ∈ w.state.published) :
    SafeBody env i (.approval c)
      ((workflowApproval.follow c (c.plan stored)).attempt (.onOk fun _ => .ret ())) w := by
  cases hplan : c.plan stored with
  | stop r => cases r <;> trivial
  | write u announce =>
    obtain ⟨hid, hfiled⟩ :=
      filed_of_plan (fun a ha => ⟨(hstored a ha).1, (hstored a ha).2.2⟩) hdelivered hplan
    unfold ApprovalService.follow
    dsimp only
    rw [Prog.attempt_assoc]
    have hresolution := ApprovalCall.plan_resolution hplan
    refine safe_saveApproval hI hfiled hresolution (hid ▸ hread (ApprovalCall.plan_open hplan))
      (fun w₁ ids etag hg _ hlogged => ?_) fun _ _ => trivial
    cases announce with
    | none => trivial
    | some r =>
      have hcall : c = resolving c.trackingId r :=
        call_of_resolution (hresolution.symm.trans (ApprovalCall.plan_write hplan).1.symm)
      have hkeyed : u.decision.correlationId = c.trackingId := hfiled.keyed.trans hid
      -- an item that is resolved was read
      have hindex : c.trackingId ≠ "index" := by
        rcases (ApprovalCall.plan_write hplan).2 with ⟨e, -, -, rfl⟩ | ⟨a, ha, -, -⟩
        · cases (ApprovalCall.plan_write hplan).1
        · exact (hstored a ha).2.1
      have hresolved : Justified env w₁ (.approvalCompleted (u.event r)) := by
        refine .resolved (hkeyed ▸ hindex) (hfiled.escalated.mono hg) ⟨i, ?_⟩ ?_
        · rw [PendingApproval.event, hkeyed, ← hcall]
          exact hg.mem_log hinvoke
        · exact ⟨i, _, u, ids, etag, hlogged, hfiled.keyed.symm, (ApprovalCall.plan_write hplan).1.symm⟩
      rw [Prog.onOk_ok]
      dsimp only
      rw [Prog.attempt_assoc]
      refine safe_publish .approvalCompleted hresolved fun r w₂ _ _ => ?_
      cases r <;> trivial

theorem safe_approval {c : ApprovalCall} (hinvoke : .invoke i (.approval c) ∈ w.log)
    (hdelivered : ∀ e, c = .decisionCompleted e → .decisionCompleted e ∈ w.state.published) :
    SafeBody env i (.approval c) ((fun _ => ()) <$> workflowApproval.call c) w := by
  rw [Prog.map_eq, ApprovalService.call_eq]
  split_ifs with hignored
  · trivial
  · rw [Prog.attempt_assoc]
    have hroute (e : DecisionCompletedEvent) (he : c = .decisionCompleted e) :
        e.decision.route = .humanReview := by
      subst he
      simpa [ApprovalCall.ignored] using hignored
    refine @safe_get _ env w i (.approval c) .approval _ DaprStateApprovalRepository.layout c.trackingId _
      (fun w₁ found etag hR hI hfound hlogged => ?_) fun e w₁ _ _ => trivial
    have hdelivered₁ (e : DecisionCompletedEvent) (he : c = .decisionCompleted e) :
        e.decision.route = .humanReview ∧ .decisionCompleted e ∈ w₁.state.published :=
      ⟨hroute e he, hR.published (hdelivered e he)⟩
    have hdocumented := hI.documented .approval c.trackingId
    cases found with
    | none =>
      exact safe_follow hI (hR.mem_log hinvoke) (fun a ha => by cases ha)
        (fun _ => ⟨_, _, _, hlogged, rfl⟩) hdelivered₁
    | some data =>
      cases data with
      | index ids => trivial
      | record a =>
        obtain ⟨hid, hindex, hfiled⟩ := hdocumented a hfound.symm
        refine safe_follow hI (hR.mem_log hinvoke) (fun a' ha' => ?_)
          (fun hopen => ⟨_, _, _, hlogged, hopen⟩) hdelivered₁
        cases ha'
        exact ⟨hid, hindex, hfiled⟩

/-! ## Payment -/

section Payment

theorem harmless_write (d : String) (b : Budget) (etag : Option Nat) :
    ((workflowClient .payment).executeStateTransaction
      [⟨DaprStateBudgetRepository.key d, .budget b, etag⟩]).Only Harmless :=
  @Prog.only_op workflowSig Exn Harmless
    (.state .payment (.transact [⟨DaprStateBudgetRepository.key d, .budget b, etag⟩]))
    ⟨d, b, etag, rfl⟩

theorem only_afterWrite {retry : Prog workflowSig Exn Unit} (h : retry.Only Harmless)
    (r : Except Exn Unit) : (StateClient.afterWrite retry r).Only Harmless := by
  rcases r with e | u
  · cases e
    case rpcError details => exact h
    all_goals trivial
  · trivial

theorem only_updateLoop (f : Budget → Except Exn Budget) (action d : String) (n : Nat) :
    (DaprStateBudgetRepository.updateLoop (workflowClient .payment) f action d n).Only Harmless := by
  induction n with
  | zero => trivial
  | succ n ih =>
    rw [DaprStateBudgetRepository.updateLoop_succ]
    refine (only_getState _).attempt fun r => ?_
    cases r with
    | error e => trivial
    | ok response =>
      simp only [StateClient.afterRead]
      cases DaprStateBudgetRepository.updated f d response.1 with
      | error e => trivial
      | ok b => exact (harmless_write d b _).attempt (only_afterWrite ih)

theorem only_ensureSeeded (d : String) (total : Decimal) :
    (env.payment.budgetRepository.ensureSeeded d total).Only Harmless := by
  show (DaprStateBudgetRepository.ensureSeeded (workflowClient .payment) d total).Only Harmless
  rw [DaprStateBudgetRepository.ensureSeeded_eq]
  refine (only_getState _).attempt fun r => ?_
  cases r with
  | error e => trivial
  | ok response =>
    simp only [StateClient.afterRead]
    cases response.1 with
    | some data => trivial
    | none => exact (harmless_write d ⟨d, total, total⟩ _).attempt (only_afterWrite trivial)

theorem only_reserve (d : String) (amount : Decimal) :
    (env.payment.budgetRepository.reserve d amount).Only Harmless :=
  only_updateLoop _ _ d _

theorem only_release (d : String) (amount : Decimal) :
    (env.payment.budgetRepository.release d amount).Only Harmless :=
  only_updateLoop _ _ d _

theorem safe_savePayment {p : PaymentRecord} {f : Except Exn Unit → Prog workflowSig Exn Unit}
    (hI : Sound env w) (hp : Backed w.state.published p)
    (hf : ∀ w₁, Grows w w₁ → Sound env w₁ → SafeBody env i call (f (.ok ())) w₁)
    (herror : ∀ e w₁, SafeBody env i call (f (.error e)) w₁) :
    SafeBody env i call ((env.payment.repository.save p).attempt f) w :=
  safe_save hI (fun _ hg ids etag => .inl ⟨p, ids, etag, rfl, hp.mono hg⟩)
    (fun w₁ _ _ hg hI₁ _ => hf w₁ hg hI₁) fun e w₁ _ _ => herror e w₁

theorem safe_saveAndPublish {p : PaymentRecord} (hI : Sound env w) (hp : Backed w.state.published p) :
    SafeBody env i call (env.payment.saveAndPublish p) w :=
  safe_savePayment hI hp (fun _ _ _ =>
    .tail (safe_publish .paymentCompleted (.paid p.event) fun r _ _ _ => safe_ofExcept r))
    fun _ _ => trivial

theorem safe_executeCharge {p : PaymentRecord} (hp : Backed w.state.published p) :
    SafeBody env i call (env.payment.executeCharge p) w := by
  by_cases hstatus : p.status = .reserved
  · rw [PaymentService.executeCharge_eq _ hstatus]
    refine @safe_op _ env w i call (.charge p.invoice p.trackingId) _
      (fun w₁ hR _ => ⟨p.decision, hp.keyed, hp.triggered.mono hR.toGrows⟩) fun w₁ c _ hg hI => ?_
    have hp₁ := hp.mono hg
    rcases (w₁.state.perform c (.charge p.invoice p.trackingId)).1 with e | u
    · cases e
      case paymentGatewayError message =>
        refine safe_harmless (only_release _ _) hI fun r w₂ hR₂ hI₂ => ?_
        cases r with
        | error e => trivial
        | ok u =>
          exact safe_saveAndPublish hI₂ ⟨(hp₁.mono hR₂.toGrows).keyed, (hp₁.mono hR₂.toGrows).triggered⟩
      all_goals trivial
    · exact safe_saveAndPublish hI ⟨hp₁.keyed, hp₁.triggered⟩
  · unfold PaymentService.executeCharge
    rw [if_pos hstatus]
    trivial

theorem safe_afterReserve {invoice : Invoice} {d : Decision} (hI : Sound env w)
    (ht : Triggered w.state.published invoice d) (r : Except Exn Unit) :
    SafeBody env i call (env.payment.afterReserve invoice d r) w := by
  cases r with
  | error e =>
    rcases env.payment.afterReserve_error invoice d e with h | ⟨reason, h⟩
    · rw [h]
      trivial
    · rw [h]
      exact safe_saveAndPublish hI ⟨rfl, ht⟩
  | ok u =>
    exact safe_savePayment hI ⟨rfl, ht⟩ (fun w₁ hg _ => safe_executeCharge ⟨rfl, ht.mono hg⟩)
      fun _ _ => trivial

theorem safe_runSaga {invoice : Invoice} {d : Decision} (ht : Triggered w.state.published invoice d) :
    SafeBody env i call (env.payment.runSaga invoice d) w := by
  rw [PaymentService.runSaga_eq]
  refine @safe_get _ env w i call .payment _ DaprStatePaymentRepository.layout d.correlationId _
    (fun w₁ found etag hR hI hfound _ => ?_) fun e w₁ _ _ => trivial
  have hdocumented := hI.documented .payment d.correlationId
  cases found with
  | none =>
    exact safe_harmless (only_reserve _ _) hI fun r w₂ hR₂ hI₂ =>
      safe_afterReserve hI₂ (ht.mono (hR.toGrows.trans hR₂.toGrows)) r
  | some data =>
    cases data with
    | index ids => trivial
    | budget b => trivial
    | record p =>
      show SafeBody env i call (env.payment.resume p) w₁
      unfold PaymentService.resume
      split_ifs with hterminal
      · trivial
      · exact safe_executeCharge (hdocumented p hfound.symm).2

theorem safe_pay {delivery : PaymentDelivery} (hmem : delivery.message ∈ w.state.published) :
    SafeBody env i call (env.payment.handle delivery) w := by
  rw [PaymentService.handle_eq]
  cases htrigger : delivery.trigger with
  | none => trivial
  | some triggered => exact safe_runSaga ⟨delivery, hmem, htrigger⟩

end Payment

/-! ## Notification -/

theorem only_notify (invoice : Invoice) (t message source : String) :
    (workflowNotification.notify invoice t message source).Only Harmless := by
  have hsend : (workflowNotification.channel.send invoice t message source).Only Harmless :=
    @Prog.only_op workflowSig Exn Harmless (.send invoice t message source) trivial
  have hmark : (workflowNotification.repository.markNotified t).Only Harmless := by
    refine Prog.Only.handle
      (@Prog.only_op workflowSig Exn Harmless (.state .notification (.transact _)) trivial) fun e => ?_
    cases e <;> trivial
  have hcheck : (workflowNotification.repository.alreadyNotified t).Only Harmless :=
    (only_read _ _).bind fun _ => trivial
  refine hcheck.bind fun notified => ?_
  split_ifs
  · trivial
  · exact hsend.bind fun _ => hmark

theorem only_handle (delivery : NotificationDelivery) :
    (workflowNotification.handle delivery).Only Harmless := by
  cases delivery with
  | decisionCompleted e =>
    simp only [NotificationService.handle, NotificationService.handleDecisionCompleted]
    split_ifs
    · trivial
    · exact only_notify _ _ _ _
  | approvalCompleted e =>
    simp only [NotificationService.handle, NotificationService.handleApprovalCompleted]
    split_ifs
    · trivial
    · exact only_notify _ _ _ _
  | paymentCompleted e => exact only_notify _ _ _ _

/-! ## Every call -/

theorem safe_only {p : Prog workflowSig Exn Unit} (hp : p.Only Harmless) (hI : Sound env w) :
    SafeBody env i call p w :=
  .tail (safe_harmless hp hI fun r _ _ _ => safe_ofExcept r)

theorem safe_body {s : WorkflowState} (hs : WorkflowState.invoke call w.state = some s) (hI : Sound env w)
    (hI₁ : Sound env ⟨s, .invoke i call :: w.log⟩) :
    SafeBody env i call (env.body call) ⟨s, .invoke i call :: w.log⟩ := by
  rcases WorkflowState.invoke_cases hs with ⟨t, invoice, rfl, hfresh, -⟩ | ⟨hno, rfl, hmessage⟩
  · refine safe_submit hI₁ List.mem_cons_self fun s' hs' hid => hfresh ?_
    rw [← hid]
    exact hI.drawn.known s' hs'
  · cases call with
    | submit t invoice => exact absurd rfl (hno t invoice)
    | process t => exact safe_process
    | complete e => exact .tail (safe_complete fun r _ _ _ => safe_ofExcept r)
    | decide e => exact safe_decide (hmessage _ rfl)
    | approval c =>
      refine safe_approval List.mem_cons_self fun e he => ?_
      subst he
      exact hmessage _ rfl
    | seed d total => exact safe_only (only_ensureSeeded d total) hI₁
    | pay delivery => exact safe_pay (hmessage _ rfl)
    | notify delivery => exact safe_only (only_handle delivery) hI₁

/-! ## Every run -/

theorem Sound.logged (h : Sound env w) {s : WorkflowState} {e : WorkflowEvent}
    (hstores : s.stores = w.state.stores)
    (hpublished : s.published = w.state.published) (he : ∀ i call o r, e ≠ .perform i call o r)
    (hdrawn : Drawn ⟨s, e :: w.log⟩) : Sound env ⟨s, e :: w.log⟩ := by
  have hg : Grows w ⟨s, e :: w.log⟩ := ⟨List.suffix_cons e w.log, hpublished ▸ List.Subset.refl _⟩
  refine ⟨hdrawn, fun service => ?_, fun m hm => ?_,
    h.charges.cons fun i call invoice t r heq => absurd heq (he _ _ _ _),
    h.saves.cons fun i call ws r heq => absurd heq (he _ _ _ _)⟩
  · rw [hstores]
    exact (h.documented service).mono hg
  · exact (h.messages m (hpublished ▸ hm)).mono hg

theorem Sees.logged {s : WorkflowState} {e : WorkflowEvent} (hpublished : s.published = w.state.published)
    (he : submissionsOf e = []) (j : Nat) : Sees j w ⟨s, e :: w.log⟩ := by
  refine ⟨⟨List.suffix_cons e w.log, hpublished ▸ List.Subset.refl _⟩, fun t invoice _ hnone s' hs' => ?_⟩
  rw [submissions, List.flatMap_cons, he, List.nil_append] at hs'
  exact hnone s' hs'

theorem Drawn.submit (h : Drawn w) {t : String} {invoice : Invoice} (ht : t ∉ w.state.issued) :
    Drawn ⟨{ w.state with issued := t :: w.state.issued }, .invoke i (.submit t invoice) :: w.log⟩ := by
  have hold {j : Nat} {t' : String} {invoice' : Invoice}
      (hj : .invoke j (.submit t' invoice') ∈
        (.invoke i (.submit t invoice) :: w.log : List WorkflowEvent)) :
      (j = i ∧ t' = t) ∨ .invoke j (.submit t' invoice') ∈ w.log := by
    rcases List.mem_cons.mp hj with heq | hj
    · cases heq
      exact .inl ⟨rfl, rfl⟩
    · exact .inr hj
  refine ⟨fun j t' invoice' hj => ?_, fun j k t' invoice' invoice'' hj hk => ?_,
    fun s hs => ?_, h.unanimous⟩
  · rcases hold hj with ⟨-, rfl⟩ | hj'
    · exact List.mem_cons_self
    · exact List.mem_cons_of_mem _ (h.issued j t' invoice' hj')
  · rcases hold hj with ⟨hji, hjt⟩ | hj' <;> rcases hold hk with ⟨hki, hkt⟩ | hk'
    · exact hji.trans hki.symm
    · exact absurd (hjt ▸ h.issued k _ _ hk') ht
    · exact absurd (hkt ▸ h.issued j _ _ hj') ht
    · exact h.unique j k t' invoice' invoice'' hj' hk'
  · exact List.mem_cons_of_mem _ (h.known s hs)

theorem Drawn.logged (h : Drawn w) {e : WorkflowEvent} (hsubmissions : submissionsOf e = [])
    (he : ∀ j t invoice, e ≠ .invoke j (.submit t invoice)) : Drawn ⟨w.state, e :: w.log⟩ := by
  have hold {j : Nat} {t : String} {invoice : Invoice} (hj : .invoke j (.submit t invoice) ∈ e :: w.log) :
      .invoke j (.submit t invoice) ∈ w.log :=
        (List.mem_cons.mp hj).resolve_left fun heq => he j t invoice heq.symm
  have hsame : submissions (e :: w.log) = submissions w.log := by
    rw [submissions, List.flatMap_cons, hsubmissions, List.nil_append, submissions]
  refine ⟨fun j t invoice hj => h.issued j t invoice (hold hj),
    fun j k t invoice invoice' hj hk => h.unique j k t invoice invoice' (hold hj) (hold hk), ?_, ?_⟩
  · rw [hsame]
    exact h.known
  · rw [hsame]
    exact h.unanimous

theorem Sound.invoked (h : Sound env w) {s : WorkflowState}
    (hs : WorkflowState.invoke call w.state = some s) :
    Sound env ⟨s, .invoke i call :: w.log⟩ ∧ ∀ j, Sees j w ⟨s, .invoke i call :: w.log⟩ := by
  rcases WorkflowState.invoke_cases hs with ⟨t, invoice, rfl, hfresh, rfl⟩ | ⟨hno, rfl, -⟩
  · exact ⟨h.logged rfl rfl (fun _ _ _ _ heq => by cases heq) (h.drawn.submit hfresh), Sees.logged rfl rfl⟩
  · refine ⟨h.logged rfl rfl
      (fun _ _ _ _ heq => by cases heq) (h.drawn.logged rfl fun j t invoice heq => ?_),
      Sees.logged rfl rfl⟩
    cases heq
    exact hno t invoice rfl

variable (env) in
/-- The proof outline: a run stays sound. -/
def outline : Outline (workflow env) Unrestricted where
  I := Sound env
  R := Sees
  Post _ _ _ _ := True
  refl := Sees.refl
  trans _ := Sees.trans
  post_stable _ _ _ := trivial
  invoke hI _ hs := ⟨(hI.invoked hs).1, fun j _ => (hI.invoked hs).2 j, safe_body hs hI (hI.invoked hs).1⟩
  respond hI _ := ⟨hI.logged rfl rfl (fun _ _ _ _ heq => by cases heq)
    (hI.drawn.logged rfl (fun _ _ _ heq => by cases heq)), fun j => Sees.logged rfl rfl j⟩

theorem sound_empty : Sound env ⟨.empty, []⟩ where
  drawn := ⟨fun _ _ _ h => absurd h List.not_mem_nil, fun _ _ _ _ _ h => absurd h List.not_mem_nil,
    fun _ h => absurd h List.not_mem_nil, fun _ h => absurd h List.not_mem_nil⟩
  documented service := by
    cases service with
    | intake => exact fun _ _ hv => by cases hv
    | approval => exact fun _ _ hv => by cases hv
    | payment => exact fun _ _ hv => by cases hv
    | notification => trivial
  messages _ h := absurd h List.not_mem_nil
  charges _ _ _ _ _ _ h := by cases List.suffix_nil.mp h
  saves _ _ _ _ h := absurd h List.not_mem_nil

section
variable {ok ok' : WorkflowRun → Action WorkflowChoice WorkflowCall → Prop} {cfg cfg' : WorkflowRun}

theorem holds (hr : (workflow env).Reach ok (System.start .empty) cfg) : (outline env).Holds cfg :=
  (outline env).sound sound_empty hr.unconditional

theorem sound (hr : (workflow env).Reach ok (System.start .empty) cfg) :
    Sound env cfg.world := (holds hr).inv

theorem grows (hr : (workflow env).Reach ok (System.start .empty) cfg)
    (hr' : (workflow env).Reach ok' cfg cfg') : Grows cfg.world cfg'.world :=
  (((holds hr).observe hr'.unconditional).2 _ (Nat.le_refl _)).toGrows

end

end ApprovalFlow.Workflow
