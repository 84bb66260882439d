import ApprovalFlow.Workflow.Handlers
import ApprovalFlow.Approval.Concurrent

/-!
# Terminal outcomes

The notification service takes it that an invoice is paid, or rejected by an approver, or refused by a
decision. Decision asks the model again whenever `invoice.submitted` is redelivered, and publishes what
it makes of the new answer; an item that is approved may be rejected by a call that read it before.

* `Steady`: the answers of the model for a tracking id lead to one route, and no call of Approval is
  overtaken, between its read and its save of the item, by a resolution other than its own.
* `outcomes_exclusive`: in runs whose steps are steady the outcomes of a tracking id exclude each other.
* `paid_and_rejected`: an invoice that is approved, paid, escalated on redelivery and rejected.
-/

namespace ApprovalFlow.Workflow
open Numeric Async Versioned

/-- How an invoice may end. -/
inductive Terminal
  | paid
  | rejected
  | refused
  deriving DecidableEq

/-- Payment's record is COMPLETED. -/
def paid (t : String) (s : WorkflowState) : Bool :=
  match (s.stores .payment).value (paymentKey t) with
  | some (.record p) => p.status = .completed
  | _ => false

/-- The message says that an approver rejected the invoice. -/
def rejects (t : String) : Message → Bool
  | .approvalCompleted e => e.decision.correlationId = t ∧ e.resolution = .rejected
  | _ => false

/-- The message says that the invoice is refused, as violation or as duplicate. -/
def refuses (t : String) : Message → Bool
  | .decisionCompleted e =>
    e.decision.correlationId = t ∧ (e.decision.route = .reject ∨ e.decision.route = .duplicate)
  | _ => false

/-- The outcome shows in the state. -/
def happened (t : String) (s : WorkflowState) : Terminal → Bool
  | .paid => paid t s
  | .rejected => s.published.any (rejects t)
  | .refused => s.published.any (refuses t)

/-! ## The condition -/

/-- What a call of the model is answered. -/
def answer (c : WorkflowChoice) : Except Exn String :=
  match c.reception with
  | .serve => .ok c.completion
  | _ => .error c.failure

section
variable {ν : Type} (env : Deployment ν)

/-- The route that the answer leads to. -/
def routeOf (e : InvoiceSubmittedEvent) (reply : Except Exn String) : Option Route :=
  (env.decider.conclude e.invoice e.correlationId false reply).toOption.map (·.decision.route)

/-- An answer for `t` led to the route. -/
def Led (t : String) (route : Route) (log : List WorkflowEvent) : Prop :=
  ∃ i e systemPrompt userPrompt reply,
    .perform i (.decide e) (.complete systemPrompt userPrompt) reply ∈ log ∧
    e.correlationId = t ∧ routeOf env e reply = some route

/-- A resolution of the item was saved after thread `i` read it. -/
def SavedSince (t : String) (i : Nat) (r : ApprovalResolution) (log : List WorkflowEvent) : Prop :=
  ∃ newer call reply older, log =
    newer ++ .perform i call (.state .approval (.get (approvalKey t))) reply :: older ∧
    Saved t r newer

/-- The answer leads to no other route than the earlier ones for `t`; where a save of the item commits,
what resolved the item since the call read it is the resolution that the call brings. -/
def Steady (t : String) : StepCond workflowSig Exn Unit WorkflowState WorkflowChoice WorkflowCall :=
  fun w i call o c =>
  (∀ e systemPrompt userPrompt route route', call = .decide e → o = .complete systemPrompt userPrompt →
    e.correlationId = t → routeOf env e (answer c) = some route → Led env t route' w.log → route = route') ∧
  ∀ c' ws r, call = .approval c' → o = .state .approval (.transact ws) → c.reception ≠ .refuse →
    (w.state.stores .approval).Current ws → (∃ u ∈ ws, u.key = approvalKey t) → SavedSince t i r w.log →
      c'.resolution = some r

/-! ## One route and one resolution -/

/-- The answers for `t` led to one route; a resolution that was saved is stored; an item that was read
without one had none before. -/
structure OneOutcome (t : String) (w : WorkflowWorld) : Prop where
  route : ∀ r r', Led env t r w.log → Led env t r' w.log → r = r'
  resolution : ∀ r, t ≠ "index" → Saved t r w.log → Approval.stored t (w.state.stores .approval) = some r
  opened : t ≠ "index" → ∀ newer i call found etag older,
    w.log = newer ++ .perform i call (.state .approval (.get (approvalKey t)))
      (.ok (found, etag)) :: older →
    found.bind recorded = none → ∀ r, ¬ Saved t r older

variable {env} {t : String} {w : WorkflowWorld} {i : Nat} {call : WorkflowCall}

theorem stored_eq (t : String) (s : Store ApprovalValue) :
    Approval.stored t s = (s.value (approvalKey t)).bind recorded := by
  unfold Approval.stored
  cases s.value (approvalKey t) with
  | none => rfl
  | some data => cases data <;> rfl

theorem split_cons {e x : WorkflowEvent} {log newer older : List WorkflowEvent}
    (h : e :: log = newer ++ x :: older) :
    (newer = [] ∧ e = x ∧ log = older) ∨ ∃ newer', newer = e :: newer' ∧ log = newer' ++ x :: older := by
  cases newer with
  | nil =>
    obtain ⟨rfl, rfl⟩ := List.cons.inj h
    exact .inl ⟨rfl, rfl, rfl⟩
  | cons y newer' =>
    obtain ⟨rfl, hlog⟩ := List.cons.inj h
    exact .inr ⟨newer', rfl, hlog⟩

theorem OneOutcome.logged (h : OneOutcome env t w) {s : WorkflowState} {e : WorkflowEvent}
    (hstores : s.stores = w.state.stores) (he : ∀ i call o r, e ≠ .perform i call o r) :
    OneOutcome env t ⟨s, e :: w.log⟩ := by
  have hled {route : Route} : Led env t route (e :: w.log) → Led env t route w.log := by
    rintro ⟨i, e', sp, up, reply, hmem, hrest⟩
    exact ⟨i, e', sp, up, reply, (List.mem_cons.mp hmem).resolve_left fun heq => he _ _ _ _ heq.symm, hrest⟩
  refine ⟨fun r r' hr hr' => h.route r r' (hled hr) (hled hr'), fun r ht hr => ?_,
    fun ht newer i c found etag older hlog => ?_⟩
  · obtain ⟨i, c, a, ids, etag, hmem, ha⟩ := hr
    show Approval.stored t (s.stores .approval) = some r
    rw [hstores]
    exact h.resolution r ht
      ⟨i, c, a, ids, etag, (List.mem_cons.mp hmem).resolve_left fun heq => he _ _ _ _ heq.symm, ha⟩
  · rcases split_cons hlog with ⟨-, heq, -⟩ | ⟨newer', -, hlog'⟩
    · exact absurd heq (he _ _ _ _)
    · exact h.opened ht newer' i c found etag older hlog'

theorem perform_complete (s : WorkflowState) (c : WorkflowChoice) (systemPrompt userPrompt : String) :
    (s.perform c (.complete systemPrompt userPrompt)).1 = answer c := by
  simp only [WorkflowState.perform, WorkflowState.receive, answer]
  cases c.reception <;> rfl

theorem led_after {o : WorkflowOp} {c : WorkflowChoice} {route : Route}
    (h : Led env t route (after env w i call o c).log) :
    (∃ e systemPrompt userPrompt, call = .decide e ∧ o = .complete systemPrompt userPrompt ∧
      e.correlationId = t ∧ routeOf env e (answer c) = some route) ∨ Led env t route w.log := by
  obtain ⟨j, e, systemPrompt, userPrompt, reply, hmem, hid, hroute⟩ := h
  rcases mem_log_after hmem with heq | hmem
  · cases heq
    rw [perform_complete] at hroute
    exact .inl ⟨e, systemPrompt, userPrompt, rfl, rfl, hid, hroute⟩
  · exact .inr ⟨j, e, systemPrompt, userPrompt, reply, hmem, hid, hroute⟩

theorem perform_get {c : WorkflowChoice} {s : WorkflowState} {key : String}
    {found : Option ApprovalValue} {etag : Nat}
    (h : (s.perform c (.state .approval (.get key))).1 = .ok (found, etag)) :
    (s.stores .approval).value key = found := by
  simp only [WorkflowState.perform] at h
  cases hc : c.reception <;> rw [hc] at h
  · exact congrArg Prod.fst (Except.ok.inj h)
  · cases h
  · cases h

/-- What a steady save records over a resolution is the same: it was saved since the call read the item. -/
theorem OneOutcome.keeps (h : OneOutcome env t w) (ht : t ≠ "index")
    {a : PendingApproval} {ids : List String} {etag : Nat} {c : WorkflowChoice}
    (hsteady : Steady env t w i call
      (.state .approval (.transact (IndexedState.writes DaprStateApprovalRepository.layout a ids etag))) c)
    (hserved : c.reception ≠ .refuse)
    (hcurrent : (w.state.stores .approval).Current
      (IndexedState.writes DaprStateApprovalRepository.layout a ids etag))
    {c' : ApprovalCall} (hcall : call = .approval c') (ha : a.status.resolution = c'.resolution)
    (hreviewed : Reviewed i a.trackingId w.log) (hid : a.trackingId = t) {r : ApprovalResolution}
    (hr : Saved t r w.log) : a.status.resolution = some r := by
  subst hid
  obtain ⟨call₁, found, etag₁, hmem, hopen⟩ := hreviewed
  obtain ⟨newer, older, hlog⟩ := List.append_of_mem hmem
  have hsince : Saved a.trackingId r newer := by
    obtain ⟨j, c₁, a₁, ids₁, etag₂, hsaved, ha₁⟩ := hr
    rw [hlog] at hsaved
    rcases List.mem_append.mp hsaved with hnewer | hsaved
    · exact ⟨j, c₁, a₁, ids₁, etag₂, hnewer, ha₁⟩
    · rcases List.mem_cons.mp hsaved with heq | holder
      · cases heq
      · exact absurd ⟨j, c₁, a₁, ids₁, etag₂, holder, ha₁⟩
          (h.opened ht newer i call₁ found etag₁ older hlog hopen r)
  rw [ha]
  exact hsteady.2 c' _ r hcall rfl hserved hcurrent ⟨_, List.mem_cons_self, rfl⟩
    ⟨newer, call₁, _, older, hlog, hsince⟩

/-- **A steady step** leaves one route and one resolution. -/
theorem OneOutcome.performed (h : OneOutcome env t w) {o : WorkflowOp} {c : WorkflowChoice}
    (hsteady : Steady env t w i call o c) (hsaves : Saves (after env w i call o c).log) :
    OneOutcome env t (after env w i call o c) := by
  refine ⟨fun r r' hr hr' => ?_, fun r ht hr => ?_,
    fun ht newer j call' found etag older hlog hopen r hr => ?_⟩
  · rcases led_after hr with ⟨e, sp, up, hcall, ho, hid, hroute⟩ | hr
    · rcases led_after hr' with ⟨e', sp', up', hcall', ho', hid', hroute'⟩ | hr'
      · obtain rfl : e = e' := WorkflowCall.decide.inj (hcall.symm.trans hcall')
        exact Option.some.inj (hroute.symm.trans hroute')
      · exact hsteady.1 e sp up r r' hcall ho hid hroute hr'
    · rcases led_after hr' with ⟨e', sp', up', hcall', ho', hid', hroute'⟩ | hr'
      · exact (hsteady.1 e' sp' up' r' r hcall' ho' hid' hroute' hr).symm
      · exact h.route r r' hr hr'
  · obtain ⟨j, c', a, ids, etag, hmem, hid, hresolution⟩ := hr
    show Approval.stored t ((w.state.perform c o).2.stores .approval) = some r
    rcases mem_log_after hmem with heq | hmem
    · injection heq with _ _ ho hreply
      subst ho
      rw [WorkflowState.stores_of_ok (eq_of_heq hreply).symm, Approval.stored_save ht, if_pos hid.symm]
      exact hresolution
    · have hr : Saved t r w.log := ⟨j, c', a, ids, etag, hmem, hid, hresolution⟩
      rcases WorkflowState.stores_perform (c := c) (s := w.state) o .approval with
          hstore | ⟨ws, rfl, hserved, hcurrent, hstore⟩
      · rw [hstore]
        exact h.resolution r ht hr
      · obtain ⟨c₁, a₁, ids₁, etag₁, hcall, rfl, ha, hreviewed⟩ := hsaves i call ws _ List.mem_cons_self
        have hreviewed₁ : Reviewed i a₁.trackingId w.log := by
          obtain ⟨call₂, found, etag₂, hmem, hopen⟩ := hreviewed
          refine ⟨call₂, found, etag₂, ?_, hopen⟩
          exact (mem_log_after hmem).resolve_left (by rintro ⟨⟩)
        rw [hstore, Approval.stored_save ht]
        split_ifs with hid'
        · exact h.keeps ht hsteady hserved hcurrent hcall ha hreviewed₁ hid'.symm hr
        · exact h.resolution r ht hr
  · rcases split_cons hlog with ⟨-, heq, rfl⟩ | ⟨newer', -, hlog'⟩
    · -- the read itself: what was saved is stored
      injection heq with _ _ ho hreply
      subst ho
      have hstored := h.resolution r ht hr
      rw [stored_eq, perform_get (eq_of_heq hreply), hopen] at hstored
      cases hstored
    · exact h.opened ht newer' j call' found etag older hlog' hopen r hr

/-- **A steady run** has one route and one resolution. -/
theorem one_outcome {cfg : WorkflowRun}
    (hr : (workflow env).Reach (meets (Steady env t)) (System.start .empty) cfg) :
    OneOutcome env t cfg.world := by
  induction hr with
  | refl =>
    refine ⟨?_, ?_, ?_⟩
    · rintro r r' ⟨i, e, systemPrompt, userPrompt, reply, hmem, -⟩
      exact absurd hmem List.not_mem_nil
    · rintro r - ⟨i, c, a, ids, etag, hmem, -⟩
      exact absurd hmem List.not_mem_nil
    · rintro - newer i c found etag older hlog
      have hempty : [] = newer ++ _ := hlog
      exact absurd hempty.symm (List.append_ne_nil_of_right_ne_nil newer (List.cons_ne_nil _ _))
  | tail hr hok ha ih =>
    rename_i a
    have hsound := sound (hr.tail hok ha)
    cases a with
    | invoke c =>
      obtain ⟨s, hs, rfl⟩ := System.act_invoke ha
      refine ih.logged ?_ fun _ _ _ _ heq => by cases heq
      rcases WorkflowState.invoke_cases hs with ⟨_, _, _, _, rfl⟩ | ⟨_, rfl, _⟩
      · rfl
      · rfl
    | step j c =>
      obtain ⟨call, o, k, hi, rfl⟩ := System.act_step ha
      exact ih.performed (hok call o k hi) hsound.saves
    | respond j =>
      obtain ⟨call, p, r, _, _, rfl⟩ := System.act_respond ha
      exact ih.logged rfl fun _ _ _ _ heq => by cases heq

/-! ## What an outcome goes back to -/

/-- A decision for `t` with the route was published. -/
def Published (t : String) (route : Route) (published : List Message) : Prop :=
  ∃ d, .decisionCompleted d ∈ published ∧ d.decision.correlationId = t ∧ d.decision.route = route

theorem Sound.published_cases (h : Sound env w) {route : Route} (hp : Published t route w.state.published) :
    (Led env t route w.log ∧ ∃ s ∈ submissions w.log, s.trackingId = t ∧ s.isDuplicate = false) ∨
      route = .duplicate ∧ ∃ s ∈ submissions w.log, s.trackingId = t ∧ s.isDuplicate = true := by
  obtain ⟨d, hd, hid, hroute⟩ := hp
  cases h.messages _ hd with
  | decided hreply he houtcome =>
    have hcorrelated := (Router.routeDecision_routed (Decider.conclude_routed houtcome)).1
    have hid := hcorrelated.symm.trans hid
    cases h.messages _ he with
    | submitted hs hsid hnew =>
      refine .inl ⟨⟨_, _, _, _, _, hreply, hid, ?_⟩, _, hs, hsid.trans hid, hnew⟩
      rw [routeOf, houtcome]
      exact congrArg some hroute
  | duplicate invoice hs hdup => exact .inr ⟨hroute.symm, _, hs, hid, hdup⟩

theorem OneOutcome.published_eq (h : OneOutcome env t w) (hs : Sound env w) {r r' : Route}
    (hr : Published t r w.state.published) (hr' : Published t r' w.state.published) : r = r' := by
  have hunanimous {s s' : Submission} (hmem : s ∈ submissions w.log) (hid : s.trackingId = t)
      (hnew : s.isDuplicate = false) (hmem' : s' ∈ submissions w.log) (hid' : s'.trackingId = t)
      (hdup : s'.isDuplicate = true) : False := by
    have hsame := hs.drawn.unanimous s hmem s' hmem' (hid.trans hid'.symm)
    rw [hnew, hdup] at hsame
    cases hsame
  rcases hs.published_cases hr with ⟨hled, s, hmem, hid, hnew⟩ | ⟨rfl, s, hmem, hid, hdup⟩
  · rcases hs.published_cases hr' with ⟨hled', -⟩ | ⟨rfl, s', hmem', hid', hdup'⟩
    · exact h.route r r' hled hled'
    · exact (hunanimous hmem hid hnew hmem' hid' hdup').elim
  · rcases hs.published_cases hr' with ⟨-, s', hmem', hid', hnew'⟩ | ⟨rfl, -⟩
    · exact (hunanimous hmem' hid' hnew' hmem hid hdup).elim
    · rfl

/-- What an outcome takes, besides a decision with that route. -/
inductive Grounds (t : String) (log : List WorkflowEvent) : Terminal → Route → Prop
  | approved : Grounds t log .paid .autoApprove
  | accepted (hindex : t ≠ "index") (hsaved : Saved t .approved log) : Grounds t log .paid .humanReview
  | rejected (hindex : t ≠ "index") (hsaved : Saved t .rejected log) : Grounds t log .rejected .humanReview
  | violation : Grounds t log .refused .reject
  | duplicate : Grounds t log .refused .duplicate

theorem Grounds.mono {w₁ : WorkflowWorld} (hg : Grows w w₁) {x : Terminal} {r : Route}
    (h : Grounds t w.log x r) : Grounds t w₁.log x r := by
  cases h with
  | approved => exact .approved
  | accepted hindex hsaved => exact .accepted hindex (hsaved.mono hg)
  | rejected hindex hsaved => exact .rejected hindex (hsaved.mono hg)
  | violation => exact .violation
  | duplicate => exact .duplicate

theorem Sound.resolved (h : Sound env w) {e : ApprovalCompletedEvent}
    (he : .approvalCompleted e ∈ w.state.published) :
    e.decision.correlationId ≠ "index" ∧ Published e.decision.correlationId .humanReview w.state.published ∧
      Saved e.decision.correlationId e.resolution w.log := by
  cases h.messages _ he with
  | resolved hindex hescalated hcall hsaved =>
    obtain ⟨hroute, r, hr⟩ := hescalated
    exact ⟨hindex, ⟨_, hr, rfl, hroute⟩, hsaved⟩

theorem Sound.grounds (h : Sound env w) {x : Terminal} (hx : happened t w.state x = true) :
    ∃ r, Published t r w.state.published ∧ Grounds t w.log x r := by
  cases x with
  | paid =>
    simp only [happened, paid] at hx
    split at hx
    · next p hv =>
      obtain ⟨hid, hbacked⟩ := h.documented .payment t p hv
      obtain ⟨delivery, hmem, htrigger⟩ := hbacked.triggered
      have hcorrelated : p.decision.correlationId = t := hbacked.keyed.trans hid
      cases delivery with
      | decisionCompleted e =>
        simp only [PaymentDelivery.trigger] at htrigger
        split_ifs at htrigger with hroute
        obtain ⟨-, hdecision⟩ := Prod.mk.inj (Option.some.inj htrigger)
        exact ⟨.autoApprove, ⟨e, hmem, hdecision ▸ hcorrelated, not_not.mp hroute⟩, .approved⟩
      | approvalCompleted e =>
        simp only [PaymentDelivery.trigger] at htrigger
        split_ifs at htrigger with hresolution
        obtain ⟨-, hdecision⟩ := Prod.mk.inj (Option.some.inj htrigger)
        obtain ⟨hindex, hpublished, hsaved⟩ := h.resolved hmem
        rw [hdecision, hcorrelated] at hindex hpublished hsaved
        exact ⟨.humanReview, hpublished, .accepted hindex (not_not.mp hresolution ▸ hsaved)⟩
    · cases hx
  | rejected =>
    obtain ⟨m, hm, hrejects⟩ := List.any_eq_true.mp hx
    cases m with
    | approvalCompleted e =>
      obtain ⟨hid, hresolution⟩ := of_decide_eq_true hrejects
      obtain ⟨hindex, hpublished, hsaved⟩ := h.resolved hm
      rw [hid] at hindex hpublished hsaved
      exact ⟨.humanReview, hpublished, .rejected hindex (hresolution ▸ hsaved)⟩
    | _ => cases hrejects
  | refused =>
    obtain ⟨m, hm, hrefuses⟩ := List.any_eq_true.mp hx
    cases m with
    | decisionCompleted d =>
      obtain ⟨hid, hroute | hroute⟩ := of_decide_eq_true hrefuses
      · exact ⟨.reject, ⟨d, hm, hid, hroute⟩, .violation⟩
      · exact ⟨.duplicate, ⟨d, hm, hid, hroute⟩, .duplicate⟩
    | _ => cases hrefuses

theorem OneOutcome.grounds_eq (h : OneOutcome env t w) {x x' : Terminal} {r : Route}
    (hx : Grounds t w.log x r) (hx' : Grounds t w.log x' r) : x = x' := by
  cases hx with
  | approved => cases hx' with | approved => rfl
  | accepted hindex hsaved =>
    cases hx' with
    | accepted => rfl
    | rejected _ hsaved' => cases (h.resolution _ hindex hsaved).symm.trans (h.resolution _ hindex hsaved')
  | rejected hindex hsaved =>
    cases hx' with
    | accepted _ hsaved' => cases (h.resolution _ hindex hsaved).symm.trans (h.resolution _ hindex hsaved')
    | rejected => rfl
  | violation => cases hx' with | violation => rfl
  | duplicate => cases hx' with | duplicate => rfl

end

/-- **Exclusive outcomes**: in a steady run, of the three outcomes of a tracking id at most one is ever
seen. -/
theorem outcomes_exclusive {ν : Type} (env : Deployment ν) (t : String) (cfg cfg' : WorkflowRun)
    (hr : (workflow env).Reach (meets (Steady env t)) (System.start .empty) cfg)
    (hr' : (workflow env).Reach (meets (Steady env t)) cfg cfg') (x x' : Terminal)
    (hx : happened t cfg.world.state x = true) (hx' : happened t cfg'.world.state x' = true) : x = x' := by
  have hreached := hr.trans hr'
  have hone := one_outcome hreached
  have hg := grows hr hr'
  obtain ⟨r, ⟨d, hd, hid, hroute⟩, hgrounds⟩ := (sound hr).grounds hx
  obtain ⟨r', hpublished', hgrounds'⟩ := (sound hreached).grounds hx'
  obtain rfl : r = r' := hone.published_eq (sound hreached) ⟨d, hg.published hd, hid, hroute⟩ hpublished'
  exact hone.grounds_eq (hgrounds.mono hg) hgrounds'

/-! ## Two runs -/

/-- What the router decides on the laptop. -/
def laptopApproved : Decision :=
  ⟨.autoApprove,
    "Within autonomy ceiling and category policy, known vendor, receipt present, high agent confidence.", [],
    "t-1"⟩

/-- What it decides without a recommendation. -/
def laptopEscalated : Decision := ⟨.humanReview, "No agent recommendation available.", [], "t-1"⟩

/-- The laptop is submitted, approved and paid. -/
def paySchedule : List (Action WorkflowChoice WorkflowCall) :=
  [.invoke (.seed "engineering" (.ofInt 1000))] ++ steps 0 2 "approve" ++
    [.invoke (.submit "t-1" laptop)] ++ steps 1 2 "approve" ++
    [.invoke (.process "t-1")] ++ steps 2 3 "approve" ++
    [.invoke (.decide ⟨laptop, "t-1"⟩)] ++ steps 3 2 "approve" ++
    [.invoke (.pay (.decisionCompleted ⟨laptop, laptopApproved, some (PlainJson.recommended .approve)⟩))] ++
    steps 4 9 "approve"

/-- The event is an answer of the model. -/
def answers : WorkflowEvent → Bool
  | .perform _ _ (.complete _ _) _ => true
  | _ => false

/-- The action is no second question to the model and saves no item. -/
def calm (cfg : WorkflowRun) : Action WorkflowChoice WorkflowCall → Bool
  | .step i _ =>
    match cfg.threads[i]? with
    | some ⟨_, .running (.await (.complete _ _) _)⟩ => !cfg.world.log.any answers
    | some ⟨_, .running (.await (.state .approval (.transact _)) _)⟩ => false
    | _ => true
  | _ => true

theorem meets_of_calm {ν : Type} (env : Deployment ν) (t : String) (cfg : WorkflowRun)
    (a : Action WorkflowChoice WorkflowCall) (h : calm cfg a = true) : meets (Steady env t) cfg a := by
  cases a with
  | invoke c => trivial
  | respond i => trivial
  | step i c =>
    intro call o k hi
    simp only [calm, hi] at h
    refine ⟨fun e sp up route route' hcall ho _ _ hled => ?_, fun c' ws r hcall ho _ _ _ _ => ?_⟩
    · subst ho
      obtain ⟨j, e', sp', up', reply, hmem, -⟩ := hled
      have hanswers : cfg.world.log.any answers = true := List.any_eq_true.mpr ⟨_, hmem, rfl⟩
      simp only [hanswers] at h
      cases h
    · subst ho
      cases h

def paidRun : WorkflowRun :=
  ((workflow plainDeployment).runActions calm paySchedule (System.start .empty)).get (by decide +kernel)

/-- The laptop is paid, and as long as the run stays steady nothing else becomes of it. -/
theorem outcomes_exclusive_laptop : happened "t-1" paidRun.world.state .paid = true ∧
    ∀ cfg', (workflow plainDeployment).Reach (meets (Steady plainDeployment "t-1")) paidRun cfg' →
      ∀ x, happened "t-1" cfg'.world.state x = true → .paid = x := by
  have hpaid : happened "t-1" paidRun.world.state .paid = true := by decide +kernel
  have hreach : (workflow plainDeployment).Reach (meets (Steady plainDeployment "t-1"))
      (System.start .empty) paidRun :=
    System.reach_of_runActions (meets_of_calm plainDeployment "t-1") paySchedule (Option.some_get _).symm
  exact ⟨hpaid, fun cfg' hr' x hx =>
    outcomes_exclusive plainDeployment "t-1" paidRun cfg' hreach hr' .paid x hpaid hx⟩

/-- The submission is delivered again, the model fails, and the approver rejects the item. -/
def rejectSchedule : List (Action WorkflowChoice WorkflowCall) :=
  [.invoke (.decide ⟨laptop, "t-1"⟩), .step 5 ⟨.refuse, .llmProviderError "rate limited", none, ""⟩] ++
    steps 5 1 "" ++
    [.invoke (.approval (.decisionCompleted ⟨laptop, laptopEscalated, none⟩))] ++ steps 6 3 "" ++
    [.invoke (.approval (.reject "t-1"))] ++ steps 7 4 ""

def paidAndRejected : WorkflowRun :=
  ((workflow plainDeployment).runActions
    (fun _ _ => true) (paySchedule ++ rejectSchedule) (System.start .empty)).get (by decide +kernel)

/-- **Paid and rejected**: the payment is completed, and the rejection of the same invoice is announced. -/
theorem paid_and_rejected :
    (workflow plainDeployment).Reach (fun _ _ => True) (System.start .empty) paidAndRejected ∧
      happened "t-1" paidAndRejected.world.state .paid = true ∧
      happened "t-1" paidAndRejected.world.state .rejected = true :=
  ⟨System.reach_of_runActions
    (fun _ _ _ => trivial) (paySchedule ++ rejectSchedule) (Option.some_get _).symm,
    by decide +kernel, by decide +kernel⟩

end ApprovalFlow.Workflow
