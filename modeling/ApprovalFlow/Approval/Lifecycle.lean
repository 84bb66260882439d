import ApprovalFlow.Approval.Announce

/-!
# The life of an escalated item

Calls one after another, without failures, against the documented state machine of an item.

* `Moves`: the transitions of the status, by the calls that make them.
* `called_eq`: a call does what its plan says; `after`: the state after a list of calls.
* `Permitted`: what one call may do; `called_permitted`.
* `Documented`: what a list of calls has led to; `after_documented`.
* `approval_refines`: the two, over every list of calls and every next call.
-/

namespace ApprovalFlow.Approval
open Async

/-- The transitions of item `t`, by the calls that make them. -/
inductive Moves (t : String) : ApprovalCall → ApprovalStatus → ApprovalStatus → Prop
  | approve : Moves t (.approve t) .pending .approved
  | reject : Moves t (.reject t) .pending .rejected
  | requestInfo : Moves t (.requestInfo t) .pending .waitingInfo
  | approveWaiting : Moves t (.approve t) .waitingInfo .approved
  | rejectWaiting : Moves t (.reject t) .waitingInfo .rejected
  | additionalInfo (info : String) : Moves t (.addAdditionalInfo t info) .waitingInfo .pending

theorem Moves.not_ignored {t : String} {c : ApprovalCall} {st st' : ApprovalStatus} (h : Moves t c st st') :
    ¬ c.ignored = true := by
  cases h <;> exact Bool.false_ne_true

theorem Moves.trackingId {t : String} {c : ApprovalCall} {st st' : ApprovalStatus} (h : Moves t c st st') :
    c.trackingId = t := by
  cases h <;> rfl

/-- A call to its end, every operation answered. -/
def called (c : ApprovalCall) (s : ApprovalState) : Except Exn (Option PendingApproval) × ApprovalState :=
  (inMemoryApproval.call c).eval ApprovalState.perform s

/-- The state after a list of calls. -/
def after (calls : List ApprovalCall) : ApprovalState := calls.foldl (fun s c => (called c s).2) .empty

theorem after_append (calls more : List ApprovalCall) :
    after (calls ++ more) = more.foldl (fun s c => (called c s).2) (after calls) := by
  unfold after
  rw [List.foldl_append]

/-! ## One call -/

/-- What a plan does to the state. -/
def carriedOut (c : ApprovalCall) (s : ApprovalState) :
    ApprovalPlan → Except Exn (Option PendingApproval) × ApprovalState
  | .stop r => (r, s)
  | .write u announce =>
    (.ok (c.result u), ⟨s.approvals.insert u.trackingId u, s.published ++ (announce.map u.event).toList⟩)

theorem eval_await {β : Type} {s : ApprovalState} (o : ApprovalOp)
    (f : Except Exn o.Reply → Prog approvalSig Exn β) :
    (o.await.attempt f).eval ApprovalState.perform s =
      (f (s.perform o).1).eval ApprovalState.perform (s.perform o).2 := by
  rw [Prog.eval_attempt, Prog.eval_op]

/-- **Every call** follows its plan for the stored record. -/
theorem called_eq (c : ApprovalCall) (s : ApprovalState) : called c s =
    if c.ignored then (.ok none, s) else carriedOut c s (c.plan (s.approvals.get? c.trackingId)) := by
  unfold called
  rw [ApprovalService.call_eq]
  split_ifs
  · rfl
  · refine (eval_await (.getApproval c.trackingId) _).trans ?_
    show Prog.eval _ (inMemoryApproval.follow c (c.plan (s.approvals.get? c.trackingId))) s = _
    cases c.plan (s.approvals.get? c.trackingId) with
    | stop r => exact Prog.eval_ofExcept r
    | write u announce =>
      refine (eval_await (.saveApproval u) _).trans ?_
      cases announce with
      | none =>
        show _ = (Except.ok (c.result u),
            (⟨s.approvals.insert u.trackingId u, s.published ++ []⟩ : ApprovalState))
        rw [List.append_nil]
        rfl
      | some resolution => exact eval_await (.publish (u.event resolution)) _

/-- What a plan writes over a record makes the transition of the call, if it has one. -/
theorem plan_over {c : ApprovalCall} {a u : PendingApproval} {announce : Option ApprovalResolution}
    (h : c.plan (some a) = .write u announce) :
    Moves c.trackingId c a.status u.status ∨ u.status = a.status ∧
      ∀ st, ¬ Moves c.trackingId c a.status st := by
  have hopen {st : ApprovalStatus} (hst : ¬ (!st.actionable) = true) : st = .pending ∨
      st = .waitingInfo := by
    revert hst
    cases st <;> simp [ApprovalStatus.actionable]
  rcases c with e | t | t | t | ⟨t, info⟩
  · cases h
  · simp only [ApprovalCall.plan] at h
    split_ifs at h with hst
    cases h
    rcases hopen hst with ha | ha <;> rw [ha]
    exacts [.inl .approve, .inl .approveWaiting]
  · simp only [ApprovalCall.plan] at h
    split_ifs at h with hst
    cases h
    rcases hopen hst with ha | ha <;> rw [ha]
    exacts [.inl .reject, .inl .rejectWaiting]
  · simp only [ApprovalCall.plan] at h
    split_ifs at h with hst
    cases h
    rcases hopen hst with ha | ha <;> rw [ha]
    · exact .inl .requestInfo
    · exact .inr ⟨rfl, fun st hmove => by cases hmove⟩
  · simp only [ApprovalCall.plan] at h
    split_ifs at h with hst
    cases h
    rw [not_not.mp hst]
    exact .inl (.additionalInfo info)

theorem plan_stays {c : ApprovalCall} {a : PendingApproval} {r : Except Exn (Option PendingApproval)}
    (h : c.plan (some a) = .stop r) (t : String) (st : ApprovalStatus) : ¬ Moves t c a.status st := by
  generalize hfrom : a.status = st₀
  intro hmove
  cases hmove <;> simp [ApprovalCall.plan, ApprovalStatus.actionable, hfrom] at h

theorem plan_info {c : ApprovalCall} {a u : PendingApproval} {announce : Option ApprovalResolution}
    (h : c.plan (some a) = .write u announce) :
    u.additionalInfo = a.additionalInfo ∨
      ∃ info, c = .addAdditionalInfo c.trackingId info ∧ u.additionalInfo = some info := by
  rcases c with e | t | t | t | ⟨t, info⟩
  · cases h
  · simp only [ApprovalCall.plan] at h
    split_ifs at h
    cases h
    exact .inl rfl
  · simp only [ApprovalCall.plan] at h
    split_ifs at h
    cases h
    exact .inl rfl
  · simp only [ApprovalCall.plan] at h
    split_ifs at h
    cases h
    exact .inl rfl
  · simp only [ApprovalCall.plan] at h
    split_ifs at h
    cases h
    exact .inr ⟨info, rfl, rfl⟩

theorem called_sound {c : ApprovalCall} {s : ApprovalState} (h : Sound s) : Sound (called c s).2 := by
  rw [called_eq]
  split_ifs
  · exact h
  · cases hplan : c.plan (s.approvals.get? c.trackingId) with
    | stop r => exact h
    | write u announce =>
      cases announce with
      | none =>
        show Sound ⟨s.approvals.insert u.trackingId u, s.published ++ []⟩
        rw [List.append_nil]
        exact (Effect.saved hplan).sound h
      | some resolution => exact (Effect.announced hplan).sound h

/-- What one call may do, from `s` to `s'` with the result `r`. -/
structure Permitted (c : ApprovalCall) (s : ApprovalState) (r : Except Exn (Option PendingApproval))
    (s' : ApprovalState) : Prop where
  /-- A record makes the transition of the call, or stays if it has none, and keeps what it was escalated
  with. -/
  kept : ∀ t a, s.approvals.get? t = some a → ∃ a', s'.approvals.get? t = some a' ∧
    (Moves t c a.status a'.status ∨ a'.status = a.status ∧ ∀ st, ¬ Moves t c a.status st) ∧
    a'.invoice = a.invoice ∧ a'.decision = a.decision ∧ a'.recommendation = a.recommendation
  /-- A resolved record does not change. -/
  absorbing : ∀ t a, s.approvals.get? t = some a → a.status.resolution ≠ none → s'.approvals.get? t = some a
  /-- A new record is the escalation of an event. -/
  new : ∀ t a', s.approvals.get? t = none → s'.approvals.get? t = some a' →
    ∃ event, c = .decisionCompleted event ∧ event.decision.route = .humanReview ∧ a' = .ofEvent event
  /-- Additional information changes only where it is added. -/
  info : ∀ t a a', s.approvals.get? t = some a → s'.approvals.get? t = some a' →
    a'.additionalInfo ≠ a.additionalInfo →
    ∃ info, c = .addAdditionalInfo t info ∧ r = .ok (some a') ∧ a'.additionalInfo = some info
  /-- A call that raises changes nothing. -/
  raised : ∀ e, r = .error e → s' = s
  /-- A redelivered event, or one of another route, changes nothing. -/
  ignored : ∀ event, c = .decisionCompleted event → event.decision.route ≠ .humanReview ∨
    s.approvals.get? event.decision.correlationId ≠ none → s' = s
  /-- Other ids are not affected. -/
  others : ∀ t, t ≠ c.trackingId → s'.approvals.get? t = s.approvals.get? t ∧
    s'.published.filter (·.decision.correlationId = t) = s.published.filter (·.decision.correlationId = t)

theorem Permitted.refl {c : ApprovalCall} {s : ApprovalState} (r : Except Exn (Option PendingApproval))
    (hstays : ∀ t a st, s.approvals.get? t = some a → ¬ Moves t c a.status st) : Permitted c s r s where
  kept t a ha := ⟨a, ha, .inr ⟨rfl, fun st => hstays t a st ha⟩, rfl, rfl, rfl⟩
  absorbing t a ha _ := ha
  new t a' hnone ha' := by rw [hnone] at ha'; cases ha'
  info t a a' ha ha' hne := by rw [ha] at ha'; cases ha'; exact absurd rfl hne
  raised e _ := rfl
  ignored event _ _ := rfl
  others t _ := ⟨rfl, rfl⟩

theorem plan_none {c : ApprovalCall} {u : PendingApproval} {announce : Option ApprovalResolution}
    (h : c.plan none = .write u announce) : ∃ event, c = .decisionCompleted event ∧ u = .ofEvent event := by
  obtain ⟨event, hc, -, hu⟩ | ⟨a, ha, -⟩ := (ApprovalCall.plan_write h).2
  · exact ⟨event, hc, hu⟩
  · cases ha

theorem plan_keeps {c : ApprovalCall} {a u : PendingApproval} {announce : Option ApprovalResolution}
    (h : c.plan (some a) = .write u announce) :
    (Moves c.trackingId c a.status u.status ∨ u.status = a.status ∧
      ∀ st, ¬ Moves c.trackingId c a.status st) ∧
      u.invoice = a.invoice ∧ u.decision = a.decision ∧ u.recommendation = a.recommendation := by
  obtain ⟨event, -, hnone, -⟩ | ⟨a', ha', -, hu⟩ := (ApprovalCall.plan_write h).2
  · cases hnone
  · cases ha'
    refine ⟨plan_over h, ?_⟩
    rw [hu]
    exact ⟨rfl, rfl, rfl⟩

section Written
variable {c : ApprovalCall} {s : ApprovalState} {u : PendingApproval} {announce : Option ApprovalResolution}

theorem written_get? (hid : u.trackingId = c.trackingId) (t : String) :
    (carriedOut c s (.write u announce)).2.approvals.get? t =
      if t = c.trackingId then some u else s.approvals.get? t := by
  rw [← hid]
  exact Dict.get?_insert _ _ _ _

theorem written_published (hid : u.decision.correlationId = c.trackingId) (t : String) :
    (carriedOut c s (.write u announce)).2.published.filter (·.decision.correlationId = t) =
      s.published.filter (·.decision.correlationId = t) ++
        if t = c.trackingId then (announce.map u.event).toList else [] := by
  show (s.published ++ (announce.map u.event).toList).filter _ = _
  rw [List.filter_append]
  congr 1
  have hevent (resolution : ApprovalResolution) :
      (u.event resolution).decision.correlationId = c.trackingId := hid
  cases announce with
  | none => simp
  | some resolution =>
    by_cases ht : t = c.trackingId
    · simp [ht, hevent]
    · simp [ht, hevent, Ne.symm ht]

theorem written_permitted (hs : Sound s) (hignored : ¬ c.ignored = true)
    (hplan : c.plan (s.approvals.get? c.trackingId) = .write u announce) :
    Permitted c s (carriedOut c s (.write u announce)).1 (carriedOut c s (.write u announce)).2 := by
  obtain ⟨hid, hdec, -, hopen⟩ := hs.plan hplan
  constructor
  · intro t a ha
    by_cases ht : t = c.trackingId
    · subst ht
      rw [ha] at hplan
      exact ⟨u, (written_get? hid _).trans (if_pos rfl), plan_keeps hplan⟩
    · have hother (st : ApprovalStatus) : ¬ Moves t c a.status st := fun hmove => ht hmove.trackingId.symm
      exact ⟨a, (written_get? hid t).trans ((if_neg ht).trans ha), .inr ⟨rfl, hother⟩, rfl, rfl, rfl⟩
  · intro t a ha hres
    refine (written_get? hid t).trans ((if_neg ?_).trans ha)
    rintro rfl
    exact hres (hopen a ha)
  · intro t a' hnone ha'
    rw [written_get? hid] at ha'
    split_ifs at ha' with ht
    · cases ha'
      subst ht
      rw [hnone] at hplan
      obtain ⟨event, rfl, hu⟩ := plan_none hplan
      refine ⟨event, rfl, ?_, hu⟩
      simpa [ApprovalCall.ignored] using hignored
    · rw [hnone] at ha'
      cases ha'
  · intro t a a' ha ha' hne
    rw [written_get? hid] at ha'
    split_ifs at ha' with ht
    · cases ha'
      subst ht
      rw [ha] at hplan
      obtain hsame | ⟨info, hc, hinfo⟩ := plan_info hplan
      · exact absurd hsame hne
      · refine ⟨info, hc, ?_, hinfo⟩
        rw [hc]
        rfl
    · rw [ha] at ha'
      cases ha'
      exact absurd rfl hne
  · intro e he
    cases he
  · rintro event rfl hor
    rcases hor with hroute | hstored
    · exact absurd (by simpa [ApprovalCall.ignored] using hroute) hignored
    · obtain ⟨a, ha⟩ := Option.ne_none_iff_exists'.mp hstored
      change ApprovalCall.plan _ (s.approvals.get? event.decision.correlationId) = _ at hplan
      rw [ha] at hplan
      cases hplan
  · intro t ht
    refine ⟨(written_get? hid t).trans (if_neg ht), ?_⟩
    rw [written_published hdec, if_neg ht, List.append_nil]

end Written

theorem called_permitted {s : ApprovalState} (hs : Sound s) (c : ApprovalCall) :
    Permitted c s (called c s).1 (called c s).2 := by
  rw [called_eq]
  split_ifs with hignored
  · exact .refl _ fun t a st _ hmove => hmove.not_ignored hignored
  · cases hplan : c.plan (s.approvals.get? c.trackingId) with
    | stop r =>
      refine .refl r fun t a st ha hmove => ?_
      rw [hmove.trackingId, ha] at hplan
      exact plan_stays hplan t st hmove
    | write u announce => exact written_permitted hs hignored hplan

/-! ## Lists of calls -/

/-- The first escalation of an id. -/
def firstReview (t : String) (calls : List ApprovalCall) : Option DecisionCompletedEvent :=
  calls.findSome? fun
    | .decisionCompleted event =>
      if event.decision.route = .humanReview ∧ event.decision.correlationId = t then some event else none
    | _ => none

/-- What a record was escalated with. -/
def escalatedWith (a : PendingApproval) : DecisionCompletedEvent :=
  ⟨a.invoice, a.decision, a.recommendation⟩

/-- The events that a record calls for: its resolution, announced once. -/
def resolutionEvents (a : PendingApproval) : List ApprovalCompletedEvent :=
  (a.status.resolution.map a.event).toList

/-- What a list of calls has led to. -/
structure Documented (calls : List ApprovalCall) (s : ApprovalState) : Prop where
  /-- One event for each resolved record, with its resolution, and no other. -/
  announced : ∀ t, s.published.filter (·.decision.correlationId = t) =
    ((s.approvals.get? t).map resolutionEvents).getD []
  /-- Each record is that of the first escalation of its id. -/
  first : ∀ t, (s.approvals.get? t).map escalatedWith = firstReview t calls

theorem firstReview_append (t : String) (calls : List ApprovalCall) (c : ApprovalCall) :
    firstReview t (calls ++ [c]) = (firstReview t calls).or (firstReview t [c]) := by
  unfold firstReview
  rw [List.findSome?_append]

theorem after_concat (calls : List ApprovalCall) (c : ApprovalCall) :
    after (calls ++ [c]) = (called c (after calls)).2 := after_append calls [c]

theorem after_sound (calls : List ApprovalCall) : Sound (after calls) := by
  induction calls using List.reverseRecOn with
  | nil => exact ⟨fun t a h => (by cases h), fun e h => (by cases h)⟩
  | append_singleton calls c ih =>
    rw [after_concat]
    exact called_sound ih

/-- A call escalates no id but its own, and none if its event is of another route. -/
theorem firstReview_single {t : String} {c : ApprovalCall} (h : t ≠ c.trackingId ∨ c.ignored = true) :
    firstReview t [c] = none := by
  rcases c with event | t' | t' | t' | ⟨t', info⟩
  · have hno : ¬ (event.decision.route = .humanReview ∧ event.decision.correlationId = t) := by
      rintro ⟨hroute, rfl⟩
      rcases h with h | h
      · exact h rfl
      · simp [ApprovalCall.ignored, hroute] at h
    simp [firstReview, hno]
  all_goals rfl

theorem firstReview_own {c : ApprovalCall} {event : DecisionCompletedEvent}
    (hc : c = .decisionCompleted event)
    (h : ¬ c.ignored = true) : firstReview c.trackingId [c] = some event := by
  subst hc
  have hroute : event.decision.route = .humanReview := by simpa [ApprovalCall.ignored] using h
  simp [firstReview, hroute, ApprovalCall.trackingId]

theorem firstReview_action {c : ApprovalCall} (h : ∀ event, c ≠ .decisionCompleted event) (t : String) :
    firstReview t [c] = none := by
  rcases c with event | t' | t' | t' | ⟨t', info⟩
  · exact absurd rfl (h event)
  all_goals rfl

theorem plan_stop {c : ApprovalCall} {r : Except Exn (Option PendingApproval)} (h : c.plan none = .stop r) :
    ∀ event, c ≠ .decisionCompleted event := by
  rintro event rfl
  cases h

/-- A write leads on from what the calls before it have led to. -/
theorem Documented.written {calls : List ApprovalCall} {s : ApprovalState}
    (h : Documented calls s) (hs : Sound s)
    {c : ApprovalCall} (hignored : ¬ c.ignored = true) {u : PendingApproval}
    {announce : Option ApprovalResolution}
    (hplan : c.plan (s.approvals.get? c.trackingId) = .write u announce) :
    Documented (calls ++ [c]) (carriedOut c s (.write u announce)).2 := by
  obtain ⟨hid, hdec, hannounce, hopen⟩ := hs.plan hplan
  constructor
  · intro t
    rw [written_get? hid, written_published hdec, h.announced]
    by_cases ht : t = c.trackingId
    · subst ht
      have hnone : ((s.approvals.get? c.trackingId).map resolutionEvents).getD [] = [] := by
        cases hstored : s.approvals.get? c.trackingId with
        | none => rfl
        | some a =>
          show resolutionEvents a = []
          rw [resolutionEvents, hopen a hstored]
          rfl
      rw [if_pos rfl, if_pos rfl, hnone, List.nil_append, hannounce]
      rfl
    · rw [if_neg ht, if_neg ht, List.append_nil]
  · intro t
    rw [written_get? hid, firstReview_append]
    by_cases ht : t = c.trackingId
    · subst ht
      rw [if_pos rfl, ← h.first]
      obtain ⟨e, hc, hnone, hu⟩ | ⟨a, ha, -, hu⟩ := (ApprovalCall.plan_write hplan).2
      · rw [hnone, firstReview_own hc hignored, hu]
        rfl
      · rw [ha, hu]
        rfl
    · rw [if_neg ht, firstReview_single (.inl ht), Option.or_none, h.first]

/-- **One more call** leads on from what the calls before it have led to. -/
theorem Documented.next {calls : List ApprovalCall} {s : ApprovalState}
    (h : Documented calls s) (hs : Sound s)
    (c : ApprovalCall) : Documented (calls ++ [c]) (called c s).2 := by
  have hsame (hno : ∀ t, (firstReview t calls).or (firstReview t [c]) = firstReview t calls) :
      Documented (calls ++ [c]) s :=
    ⟨h.announced, fun t => by rw [h.first, firstReview_append, hno]⟩
  rw [called_eq]
  split_ifs with hignored
  · refine hsame fun t => ?_
    rw [firstReview_single (.inr hignored), Option.or_none]
  · cases hplan : c.plan (s.approvals.get? c.trackingId) with
    | stop r =>
      refine hsame fun t => ?_
      by_cases ht : t = c.trackingId
      · subst ht
        cases hstored : s.approvals.get? c.trackingId with
        | none =>
          rw [hstored] at hplan
          rw [firstReview_action (plan_stop hplan), Option.or_none]
        | some a =>
          rw [← h.first, hstored]
          rfl
      · rw [firstReview_single (.inl ht), Option.or_none]
    | write u announce => exact h.written hs hignored hplan

/-- **The run lemma**. -/
theorem after_documented (calls : List ApprovalCall) : Documented calls (after calls) := by
  induction calls using List.reverseRecOn with
  | nil => exact ⟨fun t => rfl, fun t => rfl⟩
  | append_singleton calls c ih =>
    rw [after_concat]
    exact ih.next (after_sound calls) c

theorem after_absorbing (calls more : List ApprovalCall) {t : String} {a : PendingApproval}
    (ha : (after calls).approvals.get? t = some a) (hres : a.status.resolution ≠ none) :
    (after (calls ++ more)).approvals.get? t = some a := by
  induction more using List.reverseRecOn with
  | nil => rwa [List.append_nil]
  | append_singleton more c ih =>
    rw [← List.append_assoc, after_concat]
    exact (called_permitted (after_sound _) c).absorbing t a ih hres

/-- **The service refines its state machine**: after any calls every record is that of the first
escalation of its id and is announced once if it is resolved; any next call makes its transition where it
has one, and does only what is permitted; and resolutions are final. -/
theorem approval_refines (calls : List ApprovalCall) :
    Documented calls (after calls) ∧
    (∀ c, Permitted c (after calls) (called c (after calls)).1 (called c (after calls)).2) ∧
    ∀ more t a, (after calls).approvals.get? t = some a → a.status.resolution ≠ none →
      (after (calls ++ more)).approvals.get? t = some a :=
  ⟨after_documented calls, called_permitted (after_sound calls), fun more _ _ => after_absorbing calls more⟩

end ApprovalFlow.Approval
