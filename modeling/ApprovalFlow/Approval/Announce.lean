import ApprovalFlow.Approval.InMemory

/-!
# Resolutions and announcements

A human resolution is saved, then announced as `approval.completed`; either operation can fail, and the
saved status turns every later call away.

* `call_effect`: what one call does, with any failures and crashes.
* `Announced`: every stored resolution was announced.
* `follows_call`: what a call awaits directly after the save of a resolution is the publish.
* `resolution_announced_iff`: every stored resolution is announced after a run exactly when nothing
  failed directly after the save of one; `lost_announcement`: a resolution that is recorded and never
  announced.
-/

namespace ApprovalFlow.Approval
open Async

/-- A save of a resolution that succeeded. -/
def resolutionSaved : Awaited approvalSig Exn → Bool
  | ⟨.saveApproval a, .ok _⟩ => a.status.resolution.isSome
  | _ => false

/-- A publish that succeeded. -/
def published : Awaited approvalSig Exn → Bool
  | ⟨.publish _, .ok _⟩ => true
  | _ => false

/-- Every save of a resolution was directly followed by a successful publish. -/
abbrev Announces (l : List (Awaited approvalSig Exn)) : Prop :=
  followed resolutionSaved published none l = true

/-- Every stored resolution was announced. -/
def Announced (s : ApprovalState) : Prop :=
  ∀ t a resolution, s.approvals.get? t = some a → a.status.resolution = some resolution →
    ∃ e ∈ s.published, e.decision.correlationId = t ∧ e.resolution = resolution

/-- Records are stored under their id, and only stored resolutions were announced. -/
structure Sound (s : ApprovalState) : Prop where
  keyed : ∀ t a, s.approvals.get? t = some a → a.trackingId = t ∧ a.decision.correlationId = t
  decided : ∀ e ∈ s.published, ∃ a, s.approvals.get? e.decision.correlationId = some a ∧
    a.status.resolution = some e.resolution

/-! ## One call -/

/-- What a call did to `s`: nothing, or it saved a record, and announced it or not. -/
inductive Effect (c : ApprovalCall) (s : ApprovalState) : ApprovalState → Prop → Prop
  | nothing : Effect c s s True
  | saved {u : PendingApproval} {announce : Option ApprovalResolution}
      (hplan : c.plan (s.approvals.get? c.trackingId) = .write u announce) :
      Effect c s { s with approvals := s.approvals.insert u.trackingId u } (announce = none)
  | announced {u : PendingApproval} {resolution : ApprovalResolution}
      (hplan : c.plan (s.approvals.get? c.trackingId) = .write u (some resolution)) :
      Effect c s { s with approvals := s.approvals.insert u.trackingId u,
                          published := s.published ++ [u.event resolution] } True

theorem call_effect (c : ApprovalCall) (s : ApprovalState) :
    wp faultyApproval.logged (inMemoryApproval.call c)
      (fun _ t => ∃ p, Effect c s t.1 p ∧ (Announces t.2 ↔ p)) (s, []) := by
  have hnothing {l : List (Awaited approvalSig Exn)} (hl : Announces l) :
      ∃ p, Effect c s s p ∧ (Announces l ↔ p) := ⟨True, .nothing, fun _ => trivial, fun _ => hl⟩
  rw [ApprovalService.call_eq]
  split_ifs with hignored
  · exact hnothing rfl
  rw [wp_getApproval]
  refine ⟨hnothing rfl, ?_, fun _ => hnothing rfl⟩
  rw [Prog.onOk_ok]
  cases hplan : c.plan (s.approvals.get? c.trackingId) with
  | stop r => cases r <;> exact hnothing rfl
  | write u announce =>
    have hsaved := Effect.saved hplan
    unfold ApprovalService.follow
    rw [wp_saveApproval]
    refine ⟨hnothing rfl, ?_, fun _ => hnothing rfl⟩
    have hres := (ApprovalCall.plan_write hplan).1
    rw [Prog.onOk_ok]
    cases announce with
    | none => exact ⟨_, hsaved, by simp [Announces, followed, resolutionSaved, ← hres]⟩
    | some resolution =>
      dsimp only
      rw [wp_publishApproval]
      refine ⟨⟨_, hsaved, ?_⟩, ⟨_, .announced hplan, ?_⟩, fun _ => ⟨_, hsaved, ?_⟩⟩ <;>
        simp [Announces, followed, resolutionSaved, published, ← hres]

section Step
variable {c : ApprovalCall} {s s' : ApprovalState} {p : Prop} {u : PendingApproval}
  {announce : Option ApprovalResolution}

theorem Sound.plan (h : Sound s) (hplan : c.plan (s.approvals.get? c.trackingId) = .write u announce) :
    u.trackingId = c.trackingId ∧ u.decision.correlationId = c.trackingId ∧ announce = u.status.resolution ∧
      ∀ a, s.approvals.get? c.trackingId = some a → a.status.resolution = none := by
  obtain ⟨hres, ⟨e, rfl, hnone, rfl⟩ | ⟨a, ha, hact, hu⟩⟩ := ApprovalCall.plan_write hplan
  · exact ⟨rfl, rfl, hres, fun a ha => by rw [hnone] at ha; cases ha⟩
  · rw [hu]
    refine ⟨(h.keyed _ _ ha).1, (h.keyed _ _ ha).2, by rw [hres, hu], fun b hb => ?_⟩
    cases ha.symm.trans hb
    revert hact
    cases a.status <;> simp [ApprovalStatus.actionable, ApprovalStatus.resolution]

theorem Sound.keyed_insert (h : Sound s)
    (hplan : c.plan (s.approvals.get? c.trackingId) = .write u announce) :
    ∀ t a, (s.approvals.insert u.trackingId u).get? t = some a → a.trackingId = t ∧
      a.decision.correlationId = t := by
  obtain ⟨hid, hdec, -, -⟩ := h.plan hplan
  intro t a ha
  rw [Dict.get?_insert] at ha
  split_ifs at ha with ht
  · cases ha
    exact ⟨ht.symm, by rw [hdec, ht, hid]⟩
  · exact h.keyed t a ha

theorem Sound.decided_insert (h : Sound s)
    (hplan : c.plan (s.approvals.get? c.trackingId) = .write u announce) :
    ∀ e ∈ s.published, ∃ a, (s.approvals.insert u.trackingId u).get? e.decision.correlationId = some a ∧
      a.status.resolution = some e.resolution := by
  obtain ⟨hid, -, -, hopen⟩ := h.plan hplan
  intro e he
  obtain ⟨a, ha, hres⟩ := h.decided e he
  have hne : e.decision.correlationId ≠ u.trackingId := by
    intro heq
    rw [hopen a (by rw [← hid, ← heq]; exact ha)] at hres
    cases hres
  exact ⟨a, by rw [Dict.get?_insert_ne _ _ hne]; exact ha, hres⟩

theorem Effect.sound (he : Effect c s s' p) (h : Sound s) : Sound s' := by
  cases he with
  | nothing => exact h
  | saved hplan => exact ⟨h.keyed_insert hplan, h.decided_insert hplan⟩
  | @announced u resolution hplan =>
    refine ⟨h.keyed_insert hplan, fun e he => ?_⟩
    rcases List.mem_append.mp he with he | he
    · exact h.decided_insert hplan e he
    · obtain ⟨hid, hdec, hres, -⟩ := h.plan hplan
      rw [List.mem_singleton.mp he]
      refine ⟨u, ?_, hres.symm⟩
      rw [show (u.event resolution).decision.correlationId = u.trackingId from hdec.trans hid.symm,
        Dict.get?_insert_self]

theorem Announced.insert (h : Announced s) (published : List ApprovalCompletedEvent)
    (hpub : ∀ e ∈ s.published, e ∈ published)
    (hu : ∀ resolution, u.status.resolution = some resolution →
      ∃ e ∈ published, e.decision.correlationId = u.trackingId ∧ e.resolution = resolution) :
    Announced ⟨s.approvals.insert u.trackingId u, published⟩ := by
  intro t a resolution ha hres
  rw [Dict.get?_insert] at ha
  split_ifs at ha with ht
  · cases ha
    rw [ht]
    exact hu resolution hres
  · obtain ⟨e, he, hid⟩ := h t a resolution ha hres
    exact ⟨e, hpub e he, hid⟩

theorem Effect.announced_of (he : Effect c s s' p) (hs : Sound s) (h : Announced s)
    (hp : p) : Announced s' := by
  cases he with
  | nothing => exact h
  | saved hplan =>
    refine h.insert _ (fun _ he => he) fun resolution hres => ?_
    rw [← (hs.plan hplan).2.2.1, hp] at hres
    cases hres
  | @announced u resolution hplan =>
    obtain ⟨hid, hdec, hres, -⟩ := hs.plan hplan
    refine h.insert _ (fun _ he => List.mem_append_left _ he) fun r hr => ?_
    rw [← hres] at hr
    cases hr
    exact ⟨_, List.mem_append_right _ List.mem_cons_self, hdec.trans hid.symm, rfl⟩

/-- A resolution that was recorded and not announced. -/
def Lost (s : ApprovalState) : Prop :=
  ∃ t a resolution, s.approvals.get? t = some a ∧ a.status.resolution = some resolution ∧
    ∀ e ∈ s.published, e.decision.correlationId ≠ t

theorem Lost.not_announced (h : Lost s) : ¬ Announced s := by
  obtain ⟨t, a, resolution, ha, hres, hno⟩ := h
  intro hann
  obtain ⟨e, he, hid, -⟩ := hann t a resolution ha hres
  exact hno e he hid

/-- A lost announcement stays lost: every call for the id is turned away. -/
theorem Effect.lost (he : Effect c s s' p) (hs : Sound s) (h : Lost s) : Lost s' := by
  obtain ⟨t, a, resolution, ha, hres, hno⟩ := h
  have hkept {u : PendingApproval} {announce : Option ApprovalResolution}
      (hplan : c.plan (s.approvals.get? c.trackingId) = .write u announce) :
      t ≠ u.trackingId ∧ (s.approvals.insert u.trackingId u).get? t = some a := by
    obtain ⟨hid, -, -, hopen⟩ := hs.plan hplan
    have hne : t ≠ u.trackingId := by
      rintro rfl
      rw [hopen a (by rw [← hid]; exact ha)] at hres
      cases hres
    exact ⟨hne, by rw [Dict.get?_insert_ne _ _ hne]; exact ha⟩
  cases he with
  | nothing => exact ⟨t, a, resolution, ha, hres, hno⟩
  | saved hplan => exact ⟨t, a, resolution, (hkept hplan).2, hres, hno⟩
  | @announced u r hplan =>
    obtain ⟨hid, hdec, -, -⟩ := hs.plan hplan
    refine ⟨t, a, resolution, (hkept hplan).2, hres, fun e he => ?_⟩
    rcases List.mem_append.mp he with he | he
    · exact hno e he
    · rw [List.mem_singleton.mp he]
      exact fun heq => (hkept hplan).1 (heq.symm.trans (hdec.trans hid.symm))

/-- A call that saves a resolution and does not announce it loses the announcement. -/
theorem Effect.lost_of_not (he : Effect c s s' p) (hs : Sound s) (hp : ¬ p) : Lost s' := by
  cases he with
  | nothing => exact absurd trivial hp
  | announced => exact absurd trivial hp
  | @saved u announce hplan =>
    obtain ⟨hid, -, hres, hopen⟩ := hs.plan hplan
    obtain ⟨resolution, hr⟩ := Option.ne_none_iff_exists'.mp hp
    refine ⟨u.trackingId, u, resolution, Dict.get?_insert_self _ _ _,
      by rw [← hres, hr], fun e he heq => ?_⟩
    obtain ⟨a, ha, hra⟩ := hs.decided e he
    rw [hopen a (by rw [← hid, ← heq]; exact ha)] at hra
    cases hra

end Step

/-! ## Runs -/

theorem runCall_effect (c : ApprovalCall) (cs : List ApprovalChoice) (s : ApprovalState) :
    ∃ p, Effect c s (runCall faultyApproval inMemoryApproval.call c cs s).2 p ∧
      (Announces (runCall faultyApproval inMemoryApproval.call c cs s).1.log ↔ p) :=
  (call_effect c s).run cs

theorem lost_runCalls (run : ApprovalRun) {s : ApprovalState} (hs : Sound s) (h : Lost s) :
    Lost (runCalls faultyApproval inMemoryApproval.call run s).2 := by
  induction run generalizing s with
  | nil => exact h
  | cons c run ih =>
    obtain ⟨p, he, -⟩ := runCall_effect c.1 c.2 s
    exact ih (he.sound hs) (he.lost hs h)

theorem announced_runCalls_iff (run : ApprovalRun) {s : ApprovalState} (hs : Sound s) (h : Announced s) :
    Announced (runCalls faultyApproval inMemoryApproval.call run s).2 ↔
      ∀ r ∈ (runCalls faultyApproval inMemoryApproval.call run s).1, Announces r.log := by
  induction run generalizing s with
  | nil => simpa using h
  | cons c run ih =>
    obtain ⟨p, he, hp⟩ := runCall_effect c.1 c.2 s
    rw [runCalls_cons, List.forall_mem_cons]
    by_cases hann : Announces (runCall faultyApproval inMemoryApproval.call c.1 c.2 s).1.log
    · rw [ih (he.sound hs) (he.announced_of hs h (hp.mp hann))]
      exact ⟨fun h => ⟨hann, h⟩, fun h => h.2⟩
    · have hlost := lost_runCalls run (he.sound hs) (he.lost_of_not hs (mt hp.mpr hann))
      exact iff_of_false hlost.not_announced fun h => hann h.1

/-! ## What a call awaits next -/

def isPublish : ApprovalOp → Bool
  | .publish _ => true
  | _ => false

/-- **What a call does next**: after the save of a resolution it publishes. -/
theorem follows_call (c : ApprovalCall) : (inMemoryApproval.call c).Follows resolutionSaved isPublish := by
  have hpublish (e : ApprovalCompletedEvent) (f : Except Exn Unit →
      Prog approvalSig Exn (Option PendingApproval))
      (hf : ∀ r, (f r).Follows resolutionSaved isPublish) :
      ((inMemoryApproval.publisher.publish e).attempt f).Follows resolutionSaved isPublish :=
    Prog.follows_op fun r => ⟨fun hr => (by cases hr), hf r⟩
  rw [ApprovalService.call_eq]
  split_ifs
  · trivial
  refine Prog.follows_op fun r => ⟨fun hr => (by cases hr), ?_⟩
  cases r with
  | error e => trivial
  | ok stored =>
    rw [Prog.onOk_ok]
    cases hplan : c.plan stored with
    | stop r => exact Prog.follows_ofExcept r
    | write u announce =>
      have hannounce := (ApprovalCall.plan_write hplan).1
      refine Prog.follows_op fun r => ⟨fun hr => ?_, ?_⟩
      · cases r with
        | error e => cases hr
        | ok _ =>
          obtain ⟨resolution, hres⟩ := Option.isSome_iff_exists.mp hr
          rw [hannounce, hres]
          rfl
      · cases r with
        | error e => trivial
        | ok _ =>
          cases announce with
          | none => trivial
          | some resolution => exact hpublish _ _ fun r => by cases r <;> trivial

theorem published_of_isPublish (a : Awaited approvalSig Exn) (ha : (isPublish a.op && a.answered) = true) :
    published a = true := by
  obtain ⟨o, r⟩ := a
  cases o <;> cases r <;> first | rfl | cases ha

theorem answered_of_published (a : Awaited approvalSig Exn) (ha : published a = true) :
    a.answered = true := by
  obtain ⟨o, r⟩ := a
  cases o <;> cases r <;> first | rfl | cases ha

theorem announces_iff (run : ApprovalRun) {r : Ran approvalSig Exn (Option PendingApproval) ApprovalCall}
    (hr : r ∈ (approvalRun run).1) : Announces r.log ↔ r.spared resolutionSaved = true := by
  refine ⟨spared_of_followed answered_of_published, fun h => ?_⟩
  exact followed_mono published_of_isPublish
    (followed_runCalls (h := faultyApproval) follows_call run .empty r hr h)

/-- **Recorded and announced**: after a run, every stored resolution was announced if and only if,
directly after each save of a resolution, no call crashed and what it awaited next was answered. -/
theorem resolution_announced_iff (run : ApprovalRun) :
    Announced (approvalRun run).2 ↔ ∀ r ∈ (approvalRun run).1, r.spared resolutionSaved = true :=
  (announced_runCalls_iff (s := .empty) run ⟨(fun _ _ h => nomatch h), (fun _ h => nomatch h)⟩
    (fun _ _ _ h => nomatch h)).trans (forall₂_congr fun _ hr => announces_iff run hr)

/-- The laptop is escalated and approved, with no failure. -/
def laptopAnnounced : ApprovalRun :=
  [(.decisionCompleted ⟨laptop, ⟨.humanReview, "", [], "t-1"⟩, none⟩, [.answer, .answer]),
    (.approve "t-1", [.answer, .answer, .answer])]

theorem laptop_announced : (approvalRun laptopAnnounced).2.published ≠ [] ∧
    Announced (approvalRun laptopAnnounced).2 :=
  ⟨by decide, (resolution_announced_iff laptopAnnounced).mpr (by decide)⟩

/-- The announcement of an approval is lost, and the approver tries again. -/
def lostAnnouncement : ApprovalHistory × ApprovalState :=
  approvalRun
    [(.decisionCompleted ⟨laptop, ⟨.humanReview, "", [], "t-1"⟩, none⟩, [.answer, .answer]),
      (.approve "t-1", [.answer, .answer, .fail "broker unavailable"]), (.approve "t-1", [.answer])]

/-- The item stays approved, the retry is turned away, and nothing was or will be published. -/
theorem lost_announcement :
    (lostAnnouncement.2.approvals.get? "t-1").map (·.status) = some .approved ∧
      lostAnnouncement.2.published = [] ∧
      lostAnnouncement.1.getLast?.map (·.outcome) = some (.raised (.approvalAlreadyResolvedError "t-1")) ∧
      ¬ Announced lostAnnouncement.2 := by
  have hempty : lostAnnouncement.2.published = [] := by decide
  have happroved : lostAnnouncement.2.approvals.get? "t-1" = some
      { PendingApproval.ofEvent ⟨laptop, ⟨.humanReview, "", [], "t-1"⟩, none⟩ with
        status := .approved } := by decide
  refine ⟨by decide, hempty, by decide, fun h => ?_⟩
  obtain ⟨e, he, -⟩ := h "t-1" _ .approved happroved rfl
  rw [hempty] at he
  cases he

end ApprovalFlow.Approval
