import ApprovalFlow.Intake.InMemory
import ApprovalFlow.Async.Pool

/-!
# The first decision of a submission

Any number of calls of the intake service on one repository, interleaved at every await. A call saves
what it read, with a new status; what was completed in between is lost.

* `lastRead`: what a thread last read of a submission; `since`: the completions that were saved since.
* `InTurn`: between its read and its save of a submission, a call is overtaken by no `complete`, unless
  both bring the same decision; `process` does not find the submission completed.
* `completed_stays`: then a completed submission stays completed with its decision; `completed_lost`: a
  decision that arrives before the broker's error.
-/

namespace ApprovalFlow.Intake
open Async

abbrev IntakeEvent := Event intakeSig Exn Unit IntakeCall

abbrev IntakeWorld := World intakeSig Exn Unit IntakeState IntakeCall

abbrev IntakeConfig := Config intakeSig Exn Unit IntakeState IntakeCall

/-- Concurrent calls; `t` has been submitted, or will not be. -/
def intakeClients (t : String) : System intakeSig Exn Unit IntakeState IntakeChoice IntakeCall where
  body := inMemoryIntake.call
  invoke
    | .submit t' _, st => if t' = t then none else some st
    | _, st => some st
  exec := IntakeState.exec

/-- The submission that an event completes. -/
def completes (t : String) : IntakeEvent → Option Submission
  | .perform _ _ (.saveSubmission s) _ => if s.trackingId = t ∧ s.status = .completed then some s else none
  | _ => none

/-- What thread `i` found. -/
def foundBy (i : Nat) (t : String) : IntakeEvent → Option (Option Submission)
  | .perform j _ (.getSubmission t') (.ok found) => if j = i ∧ t' = t then some found else none
  | _ => none

/-- What thread `i` last read of the submission. -/
def lastRead (i : Nat) (t : String) (log : List IntakeEvent) : Option (Option Submission) :=
  log.findSome? (foundBy i t)

/-- The completions that were saved since thread `i` last read the submission. -/
def since (i : Nat) (t : String) : List IntakeEvent → List Submission
  | [] => []
  | e :: log => if (foundBy i t e).isSome then [] else (completes t e).toList ++ since i t log

/-- Where a call saves the submission: what completed it since the call's last read brought the decision
that this call brings, and `process` did not find it completed. -/
def InTurn (t : String) : StepCond intakeSig Exn Unit IntakeState IntakeChoice IntakeCall :=
  fun w i call o _ => ∀ s, o = .saveSubmission s → s.trackingId = t →
    (∀ s' ∈ since i t w.log, ∃ t' d, call = .complete t' d ∧ s'.decision = some d) ∧
      ∀ t' s', call = .process t' → lastRead i t w.log = some (some s') → s'.status ≠ .completed

/-- The submission is completed with decision `d`. -/
def Completed (t : String) (d : Decision) (st : IntakeState) : Prop :=
  ∃ s, st.repository.get t = some s ∧ s.status = .completed ∧ s.decision = some d

/-- The submissions are stored under their ids. -/
def Keyed (r : InMemoryInvoiceRepository) : Prop := ∀ t s, r.get t = some s → s.trackingId = t

/-- A completion was read by each thread that has read the submission, or was saved since. -/
structure Traced (t : String) (w : IntakeWorld) : Prop where
  keyed : Keyed w.state.repository
  recalled : ∀ i found, lastRead i t w.log = some found → ∀ s, w.state.repository.get t = some s →
    s.status = .completed →
    (∃ s' ∈ since i t w.log, s'.decision = s.decision) ∨ ∃ s', found = some s' ∧ s'.status = .completed

/-- The others do not read for thread `i`, and a completed submission stays. -/
structure Sees (t : String) (i : Nat) (w w₁ : IntakeWorld) : Prop where
  read : lastRead i t w₁.log = lastRead i t w.log
  kept : ∀ d, Completed t d w.state → Completed t d w₁.state

/-- What call `c` makes of a submission that it `found`: `complete` completes what it did not find
completed. -/
def Makes (c : IntakeCall) (found : Option Submission) (s : Submission) : Prop :=
  (∃ t', c = .process t') ∨
    ∃ t' d, c = .complete t' d ∧ (∀ s', found = some s' → s'.status ≠ .completed) ∧
      s.status = .completed ∧ s.decision = some d

/-- Thread `i` has read the submission that it saves. -/
def Prepared (i : Nat) (t : String) (c : IntakeCall) (s : Submission) (log : List IntakeEvent) : Prop :=
  s.trackingId = t → ∃ found, lastRead i t log = some found ∧ Makes c found s

section Steps
variable {t : String} {i : Nat} {c : IntakeCall} {w : IntakeWorld}

theorem Sees.refl (t : String) (i : Nat) (w : IntakeWorld) : Sees t i w w := ⟨rfl, fun _ h => h⟩

theorem Sees.trans {w₁ w₂ : IntakeWorld} (h₁ : Sees t i w w₁) (h₂ : Sees t i w₁ w₂) : Sees t i w w₂ :=
  ⟨h₂.read.trans h₁.read, fun d h => h₂.kept d (h₁.kept d h)⟩

theorem lastRead_cons {e : IntakeEvent} (he : foundBy i t e = none) (log : List IntakeEvent) :
    lastRead i t (e :: log) = lastRead i t log := by
  rw [lastRead, List.findSome?_cons, he]
  rfl

theorem since_cons {e : IntakeEvent} (he : foundBy i t e = none) (log : List IntakeEvent) :
    since i t (e :: log) = (completes t e).toList ++ since i t log := by
  rw [since, he]
  rfl

theorem lastRead_get (i : Nat) (c : IntakeCall) (t : String) (found : Option Submission)
    (log : List IntakeEvent) :
    lastRead i t (.perform i c (.getSubmission t) (.ok found) :: log) = some found := by
  simp [lastRead, foundBy]

theorem Prepared.log {s : Submission} {log log' : List IntakeEvent} (h : Prepared i t c s log)
    (hlog : lastRead i t log' = lastRead i t log) : Prepared i t c s log' := by
  intro hs
  rw [hlog]
  exact h hs

theorem Traced.idle (h : Traced t w) {st : IntakeState} {e : IntakeEvent}
    (hst : st.repository = w.state.repository) (he : ∀ j, foundBy j t e = none) :
    Traced t ⟨st, e :: w.log⟩ := by
  refine ⟨hst ▸ h.keyed, fun j found hfound s hs hcompleted => ?_⟩
  rw [hst] at hs
  rw [lastRead_cons (he j)] at hfound
  refine (h.recalled j found hfound s hs hcompleted).imp_left fun ⟨s', hmem, hd⟩ => ?_
  exact ⟨s', by rw [since_cons (he j)]; exact List.mem_append_right _ hmem, hd⟩

theorem Sees.idle {st : IntakeState} {e : IntakeEvent} {j : Nat} (hst : st.repository = w.state.repository)
    (he : foundBy j t e = none) : Sees t j w ⟨st, e :: w.log⟩ := by
  refine ⟨lastRead_cons he w.log, fun d h => ?_⟩
  simpa only [Completed, hst] using h

theorem Traced.read (h : Traced t w) (i : Nat) (c : IntakeCall) (t' : String) :
    Traced t ⟨w.state, .perform i c (.getSubmission t') (.ok (w.state.repository.get t')) :: w.log⟩ := by
  refine ⟨h.keyed, fun j found hfound s hs hcompleted => ?_⟩
  by_cases hj : i = j ∧ t' = t
  · obtain ⟨rfl, rfl⟩ := hj
    have hs' : w.state.repository.get t' = some s := hs
    rw [lastRead_get, Option.some.injEq] at hfound
    exact Or.inr ⟨s, hfound.symm.trans hs', hcompleted⟩
  · have he : foundBy j t (.perform i c (.getSubmission t') (.ok (w.state.repository.get t'))) = none :=
      if_neg hj
    rw [lastRead_cons he] at hfound
    refine (h.recalled j found hfound s hs hcompleted).imp_left fun ⟨s', hmem, hd⟩ => ?_
    exact ⟨s', by rw [since_cons he]; exact List.mem_append_right _ hmem, hd⟩

/-- What a call in its turn saves over a completion is completed with the same decision: the first-write
guard. -/
theorem Traced.agrees (h : Traced t w) {s : Submission} (hprepared : Prepared i t c s w.log)
    {choice : IntakeChoice} (hturn : InTurn t w i c (.saveSubmission s) choice)
    (hs : s.trackingId = t) (s' : Submission)
    (hs' : w.state.repository.get t = some s') (hcompleted : s'.status = .completed) :
    s.status = .completed ∧ s.decision = s'.decision := by
  obtain ⟨hsince, hprocess⟩ := hturn s rfl hs
  obtain ⟨found, hfound, hmakes⟩ := hprepared hs
  rcases h.recalled i found hfound s' hs' hcompleted with ⟨s'', hmem, hd⟩ | ⟨s'', rfl, hstatus⟩
  · obtain ⟨t', d, hc, hd'⟩ := hsince s'' hmem
    rcases hmakes with ⟨t'', hc'⟩ | ⟨t'', d', hc', -, hstatus, hdecision⟩
    · cases hc.symm.trans hc'
    · cases hc.symm.trans hc'
      exact ⟨hstatus, by rw [hdecision, ← hd, hd']⟩
  · rcases hmakes with ⟨t'', hc⟩ | ⟨t'', d, -, hopen, -⟩
    · exact absurd hstatus (hprocess t'' s'' hc hfound)
    · exact absurd hstatus (hopen s'' rfl)

theorem Traced.save (h : Traced t w) {s : Submission}
    (hagrees : s.trackingId = t → ∀ s', w.state.repository.get t = some s' → s'.status = .completed →
      s.status = .completed ∧ s.decision = s'.decision) (i : Nat) (c : IntakeCall) :
    Traced t ⟨{ w.state with repository := w.state.repository.save s },
        .perform i c (.saveSubmission s) (.ok ()) :: w.log⟩ ∧
      ∀ j, Sees t j w ⟨{ w.state with repository := w.state.repository.save s },
        .perform i c (.saveSubmission s) (.ok ()) :: w.log⟩ := by
  refine ⟨⟨fun t' s' hs' => ?_, fun j found hfound s' hs' hcompleted => ?_⟩,
    fun j => ⟨lastRead_cons rfl _, ?_⟩⟩
  · rw [InMemoryInvoiceRepository.get_save] at hs'
    split_ifs at hs' with ht
    · cases hs'
      exact ht.symm
    · exact h.keyed t' s' hs'
  · rw [lastRead_cons rfl] at hfound
    rw [since_cons rfl]
    rw [InMemoryInvoiceRepository.get_save] at hs'
    split_ifs at hs' with ht
    · cases hs'
      exact Or.inl ⟨s, List.mem_append_left _ (by simp [completes, ← ht, hcompleted]), rfl⟩
    · refine (h.recalled j found hfound s' hs' hcompleted).imp_left fun ⟨s'', hmem, hd⟩ => ?_
      exact ⟨s'', List.mem_append_right _ hmem, hd⟩
  · rintro d ⟨s', hs', hcompleted, hd⟩
    by_cases ht : t = s.trackingId
    · obtain ⟨hstatus, hdecision⟩ := hagrees ht.symm s' hs' hcompleted
      refine ⟨s, ?_, hstatus, hdecision.trans hd⟩
      rw [InMemoryInvoiceRepository.get_save, if_pos ht]
    · refine ⟨s', ?_, hcompleted, hd⟩
      rw [InMemoryInvoiceRepository.get_save, if_neg ht]
      exact hs'

/-! ### A call -/

abbrev SafeIntake {β : Type} (t : String) (i : Nat) (c : IntakeCall) (p : Prog intakeSig Exn β)
    (Φ : Except Exn β → IntakeWorld → Prop) (w : IntakeWorld) : Prop :=
  Safe (intakeClients t) (InTurn t) (Traced t) (Sees t) i c p Φ w

variable {β : Type} {Φ : Except Exn β → IntakeWorld → Prop}

theorem safe_get (t' : String) {f : Except Exn (Option Submission) → Prog intakeSig Exn β}
    (h : ∀ found w₁, (∀ s, found = some s → s.trackingId = t') →
      (t' = t → lastRead i t w₁.log = some found) → SafeIntake t i c (f (.ok found)) Φ w₁) :
    SafeIntake t i c ((inMemoryIntake.repository.get t').attempt f) Φ w := by
  show SafeIntake t i c ((@Prog.op intakeSig Exn (.getSubmission t')).attempt f) Φ w
  rw [Prog.op_attempt]
  intro w₁ _ hI _ _
  refine ⟨hI.read i c t', fun j hj => .idle rfl (if_neg fun h => hj h.1.symm),
    h _ _ (hI.keyed t') fun ht => ?_⟩
  subst ht
  exact lastRead_get i c t' _ w₁.log

theorem safe_save {s : Submission} (hs : Prepared i t c s w.log)
    {f : Except Exn Unit → Prog intakeSig Exn β}
    (h : ∀ w₁, lastRead i t w₁.log = lastRead i t w.log → SafeIntake t i c (f (.ok ())) Φ w₁) :
    SafeIntake t i c ((inMemoryIntake.repository.save s).attempt f) Φ w := by
  show SafeIntake t i c ((@Prog.op intakeSig Exn (.saveSubmission s)).attempt f) Φ w
  rw [Prog.op_attempt]
  intro w₁ hR hI choice hturn
  obtain ⟨htraced, hothers⟩ := hI.save (hI.agrees (hs.log hR.read) hturn) i c
  exact ⟨htraced, fun j _ => hothers j, h _ ((lastRead_cons rfl w₁.log).trans hR.read)⟩

theorem safe_publish (invoice : Invoice) (t' : String) {f : Except Exn Unit → Prog intakeSig Exn β}
    (h : ∀ reply w₁, lastRead i t w₁.log = lastRead i t w.log → SafeIntake t i c (f reply) Φ w₁) :
    SafeIntake t i c ((inMemoryIntake.publisher.publish invoice t').attempt f) Φ w := by
  show SafeIntake t i c ((@Prog.op intakeSig Exn (.publishSubmitted invoice t')).attempt f) Φ w
  rw [Prog.op_attempt]
  intro w₁ hR hI choice _
  have hrepository := IntakeState.repository_publishSubmitted choice invoice t' w₁.state
  exact ⟨hI.idle hrepository fun j => rfl, fun j _ => .idle hrepository rfl,
    h _ _ ((lastRead_cons rfl w₁.log).trans hR.read)⟩

theorem safe_publishCompleted (e : DecisionCompletedEvent) {f : Except Exn Unit → Prog intakeSig Exn β}
    (h : ∀ reply w₁, SafeIntake t i c (f reply) Φ w₁) :
    SafeIntake t i c ((inMemoryIntake.decisionCompletedPublisher.publish e).attempt f) Φ w := by
  show SafeIntake t i c ((@Prog.op intakeSig Exn (.publishCompleted e)).attempt f) Φ w
  rw [Prog.op_attempt]
  intro w₁ _ hI choice _
  have hrepository := IntakeState.repository_publishCompleted choice e w₁.state
  exact ⟨hI.idle hrepository fun j => rfl, fun j _ => .idle hrepository rfl, h _ _⟩

theorem safe_finish {s : Submission} (hs : Prepared i t c s w.log)
    {Ψ : Except Exn Unit → IntakeWorld → Prop}
    (hΨ : ∀ r w₁, Ψ r w₁) : SafeIntake t i c (inMemoryIntake.repository.save s) Ψ w := by
  rw [← Prog.attempt_ofExcept (inMemoryIntake.repository.save s)]
  exact safe_save hs fun w₁ _ => hΨ (.ok ()) w₁

theorem safe_complete (t' : String) (d : Decision) (hc : (∃ t'', c = .process t'') ∨ c = .complete t' d)
    {Ψ : Except Exn Unit → IntakeWorld → Prop} (hΨ : ∀ r w₁, Ψ r w₁) :
    SafeIntake t i c (inMemoryIntake.complete t' d) Ψ w := by
  refine safe_get t' fun found w₁ hkeyed hread => ?_
  cases found with
  | none => exact hΨ _ w₁
  | some s =>
    simp only [Prog.onOk_ok]
    split_ifs with hcompleted
    · exact hΨ _ w₁
    · refine safe_finish (fun hs => ⟨some s, ?_, hc.imp_right fun hc => ?_⟩) hΨ
      · exact hread ((hkeyed s rfl).symm.trans hs)
      · refine ⟨t', d, hc, fun s' hs' => ?_, rfl, rfl⟩
        cases hs'
        exact hcompleted

theorem safe_processDuplicate (t' : String) (s : Submission) (hc : ∃ t'', c = .process t'') :
    SafeIntake t i c (inMemoryIntake.processDuplicate t' s) (fun _ _ => True) w := by
  unfold IntakeService.processDuplicate
  split_ifs
  · trivial
  · refine Safe.attempt (safe_complete t' _ (Or.inl hc) fun r w₁ => ?_)
    cases r with
    | error e => trivial
    | ok _ =>
      refine safe_publishCompleted _ fun reply w₂ => ?_
      cases reply with
      | ok _ => trivial
      | error e => cases e <;> trivial

/-- `process` saves twice what it read once. -/
theorem safe_processNew {t' : String} {s : Submission} (hc : ∃ t'', c = .process t'')
    (hread : s.trackingId = t → ∃ found, lastRead i t w.log = some found) :
    SafeIntake t i c (inMemoryIntake.processNew t' s) (fun _ _ => True) w := by
  have hprepared (s' : Submission) (hid : s'.trackingId = s.trackingId) : Prepared i t c s' w.log :=
    fun hs =>
    (hread (hid.symm.trans hs)).imp fun _ hfound => ⟨hfound, Or.inl hc⟩
  refine safe_save ?_ fun w₁ hread₁ => ?_
  · exact hprepared _ rfl
  refine safe_publish _ _ fun reply w₂ hread₂ => ?_
  cases reply with
  | ok _ => trivial
  | error e =>
    cases e <;> try trivial
    refine safe_finish (Prepared.log ?_ (hread₂.trans hread₁)) fun _ _ => trivial
    exact hprepared _ rfl

theorem safe_process (t' : String) (hc : ∃ t'', c = .process t'') :
    SafeIntake t i c (inMemoryIntake.process t') (fun _ _ => True) w := by
  refine safe_get t' fun found w₁ hkeyed hread => ?_
  cases found with
  | none => trivial
  | some s =>
    simp only [Prog.onOk_ok]
    split_ifs
    · exact safe_processDuplicate t' s hc
    · exact safe_processNew hc fun hs => ⟨_, hread ((hkeyed s rfl).symm.trans hs)⟩

theorem safe_submit {t' : String} (ht : t' ≠ t) (invoice : Invoice) :
    SafeIntake t i c (inMemoryIntake.call (.submit t' invoice)) (fun _ _ => True) w := by
  show SafeIntake t i c ((inMemoryIntake.submit t' invoice).attempt _) _ w
  refine Safe.attempt ?_
  show SafeIntake t i c ((@Prog.op intakeSig Exn (.findByDedupKey (computeDedupKey invoice))).attempt _) _ w
  rw [Prog.op_attempt]
  intro w₁ _ hI _ _
  refine ⟨hI.idle rfl fun j => rfl, fun j _ => .idle rfl rfl, ?_⟩
  exact safe_save (fun hs => absurd hs ht) fun w₂ _ => trivial

end Steps

/-- The proof outline of the service. -/
def outline (t : String) : Outline (intakeClients t) (InTurn t) where
  I := Traced t
  R := Sees t
  Post _ _ _ _ := True
  refl := .refl t
  trans _ _ _ _ h h' := h.trans h'
  post_stable _ _ _ := trivial
  invoke := by
    intro w n c s hI _ hs
    have hs' : s = w.state ∧ ∀ t' i, c = .submit t' i → t' ≠ t := by
      cases c with
      | submit t' i =>
        simp only [intakeClients] at hs
        split_ifs at hs with ht
        cases hs
        exact ⟨rfl, fun _ _ h => by cases h; exact ht⟩
      | process t' => cases hs; exact ⟨rfl, fun _ _ h => by cases h⟩
      | complete t' d => cases hs; exact ⟨rfl, fun _ _ h => by cases h⟩
    obtain ⟨rfl, hsubmit⟩ := hs'
    refine ⟨hI.idle rfl fun j => rfl, fun j _ => .idle rfl rfl, ?_⟩
    cases c with
    | submit t' i => exact safe_submit (hsubmit t' i rfl) i
    | process t' => exact safe_process t' ⟨t', rfl⟩
    | complete t' d => exact safe_complete t' d (Or.inr rfl) fun _ _ => trivial
  respond := by
    intro w i c r hI _
    exact ⟨hI.idle rfl fun j => rfl, fun j => .idle rfl rfl⟩

/-- **Completed stays**: in every interleaving in which no submission is completed between a call's read
and its save of it, other than with the decision that the call brings, and `process` finds none
completed, a completed submission stays completed with its decision. -/
theorem completed_stays (t : String) (st : IntakeState) (hst : Keyed st.repository) (cfg : IntakeConfig)
    (hr : (intakeClients t).Reach (meets (InTurn t)) (System.start st) cfg) (d : Decision)
    (hd : Completed t d cfg.world.state) (cfg' : IntakeConfig)
    (hr' : (intakeClients t).Reach (meets (InTurn t)) cfg cfg') : Completed t d cfg'.world.state := by
  have hstart : Traced t ⟨st, []⟩ := ⟨hst, fun i found hfound => by cases hfound⟩
  have hholds := (outline t).sound hstart hr
  have hsees : Sees t cfg'.threads.length cfg.world cfg'.world := (hholds.observe hr').2 _ (Nat.le_refl _)
  exact hsees.kept d hd

/-! ## Two runs -/

/-- A save of the submission that follows no completion. -/
def inTurn (t : String) (cfg : IntakeConfig) : Action IntakeChoice IntakeCall → Bool
  | .step i _ =>
    match cfg.threads[i]? with
    | some ⟨_, .running (.await (.saveSubmission _) _)⟩ =>
      (since i t cfg.world.log).isEmpty &&
        ((lastRead i t cfg.world.log).bind id).all fun s' => s'.status ≠ .completed
    | _ => true
  | _ => true

theorem meets_of_inTurn (t : String) (cfg : IntakeConfig) (a : Action IntakeChoice IntakeCall)
    (h : inTurn t cfg a = true) : meets (InTurn t) cfg a := by
  cases a with
  | invoke c => trivial
  | respond i => trivial
  | step i choice =>
    intro call o k hi s ho _
    subst ho
    simp only [inTurn, hi, Bool.and_eq_true, List.isEmpty_iff] at h
    refine ⟨fun s' hs' => ?_, fun t' s' _ hread => ?_⟩
    · rw [h.1] at hs'
      cases hs'
    · have hopen := h.2
      rw [hread] at hopen
      exact of_decide_eq_true hopen

/-- The laptop is received. -/
def laptopReceived : IntakeState := ⟨.save (.received "t-1" laptop false) .empty, [], []⟩

theorem laptop_keyed : Keyed laptopReceived.repository := by
  intro t s hs
  rw [laptopReceived, InMemoryInvoiceRepository.get_save] at hs
  split_ifs at hs with ht
  · cases hs
    exact ht.symm
  · cases hs

def approveLaptop : Decision := ⟨.autoApprove, "", [], "t-1"⟩

/-- It is sent on, and decided. -/
def decideLaptop : List (Action IntakeChoice IntakeCall) :=
  [.invoke (.process "t-1"), .step 0 .answer, .step 0 .answer, .step 0 .answer, .respond 0,
    .invoke (.complete "t-1" approveLaptop), .step 1 .answer, .step 1 .answer, .respond 1]

def laptopDecided : IntakeConfig :=
  ((intakeClients "t-1").runActions (inTurn "t-1") decideLaptop (System.start laptopReceived)).get
    (by decide)

/-- Another decision arrives. -/
def laptopDecidedAgain : IntakeConfig :=
  ((intakeClients "t-1").runActions (inTurn "t-1")
    [.invoke (.complete "t-1" ⟨.reject, "", [], "t-1"⟩), .step 2 .answer, .respond 2] laptopDecided).get
      (by decide)

theorem completed_stays_laptop : Completed "t-1" approveLaptop laptopDecidedAgain.world.state :=
  completed_stays "t-1" laptopReceived laptop_keyed laptopDecided
    (System.reach_of_runActions (meets_of_inTurn "t-1") decideLaptop (Option.some_get _).symm)
    approveLaptop ⟨_, rfl, rfl, rfl⟩ laptopDecidedAgain
    (System.reach_of_runActions (meets_of_inTurn "t-1") _ (Option.some_get _).symm)

/-- The broker accepts the event, and its reply is lost; the decision arrives first. -/
def loseReply : List (Action IntakeChoice IntakeCall) :=
  [.invoke (.process "t-1"), .step 0 .answer, .step 0 .answer, .step 0 (.lose "deadline exceeded"),
    .invoke (.complete "t-1" approveLaptop), .step 1 .answer, .step 1 .answer, .respond 1]

def replyLost : IntakeConfig :=
  ((intakeClients "t-1").runActions (fun _ _ => true) loseReply (System.start laptopReceived)).get
    (by decide)

def laptopFailed : IntakeConfig :=
  ((intakeClients "t-1").runActions (fun _ _ => true) [.step 0 .answer, .respond 0] replyLost).get
    (by decide)

/-- **Completed, then failed**: one `process` and one `complete`; the decision is overwritten. -/
theorem completed_lost :
    (intakeClients "t-1").Reach (fun _ _ => True) (System.start laptopReceived) replyLost ∧
      Completed "t-1" approveLaptop replyLost.world.state ∧
      (intakeClients "t-1").Reach (fun _ _ => True) replyLost laptopFailed ∧
      (laptopFailed.world.state.repository.get "t-1").map
        (fun s => (s.status, s.decision)) = some (.failed, none) :=
  ⟨System.reach_of_runActions (fun _ _ _ => trivial) loseReply (Option.some_get _).symm, ⟨_, rfl, rfl, rfl⟩,
    System.reach_of_runActions (fun _ _ _ => trivial) _ (Option.some_get _).symm, by decide⟩

end ApprovalFlow.Intake
