import ApprovalFlow.Intake.InMemory

/-!
# Duplicates and what was sent on

Submissions and their processing one after another, each publish answered, refused, or accepted with its
reply lost. A submission is a duplicate if any submission with its key exists, whatever became of that
one.

* `IntakeStep`, `intakeRun`: the calls of a run, and the state that they leave; `Sequential`: each id is
  drawn once, and processed after its submission.
* `Tracks`: what a run makes of each submission; `tracks_run`.
* `duplicates_sent_iff`: every duplicate points at a submission that was sent on exactly if the first
  submission of every resubmitted invoice was; at most one submission of each key is ever sent on.
* `duplicate_of_unsent`: a resubmission after a publish that failed.
-/

namespace ApprovalFlow.Intake
open Async

/-- A call, with what becomes of the publish in it. -/
inductive IntakeStep
  | submit (trackingId : String) (invoice : Invoice)
  | process (trackingId : String) (publish : IntakeChoice)

def IntakeStep.run : IntakeStep → IntakeState → IntakeState
  | submit t i, st => ((inMemoryIntake.submit t i).eval (IntakeState.exec .answer) st).2
  | process t v, st => ((inMemoryIntake.process t).eval (IntakeState.exec v) st).2

/-- The calls one after another, from an empty repository. -/
def intakeRun (steps : List IntakeStep) : IntakeState := steps.foldl (fun st step => step.run st) .empty

/-- The submissions, in order. -/
def submissions (steps : List IntakeStep) : List (String × Invoice) :=
  steps.filterMap fun
    | .submit t i => some (t, i)
    | .process _ _ => none

def ids (steps : List IntakeStep) : List String := (submissions steps).map Prod.fst

/-- The submission was processed. -/
def Processed (steps : List IntakeStep) (t : String) : Prop := ∃ v, .process t v ∈ steps

/-- The submission was processed, and the broker accepted what was published. -/
def Accepted (steps : List IntakeStep) (t : String) : Prop := ∃ v, .process t v ∈ steps ∧ v.accepted = true

/-- The first submission with a key. -/
def first (steps : List IntakeStep) (k : String) : Option String :=
  ((submissions steps).find? fun p => computeDedupKey p.2 = k).map Prod.fst

/-- `uuid4` draws a fresh id for each submission; `process` is scheduled after the save. -/
inductive Sequential : List IntakeStep → Prop
  | nil : Sequential []
  | submit {steps : List IntakeStep} {t : String} (h : Sequential steps)
    (ht : t ∉ ids steps) (i : Invoice) :
      Sequential (steps ++ [.submit t i])
  | process {steps : List IntakeStep} {t : String} (h : Sequential steps) (ht : t ∈ ids steps)
    (v : IntakeChoice) :
      Sequential (steps ++ [.process t v])

/-- The tracking ids whose `invoice.submitted` the broker accepted. -/
def sentIds (st : IntakeState) : List String := st.submitted.map InvoiceSubmittedEvent.correlationId

/-! ## The calls -/

/-- A call leaves the submission `s`, and sends on the ids `sent`. -/
structure Leaves (st : IntakeState) (s : Submission) (sent : List String) (st' : IntakeState) : Prop where
  get : ∀ t, st'.repository.get t = if t = s.trackingId then some s else st.repository.get t
  find : ∀ k, (st'.repository.findByDedupKey k).isSome = true ↔
    k = s.dedupKey ∨ (st.repository.findByDedupKey k).isSome = true
  sent : sentIds st' = sentIds st ++ sent

section Calls
variable {st : IntakeState} {t : String} {s : Submission}

theorem leaves_save (st : IntakeState) (s : Submission) :
    Leaves st s [] { st with repository := st.repository.save s } := by
  refine ⟨InMemoryInvoiceRepository.get_save s st.repository, fun k => ?_, (List.append_nil _).symm⟩
  rw [InMemoryInvoiceRepository.findByDedupKey_save]
  split_ifs with h <;> simp [h]

theorem Leaves.again {st' : IntakeState} {sent : List String} (h : Leaves st s sent st') {u : Submission}
    (hid : u.trackingId = s.trackingId) (hkey : u.dedupKey = s.dedupKey) :
    Leaves st u sent { st' with repository := st'.repository.save u } := by
  have h' := leaves_save st' u
  refine ⟨fun t => ?_, fun k => ?_, h.sent⟩
  · rw [h'.get, h.get, hid]
    split_ifs <;> rfl
  · rw [h'.find, h.find, hkey]
    tauto

theorem leaves_submit (t : String) (i : Invoice) (st : IntakeState) :
    Leaves st (.received t i (st.repository.findByDedupKey (computeDedupKey i)).isSome) []
      ((IntakeStep.submit t i).run st) := leaves_save st _

theorem run_process (hget : st.repository.get t = some s) (v : IntakeChoice) :
    (IntakeStep.process t v).run st =
      if s.isDuplicate then ((inMemoryIntake.processDuplicate t s).eval (IntakeState.exec v) st).2
      else ((inMemoryIntake.processNew t s).eval (IntakeState.exec v) st).2 := by
  show (((@Prog.op intakeSig Exn (.getSubmission t)).attempt _).eval (IntakeState.exec v) st).2 = _
  rw [Prog.op_attempt, Prog.eval_await]
  simp only [IntakeState.exec, Prog.onOk_ok, hget]
  split_ifs <;> rfl

theorem run_process_completed (hget : st.repository.get t = some s) (hdup : s.isDuplicate = true)
    (hs : s.status = .completed) (v : IntakeChoice) : (IntakeStep.process t v).run st = st := by
  rw [run_process hget, if_pos hdup, IntakeService.processDuplicate, if_pos hs]
  rfl

theorem leaves_process_duplicate (hget : st.repository.get t = some s) (hdup : s.isDuplicate = true)
    (hs : s.status ≠ .completed) (v : IntakeChoice) :
    Leaves st { s with status := .completed, decision := some (buildDuplicateDecision t) } []
      ((IntakeStep.process t v).run st) := by
  have h := leaves_save st { s with status := .completed, decision := some (buildDuplicateDecision t) }
  rw [run_process hget, if_pos hdup, IntakeService.processDuplicate, if_neg hs]
  have hcomplete : (inMemoryIntake.complete t (buildDuplicateDecision t)).eval (IntakeState.exec v) st =
      (.ok (), { st with repository :=
        st.repository.save { s with
          status := .completed, decision := some (buildDuplicateDecision t) } }) := by
    show ((@Prog.op intakeSig Exn (.getSubmission t)).attempt _).eval (IntakeState.exec v) st = _
    rw [Prog.op_attempt, Prog.eval_await]
    simp only [IntakeState.exec, Prog.onOk_ok, hget, if_neg hs]
    rfl
  rw [Prog.bind_eq, Prog.eval_attempt, hcomplete]
  cases v <;> exact ⟨h.get, h.find, h.sent⟩

/-- **A new invoice** is sent on unless its publish is refused, and is not completed. -/
theorem leaves_process_new (hget : st.repository.get t = some s) (hdup : s.isDuplicate = false)
    (v : IntakeChoice) :
    ∃ s' : Submission, s'.trackingId = s.trackingId ∧ s'.dedupKey = s.dedupKey ∧ s'.isDuplicate = false ∧
      s'.status ≠ .completed ∧
      Leaves st s' (if v.accepted then [t] else []) ((IntakeStep.process t v).run st) := by
  have h := leaves_save st { s with status := .processing }
  have hsent (r : InMemoryInvoiceRepository) (i : Invoice) :
      sentIds ⟨r, st.submitted ++ [⟨i, t⟩], st.completed⟩ = sentIds st ++ [t] := List.map_append
  have hnew : ¬ s.isDuplicate = true := Bool.eq_false_iff.mp hdup
  rw [run_process hget, if_neg hnew]
  cases v with
  | answer =>
    exact ⟨{ s with status := .processing }, rfl, rfl, hdup, by simp, h.get, h.find, hsent _ _⟩
  | refuse details =>
    exact ⟨{ s with status := .failed, error := some details }, rfl, rfl, hdup, by simp, h.again rfl rfl⟩
  | lose details =>
    have h' := h.again (u := { s with status := .failed, error := some details }) rfl rfl
    exact ⟨{ s with status := .failed, error := some details }, rfl, rfl, hdup,
      by simp, h'.get, h'.find, hsent _ _⟩

end Calls

/-! ## One more call -/

section Append
variable (steps : List IntakeStep) (t t' k : String) (i : Invoice) (v : IntakeChoice)

@[simp] theorem submissions_submit :
    submissions (steps ++ [.submit t i]) = submissions steps ++ [(t, i)] := by
  simp [submissions]

@[simp] theorem submissions_process : submissions (steps ++ [.process t v]) = submissions steps := by
  simp [submissions]

@[simp] theorem ids_submit : ids (steps ++ [.submit t i]) = ids steps ++ [t] := by
  simp [ids]

@[simp] theorem ids_process : ids (steps ++ [.process t v]) = ids steps := by
  simp [ids]

@[simp] theorem first_process : first (steps ++ [.process t v]) k = first steps k := by
  simp [first]

theorem first_submit :
    first (steps ++ [.submit t i]) k = (first steps k).or (if computeDedupKey i = k then some t
      else none) := by
  rw [first, submissions_submit, List.find?_append, Option.map_or, first]
  by_cases h : computeDedupKey i = k <;> simp [h]

@[simp] theorem processed_submit : Processed (steps ++ [.submit t i]) t' ↔ Processed steps t' := by
  simp [Processed]

@[simp] theorem accepted_submit : Accepted (steps ++ [.submit t i]) t' ↔ Accepted steps t' := by
  simp [Accepted]

theorem processed_process : Processed (steps ++ [.process t v]) t' ↔ Processed steps t' ∨ t' = t := by
  simp only [Processed, List.mem_append, List.mem_singleton, IntakeStep.process.injEq, exists_or]
  simp

theorem accepted_process :
    Accepted (steps ++ [.process t v]) t' ↔ Accepted steps t' ∨ (t' = t ∧ v.accepted = true) := by
  simp only [Accepted, List.mem_append, List.mem_singleton, IntakeStep.process.injEq,
    or_and_right, exists_or]
  refine or_congr Iff.rfl ⟨?_, ?_⟩
  · rintro ⟨v', ⟨rfl, rfl⟩, h⟩
    exact ⟨rfl, h⟩
  · rintro ⟨rfl, h⟩
    exact ⟨v, ⟨rfl, rfl⟩, h⟩

variable {steps t k i}

theorem mem_of_first (h : first steps k = some t) :
    ∃ i, (t, i) ∈ submissions steps ∧ computeDedupKey i = k := by
  obtain ⟨⟨t', i⟩, hfind, rfl⟩ := Option.map_eq_some_iff.mp h
  have hkey := List.find?_some hfind
  exact ⟨i, List.mem_of_find?_eq_some hfind, of_decide_eq_true hkey⟩

theorem first_ne_none (h : (t, i) ∈ submissions steps) : first steps (computeDedupKey i) ≠ none := by
  intro hnone
  have hfind := List.find?_eq_none.mp (Option.map_eq_none_iff.mp hnone) _ h
  simp at hfind

/-- A key that is taken keeps its first submission. -/
theorem first_submit_old {t' : String} {i' : Invoice} (h : (t', i') ∈ submissions steps) :
    first (steps ++ [.submit t i]) (computeDedupKey i') = first steps (computeDedupKey i') := by
  obtain ⟨t₁, ht₁⟩ := Option.ne_none_iff_exists'.mp (first_ne_none h)
  rw [first_submit, ht₁, Option.some_or]

theorem mem_ids (h : (t, i) ∈ submissions steps) : t ∈ ids steps := List.mem_map.mpr ⟨_, h, rfl⟩

theorem run_concat (step : IntakeStep) : intakeRun (steps ++ [step]) = step.run (intakeRun steps) := by
  simp [intakeRun]

end Append

/-! ## What a run makes of each submission -/

/-- What the calls so far make of a submission. -/
structure Tracked (steps : List IntakeStep) (t : String) (i : Invoice) (s : Submission) : Prop where
  trackingId : s.trackingId = t
  dedupKey : s.dedupKey = computeDedupKey i
  duplicate : s.isDuplicate = true ↔ first steps (computeDedupKey i) ≠ some t
  completed : s.status = .completed ↔ s.isDuplicate = true ∧ Processed steps t
  decision : s.status = .completed → s.decision = some (buildDuplicateDecision t)

/-- What they make of the state. -/
structure Tracks (steps : List IntakeStep) (st : IntakeState) : Prop where
  get : ∀ t i, (t, i) ∈ submissions steps → ∃ s, st.repository.get t = some s ∧ Tracked steps t i s
  absent : ∀ t, t ∉ ids steps → st.repository.get t = none
  find : ∀ k, (st.repository.findByDedupKey k).isSome = true ↔ first steps k ≠ none
  sent : ∀ t, t ∈ sentIds st ↔ ∃ i, (t, i) ∈ submissions steps ∧ first steps (computeDedupKey i) = some t ∧
    Accepted steps t
  processed : ∀ t, Processed steps t → t ∈ ids steps
  nodup : (ids steps).Nodup

theorem Tracks.nil : Tracks [] .empty where
  get _ _ h := by cases h
  absent _ _ := rfl
  find k := by simp [first, submissions, IntakeState.empty]
  sent t := by simp [sentIds, submissions, IntakeState.empty]
  processed _ h := by obtain ⟨v, hv⟩ := h; cases hv
  nodup := List.nodup_nil

section Step
variable {steps : List IntakeStep} {st : IntakeState} {t : String}

theorem Accepted.processed (h : Accepted steps t) : Processed steps t := h.imp fun _ hv => hv.1

/-- Another submission, and the processing of another one, change nothing. -/
theorem Tracked.submit {t' : String} {i' : Invoice} {s : Submission} (hs : Tracked steps t' i' s)
    (hmem : (t', i') ∈ submissions steps) (t : String) (i : Invoice) :
    Tracked (steps ++ [.submit t i]) t' i' s := by
  refine ⟨hs.trackingId, hs.dedupKey, ?_, ?_, hs.decision⟩
  · rw [first_submit_old hmem]
    exact hs.duplicate
  · rw [processed_submit]
    exact hs.completed

theorem Tracked.process {t' : String} {i' : Invoice} {s : Submission}
    (hs : Tracked steps t' i' s) (hne : t' ≠ t)
    (v : IntakeChoice) : Tracked (steps ++ [.process t v]) t' i' s := by
  refine ⟨hs.trackingId, hs.dedupKey, ?_, ?_, hs.decision⟩
  · rw [first_process]
    exact hs.duplicate
  · rw [processed_process, or_iff_left hne]
    exact hs.completed

theorem Tracks.received (h : Tracks steps st) (ht : t ∉ ids steps) (i : Invoice) :
    Tracked (steps ++ [.submit t i]) t i
      (.received t i (st.repository.findByDedupKey (computeDedupKey i)).isSome) := by
  refine ⟨rfl, rfl, ?_, ?_, fun hs => by cases hs⟩
  · show (st.repository.findByDedupKey (computeDedupKey i)).isSome = true ↔ _
    rw [h.find, first_submit, if_pos rfl]
    cases hold : first steps (computeDedupKey i) with
    | none => simp
    | some t₁ =>
      obtain ⟨i₁, hmem₁, -⟩ := mem_of_first hold
      have hne : t₁ ≠ t := fun heq => ht (heq ▸ mem_ids hmem₁)
      simp [hne]
  · rw [processed_submit]
    exact iff_of_false (fun hs => by cases hs) fun hs => ht (h.processed t hs.2)

theorem Tracks.submit (h : Tracks steps st) (ht : t ∉ ids steps) (i : Invoice) :
    Tracks (steps ++ [.submit t i]) ((IntakeStep.submit t i).run st) := by
  have hleaves := leaves_submit t i st
  refine ⟨fun t' i' hmem => ?_, fun t' ht' => ?_, fun k => ?_, fun t' => ?_, fun t' ht' => ?_, ?_⟩
  · rw [submissions_submit] at hmem
    rcases List.mem_append.mp hmem with hmem | hmem
    · have hne : t' ≠ t := fun heq => ht (heq ▸ mem_ids hmem)
      obtain ⟨s, hget, hs⟩ := h.get t' i' hmem
      refine ⟨s, ?_, hs.submit hmem t i⟩
      rw [hleaves.get]
      exact (if_neg hne).trans hget
    · obtain ⟨rfl, rfl⟩ := Prod.mk.inj (List.mem_singleton.mp hmem)
      exact ⟨_, (hleaves.get t').trans (if_pos rfl), h.received ht i'⟩
  · rw [ids_submit, List.mem_append, List.mem_singleton, not_or] at ht'
    rw [hleaves.get]
    exact (if_neg ht'.2).trans (h.absent t' ht'.1)
  · rw [hleaves.find, h.find, first_submit]
    show k = computeDedupKey i ∨ _ ↔ _
    cases first steps k with
    | none => simp [eq_comm]
    | some t₁ => simp
  · rw [hleaves.sent, List.append_nil, h.sent]
    simp only [submissions_submit, List.mem_append, List.mem_singleton, Prod.mk.injEq, accepted_submit]
    constructor
    · rintro ⟨i', hmem, hold, hacc⟩
      exact ⟨i', .inl hmem, by rw [first_submit_old hmem]; exact hold, hacc⟩
    · rintro ⟨i', hmem | ⟨rfl, rfl⟩, hnew, hacc⟩
      · exact ⟨i', hmem, by rw [← first_submit_old hmem]; exact hnew, hacc⟩
      · exact absurd (h.processed t' hacc.processed) ht
  · rw [processed_submit] at ht'
    rw [ids_submit]
    exact List.mem_append_left _ (h.processed t' ht')
  · rw [ids_submit]
    exact List.nodup_append.mpr ⟨h.nodup, List.nodup_singleton t, fun a ha b hb hab => by
      rw [List.mem_singleton.mp hb] at hab
      exact ht (hab ▸ ha)⟩

theorem Tracks.leaves (h : Tracks steps st) {i : Invoice}
    (hmem : (t, i) ∈ submissions steps) {v : IntakeChoice}
    {s : Submission} (hs : Tracked (steps ++ [.process t v]) t i s) {sent : List String} {st' : IntakeState}
    (hleaves : Leaves st s sent st')
    (hsent : ∀ t', t' ∈ sent ↔ t' = t ∧ v.accepted = true ∧ first steps (computeDedupKey i) = some t) :
    Tracks (steps ++ [.process t v]) st' := by
  refine ⟨fun t' i' hmem' => ?_, fun t' ht' => ?_, fun k => ?_, fun t' => ?_, fun t' ht' => ?_, ?_⟩
  · rw [submissions_process] at hmem'
    by_cases htt : t' = t
    · subst htt
      obtain ⟨-, rfl⟩ := Prod.mk.inj (List.inj_on_of_nodup_map h.nodup hmem hmem' rfl)
      exact ⟨s, (hleaves.get t').trans (if_pos hs.trackingId.symm), hs⟩
    · obtain ⟨s', hget, hs'⟩ := h.get t' i' hmem'
      refine ⟨s', ?_, hs'.process htt v⟩
      rw [hleaves.get, hs.trackingId]
      exact (if_neg htt).trans hget
  · rw [ids_process] at ht'
    have htt : t' ≠ s.trackingId := fun heq => ht' (heq ▸ hs.trackingId ▸ mem_ids hmem)
    rw [hleaves.get, if_neg htt]
    exact h.absent t' ht'
  · rw [hleaves.find, h.find, first_process, hs.dedupKey]
    exact or_iff_right_of_imp fun hk => hk ▸ first_ne_none hmem
  · rw [hleaves.sent, List.mem_append, h.sent, hsent]
    simp only [submissions_process, first_process, accepted_process]
    constructor
    · rintro (⟨i', hmem', hfirst, hacc⟩ | ⟨rfl, hacc, hfirst⟩)
      · exact ⟨i', hmem', hfirst, .inl hacc⟩
      · exact ⟨i, hmem, hfirst, .inr ⟨rfl, hacc⟩⟩
    · rintro ⟨i', hmem', hfirst, hacc | ⟨rfl, hacc⟩⟩
      · exact .inl ⟨i', hmem', hfirst, hacc⟩
      · obtain ⟨-, rfl⟩ := Prod.mk.inj (List.inj_on_of_nodup_map h.nodup hmem hmem' rfl)
        exact .inr ⟨rfl, hacc, hfirst⟩
  · rw [processed_process] at ht'
    rw [ids_process]
    rcases ht' with ht' | rfl
    · exact h.processed t' ht'
    · exact mem_ids hmem
  · rw [ids_process]
    exact h.nodup

theorem Tracks.process (h : Tracks steps st) (ht : t ∈ ids steps) (v : IntakeChoice) :
    Tracks (steps ++ [.process t v]) ((IntakeStep.process t v).run st) := by
  obtain ⟨⟨t, i⟩, hmem, rfl⟩ := List.mem_map.mp ht
  obtain ⟨s, hget, hs⟩ := h.get t i hmem
  have hprocessed : Processed (steps ++ [.process t v]) t := (processed_process steps t t v).mpr (.inr rfl)
  -- a submission that keeps its id, its key and its flag
  have htracked {s' : Submission} (hid : s'.trackingId = s.trackingId) (hkey : s'.dedupKey = s.dedupKey)
      (hdup : s'.isDuplicate = s.isDuplicate) (hcompleted : s'.status = .completed ↔ s.isDuplicate = true)
      (hdecision : s'.status = .completed → s'.decision = some (buildDuplicateDecision t)) :
      Tracked (steps ++ [.process t v]) t i s' := by
    refine ⟨hid.trans hs.trackingId, hkey.trans hs.dedupKey, ?_, ?_, hdecision⟩
    · rw [hdup, first_process]
      exact hs.duplicate
    · rw [hcompleted, hdup]
      exact ⟨fun hd => ⟨hd, hprocessed⟩, And.left⟩
  cases hdup : s.isDuplicate with
  | true =>
    have hnotFirst := hs.duplicate.mp hdup
    have hnone : ∀ t', t' ∈ ([] : List String) ↔
        t' = t ∧ v.accepted = true ∧ first steps (computeDedupKey i) = some t := by
      simp [hnotFirst]
    by_cases hstatus : s.status = .completed
    · have hleaves : Leaves st s [] st := by
        refine ⟨fun t' => ?_, fun k => ?_, (List.append_nil _).symm⟩
        · split_ifs with htt
          · rw [htt, hs.trackingId, hget]
          · rfl
        · rw [h.find, hs.dedupKey]
          exact (or_iff_right_of_imp fun hk => hk ▸ first_ne_none hmem).symm
      rw [run_process_completed hget hdup hstatus]
      exact h.leaves hmem (htracked rfl rfl rfl ⟨fun _ => hdup, fun _ => hstatus⟩ hs.decision) hleaves hnone
    · refine h.leaves hmem ?_ (leaves_process_duplicate hget hdup hstatus v) hnone
      exact htracked rfl rfl rfl ⟨fun _ => hdup, fun _ => rfl⟩ fun _ => rfl
  | false =>
    obtain ⟨s', hid, hkey, hdup', hstatus, hleaves⟩ := leaves_process_new hget hdup v
    have hfirst : first steps (computeDedupKey i) = some t := by
      by_contra hne
      rw [hs.duplicate.mpr hne] at hdup
      cases hdup
    refine h.leaves hmem (htracked hid hkey (hdup'.trans hdup.symm) ?_ fun hc => absurd hc hstatus)
      hleaves fun t' => ?_
    · rw [hdup]
      exact ⟨fun hc => absurd hc hstatus, fun hd => nomatch hd⟩
    · cases v.accepted <;> simp [hfirst]

end Step

theorem tracks_run {steps : List IntakeStep} (h : Sequential steps) : Tracks steps (intakeRun steps) := by
  induction h with
  | nil => exact .nil
  | submit _ ht i ih =>
    rw [run_concat]
    exact ih.submit ht i
  | process _ ht v ih =>
    rw [run_concat]
    exact ih.process ht v

/-! ## What a duplicate points at -/

/-- A submission that is completed as a duplicate has a submission with its key that was sent on. -/
def DuplicatesSent (st : IntakeState) : Prop :=
  ∀ t s d, st.repository.get t = some s → s.status = .completed → s.decision = some d →
    d.route = .duplicate →
    ∃ t' s', st.repository.get t' = some s' ∧ s'.dedupKey = s.dedupKey ∧ t' ∈ sentIds st

/-- One submission of each key is sent on. -/
def SentOnce (st : IntakeState) : Prop :=
  ∀ t t' s s', st.repository.get t = some s → st.repository.get t' = some s' → s.dedupKey = s'.dedupKey →
    t ∈ sentIds st → t' ∈ sentIds st → t = t'

/-- Of every invoice that was submitted again, the broker accepted the first submission. -/
def FirstAccepted (steps : List IntakeStep) : Prop :=
  ∀ t i t₁, (t, i) ∈ submissions steps → first steps (computeDedupKey i) = some t₁ →
    t₁ ≠ t → Accepted steps t₁

section Sent
variable {steps : List IntakeStep} {st : IntakeState} (h : Tracks steps st)
include h

theorem Tracks.submitted {t : String} {s : Submission} (hget : st.repository.get t = some s) :
    ∃ i, (t, i) ∈ submissions steps ∧ Tracked steps t i s := by
  have hmem : t ∈ ids steps := by
    by_contra hno
    rw [h.absent t hno] at hget
    cases hget
  obtain ⟨⟨t', i⟩, hmem', rfl⟩ := List.mem_map.mp hmem
  obtain ⟨s', hget', hs'⟩ := h.get t' i hmem'
  rw [hget] at hget'
  cases hget'
  exact ⟨i, hmem', hs'⟩

theorem Tracks.sent_first {t : String} {s : Submission} (hget : st.repository.get t = some s)
    (ht : t ∈ sentIds st) : first steps s.dedupKey = some t ∧ Accepted steps t := by
  obtain ⟨i, hmem, hfirst, hacc⟩ := (h.sent t).mp ht
  obtain ⟨i', hmem', hs⟩ := h.submitted hget
  obtain ⟨-, rfl⟩ := Prod.mk.inj (List.inj_on_of_nodup_map h.nodup hmem hmem' rfl)
  exact ⟨hs.dedupKey ▸ hfirst, hacc⟩

theorem Tracks.sentOnce : SentOnce st := by
  intro t t' s s' hget hget' hkey ht ht'
  have hfirst := (h.sent_first hget ht).1
  rw [hkey, (h.sent_first hget' ht').1] at hfirst
  exact (Option.some.inj hfirst).symm

theorem Tracks.duplicatesSent_iff (hall : ∀ t ∈ ids steps, Processed steps t) :
    DuplicatesSent st ↔ FirstAccepted steps := by
  constructor
  · intro hsent t i t₁ hmem hfirst hne
    obtain ⟨s, hget, hs⟩ := h.get t i hmem
    have hdup : s.isDuplicate = true :=
      hs.duplicate.mpr fun heq => hne (by rw [hfirst] at heq; exact Option.some.inj heq)
    have hcompleted := hs.completed.mpr ⟨hdup, hall t (mem_ids hmem)⟩
    obtain ⟨t', s', hget', hkey, ht'⟩ := hsent t s _ hget hcompleted (hs.decision hcompleted) rfl
    obtain ⟨hfirst', hacc⟩ := h.sent_first hget' ht'
    rw [hkey, hs.dedupKey, hfirst] at hfirst'
    cases hfirst'
    exact hacc
  · intro haccepted t s d hget hcompleted _ _
    obtain ⟨i, hmem, hs⟩ := h.submitted hget
    obtain ⟨t₁, hfirst⟩ := Option.ne_none_iff_exists'.mp (first_ne_none hmem)
    have hne : t₁ ≠ t := fun heq => hs.duplicate.mp (hs.completed.mp hcompleted).1 (heq ▸ hfirst)
    obtain ⟨i₁, hmem₁, hkey⟩ := mem_of_first hfirst
    obtain ⟨s₁, hget₁, hs₁⟩ := h.get t₁ i₁ hmem₁
    refine ⟨t₁, s₁, hget₁, ?_, (h.sent t₁).mpr ⟨i₁, hmem₁, ?_, haccepted t i t₁ hmem hfirst hne⟩⟩
    · rw [hs₁.dedupKey, hs.dedupKey, hkey]
    · rw [hkey]
      exact hfirst

end Sent

/-- Every submission so far has been processed. -/
def AllProcessed (steps : List IntakeStep) : Prop := ∀ t ∈ ids steps, Processed steps t

/-- **Duplicates and what was sent on**: where every submission has been processed, each duplicate points
at a submission that was sent on if and only if the first submission of every resubmitted invoice was
accepted by the broker; and at most one submission of each key is ever sent on. -/
theorem duplicates_sent_iff (steps : List IntakeStep) (hsequential : Sequential steps) :
    ((AllProcessed steps → DuplicatesSent (intakeRun steps)) ∧ SentOnce (intakeRun steps)) ↔
      (AllProcessed steps → FirstAccepted steps) := by
  have h := tracks_run hsequential
  rw [and_iff_left h.sentOnce]
  exact forall_congr' fun hall => h.duplicatesSent_iff hall

/-- The laptop is submitted twice. -/
def laptopTwice (publish : IntakeChoice) : List IntakeStep :=
  [.submit "t-1" laptop, .process "t-1" publish, .submit "t-2" laptop, .process "t-2" .answer]

theorem laptopTwice_sequential (publish : IntakeChoice) : Sequential (laptopTwice publish) :=
  (((Sequential.nil.submit List.not_mem_nil laptop).process (t := "t-1") (by
    simp [ids, submissions]) publish).submit
    (t := "t-2") (by simp [ids, submissions]) laptop).process (t := "t-2")
      (by simp [ids, submissions]) .answer

theorem laptopTwice_processed (publish : IntakeChoice) : AllProcessed (laptopTwice publish) := by
  intro t ht
  simp only [laptopTwice, ids, submissions, List.filterMap_cons, List.filterMap_nil,
    List.map_cons, List.map_nil, List.mem_cons, List.not_mem_nil, or_false] at ht
  rcases ht with rfl | rfl
  · exact ⟨publish, by simp [laptopTwice]⟩
  · exact ⟨.answer, by simp [laptopTwice]⟩

theorem duplicates_sent_laptop :
    DuplicatesSent (intakeRun (laptopTwice .answer)) ∧ SentOnce (intakeRun (laptopTwice .answer)) := by
  have hfirst : FirstAccepted (laptopTwice .answer) := by
    intro t i t₁ hmem hfirst _
    have hi : i = laptop := by
      simp only [laptopTwice, submissions, List.filterMap_cons, List.filterMap_nil,
        List.mem_cons, Prod.mk.injEq, List.not_mem_nil, or_false] at hmem
      rcases hmem with ⟨-, h⟩ | ⟨-, h⟩ <;> exact h
    have ht₁ : first (laptopTwice .answer) (computeDedupKey laptop) = some "t-1" := by
      simp [first, submissions, laptopTwice]
    rw [hi, ht₁] at hfirst
    cases hfirst
    exact ⟨.answer, by simp [laptopTwice], rfl⟩
  obtain ⟨hsent, honce⟩ :=
    (duplicates_sent_iff (laptopTwice .answer) (laptopTwice_sequential .answer)).mpr fun _ => hfirst
  exact ⟨hsent (laptopTwice_processed .answer), honce⟩

/-- **A duplicate of nothing**: the first publish is refused, and the resubmission is completed as its
duplicate. -/
theorem duplicate_of_unsent :
    Sequential (laptopTwice (.refuse "sidecar unreachable")) ∧
      AllProcessed (laptopTwice (.refuse "sidecar unreachable")) ∧
      ((intakeRun (laptopTwice (.refuse "sidecar unreachable"))).repository.get "t-2").map
        (fun s => (s.status, s.decision)) = some (.completed, some (buildDuplicateDecision "t-2")) ∧
      sentIds (intakeRun (laptopTwice (.refuse "sidecar unreachable"))) = [] ∧
      ¬ DuplicatesSent (intakeRun (laptopTwice (.refuse "sidecar unreachable"))) := by
  have hsent : sentIds (intakeRun (laptopTwice (.refuse "sidecar unreachable"))) = [] := by decide
  refine ⟨laptopTwice_sequential _, laptopTwice_processed _, by decide, hsent, fun h => ?_⟩
  obtain ⟨t', s', -, -, ht'⟩ := h "t-2" _ (buildDuplicateDecision "t-2") rfl rfl rfl rfl
  rw [hsent] at ht'
  cases ht'

end ApprovalFlow.Intake
