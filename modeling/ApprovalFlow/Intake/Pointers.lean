import ApprovalFlow.Intake.DaprState
import ApprovalFlow.Intake.InMemory
import ApprovalFlow.Async.Pool

/-!
# The dedup pointers

Any number of clients save and read submissions on one Dapr store, interleaved at every await, each
tracking id with one dedup key. Requests may be refused without effect.

* `Mirrors`: the store holds the submissions of the in-memory repository, and for each dedup key a
  pointer to the last one saved with it; `Mirrors.save`: a save that commits keeps this.
* `eval_get`, `eval_findByDedupKey`: over such a store the reads answer as those of the in-memory
  repository.
* `pointers_intact`: what the pointers and the reads show, in every configuration that is reached.
-/

namespace ApprovalFlow.Intake.Pointers
open Async Versioned DaprStateInvoiceRepository

/-- A call of the repository. -/
inductive RepositoryCall
  | save (submission : Submission)
  | get (trackingId : String)
  | find (dedupKey : String)

/-- Concurrent calls; `keyOf` is the dedup key that a tracking id is saved with. -/
def repositoryClients (keyOf : String → String) :
    System (storeSig IntakeValue) Exn (Option Submission) (Store IntakeValue) Reception RepositoryCall where
  body
    | .save s => (fun _ => none) <$> save (storeClient IntakeValue) s
    | .get t => get (storeClient IntakeValue) t
    | .find k => findByDedupKey (storeClient IntakeValue) k
  invoke
    | .save s, st => if s.dedupKey = keyOf s.trackingId then some st else none
    | _, st => some st
  exec := lossyStore IntakeValue

abbrev RepositoryEvent := Event (storeSig IntakeValue) Exn (Option Submission) RepositoryCall

abbrev RepositoryWorld := World (storeSig IntakeValue) Exn (Option Submission)
    (Store IntakeValue) RepositoryCall

/-- A request is served or refused. -/
def NoLoss : StepCond (storeSig IntakeValue) Exn (Option Submission) (Store IntakeValue)
    Reception RepositoryCall :=
  fun _ _ _ _ c => c ≠ .lose

/-- The submission of a transaction that committed. -/
def savedBy : RepositoryEvent → Option Submission
  | .perform _ (.save s) (.transact _) (.ok _) => some s
  | _ => none

/-- The saves that committed, in order. -/
def savedIn (log : List RepositoryEvent) : List Submission := log.reverse.filterMap savedBy

/-- The in-memory repository after saves. -/
def inMemoryAfter (saves : List Submission) : InMemoryInvoiceRepository :=
  saves.foldl (fun r s => r.save s) .empty

@[simp] theorem savedIn_cons (e : RepositoryEvent) (log : List RepositoryEvent) :
    savedIn (e :: log) = savedIn log ++ (savedBy e).toList := by
  rw [savedIn, List.reverse_cons, List.filterMap_append]
  cases h : savedBy e <;> simp [savedIn, h]

theorem inMemoryAfter_concat (saves : List Submission) (s : Submission) :
    inMemoryAfter (saves ++ [s]) = (inMemoryAfter saves).save s := by
  rw [inMemoryAfter, List.foldl_append]
  rfl

/-! ## The store as the in-memory repository -/

theorem value_dedupKey_writes (store : Store IntakeValue) (s : Submission) (k : String) :
    (store.puts (writes s)).value (dedupKey k) =
      if k = s.dedupKey then some (.pointer s.trackingId) else store.value (dedupKey k) := by
  have hne : dedupKey k ≠ submissionKey s.trackingId := fun h => by
    have hlist := congrArg String.toList h
    simp only [submissionKey, dedupKey, String.toList_append] at hlist
    cases hlist
  have hinj : dedupKey k = dedupKey s.dedupKey ↔ k = s.dedupKey := String.append_right_inj "dedup:"
  show ((store.put (submissionKey s.trackingId) (.submission s)).put (dedupKey s.dedupKey) _).value _ = _
  rw [Store.value_put, Store.value_put_ne _ _ hne]
  simp only [hinj]

/-- The store holds the submissions of `r` and a pointer for each of its snapshots, and a snapshot is the
last submission of its tracking id. -/
structure Mirrors (keyOf : String → String) (store : Store IntakeValue)
    (r : InMemoryInvoiceRepository) : Prop where
  submission : ∀ t, store.value (submissionKey t) = (r.get t).map .submission
  pointer : ∀ k, store.value (dedupKey k) = (r.findByDedupKey k).map fun s => .pointer s.trackingId
  keyed : ∀ t s, r.get t = some s → s.trackingId = t ∧ s.dedupKey = keyOf t
  snapshot : ∀ k s, r.findByDedupKey k = some s → s.dedupKey = k ∧ r.get s.trackingId = some s

section Mirrors
variable {keyOf : String → String} {store : Store IntakeValue}
    {r : InMemoryInvoiceRepository} {s : Submission}

theorem Mirrors.empty : Mirrors keyOf .empty .empty := by
  refine ⟨fun _ => rfl, fun _ => rfl, fun t s h => ?_, fun k s h => ?_⟩
  · cases h
  · cases h

/-- **A save keeps the pointers**: with one dedup key for each tracking id, no snapshot of another key is
overwritten. -/
theorem Mirrors.save (h : Mirrors keyOf store r) (hs : s.dedupKey = keyOf s.trackingId) :
    Mirrors keyOf (store.puts (writes s)) (r.save s) := by
  refine ⟨fun t => ?_, fun k => ?_, fun t s' hget => ?_, fun k s' hfind => ?_⟩
  · rw [value_writes, InMemoryInvoiceRepository.get_save]
    split_ifs
    · rfl
    · exact h.submission t
  · rw [value_dedupKey_writes, InMemoryInvoiceRepository.findByDedupKey_save]
    split_ifs
    · rfl
    · exact h.pointer k
  · rw [InMemoryInvoiceRepository.get_save] at hget
    split_ifs at hget with ht
    · cases hget
      exact ⟨ht.symm, ht ▸ hs⟩
    · exact h.keyed t s' hget
  · rw [InMemoryInvoiceRepository.findByDedupKey_save] at hfind
    rw [InMemoryInvoiceRepository.get_save]
    split_ifs at hfind with hk
    · cases hfind
      exact ⟨hk.symm, if_pos rfl⟩
    · obtain ⟨hkey, hget⟩ := h.snapshot k s' hfind
      refine ⟨hkey, ?_⟩
      -- the tracking id of another key's snapshot is not the one that is saved
      have hne : s'.trackingId ≠ s.trackingId := by
        intro ht
        have hkeyed := (h.keyed _ _ hget).2
        rw [ht, ← hs, hkey] at hkeyed
        exact hk hkeyed
      rw [if_neg hne]
      exact hget

theorem Mirrors.pointed (h : Mirrors keyOf store r) {k t : String}
    (hp : store.value (dedupKey k) = some (.pointer t)) :
    ∃ s, store.value (submissionKey t) = some (.submission s) ∧ s.trackingId = t ∧ s.dedupKey = k := by
  rw [h.pointer] at hp
  obtain ⟨s, hfind, ht⟩ := Option.map_eq_some_iff.mp hp
  cases ht
  obtain ⟨hkey, hget⟩ := h.snapshot k s hfind
  refine ⟨s, ?_, rfl, hkey⟩
  rw [h.submission, hget]
  rfl

end Mirrors

/-! ## The reads -/

/-- The exceptions of the two reads. -/
def readSubmissionError (details : String) : Exn :=
  .invoiceRepositoryError (.text ("Failed to read submission: " ++ details))

def readPointerError (details : String) : Exn :=
  .invoiceRepositoryError (.text ("Failed to read dedup pointer: " ++ details))

/-- What follows the read of a pointed submission. -/
def followed (k t : String) : Except Exn (Option Submission) →
    Prog (storeSig IntakeValue) Exn (Option Submission)
  | .ok none => .raise (.invoiceRepositoryError (.danglingPointer k t))
  | .ok (some s) => .ret (some s)
  | .error e => .raise e

/-- What follows the read of a pointer. -/
def pointed (k : String) : Option IntakeValue → Prog (storeSig IntakeValue) Exn (Option Submission)
  | none => .ret none
  | some (.pointer t) => if t = "" then .ret none else follow (storeClient IntakeValue) k t
  | some (.submission _) => .raise (.invoiceRepositoryError (.danglingPointer k ""))

theorem follow_eq (k t : String) : follow (storeClient IntakeValue) k t =
    ((storeClient IntakeValue).getState (submissionKey t)).attempt
      (StateClient.afterRead readSubmissionError
      fun response => followed k t (found response.1)) := by
  unfold follow
  rw [Prog.bind_eq, get_eq, Prog.attempt_assoc]
  refine Prog.attempt_congr fun reply => ?_
  rcases reply with e | ⟨data, etag⟩
  · rfl
  · cases data with
    | none => rfl
    | some data => cases data <;> rfl

theorem findByDedupKey_eq (k : String) : findByDedupKey (storeClient IntakeValue) k =
    ((storeClient IntakeValue).getState (dedupKey k)).attempt (StateClient.afterRead readPointerError
      fun response => pointed k response.1) := by
  unfold findByDedupKey
  rw [StateClient.read_bind]
  refine Prog.attempt_congr fun reply => ?_
  rcases reply with e | ⟨data, etag⟩
  · rfl
  · cases data with
    | none => rfl
    | some data =>
      cases data with
      | submission s => rfl
      | pointer t =>
        show _ = if t = "" then _ else _
        split_ifs with ht
        · subst ht
          rfl
        · simp only [StateClient.afterRead]

section Eval
variable {keyOf : String → String} {store : Store IntakeValue} {r : InMemoryInvoiceRepository}

theorem found_submission (h : Mirrors keyOf store r) (t : String) :
    found (store.value (submissionKey t)) = .ok (r.get t) := by
  rw [h.submission]
  cases r.get t <;> rfl

/-- **A read** answers as the in-memory repository does. -/
theorem eval_get (h : Mirrors keyOf store r) (t : String) :
    (get (storeClient IntakeValue) t).eval (lossyStore IntakeValue .serve) store =
      (.ok (r.get t), store) := by
  rw [get_eq, getState_attempt, Prog.eval_await]
  show (Prog.ofExcept (found (store.value (submissionKey t)))).eval _ store = _
  rw [Prog.eval_ofExcept, found_submission h]

/-- **A look-up** follows the pointer to the snapshot; ids are not empty. -/
theorem eval_findByDedupKey (h : Mirrors keyOf store r) (k : String)
    (hid : ∀ s, r.findByDedupKey k = some s → s.trackingId ≠ "") :
    (findByDedupKey (storeClient IntakeValue) k).eval (lossyStore IntakeValue .serve) store =
      (.ok (r.findByDedupKey k), store) := by
  rw [findByDedupKey_eq, getState_attempt, Prog.eval_await]
  show (pointed k (store.value (dedupKey k))).eval _ store = _
  rw [h.pointer]
  cases hfind : r.findByDedupKey k with
  | none => rfl
  | some s =>
    obtain ⟨-, hget⟩ := h.snapshot k s hfind
    show (if s.trackingId = "" then _ else _ : Prog (storeSig IntakeValue) Exn (Option Submission)).eval
        _ store = _
    rw [if_neg (hid s hfind), follow_eq, getState_attempt, Prog.eval_await]
    show (followed k s.trackingId (found (store.value (submissionKey s.trackingId)))).eval _ store = _
    rw [found_submission h, hget]
    rfl

end Eval

/-! ## A call among others -/

/-- The store is what the commits make of the in-memory repository. -/
def Mirrored (keyOf : String → String) (w : RepositoryWorld) : Prop :=
  Mirrors keyOf w.state (inMemoryAfter (savedIn w.log))

/-- No pointer without a record was met. -/
def NoDangling (result : Except Exn (Option Submission)) : Prop :=
  ∀ k t, result ≠ .error (.invoiceRepositoryError (.danglingPointer k t))

abbrev SafeCall (keyOf : String → String) (i : Nat) (call : RepositoryCall)
    (p : Prog (storeSig IntakeValue) Exn (Option Submission)) (w : RepositoryWorld) : Prop :=
  Safe (repositoryClients keyOf) NoLoss (Mirrored keyOf) (fun _ w w₁ => w.state.Evolves w₁.state) i call p
    (fun result _ => NoDangling result) w

section Steps
variable {keyOf : String → String} {w : RepositoryWorld} {i : Nat} {call : RepositoryCall}

theorem noDangling_ok (s : Option Submission) : NoDangling (.ok s) := by
  intro k t h
  cases h

theorem noDangling_text (message : String) :
    NoDangling (.error (.invoiceRepositoryError (.text message))) := by
  intro k t h
  cases h

theorem Mirrored.idle (h : Mirrored keyOf w) {e : RepositoryEvent} (he : savedBy e = none) :
    Mirrored keyOf ⟨w.state, e :: w.log⟩ := by
  unfold Mirrored
  rw [savedIn_cons, he, Option.toList_none, List.append_nil]
  exact h

theorem savedBy_get (k : String) (reply : Except Exn (Option IntakeValue × Nat)) :
    savedBy (.perform i call (.get k) reply) = none := by
  cases call <;> rfl

theorem safe_read {k : String} {f : Except Exn (Option IntakeValue × Nat) →
    Prog (storeSig IntakeValue) Exn (Option Submission)}
    (hserved : ∀ (w₁ : RepositoryWorld) (log : List RepositoryEvent), Mirrored keyOf w₁ →
      w.state.Evolves w₁.state → SafeCall keyOf i call (f (.ok (w₁.state.get k))) ⟨w₁.state, log⟩)
    (hrefused : ∀ w₁ : RepositoryWorld, SafeCall keyOf i call (f (.error (.rpcError ""))) w₁) :
    SafeCall keyOf i call (((storeClient IntakeValue).getState k).attempt f) w := by
  rw [getState_attempt]
  intro w₁ hR hI c hc
  cases c with
  | serve => exact ⟨hI.idle (savedBy_get k _), fun j _ => Store.Evolves.refl _, hserved w₁ _ hI hR⟩
  | refuse => exact ⟨hI.idle (savedBy_get k _), fun j _ => Store.Evolves.refl _, hrefused _⟩
  | lose => exact absurd rfl hc

theorem safe_get (t : String) : SafeCall keyOf i call (get (storeClient IntakeValue) t) w := by
  rw [get_eq]
  refine safe_read (fun w₁ log hI _ => ?_) fun w₁ => noDangling_text _
  show SafeCall keyOf i call (Prog.ofExcept (found (w₁.state.value (submissionKey t)))) _
  rw [found_submission hI]
  exact noDangling_ok _

/-- **The second read of a look-up** finds a record: it was there at the first, and records stay. -/
theorem safe_follow {k t : String} (hthere : w.state.value (submissionKey t) ≠ none) :
    SafeCall keyOf i call (follow (storeClient IntakeValue) k t) w := by
  rw [follow_eq]
  refine safe_read (fun w₁ log hI hR => ?_) fun w₁ => noDangling_text _
  have hstill : w₁.state.value (submissionKey t) ≠ none := by
    rw [ne_eq, ← Store.etag_eq_zero] at hthere ⊢
    have := hR.etag_le (submissionKey t)
    omega
  show SafeCall keyOf i call (followed k t (found (w₁.state.value (submissionKey t)))) _
  rw [found_submission hI]
  rw [hI.submission, ne_eq, Option.map_eq_none_iff] at hstill
  cases hget : (inMemoryAfter (savedIn w₁.log)).get t with
  | none => exact absurd hget hstill
  | some s => exact noDangling_ok _

theorem safe_find (k : String) : SafeCall keyOf i call (findByDedupKey (storeClient IntakeValue) k) w := by
  rw [findByDedupKey_eq]
  refine safe_read (fun w₁ log hI hR => ?_) fun w₁ => noDangling_text _
  show SafeCall keyOf i call (pointed k (w₁.state.value (dedupKey k))) _
  have hpointer := hI.pointer k
  cases hfind : (inMemoryAfter (savedIn w₁.log)).findByDedupKey k with
  | none =>
    rw [hpointer, hfind]
    exact noDangling_ok _
  | some s =>
    rw [hfind] at hpointer
    obtain ⟨s', hs', -, -⟩ := hI.pointed hpointer
    rw [hpointer]
    show SafeCall keyOf i call (if s.trackingId = "" then .ret none else follow _ k s.trackingId) _
    split_ifs
    · exact noDangling_ok _
    · refine safe_follow ?_
      show w₁.state.value (submissionKey s.trackingId) ≠ none
      rw [hs']
      exact Option.some_ne_none _

theorem current_writes (store : Store IntakeValue) (s : Submission) : store.Current (writes s) := by
  intro write hwrite e he
  simp only [writes, List.mem_cons, List.not_mem_nil, or_false] at hwrite
  rcases hwrite with rfl | rfl <;> cases he

/-- **A save** commits both writes, or changes nothing. -/
theorem safe_save {s : Submission} (hs : s.dedupKey = keyOf s.trackingId) :
    SafeCall keyOf i (.save s) ((repositoryClients keyOf).body (.save s)) w := by
  show SafeCall keyOf i (.save s) ((fun _ => none) <$> save (storeClient IntakeValue) s) w
  unfold save
  rw [Prog.map_eq, Prog.handle_eq, Prog.attempt_assoc, executeStateTransaction_attempt]
  intro w₁ hR hI c hc
  cases c with
  | lose => exact absurd rfl hc
  | refuse => exact ⟨hI.idle rfl, fun j _ => Store.Evolves.refl _, noDangling_text _⟩
  | serve =>
    have hexec : (repositoryClients keyOf).exec .serve (.transact (writes s)) w₁.state =
        (.ok (), w₁.state.puts (writes s)) :=
      @Op.perform_current IntakeValue Exn (.rpcError "") _ _ (current_writes w₁.state s)
    simp only [World.performed, hexec]
    refine ⟨?_, fun j _ => Store.evolves_puts _ _, noDangling_ok _⟩
    unfold Mirrored
    rw [savedIn_cons]
    show Mirrors keyOf _ (inMemoryAfter (savedIn w₁.log ++ [s]))
    rw [inMemoryAfter_concat]
    exact Mirrors.save hI hs

end Steps

/-- The proof outline of the calls. -/
def pointerOutline (keyOf : String → String) : Outline (repositoryClients keyOf) NoLoss where
  I := Mirrored keyOf
  R := fun _ w w₁ => w.state.Evolves w₁.state
  Post := fun _ _ result _ => NoDangling result
  refl _ _ := Store.Evolves.refl _
  trans _ _ _ _ h h' := h.trans h'
  post_stable _ _ h := h
  invoke := by
    intro w n call s hI hfresh hinvoke
    cases call with
    | save submission =>
      simp only [repositoryClients] at hinvoke
      split_ifs at hinvoke with hkey
      cases hinvoke
      exact ⟨hI.idle rfl, fun j _ => Store.Evolves.refl _, safe_save hkey⟩
    | get t =>
      cases hinvoke
      exact ⟨hI.idle rfl, fun j _ => Store.Evolves.refl _, safe_get t⟩
    | find k =>
      cases hinvoke
      exact ⟨hI.idle rfl, fun j _ => Store.Evolves.refl _, safe_find k⟩
  respond := by
    intro w i call result hI _
    exact ⟨hI.idle rfl, fun j => Store.Evolves.refl _⟩

/-- **The pointers are intact, and the two repositories agree**, in every interleaving: a pointer names a
submission that is there and has the pointer's key; no call meets a pointer without a record; and the
reads answer as those of the in-memory repository after the same saves. -/
theorem pointers_intact (keyOf : String → String)
    (cfg : Config (storeSig IntakeValue) Exn (Option Submission) (Store IntakeValue) RepositoryCall)
    (hr : (repositoryClients keyOf).Reach (meets NoLoss) (System.start .empty) cfg) :
    (∀ k value, cfg.world.state.value (dedupKey k) = some value → ∃ t s, value = .pointer t ∧
      cfg.world.state.value (submissionKey t) = some (.submission s) ∧ s.trackingId = t ∧ s.dedupKey = k) ∧
    (∀ (i : Nat) (call : RepositoryCall) (result : Except Exn (Option Submission)),
      cfg.threads[i]? = some ⟨call, .done result⟩ → NoDangling result) ∧
    (∀ t, (get (storeClient IntakeValue) t).eval (lossyStore IntakeValue .serve) cfg.world.state =
      (.ok ((inMemoryAfter (savedIn cfg.world.log)).get t), cfg.world.state)) ∧
    (∀ k, (∀ s, (inMemoryAfter (savedIn cfg.world.log)).findByDedupKey k = some s → s.trackingId ≠ "") →
      (findByDedupKey (storeClient IntakeValue) k).eval (lossyStore IntakeValue .serve) cfg.world.state =
        (.ok ((inMemoryAfter (savedIn cfg.world.log)).findByDedupKey k), cfg.world.state)) := by
  have hholds := (pointerOutline keyOf).sound (s := .empty) Mirrors.empty hr
  have hI : Mirrors keyOf cfg.world.state (inMemoryAfter (savedIn cfg.world.log)) := hholds.inv
  refine ⟨fun k value hvalue => ?_, fun i call result hi => hholds.threads i _ hi, eval_get hI,
    eval_findByDedupKey hI⟩
  rw [hI.pointer] at hvalue
  obtain ⟨s, hfind, rfl⟩ := Option.map_eq_some_iff.mp hvalue
  obtain ⟨s', hs', ht, hkey⟩ := hI.pointed (by rw [hI.pointer, hfind]; rfl)
  exact ⟨s.trackingId, s', rfl, hs', ht, hkey⟩

/-- A submission of the laptop. -/
def laptopSubmission (trackingId : String) (isDuplicate : Bool) : Submission :=
  ⟨trackingId, laptop, "acme|1", isDuplicate, .received, none, none⟩

/-- The duplicate is saved while a look-up is between its two reads. -/
def overtakenFind : List (Action Reception RepositoryCall) :=
  [.invoke (.save (laptopSubmission "t-1" false)), .invoke (.save (laptopSubmission "t-2" true)),
    .invoke (.find "acme|1"),
    .step 0 .serve, .respond 0, .step 2 .serve, .step 1 .serve, .respond 1, .step 2 .serve, .respond 2]

/-- No action loses a reply. -/
def noLoss (_ : Config (storeSig IntakeValue) Exn (Option Submission) (Store IntakeValue) RepositoryCall) :
    Action Reception RepositoryCall → Bool
  | .step _ c => c ≠ .lose
  | _ => true

theorem meets_of_noLoss
    (cfg : Config (storeSig IntakeValue) Exn (Option Submission) (Store IntakeValue) RepositoryCall)
    (a : Action Reception RepositoryCall) (h : noLoss cfg a = true) : meets NoLoss cfg a := by
  cases a with
  | invoke _ => trivial
  | respond _ => trivial
  | step i c =>
    intro call o k _
    have hc : c ≠ .lose := of_decide_eq_true h
    exact hc

def overtaken : Config (storeSig IntakeValue) Exn (Option Submission) (Store IntakeValue) RepositoryCall :=
  ((repositoryClients fun _ => "acme|1").runActions noLoss overtakenFind (System.start .empty)).get
    (by decide)

/-- The look-up answers with the first submission; the next one finds the duplicate. -/
theorem overtaken_intact :
    NoDangling (.ok (some (laptopSubmission "t-1" false))) ∧
      (findByDedupKey (storeClient IntakeValue) "acme|1").eval (lossyStore IntakeValue .serve)
        overtaken.world.state =
        (.ok (some (laptopSubmission "t-2" true)), overtaken.world.state) := by
  obtain ⟨-, hresults, -, hfind⟩ := pointers_intact (fun _ => "acme|1") overtaken
    (System.reach_of_runActions meets_of_noLoss _ (Option.some_get _).symm)
  have hlast : (inMemoryAfter (savedIn overtaken.world.log)).findByDedupKey "acme|1" =
      some (laptopSubmission "t-2" true) := by decide
  refine ⟨hresults 2 (.find "acme|1") _ rfl, ?_⟩
  rw [← hlast]
  refine hfind "acme|1" fun s hs => ?_
  rw [hlast] at hs
  cases hs
  exact by decide

end ApprovalFlow.Intake.Pointers
