import ApprovalFlow.Workflow.Indexes

/-!
# Listings among saves

A listing reads the index and then one record after the other, while saves go on. Requests may be
refused, and replies lost.

* `RecordCall`, `recordClients`: saves and listings on one store.
* `Recorded`: the store mirrors a dictionary of saved records, and its index has every save that
  returned.
* `Lists`: every id whose save returned before the listing began is listed, every id once, with a record
  that was saved and that the store held when the listing read it; `ended_of_reach`: so it is in every
  interleaving.
* `listings_complete`: of the queue of Approval, and of the payments.
-/

namespace ApprovalFlow
open Async Versioned

namespace IndexedState

/-- A call of a repository. -/
inductive RecordCall (R : Type)
  | save (r : R)
  | list

inductive RecordAnswer (R : Type)
  | saved
  | listed (rs : List R)

section Clients
variable {V R : Type}

abbrev RecordWorld (V R : Type) := World (storeSig V) Exn (RecordAnswer R) (Store V) (RecordCall R)

abbrev RecordConfig (V R : Type) := Config (storeSig V) Exn (RecordAnswer R) (Store V) (RecordCall R)

abbrev RecordLog (V R : Type) := List (Event (storeSig V) Exn (RecordAnswer R) (RecordCall R))

/-- Concurrent saves and listings; `index` is no tracking id. -/
def recordClients (layout : IndexedLayout V R) :
    System (storeSig V) Exn (RecordAnswer R) (Store V) Reception (RecordCall R) where
  body
    | .save r => (save (storeClient V) layout r).attempt (.onOk fun _ => .ret .saved)
    | .list => (listAll (storeClient V) layout).attempt (.onOk fun rs => .ret (.listed rs))
  invoke
    | .save r, s => if layout.trackingId r = "index" then none else some s
    | .list, s => some s
  exec := lossyStore V

/-- Every request may be served, refused, or served without a reply. -/
abbrev AnyReception (V R : Type) :
    StepCond (storeSig V) Exn (RecordAnswer R) (Store V) Reception (RecordCall R) := fun _ _ _ _ _ => True

/-- A save of the id returned before listing `i` was invoked. -/
def SavedBefore (layout : IndexedLayout V R) (i : ℕ) (t : String) (log : RecordLog V R) : Prop :=
  ∃ j r, layout.trackingId r = t ∧ [.invoke i .list, .respond j (.save r) (.ok .saved)].Sublist log

/-- When listing `i` read the id of the record, the store held the record. -/
def HeldAtRead (layout : IndexedLayout V R) (i : ℕ) (r : R) (log : RecordLog V R) : Prop :=
  ∃ etag, .perform i .list (.get (layout.key (layout.trackingId r)))
    (.ok (some (layout.record r), etag)) ∈ log

/-- What a listing shows. -/
structure Lists (layout : IndexedLayout V R) (i : ℕ) (rs : List R) (log : RecordLog V R) : Prop where
  complete : ∀ t, SavedBefore layout i t log → t ∈ rs.map layout.trackingId
  nodup : (rs.map layout.trackingId).Nodup
  origin : ∀ r ∈ rs, ∃ j, .invoke j (.save r) ∈ log
  held : ∀ r ∈ rs, HeldAtRead layout i r log

/-! ## The store -/

/-- The store mirrors a dictionary of saved records, and its index has every save that returned. -/
structure Recorded (layout : IndexedLayout V R) (w : RecordWorld V R) : Prop where
  mirrors : ∃ d, Mirrors layout w.state d ∧ ∀ t r, d.get? t = some r → ∃ j, .invoke j (.save r) ∈ w.log
  returned : ∀ j r, .respond j (.save r) (.ok .saved) ∈ w.log → layout.trackingId r ∈ index layout w.state

/-- What happens to the store, and to the log without another invocation of thread `i`. -/
structure Later (layout : IndexedLayout V R) (i : ℕ) (w w₁ : RecordWorld V R) : Prop where
  index : IndexedState.index layout w.state ⊆ IndexedState.index layout w₁.state
  evolves : w.state.Evolves w₁.state
  log : ∃ newer, w₁.log = newer ++ w.log ∧ ∀ call, .invoke i call ∉ newer

end Clients

section Steps
variable {V R : Type} {layout : IndexedLayout V R} {i j : ℕ} {r : R} {w w₁ w₂ : RecordWorld V R}

theorem Later.refl (w : RecordWorld V R) : Later layout i w w :=
  ⟨fun _ h => h, .refl _, [], rfl, fun _ => List.not_mem_nil⟩

theorem Later.trans (h₁ : Later layout i w w₁) (h₂ : Later layout i w₁ w₂) : Later layout i w w₂ := by
  obtain ⟨newer₁, hlog₁, hnot₁⟩ := h₁.log
  obtain ⟨newer₂, hlog₂, hnot₂⟩ := h₂.log
  refine ⟨fun _ h => h₂.index (h₁.index h), h₁.evolves.trans h₂.evolves, newer₂ ++ newer₁, ?_,
    fun call hmem => ?_⟩
  · rw [hlog₂, hlog₁, List.append_assoc]
  · rcases List.mem_append.mp hmem with hmem | hmem
    · exact hnot₂ call hmem
    · exact hnot₁ call hmem

theorem HeldAtRead.later {i' : ℕ} (h : HeldAtRead layout i r w.log) (hlater : Later layout i' w w₁) :
    HeldAtRead layout i r w₁.log := by
  obtain ⟨etag, hmem⟩ := h
  obtain ⟨newer, hlog, -⟩ := hlater.log
  exact ⟨etag, hlog ▸ List.mem_append_right _ hmem⟩

theorem Later.mem (h : Later layout i w w₁)
    {e : Event (storeSig V) Exn (RecordAnswer R) (RecordCall R)} (he : e ∈ w.log) : e ∈ w₁.log := by
  obtain ⟨newer, hlog, -⟩ := h.log
  rw [hlog]
  exact List.mem_append_right _ he

theorem Later.idle {e : Event (storeSig V) Exn (RecordAnswer R) (RecordCall R)}
    (he : ∀ call, e ≠ .invoke i call) : Later layout i w ⟨w.state, e :: w.log⟩ :=
  ⟨fun _ h => h, .refl _, [e], rfl, fun call hmem => he call (List.mem_singleton.mp hmem).symm⟩

theorem sublist_of_notMem {α : Type} {a : α} {l newer log : List α} (h : a ∉ newer)
    (hsub : (a :: l).Sublist (newer ++ log)) : (a :: l).Sublist log := by
  induction newer with
  | nil => exact hsub
  | cons b newer ih =>
    rw [List.mem_cons, not_or] at h
    rcases List.sublist_cons_iff.mp hsub with hsub | ⟨_, heq, -⟩
    · exact ih h.2 hsub
    · cases heq
      exact absurd rfl h.1

/-- What was saved before a listing does not depend on what happens later. -/
theorem SavedBefore.earlier {t : String} (hlater : Later layout i w w₁)
    (h : SavedBefore layout i t w₁.log) : SavedBefore layout i t w.log := by
  obtain ⟨j, r, ht, hsub⟩ := h
  obtain ⟨newer, hlog, hnot⟩ := hlater.log
  rw [hlog] at hsub
  exact ⟨j, r, ht, sublist_of_notMem (hnot .list) hsub⟩

theorem Recorded.empty : Recorded layout ⟨.empty, []⟩ :=
  ⟨⟨.empty, .empty, fun _ _ h => nomatch h⟩, fun _ _ h => absurd h List.not_mem_nil⟩

theorem Recorded.idle (h : Recorded layout w) {e : Event (storeSig V) Exn (RecordAnswer R) (RecordCall R)}
    (he : ∀ j r, e = .respond j (.save r) (.ok .saved) → layout.trackingId r ∈ index layout w.state) :
    Recorded layout ⟨w.state, e :: w.log⟩ := by
  obtain ⟨⟨d, hmirrors, horigin⟩, hreturned⟩ := h
  refine ⟨⟨d, hmirrors, fun t r hr => ?_⟩, fun j r hmem => ?_⟩
  · obtain ⟨j, hj⟩ := horigin t r hr
    exact ⟨j, List.mem_cons_of_mem _ hj⟩
  · rcases List.mem_cons.mp hmem with heq | hmem
    · exact he j r heq.symm
    · exact hreturned j r hmem

theorem index_writes (law : layout.Lawful) (s : Store V) (r : R) (etag : ℕ) :
    index layout (s.puts (writes layout r (index layout s) etag)) =
      appendId (index layout s) (layout.trackingId r) := by
  rw [index, IndexedLayout.indexKey, value_writes, if_pos rfl]
  exact law.toIndex_index _

theorem subset_appendId (ids : List String) (t : String) : ids ⊆ appendId ids t := by
  intro t' h
  unfold appendId
  split_ifs
  · exact h
  · exact List.mem_append_left _ h

theorem mem_appendId (ids : List String) (t : String) : t ∈ appendId ids t := by
  unfold appendId
  split_ifs with h
  · exact h
  · exact List.mem_append_right _ (List.mem_singleton_self t)

theorem Recorded.commit (h : Recorded layout w) (law : layout.Lawful) (hr : layout.trackingId r ≠ "index")
    (hinvoked : .invoke i (.save r) ∈ w.log) (etag : ℕ) (reply : Except Exn Unit) (ws : List (Write V)) :
    Recorded layout ⟨w.state.puts (writes layout r (index layout w.state) etag),
        .perform i (.save r) (.transact ws) reply :: w.log⟩ ∧
      ∀ j, Later layout j w ⟨w.state.puts (writes layout r (index layout w.state) etag),
        .perform i (.save r) (.transact ws) reply :: w.log⟩ := by
  have hindex := index_writes law w.state r etag
  have hsubset : index layout w.state ⊆
      index layout (w.state.puts (writes layout r (index layout w.state) etag)) := by
    rw [hindex]
    exact subset_appendId _ _
  obtain ⟨⟨d, hmirrors, horigin⟩, hreturned⟩ := h
  refine ⟨⟨⟨_, hmirrors.commit law hr etag, fun t r' hr' => ?_⟩, fun j r' hmem => ?_⟩, fun j => ?_⟩
  · rw [Dict.get?_insert] at hr'
    split_ifs at hr' with ht
    · cases hr'
      exact ⟨i, List.mem_cons_of_mem _ hinvoked⟩
    · obtain ⟨j, hj⟩ := horigin t r' hr'
      exact ⟨j, List.mem_cons_of_mem _ hj⟩
  · rcases List.mem_cons.mp hmem with heq | hmem
    · cases heq
    · exact hsubset (hreturned j r' hmem)
  · refine ⟨hsubset, Store.evolves_puts _ _, [_], rfl, fun call hmem => ?_⟩
    cases List.mem_singleton.mp hmem

end Steps

/-! ## The calls -/

section Calls
variable {V R : Type} {layout : IndexedLayout V R} {i : ℕ} {call : RecordCall R} {r : R}
    {w : RecordWorld V R}

abbrev SafeCall (layout : IndexedLayout V R) (i : ℕ) (call : RecordCall R) {β : Type}
    (p : Prog (storeSig V) Exn β)
    (Φ : Except Exn β → RecordWorld V R → Prop) (w : RecordWorld V R) : Prop :=
  Safe (recordClients layout) (AnyReception V R) (Recorded layout) (Later layout) i call p Φ w

/-- A read of the call failed. -/
def Failed (i : ℕ) (call : RecordCall R) (log : RecordLog V R) : Prop :=
  ∃ k e, .perform i call (.get k) (.error e) ∈ log

/-- A read: it is answered as the store is then, or fails. -/
theorem safe_get {β : Type} {Φ : Except Exn β → RecordWorld V R → Prop} {k : String}
    {f : Except Exn (Option V × ℕ) → Prog (storeSig V) Exn β}
    (hserved : ∀ w₁ : RecordWorld V R, Later layout i w w₁ → Recorded layout w₁ →
      .perform i call (.get k) (.ok (w₁.state.value k, w₁.state.etag k)) ∈ w₁.log →
        SafeCall layout i call (f (.ok (w₁.state.value k, w₁.state.etag k))) Φ w₁)
    (hfailed : ∀ w₁ : RecordWorld V R, Failed i call w₁.log →
      SafeCall layout i call (f (.error (.rpcError ""))) Φ w₁) :
    SafeCall layout i call (((storeClient V).getState k).attempt f) Φ w := by
  rw [getState_attempt]
  intro w₁ hR hI c _
  have hidle (j : ℕ) (reply : Except Exn (Option V × ℕ)) :
      Later layout j w₁ ⟨w₁.state, .perform i call (.get k) reply :: w₁.log⟩ := .idle fun _ h => by cases h
  have hkept (reply : Except Exn (Option V × ℕ)) :
      Recorded layout ⟨w₁.state, .perform i call (.get k) reply :: w₁.log⟩ :=
        hI.idle fun _ _ h => by cases h
  cases c with
  | serve =>
    exact ⟨hkept _, fun j _ => hidle j _, hserved _ (hR.trans (hidle i _)) (hkept _) List.mem_cons_self⟩
  | refuse => exact ⟨hkept _, fun j _ => hidle j _, hfailed _ ⟨k, _, List.mem_cons_self⟩⟩
  | lose => exact ⟨hkept _, fun j _ => hidle j _, hfailed _ ⟨k, _, List.mem_cons_self⟩⟩

/-- A save that returned has its id in the index. -/
def Indexed (layout : IndexedLayout V R) (r : R) (result : Except Exn Unit) (w : RecordWorld V R) : Prop :=
  result = .ok () → layout.trackingId r ∈ index layout w.state

/-- **A save**, by induction on the attempts that are left. -/
theorem safe_saveAttempts (law : layout.Lawful) (hr : layout.trackingId r ≠ "index") (n : ℕ)
    (hinvoked : .invoke i (.save r) ∈ w.log) :
    SafeCall layout i (.save r) (saveLoop (storeClient V) layout r n) (Indexed layout r) w := by
  induction n generalizing w with
  | zero => exact fun h => by cases h
  | succ n ih =>
    rw [saveLoop_succ]
    refine safe_get (fun w₁ hlater _ _ => ?_) fun w₁ _ h => by cases h
    simp only [StateClient.afterRead, executeStateTransaction_attempt]
    intro w₂ hR hI c _
    generalize hws : writes layout r (ids layout (w₁.state.value layout.indexKey))
      (w₁.state.etag layout.indexKey) = ws
    have hinvoked₂ : .invoke i (.save r) ∈ w₂.log := (hlater.trans hR).mem hinvoked
    have hcommit (hcurrent : w₂.state.Current ws) :
        ws = writes layout r (index layout w₂.state) (w₂.state.etag layout.indexKey) := by
      -- the etag is the one that was read, so the index is
      have hetag : w₂.state.etag layout.indexKey = w₁.state.etag layout.indexKey :=
        (current_writes _ _ _ _).mp (hws ▸ hcurrent)
      rw [← hws, index, hR.evolves.value_eq hetag, hetag]
    obtain ⟨rfl, hcurrent, hexec⟩ | ⟨rfl, hcurrent, hexec⟩ | hexec := lossyStore_cases c ws w₂.state
    · have hexec : (recordClients layout).exec .serve (.transact ws) w₂.state =
          (.ok (), w₂.state.puts ws) := hexec
      obtain ⟨hkept, hlater⟩ := hI.commit law hr hinvoked₂ (w₂.state.etag layout.indexKey) (.ok ()) ws
      have hmem : layout.trackingId r ∈ index layout (w₂.state.puts ws) := by
        rw [hcommit hcurrent, index_writes law]
        exact mem_appendId _ _
      simp only [World.performed, hexec]
      rw [← hcommit hcurrent] at hkept hlater
      exact ⟨hkept, fun j _ => hlater j, fun _ => hmem⟩
    · have hexec : (recordClients layout).exec .lose (.transact ws) w₂.state =
          (.error (.rpcError ""), w₂.state.puts ws) :=
        hexec
      obtain ⟨hkept, hlater⟩ :=
        hI.commit law hr hinvoked₂ (w₂.state.etag layout.indexKey) (.error (.rpcError "")) ws
      simp only [World.performed, hexec]
      rw [← hcommit hcurrent] at hkept hlater
      exact ⟨hkept, fun j _ => hlater j, ih (List.mem_cons_of_mem _ hinvoked₂)⟩
    · have hexec : (recordClients layout).exec c (.transact ws) w₂.state =
          (.error (.rpcError ""), w₂.state) := hexec
      simp only [World.performed, hexec]
      exact ⟨hI.idle fun _ _ h => (by cases h), fun j _ => .idle fun _ h => (by cases h),
        ih (List.mem_cons_of_mem _ hinvoked₂)⟩

/-- A listing that has read these ids, and found these records. -/
structure Reading (layout : IndexedLayout V R) (i : ℕ) (ids : List String) (seen : List R)
    (w : RecordWorld V R) : Prop where
  subset : ids ⊆ index layout w.state
  complete : ∀ t, SavedBefore layout i t w.log → t ∈ ids
  origin : ∀ r ∈ seen, ∃ j, .invoke j (.save r) ∈ w.log
  held : ∀ r ∈ seen, HeldAtRead layout i r w.log

variable {ids ids' : List String} {seen seen' : List R}

theorem Reading.later {w₁ : RecordWorld V R} (h : Reading layout i ids seen w)
    (hlater : Later layout i w w₁) : Reading layout i ids seen w₁ := by
  refine ⟨fun t ht => hlater.index (h.subset ht),
    fun t ht => h.complete t (ht.earlier hlater), fun r hr => ?_,
    fun r hr => (h.held r hr).later hlater⟩
  obtain ⟨j, hj⟩ := h.origin r hr
  exact ⟨j, hlater.mem hj⟩

theorem Reading.mono (h : Reading layout i ids seen w) (hsub : seen' ⊆ seen) :
    Reading layout i ids seen' w :=
  ⟨h.subset, h.complete, fun r hr => h.origin r (hsub hr), fun r hr => h.held r (hsub hr)⟩

/-- What the store holds for an id in the index. -/
theorem Recorded.held (h : Recorded layout w) {t : String} (ht : t ∈ index layout w.state) :
    ∃ r, w.state.value (layout.key t) = some (layout.record r) ∧ layout.trackingId r = t ∧
      ∃ j, .invoke j (.save r) ∈ w.log := by
  obtain ⟨⟨d, hmirrors, horigin⟩, -⟩ := h
  rw [hmirrors.index, Dict.mem_keys] at ht
  obtain ⟨r, hr⟩ := Option.ne_none_iff_exists'.mp ht
  obtain ⟨hid, hne⟩ := hmirrors.keyed t r hr
  refine ⟨r, ?_, hid, horigin t r hr⟩
  rw [hmirrors.record t hne, hr]
  rfl

/-- What a listing has found, or it has failed. -/
def Finds {β : Type} (i : ℕ) (result : Except Exn β) (w : RecordWorld V R) (Φ : β → Prop) : Prop :=
  match result with
  | .ok b => Φ b
  | .error _ => Failed i .list w.log

theorem safe_find (law : layout.Lawful) {t : String} (ht : t ∈ ids) (h : Reading layout i ids seen w) :
    SafeCall layout i .list (get (storeClient V) layout t)
      (fun result w' => Finds i result w' fun o => ∃ r, o = some r ∧ layout.trackingId r = t ∧
        Reading layout i ids (r :: seen) w') w := by
  rw [get_eq]
  refine safe_get (fun w₁ hlater hkept hread => ?_) fun w₁ hfailed => hfailed
  have h₁ := h.later hlater
  obtain ⟨r, hvalue, hid, hinvoked⟩ := hkept.held (h₁.subset ht)
  have hfound : IndexedState.found layout (w₁.state.value (layout.key t)) = .ok (some r) := by
    rw [hvalue]
    simp [IndexedState.found, law.toRecord_record, Except.map]
  have hheld : HeldAtRead layout i r w₁.log := ⟨_, by rw [hid, ← hvalue]; exact hread⟩
  simp only [StateClient.afterRead, hfound]
  exact ⟨r, rfl, hid, h₁.subset, h₁.complete, List.forall_mem_cons.mpr ⟨hinvoked, h₁.origin⟩,
    List.forall_mem_cons.mpr ⟨hheld, h₁.held⟩⟩

/-- The records are read, by induction on the ids that are left. -/
theorem safe_findAll (law : layout.Lawful) (hids : ids' ⊆ ids) (h : Reading layout i ids seen w) :
    SafeCall layout i .list (getAll (storeClient V) layout ids')
      (fun result w' => Finds i result w' fun rs => rs.map layout.trackingId = ids' ∧
        Reading layout i ids (rs ++ seen) w') w := by
  induction ids' generalizing seen w with
  | nil => exact ⟨rfl, h⟩
  | cons t ids' ih =>
    obtain ⟨ht, hrest⟩ := List.cons_subset.mp hids
    rw [getAll, Prog.bind_eq]
    refine Safe.attempt ((safe_find law ht h).mono fun result w₁ hfound => ?_)
    cases result with
    | error e => exact hfound
    | ok o =>
      obtain ⟨r, rfl, hid, h₁⟩ := hfound
      refine Safe.attempt ((ih hrest h₁).mono fun result w₂ hall => ?_)
      cases result with
      | error e => exact hall
      | ok rest =>
        obtain ⟨hmap, h₂⟩ := hall
        refine ⟨by simp [hid, hmap], h₂.mono fun r' hr' => ?_⟩
        simp only [Option.toList_some, List.cons_append, List.nil_append, List.mem_cons,
          List.mem_append] at hr' ⊢
        tauto

/-- What a call leaves. -/
def Ended (layout : IndexedLayout V R) (i : ℕ) :
    RecordCall R → Except Exn (RecordAnswer R) → RecordWorld V R → Prop
  | .save r, .ok .saved, w => layout.trackingId r ∈ index layout w.state
  | .list, .ok (.listed rs), w => Lists layout i rs w.log
  | .list, .error _, w => Failed i .list w.log
  | _, _, _ => True

theorem listAll_eq {σ : Sig} (client : StateClient σ V) (layout : IndexedLayout V R) :
    listAll client layout = (client.getState layout.indexKey).attempt
      (StateClient.afterRead layout.readIndexError fun response =>
        getAll client layout (IndexedState.ids layout response.1)) := by
  rw [listAll, readIndex, client.read_bind, Prog.bind_eq, Prog.attempt_assoc]
  refine Prog.attempt_congr fun reply => ?_
  rcases reply with e | ⟨data, etag⟩
  · rfl
  · cases data <;> rfl

theorem safe_listAll (law : layout.Lawful) :
    SafeCall layout i .list ((recordClients layout).body .list) (Ended layout i .list) w := by
  show SafeCall layout i .list ((listAll (storeClient V) layout).attempt _) _ _
  refine Safe.attempt ?_
  rw [listAll_eq]
  refine safe_get (fun w₁ _ hkept _ => ?_) fun w₁ hfailed => hfailed
  obtain ⟨⟨d, hmirrors, -⟩, hreturned⟩ := hkept
  have hreading : Reading layout i (index layout w₁.state) [] w₁ := by
    refine ⟨fun _ h => h, fun t ht => ?_, fun r hr => absurd hr List.not_mem_nil,
      fun r hr => absurd hr List.not_mem_nil⟩
    obtain ⟨j, r, rfl, hsub⟩ := ht
    exact hreturned j r (hsub.subset (List.mem_cons_of_mem _ (List.mem_singleton_self _)))
  refine (safe_findAll law (fun _ h => h) hreading).mono fun result w₂ hall => ?_
  cases result with
  | error e => exact hall
  | ok rs =>
    obtain ⟨hmap, hread⟩ := hall
    rw [List.append_nil] at hread
    refine ⟨fun t ht => ?_, ?_, hread.origin, hread.held⟩
    · rw [hmap]
      exact hread.complete t ht
    · rw [hmap]
      exact hmirrors.nodup

theorem safe_save (law : layout.Lawful) (hr : layout.trackingId r ≠ "index")
    (hinvoked : .invoke i (.save r) ∈ w.log) :
    SafeCall layout i (.save r) ((recordClients layout).body (.save r)) (Ended layout i (.save r)) w := by
  show SafeCall layout i (.save r) ((saveLoop (storeClient V) layout r maxRetries).attempt _) _ _
  refine Safe.attempt ((safe_saveAttempts law hr maxRetries hinvoked).mono fun result w₁ hindexed => ?_)
  cases result with
  | error e => trivial
  | ok u => exact hindexed rfl

end Calls

/-! ## In every interleaving -/

section Runs
variable {V R : Type} {layout : IndexedLayout V R}

theorem Ended.later {i : ℕ} {call : RecordCall R} {result : Except Exn (RecordAnswer R)}
    {w w₁ : RecordWorld V R}
    (h : Ended layout i call result w) (hlater : Later layout i w w₁) : Ended layout i call result w₁ := by
  rcases call with r | _ <;> rcases result with e | _ | rs <;> try trivial
  · exact hlater.index h
  · obtain ⟨k, e, he⟩ := h
    exact ⟨k, e, hlater.mem he⟩
  · obtain ⟨hcomplete, hnodup, horigin, hheld⟩ := h
    refine ⟨fun t ht => hcomplete t (ht.earlier hlater), hnodup, fun r hr => ?_,
      fun r hr => (hheld r hr).later hlater⟩
    obtain ⟨j, hj⟩ := horigin r hr
    exact ⟨j, hlater.mem hj⟩

/-- The proof outline of the calls. -/
def recordOutline (law : layout.Lawful) : Outline (recordClients layout) (AnyReception V R) where
  I := Recorded layout
  R := Later layout
  Post := Ended layout
  refl _ := Later.refl
  trans _ _ _ _ := Later.trans
  post_stable hlater _ h := h.later hlater
  invoke := by
    intro w n call s hI hfresh hs
    have hidle (s' : Store V) (hs' : s' = w.state) : Recorded layout ⟨s', .invoke n call :: w.log⟩ ∧
        ∀ j, j ≠ n → Later layout j w ⟨s', .invoke n call :: w.log⟩ := by
      subst hs'
      refine ⟨hI.idle fun _ _ h => (by cases h), fun j hj => .idle fun call' h => ?_⟩
      cases h
      exact hj rfl
    cases call with
    | save r =>
      simp only [recordClients] at hs
      split_ifs at hs with hr
      obtain ⟨hkept, hlater⟩ := hidle s (Option.some.inj hs).symm
      exact ⟨hkept, hlater, safe_save law hr List.mem_cons_self⟩
    | list =>
      obtain ⟨hkept, hlater⟩ := hidle s (Option.some.inj hs).symm
      exact ⟨hkept, hlater, safe_listAll law⟩
  respond := by
    intro w i call result hI h
    refine ⟨hI.idle fun j r heq => ?_, fun j => .idle fun _ h => by cases h⟩
    cases heq
    exact h

theorem ended_of_reach (law : layout.Lawful) {cfg : RecordConfig V R}
    (hr : (recordClients layout).Reach (fun _ _ => True) (System.start .empty) cfg) {i : ℕ}
    {call : RecordCall R}
    {result : Except Exn (RecordAnswer R)} (hi : cfg.threads[i]? = some ⟨call, .done result⟩) :
    Ended layout i call result cfg.world :=
  ((recordOutline law).sound Recorded.empty hr.unconditional).threads i _ hi

/-- The listings of a configuration show what was saved before them, and fail only where one of their
reads did. -/
structure Complete (layout : IndexedLayout V R) (cfg : RecordConfig V R) : Prop where
  lists : ∀ (i : ℕ) rs, cfg.threads[i]? = some ⟨.list, .done (.ok (.listed rs))⟩ →
    Lists layout i rs cfg.world.log
  failed : ∀ (i : ℕ) e, cfg.threads[i]? = some ⟨.list, .done (.error e)⟩ → Failed i .list cfg.world.log

theorem complete_of_reach (law : layout.Lawful) {cfg : RecordConfig V R}
    (hr : (recordClients layout).Reach (fun _ _ => True) (System.start .empty) cfg) : Complete layout cfg :=
  ⟨fun _ _ hi => ended_of_reach law hr hi, fun _ _ hi => ended_of_reach law hr hi⟩

end Runs

end IndexedState

open IndexedState

/-- **Listings are complete**: in every interleaving of saves and listings, with any failures, a listing
of the payments or of the approvals shows every id whose save returned before the listing began, every id
once, with a record that a save was called with and that the store held when the listing read the id; and
it fails only where one of its own reads did. -/
theorem listings_complete (payments : RecordConfig PaymentValue PaymentRecord)
    (approvals : RecordConfig ApprovalValue PendingApproval)
    (hpayments : (recordClients DaprStatePaymentRepository.layout).Reach
      (fun _ _ => True) (System.start .empty) payments)
    (happrovals : (recordClients DaprStateApprovalRepository.layout).Reach
      (fun _ _ => True) (System.start .empty) approvals) :
    Complete DaprStatePaymentRepository.layout payments ∧
      Complete DaprStateApprovalRepository.layout approvals :=
  ⟨complete_of_reach DaprStatePaymentRepository.lawful hpayments,
    complete_of_reach DaprStateApprovalRepository.lawful happrovals⟩

/-- A save, and a listing during which another record is saved. -/
def overtakenListing {R : Type} (r r' : R) : List (Action Reception (RecordCall R)) :=
  [.invoke (.save r), .step 0 .serve, .step 0 .serve, .respond 0, .invoke .list,
    .invoke (.save r'), .step 2 .serve, .step 1 .serve, .step 2 .lose, .step 1 .serve, .respond 1]

def overtakenPayments : RecordConfig PaymentValue PaymentRecord :=
  ((recordClients DaprStatePaymentRepository.layout).runActions (fun _ _ => true)
    (overtakenListing (.ofReservation laptop ⟨.autoApprove, "", [], "t-1"⟩)
      (.ofReservation laptop ⟨.autoApprove, "", [], "t-2"⟩)) (System.start .empty)).get (by decide)

def overtakenApprovals : RecordConfig ApprovalValue PendingApproval :=
  ((recordClients DaprStateApprovalRepository.layout).runActions (fun _ _ => true)
    (overtakenListing (.ofEvent ⟨laptop, ⟨.humanReview, "", [], "t-1"⟩, none⟩)
      (.ofEvent ⟨laptop, ⟨.humanReview, "", [], "t-2"⟩, none⟩)) (System.start .empty)).get (by decide)

theorem overtaken_complete : ∃ rs : List PendingApproval,
    overtakenApprovals.threads[1]?.map (·.status) = some (.done (.ok (.listed rs))) ∧
      "t-1" ∈ rs.map DaprStateApprovalRepository.layout.trackingId := by
  obtain ⟨-, happrovals⟩ := listings_complete overtakenPayments overtakenApprovals
    (System.reach_of_runActions (fun _ _ _ => trivial) _ (Option.some_get _).symm)
    (System.reach_of_runActions (fun _ _ _ => trivial) _ (Option.some_get _).symm)
  have hlisted : overtakenApprovals.threads[1]? =
      some ⟨.list, .done (.ok (.listed [.ofEvent ⟨laptop, ⟨.humanReview, "", [], "t-1"⟩, none⟩]))⟩ := rfl
  refine ⟨_, rfl, (happrovals.lists 1 _ hlisted).complete "t-1"
    ⟨0, .ofEvent ⟨laptop, ⟨.humanReview, "", [], "t-1"⟩, none⟩, rfl, ?_⟩⟩
  exact .cons _
    (.cons _ (.cons _ (.cons _ (.cons _ (.cons _ (.cons_cons _ (.cons_cons _ (List.nil_sublist _))))))))

end ApprovalFlow
