import ApprovalFlow.Approval.DaprState

/-!
# Concurrent approvals

Any number of calls of the approval service on one Dapr store, interleaved at every await. The etag that
a save checks is that of the index; it does not protect the record.

* `stored`: the resolution that is stored for an item; `announced`: the events published for it.
* `since`: what happened since a thread last read the item; `Unovertaken`: no save of the item commits
  after a resolution that was saved since its thread read the item.
* `resolved_once`: then at most one event is published, with the stored resolution, which stays;
  `approved_and_rejected`: two approvers.
-/

namespace ApprovalFlow.Approval
open Async Versioned DaprStateApprovalRepository

abbrev ApprovalEvent := Event approvalDaprSig Exn (Option PendingApproval) ApprovalCall

abbrev ApprovalWorld := World approvalDaprSig Exn (Option PendingApproval) ApprovalDapr ApprovalCall

/-- The resolution that is stored for an item. -/
def stored (t : String) (s : Store ApprovalValue) : Option ApprovalResolution :=
  match s.value (layout.key t) with
  | some (.record a) => a.status.resolution
  | _ => none

/-- The events that were published for an item. -/
def announced (t : String) (s : ApprovalDapr) : List ApprovalCompletedEvent :=
  s.published.filter fun e => e.decision.correlationId = t

/-! ## Who resolved and who announced -/

/-- The write records a resolution of the item. -/
def recordsResolution (t : String) (u : Write ApprovalValue) : Bool :=
  u.key == layout.key t && match u.data with
    | .record a => a.status.resolution.isSome
    | .index _ => false

def resolves (t : String) : ApprovalEvent → Bool
  | .perform _ _ (.state (.transact ws)) (.ok _) => ws.any (recordsResolution t)
  | _ => false

def announces (t : String) : ApprovalEvent → Bool
  | .perform _ _ (.publishEvent e) (.ok _) => e.decision.correlationId = t
  | _ => false

/-- Thread `i` reads the item. -/
def reads (t : String) (i : Nat) : ApprovalEvent → Bool
  | .perform j _ (.state (.get k)) _ => j == i && k == layout.key t
  | _ => false

/-- What happened since thread `i` last read the item. -/
def since (t : String) (i : Nat) : List ApprovalEvent → List ApprovalEvent
  | [] => []
  | e :: log => if reads t i e then [] else e :: since t i log

/-- Where a save of the item commits, no resolution of it was saved since its thread read it. -/
def Unovertaken (t : String) :
    StepCond approvalDaprSig Exn (Option PendingApproval) ApprovalDapr Unit ApprovalCall :=
  fun w i _ o _ => ∀ ws, o = .state (.transact ws) → w.state.store.Current ws →
    (∃ u ∈ ws, u.key = layout.key t) → (since t i w.log).any (resolves t) = false

/-- The threads that recorded a resolution. -/
def resolvers (t : String) (log : List ApprovalEvent) : List Nat := (log.filter (resolves t)).map Event.tid

/-- The threads that announced one. -/
def announcers (t : String) (log : List ApprovalEvent) : List Nat :=
  (log.filter (announces t)).map Event.tid

/-- Records are stored under their ids; the item has one resolver if it is resolved and none otherwise;
what was announced is what is stored, once, by the resolver. -/
structure Once (t : String) (w : ApprovalWorld) : Prop where
  keyed : ∀ t' a, w.state.store.value (layout.key t') = some (.record a) → a.trackingId = t' ∧
    a.decision.correlationId = t'
  resolver : (resolvers t w.log).length = if (stored t w.state.store).isSome then 1 else 0
  announcer : announcers t w.log ⊆ resolvers t w.log
  nodup : (announcers t w.log).Nodup
  agree : ∀ e ∈ announced t w.state, stored t w.state.store = some e.resolution
  count : (announced t w.state).length = (announcers t w.log).length

/-- Thread `i` read the item before anybody resolved it. -/
def ReadOpen (t : String) (i : Nat) (log : List ApprovalEvent) : Prop :=
  resolvers t (since t i log) = resolvers t log

/-- Other threads take no part of thread `i`, and a stored resolution stays. -/
structure Unmoved (t : String) (i : Nat) (w w₁ : ApprovalWorld) : Prop where
  resolver : i ∈ resolvers t w₁.log ↔ i ∈ resolvers t w.log
  announcer : i ∈ announcers t w₁.log ↔ i ∈ announcers t w.log
  stored : ∀ r, stored t w.state.store = some r → Approval.stored t w₁.state.store = some r
  readOpen : ReadOpen t i w.log → ReadOpen t i w₁.log

section Steps
variable {t : String} {w : ApprovalWorld} {i : Nat} {c : ApprovalCall}

theorem Unmoved.refl (i : Nat) (w : ApprovalWorld) : Unmoved t i w w := ⟨Iff.rfl, Iff.rfl, fun _ h => h, id⟩

theorem Unmoved.trans {w₁ w₂ : ApprovalWorld} (h : Unmoved t i w w₁)
    (h' : Unmoved t i w₁ w₂) : Unmoved t i w w₂ :=
  ⟨h'.resolver.trans h.resolver, h'.announcer.trans h.announcer, fun r hr => h'.stored r (h.stored r hr),
    h'.readOpen ∘ h.readOpen⟩

theorem resolvers_cons_false {e : ApprovalEvent} (h : resolves t e = false) (log : List ApprovalEvent) :
    resolvers t (e :: log) = resolvers t log := by
  rw [resolvers, List.filter_cons_of_neg (by simp [h]), resolvers]

theorem resolvers_cons_true {e : ApprovalEvent} (h : resolves t e = true) (log : List ApprovalEvent) :
    resolvers t (e :: log) = e.tid :: resolvers t log := by
  rw [resolvers, List.filter_cons_of_pos h, List.map_cons, resolvers]

theorem announcers_cons_false {e : ApprovalEvent} (h : announces t e = false) (log : List ApprovalEvent) :
    announcers t (e :: log) = announcers t log := by
  rw [announcers, List.filter_cons_of_neg (by simp [h]), announcers]

theorem announcers_cons_true {e : ApprovalEvent} (h : announces t e = true) (log : List ApprovalEvent) :
    announcers t (e :: log) = e.tid :: announcers t log := by
  rw [announcers, List.filter_cons_of_pos h, List.map_cons, announcers]

theorem reads_of_ne {e : ApprovalEvent} {j : Nat} (h : j ≠ e.tid) : reads t j e = false := by
  match e with
  | .perform k _ (.state (.get key)) _ =>
    have hk : (k == j) = false := beq_eq_false_iff_ne.mpr (Ne.symm h)
    rw [reads, hk, Bool.false_and]
  | .perform _ _ (.state (.transact _)) _ => rfl
  | .perform _ _ (.publishEvent _) _ => rfl
  | .invoke _ _ => rfl
  | .respond _ _ _ => rfl

theorem ReadOpen.cons {log : List ApprovalEvent} (h : ReadOpen t i log) {e : ApprovalEvent}
    (he : reads t i e = false) : ReadOpen t i (e :: log) := by
  show resolvers t (if reads t i e then [] else e :: since t i log) = _
  rw [he, if_neg Bool.false_ne_true]
  cases hr : resolves t e with
  | false => rw [resolvers_cons_false hr, resolvers_cons_false hr, h]
  | true => rw [resolvers_cons_true hr, resolvers_cons_true hr, h]

theorem readOpen_read {log : List ApprovalEvent} {e : ApprovalEvent} (he : reads t i e = true)
    (hnone : resolvers t (e :: log) = []) : ReadOpen t i (e :: log) := by
  show resolvers t (if reads t i e then [] else e :: since t i log) = _
  rw [if_pos he, hnone]
  rfl

theorem Once.elsewhere (h : Once t w) {s : ApprovalDapr} {e : ApprovalEvent}
    (hkeyed : ∀ t' a, s.store.value (layout.key t') = some (.record a) →
      a.trackingId = t' ∧ a.decision.correlationId = t')
    (hstored : stored t s.store = stored t w.state.store) (hannounced : announced t s = announced t w.state)
    (hr : resolves t e = false) (ha : announces t e = false) : Once t ⟨s, e :: w.log⟩ := by
  obtain ⟨-, hresolver, hsub, hnodup, hagree, hcount⟩ := h
  constructor
  · exact hkeyed
  · rwa [resolvers_cons_false hr, hstored]
  · rwa [resolvers_cons_false hr, announcers_cons_false ha]
  · rwa [announcers_cons_false ha]
  · rwa [hannounced, hstored]
  · rwa [hannounced, announcers_cons_false ha]

theorem Once.idle (h : Once t w) {e : ApprovalEvent} (hr : resolves t e = false)
    (ha : announces t e = false) : Once t ⟨w.state, e :: w.log⟩ := h.elsewhere h.keyed rfl rfl hr ha

theorem Once.untouched (h : Once t w) (hnone : stored t w.state.store = none) :
    resolvers t w.log = [] ∧ announcers t w.log = [] ∧ announced t w.state = [] := by
  have hres : resolvers t w.log = [] := by
    have hlen := h.resolver
    rw [hnone] at hlen
    exact List.length_eq_zero_iff.mp hlen
  have hann : announcers t w.log = [] := List.subset_nil.mp (hres ▸ h.announcer)
  refine ⟨hres, hann, ?_⟩
  rw [← List.length_eq_zero_iff, h.count, hann]
  rfl

theorem Once.open_of_since (h : Once t w) (hopen : ReadOpen t i w.log)
    (hsince : (since t i w.log).any (resolves t) = false) : stored t w.state.store = none := by
  have hfilter : (since t i w.log).filter (resolves t) = [] :=
    List.filter_eq_nil_iff.mpr fun e he => by simpa using List.any_eq_false.mp hsince e he
  have hnobody : resolvers t w.log = [] := by
    rw [← hopen, resolvers, hfilter, List.map_nil]
  have hlen := h.resolver
  rw [hnobody] at hlen
  by_contra hsome
  rw [if_pos (Option.isSome_iff_ne_none.mpr hsome)] at hlen
  cases hlen

theorem Unmoved.idle {j : Nat} {s : ApprovalDapr} (hs : ∀ r, Approval.stored t w.state.store = some r →
      Approval.stored t s.store = some r) {e : ApprovalEvent} (hr : resolves t e = false)
        (ha : announces t e = false)
    (hread : reads t j e = false) : Unmoved t j w ⟨s, e :: w.log⟩ := by
  constructor
  · rw [resolvers_cons_false hr]
  · rw [announcers_cons_false ha]
  · exact hs
  · exact fun h => h.cons hread

/-! ### Commits -/

theorem stored_save (ht : t ≠ "index") (s : Store ApprovalValue) (u : PendingApproval)
    (ids : List String) (etag : Nat) : stored t (s.puts (IndexedState.writes layout u ids etag)) =
      if t = u.trackingId then u.status.resolution else stored t s := by
  unfold stored
  rw [IndexedState.value_writes, if_neg ht]
  by_cases hid : t = u.trackingId
  · have hid' : t = layout.trackingId u := hid
    rw [if_pos hid, if_pos hid']
    rfl
  · have hid' : ¬ t = layout.trackingId u := hid
    rw [if_neg hid, if_neg hid']

theorem keyed_save {s : Store ApprovalValue} (hs : ∀ t' a, s.value (layout.key t') = some (.record a) →
      a.trackingId = t' ∧ a.decision.correlationId = t') {u : PendingApproval}
    (hu : u.decision.correlationId = u.trackingId) (ids : List String) (etag : Nat) (t' : String)
    (a : PendingApproval)
    (ha : (s.puts (IndexedState.writes layout u ids etag)).value (layout.key t') = some (.record a)) :
    a.trackingId = t' ∧ a.decision.correlationId = t' := by
  rw [IndexedState.value_writes] at ha
  split_ifs at ha with hindex hid
  · cases ha
  · have hid : t' = u.trackingId := hid
    cases ha
    exact ⟨hid.symm, hu.trans hid.symm⟩
  · exact hs t' a ha

theorem resolves_save (i : Nat) (c : ApprovalCall) (u : PendingApproval) (ids : List String) (etag : Nat) :
    resolves t (.perform i c (.state (.transact (IndexedState.writes layout u ids etag)))
      (.ok ()) : ApprovalEvent) = (decide (u.trackingId = t) && u.status.resolution.isSome) := by
  have hkey : (layout.key u.trackingId == layout.key t) = decide (u.trackingId = t) := by
    by_cases h : u.trackingId = t
    · rw [decide_eq_true h]
      exact beq_iff_eq.mpr (IndexedState.key_inj.mpr h)
    · rw [decide_eq_false h]
      exact beq_eq_false_iff_ne.mpr fun heq => h (IndexedState.key_inj.mp heq)
  show ((layout.key u.trackingId == layout.key t && u.status.resolution.isSome) ||
    ((layout.indexKey == layout.key t && false) || false)) = _
  rw [hkey, Bool.and_false, Bool.or_false, Bool.or_false]

theorem Once.resolve (h : Once t w) (ht : t ≠ "index") {u : PendingApproval}
    {ids : List String} {etag : Nat}
    (hu : u.decision.correlationId = u.trackingId) (hid : u.trackingId = t)
    (hnone : stored t w.state.store = none) :
    let w₁ : ApprovalWorld :=
      ⟨⟨w.state.store.puts (IndexedState.writes layout u ids etag), w.state.published⟩,
      .perform i c (.state (.transact (IndexedState.writes layout u ids etag))) (.ok ()) :: w.log⟩
    Once t w₁ ∧ (∀ j, j ≠ i → Unmoved t j w w₁) ∧
      (u.status.resolution.isSome = true → i ∈ resolvers t w₁.log) := by
  intro w₁
  obtain ⟨hres, hann, hpub⟩ := h.untouched hnone
  have hpub₁ : announced t w₁.state = [] := hpub
  have hann₁ : announcers t w₁.log = [] := (announcers_cons_false rfl w.log).trans hann
  have hstored : stored t w₁.state.store = u.status.resolution :=
    (stored_save ht _ _ _ _).trans (if_pos hid.symm)
  have hres₁ : resolvers t w₁.log = if u.status.resolution.isSome then [i] else [] := by
    have hresolves := resolves_save (t := t) i c u ids etag
    rw [hid, decide_eq_true rfl, Bool.true_and] at hresolves
    show resolvers t (_ :: w.log) = _
    by_cases hsome : u.status.resolution.isSome = true
    · rw [resolvers_cons_true (hresolves.trans hsome), hres, if_pos hsome]
      rfl
    · rw [resolvers_cons_false (hresolves.trans (Bool.not_eq_true _ ▸ hsome)), hres, if_neg hsome]
  refine ⟨⟨keyed_save h.keyed hu ids etag, ?_, ?_, ?_, ?_, ?_⟩,
    fun j hj => ⟨?_, ?_, ?_, fun h => h.cons rfl⟩, fun hsome => ?_⟩
  · rw [hres₁, hstored]
    split_ifs <;> rfl
  · rw [hann₁]
    exact List.nil_subset _
  · rw [hann₁]
    exact List.nodup_nil
  · rw [hpub₁]
    intro e he
    cases he
  · rw [hpub₁, hann₁]
    rfl
  · rw [hres₁, hres]
    split_ifs <;> simp [hj]
  · rw [hann₁, hann]
  · intro r hr
    rw [hnone] at hr
    cases hr
  · rw [hres₁, if_pos hsome]
    exact List.mem_singleton_self i

theorem Once.commit (h : Once t w) (ht : t ≠ "index") {u : PendingApproval} {ids : List String} {etag : Nat}
    (hu : u.decision.correlationId = u.trackingId)
    (hopen : u.trackingId = t → stored t w.state.store = none) :
    let w₁ : ApprovalWorld :=
      ⟨⟨w.state.store.puts (IndexedState.writes layout u ids etag), w.state.published⟩,
      .perform i c (.state (.transact (IndexedState.writes layout u ids etag))) (.ok ()) :: w.log⟩
    Once t w₁ ∧ (∀ j, j ≠ i → Unmoved t j w w₁) ∧ announcers t w₁.log = announcers t w.log ∧
      (u.trackingId = t → stored t w₁.state.store = u.status.resolution ∧
        (u.status.resolution.isSome = true → i ∈ resolvers t w₁.log)) := by
  intro w₁
  have hstored : stored t w₁.state.store = if t = u.trackingId then u.status.resolution
      else stored t w.state.store :=
    stored_save ht _ _ _ _
  have hannounce : announcers t w₁.log = announcers t w.log := announcers_cons_false rfl w.log
  by_cases hid : u.trackingId = t
  · rw [if_pos hid.symm] at hstored
    have hresolve : Once t w₁ ∧ (∀ j, j ≠ i → Unmoved t j w w₁) ∧
        (u.status.resolution.isSome = true → i ∈ resolvers t w₁.log) := h.resolve ht hu hid (hopen hid)
    obtain ⟨honce, hunmoved, hmem⟩ := hresolve
    exact ⟨honce, hunmoved, hannounce, fun _ => ⟨hstored, hmem⟩⟩
  · rw [if_neg (Ne.symm hid)] at hstored
    have hresolves := resolves_save (t := t) i c u ids etag
    rw [decide_eq_false hid, Bool.false_and] at hresolves
    refine ⟨h.elsewhere (keyed_save h.keyed hu ids etag) hstored rfl hresolves rfl,
      fun j _ => ?_, hannounce, fun heq => absurd heq hid⟩
    exact Unmoved.idle (fun r hr => hstored.trans hr) hresolves rfl rfl

theorem Once.publish (h : Once t w) {e : ApprovalCompletedEvent}
    (he : e.decision.correlationId = t →
      i ∈ resolvers t w.log ∧ i ∉ announcers t w.log ∧ stored t w.state.store = some e.resolution) :
    let w₁ : ApprovalWorld :=
      ⟨⟨w.state.store, w.state.published ++ [e]⟩, .perform i c (.publishEvent e) (.ok ()) :: w.log⟩
    Once t w₁ ∧ ∀ j, j ≠ i → Unmoved t j w w₁ := by
  intro w₁
  have hpub₁ : announced t w₁.state = announced t w.state ++ if e.decision.correlationId = t then [e]
      else [] := by
    show (w.state.published ++ [e]).filter _ = _
    rw [List.filter_append, announced, List.filter_singleton]
    by_cases hid : e.decision.correlationId = t <;> simp [hid]
  have hevent : announces t (.perform i c (.publishEvent e) (.ok ()) : ApprovalEvent) =
      decide (e.decision.correlationId = t) := rfl
  by_cases hid : e.decision.correlationId = t
  · obtain ⟨hmem, hfresh, hstored⟩ := he hid
    rw [decide_eq_true hid] at hevent
    rw [if_pos hid] at hpub₁
    have hres₁ : resolvers t w₁.log = resolvers t w.log := resolvers_cons_false rfl w.log
    have hann₁ : announcers t w₁.log = i :: announcers t w.log := announcers_cons_true hevent w.log
    refine ⟨⟨h.keyed, ?_, ?_, ?_, ?_, ?_⟩, fun j hj => ⟨?_, ?_, fun _ hr => hr, fun h => h.cons rfl⟩⟩
    · rw [hres₁]
      exact h.resolver
    · rw [hres₁, hann₁]
      exact List.cons_subset.mpr ⟨hmem, h.announcer⟩
    · rw [hann₁]
      exact List.nodup_cons.mpr ⟨hfresh, h.nodup⟩
    · intro e' he'
      rw [hpub₁] at he'
      rcases List.mem_append.mp he' with he' | he'
      · exact h.agree e' he'
      · rw [List.mem_singleton] at he'
        rw [he']
        exact hstored
    · rw [hpub₁, hann₁, List.length_append, List.length_cons, h.count]
      rfl
    · rw [hres₁]
    · rw [hann₁, List.mem_cons]
      exact or_iff_right hj
  · rw [decide_eq_false hid] at hevent
    rw [if_neg hid, List.append_nil] at hpub₁
    refine ⟨h.elsewhere (s := w₁.state) h.keyed rfl hpub₁ rfl hevent, fun j _ => ?_⟩
    exact Unmoved.idle (w := w) (s := w₁.state) (fun _ hr => hr) rfl hevent rfl

/-! ### A thread -/

abbrev SafeCall {β : Type} (t : String) (i : Nat) (c : ApprovalCall) (p : Prog approvalDaprSig Exn β)
    (Φ : Except Exn β → ApprovalWorld → Prop) (w : ApprovalWorld) : Prop :=
  Safe approvalClients (Unovertaken t) (Once t) (Unmoved t) i c p Φ w

/-- Thread `i` took no part so far. -/
def Idle (t : String) (i : Nat) (w : ApprovalWorld) : Prop := i ∉ resolvers t w.log ∧ i ∉ announcers t w.log

/-- Thread `i` saved `u`, and may announce what that resolved. -/
def Saved (t : String) (i : Nat) (u : PendingApproval) (w : ApprovalWorld) : Prop :=
  u.trackingId = t → ∀ r, u.status.resolution = some r →
    i ∈ resolvers t w.log ∧ i ∉ announcers t w.log ∧ stored t w.state.store = some r

theorem Idle.unmoved {w₁ : ApprovalWorld} (h : Idle t i w) (hR : Unmoved t i w w₁) : Idle t i w₁ :=
  ⟨fun hm => h.1 (hR.resolver.mp hm), fun hm => h.2 (hR.announcer.mp hm)⟩

theorem Saved.unmoved {w₁ : ApprovalWorld} {u : PendingApproval} (h : Saved t i u w)
    (hR : Unmoved t i w w₁) : Saved t i u w₁ := by
  intro hid r hr
  obtain ⟨h1, h2, h3⟩ := h hid r hr
  exact ⟨hR.resolver.mpr h1, fun hm => h2 (hR.announcer.mp hm), hR.stored r h3⟩

theorem Idle.idle (h : Idle t i w) {s : ApprovalDapr} {e : ApprovalEvent} (hr : resolves t e = false)
    (ha : announces t e = false) : Idle t i ⟨s, e :: w.log⟩ := by
  constructor
  · rw [resolvers_cons_false hr]
    exact h.1
  · rw [announcers_cons_false ha]
    exact h.2

theorem safe_getState {β : Type} {k : String}
    {f : Except Exn (Option ApprovalValue × Nat) → Prog approvalDaprSig Exn β}
    {Φ : Except Exn β → ApprovalWorld → Prop} (hw : Idle t i w)
    (h : ∀ w₁, Idle t i w₁ → Once t w₁ →
      (k = layout.key t → stored t w₁.state.store = none → ReadOpen t i w₁.log) →
      (k ≠ layout.key t → ReadOpen t i w.log → ReadOpen t i w₁.log) →
      SafeCall t i c (f (.ok (w₁.state.store.get k))) Φ w₁) :
    SafeCall t i c ((approvalStateClient.getState k).attempt f) Φ w := by
  have hop : (approvalStateClient.getState k).attempt f = .await (.state (.get k)) f :=
    Prog.op_attempt (σ := approvalDaprSig) (.state (.get k)) f
  rw [hop]
  intro w₁ hR hI _ _
  have honce :
      Once t ⟨w₁.state, .perform i c (.state (.get k)) (.ok (w₁.state.store.get k)) :: w₁.log⟩ :=
        hI.idle rfl rfl
  refine ⟨honce, fun j hj => Unmoved.idle (fun _ hr => hr) rfl rfl (reads_of_ne hj),
    h _ ((hw.unmoved hR).idle rfl rfl) honce (fun hk hnone => ?_) fun hk hopen => ?_⟩
  · exact readOpen_read (by simp [reads, hk]) (honce.untouched hnone).1
  · exact (hR.readOpen hopen).cons (by simp [reads, hk])

/-- **A save**, by induction on the attempts that are left. -/
theorem safe_saveLoop (ht : t ≠ "index") {u : PendingApproval}
    (hu : u.decision.correlationId = u.trackingId)
    {Φ : Except Exn Unit → ApprovalWorld → Prop} (hok : ∀ w₁, Saved t i u w₁ → Φ (.ok ()) w₁)
    (herror : ∀ e w₁, Φ (.error e) w₁) (hw : Idle t i w)
    (hopen : u.trackingId = t → ReadOpen t i w.log) (n : Nat) :
    SafeCall t i c (IndexedState.saveLoop approvalStateClient layout u n) Φ w := by
  induction n generalizing w with
  | zero => exact herror _ w
  | succ n ih =>
    rw [IndexedState.saveLoop_succ]
    refine safe_getState hw fun w₁ hidle _ _ hindex => ?_
    have hopen₁ (hid : u.trackingId = t) : ReadOpen t i w₁.log :=
      hindex (fun h => ht (IndexedState.key_inj.mp h).symm) (hopen hid)
    simp only [StateClient.afterRead]
    generalize hws : IndexedState.writes layout u
      (IndexedState.ids layout (w₁.state.store.get layout.indexKey).1)
      (w₁.state.store.get layout.indexKey).2 = ws
    have hop (f : Except Exn Unit → Prog approvalDaprSig Exn Unit) :
        (approvalStateClient.executeStateTransaction ws).attempt f = .await (.state (.transact ws)) f :=
      Prog.op_attempt (σ := approvalDaprSig) (.state (.transact ws)) f
    rw [hop]
    intro w₂ hR hI _ hcond
    have hidle₂ := hidle.unmoved hR
    by_cases hcurrent : w₂.state.store.Current ws
    · have hexec : approvalClients.exec () (.state (.transact ws)) w₂.state =
          (.ok (), ⟨w₂.state.store.puts ws, w₂.state.published⟩) := by
        simp only [approvalClients, ApprovalDapr.perform, Op.perform_current hcurrent]
      have hnone (hid : u.trackingId = t) : stored t w₂.state.store = none := by
        have hsince : (since t i w₂.log).any (resolves t) = false := by
          refine hcond ws rfl hcurrent ⟨⟨layout.key u.trackingId, .record u, none⟩, ?_,
            IndexedState.key_inj.mpr hid⟩
          rw [← hws]
          exact List.mem_cons_self
        exact hI.open_of_since (hR.readOpen (hopen₁ hid)) hsince
      simp only [World.performed, hexec]
      rw [← hws]
      obtain ⟨honce, hunmoved, hann, hsaved⟩ := hI.commit (i := i) (c := c) ht hu hnone
      refine ⟨honce, hunmoved, hok _ fun hid r hr => ?_⟩
      obtain ⟨hstored, hmem⟩ := hsaved hid
      refine ⟨hmem (by rw [hr]; rfl), ?_, hstored.trans hr⟩
      rw [hann]
      exact hidle₂.2
    · have hexec : approvalClients.exec () (.state (.transact ws)) w₂.state =
          (.error (.rpcError ""), w₂.state) := by
        simp only [approvalClients, ApprovalDapr.perform, Op.perform_stale hcurrent]
      simp only [World.performed, hexec]
      exact ⟨hI.idle rfl rfl, fun j _ => Unmoved.idle (fun _ hr => hr) rfl rfl rfl,
        ih (hidle₂.idle rfl rfl) fun hid =>
        (hR.readOpen (hopen₁ hid)).cons rfl⟩

theorem safe_publish {β : Type} {u : PendingApproval} (hu : u.decision.correlationId = u.trackingId)
    {r : ApprovalResolution} (hr : u.status.resolution = some r)
    {f : Except Exn Unit → Prog approvalDaprSig Exn β}
    {Φ : Except Exn β → ApprovalWorld → Prop} (hw : Saved t i u w)
    (h : ∀ reply w₁, SafeCall t i c (f reply) Φ w₁) :
    SafeCall t i c ((daprApproval.publisher.publish (u.event r)).attempt f) Φ w := by
  show SafeCall t i c (((@Prog.op approvalDaprSig Exn (.publishEvent (u.event r))).handle _).attempt f) Φ w
  rw [Prog.handle_eq, Prog.attempt_assoc, Prog.op_attempt]
  intro w₁ hR hI _ _
  obtain ⟨honce, hunmoved⟩ := hI.publish (i := i) (c := c) (e := u.event r) fun hid =>
    hw.unmoved hR (hu.symm.trans hid) r hr
  exact ⟨honce, hunmoved, h (.ok ()) _⟩

theorem plan_keyed {a? : Option PendingApproval} {u : PendingApproval}
    {announce : Option ApprovalResolution} (h : c.plan a? = .write u announce)
    (hkeyed : ∀ a, a? = some a → a.trackingId = c.trackingId ∧ a.decision.correlationId = c.trackingId) :
    u.trackingId = c.trackingId ∧ u.decision.correlationId = c.trackingId ∧
      announce = u.status.resolution := by
  obtain ⟨hannounce, hu⟩ := ApprovalCall.plan_write h
  rcases hu with ⟨e, rfl, -, rfl⟩ | ⟨a, ha, -, hu⟩
  · exact ⟨rfl, rfl, hannounce⟩
  · rw [hu]
    exact ⟨(hkeyed a ha).1, (hkeyed a ha).2, hannounce.trans (by rw [hu])⟩

theorem safe_call (ht : t ≠ "index") (hw : Idle t i w) :
    SafeCall t i c (daprApproval.call c) (fun _ _ => True) w := by
  rw [ApprovalService.call_eq]
  by_cases hignored : c.ignored = true
  · rw [if_pos hignored]
    trivial
  · rw [if_neg hignored]
    show SafeCall t i c ((IndexedState.get approvalStateClient layout c.trackingId).attempt _) _ w
    rw [IndexedState.get_eq, Prog.attempt_assoc]
    refine safe_getState hw fun w₁ hidle honce hread _ => ?_
    have hfollow (a? : Option PendingApproval)
        (hkeyed : ∀ a, a? = some a → a.trackingId = c.trackingId ∧ a.decision.correlationId = c.trackingId)
        (hstored : stored c.trackingId w₁.state.store = a?.bind (·.status.resolution)) :
        SafeCall t i c (daprApproval.follow c (c.plan a?)) (fun _ _ => True) w₁ := by
      cases hplan : c.plan a? with
      | stop r => cases r <;> trivial
      | write u announce =>
        obtain ⟨hid, hdec, hannounce⟩ := plan_keyed hplan hkeyed
        have hu : u.decision.correlationId = u.trackingId := hdec.trans hid.symm
        have hreadOpen (hut : u.trackingId = t) : ReadOpen t i w₁.log := by
          have hct : c.trackingId = t := hid.symm.trans hut
          refine hread (congrArg layout.key hct) ?_
          rw [← hct, hstored]
          exact ApprovalCall.plan_open hplan
        refine Safe.attempt (safe_saveLoop ht hu (fun w₂ hsaved => ?_)
          (fun e w₂ => trivial) hidle hreadOpen maxRetries)
        cases hr : u.status.resolution with
        | none =>
          rw [hannounce, hr]
          trivial
        | some r =>
          rw [hannounce, hr]
          refine safe_publish hu hr hsaved fun reply w₃ => ?_
          cases reply <;> trivial
    simp only [StateClient.afterRead, Store.get]
    cases hvalue : w₁.state.store.value (layout.key c.trackingId) with
    | none => exact hfollow none (fun a ha => by cases ha) (by rw [stored, hvalue]; rfl)
    | some data =>
      cases data with
      | index ids => trivial
      | record a =>
        refine hfollow (some a) (fun a' ha' => ?_) (by rw [stored, hvalue]; rfl)
        cases ha'
        exact honce.keyed _ a hvalue

end Steps

/-- The proof outline of the service. -/
def outline (t : String) (ht : t ≠ "index") : Outline approvalClients (Unovertaken t) where
  I := Once t
  R := Unmoved t
  Post _ _ _ _ := True
  refl := Unmoved.refl
  trans _ _ _ _ h h' := h.trans h'
  post_stable _ _ _ := trivial
  invoke := by
    intro w n c s hI hfresh hs
    cases hs
    have hidle : Idle t n w := by
      constructor
      · intro hm
        obtain ⟨e, he, htid⟩ := List.mem_map.mp hm
        exact absurd htid (Nat.ne_of_lt (hfresh e (List.mem_filter.mp he).1))
      · intro hm
        obtain ⟨e, he, htid⟩ := List.mem_map.mp hm
        exact absurd htid (Nat.ne_of_lt (hfresh e (List.mem_filter.mp he).1))
    exact ⟨hI.idle rfl rfl, fun j _ => Unmoved.idle (fun _ hr => hr) rfl rfl rfl,
      safe_call ht (hidle.idle rfl rfl)⟩
  respond := by
    intro w i c r hI _
    exact ⟨hI.idle rfl rfl, fun j => Unmoved.idle (fun _ hr => hr) rfl rfl rfl⟩

theorem once_start (t : String) : Once t ⟨ApprovalDapr.empty, []⟩ := by
  constructor
  · intro t' a ha
    cases ha
  · rfl
  · exact List.nil_subset _
  · exact List.nodup_nil
  · intro e he
    cases he
  · rfl

/-- **Resolved once**: in every interleaving in which no resolution of an item is saved between a call's
read of the item and the commit of its own save, at most one event is published for the item, its
resolution is the stored one, and a stored resolution stays. -/
theorem resolved_once (t : String) (ht : t ≠ "index")
    (cfg : Config approvalDaprSig Exn (Option PendingApproval) ApprovalDapr ApprovalCall)
    (hr : approvalClients.Reach (meets (Unovertaken t)) (System.start .empty) cfg) :
    (announced t cfg.world.state).length ≤ 1 ∧
      (∀ e ∈ announced t cfg.world.state, stored t cfg.world.state.store = some e.resolution) ∧
      ∀ cfg', approvalClients.Reach (meets (Unovertaken t)) cfg cfg' →
        ∀ r, stored t cfg.world.state.store = some r →
        stored t cfg'.world.state.store = some r := by
  have hholds := (outline t ht).sound (once_start t) hr
  have honce : Once t cfg.world := hholds.inv
  refine ⟨?_, honce.agree, fun cfg' hr' r hstored => ?_⟩
  · calc (announced t cfg.world.state).length = (announcers t cfg.world.log).length := honce.count
      _ ≤ (resolvers t cfg.world.log).length := (honce.nodup.subperm honce.announcer).length_le
      _ ≤ 1 := by rw [honce.resolver]; split_ifs <;> omega
  · have hsees : Unmoved t cfg'.threads.length cfg.world cfg'.world :=
      (hholds.observe hr').2 _ (Nat.le_refl _)
    exact hsees.stored r hstored

/-! ## Two runs -/

/-- A transaction that is not overtaken by a resolution. -/
def unovertaken (t : String)
    (cfg : Config approvalDaprSig Exn (Option PendingApproval) ApprovalDapr ApprovalCall) :
    Action Unit ApprovalCall → Bool
  | .step i _ =>
    match cfg.threads[i]? with
    | some ⟨_, .running (.await (.state (.transact _)) _)⟩ => !(since t i cfg.world.log).any (resolves t)
    | _ => true
  | _ => true

theorem meets_of_unovertaken (t : String)
    (cfg : Config approvalDaprSig Exn (Option PendingApproval) ApprovalDapr ApprovalCall)
    (a : Action Unit ApprovalCall)
    (h : unovertaken t cfg a = true) : meets (Unovertaken t) cfg a := by
  cases a with
  | invoke c => trivial
  | respond i => trivial
  | step i c =>
    intro call o k hi ws ho _ _
    subst ho
    simp only [unovertaken, hi, Bool.not_eq_true'] at h
    exact h

/-- The laptop is escalated. -/
def escalate : List (Action Unit ApprovalCall) :=
  [.invoke (.decisionCompleted ⟨laptop, ⟨.humanReview, "", [], "t-1"⟩, none⟩), .step 0 (),
    .step 0 (), .step 0 (), .respond 0]

/-- One approver. -/
def approveAlone : List (Action Unit ApprovalCall) :=
  escalate ++ [.invoke (.approve "t-1"), .step 1 (), .step 1 (), .step 1 (), .step 1 (), .respond 1]

def approvedAlone : Config approvalDaprSig Exn (Option PendingApproval) ApprovalDapr ApprovalCall :=
  (approvalClients.runActions (unovertaken "t-1") approveAlone (System.start .empty)).get (by decide)

theorem resolved_once_alone :
    (announced "t-1" approvedAlone.world.state).length ≤ 1 ∧
      (∀ e ∈ announced "t-1" approvedAlone.world.state,
        stored "t-1" approvedAlone.world.state.store = some e.resolution) ∧
      ∀ cfg', approvalClients.Reach (meets (Unovertaken "t-1")) approvedAlone cfg' → ∀ r,
        stored "t-1" approvedAlone.world.state.store = some r →
          stored "t-1" cfg'.world.state.store = some r :=
  resolved_once "t-1" (by decide) approvedAlone
    (System.reach_of_runActions (meets_of_unovertaken "t-1") approveAlone (Option.some_get _).symm)

/-- Two approvers who both read the item before either saves. -/
def contest : List (Action Unit ApprovalCall) :=
  escalate ++ [.invoke (.approve "t-1"), .invoke (.reject "t-1"), .step 1 (), .step 2 (),
    .step 1 (), .step 1 (), .step 1 (), .respond 1, .step 2 (), .step 2 (), .step 2 (), .respond 2]

def contested : Config approvalDaprSig Exn (Option PendingApproval) ApprovalDapr ApprovalCall :=
  (approvalClients.runActions (fun _ _ => true) contest (System.start .empty)).get (by decide)

/-- **Approved and rejected**: both calls return, both resolutions are announced, and the approval is
overwritten. -/
theorem approved_and_rejected :
    approvalClients.Reach (fun _ _ => True) (System.start .empty) contested ∧
      (announced "t-1" contested.world.state).map (·.resolution) = [.approved, .rejected] ∧
      stored "t-1" contested.world.state.store = some .rejected :=
  ⟨System.reach_of_runActions (fun _ _ _ => trivial) contest (Option.some_get _).symm, by decide, by decide⟩

end ApprovalFlow.Approval
