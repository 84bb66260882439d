import ApprovalFlow.Shared.IndexedState
import ApprovalFlow.Store.Dict
import ApprovalFlow.Async.Pool

/-!
# Concurrent saves and their index

Any number of clients save records of one layout on one store, interleaved at every await. Requests may
be refused without effect; no reply is lost.

* `commits`: the saves that committed, in order, each with its thread; `inOrder`: what an in-memory
  dictionary holds after them.
* `Mirrors`: the store holds the records of a dictionary, and the keys of the dictionary as its index;
  `Mirrors.commit`: a save that commits inserts its record.
* `Intact`: what the index, the saves and a listing show of a configuration; `intact`: of every one that
  is reached.
-/

namespace ApprovalFlow
open Async Versioned

/-- `json.loads` and `model_validate_json` read what `json.dumps` and `model_dump_json` wrote. -/
structure IndexedLayout.Lawful {V R : Type} (layout : IndexedLayout V R) : Prop where
  toIndex_index : ∀ ids, layout.toIndex (layout.index ids) = ids
  toRecord_record : ∀ r, layout.toRecord (layout.record r) = .ok r

namespace IndexedState
variable {V R : Type}

abbrev SaveEvent (V R : Type) := Event (storeSig V) Exn Unit R

abbrev SaveWorld (V R : Type) := World (storeSig V) Exn Unit (Store V) R

/-- Concurrent saves; `index` is no tracking id. -/
def clients (layout : IndexedLayout V R) : System (storeSig V) Exn Unit (Store V) Reception R where
  body r := save (storeClient V) layout r
  invoke r s := if layout.trackingId r = "index" then none else some s
  exec := lossyStore V

theorem invoke_clients {layout : IndexedLayout V R} {r : R} {s s' : Store V}
    (h : (clients layout).invoke r s = some s') : layout.trackingId r ≠ "index" ∧ s' = s := by
  simp only [clients] at h
  split_ifs at h with hr
  exact ⟨hr, (Option.some.inj h).symm⟩

/-- A request is served or refused. -/
def Answered : StepCond (storeSig V) Exn Unit (Store V) Reception R := fun _ _ _ _ c => c ≠ .lose

/-- The thread and the record of a transaction that committed. -/
def committed : SaveEvent V R → Option (Nat × R)
  | .perform i r (.transact _) (.ok _) => some (i, r)
  | _ => none

/-- The saves that committed, in order. -/
def commits (log : List (SaveEvent V R)) : List (Nat × R) := log.reverse.filterMap committed

/-- What an in-memory dictionary holds after saves. -/
def inOrder (layout : IndexedLayout V R) (saves : List (Nat × R)) : Dict String R :=
  saves.foldl (fun d p => d.insert (layout.trackingId p.2) p.2) .empty

/-- The index of a store. -/
def index (layout : IndexedLayout V R) (s : Store V) : List String := ids layout (s.value layout.indexKey)

/-! ## The store as a dictionary -/

/-- The store holds the records of a dictionary, and its keys as the index. -/
structure Mirrors (layout : IndexedLayout V R) (s : Store V) (d : Dict String R) : Prop where
  record : ∀ t, t ≠ "index" → s.value (layout.key t) = (d.get? t).map layout.record
  index : index layout s = d.keys
  keyed : ∀ t r, d.get? t = some r → layout.trackingId r = t ∧ t ≠ "index"

variable {layout : IndexedLayout V R} {s : Store V} {d : Dict String R}

theorem Mirrors.empty : Mirrors layout .empty .empty := ⟨fun _ _ => rfl, rfl, fun _ _ h => nomatch h⟩

theorem appendId_keys (d : Dict String R) (t : String) (r : R) : appendId d.keys t = (d.insert t r).keys :=
  (d.keys_insert t r).symm

/-- **A commit**: over the index that it read, a save inserts its record. -/
theorem Mirrors.commit (h : Mirrors layout s d) (law : layout.Lawful) {r : R}
    (hr : layout.trackingId r ≠ "index") (etag : Nat) :
    Mirrors layout (s.puts (writes layout r (IndexedState.index layout s) etag))
      (d.insert (layout.trackingId r) r) := by
  refine ⟨fun t ht => ?_, ?_, fun t r' hget => ?_⟩
  · rw [value_writes, if_neg ht, Dict.get?_insert]
    split_ifs with htr
    · rfl
    · exact h.record t ht
  · rw [IndexedState.index, IndexedLayout.indexKey, value_writes, if_pos rfl, h.index, appendId_keys d _ r]
    exact law.toIndex_index _
  · rw [Dict.get?_insert] at hget
    split_ifs at hget with htr
    · cases hget
      exact ⟨htr.symm, htr ▸ hr⟩
    · exact h.keyed t r' hget

theorem Mirrors.nodup (h : Mirrors layout s d) : (IndexedState.index layout s).Nodup := by
  rw [h.index]
  exact d.nodup

theorem Mirrors.mem_index (h : Mirrors layout s d) {t : String} (ht : t ≠ "index") :
    t ∈ IndexedState.index layout s ↔ s.value (layout.key t) ≠ none := by
  rw [h.index, Dict.mem_keys, h.record t ht, ne_eq, ne_eq, Option.map_eq_none_iff]

/-! ## A listing -/

/-- Every request is served. -/
def serving (V : Type) (o : (storeSig V).Op) (s : Store V) : Except Exn ((storeSig V).Res o) × Store V :=
  lossyStore V .serve o s

theorem eval_get (trackingId : String) :
    (get (storeClient V) layout trackingId).eval (serving V) s =
      (found layout (s.value (layout.key trackingId)), s) := by
  rw [get_eq, getState_attempt, Prog.eval_await]
  exact Prog.eval_ofExcept _

theorem eval_readIndex :
    (readIndex (storeClient V) layout).eval (serving V) s =
      (.ok (index layout s, s.etag layout.indexKey), s) := by
  rw [readIndex, (storeClient V).read_bind, getState_attempt, Prog.eval_await]
  simp only [serving, lossyStore, Op.perform, Store.get, StateClient.afterRead, index]
  cases s.value layout.indexKey <;> rfl

theorem Mirrors.eval_getAll (h : Mirrors layout s d) (law : layout.Lawful) {ids : List String}
    (hids : ∀ t ∈ ids, t ≠ "index") :
    (getAll (storeClient V) layout ids).eval (serving V) s = (.ok (ids.filterMap d.get?), s) := by
  induction ids with
  | nil => rfl
  | cons t ids ih =>
    obtain ⟨ht, hrest⟩ := List.forall_mem_cons.mp hids
    have hfound : found layout (s.value (layout.key t)) = .ok (d.get? t) := by
      rw [h.record t ht]
      cases d.get? t with
      | none => rfl
      | some r => simp [found, law.toRecord_record, Except.map]
    rw [getAll, Prog.bind_eq, Prog.eval_attempt, eval_get, hfound, Prog.onOk_ok,
      Prog.bind_eq, Prog.eval_attempt, ih hrest]
    cases hget : d.get? t <;> simp [hget, Prog.pure_eq]

theorem Mirrors.eval_listAll (h : Mirrors layout s d) (law : layout.Lawful) :
    (listAll (storeClient V) layout).eval (serving V) s = (.ok d.values, s) := by
  have hkeys : ∀ t ∈ d.keys, t ≠ "index" := fun t ht => by
    obtain ⟨r, hr⟩ := Option.ne_none_iff_exists'.mp ((d.mem_keys t).mp ht)
    exact (h.keyed t r hr).2
  rw [listAll, Prog.bind_eq, Prog.eval_attempt, eval_readIndex]
  show (getAll (storeClient V) layout (IndexedState.index layout s)).eval (serving V) s = _
  rw [h.index, h.eval_getAll law hkeys, d.filterMap_keys]

/-! ## The saves in the log -/

/-- The saves of a thread that committed. -/
def commitsOf (i : Nat) (log : List (SaveEvent V R)) : List (Nat × R) :=
  (commits log).filter fun p => p.1 = i

@[simp] theorem commits_cons (e : SaveEvent V R) (log : List (SaveEvent V R)) :
    commits (e :: log) = commits log ++ (committed e).toList := by
  rw [commits, List.reverse_cons, List.filterMap_append]
  cases h : committed e <;> simp [commits, h]

theorem commitsOf_idle {e : SaveEvent V R} (he : committed e = none) (i : Nat)
    (log : List (SaveEvent V R)) : commitsOf i (e :: log) = commitsOf i log := by
  simp [commitsOf, he]

theorem commitsOf_commit {e : SaveEvent V R} {j : Nat} {r : R} (he : committed e = some (j, r)) (i : Nat)
    (log : List (SaveEvent V R)) :
    commitsOf i (e :: log) = commitsOf i log ++ if j = i then [(j, r)] else [] := by
  simp [commitsOf, he, List.filter_singleton]

theorem tid_of_committed {e : SaveEvent V R} {p : Nat × R} (he : committed e = some p) : e.tid = p.1 := by
  unfold committed at he
  split at he
  · cases he
    rfl
  · cases he

theorem thread_of_mem_commits {p : Nat × R} {log : List (SaveEvent V R)} {n : Nat}
    (hlog : ∀ e ∈ log, e.tid < n) (hp : p ∈ commits log) : p.1 < n := by
  obtain ⟨e, he, hcommitted⟩ := List.mem_filterMap.mp hp
  rw [← tid_of_committed hcommitted]
  exact hlog e (List.mem_reverse.mp he)

theorem inOrder_concat (layout : IndexedLayout V R) (saves : List (Nat × R)) (p : Nat × R) :
    inOrder layout (saves ++ [p]) = (inOrder layout saves).insert (layout.trackingId p.2) p.2 := by
  rw [inOrder, List.foldl_append]
  rfl

/-- The ids are in the order of their first commits. -/
theorem keys_inOrder (layout : IndexedLayout V R) (saves : List (Nat × R)) :
    (inOrder layout saves).keys = (saves.map fun p => layout.trackingId p.2).eraseDups := by
  induction saves using List.reverseRecOn with
  | nil => rfl
  | append_singleton saves p ih =>
    rw [inOrder_concat, Dict.keys_insert, ih, List.map_append, List.eraseDups_append, List.map_singleton]
    by_cases h : layout.trackingId p.2 ∈ saves.map fun p => layout.trackingId p.2
    · rw [if_pos (List.mem_eraseDups.mpr h), List.removeAll,
        List.filter_cons_of_neg (by simpa using h), List.filter_nil,
        List.eraseDups_nil, List.append_nil]
    · rw [if_neg (mt List.mem_eraseDups.mp h), List.removeAll, List.filter_cons_of_pos (by simpa using h),
        List.filter_nil, List.eraseDups_cons, List.filter_nil, List.eraseDups_nil]

/-! ## A save among others -/

/-- The store is what the commits make of a dictionary. -/
def Mirrored (layout : IndexedLayout V R) (w : SaveWorld V R) : Prop :=
  Mirrors layout w.state (inOrder layout (commits w.log))

/-- What the others do to the store and to the commits of thread `i`. -/
structure Interferes (i : Nat) (w w₁ : SaveWorld V R) : Prop where
  evolves : w.state.Evolves w₁.state
  commitsOf : IndexedState.commitsOf i w₁.log = IndexedState.commitsOf i w.log

/-- A save that returned committed once; one that raised wrote nothing. -/
def Settled (i : Nat) (r : R) (result : Except Exn Unit) (w : SaveWorld V R) : Prop :=
  commitsOf i w.log = match result with
    | .ok _ => [(i, r)]
    | .error _ => []

section Steps
variable {w : SaveWorld V R} {i : Nat} {r : R}

theorem Interferes.refl (i : Nat) (w : SaveWorld V R) : Interferes i w w := ⟨.refl _, rfl⟩

theorem Interferes.trans {w₁ w₂ : SaveWorld V R} (h₁ : Interferes i w w₁) (h₂ : Interferes i w₁ w₂) :
    Interferes i w w₂ :=
  ⟨h₁.evolves.trans h₂.evolves, h₂.commitsOf.trans h₁.commitsOf⟩

theorem Mirrored.idle (h : Mirrored layout w) {e : SaveEvent V R} (he : committed e = none) :
    Mirrored layout ⟨w.state, e :: w.log⟩ := by
  simpa [Mirrored, he] using h

theorem Interferes.idle {e : SaveEvent V R} (he : committed e = none) (j : Nat) :
    Interferes j w ⟨w.state, e :: w.log⟩ := ⟨.refl _, commitsOf_idle he j w.log⟩

theorem Mirrored.commit (h : Mirrored layout w) (law : layout.Lawful) (hr : layout.trackingId r ≠ "index")
    (etag : Nat) {e : SaveEvent V R} (he : committed e = some (i, r)) :
    Mirrored layout ⟨w.state.puts (writes layout r (index layout w.state) etag), e :: w.log⟩ := by
  have hcommits : commits (e :: w.log) = commits w.log ++ [(i, r)] := by
    rw [commits_cons, he]
    rfl
  rw [Mirrored, hcommits, inOrder_concat]
  exact Mirrors.commit h law hr etag

abbrev SafeSave (layout : IndexedLayout V R) (i : Nat) (r : R) (p : Prog (storeSig V) Exn Unit)
    (w : SaveWorld V R) : Prop :=
  Safe (clients layout) Answered (Mirrored layout) Interferes i r p (Settled i r) w

/-- A read: others may have moved on when it is answered. -/
theorem safe_getState (hw : commitsOf i w.log = []) {k : String}
    {f : Except Exn (Option V × Nat) → Prog (storeSig V) Exn Unit}
    (hserved : ∀ w₁ : SaveWorld V R, commitsOf i w₁.log = [] →
      SafeSave layout i r (f (.ok (w₁.state.value k, w₁.state.etag k))) w₁)
    (hrefused : ∀ w₁ : SaveWorld V R, commitsOf i w₁.log = [] →
      SafeSave layout i r (f (.error (.rpcError ""))) w₁) :
    SafeSave layout i r (((storeClient V).getState k).attempt f) w := by
  rw [getState_attempt]
  intro w₁ hR hI c hc
  have hw₁ : commitsOf i w₁.log = [] := hR.commitsOf.trans hw
  cases c with
  | serve =>
    exact ⟨hI.idle rfl, fun j _ => .idle rfl j,
      hserved ⟨w₁.state, .perform i r (.get k) (.ok (w₁.state.get k)) :: w₁.log⟩
        ((commitsOf_idle rfl i w₁.log).trans hw₁)⟩
  | refuse =>
    exact ⟨hI.idle rfl, fun j _ => .idle rfl j, hrefused _ ((commitsOf_idle rfl i w₁.log).trans hw₁)⟩
  | lose => exact absurd rfl hc

/-- **A transaction** on the index that was read: it commits over that index, or it changes nothing. -/
theorem safe_transact (law : layout.Lawful) (hr : layout.trackingId r ≠ "index")
    (hw : commitsOf i w.log = []) {f : Except Exn Unit → Prog (storeSig V) Exn Unit}
    (hcommitted : ∀ w₁ : SaveWorld V R, commitsOf i w₁.log = [(i, r)] → SafeSave layout i r (f (.ok ())) w₁)
    (hrefused : ∀ w₁ : SaveWorld V R, commitsOf i w₁.log = [] →
      SafeSave layout i r (f (.error (.rpcError ""))) w₁) :
    SafeSave layout i r
      (((storeClient V).executeStateTransaction
        (writes layout r (index layout w.state) (w.state.etag layout.indexKey))).attempt f) w := by
  rw [executeStateTransaction_attempt]
  intro w₁ hR hI c hc
  have hw₁ : commitsOf i w₁.log = [] := hR.commitsOf.trans hw
  generalize hws : writes layout r (index layout w.state) (w.state.etag layout.indexKey) = ws
  obtain ⟨rfl, hcurrent, hexec⟩ | ⟨rfl, -, -⟩ | hexec := lossyStore_cases c ws w₁.state
  · have hexec : (clients layout).exec .serve (.transact ws) w₁.state = (.ok (), w₁.state.puts ws) := hexec
    -- the etag is the one that was read, so the index is
    have hetag : w₁.state.etag layout.indexKey = w.state.etag layout.indexKey :=
      (current_writes _ _ _ _).mp (hws ▸ hcurrent)
    have hindex : index layout w₁.state = index layout w.state := by
      rw [index, index, hR.evolves.value_eq hetag]
    simp only [World.performed, hexec]
    refine ⟨?_, fun j hj => ⟨Store.evolves_puts _ ws, ?_⟩, hcommitted _ ?_⟩
    · rw [← hws, ← hindex]
      exact hI.commit law hr _ rfl
    · rw [commitsOf_commit rfl, if_neg (Ne.symm hj), List.append_nil]
    · rw [commitsOf_commit rfl, hw₁, if_pos rfl, List.nil_append]
  · exact absurd rfl hc
  · have hexec : (clients layout).exec c (.transact ws) w₁.state =
        (.error (.rpcError ""), w₁.state) := hexec
    simp only [World.performed, hexec]
    exact ⟨hI.idle rfl, fun j _ => .idle rfl j, hrefused _ ((commitsOf_idle rfl i w₁.log).trans hw₁)⟩

/-- **A save**, by induction on the attempts that are left. -/
theorem safe_saveLoop (law : layout.Lawful) (hr : layout.trackingId r ≠ "index")
    (hw : commitsOf i w.log = []) (n : Nat) :
    SafeSave layout i r (saveLoop (storeClient V) layout r n) w := by
  induction n generalizing w with
  | zero => exact hw
  | succ n ih =>
    rw [saveLoop_succ]
    refine safe_getState hw (fun w₁ hw₁ => ?_) fun w₁ hw₁ => hw₁
    exact safe_transact law hr hw₁ (fun w₂ hw₂ => hw₂) fun w₂ hw₂ => ih hw₂

end Steps

/-- The proof outline of the saves. -/
def outline (layout : IndexedLayout V R) (law : layout.Lawful) : Outline (clients layout) Answered where
  I := Mirrored layout
  R := Interferes
  Post := Settled
  refl := .refl
  trans _ _ _ _ h h' := h.trans h'
  post_stable hR _ h := hR.commitsOf.trans h
  invoke := by
    intro w n r s hI hfresh hs
    obtain ⟨hr, rfl⟩ := invoke_clients hs
    have hnone : commitsOf n w.log = [] := by
      refine List.filter_eq_nil_iff.mpr fun p hp => ?_
      simpa using Nat.ne_of_lt (thread_of_mem_commits hfresh hp)
    exact ⟨hI.idle rfl, fun j _ => .idle rfl j,
      safe_saveLoop law hr ((commitsOf_idle rfl n w.log).trans hnone) maxRetries⟩
  respond := by
    intro w i r result hI _
    exact ⟨hI.idle rfl, fun j => .idle rfl j⟩

/-! ## What a run shows -/

abbrev SaveConfig (V R : Type) := Config (storeSig V) Exn Unit (Store V) R

/-- A configuration in which no save is lost or listed twice. -/
structure Intact (layout : IndexedLayout V R) (cfg : SaveConfig V R) : Prop where
  nodup : (index layout cfg.world.state).Nodup
  mem_index : ∀ t, t ≠ "index" →
    (t ∈ index layout cfg.world.state ↔ cfg.world.state.value (layout.key t) ≠ none)
  /-- The ids are in the order of their first commits. -/
  order : index layout cfg.world.state =
    ((commits cfg.world.log).map fun p => layout.trackingId p.2).eraseDups
  /-- A save that raised committed nothing, one that returned committed once. -/
  settled : ∀ i r result, cfg.threads[i]? = some ⟨r, .done result⟩ → Settled i r result cfg.world
  /-- The store changes with a commit only. -/
  written : ∀ a cfg', meets Answered cfg a → (clients layout).act cfg a = some cfg' →
    cfg'.world.state = cfg.world.state ∨
      ∃ i c r, a = .step i c ∧ commits cfg'.world.log = commits cfg.world.log ++ [(i, r)]
  /-- A listing returns the stored record of every id in the index, as a dictionary does after the same
  commits. -/
  listed : ∃ rs, (listAll (storeClient V) layout).eval (serving V) cfg.world.state =
    (.ok rs, cfg.world.state) ∧ rs.map layout.trackingId = index layout cfg.world.state ∧
    (∀ r ∈ rs, cfg.world.state.value (layout.key (layout.trackingId r)) = some (layout.record r)) ∧
    rs = (inOrder layout (commits cfg.world.log)).values
  /-- When every save has responded, the ids are those of the saves that returned. -/
  saved : (∀ thread ∈ cfg.threads, ∃ result, thread.status = .done result) → ∀ t,
    (t ∈ index layout cfg.world.state ↔
      ∃ thread ∈ cfg.threads, thread.status = .done (.ok ()) ∧ layout.trackingId thread.call = t)

theorem written_of_act {cfg cfg' : SaveConfig V R} {a : Action Reception R} (hok : meets Answered cfg a)
    (ha : (clients layout).act cfg a = some cfg') :
    cfg'.world.state = cfg.world.state ∨
      ∃ i c r, a = .step i c ∧ commits cfg'.world.log = commits cfg.world.log ++ [(i, r)] := by
  cases a with
  | invoke r =>
    obtain ⟨s, hs, rfl⟩ := System.act_invoke ha
    exact .inl (invoke_clients hs).2
  | respond i =>
    obtain ⟨r, p, result, -, -, rfl⟩ := System.act_respond ha
    exact .inl rfl
  | step i c =>
    obtain ⟨r, o, k, hi, rfl⟩ := System.act_step ha
    have hc : c ≠ .lose := hok r o k hi
    rcases o with key | ws
    · cases c <;> exact .inl rfl
    · cases c with
      | lose => exact absurd rfl hc
      | refuse => exact .inl rfl
      | serve =>
        cases htransact : cfg.world.state.transact ws with
        | none => exact .inl (by simp only [clients, lossyStore, Op.perform, htransact])
        | some s' =>
          refine .inr ⟨i, .serve, r, rfl, ?_⟩
          simp only [clients, lossyStore, Op.perform, htransact]
          rw [commits_cons]
          rfl

/-- **Index integrity**: in every interleaving of saves, the index, the records and a listing agree. -/
theorem intact (layout : IndexedLayout V R) (law : layout.Lawful) (cfg : SaveConfig V R)
    (hr : (clients layout).Reach (meets Answered) (System.start .empty) cfg) : Intact layout cfg := by
  have hholds := (outline layout law).sound (s := .empty) Mirrors.empty hr
  have hI : Mirrors layout cfg.world.state (inOrder layout (commits cfg.world.log)) := hholds.inv
  have horder := hI.index.trans (keys_inOrder layout (commits cfg.world.log))
  have hsettled : ∀ i r result, cfg.threads[i]? = some ⟨r, .done result⟩ → Settled i r result cfg.world :=
    fun i r result hi => hholds.threads i _ hi
  refine ⟨hI.nodup, fun t ht => hI.mem_index ht, horder, hsettled, fun a cfg' => written_of_act,
    ⟨_, hI.eval_listAll law, ?_, fun r hmem => ?_, rfl⟩, fun hdone t => ?_⟩
  · rw [hI.index, Dict.values, Dict.keys, List.map_map]
    exact List.map_congr_left fun p hp => (hI.keyed p.1 p.2 ((Dict.mem_iff _ p.1 p.2).mp hp)).1
  · obtain ⟨t, ht⟩ := (Dict.mem_values _ r).mp hmem
    obtain ⟨rfl, hne⟩ := hI.keyed t r ht
    rw [hI.record _ hne, ht]
    rfl
  · rw [horder, List.mem_eraseDups, List.mem_map]
    constructor
    · rintro ⟨⟨i, r⟩, hp, rfl⟩
      have hlt : i < cfg.threads.length := thread_of_mem_commits hholds.fresh hp
      have hi := List.getElem?_eq_getElem hlt
      obtain ⟨result, hresult⟩ := hdone _ (List.getElem_mem hlt)
      have hof : (i, r) ∈ commitsOf i cfg.world.log := List.mem_filter.mpr ⟨hp, by simp⟩
      rw [hsettled i cfg.threads[i].call result (by rw [hi, ← hresult])] at hof
      cases result with
      | error e => cases hof
      | ok u =>
        obtain ⟨-, hcall⟩ := Prod.mk.inj (List.mem_singleton.mp hof)
        exact ⟨_, List.getElem_mem hlt, hresult, by rw [hcall]⟩
    · rintro ⟨thread, hmem, hstatus, rfl⟩
      obtain ⟨i, hi⟩ := List.getElem?_of_mem hmem
      have hof : commitsOf i cfg.world.log = [(i, thread.call)] :=
        hsettled i thread.call (.ok ()) (by rw [hi, ← hstatus])
      have hp : (i, thread.call) ∈ commitsOf i cfg.world.log := by
        rw [hof]
        exact List.mem_singleton_self _
      exact ⟨_, (List.mem_filter.mp hp).1, rfl⟩

end IndexedState

end ApprovalFlow
