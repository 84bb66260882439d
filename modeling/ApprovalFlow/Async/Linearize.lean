import ApprovalFlow.Async.Pool
import Mathlib.Data.List.Count
import Mathlib.Data.List.Nodup

/-!
# Linearizability

A concurrent run of calls on a shared state, read as a sequential run of the same calls on an abstract
one.

* `Replays spec a₀ es a`: the sequential run `es`, newest call first, leads from `a₀` to `a` with the
  results it names.
* `Linearizes`: a sequential run has the results of the finished calls of a log, in an order that
  respects real time, and a call that failed is no part of it.
* `Logged`: what every log of a system satisfies: the events of a thread lie between its invocation and
  its response.
* `Points`: linearization points; `Points.linearizes`: where every call ends at its point, every
  interleaving linearizes.
-/

namespace Async

variable {σ : Sig} {ε α S C Call A : Type}

/-- A call of a sequential run: its thread and its result. -/
structure Entry (ε α Call : Type) where
  tid : Nat
  call : Call
  result : Except ε α

/-- The calls `es`, newest first, lead from `a₀` to `a` with these results. -/
def Replays (spec : Call → A → Except ε α × A) (a₀ : A) : List (Entry ε α Call) → A → Prop
  | [], a => a = a₀
  | e :: es, a => ∃ a₁, Replays spec a₀ es a₁ ∧ spec e.call a₁ = (e.result, a)

namespace Replays
variable {spec : Call → A → Except ε α × A} {a₀ a a' : A} {es : List (Entry ε α Call)}

theorem unique (h : Replays spec a₀ es a) (h' : Replays spec a₀ es a') : a = a' := by
  induction es generalizing a a' with
  | nil => rw [h, h']
  | cons e es ih =>
    obtain ⟨a₁, h1, hs1⟩ := h
    obtain ⟨a₂, h2, hs2⟩ := h'
    rw [ih h1 h2, hs2] at hs1
    exact congrArg Prod.snd hs1.symm

/-- What every call keeps, a sequential run keeps. -/
theorem inv {P : A → Prop} (h : Replays spec a₀ es a) (h₀ : P a₀)
    (hstep : ∀ e ∈ es, ∀ a, P a → P (spec e.call a).2) : P a := by
  induction es generalizing a with
  | nil => rw [h]; exact h₀
  | cons e es ih =>
    obtain ⟨a₁, h1, hs⟩ := h
    have := hstep e List.mem_cons_self a₁ (ih h1 fun e he => hstep e (List.mem_cons_of_mem _ he))
    rwa [hs] at this

end Replays

/-- `es` is a sequential run, from `a₀` to `a`, of the calls of `log` that took effect. -/
structure Linearizes (spec : Call → A → Except ε α × A) (failed : Except ε α → Bool) (a₀ a : A)
    (log : List (Event σ ε α Call)) (es : List (Entry ε α Call)) : Prop where
  replays : Replays spec a₀ es a
  once : (es.map Entry.tid).Nodup
  invoked : ∀ e ∈ es, .invoke e.tid e.call ∈ log
  completed : ∀ i c r, .respond i c r ∈ log → failed r = false → ⟨i, c, r⟩ ∈ es
  noEffect : ∀ i c r, .respond i c r ∈ log → failed r = true → ∀ e ∈ es, e.tid ≠ i
  /-- Both lists are newest first: where `f` responded before `e` was invoked, `f` comes before `e`. -/
  realTime : ∀ e ∈ es, ∀ f ∈ es,
    List.Sublist [.invoke e.tid e.call, .respond f.tid f.call f.result] log → List.Sublist [e, f] es

/-! ## The logs of a system -/

def Event.opens : Event σ ε α Call → Bool
  | invoke _ _ => true
  | _ => false

def Event.closes : Event σ ε α Call → Bool
  | respond _ _ _ => true
  | _ => false

/-- Within a thread nothing precedes the invocation and nothing follows the response. -/
def Event.Follows (newer older : Event σ ε α Call) : Prop :=
  newer.tid = older.tid → newer.opens = false ∧ older.closes = false

/-- The log of a configuration, newest event first, agrees with its threads. -/
structure Logged (cfg : Config σ ε α S Call) : Prop where
  fresh : ∀ e ∈ cfg.world.log, e.tid < cfg.threads.length
  ordered : cfg.world.log.Pairwise Event.Follows
  invoked : ∀ i t, cfg.threads[i]? = some t → .invoke i t.call ∈ cfg.world.log
  performed : ∀ i c o r, .perform i c o r ∈ cfg.world.log → .invoke i c ∈ cfg.world.log
  responded : ∀ i c r, .respond i c r ∈ cfg.world.log → cfg.threads[i]? = some ⟨c, .done r⟩

namespace Logged
variable {sys : System σ ε α S C Call} {ok : Config σ ε α S Call → Action C Call → Prop}
  {cfg cfg₀ cfg' : Config σ ε α S Call}

theorem start (s : S) : Logged (System.start s : Config σ ε α S Call) where
  fresh e he := absurd he List.not_mem_nil
  ordered := .nil
  invoked i t hi := by cases hi
  performed i c o r h := absurd h List.not_mem_nil
  responded i c r h := absurd h List.not_mem_nil

theorem follows_of_running (h : Logged cfg) {i : Nat} {call : Call} {p : Prog σ ε α}
    (hi : cfg.threads[i]? = some ⟨call, .running p⟩) {e : Event σ ε α Call} (hopens : e.opens = false)
    (htid : e.tid = i) : ∀ e' ∈ cfg.world.log, e.Follows e' := by
  intro e' he' heq
  refine ⟨hopens, ?_⟩
  cases e' with
  | invoke j c => rfl
  | perform j c o r => rfl
  | respond j c r =>
    have hj : i = j := htid.symm.trans heq
    have hdone := h.responded j c r he'
    rw [← hj, hi] at hdone
    cases hdone

theorem set (h : Logged cfg) {i : Nat} {call : Call} {p : Prog σ ε α} {s : S} {st : Status σ ε α}
    {e : Event σ ε α Call} (hi : cfg.threads[i]? = some ⟨call, .running p⟩) (hopens : e.opens = false)
    (htid : e.tid = i) (hperform : ∀ j c o r, e = .perform j c o r → c = call)
    (hrespond : ∀ j c r, e = .respond j c r → c = call ∧ st = .done r) :
    Logged ⟨⟨s, e :: cfg.world.log⟩, cfg.threads.set i ⟨call, st⟩⟩ where
  fresh e' he' := by
    rw [List.length_set]
    rcases List.mem_cons.mp he' with rfl | he'
    · rw [htid]
      exact (List.getElem?_eq_some_iff.mp hi).1
    · exact h.fresh e' he'
  ordered := List.pairwise_cons.mpr ⟨h.follows_of_running hi hopens htid, h.ordered⟩
  invoked j t hj := by
    apply List.mem_cons_of_mem
    by_cases hji : j = i
    · subst hji
      rw [List.getElem?_set_self (List.getElem?_eq_some_iff.mp hi).1] at hj
      cases hj
      exact h.invoked j ⟨call, .running p⟩ hi
    · rw [List.getElem?_set_ne (Ne.symm hji)] at hj
      exact h.invoked j t hj
  performed j c o r hm := by
    apply List.mem_cons_of_mem
    rcases List.mem_cons.mp hm with heq | hm
    · subst heq
      have hj : j = i := htid
      rw [hj, hperform j c o r rfl]
      exact h.invoked i _ hi
    · exact h.performed j c o r hm
  responded j c r hm := by
    rcases List.mem_cons.mp hm with heq | hm
    · subst heq
      obtain ⟨rfl, rfl⟩ := hrespond j c r rfl
      have hj : i = j := htid.symm
      rw [hj] at hi ⊢
      rw [List.getElem?_set_self (List.getElem?_eq_some_iff.mp hi).1]
    · have hj := h.responded j c r hm
      by_cases hji : j = i
      · rw [hji, hi] at hj
        cases hj
      · rwa [List.getElem?_set_ne (Ne.symm hji)]

theorem act (h : Logged cfg) {a : Action C Call} (ha : sys.act cfg a = some cfg') : Logged cfg' := by
  cases a with
  | invoke c =>
    obtain ⟨s, -, rfl⟩ := System.act_invoke ha
    refine ⟨fun e he => ?_, List.pairwise_cons.mpr ⟨fun e he htid => ?_, h.ordered⟩, fun j t hj => ?_,
      fun j d o r hm => ?_, fun j d r hm => ?_⟩
    · rw [List.length_append, List.length_singleton]
      rcases List.mem_cons.mp he with rfl | he
      · exact Nat.lt_succ_self _
      · exact Nat.lt_succ_of_lt (h.fresh e he)
    · have hlt := h.fresh e he
      have heq : cfg.threads.length = e.tid := htid
      omega
    · rw [List.getElem?_append] at hj
      split_ifs at hj with hlt
      · exact List.mem_cons_of_mem _ (h.invoked j t hj)
      · rw [List.getElem?_singleton] at hj
        split_ifs at hj with h0
        cases hj
        have hj : j = cfg.threads.length := by omega
        rw [hj]
        exact List.mem_cons_self
    · rcases List.mem_cons.mp hm with heq | hm
      · cases heq
      · exact List.mem_cons_of_mem _ (h.performed j d o r hm)
    · rcases List.mem_cons.mp hm with heq | hm
      · cases heq
      · have hj := h.responded j d r hm
        rw [List.getElem?_append_left (List.getElem?_eq_some_iff.mp hj).1]
        exact hj
  | step i c =>
    obtain ⟨call, o, k, hi, rfl⟩ := System.act_step ha
    exact h.set hi rfl rfl (fun _ _ _ _ heq => by cases heq; rfl) fun _ _ _ heq => by cases heq
  | respond i =>
    obtain ⟨call, p, r, hi, -, rfl⟩ := System.act_respond ha
    exact h.set hi rfl rfl (fun _ _ _ _ heq => by cases heq) fun _ _ _ heq => by cases heq; exact ⟨rfl, rfl⟩

theorem reach (h : Logged cfg₀) (hr : sys.Reach ok cfg₀ cfg) : Logged cfg := by
  induction hr with
  | refl => exact h
  | tail _ _ ha ih => exact ih.act ha

end Logged

/-! ## Linearization points -/

/-- Linearization points of a system: a reply that decides the result of a call, and the abstract state
that the shared state stands for. -/
structure Points (sys : System σ ε α S C Call) (A : Type) where
  spec : Call → A → Except ε α × A
  failed : Except ε α → Bool
  point : Call → (o : σ.Op) → Except ε (σ.Res o) → Option (Except ε α)
  Rel : S → A → Prop
  Evolves : S → S → Prop
  refl : ∀ s, Evolves s s
  trans : ∀ {s₁ s₂ s₃}, Evolves s₁ s₂ → Evolves s₂ s₃ → Evolves s₁ s₃
  exec : ∀ c o s, Evolves s (sys.exec c o s).2
  invoke : ∀ {c s s'}, sys.invoke c s = some s' → s' = s

namespace Points
variable {sys : System σ ε α S C Call} (P : Points sys A)

/-- A call that has not reached its point, where the shared state was `s` at its last step: at its point
the abstract state takes the call's step and the call ends; a call that ends without one has failed. -/
def Pending (c : Call) : Prog σ ε α → S → Prop
  | .ret a, _ => P.failed (.ok a) = true
  | .raise e, _ => P.failed (.error e) = true
  | .await o k, s => ∀ s₁ a, P.Evolves s s₁ → P.Rel s₁ a → ∀ ch,
      match P.point c o (sys.exec ch o s₁).1 with
      | none => P.Rel (sys.exec ch o s₁).2 a ∧ Pending c (k (sys.exec ch o s₁).1) (sys.exec ch o s₁).2
      | some r => k (sys.exec ch o s₁).1 = .ofExcept r ∧ P.failed r = false ∧
          ∃ a', P.spec c a = (r, a') ∧ P.Rel (sys.exec ch o s₁).2 a'

/-- The entry of an event that is a linearization point. -/
def entryOf : Event σ ε α Call → Option (Entry ε α Call)
  | .perform i c o r => (P.point c o r).map (⟨i, c, ·⟩)
  | _ => none

/-- The sequential run of a log, newest first. -/
def entries (log : List (Event σ ε α Call)) : List (Entry ε α Call) := log.filterMap P.entryOf

/-- The entries of one thread. -/
def mine (i : Nat) (log : List (Event σ ε α Call)) : List (Entry ε α Call) :=
  (P.entries log).filter fun e => e.tid = i

variable {P} {log : List (Event σ ε α Call)}

theorem mem_entries {e : Entry ε α Call} (h : e ∈ P.entries log) :
    ∃ o r, .perform e.tid e.call o r ∈ log ∧ P.point e.call o r = some e.result := by
  obtain ⟨ev, hev, he⟩ := List.mem_filterMap.mp h
  cases ev with
  | invoke i c => cases he
  | respond i c r => cases he
  | perform i c o r =>
    obtain ⟨res, hres, rfl⟩ := Option.map_eq_some_iff.mp he
    exact ⟨o, r, hev, hres⟩

theorem entries_cons_none {e : Event σ ε α Call} (h : P.entryOf e = none) :
    P.entries (e :: log) = P.entries log :=
  List.filterMap_cons_none h

theorem entries_cons_some {e : Event σ ε α Call} {en : Entry ε α Call} (h : P.entryOf e = some en) :
    P.entries (e :: log) = en :: P.entries log :=
  List.filterMap_cons_some h

theorem mine_cons_none {i : Nat} {e : Event σ ε α Call} (h : P.entryOf e = none) :
    P.mine i (e :: log) = P.mine i log := by
  rw [mine, entries_cons_none h, mine]

theorem mine_cons_self {i : Nat} {e : Event σ ε α Call} {en : Entry ε α Call} (h : P.entryOf e = some en)
    (hi : en.tid = i) : P.mine i (e :: log) = en :: P.mine i log := by
  rw [mine, entries_cons_some h, List.filter_cons_of_pos (by simpa using hi), mine]

theorem mine_cons_ne {i : Nat} {e : Event σ ε α Call} {en : Entry ε α Call} (h : P.entryOf e = some en)
    (hi : en.tid ≠ i) : P.mine i (e :: log) = P.mine i log := by
  rw [mine, entries_cons_some h, List.filter_cons_of_neg (by simpa using hi), mine]

theorem mine_of_fresh {n : Nat} (h : ∀ e ∈ log, e.tid < n) : P.mine n log = [] := by
  apply List.filter_eq_nil_iff.mpr
  intro e he htid
  obtain ⟨o, r, hev, -⟩ := mem_entries he
  have hlt : e.tid < n := h _ hev
  have heq : e.tid = n := of_decide_eq_true htid
  omega

/-! ### The proof outline -/

variable (P) in
/-- The sequential run so far leads to an abstract state of the shared one, with at most one entry for a
thread. -/
def Sequential (a₀ : A) (w : World σ ε α S Call) : Prop :=
  (∃ a, Replays P.spec a₀ (P.entries w.log) a ∧ P.Rel w.state a) ∧ ∀ i, (P.mine i w.log).length ≤ 1

variable (P) in
/-- Other threads let the shared state evolve and add no entry for thread `i`. -/
def Rely (i : Nat) (w w₁ : World σ ε α S Call) : Prop :=
  P.Evolves w.state w₁.state ∧ P.mine i w₁.log = P.mine i w.log

variable (P) in
/-- A finished call has its entry, or failed and has none. -/
def Finished (i : Nat) (c : Call) (r : Except ε α) (w : World σ ε α S Call) : Prop :=
  P.mine i w.log = if P.failed r then [] else [⟨i, c, r⟩]

section Extend
variable {a₀ a a' : A} {s : S} {e : Event σ ε α Call} (hrep : Replays P.spec a₀ (P.entries log) a)
  (hlen : ∀ i, (P.mine i log).length ≤ 1)
include hrep hlen

theorem sequential_cons_none (he : P.entryOf e = none) (hrel : P.Rel s a) :
    P.Sequential a₀ ⟨s, e :: log⟩ := by
  refine ⟨⟨a, ?_, hrel⟩, fun i => ?_⟩
  · rw [entries_cons_none he]
    exact hrep
  · rw [mine_cons_none he]
    exact hlen i

theorem sequential_cons_some {en : Entry ε α Call} (he : P.entryOf e = some en)
    (hmine : P.mine en.tid log = [])
    (hspec : P.spec en.call a = (en.result, a')) (hrel : P.Rel s a') : P.Sequential a₀ ⟨s, e :: log⟩ := by
  refine ⟨⟨a', ?_, hrel⟩, fun i => ?_⟩
  · rw [entries_cons_some he]
    exact ⟨a, hrep, hspec⟩
  · by_cases hi : en.tid = i
    · rw [mine_cons_self he hi, ← hi, hmine]
      exact Nat.le_refl 1
    · rw [mine_cons_ne he hi]
      exact hlen i

end Extend

theorem Sequential.idle {a₀ : A} {w : World σ ε α S Call} (h : P.Sequential a₀ w) {e : Event σ ε α Call}
    (he : P.entryOf e = none) : P.Sequential a₀ ⟨w.state, e :: w.log⟩ := by
  obtain ⟨⟨a, hrep, hrel⟩, hlen⟩ := h
  exact sequential_cons_none hrep hlen he hrel

theorem Rely.idle (i : Nat) (w : World σ ε α S Call) {e : Event σ ε α Call} (he : P.entryOf e = none) :
    P.Rely i w ⟨w.state, e :: w.log⟩ := ⟨P.refl _, mine_cons_none he⟩

theorem safe_of_pending {a₀ : A} {i : Nat} {c : Call} {p : Prog σ ε α} {w : World σ ε α S Call}
    (hp : P.Pending c p w.state) (hmine : P.mine i w.log = []) :
    Safe sys (fun _ _ _ _ _ => True) (P.Sequential a₀) P.Rely i c p (P.Finished i c) w := by
  induction p generalizing w with
  | ret a =>
    have hfailed : P.failed (.ok a) = true := hp
    show P.mine i w.log = _
    rw [hmine, if_pos hfailed]
  | raise e =>
    have hfailed : P.failed (.error e) = true := hp
    show P.mine i w.log = _
    rw [hmine, if_pos hfailed]
  | await o k ih =>
    intro w₁ hR hI ch _
    obtain ⟨⟨a, hrep, hrel⟩, hlen⟩ := hI
    have hmine₁ : P.mine i w₁.log = [] := hR.2.trans hmine
    have hnext := hp w₁.state a hR.1 hrel ch
    have hentry : P.entryOf (.perform i c o (sys.exec ch o w₁.state).1) =
        (P.point c o (sys.exec ch o w₁.state).1).map (⟨i, c, ·⟩) := rfl
    cases hpoint : P.point c o (sys.exec ch o w₁.state).1 with
    | none =>
      rw [hpoint] at hnext hentry
      obtain ⟨hrel', hpending⟩ := hnext
      exact ⟨sequential_cons_none hrep hlen hentry hrel', fun j _ => ⟨P.exec ch o _, mine_cons_none hentry⟩,
        ih _ hpending ((mine_cons_none hentry).trans hmine₁)⟩
    | some r =>
      rw [hpoint] at hnext hentry
      obtain ⟨hk, hfailed, a', hspec, hrel'⟩ := hnext
      refine ⟨sequential_cons_some hrep hlen hentry hmine₁ hspec hrel',
        fun j hj => ⟨P.exec ch o _, mine_cons_ne hentry (Ne.symm hj)⟩, ?_⟩
      have hfinished : P.Finished i c r (w₁.performed sys.exec i c o ch) := by
        show P.mine i (_ :: _) = _
        rw [mine_cons_self hentry rfl, hmine₁, hfailed]
        rfl
      rw [hk]
      cases r <;> exact hfinished

variable (P) in
/-- The outline of a system whose calls end at their points. -/
def outline (a₀ : A) (hbody : ∀ c s, P.Pending c (sys.body c) s) : Outline sys (fun _ _ _ _ _ => True) where
  I := P.Sequential a₀
  R := P.Rely
  Post := P.Finished
  refl i w := ⟨P.refl _, rfl⟩
  trans i _ _ _ h h' := ⟨P.trans h.1 h'.1, h'.2.trans h.2⟩
  post_stable h _ hpost := h.2.trans hpost
  invoke := by
    intro w n c s hI hfresh hs
    rw [P.invoke hs]
    refine ⟨hI.idle rfl, fun j _ => Rely.idle j w rfl, safe_of_pending (hbody c _) ?_⟩
    exact (mine_cons_none rfl).trans (mine_of_fresh hfresh)
  respond := by
    intro w i c r hI _
    exact ⟨hI.idle rfl, fun j => Rely.idle j w rfl⟩

theorem nodup_entries (h : ∀ i, (P.mine i log).length ≤ 1) : ((P.entries log).map Entry.tid).Nodup := by
  rw [List.nodup_iff_count_le_one]
  intro i
  rw [List.count_eq_countP, List.countP_map, List.countP_eq_length_filter]
  exact h i

/-- A call that responded before another was invoked comes before it. -/
theorem realTime (hlog : log.Pairwise Event.Follows) {e f : Entry ε α Call} (he : e ∈ P.entries log)
    (hf : f ∈ P.entries log)
    (h : List.Sublist [.invoke e.tid e.call, .respond f.tid f.call f.result] log) :
    List.Sublist [e, f] (P.entries log) := by
  obtain ⟨newer, older, rfl, hinvoke, hrespond⟩ := List.cons_sublist_iff.mp h
  rw [List.singleton_sublist] at hrespond
  rw [entries, List.filterMap_append, List.mem_append] at he hf
  rw [entries, List.filterMap_append]
  have hcross := (List.pairwise_append.mp hlog).2.2
  have he' : e ∈ P.entries newer := by
    refine he.resolve_right fun he => ?_
    obtain ⟨o, r, hev, -⟩ := mem_entries he
    exact absurd (hcross _ hinvoke _ hev rfl).1 (by simp [Event.opens])
  have hf' : f ∈ P.entries older := by
    refine hf.resolve_left fun hf => ?_
    obtain ⟨o, r, hev, -⟩ := mem_entries hf
    exact absurd (hcross _ hev _ hrespond rfl).2 (by simp [Event.closes])
  exact List.Sublist.append (List.singleton_sublist.mpr he') (List.singleton_sublist.mpr hf')

/-- **Every interleaving linearizes**, in the order of the linearization points. -/
theorem linearizes (hbody : ∀ c s, P.Pending c (sys.body c) s)
    {ok : Config σ ε α S Call → Action C Call → Prop}
    {s : S} {a₀ : A} (hs : P.Rel s a₀) {cfg : Config σ ε α S Call}
    (hr : sys.Reach ok (System.start s) cfg) :
    ∃ a, Linearizes P.spec P.failed a₀ a cfg.world.log (P.entries cfg.world.log) ∧
      P.Rel cfg.world.state a := by
  have hstart : P.Sequential a₀ ⟨s, []⟩ := ⟨⟨a₀, rfl, hs⟩, fun _ => Nat.zero_le _⟩
  have hholds := (P.outline a₀ hbody).sound hstart hr.unconditional
  have hlogged : Logged cfg := (Logged.start s).reach hr
  obtain ⟨⟨a, hrep, hrel⟩, hlen⟩ := hholds.inv
  have hfinished (i : Nat) (c : Call) (r : Except ε α) (h : .respond i c r ∈ cfg.world.log) :
      P.mine i cfg.world.log = if P.failed r then [] else [⟨i, c, r⟩] :=
    hholds.threads i _ (hlogged.responded i c r h)
  refine ⟨a, ⟨hrep, nodup_entries hlen, fun e he => ?_, fun i c r h hfailed => ?_,
    fun i c r h hfailed e he htid => ?_, fun e he f hf h => realTime hlogged.ordered he hf h⟩, hrel⟩
  · obtain ⟨o, r, hev, -⟩ := mem_entries he
    exact hlogged.performed _ _ o r hev
  · have hmine := hfinished i c r h
    rw [hfailed] at hmine
    have hmem : (⟨i, c, r⟩ : Entry ε α Call) ∈ P.mine i cfg.world.log := by
      rw [hmine]
      exact List.mem_cons_self
    exact (List.mem_filter.mp hmem).1
  · have hmine := hfinished i c r h
    rw [if_pos hfailed] at hmine
    have hmem : e ∈ P.mine i cfg.world.log := List.mem_filter.mpr ⟨he, by simpa using htid⟩
    rw [hmine] at hmem
    cases hmem

end Points

end Async
