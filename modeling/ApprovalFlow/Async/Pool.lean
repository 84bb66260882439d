import ApprovalFlow.Async.Prog
import Mathlib.Data.List.Induction

/-!
# Interleaved runs

Any number of coroutines over one shared state, interleaved at their awaits.

* A `System` says what each call runs, when it may be invoked, and how operations are answered. A
  `Config` is the shared state, the threads in invocation order (a thread is named by its position) and
  the log of the run, newest event first: invocations, awaited operations with their replies, responses.
* `System.act` performs one `Action`: invoke a call, let thread `i` perform the operation it awaits, let
  thread `i` respond. A thread that is never scheduled again has crashed; a call may be invoked again at
  any time.
* `System.Reach ok cfg`: `cfg` is reached by actions that meet `ok`, a condition on the configuration
  before a step.
* `Safe` is a rely/guarantee condition on one thread and `Outline` a proof outline of a system: an
  invariant `I` of state and log, and a rely `R i` for each thread that all other threads guarantee.
  `Outline.sound` gives both for every interleaving; `Safe.attempt` composes coroutines.
-/

namespace Async

variable {σ : Sig} {ε α β γ S C Call : Type}

/-- What happens in a run, by thread. -/
inductive Event (σ : Sig) (ε α Call : Type)
  | invoke (i : Nat) (c : Call)
  | perform (i : Nat) (c : Call) (o : σ.Op) (r : Except ε (σ.Res o))
  | respond (i : Nat) (c : Call) (r : Except ε α)

/-- The thread of an event. -/
def Event.tid : Event σ ε α Call → Nat
  | invoke i _ => i
  | perform i _ _ _ => i
  | respond i _ _ => i

@[simp] theorem Event.tid_invoke (i : Nat) (c : Call) : (invoke i c : Event σ ε α Call).tid = i := rfl

@[simp] theorem Event.tid_perform (i : Nat) (c : Call) (o : σ.Op) (r : Except ε (σ.Res o)) :
    (perform i c o r : Event σ ε α Call).tid = i := rfl

@[simp] theorem Event.tid_respond (i : Nat) (c : Call) (r : Except ε α) :
    (respond i c r : Event σ ε α Call).tid = i := rfl

/-- The shared state with the log of the run that led to it. -/
structure World (σ : Sig) (ε α S Call : Type) where
  state : S
  log : List (Event σ ε α Call)

inductive Status (σ : Sig) (ε α : Type)
  | running (p : Prog σ ε α)
  | done (r : Except ε α)

structure Thread (σ : Sig) (ε α Call : Type) where
  call : Call
  status : Status σ ε α

structure Config (σ : Sig) (ε α S Call : Type) where
  world : World σ ε α S Call
  threads : List (Thread σ ε α Call)

inductive Action (C Call : Type)
  | invoke (c : Call)
  | step (i : Nat) (c : C)
  | respond (i : Nat)
  deriving DecidableEq

structure System (σ : Sig) (ε α S C Call : Type) where
  body : Call → Prog σ ε α
  /-- May the call be made in this state, and what does making it change? -/
  invoke : Call → S → Option S
  exec : Handler σ ε S C

/-- The result of a coroutine that awaits nothing more. -/
def Prog.result? : Prog σ ε α → Option (Except ε α)
  | .ret a => some (.ok a)
  | .raise e => some (.error e)
  | .await _ _ => none

namespace System
variable (sys : System σ ε α S C Call)

/-- One action of a run, if it is enabled. -/
def act (cfg : Config σ ε α S Call) : Action C Call → Option (Config σ ε α S Call)
  | .invoke c =>
    (sys.invoke c cfg.world.state).map fun s =>
      ⟨⟨s, .invoke cfg.threads.length c :: cfg.world.log⟩, cfg.threads ++ [⟨c, .running (sys.body c)⟩]⟩
  | .step i c =>
    match cfg.threads[i]? with
    | some ⟨call, .running (.await o k)⟩ =>
      let r := sys.exec c o cfg.world.state
      some ⟨⟨r.2, .perform i call o r.1 :: cfg.world.log⟩, cfg.threads.set i ⟨call, .running (k r.1)⟩⟩
    | _ => none
  | .respond i =>
    match cfg.threads[i]? with
    | some ⟨call, .running p⟩ =>
      p.result?.map fun r =>
        ⟨⟨cfg.world.state, .respond i call r :: cfg.world.log⟩, cfg.threads.set i ⟨call, .done r⟩⟩
    | _ => none

/-- Perform a schedule, checking every action before it is taken. -/
def runActions (check : Config σ ε α S Call → Action C Call → Bool) :
    List (Action C Call) → Config σ ε α S Call → Option (Config σ ε α S Call)
  | [], cfg => some cfg
  | a :: as, cfg => if check cfg a then (sys.act cfg a).bind (runActions check as) else none

/-- No thread yet. -/
def start (s : S) : Config σ ε α S Call := ⟨⟨s, []⟩, []⟩

/-- The configurations that schedules reach from `cfg₀`, every action meeting `ok` where it is taken. -/
inductive Reach (ok : Config σ ε α S Call → Action C Call → Prop) (cfg₀ : Config σ ε α S Call) :
    Config σ ε α S Call → Prop
  | refl : Reach ok cfg₀ cfg₀
  | tail {cfg cfg' : Config σ ε α S Call} {a : Action C Call} :
      Reach ok cfg₀ cfg → ok cfg a → sys.act cfg a = some cfg' → Reach ok cfg₀ cfg'

variable {sys} {ok : Config σ ε α S Call → Action C Call → Prop} {cfg₀ cfg cfg' : Config σ ε α S Call}

theorem Reach.trans {cfg₁ : Config σ ε α S Call} (h₁ : sys.Reach ok cfg₀ cfg₁)
    (h₂ : sys.Reach ok cfg₁ cfg) : sys.Reach ok cfg₀ cfg := by
  induction h₂ with
  | refl => exact h₁
  | tail _ hok ha ih => exact ih.tail hok ha

theorem Reach.mono {ok' : Config σ ε α S Call → Action C Call → Prop} (hok : ∀ cfg a, ok cfg a → ok' cfg a)
    (h : sys.Reach ok cfg₀ cfg) : sys.Reach ok' cfg₀ cfg := by
  induction h with
  | refl => exact .refl
  | tail _ ha hact ih => exact ih.tail (hok _ _ ha) hact

theorem reach_of_runActions {check : Config σ ε α S Call → Action C Call → Bool}
    (hcheck : ∀ cfg a, check cfg a = true → ok cfg a) (as : List (Action C Call))
    (h : sys.runActions check as cfg₀ = some cfg) : sys.Reach ok cfg₀ cfg := by
  induction as generalizing cfg₀ with
  | nil => cases h; exact .refl
  | cons a as ih =>
    unfold runActions at h
    split_ifs at h with ha
    obtain ⟨cfg₁, h1, h2⟩ := Option.bind_eq_some_iff.mp h
    exact (Reach.tail .refl (hcheck _ _ ha) h1).trans (ih h2)

/-! ### What an action does -/

theorem act_invoke {c : Call} (h : sys.act cfg (.invoke c : Action C Call) = some cfg') :
    ∃ s, sys.invoke c cfg.world.state = some s ∧
      cfg' = ⟨⟨s, .invoke cfg.threads.length c :: cfg.world.log⟩,
        cfg.threads ++ [⟨c, .running (sys.body c)⟩]⟩ := by
  simp only [act, Option.map_eq_some_iff] at h
  obtain ⟨s, hs, rfl⟩ := h
  exact ⟨s, hs, rfl⟩

theorem act_step {i : Nat} {c : C} (h : sys.act cfg (.step i c) = some cfg') :
    ∃ call o k, cfg.threads[i]? = some ⟨call, .running (.await o k)⟩ ∧
      cfg' = ⟨⟨(sys.exec c o cfg.world.state).2,
        .perform i call o (sys.exec c o cfg.world.state).1 :: cfg.world.log⟩,
        cfg.threads.set i ⟨call, .running (k (sys.exec c o cfg.world.state).1)⟩⟩ := by
  simp only [act] at h
  split at h
  · next call o k hi =>
    cases h
    exact ⟨call, o, k, hi, rfl⟩
  · cases h

theorem act_respond {i : Nat} (h : sys.act cfg (.respond i : Action C Call) = some cfg') :
    ∃ call p r, cfg.threads[i]? = some ⟨call, .running p⟩ ∧ p.result? = some r ∧
      cfg' = ⟨⟨cfg.world.state, .respond i call r :: cfg.world.log⟩,
        cfg.threads.set i ⟨call, .done r⟩⟩ := by
  simp only [act] at h
  split at h
  · next call p hi =>
    simp only [Option.map_eq_some_iff] at h
    obtain ⟨r, hr, rfl⟩ := h
    exact ⟨call, p, r, hi, hr, rfl⟩
  · cases h

end System

/-- A condition on awaited operations, where they are performed. -/
abbrev StepCond (σ : Sig) (ε α S C Call : Type) := World σ ε α S Call → Nat → Call → σ.Op → C → Prop

/-- Every operation that an action performs meets `ok`. -/
def meets (ok : StepCond σ ε α S C Call) (cfg : Config σ ε α S Call) : Action C Call → Prop
  | .step i c => ∀ call o k, cfg.threads[i]? = some ⟨call, .running (.await o k)⟩ → ok cfg.world i call o c
  | _ => True

theorem System.Reach.unconditional {sys : System σ ε α S C Call}
    {ok : Config σ ε α S Call → Action C Call → Prop}
    {cfg₀ cfg : Config σ ε α S Call} (h : sys.Reach ok cfg₀ cfg) :
    sys.Reach (meets fun _ _ _ _ _ => True) cfg₀ cfg := by
  refine h.mono fun cfg a _ => ?_
  cases a with
  | invoke c => trivial
  | step i c => exact fun _ _ _ _ => trivial
  | respond i => trivial

/-- The world after thread `i` performed `o`. -/
def World.performed (w : World σ ε α S Call) (h : Handler σ ε S C) (i : Nat) (call : Call)
    (o : σ.Op) (c : C) : World σ ε α S Call :=
  ⟨(h c o w.state).2, .perform i call o (h c o w.state).1 :: w.log⟩

/-- The world after thread `i` responded. -/
def World.responded (w : World σ ε α S Call) (i : Nat) (call : Call) (r : Except ε α) :
    World σ ε α S Call :=
  ⟨w.state, .respond i call r :: w.log⟩

/-- Threads that have each left an event of their own are no more than these events. -/
theorem countP_threads_le {P : Thread σ ε α Call → Bool} {Q : Event σ ε α Call → Bool}
    {threads : List (Thread σ ε α Call)} {log : List (Event σ ε α Call)}
    (h : ∀ i t, threads[i]? = some t → P t = true → ∃ e ∈ log, e.tid = i ∧ Q e = true) :
    threads.countP P ≤ log.countP Q := by
  induction threads using List.reverseRecOn generalizing log with
  | nil => exact Nat.zero_le _
  | append_singleton threads t ih =>
    -- the events of the last thread, and those of the others
    rw [List.countP_append, List.countP_eq_countP_filter_add log Q fun e => e.tid != threads.length]
    refine Nat.add_le_add (ih fun i u hi hP => ?_) ?_
    · have hlt : i < threads.length := (List.getElem?_eq_some_iff.mp hi).1
      obtain ⟨e, he, htid, hQ⟩ := h i u (by rw [List.getElem?_append_left hlt]; exact hi) hP
      refine ⟨e, List.mem_filter.mpr ⟨he, ?_⟩, htid, hQ⟩
      simp [htid, Nat.ne_of_lt hlt]
    · rw [List.countP_singleton]
      split_ifs with hP
      · obtain ⟨e, he, htid, hQ⟩ := h threads.length t List.getElem?_concat_length hP
        refine List.countP_pos_iff.mpr ⟨e, List.mem_filter.mpr ⟨he, ?_⟩, hQ⟩
        simp [htid]
      · exact Nat.zero_le _

/-! ## Rely and guarantee -/

/-- Thread `i`, with `p` left to run for `call`, keeps `I`, guarantees `R j` to every other thread `j`,
and ends in `Φ`, whatever the others do within `R i`. -/
def Safe (sys : System σ ε α S C Call) (ok : StepCond σ ε α S C Call) (I : World σ ε α S Call → Prop)
    (R : Nat → World σ ε α S Call → World σ ε α S Call → Prop) (i : Nat) (call : Call) :
    Prog σ ε β → (Except ε β → World σ ε α S Call → Prop) → World σ ε α S Call → Prop
  | .ret a, Φ, w => Φ (.ok a) w
  | .raise e, Φ, w => Φ (.error e) w
  | .await o k, Φ, w => ∀ w₁, R i w w₁ → I w₁ → ∀ c, ok w₁ i call o c →
      I (w₁.performed sys.exec i call o c) ∧ (∀ j, j ≠ i → R j w₁ (w₁.performed sys.exec i call o c)) ∧
        Safe sys ok I R i call (k (sys.exec c o w₁.state).1) Φ (w₁.performed sys.exec i call o c)

section Safe
variable {sys : System σ ε α S C Call} {ok : StepCond σ ε α S C Call} {I : World σ ε α S Call → Prop}
  {R : Nat → World σ ε α S Call → World σ ε α S Call → Prop} {i : Nat} {call : Call}
    {w w₁ : World σ ε α S Call}

@[simp] theorem safe_ret (a : β) (Φ : Except ε β → World σ ε α S Call → Prop) :
    Safe sys ok I R i call (.ret a) Φ w ↔ Φ (.ok a) w := Iff.rfl

@[simp] theorem safe_raise (e : ε) (Φ : Except ε β → World σ ε α S Call → Prop) :
    Safe sys ok I R i call (.raise e) Φ w ↔ Φ (.error e) w := Iff.rfl

theorem Safe.mono {p : Prog σ ε β} {Φ Ψ : Except ε β → World σ ε α S Call → Prop}
    (hΦ : ∀ r w, Φ r w → Ψ r w)
    (hp : Safe sys ok I R i call p Φ w) : Safe sys ok I R i call p Ψ w := by
  induction p generalizing w with
  | ret a => exact hΦ _ _ hp
  | raise e => exact hΦ _ _ hp
  | await o k ih =>
    intro w₁ hR hI c hc
    obtain ⟨h1, h2, h3⟩ := hp w₁ hR hI c hc
    exact ⟨h1, h2, ih _ h3⟩

/-- Sequential composition, for a value and for an exception. -/
theorem Safe.attempt {p : Prog σ ε β} {f : Except ε β → Prog σ ε γ}
    {Φ : Except ε γ → World σ ε α S Call → Prop}
    (hp : Safe sys ok I R i call p (fun r w => Safe sys ok I R i call (f r) Φ w) w) :
    Safe sys ok I R i call (p.attempt f) Φ w := by
  induction p generalizing w with
  | ret a => exact hp
  | raise e => exact hp
  | await o k ih =>
    intro w₁ hR hI c hc
    obtain ⟨h1, h2, h3⟩ := hp w₁ hR hI c hc
    exact ⟨h1, h2, ih _ h3⟩

theorem Safe.stable (htrans : ∀ {w₁ w₂ w₃}, R i w₁ w₂ → R i w₂ w₃ → R i w₁ w₃) {p : Prog σ ε β}
    {Φ : Except ε β → World σ ε α S Call → Prop} (hΦ : ∀ r, R i w w₁ → I w₁ → Φ r w → Φ r w₁)
    (hp : Safe sys ok I R i call p Φ w) (hR : R i w w₁) (hI : I w₁) : Safe sys ok I R i call p Φ w₁ := by
  cases p with
  | ret a => exact hΦ _ hR hI hp
  | raise e => exact hΦ _ hR hI hp
  | await o k => exact fun w₂ hR₂ hI₂ c hc => hp w₂ (htrans hR hR₂) hI₂ c hc

theorem Safe.of_only {P : σ.Op → Prop} (htrans : ∀ {w₁ w₂ w₃}, R i w₁ w₂ → R i w₂ w₃ → R i w₁ w₃)
    (hstep : ∀ w o c, I w → P o → I (w.performed sys.exec i call o c) ∧
      ∀ j, R j w (w.performed sys.exec i call o c))
    {p : Prog σ ε β} {Φ : Except ε β → World σ ε α S Call → Prop} (hΦ : ∀ r w₁, R i w w₁ → I w₁ → Φ r w₁)
    (hp : p.Only P) (hR : R i w w₁) (hI : I w₁) : Safe sys ok I R i call p Φ w₁ := by
  induction p generalizing w₁ with
  | ret a => exact hΦ _ _ hR hI
  | raise e => exact hΦ _ _ hR hI
  | await o k ih =>
    intro w₂ hR₂ hI₂ c _
    obtain ⟨hI₃, hR₃⟩ := hstep w₂ o c hI₂ hp.1
    exact ⟨hI₃, fun j _ => hR₃ j, ih _ (hp.2 _) (htrans (htrans hR hR₂) (hR₃ i)) hI₃⟩

end Safe

/-- A rely/guarantee proof outline: an invariant, the interference each thread tolerates, and what a
thread has established when it ends. -/
structure Outline (sys : System σ ε α S C Call) (ok : StepCond σ ε α S C Call) where
  I : World σ ε α S Call → Prop
  R : Nat → World σ ε α S Call → World σ ε α S Call → Prop
  Post : Nat → Call → Except ε α → World σ ε α S Call → Prop
  refl : ∀ i w, R i w w
  trans : ∀ i {w₁ w₂ w₃}, R i w₁ w₂ → R i w₂ w₃ → R i w₁ w₃
  post_stable : ∀ {i c r w w₁}, R i w w₁ → I w₁ → Post i c r w → Post i c r w₁
  invoke : ∀ {w n c s}, I w → (∀ e ∈ w.log, e.tid < n) → sys.invoke c w.state = some s →
    I ⟨s, .invoke n c :: w.log⟩ ∧ (∀ j, j ≠ n → R j w ⟨s, .invoke n c :: w.log⟩) ∧
      Safe sys ok I R n c (sys.body c) (Post n c) ⟨s, .invoke n c :: w.log⟩
  respond : ∀ {w i c r}, I w → Post i c r w → I (w.responded i c r) ∧ ∀ j, R j w (w.responded i c r)

namespace Outline
variable {sys : System σ ε α S C Call} {ok : StepCond σ ε α S C Call} (o : Outline sys ok)

/-- What the outline says of thread `i`. -/
def ThreadOk (i : Nat) (w : World σ ε α S Call) (t : Thread σ ε α Call) : Prop :=
  match t.status with
  | .running p => Safe sys ok o.I o.R i t.call p (o.Post i t.call) w
  | .done r => o.Post i t.call r w

structure Holds (cfg : Config σ ε α S Call) : Prop where
  inv : o.I cfg.world
  fresh : ∀ e ∈ cfg.world.log, e.tid < cfg.threads.length
  threads : ∀ i t, cfg.threads[i]? = some t → o.ThreadOk i cfg.world t

variable {o}

theorem ThreadOk.stable {i : Nat} {w w₁ : World σ ε α S Call} {t : Thread σ ε α Call} (h : o.ThreadOk i w t)
    (hR : o.R i w w₁) (hI : o.I w₁) : o.ThreadOk i w₁ t := by
  obtain ⟨call, p | r⟩ := t
  · exact Safe.stable (o.trans i) (fun _ => o.post_stable) h hR hI
  · exact o.post_stable hR hI h

/-- One thread moved to `t` and the others saw only what they tolerate. -/
theorem Holds.set {cfg : Config σ ε α S Call} (h : o.Holds cfg) {i : Nat} {t : Thread σ ε α Call}
    {w : World σ ε α S Call} (hlt : i < cfg.threads.length) (hI : o.I w)
    (hlog : ∀ e ∈ w.log, e ∈ cfg.world.log ∨ e.tid = i) (hR : ∀ j, j ≠ i → o.R j cfg.world w)
    (ht : o.ThreadOk i w t) : o.Holds ⟨w, cfg.threads.set i t⟩ := by
  refine ⟨hI, fun e he => ?_, fun j u hj => ?_⟩
  · rw [List.length_set]
    rcases hlog e he with h' | h'
    · exact h.fresh e h'
    · rw [h']; exact hlt
  · by_cases hji : j = i
    · subst hji
      rw [List.getElem?_set_self hlt] at hj
      cases hj
      exact ht
    · rw [List.getElem?_set_ne (Ne.symm hji)] at hj
      exact (h.threads j u hj).stable (hR j hji) hI

theorem Holds.step {cfg cfg' : Config σ ε α S Call} {a : Action C Call} (h : o.Holds cfg)
    (hok : meets ok cfg a) (ha : sys.act cfg a = some cfg') : o.Holds cfg' := by
  cases a with
  | invoke c =>
    obtain ⟨s, hs, rfl⟩ := System.act_invoke ha
    obtain ⟨hI, hR, hsafe⟩ := o.invoke h.inv h.fresh hs
    refine ⟨hI, fun e he => ?_, fun j u hj => ?_⟩
    · rw [List.length_append, List.length_singleton]
      rcases List.mem_cons.mp he with rfl | he
      · exact Nat.lt_succ_self _
      · exact Nat.lt_succ_of_lt (h.fresh e he)
    · rcases Nat.lt_trichotomy j cfg.threads.length with hlt | rfl | hgt
      · rw [List.getElem?_append_left hlt] at hj
        exact (h.threads j u hj).stable (hR j (Nat.ne_of_lt hlt)) hI
      · rw [List.getElem?_concat_length] at hj
        cases hj
        exact hsafe
      · rw [List.getElem?_eq_none (by simp; omega)] at hj
        cases hj
  | step i c =>
    obtain ⟨call, op, k, hi, rfl⟩ := System.act_step ha
    obtain ⟨hI, hR, hsafe⟩ := h.threads i _ hi _ (o.refl i _) h.inv c (hok call op k hi)
    refine h.set (List.getElem?_eq_some_iff.mp hi).1 hI (fun e he => ?_) hR hsafe
    rcases List.mem_cons.mp he with rfl | he
    · exact .inr rfl
    · exact .inl he
  | respond i =>
    obtain ⟨call, p, r, hi, hr, rfl⟩ := System.act_respond ha
    have hpost : o.Post i call r cfg.world := by
      have hp := h.threads i _ hi
      cases p with
      | ret a => cases hr; exact hp
      | raise e => cases hr; exact hp
      | await _ _ => cases hr
    obtain ⟨hI, hR⟩ := o.respond h.inv hpost
    refine h.set (List.getElem?_eq_some_iff.mp hi).1 hI (fun e he => ?_) (fun j _ => hR j)
      (o.post_stable (hR i) hI hpost)
    rcases List.mem_cons.mp he with rfl | he
    · exact .inr rfl
    · exact .inl he

theorem Holds.rely {cfg cfg' : Config σ ε α S Call} {a : Action C Call} (h : o.Holds cfg)
    (hok : meets ok cfg a)
    (ha : sys.act cfg a = some cfg') {j : Nat} (hj : cfg'.threads.length ≤ j) :
    cfg.threads.length ≤ j ∧ o.R j cfg.world cfg'.world := by
  cases a with
  | invoke c =>
    obtain ⟨s, hs, rfl⟩ := System.act_invoke ha
    rw [List.length_append, List.length_singleton] at hj
    exact ⟨by omega, (o.invoke h.inv h.fresh hs).2.1 j (by omega)⟩
  | step i c =>
    obtain ⟨call, op, k, hi, rfl⟩ := System.act_step ha
    rw [List.length_set] at hj
    have hlt := (List.getElem?_eq_some_iff.mp hi).1
    exact ⟨hj, (h.threads i _ hi _ (o.refl i _) h.inv c (hok call op k hi)).2.1 j (by omega)⟩
  | respond i =>
    obtain ⟨call, p, r, hi, hr, rfl⟩ := System.act_respond ha
    rw [List.length_set] at hj
    have hpost : o.Post i call r cfg.world := by
      have hp := h.threads i _ hi
      cases p with
      | ret a => cases hr; exact hp
      | raise e => cases hr; exact hp
      | await _ _ => cases hr
    exact ⟨hj, (o.respond h.inv hpost).2 j⟩

theorem Holds.observe {cfg cfg' : Config σ ε α S Call} (h : o.Holds cfg)
    (hr : sys.Reach (meets ok) cfg cfg') :
    o.Holds cfg' ∧ ∀ j, cfg'.threads.length ≤ j → o.R j cfg.world cfg'.world := by
  induction hr with
  | refl => exact ⟨h, fun j _ => o.refl j _⟩
  | tail _ hok ha ih =>
    refine ⟨ih.1.step hok ha, fun j hj => ?_⟩
    obtain ⟨hle, hR⟩ := ih.1.rely hok ha hj
    exact o.trans j (ih.2 j hle) hR

variable (o)

theorem holds_start {s : S} (hs : o.I ⟨s, []⟩) : o.Holds (System.start s) :=
  ⟨hs, fun _ he => absurd he List.not_mem_nil, fun _ _ hi => by cases hi⟩

/-- **Soundness**: what the outline says holds in every interleaving whose steps meet the condition. -/
theorem sound {s : S} (hs : o.I ⟨s, []⟩) {cfg : Config σ ε α S Call}
    (hr : sys.Reach (meets ok) (System.start s) cfg) : o.Holds cfg := by
  induction hr with
  | refl => exact o.holds_start hs
  | tail _ hok ha ih => exact ih.step hok ha

end Outline

end Async
