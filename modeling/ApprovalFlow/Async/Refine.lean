import ApprovalFlow.Async.Lockstep

/-!
# Refinement

Coroutines over one kind of operations that do what others do over more abstract operations. An abstract
operation may take several concrete ones: it takes effect at one of them, whatever other threads do in
between.

* `Levels`: the operations of two levels, which states of the two correspond, and what can become of a
  concrete state.
* `Levels.Refines L p q s Φ`: every step of `p` is a step of `q` or shows in no abstract state, and `Φ`
  holds of the results; `s` is the state in which `p` was left.
* `Levels.Refines.attempt`, `onOk`, `Levels.refines_await`, `refines_op`, `refines_retries`: the rules.
* `Levels.Abstracts`: every call of one system refines the same call of another.
* `Levels.Abstracts.sound`: then every run of the first is a run of the second, with corresponding
  states, calls and results.
-/

namespace Async

variable {σ τ : Sig} {ε α β γ δ S T C D Call : Type}

structure Levels (σ τ : Sig) (ε S T C D : Type) where
  exec : Handler σ ε S C
  spec : Handler τ ε T D
  Rep : S → T → Prop
  Evolves : S → S → Prop
  refl : ∀ s, Evolves s s
  trans : ∀ {s₁ s₂ s₃}, Evolves s₁ s₂ → Evolves s₂ s₃ → Evolves s₁ s₃
  evolves : ∀ c o s, Evolves s (exec c o s).2

namespace Levels
open Coupling (Both)
variable (L : Levels σ τ ε S T C D)

/-- Every operation of `p`, in any state that comes after `s`, leaves the abstract state as it is, or is
the operation that `q` awaits. -/
def Refines : Prog σ ε α → Prog τ ε β → S → (Except ε α → Except ε β → Prop) → Prop
  | .ret a, .ret b, _, Φ => Φ (.ok a) (.ok b)
  | .raise e, .raise e', _, Φ => Φ (.error e) (.error e')
  | .await o k, .await o' k', s, Φ => ∀ s₁ t c, L.Evolves s s₁ → L.Rep s₁ t →
      L.Rep (L.exec c o s₁).2 t ∧ Refines (k (L.exec c o s₁).1) (.await o' k') (L.exec c o s₁).2 Φ ∨
        ∃ d, L.Rep (L.exec c o s₁).2 (L.spec d o' t).2 ∧
          Refines (k (L.exec c o s₁).1) (k' (L.spec d o' t).1) (L.exec c o s₁).2 Φ
  | _, _, _, _ => False

variable {L}

section Rules
variable {p : Prog σ ε α} {q : Prog τ ε β} {s s' : S} {Φ Ψ : Except ε α → Except ε β → Prop}
  {Φ' : Except ε γ → Except ε δ → Prop}

theorem Refines.later (h : L.Refines p q s Φ) (hs : L.Evolves s s') : L.Refines p q s' Φ := by
  cases p <;> cases q
  case await.await o k o' k' => exact fun s₁ t c hev hrep => h s₁ t c (L.trans hs hev) hrep
  all_goals exact h

theorem Refines.attempt {f : Except ε α → Prog σ ε γ} {g : Except ε β → Prog τ ε δ} (hp : L.Refines p q s Φ)
    (hf : ∀ r r' s₁, L.Evolves s s₁ → Φ r r' → L.Refines (f r) (g r') s₁ Φ') :
    L.Refines (p.attempt f) (q.attempt g) s Φ' := by
  induction p generalizing q s with
  | ret a =>
    cases q with
    | ret b => exact hf _ _ s (L.refl s) hp
    | raise e => exact hp.elim
    | await o k => exact hp.elim
  | raise e =>
    cases q with
    | ret b => exact hp.elim
    | raise e' => exact hf _ _ s (L.refl s) hp
    | await o k => exact hp.elim
  | await o k ih =>
    cases q with
    | ret b => exact hp.elim
    | raise e => exact hp.elim
    | await o' k' =>
      intro s₁ t c hev hrep
      have hlater {r r' s₂} (h₂ : L.Evolves (L.exec c o s₁).2 s₂) (hr : Φ r r') :
          L.Refines (f r) (g r') s₂ Φ' :=
        hf r r' s₂ (L.trans hev (L.trans (L.evolves c o s₁) h₂)) hr
      rcases hp s₁ t c hev hrep with ⟨hrep', h⟩ | ⟨d, hrep', h⟩
      · exact .inl ⟨hrep', ih _ h fun r r' s₂ h₂ hr => hlater h₂ hr⟩
      · exact .inr ⟨d, hrep', ih _ h fun r r' s₂ h₂ hr => hlater h₂ hr⟩

/-- `q` awaits one operation, which can answer `r` and lead from `t` to `t'`. -/
def Performs (L : Levels σ τ ε S T C D) (q : Prog τ ε β) (t : T) (r : Except ε β) (t' : T) : Prop :=
  ∃ o' k' d, q = .await o' k' ∧ k' (L.spec d o' t).1 = .ofExcept r ∧ (L.spec d o' t).2 = t'

theorem performs_op (o' : τ.Op) (d : D) (t : T) :
    L.Performs (.op o') t (L.spec d o' t).1 (L.spec d o' t).2 :=
  ⟨o', .ofExcept, d, rfl, rfl, rfl⟩

/-- **The rule of an operation**: it shows in no abstract state, or is the whole of `q`. -/
theorem refines_await {o : σ.Op} {k : Except ε (σ.Res o) → Prog σ ε α} (hq : q.result? = none)
    (h : ∀ s₁ t c, L.Evolves s s₁ → L.Rep s₁ t →
      L.Rep (L.exec c o s₁).2 t ∧ L.Refines (k (L.exec c o s₁).1) q (L.exec c o s₁).2 Φ ∨
        ∃ r t', L.Performs q t r t' ∧ L.Rep (L.exec c o s₁).2 t' ∧
          L.Refines (k (L.exec c o s₁).1) (.ofExcept r) (L.exec c o s₁).2 Φ) :
    L.Refines (.await o k) q s Φ := by
  cases q with
  | ret b => cases hq
  | raise e => cases hq
  | await o' k' =>
    intro s₁ t c hev hrep
    rcases h s₁ t c hev hrep with h | ⟨r, t', ⟨o'', k'', d, hawait, hk, rfl⟩, hrep', h⟩
    · exact .inl h
    · cases hawait
      exact .inr ⟨d, hrep', by rwa [hk]⟩

/-- **The rule of retries**: an attempt is the whole of `q`, or goes on with the next one; the last one
may give up. -/
theorem refines_retries (attempt : Prog σ ε α → Prog σ ε α) {loop : Nat → Prog σ ε α}
    (hloop : ∀ n, loop (n + 1) = attempt (loop n))
    (hattempt : ∀ retry s, (∀ s₁ t, L.Rep s₁ t → L.Refines retry q s₁ Φ ∨
      ∃ r, L.Performs q t r t ∧ L.Refines retry (.ofExcept r) s₁ Φ) → L.Refines (attempt retry) q s Φ)
    (hgiveUp : ∀ s₁ t, L.Rep s₁ t → ∃ r, L.Performs q t r t ∧ L.Refines (loop 0) (.ofExcept r) s₁ Φ)
    (n : Nat) (s : S) : L.Refines (loop (n + 1)) q s Φ := by
  induction n generalizing s with
  | zero =>
    rw [hloop]
    exact hattempt _ s fun s₁ t hrep => .inr (hgiveUp s₁ t hrep)
  | succ n ih =>
    rw [hloop]
    exact hattempt _ s fun s₁ t _ => .inl (ih s₁)

section Both
variable {V : α → β → Prop} {V' : γ → δ → Prop} {E : ε → ε → Prop}

theorem refines_ofExcept {r : Except ε α} {r' : Except ε β} (h : Both V E r r') :
    L.Refines (.ofExcept r) (.ofExcept r') s (Both V E) := by
  cases r <;> cases r'
  case ok.error => exact h.elim
  case error.ok => exact h.elim
  all_goals exact h

theorem refines_op {o : σ.Op} {o' : τ.Op} {V : σ.Res o → τ.Res o' → Prop}
    (h : ∀ s₁ t c, L.Evolves s s₁ → L.Rep s₁ t →
      ∃ d, L.Rep (L.exec c o s₁).2 (L.spec d o' t).2 ∧ Both V E (L.exec c o s₁).1 (L.spec d o' t).1) :
    L.Refines (.op o) (.op o') s (Both V E) := by
  intro s₁ t c hev hrep
  obtain ⟨d, hrep', hr⟩ := h s₁ t c hev hrep
  exact .inr ⟨d, hrep', refines_ofExcept hr⟩

theorem Refines.onOk {f : α → Prog σ ε γ} {g : β → Prog τ ε δ} (hp : L.Refines p q s (Both V E))
    (hf : ∀ a b s₁, L.Evolves s s₁ → V a b → L.Refines (f a) (g b) s₁ (Both V' E)) :
    L.Refines (p.attempt (.onOk f)) (q.attempt (.onOk g)) s (Both V' E) := by
  refine hp.attempt fun r r' s₁ hev hr => ?_
  cases r with
  | ok a =>
    cases r' with
    | ok b => exact hf a b s₁ hev hr
    | error e => exact hr.elim
  | error e =>
    cases r' with
    | ok b => exact hr.elim
    | error e' => exact hr

end Both

theorem Refines.result (h : L.Refines p q s Φ) {r : Except ε α} (hr : p.result? = some r) :
    ∃ r', q.result? = some r' ∧ Φ r r' := by
  cases p <;> cases q
  case ret.ret a b => cases hr; exact ⟨_, rfl, h⟩
  case raise.raise e e' => cases hr; exact ⟨_, rfl, h⟩
  case await.await o k o' k' => cases hr
  all_goals exact h.elim

end Rules

/-! ## In a system -/

/-- What the clients of a system see of a run. -/
inductive Seen (ε α Call : Type)
  | invoked (i : Nat) (call : Call)
  | responded (i : Nat) (call : Call) (r : Except ε α)

/-- The operations of a thread are not seen. -/
def seen : Event σ ε α Call → Option (Seen ε α Call)
  | .invoke i call => some (.invoked i call)
  | .perform _ _ _ _ => none
  | .respond i call r => some (.responded i call r)

/-- The same call, or corresponding responses to it. -/
inductive Matches (Φ : Call → Except ε α → Except ε β → Prop) : Seen ε α Call → Seen ε β Call → Prop
  | invoked (i : Nat) (call : Call) : Matches Φ (.invoked i call) (.invoked i call)
  | responded (i : Nat) {call : Call} {r : Except ε α} {r' : Except ε β} (h : Φ call r r') :
      Matches Φ (.responded i call r) (.responded i call r')

/-- The clients of two runs make the same calls, in the same order, and get corresponding responses. -/
def SameHistory (Φ : Call → Except ε α → Except ε β → Prop) (log : List (Event σ ε α Call))
    (log' : List (Event τ ε β Call)) : Prop :=
  List.Forall₂ (Matches Φ) (log.filterMap seen) (log'.filterMap seen)

/-- The operations of two systems are those of the levels, and every call that is made refines the same
call. -/
structure Abstracts (L : Levels σ τ ε S T C D) (sys : System σ ε α S C Call) (sys' : System τ ε β T D Call)
    (Φ : Call → Except ε α → Except ε β → Prop) : Prop where
  exec : sys.exec = L.exec
  spec : sys'.exec = L.spec
  invoke : ∀ {call s s₁ t}, L.Rep s t → sys.invoke call s = some s₁ →
    L.Evolves s s₁ ∧ ∃ t₁, sys'.invoke call t = some t₁ ∧ L.Rep s₁ t₁
  body : ∀ {call s s₁}, sys.invoke call s = some s₁ → L.Refines (sys.body call) (sys'.body call) s₁ (Φ call)

/-- Two systems that let the same calls through, and change nothing where they do. -/
theorem abstracts_of_guard {sys : System σ ε α S C Call} {sys' : System τ ε β T D Call}
    {Φ : Call → Except ε α → Except ε β → Prop} {P : Call → Prop} [DecidablePred P]
    (hexec : sys.exec = L.exec)
    (hspec : sys'.exec = L.spec) (hguard : ∀ call s, sys.invoke call s = if P call then none else some s)
    (hguard' : ∀ call t, sys'.invoke call t = if P call then none else some t)
    (hbody : ∀ call s, ¬ P call → L.Refines (sys.body call) (sys'.body call) s (Φ call)) :
    L.Abstracts sys sys' Φ := by
  have hallowed {call s s₁} (h : sys.invoke call s = some s₁) : ¬ P call ∧ s = s₁ := by
    rw [hguard] at h
    split_ifs at h with hP
    exact ⟨hP, Option.some.inj h⟩
  refine ⟨hexec, hspec, fun {call s s₁ t} hrep h => ?_, fun {call s s₁} h => hbody call s₁ (hallowed h).1⟩
  obtain ⟨hP, rfl⟩ := hallowed h
  exact ⟨L.refl s, t, by rw [hguard', if_neg hP], hrep⟩

/-- Two threads of one call, the first one left in a state before `s`. -/
inductive Twins (L : Levels σ τ ε S T C D) (Φ : Call → Except ε α → Except ε β → Prop) (s : S) :
    Thread σ ε α Call → Thread τ ε β Call → Prop
  | running {call : Call} {p : Prog σ ε α} {q : Prog τ ε β} (h : L.Refines p q s (Φ call)) :
      Twins L Φ s ⟨call, .running p⟩ ⟨call, .running q⟩
  | done {call : Call} {r : Except ε α} {r' : Except ε β} : Twins L Φ s ⟨call, .done r⟩ ⟨call, .done r'⟩

structure Represents (L : Levels σ τ ε S T C D) (Φ : Call → Except ε α → Except ε β → Prop)
    (cfg : Config σ ε α S Call) (cfg' : Config τ ε β T Call) : Prop where
  state : L.Rep cfg.world.state cfg'.world.state
  threads : List.Forall₂ (L.Twins Φ cfg.world.state) cfg.threads cfg'.threads
  history : SameHistory Φ cfg.world.log cfg'.world.log

variable {sys : System σ ε α S C Call} {sys' : System τ ε β T D Call}
    {Φ : Call → Except ε α → Except ε β → Prop}
  {cfg cfg₁ : Config σ ε α S Call} {cfg' : Config τ ε β T Call}

theorem Twins.later {s s' : S} {t : Thread σ ε α Call} {t' : Thread τ ε β Call} (h : L.Twins Φ s t t')
    (hs : L.Evolves s s') : L.Twins Φ s' t t' := by
  cases h with
  | running h => exact .running (h.later hs)
  | done => exact .done

theorem Represents.thread (h : L.Represents Φ cfg cfg') {i : Nat} {t : Thread σ ε α Call}
    (hi : cfg.threads[i]? = some t) :
    ∃ t', cfg'.threads[i]? = some t' ∧ L.Twins Φ cfg.world.state t t' := by
  obtain ⟨hlt, rfl⟩ := List.getElem?_eq_some_iff.mp hi
  have hlt' : i < cfg'.threads.length := h.threads.length_eq ▸ hlt
  exact ⟨_, List.getElem?_eq_getElem hlt', (List.forall₂_iff_get.mp h.threads).2 i hlt hlt'⟩

theorem Represents.set (h : L.Represents Φ cfg cfg') {s : S} (hs : L.Evolves cfg.world.state s) (i : Nat)
    {t : Thread σ ε α Call} {t' : Thread τ ε β Call} (ht : L.Twins Φ s t t') :
    List.Forall₂ (L.Twins Φ s) (cfg.threads.set i t) (cfg'.threads.set i t') :=
  Coupling.forall₂_set (h.threads.imp fun _ _ htwins => htwins.later hs) i ht

/-- **The step lemma**: an action is an action of the other system, or shows nowhere. -/
theorem Abstracts.step (hL : L.Abstracts sys sys' Φ) (h : L.Represents Φ cfg cfg') {a : Action C Call}
    (ha : sys.act cfg a = some cfg₁) :
    ∃ cfg₁', (cfg₁' = cfg' ∨ ∃ a', sys'.act cfg' a' = some cfg₁') ∧ L.Represents Φ cfg₁ cfg₁' := by
  cases a with
  | invoke call =>
    obtain ⟨s, hs, rfl⟩ := System.act_invoke ha
    obtain ⟨hev, t, ht, hrep⟩ := hL.invoke h.state hs
    have hact : sys'.act cfg' (.invoke call : Action D Call) = some
        ⟨⟨t, .invoke cfg'.threads.length call :: cfg'.world.log⟩,
          cfg'.threads ++ [⟨call, .running (sys'.body call)⟩]⟩ := by
      simp only [System.act, ht]
      rfl
    refine ⟨_, .inr ⟨_, hact⟩, hrep, ?_, ?_⟩
    · exact List.rel_append (h.threads.imp fun _ _ htwins => htwins.later hev)
        (.cons (.running (hL.body hs)) .nil)
    · rw [h.threads.length_eq]
      exact .cons (.invoked _ call) h.history
  | step i c =>
    obtain ⟨call, o, k, hi, rfl⟩ := System.act_step ha
    obtain ⟨t', hi', htwins⟩ := h.thread hi
    cases htwins with
    | @running _ _ q hq =>
      cases q with
      | ret b => exact hq.elim
      | raise e => exact hq.elim
      | await o' k' =>
        rw [hL.exec]
        have hev : L.Evolves cfg.world.state (L.exec c o cfg.world.state).2 := L.evolves c o cfg.world.state
        rcases hq cfg.world.state cfg'.world.state c (L.refl _) h.state with ⟨hrep, hk⟩ | ⟨d, hrep, hk⟩
        · -- the other thread stays at its operation
          have hthreads := h.set hev i (.running hk : L.Twins Φ _ ⟨call, _⟩ ⟨call, _⟩)
          obtain ⟨hlt, heq⟩ := List.getElem?_eq_some_iff.mp hi'
          rw [← heq, List.set_getElem_self] at hthreads
          exact ⟨cfg', .inl rfl, hrep, hthreads, h.history⟩
        · have hact : sys'.act cfg' (.step i d) = some
              ⟨⟨(L.spec d o' cfg'.world.state).2,
                .perform i call o' (L.spec d o' cfg'.world.state).1 :: cfg'.world.log⟩,
                cfg'.threads.set i ⟨call, .running (k' (L.spec d o' cfg'.world.state).1)⟩⟩ := by
            simp only [System.act, hi', hL.spec]
          exact ⟨_, .inr ⟨_, hact⟩, hrep, h.set hev i (.running hk), h.history⟩
  | respond i =>
    obtain ⟨call, p, r, hi, hr, rfl⟩ := System.act_respond ha
    obtain ⟨t', hi', htwins⟩ := h.thread hi
    cases htwins with
    | running hq =>
      obtain ⟨r', hr', hΦ⟩ := hq.result hr
      have hact : sys'.act cfg' (.respond i : Action D Call) = some
          ⟨⟨cfg'.world.state, .respond i call r' :: cfg'.world.log⟩,
            cfg'.threads.set i ⟨call, .done r'⟩⟩ := by
        simp only [System.act, hi', hr']
        rfl
      exact ⟨_, .inr ⟨_, hact⟩, h.state, h.set (L.refl _) i .done, .cons (.responded i hΦ) h.history⟩

/-- **Soundness**: every run is a run of the abstract system. -/
theorem Abstracts.sound (hL : L.Abstracts sys sys' Φ) {s : S} {t : T} (h₀ : L.Rep s t)
    {ok : Config σ ε α S Call → Action C Call → Prop} (hr : sys.Reach ok (System.start s) cfg) :
    ∃ cfg', sys'.Reach (fun _ _ => True) (System.start t) cfg' ∧ L.Represents Φ cfg cfg' := by
  induction hr with
  | refl => exact ⟨_, .refl, h₀, .nil, .nil⟩
  | tail _ _ ha ih =>
    obtain ⟨cfg', hr', h⟩ := ih
    obtain ⟨cfg₁', rfl | ⟨a', ha'⟩, h₁⟩ := hL.step h ha
    · exact ⟨_, hr', h₁⟩
    · exact ⟨_, hr'.tail trivial ha', h₁⟩

end Levels

end Async
