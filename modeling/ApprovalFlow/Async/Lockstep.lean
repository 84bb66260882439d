import ApprovalFlow.Async.Pool
import Mathlib.Data.List.Forall2

/-!
# Two runs in lockstep

What a run keeps of another one that takes the same steps with other, corresponding choices of the
environment: the relational counterpart of an invariant.

* `Coupling`: which operations correspond, and which of their replies; `Coupling.Pairs K p p' Φ`: two
  coroutines that await corresponding operations, and end in `Φ`.
* `Coupling.Pairs.attempt`, `bind`, `handle`: the rules.
* `Coupling.Respects`: the operations of a system keep a relation of its states, and answer
  correspondingly.
* `Coupling.Respects.sound`: then two schedules that correspond lead to configurations that do.
-/

namespace Async

variable {σ : Sig} {ε α β γ δ S C Call : Type}

structure Coupling (σ : Sig) (ε : Type) where
  ops : σ.Op → σ.Op → Prop
  replies : (o o' : σ.Op) → Except ε (σ.Res o) → Except ε (σ.Res o') → Prop

namespace Coupling
variable (K : Coupling σ ε)

/-- Corresponding operations, as long as the replies correspond, and ends that meet `Φ`. -/
def Pairs : Prog σ ε α → Prog σ ε β → (Except ε α → Except ε β → Prop) → Prop
  | .ret a, .ret b, Φ => Φ (.ok a) (.ok b)
  | .ret a, .raise e, Φ => Φ (.ok a) (.error e)
  | .raise e, .ret b, Φ => Φ (.error e) (.ok b)
  | .raise e, .raise e', Φ => Φ (.error e) (.error e')
  | .await o k, .await o' k', Φ => K.ops o o' ∧ ∀ r r', K.replies o o' r r' → Pairs (k r) (k' r') Φ
  | _, _, _ => False

variable {K}

section Rules
variable {Φ Ψ : Except ε α → Except ε β → Prop} {Φ' : Except ε γ → Except ε δ → Prop}

theorem pairs_ofExcept {r : Except ε α} {r' : Except ε β} (h : Φ r r') :
    K.Pairs (.ofExcept r) (.ofExcept r') Φ := by
  cases r <;> cases r' <;> exact h

theorem pairs_op {o o' : σ.Op} {Φ : Except ε (σ.Res o) → Except ε (σ.Res o') → Prop} (ho : K.ops o o')
    (h : ∀ r r', K.replies o o' r r' → Φ r r') : K.Pairs (.op o) (.op o') Φ :=
  ⟨ho, fun r r' hr => pairs_ofExcept (h r r' hr)⟩

theorem Pairs.result {p : Prog σ ε α} {p' : Prog σ ε β} (h : K.Pairs p p' Φ) :
    p.result? = none ∧ p'.result? = none ∨ ∃ r r', p.result? = some r ∧ p'.result? = some r' ∧ Φ r r' := by
  cases p <;> cases p'
  case await.await => exact .inl ⟨rfl, rfl⟩
  case ret.ret a b => exact .inr ⟨_, _, rfl, rfl, h⟩
  case ret.raise a e => exact .inr ⟨_, _, rfl, rfl, h⟩
  case raise.ret e b => exact .inr ⟨_, _, rfl, rfl, h⟩
  case raise.raise e e' => exact .inr ⟨_, _, rfl, rfl, h⟩
  all_goals exact h.elim

theorem Pairs.attempt {p : Prog σ ε α} {p' : Prog σ ε β} {f : Except ε α → Prog σ ε γ}
    {f' : Except ε β → Prog σ ε δ}
    (hp : K.Pairs p p' Φ) (hf : ∀ r r', Φ r r' → K.Pairs (f r) (f' r') Φ') :
    K.Pairs (p.attempt f) (p'.attempt f') Φ' := by
  induction p generalizing p' with
  | ret a =>
    cases p' with
    | ret b => exact hf _ _ hp
    | raise e => exact hf _ _ hp
    | await o k => exact hp.elim
  | raise e =>
    cases p' with
    | ret b => exact hf _ _ hp
    | raise e' => exact hf _ _ hp
    | await o k => exact hp.elim
  | await o k ih =>
    cases p' with
    | ret b => exact hp.elim
    | raise e => exact hp.elim
    | await o' k' => exact ⟨hp.1, fun r r' hr => ih r (hp.2 r r' hr)⟩

/-- Values to values, exceptions to exceptions. -/
def Both (V : α → β → Prop) (E : ε → ε → Prop) : Except ε α → Except ε β → Prop
  | .ok a, .ok b => V a b
  | .error e, .error e' => E e e'
  | _, _ => False

variable {V : α → β → Prop} {V' : γ → δ → Prop} {E : ε → ε → Prop}

theorem Pairs.bind {p : Prog σ ε α} {p' : Prog σ ε β} {f : α → Prog σ ε γ} {f' : β → Prog σ ε δ}
    (hp : K.Pairs p p' (Both V E)) (hf : ∀ a b, V a b → K.Pairs (f a) (f' b) (Both V' E)) :
    K.Pairs (p >>= f) (p' >>= f') (Both V' E) := by
  refine hp.attempt fun r r' hr => ?_
  cases r with
  | ok a =>
    cases r' with
    | ok b => exact hf a b hr
    | error e => exact hr.elim
  | error e =>
    cases r' with
    | ok b => exact hr.elim
    | error e' => exact hr

theorem Pairs.handle {p : Prog σ ε α} {p' : Prog σ ε β} {f : ε → Prog σ ε α} {f' : ε → Prog σ ε β}
    (hp : K.Pairs p p' (Both V E)) (hf : ∀ e e', E e e' → K.Pairs (f e) (f' e') (Both V E)) :
    K.Pairs (p.handle f) (p'.handle f') (Both V E) := by
  refine hp.attempt fun r r' hr => ?_
  cases r with
  | ok a =>
    cases r' with
    | ok b => exact hr
    | error e => exact hr.elim
  | error e =>
    cases r' with
    | ok b => exact hr.elim
    | error e' => exact hf e e' hr

end Rules

/-! ## In a system -/

/-- The operations of a system keep a relation of its states and answer correspondingly, for
corresponding choices, and every call is paired with itself. -/
structure Respects (K : Coupling σ ε) (sys : System σ ε α S C Call) (I : S → S → Prop)
    (choices : C → C → Prop) (Φ : Call → Except ε α → Except ε α → Prop) : Prop where
  exec : ∀ c c' o o' s s', choices c c' → K.ops o o' → I s s' →
    I (sys.exec c o s).2 (sys.exec c' o' s').2 ∧ K.replies o o' (sys.exec c o s).1 (sys.exec c' o' s').1
  invoke : ∀ call s s', I s s' → sys.invoke call s = none ∧ sys.invoke call s' = none ∨
    ∃ s₁ s₁', sys.invoke call s = some s₁ ∧ sys.invoke call s' = some s₁' ∧ I s₁ s₁'
  body : ∀ call, K.Pairs (sys.body call) (sys.body call) (Φ call)

/-- The same action, with corresponding choices. -/
inductive Corresponds (choices : C → C → Prop) : Action C Call → Action C Call → Prop
  | invoke (call : Call) : Corresponds choices (.invoke call) (.invoke call)
  | step (i : Nat) {c c' : C} (hc : choices c c') : Corresponds choices (.step i c) (.step i c')
  | respond (i : Nat) : Corresponds choices (.respond i) (.respond i)

/-- Two threads of one call. -/
inductive Twins (K : Coupling σ ε) (Φ : Call → Except ε α → Except ε α → Prop) :
    Thread σ ε α Call → Thread σ ε α Call → Prop
  | running {call : Call} {p p' : Prog σ ε α} (h : K.Pairs p p' (Φ call)) :
      Twins K Φ ⟨call, .running p⟩ ⟨call, .running p'⟩
  | done {call : Call} {r r' : Except ε α} (h : Φ call r r') : Twins K Φ ⟨call, .done r⟩ ⟨call, .done r'⟩

structure Coupled (K : Coupling σ ε) (I : S → S → Prop) (Φ : Call → Except ε α → Except ε α → Prop)
    (cfg cfg' : Config σ ε α S Call) : Prop where
  state : I cfg.world.state cfg'.world.state
  threads : List.Forall₂ (Twins K Φ) cfg.threads cfg'.threads

variable {sys : System σ ε α S C Call} {I : S → S → Prop} {choices : C → C → Prop}
  {Φ : Call → Except ε α → Except ε α → Prop} {cfg cfg' : Config σ ε α S Call}

theorem Coupled.thread (h : Coupled K I Φ cfg cfg') (i : Nat) :
    cfg.threads[i]? = none ∧ cfg'.threads[i]? = none ∨
      ∃ t t', cfg.threads[i]? = some t ∧ cfg'.threads[i]? = some t' ∧ Twins K Φ t t' := by
  have hlength := h.threads.length_eq
  by_cases hi : i < cfg.threads.length
  · have hi' : i < cfg'.threads.length := hlength ▸ hi
    exact .inr ⟨_, _, List.getElem?_eq_getElem hi, List.getElem?_eq_getElem hi',
      (List.forall₂_iff_get.mp h.threads).2 i hi hi'⟩
  · rw [Nat.not_lt] at hi
    exact .inl ⟨List.getElem?_eq_none hi, List.getElem?_eq_none (hlength ▸ hi)⟩

theorem forall₂_set {R : α → β → Prop} {l : List α} {l' : List β} (h : List.Forall₂ R l l')
    (i : Nat) {a : α} {b : β} (hab : R a b) : List.Forall₂ R (l.set i a) (l'.set i b) := by
  induction h generalizing i with
  | nil => exact .nil
  | cons hcd h ih =>
    cases i with
    | zero => exact .cons hab h
    | succ i => exact .cons hcd (ih i)

/-- The same action of two configurations that are coupled. -/
theorem Coupled.step (h : Coupled K I Φ cfg cfg') (hK : K.Respects sys I choices Φ) {a a' : Action C Call}
    (ha : Corresponds choices a a') :
    sys.act cfg a = none ∧ sys.act cfg' a' = none ∨
      ∃ cfg₁ cfg₁', sys.act cfg a = some cfg₁ ∧ sys.act cfg' a' = some cfg₁' ∧
        Coupled K I Φ cfg₁ cfg₁' := by
  cases ha with
  | invoke call =>
    rcases hK.invoke call _ _ h.state with ⟨hnone, hnone'⟩ | ⟨s₁, s₁', hs, hs', hI⟩
    · exact .inl ⟨by simp [System.act, hnone], by simp [System.act, hnone']⟩
    · refine .inr ⟨_, _, by simp only [System.act, hs]; rfl, by simp only [System.act, hs']; rfl, hI, ?_⟩
      exact List.rel_append h.threads (.cons (.running (hK.body call)) .nil)
  | @step i c c' hc =>
    rcases h.thread i with ⟨hi, hi'⟩ | ⟨t, t', hi, hi', htwins⟩
    · exact .inl ⟨by simp only [System.act, hi], by simp only [System.act, hi']⟩
    · cases htwins with
      | done hr => exact .inl ⟨by simp only [System.act, hi], by simp only [System.act, hi']⟩
      | @running call p p' hp =>
        cases p <;> cases p'
        case await.await o k o' k' =>
          obtain ⟨hI, hreplies⟩ := hK.exec c c' o o' _ _ hc hp.1 h.state
          refine .inr ⟨_, _,
            by simp only [System.act, hi]; rfl, by simp only [System.act, hi']; rfl, hI, ?_⟩
          exact forall₂_set h.threads i (.running (hp.2 _ _ hreplies))
        case ret.await => exact hp.elim
        case raise.await => exact hp.elim
        case await.ret => exact hp.elim
        case await.raise => exact hp.elim
        all_goals exact .inl ⟨by simp only [System.act, hi], by simp only [System.act, hi']⟩
  | respond i =>
    rcases h.thread i with ⟨hi, hi'⟩ | ⟨t, t', hi, hi', htwins⟩
    · exact .inl ⟨by simp only [System.act, hi], by simp only [System.act, hi']⟩
    · cases htwins with
      | done hr => exact .inl ⟨by simp only [System.act, hi], by simp only [System.act, hi']⟩
      | @running call p p' hp =>
        rcases hp.result with ⟨hr, hr'⟩ | ⟨r, r', hr, hr', hΦ⟩
        · exact .inl ⟨by simp only [System.act, hi, hr]; rfl, by simp only [System.act, hi', hr']; rfl⟩
        · have hact : sys.act cfg (.respond i : Action C Call) = some
              ⟨⟨cfg.world.state, .respond i call r :: cfg.world.log⟩,
                cfg.threads.set i ⟨call, .done r⟩⟩ := by
            simp only [System.act, hi, hr]
            rfl
          have hact' : sys.act cfg' (.respond i : Action C Call) = some
              ⟨⟨cfg'.world.state, .respond i call r' :: cfg'.world.log⟩,
                cfg'.threads.set i ⟨call, .done r'⟩⟩ := by
            simp only [System.act, hi', hr']
            rfl
          exact .inr ⟨_, _, hact, hact', h.state, forall₂_set h.threads i (.done hΦ)⟩

/-- **Soundness**: two schedules that correspond are possible together, and lead from coupled
configurations to coupled configurations. -/
theorem Respects.sound (hK : K.Respects sys I choices Φ) {schedule schedule' : List (Action C Call)}
    (hschedule : List.Forall₂ (Corresponds choices) schedule schedule') (h : Coupled K I Φ cfg cfg') :
    sys.runActions (fun _ _ => true) schedule cfg = none ∧
      sys.runActions (fun _ _ => true) schedule' cfg' = none ∨
      ∃ cfg₁ cfg₁', sys.runActions (fun _ _ => true) schedule cfg = some cfg₁ ∧
        sys.runActions (fun _ _ => true) schedule' cfg' = some cfg₁' ∧ Coupled K I Φ cfg₁ cfg₁' := by
  induction hschedule generalizing cfg cfg' with
  | nil => exact .inr ⟨cfg, cfg', rfl, rfl, h⟩
  | @cons a a' schedule schedule' ha _ ih =>
    simp only [System.runActions, if_true]
    rcases h.step hK ha with ⟨hnone, hnone'⟩ | ⟨cfg₁, cfg₁', hact, hact', h₁⟩
    · exact .inl ⟨by rw [hnone]; rfl, by rw [hnone']; rfl⟩
    · rw [hact, hact']
      exact ih h₁

end Coupling

end Async
