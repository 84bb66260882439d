import Mathlib.Logic.Basic
import Mathlib.Data.List.Basic

/-!
# Awaiting programs

A coroutine is a finite tree of awaited operations: `Prog σ ε α` returns, raises, or awaits an operation
of the signature `σ` and resumes with its reply, a value or an exception.

* `Prog.attempt p f` runs `p` and hands its result, value or exception, to `f`: `try`/`except`/`else` in
  one rule; `bind` and `handle` are its two halves.
* `Handler σ ε S C` answers operations on a shared state `S`; the reply may depend on a choice in `C` (a
  fault, an answer of the environment).
* `Prog.run h p cs s` performs one awaited operation for each choice of `cs`; when the choices end before
  the program does, the process has crashed there (`Outcome.crashed`).
* `Prog.eval h p s` runs to the end, without faults.
* `Prog.Only P p`: whatever the replies, `p` awaits only operations that meet `P`.
* `wp h p Q s`: every run of `p` from `s` ends in `Q`, wherever it stops (`wp_iff`).
-/

namespace Async

/-- The operations a coroutine may await, each with the type of its reply. -/
structure Sig where
  Op : Type
  Res : Op → Type

inductive Prog (σ : Sig) (ε : Type) (α : Type) : Type
  | ret (a : α)
  | raise (e : ε)
  | await (o : σ.Op) (k : Except ε (σ.Res o) → Prog σ ε α)

variable {σ : Sig} {ε α β γ S C : Type}

namespace Prog

/-- Run `p`, then `f` on its value or its exception. -/
def attempt : Prog σ ε α → (Except ε α → Prog σ ε β) → Prog σ ε β
  | ret a, f => f (.ok a)
  | raise e, f => f (.error e)
  | await o k, f => await o fun r => (k r).attempt f

/-- The continuation that re-raises what it does not handle. -/
def onOk (f : α → Prog σ ε β) : Except ε α → Prog σ ε β
  | .ok a => f a
  | .error e => raise e

def onError (f : ε → Prog σ ε α) : Except ε α → Prog σ ε α
  | .ok a => ret a
  | .error e => f e

/-- `try p except e: f e`. -/
def handle (p : Prog σ ε α) (f : ε → Prog σ ε α) : Prog σ ε α := p.attempt (onError f)

/-- Finish with a result that is already known. -/
def ofExcept : Except ε α → Prog σ ε α
  | .ok a => ret a
  | .error e => raise e

/-- Await one operation. -/
def op (o : σ.Op) : Prog σ ε (σ.Res o) := await o ofExcept

instance : Monad (Prog σ ε) where
  pure := ret
  bind p f := p.attempt (onOk f)

@[simp] theorem attempt_ret (a : α) (f : Except ε α → Prog σ ε β) : (ret a).attempt f = f (.ok a) := rfl

@[simp] theorem attempt_raise (e : ε) (f : Except ε α → Prog σ ε β) :
    (raise e).attempt f = f (.error e) := rfl

@[simp] theorem attempt_await (o : σ.Op) (k : Except ε (σ.Res o) → Prog σ ε α)
    (f : Except ε α → Prog σ ε β) : (await o k).attempt f = await o fun r => (k r).attempt f := rfl

@[simp] theorem onOk_ok (f : α → Prog σ ε β) (a : α) : onOk f (.ok a) = f a := rfl

@[simp] theorem onOk_error (f : α → Prog σ ε β) (e : ε) : onOk f (.error e) = raise e := rfl

@[simp] theorem onError_ok (f : ε → Prog σ ε α) (a : α) : onError f (.ok a) = ret a := rfl

@[simp] theorem onError_error (f : ε → Prog σ ε α) (e : ε) : onError f (.error e) = f e := rfl

@[simp] theorem ofExcept_ok (a : α) : (ofExcept (.ok a) : Prog σ ε α) = ret a := rfl

@[simp] theorem ofExcept_error (e : ε) : (ofExcept (.error e) : Prog σ ε α) = raise e := rfl

theorem pure_eq (a : α) : (pure a : Prog σ ε α) = ret a := rfl

theorem bind_eq (p : Prog σ ε α) (f : α → Prog σ ε β) : p >>= f = p.attempt (onOk f) := rfl

theorem map_eq (f : α → β) (p : Prog σ ε α) : f <$> p = p.attempt (onOk fun a => ret (f a)) := rfl

theorem attempt_congr {p : Prog σ ε α} {f g : Except ε α → Prog σ ε β} (h : ∀ r, f r = g r) :
    p.attempt f = p.attempt g := by
  rw [funext h]

theorem handle_eq (p : Prog σ ε α) (f : ε → Prog σ ε α) : p.handle f = p.attempt (onError f) := rfl

theorem op_eq (o : σ.Op) : (op o : Prog σ ε (σ.Res o)) = await o ofExcept := rfl

@[simp] theorem ofExcept_attempt (r : Except ε α) (f : Except ε α → Prog σ ε β) :
    (ofExcept r).attempt f = f r := by
  cases r <;> rfl

theorem op_attempt (o : σ.Op) (f : Except ε (σ.Res o) → Prog σ ε β) : (op o).attempt f = await o f := by
  simp [op_eq]

theorem attempt_assoc (p : Prog σ ε α) (f : Except ε α → Prog σ ε β) (g : Except ε β → Prog σ ε γ) :
    (p.attempt f).attempt g = p.attempt fun r => (f r).attempt g := by
  induction p with
  | ret a => rfl
  | raise e => rfl
  | await o k ih => simp [ih]

theorem attempt_ofExcept (p : Prog σ ε α) : p.attempt ofExcept = p := by
  induction p with
  | ret a => rfl
  | raise e => rfl
  | await o k ih => simp [ih]

/-! ### What a coroutine may await -/

/-- Every operation that may be awaited meets `P`, whatever the replies. -/
def Only (P : σ.Op → Prop) : Prog σ ε α → Prop
  | ret _ => True
  | raise _ => True
  | await o k => P o ∧ ∀ r, (k r).Only P

section Only
variable {P : σ.Op → Prop}

theorem only_ofExcept (r : Except ε α) : (ofExcept r : Prog σ ε α).Only P := by
  cases r <;> trivial

theorem only_op {o : σ.Op} (h : P o) : (op o : Prog σ ε (σ.Res o)).Only P := ⟨h, only_ofExcept⟩

theorem Only.attempt {p : Prog σ ε α} {f : Except ε α → Prog σ ε β} (hp : p.Only P)
    (hf : ∀ r, (f r).Only P) : (p.attempt f).Only P := by
  induction p with
  | ret a => exact hf _
  | raise e => exact hf _
  | await o k ih => exact ⟨hp.1, fun r => ih r (hp.2 r)⟩

theorem Only.bind {p : Prog σ ε α} {f : α → Prog σ ε β} (hp : p.Only P) (hf : ∀ a, (f a).Only P) :
    (p >>= f).Only P := by
  refine hp.attempt fun r => ?_
  cases r with
  | ok a => exact hf a
  | error e => trivial

theorem Only.handle {p : Prog σ ε α} {f : ε → Prog σ ε α} (hp : p.Only P) (hf : ∀ e, (f e).Only P) :
    (p.handle f).Only P := by
  refine hp.attempt fun r => ?_
  cases r with
  | ok a => trivial
  | error e => exact hf e

end Only

end Prog

/-! ## Runs -/

/-- How operations are answered: the reply and the new state, for each choice of the environment. -/
abbrev Handler (σ : Sig) (ε S C : Type) := C → (o : σ.Op) → S → Except ε (σ.Res o) × S

/-- How a run of a coroutine ends. -/
inductive Outcome (ε α : Type)
  | returned (a : α)
  | raised (e : ε)
  | crashed
  deriving DecidableEq, Repr

namespace Outcome

def ofExcept : Except ε α → Outcome ε α
  | .ok a => returned a
  | .error e => raised e

/-- What `f` makes of the end of a run, without awaiting anything more. -/
def andThen (f : Except ε α → Except ε β) : Outcome ε α → Outcome ε β
  | returned a => ofExcept (f (.ok a))
  | raised e => ofExcept (f (.error e))
  | crashed => crashed

@[simp] theorem andThen_ofExcept (f : Except ε α → Except ε β) (r : Except ε α) :
    (ofExcept r).andThen f = ofExcept (f r) := by
  cases r <;> rfl

end Outcome

namespace Prog

/-- One awaited operation for each choice; the process crashes where the choices end. -/
def run (h : Handler σ ε S C) : Prog σ ε α → List C → S → Outcome ε α × S
  | ret a, _, s => (.returned a, s)
  | raise e, _, s => (.raised e, s)
  | await _ _, [], s => (.crashed, s)
  | await o k, c :: cs, s => (k (h c o s).1).run h cs (h c o s).2

theorem run_ofExcept {h : Handler σ ε S C} (r : Except ε α) (cs : List C) (s : S) :
    (ofExcept r : Prog σ ε α).run h cs s = (Outcome.ofExcept r, s) := by
  cases r <;> cases cs <;> rfl

theorem run_attempt_ofExcept {h : Handler σ ε S C} (p : Prog σ ε α) (f : Except ε α → Except ε β)
    (cs : List C) (s : S) :
    (p.attempt fun r => ofExcept (f r)).run h cs s = ((p.run h cs s).1.andThen f, (p.run h cs s).2) := by
  induction p generalizing cs s with
  | ret a => exact (run_ofExcept _ cs s).trans (by cases cs <;> rfl)
  | raise e => exact (run_ofExcept _ cs s).trans (by cases cs <;> rfl)
  | await o k ih =>
    cases cs with
    | nil => rfl
    | cons c cs => exact ih _ cs _

end Prog

namespace Prog

/-- Run to the end, every operation answered by `h`. -/
def eval (h : (o : σ.Op) → S → Except ε (σ.Res o) × S) : Prog σ ε α → S → Except ε α × S
  | ret a, s => (.ok a, s)
  | raise e, s => (.error e, s)
  | await o k, s => (k (h o s).1).eval h (h o s).2

variable {h : (o : σ.Op) → S → Except ε (σ.Res o) × S} {s : S}

@[simp] theorem eval_ret (a : α) : (ret a : Prog σ ε α).eval h s = (.ok a, s) := rfl

@[simp] theorem eval_raise (e : ε) : (raise e : Prog σ ε α).eval h s = (.error e, s) := rfl

@[simp] theorem eval_await (o : σ.Op) (k : Except ε (σ.Res o) → Prog σ ε α) :
    (await o k).eval h s = (k (h o s).1).eval h (h o s).2 := rfl

@[simp] theorem eval_ofExcept (r : Except ε α) : (ofExcept r : Prog σ ε α).eval h s = (r, s) := by
  cases r <;> rfl

theorem eval_attempt (p : Prog σ ε α) (f : Except ε α → Prog σ ε β) :
    (p.attempt f).eval h s = (f (p.eval h s).1).eval h (p.eval h s).2 := by
  induction p generalizing s with
  | ret a => rfl
  | raise e => rfl
  | await o k ih => exact ih _

theorem eval_op (o : σ.Op) : (op o).eval h s = h o s := by
  show (ofExcept (h o s).1).eval h (h o s).2 = _
  cases hr : (h o s).1 <;> exact Prod.ext hr.symm rfl

end Prog

/-! ## Weakest preconditions -/

/-- `Q` holds wherever a run of `p` from `s` stops: at its end or at a crash. -/
def wp (h : Handler σ ε S C) : Prog σ ε α → (Outcome ε α → S → Prop) → S → Prop
  | .ret a, Q, s => Q (.returned a) s
  | .raise e, Q, s => Q (.raised e) s
  | .await o k, Q, s => Q .crashed s ∧ ∀ c, wp h (k (h c o s).1) Q (h c o s).2

variable {h : Handler σ ε S C} {s : S}

/-- What remains to be shown after `p` when `f` runs on its result. -/
def andThen (h : Handler σ ε S C) (f : Except ε α → Prog σ ε β) (Q : Outcome ε β → S → Prop) :
    Outcome ε α → S → Prop
  | .returned a, s => wp h (f (.ok a)) Q s
  | .raised e, s => wp h (f (.error e)) Q s
  | .crashed, s => Q .crashed s

@[simp] theorem wp_ret (a : α) (Q : Outcome ε α → S → Prop) :
    wp h (.ret a) Q s ↔ Q (.returned a) s := Iff.rfl

@[simp] theorem wp_raise (e : ε) (Q : Outcome ε α → S → Prop) :
    wp h (.raise e) Q s ↔ Q (.raised e) s := Iff.rfl

theorem wp_await (o : σ.Op) (k : Except ε (σ.Res o) → Prog σ ε α) (Q : Outcome ε α → S → Prop) :
    wp h (.await o k) Q s ↔ Q .crashed s ∧ ∀ c, wp h (k (h c o s).1) Q (h c o s).2 := Iff.rfl

theorem wp_mono {p : Prog σ ε α} {Q R : Outcome ε α → S → Prop}
    (hQR : ∀ r s, Q r s → R r s) (hp : wp h p Q s) : wp h p R s := by
  induction p generalizing s with
  | ret a => exact hQR _ _ hp
  | raise e => exact hQR _ _ hp
  | await o k ih => exact ⟨hQR _ _ hp.1, fun c => ih _ (hp.2 c)⟩

theorem wp_attempt (p : Prog σ ε α) (f : Except ε α → Prog σ ε β) (Q : Outcome ε β → S → Prop) :
    wp h (p.attempt f) Q s ↔ wp h p (andThen h f Q) s := by
  induction p generalizing s with
  | ret a => rfl
  | raise e => rfl
  | await o k ih =>
    rw [Prog.attempt_await, wp_await, wp_await]
    exact and_congr Iff.rfl (forall_congr' fun c => ih _)

/-- **Soundness and completeness**: a weakest precondition speaks about exactly the runs. -/
theorem wp_iff (p : Prog σ ε α) (Q : Outcome ε α → S → Prop) :
    wp h p Q s ↔ ∀ cs, Q (p.run h cs s).1 (p.run h cs s).2 := by
  induction p generalizing s with
  | ret a => exact ⟨fun hq _ => by simpa [Prog.run] using hq, fun hq => by simpa [Prog.run] using hq []⟩
  | raise e => exact ⟨fun hq _ => by simpa [Prog.run] using hq, fun hq => by simpa [Prog.run] using hq []⟩
  | await o k ih =>
    rw [wp_await]
    constructor
    · rintro ⟨hc, hk⟩ (_ | ⟨c, cs⟩)
      · exact hc
      · exact (ih _).1 (hk c) cs
    · intro hr
      exact ⟨hr [], fun c => (ih _).2 fun cs => hr (c :: cs)⟩

theorem wp.run {p : Prog σ ε α} {Q : Outcome ε α → S → Prop} (hp : wp h p Q s) (cs : List C) :
    Q (p.run h cs s).1 (p.run h cs s).2 := (wp_iff p Q).1 hp cs

end Async
