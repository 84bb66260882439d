import ApprovalFlow.Async.Prog

/-!
# Sequential runs of calls

One call after another on one shared state, each with its own choices, so each may fail at any await or
crash between two of them before the next call begins.

* `Handler.logged h` also records every awaited operation with its reply, newest first.
* `runCalls h body calls s` is the history of the run, one `Ran` entry per call, and the final state.
* `trace h body calls s`: the calls without crashes; `trace_inv`: what every call keeps, in the state in
  which it is made. `leaves h body calls s` is the state at their end; `leaves_inv`.
* `runCalls_inv`: what every call keeps, a run keeps; the calls may be restricted by a condition on their
  entries.
* `Ran.spared P r`: the environment spares the call directly after the entries that meet `P`;
  `Prog.Follows P S p`: what `p` awaits there meets `S`. `followed_runCalls`: in a run of such calls,
  what is spared is done.
-/

namespace Async

variable {σ : Sig} {ε α S C Call : Type}

/-- An awaited operation and its reply. -/
structure Awaited (σ : Sig) (ε : Type) where
  op : σ.Op
  reply : Except ε (σ.Res op)

/-- `h`, recording what it answers. -/
def Handler.logged (h : Handler σ ε S C) : Handler σ ε (S × List (Awaited σ ε)) C := fun c o s =>
  ((h c o s.1).1, (h c o s.1).2, ⟨o, (h c o s.1).1⟩ :: s.2)

@[simp] theorem Handler.logged_apply (h : Handler σ ε S C) (c : C) (o : σ.Op) (s : S)
    (l : List (Awaited σ ε)) :
    h.logged c o (s, l) = ((h c o s).1, (h c o s).2, ⟨o, (h c o s).1⟩ :: l) := rfl

/-- Every entry of a log, newest first, that meets `P` is directly followed by one that meets `Q`; `next`
is the entry that follows the log. -/
def followed (P Q : Awaited σ ε → Bool) : Option (Awaited σ ε) → List (Awaited σ ε) → Bool
  | _, [] => true
  | next, a :: l => (!P a || next.any Q) && followed P Q (some a) l

/-- One finished or crashed call of a run. -/
structure Ran (σ : Sig) (ε α Call : Type) where
  call : Call
  log : List (Awaited σ ε)
  outcome : Outcome ε α

/-- Run one call from `s`: its entry in the history and the state it leaves. -/
def runCall (h : Handler σ ε S C) (body : Call → Prog σ ε α) (c : Call) (cs : List C) (s : S) :
    Ran σ ε α Call × S :=
  let r := (body c).run h.logged cs (s, [])
  (⟨c, r.2.2, r.1⟩, r.2.1)

/-- The history of a run, oldest call first, and its final state. -/
def runCalls (h : Handler σ ε S C) (body : Call → Prog σ ε α) :
    List (Call × List C) → S → List (Ran σ ε α Call) × S
  | [], s => ([], s)
  | (c, cs) :: rest, s =>
    let r := runCall h body c cs s
    let q := runCalls h body rest r.2
    (r.1 :: q.1, q.2)

variable {h : Handler σ ε S C} {body : Call → Prog σ ε α}

@[simp] theorem runCalls_nil (s : S) : runCalls h body [] s = ([], s) := rfl

@[simp] theorem runCalls_cons (c : Call) (cs : List C) (rest : List (Call × List C)) (s : S) :
    runCalls h body ((c, cs) :: rest) s =
      ((runCall h body c cs s).1 :: (runCalls h body rest (runCall h body c cs s).2).1,
        (runCalls h body rest (runCall h body c cs s).2).2) := rfl

/-- What a weakest precondition says about one call of a run. -/
theorem runCall_of_wp {c : Call} {s : S} {Q : Ran σ ε α Call → S → Prop}
    (hw : wp h.logged (body c) (fun out t => Q ⟨c, t.2, out⟩ t.1) (s, [])) (cs : List C) :
    Q (runCall h body c cs s).1 (runCall h body c cs s).2 :=
  hw.run cs

/-- **The run lemma**: an invariant that every call meeting `ok` keeps, holds after every run of such
calls. -/
theorem runCalls_inv {I : S → Prop} {ok : Ran σ ε α Call → Prop}
    (hstep : ∀ c s, I s → wp h.logged (body c) (fun out t => ok ⟨c, t.2, out⟩ → I t.1) (s, []))
    (calls : List (Call × List C)) (s : S) (hs : I s) (hok : ∀ r ∈ (runCalls h body calls s).1, ok r) :
    I (runCalls h body calls s).2 := by
  induction calls generalizing s with
  | nil => exact hs
  | cons c calls ih =>
    obtain ⟨c, cs⟩ := c
    rw [runCalls_cons] at hok ⊢
    have h1 : I (runCall h body c cs s).2 :=
      runCall_of_wp (Q := fun r t => ok r → I t) (hstep c s hs) cs (hok _ List.mem_cons_self)
    exact ih _ h1 fun r hr => hok r (List.mem_cons_of_mem _ hr)

/-! ## What directly follows an entry -/

/-- The operation was answered. -/
def Awaited.answered (a : Awaited σ ε) : Bool := a.reply.isOk

def Outcome.isCrashed : Outcome ε α → Bool
  | crashed => true
  | _ => false

/-- Directly after every entry that meets `P` the call does not crash, and what it awaits next is
answered. -/
def Ran.spared (P : Awaited σ ε → Bool) (r : Ran σ ε α Call) : Bool :=
  match r.log with
  | [] => true
  | a :: l => (!P a || !r.outcome.isCrashed) && followed P Awaited.answered (some a) l

namespace Prog

/-- What the coroutine awaits first meets `N`. -/
def Next (N : σ.Op → Bool) : Prog σ ε α → Prop
  | await o _ => N o = true
  | _ => False

/-- Whatever the replies, the coroutine goes on after an entry that meets `P`, with an operation that
meets `N`. -/
def Follows (P : Awaited σ ε → Bool) (N : σ.Op → Bool) : Prog σ ε α → Prop
  | ret _ => True
  | raise _ => True
  | await o k => ∀ r, (P ⟨o, r⟩ = true → (k r).Next N) ∧ (k r).Follows P N

variable {P : Awaited σ ε → Bool} {N : σ.Op → Bool}

theorem follows_ofExcept (r : Except ε α) : (ofExcept r : Prog σ ε α).Follows P N := by
  cases r <;> trivial

theorem follows_op {o : σ.Op} {f : Except ε (σ.Res o) → Prog σ ε α}
    (h : ∀ r, (P ⟨o, r⟩ = true → (f r).Next N) ∧ (f r).Follows P N) : ((op o).attempt f).Follows P N := by
  rw [op_attempt]
  exact h

end Prog

section Follows
variable {P Q : Awaited σ ε → Bool} {N : σ.Op → Bool} {out : Outcome ε α} {l : List (Awaited σ ε)}

/-- Every entry that meets `P` is directly followed by an operation that meets `N`; after the newest one,
`next` holds. -/
def Precedes (P : Awaited σ ε → Bool) (N : σ.Op → Bool) (next : Prop) : List (Awaited σ ε) → Prop
  | [] => True
  | a :: l => (P a = true → next) ∧ followed P (fun b => N b.op) (some a) l = true

theorem Precedes.mono {next next' : Prop} (h : Precedes P N next l) (hnext : next → next') :
    Precedes P N next' l := by
  cases l with
  | nil => trivial
  | cons a l => exact ⟨fun ha => hnext (h.1 ha), h.2⟩

theorem Precedes.cons {a : Awaited σ ε} {next : Prop} (h : Precedes P N (N a.op = true) l)
    (ha : P a = true → next) : Precedes P N next (a :: l) := by
  refine ⟨ha, ?_⟩
  cases l with
  | nil => rfl
  | cons b l =>
    simp only [followed, Bool.and_eq_true, Bool.or_eq_true, Bool.not_eq_true', Option.any_some]
    exact ⟨(Bool.eq_false_or_eq_true (P b)).symm.imp_right h.1, h.2⟩

theorem Prog.Follows.precedes {p : Prog σ ε α} (hp : p.Follows P N) {s : S}
    (hl : Precedes P N (p.Next N) l) :
    wp h.logged p (fun out t => Precedes P N (out.isCrashed = true) t.2) (s, l) := by
  induction p generalizing s l with
  | ret a => exact hl.mono False.elim
  | raise e => exact hl.mono False.elim
  | await o k ih => exact ⟨hl.mono fun _ => rfl, fun c => ih _ (hp _).2 (hl.cons (hp _).1)⟩

theorem followed_mono {Q' : Awaited σ ε → Bool} (hQ : ∀ a, Q a = true → Q' a = true)
    {next : Option (Awaited σ ε)}
    (h : followed P Q next l = true) : followed P Q' next l = true := by
  induction l generalizing next with
  | nil => rfl
  | cons a l ih =>
    simp only [followed, Bool.and_eq_true, Bool.or_eq_true] at h ⊢
    refine ⟨h.1.imp_right fun hnext => ?_, ih h.2⟩
    cases next with
    | none => cases hnext
    | some b => exact hQ b hnext

theorem followed_and {Q' : Awaited σ ε → Bool} {next : Option (Awaited σ ε)}
    (h : followed P Q next l = true)
    (h' : followed P Q' next l = true) : followed P (fun a => Q a && Q' a) next l = true := by
  induction l generalizing next with
  | nil => rfl
  | cons a l ih =>
    simp only [followed, Bool.and_eq_true, Bool.or_eq_true] at h h' ⊢
    refine ⟨?_, ih h.2 h'.2⟩
    rcases h.1, h'.1 with ⟨ha | ha, ha' | ha'⟩
    · exact .inl ha
    · exact .inl ha
    · exact .inl ha'
    · cases next with
      | none => cases ha
      | some b => exact .inr (by simpa using ⟨ha, ha'⟩)

/-- What a call awaits next is done where the call is spared. -/
theorem Precedes.followed {r : Ran σ ε α Call} (h : Precedes P N (r.outcome.isCrashed = true) r.log)
    (hspared : r.spared P = true) :
    followed P (fun a => N a.op && a.answered) none r.log = true := by
  obtain ⟨call, l, out⟩ := r
  cases l with
  | nil => rfl
  | cons a l =>
    simp only [Ran.spared, Bool.and_eq_true, Bool.or_eq_true, Bool.not_eq_true'] at hspared
    have ha : P a = false := by
      by_contra hP
      rw [Bool.not_eq_false] at hP
      exact hspared.1.elim (by simp [hP]) (by simp [h.1 hP])
    rw [Async.followed, ha]
    exact followed_and h.2 hspared.2

theorem spared_of_followed {r : Ran σ ε α Call} (hQ : ∀ a, Q a = true → a.answered = true)
    (h : followed P Q none r.log = true) : r.spared P = true := by
  obtain ⟨call, l, out⟩ := r
  cases l with
  | nil => rfl
  | cons a l =>
    simp only [followed, Option.any_none, Bool.or_false, Bool.and_eq_true, Bool.not_eq_true'] at h
    simp only [Ran.spared, h.1, Bool.not_false, Bool.true_or, Bool.true_and]
    exact followed_mono hQ h.2

/-- **One call**: each entry is directly followed by what the call awaits there, answered, where the call
is spared. -/
theorem followed_runCall {c : Call} (hbody : (body c).Follows P N) (cs : List C) (s : S)
    (hspared : (runCall h body c cs s).1.spared P = true) :
    followed P (fun a => N a.op && a.answered) none (runCall h body c cs s).1.log = true :=
  Precedes.followed (Prog.Follows.precedes (l := []) hbody trivial |>.run cs) hspared

theorem followed_runCalls (hbody : ∀ c, (body c).Follows P N) (calls : List (Call × List C)) (s : S) :
    ∀ r ∈ (runCalls h body calls s).1, r.spared P = true →
      followed P (fun a => N a.op && a.answered) none r.log = true := by
  induction calls generalizing s with
  | nil => exact fun r hr => absurd hr List.not_mem_nil
  | cons c calls ih =>
    rw [runCalls_cons]
    exact List.forall_mem_cons.mpr ⟨followed_runCall (hbody c.1) c.2 s, ih _⟩

end Follows

/-! ## Runs without faults -/

section Trace
variable {h : C → (o : σ.Op) → S → Except ε (σ.Res o) × S}

/-- Every call to its end, one after another: the results, each with the state the call leaves. -/
def trace (h : C → (o : σ.Op) → S → Except ε (σ.Res o) × S) (body : Call → Prog σ ε α) :
    List (Call × C) → S → List (Except ε α × S)
  | [], _ => []
  | (c, v) :: rest, s => (body c).eval (h v) s :: trace h body rest ((body c).eval (h v) s).2

/-- Every call meets `ok` in the state in which it is made. -/
def Meets (ok : Call → S → Prop) (h : C → (o : σ.Op) → S → Except ε (σ.Res o) × S)
    (body : Call → Prog σ ε α) : List (Call × C) → S → Prop
  | [], _ => True
  | (c, v) :: rest, s => ok c s ∧ Meets ok h body rest ((body c).eval (h v) s).2

theorem trace_inv {I : S → Prop} {ok : Call → S → Prop} {Q : Except ε α × S → Prop}
    (hstep : ∀ c v s, I s → ok c s → I ((body c).eval (h v) s).2 ∧ Q ((body c).eval (h v) s))
    (calls : List (Call × C)) (s : S) (hs : I s) (hok : Meets ok h body calls s) :
    ∀ r ∈ trace h body calls s, Q r := by
  induction calls generalizing s with
  | nil =>
    intro r hr
    cases hr
  | cons c calls ih =>
    obtain ⟨c, v⟩ := c
    obtain ⟨h1, h2⟩ := hok
    obtain ⟨hI, hQ⟩ := hstep c v s hs h1
    intro r hr
    rcases List.mem_cons.mp hr with rfl | hr
    · exact hQ
    · exact ih _ hI h2 r hr

/-- The state that the calls leave. -/
def leaves (h : C → (o : σ.Op) → S → Except ε (σ.Res o) × S) (body : Call → Prog σ ε α)
    (calls : List (Call × C)) (s : S) : S :=
  calls.foldl (fun s c => ((body c.1).eval (h c.2) s).2) s

theorem leaves_inv {I : S → Prop} (hstep : ∀ c v s, I s → I ((body c).eval (h v) s).2)
    (calls : List (Call × C)) (s : S) (hs : I s) : I (leaves h body calls s) := by
  induction calls generalizing s with
  | nil => exact hs
  | cons c calls ih => exact ih _ (hstep c.1 c.2 s hs)

end Trace

end Async
