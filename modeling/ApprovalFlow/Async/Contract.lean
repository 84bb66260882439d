import ApprovalFlow.Async.Pool

/-!
# Contracts

What is asked of every operation that a coroutine awaits, and what the replies give it. A coroutine is
checked against a contract on its own; a handler whose invariant honours the contract then keeps it in
every interleaving.

* `Contract`: what is asked, and what is given; `Contract.Keeps K p Φ`: `p` asks only what it may, and
  ends in `Φ`.
* `Contract.Keeps.attempt`, `bind`, `handle`: the rules.
* `Contract.Honoured`: an invariant under which the operations of a system give what the contract says.
* `Contract.Honoured.sound`: then it holds in every reachable configuration. What is given may depend on
  what happened in the whole run: `made` and `happened` are only asked for the calls and the replies that
  its log holds.
-/

namespace Async

variable {σ : Sig} {ε α β S C Call : Type}

structure Contract (σ : Sig) (ε : Type) where
  asks : σ.Op → Prop
  gives : (o : σ.Op) → Except ε (σ.Res o) → Prop

namespace Contract
variable (K : Contract σ ε)

/-- Every operation meets the contract where the replies before it did, and the end meets `Φ`. -/
def Keeps : Prog σ ε α → (Except ε α → Prop) → Prop
  | .ret a, Φ => Φ (.ok a)
  | .raise e, Φ => Φ (.error e)
  | .await o k, Φ => K.asks o ∧ ∀ r, K.gives o r → Keeps (k r) Φ

variable {K}

section Rules
variable {Φ Ψ : Except ε α → Prop} {Φ' : Except ε β → Prop}

theorem keeps_ret {a : α} (h : Φ (.ok a)) : K.Keeps (.ret a) Φ := h

theorem keeps_ofExcept {r : Except ε α} (h : Φ r) : K.Keeps (.ofExcept r) Φ := by
  cases r <;> exact h

theorem keeps_op {o : σ.Op} {Φ : Except ε (σ.Res o) → Prop} (ho : K.asks o) (h : ∀ r, K.gives o r → Φ r) :
    K.Keeps (.op o) Φ :=
  ⟨ho, fun r hr => keeps_ofExcept (h r hr)⟩

theorem Keeps.mono {p : Prog σ ε α} (hp : K.Keeps p Φ) (h : ∀ r, Φ r → Ψ r) : K.Keeps p Ψ := by
  induction p with
  | ret a => exact h _ hp
  | raise e => exact h _ hp
  | await o k ih => exact ⟨hp.1, fun r hr => ih r (hp.2 r hr)⟩

theorem Keeps.attempt {p : Prog σ ε α} {f : Except ε α → Prog σ ε β} (hp : K.Keeps p Φ)
    (hf : ∀ r, Φ r → K.Keeps (f r) Φ') : K.Keeps (p.attempt f) Φ' := by
  induction p with
  | ret a => exact hf _ hp
  | raise e => exact hf _ hp
  | await o k ih => exact ⟨hp.1, fun r hr => ih r (hp.2 r hr)⟩

theorem Keeps.bind {p : Prog σ ε α} {f : α → Prog σ ε β} (hp : K.Keeps p Φ)
    (hf : ∀ a, Φ (.ok a) → K.Keeps (f a) Φ')
    (hraise : ∀ e, Φ (.error e) → Φ' (.error e)) : K.Keeps (p >>= f) Φ' := by
  refine hp.attempt fun r hr => ?_
  cases r with
  | ok a => exact hf a hr
  | error e => exact hraise e hr

theorem Keeps.handle {p : Prog σ ε α} {f : ε → Prog σ ε α} (hp : K.Keeps p Φ)
    (hf : ∀ e, Φ (.error e) → K.Keeps (f e) Ψ)
    (hok : ∀ a, Φ (.ok a) → Ψ (.ok a)) : K.Keeps (p.handle f) Ψ := by
  refine hp.attempt fun r hr => ?_
  cases r with
  | ok a => exact hok a hr
  | error e => exact hf e hr

end Rules

/-! ## In a system -/

/-- An invariant of the state under which the operations of a system give what the contract says, for the
calls that are `made` and the replies that `happened`; `Φ` is what a call ends in. -/
structure Honoured (K : Contract σ ε) (sys : System σ ε α S C Call) (I : S → Prop) (made : Call → Prop)
    (happened : (o : σ.Op) → Except ε (σ.Res o) → Prop) (Φ : Call → Except ε α → Prop) : Prop where
  exec : ∀ c o s, I s → K.asks o → happened o (sys.exec c o s).1 → I (sys.exec c o s).2 ∧
    K.gives o (sys.exec c o s).1
  invoke : ∀ call s s', I s → made call → sys.invoke call s = some s' → I s' ∧
    K.Keeps (sys.body call) (Φ call)

/-- What the contract says of a configuration. -/
structure Kept (K : Contract σ ε) (I : S → Prop) (Φ : Call → Except ε α → Prop)
    (cfg : Config σ ε α S Call) : Prop where
  state : I cfg.world.state
  asked : ∀ i c o r, .perform i c o r ∈ cfg.world.log → K.asks o
  ended : ∀ i c r, .respond i c r ∈ cfg.world.log → Φ c r
  running : ∀ t ∈ cfg.threads, ∀ p, t.status = .running p → K.Keeps p (Φ t.call)

variable {sys : System σ ε α S C Call} {I : S → Prop} {made : Call → Prop}
  {happened : (o : σ.Op) → Except ε (σ.Res o) → Prop} {Φ : Call → Except ε α → Prop}
    {cfg cfg' : Config σ ε α S Call}

theorem Kept.set (h : K.Kept I Φ cfg) {w : World σ ε α S Call} (i : Nat)
    {t : Thread σ ε α Call} (hI : I w.state)
    (hasked : ∀ i c o r, .perform i c o r ∈ w.log → K.asks o)
    (hended : ∀ i c r, .respond i c r ∈ w.log → Φ c r)
    (ht : ∀ p, t.status = .running p → K.Keeps p (Φ t.call)) : K.Kept I Φ ⟨w, cfg.threads.set i t⟩ := by
  refine ⟨hI, hasked, hended, fun u hu p hp => ?_⟩
  rcases List.mem_or_eq_of_mem_set hu with hu | rfl
  · exact h.running u hu p hp
  · exact ht p hp

theorem Kept.step (h : K.Kept I Φ cfg) (hh : K.Honoured sys I made happened Φ) {a : Action C Call}
    (ha : sys.act cfg a = some cfg') (hmade : ∀ i c, .invoke i c ∈ cfg'.world.log → made c)
    (hhappened : ∀ i c o r, .perform i c o r ∈ cfg'.world.log → happened o r) : K.Kept I Φ cfg' := by
  cases a with
  | invoke c =>
    obtain ⟨s, hs, rfl⟩ := System.act_invoke ha
    obtain ⟨hI, hbody⟩ := hh.invoke c _ s h.state (hmade _ c List.mem_cons_self) hs
    refine ⟨hI, fun i c' o r he => ?_, fun i c' r he => ?_, fun t ht p hp => ?_⟩
    · exact h.asked i c' o r ((List.mem_cons.mp he).resolve_left fun heq => by cases heq)
    · exact h.ended i c' r ((List.mem_cons.mp he).resolve_left fun heq => by cases heq)
    · rcases List.mem_append.mp ht with ht | ht
      · exact h.running t ht p hp
      · rw [List.mem_singleton.mp ht] at hp ⊢
        cases hp
        exact hbody
  | step i c =>
    obtain ⟨call, o, k, hi, rfl⟩ := System.act_step ha
    obtain ⟨ho, hk⟩ := h.running _ (List.mem_of_getElem? hi) _ rfl
    obtain ⟨hI, hgives⟩ := hh.exec c o _ h.state ho (hhappened _ _ _ _ List.mem_cons_self)
    refine h.set i hI (fun j c' o' r he => ?_) (fun j c' r he => ?_) fun p hp => ?_
    · rcases List.mem_cons.mp he with he | he
      · cases he
        exact ho
      · exact h.asked j c' o' r he
    · exact h.ended j c' r ((List.mem_cons.mp he).resolve_left fun heq => by cases heq)
    · cases hp
      exact hk _ hgives
  | respond i =>
    obtain ⟨call, p, r, hi, hr, rfl⟩ := System.act_respond ha
    have hp := h.running _ (List.mem_of_getElem? hi) _ rfl
    have hend : Φ call r := by
      cases p with
      | ret a => cases hr; exact hp
      | raise e => cases hr; exact hp
      | await _ _ => cases hr
    refine h.set i h.state (fun j c' o r' he => ?_) (fun j c' r' he => ?_) fun q hq => by cases hq
    · exact h.asked j c' o r' ((List.mem_cons.mp he).resolve_left fun heq => by cases heq)
    · rcases List.mem_cons.mp he with he | he
      · cases he
        exact hend
      · exact h.ended j c' r' he

theorem log_act {a : Action C Call} (ha : sys.act cfg a = some cfg') : cfg.world.log ⊆ cfg'.world.log := by
  cases a with
  | invoke c =>
    obtain ⟨s, -, rfl⟩ := System.act_invoke ha
    exact List.subset_cons_self _ _
  | step i c =>
    obtain ⟨call, o, k, -, rfl⟩ := System.act_step ha
    exact List.subset_cons_self _ _
  | respond i =>
    obtain ⟨call, p, r, -, -, rfl⟩ := System.act_respond ha
    exact List.subset_cons_self _ _

/-- **Soundness**: an invariant that honours a contract holds in every reachable configuration, and so
does the contract, whatever is asked only of the calls that were made and the replies that happened in
the run. -/
theorem Honoured.sound (hh : K.Honoured sys I made happened Φ)
    {ok : Config σ ε α S Call → Action C Call → Prop} {s : S}
    (hs : I s) (hr : sys.Reach ok (System.start s) cfg)
    (hmade : ∀ i c, .invoke i c ∈ cfg.world.log → made c)
    (hhappened : ∀ i c o r, .perform i c o r ∈ cfg.world.log → happened o r) : K.Kept I Φ cfg := by
  induction hr with
  | refl => exact ⟨hs, fun _ _ _ _ h => absurd h List.not_mem_nil, fun _ _ _ h => absurd h List.not_mem_nil,
      fun _ h => absurd h List.not_mem_nil⟩
  | tail _ _ ha ih =>
    have hgrows := log_act ha
    exact (ih (fun i c he => hmade i c (hgrows he)) fun i c o r he =>
      hhappened i c o r (hgrows he)).step hh ha hmade hhappened

end Contract

end Async
