import ApprovalFlow.Async.Calls
import Mathlib.Data.List.Count

/-!
# Slots

A counting semaphore with the tasks that share it, and the history of a coroutine.

* `Slots P`: the free slots, and the tasks; `holds` says which of them hold a slot.
* `Slots.move`: a task takes a slot, if one is free, gives its slot back, or neither; `Slots.move_total`:
  the slots are conserved.
* `Follows p h q`: `p`, resumed with the replies of the history `h`, newest first, is `q`.
-/

namespace Async

/-! ## The semaphore -/

structure Slots (P : Type) where
  free : Nat
  tasks : List P

namespace Slots
variable {P : Type} (holds : P → Bool)

/-- The number of tasks that hold a slot. -/
def taken (s : Slots P) : Nat := s.tasks.countP holds

/-- A task arrives, without a slot. -/
def arrive (s : Slots P) (p : P) : Slots P := ⟨s.free, s.tasks ++ [p]⟩

/-- Task `i`, which is `q`, becomes `p`. -/
def move (s : Slots P) (i : Nat) (q p : P) : Option (Slots P) :=
  if holds q = holds p then some ⟨s.free, s.tasks.set i p⟩
  else if holds q then some ⟨s.free + 1, s.tasks.set i p⟩
  else if s.free = 0 then none
  else some ⟨s.free - 1, s.tasks.set i p⟩

variable {holds} {s s' : Slots P} {i : Nat} {p q : P}

theorem move_tasks (h : s.move holds i q p = some s') : s'.tasks = s.tasks.set i p := by
  unfold move at h
  split_ifs at h <;> cases h <;> rfl

theorem taken_arrive (h : holds p = false) : (s.arrive p).taken holds = s.taken holds := by
  simp [taken, arrive, h]

theorem move_isSome_iff (hq : holds q = false) (hp : holds p = true) :
    (s.move holds i q p).isSome ↔ 0 < s.free := by
  simp only [move, hq, hp]
  split_ifs with h <;> simp_all [Nat.pos_iff_ne_zero]

theorem taken_set (hi : s.tasks[i]? = some q) :
    (s.tasks.set i p).countP holds + (holds q).toNat = s.taken holds + (holds p).toNat := by
  obtain ⟨hlt, rfl⟩ := List.getElem?_eq_some_iff.mp hi
  rw [List.countP_set hlt, taken]
  cases hq : holds s.tasks[i] with
  | false => cases holds p <;> simp
  | true =>
    have hpos : 0 < s.tasks.countP holds := List.countP_pos_iff.mpr ⟨_, List.getElem_mem hlt, hq⟩
    cases holds p <;> simp <;> omega

theorem move_total (hi : s.tasks[i]? = some q) (h : s.move holds i q p = some s') :
    s'.free + s'.taken holds = s.free + s.taken holds := by
  have hset : (s.tasks.set i p).countP holds + (holds q).toNat = s.taken holds + (holds p).toNat :=
    taken_set hi
  rw [taken, move_tasks h]
  unfold move at h
  split_ifs at h with hsame hheld hnone
  · cases h
    rw [hsame] at hset
    show s.free + _ = _
    omega
  · cases h
    rw [Bool.not_eq_true _ |>.mp (fun hp => hsame (hheld.trans hp.symm)), hheld] at hset
    simp only [Bool.toNat_true, Bool.toNat_false] at hset
    show s.free + 1 + _ = _
    omega
  · cases h
    have hp : holds p = true := by
      cases hp : holds p
      · exact absurd ((Bool.not_eq_true _ |>.mp hheld).trans hp.symm) hsame
      · rfl
    rw [hp, Bool.not_eq_true _ |>.mp hheld] at hset
    simp only [Bool.toNat_true, Bool.toNat_false] at hset
    show s.free - 1 + _ = _
    omega

end Slots

/-! ## Histories -/

variable {σ : Sig} {ε α β : Type}

/-- `p`, resumed with the replies of a history, is `q`. -/
inductive Follows (p : Prog σ ε α) : List (Awaited σ ε) → Prog σ ε α → Prop
  | refl : Follows p [] p
  | step {h : List (Awaited σ ε)} {o : σ.Op} {k : Except ε (σ.Res o) → Prog σ ε α}
    (r : Except ε (σ.Res o)) :
      Follows p h (.await o k) → Follows p (⟨o, r⟩ :: h) (k r)

theorem Follows.trans {p q r : Prog σ ε α} {h h' : List (Awaited σ ε)} (h₁ : Follows p h q)
    (h₂ : Follows q h' r) : Follows p (h' ++ h) r := by
  induction h₂ with
  | refl => exact h₁
  | step r _ ih => exact ih.step r

theorem Follows.attempt {p q : Prog σ ε α} {h : List (Awaited σ ε)} (hp : Follows p h q)
    (f : Except ε α → Prog σ ε β) : Follows (p.attempt f) h (q.attempt f) := by
  induction hp with
  | refl => exact .refl
  | step r _ ih => exact ih.step r

end Async
