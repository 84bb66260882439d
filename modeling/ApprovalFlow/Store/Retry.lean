import ApprovalFlow.Store.Versioned
import Mathlib.Order.Defs.Unbundled

/-!
# Retried updates and lost replies

A client applies `step` to a stored value with a conditional write and retries when the write seems to
have failed. A lost reply looks like a failure, so the update can be applied again.

* `walk step attempts r`: what a sequence of attempts makes of the value `r`, and whether the client
  returns.
* `Exactly target r`: the value is `target` if the client returns and `r` if it raises.
* `exactly_iff`: for steps that move results one way only, this is so exactly when the attempts are
  `Harmless`: nothing is applied twice, or applying it makes no difference.
-/

namespace Versioned

variable {α : Type} (step : α → Option α)

/-- Attempts on the value `r`; a step that is not defined raises. -/
def walk : List Reception → α → Bool × α
  | [], r => (false, r)
  | a :: as, r =>
    match step r with
    | none => (false, r)
    | some r' =>
      match a with
      | .serve => (true, r')
      | .refuse => walk as r
      | .lose => walk as r'

/-- The value is `target` after a return, and what it was after an exception. -/
def Exactly (target r : α) (result : Bool × α) : Prop :=
  (result.1 = true → result.2 = target) ∧ (result.1 = false → result.2 = r)

/-- The first request that is served is answered and reaches the target, or its reply is lost and
applying the step again, as often as later attempts do, changes nothing. -/
def Harmless (target r : α) : List Reception → Prop
  | [] => True
  | .serve :: _ => step r = some target
  | .refuse :: as => Harmless target r as
  | .lose :: as => if .serve ∈ as then step r = some target ∧ step target = some target else step r = some r

variable {step} {target r r' : α} {as : List Reception}

/-- A value that a step produces. -/
def IsResult (step : α → Option α) (r : α) : Prop := ∃ q, step q = some r

theorem walk_cons_none (h : step r = none) (as : List Reception) : walk step as r = (false, r) := by
  cases as with
  | nil => rfl
  | cons a as => simp only [walk, h]

theorem walk_serve (h : step r = some r') (as : List Reception) :
    walk step (.serve :: as) r = (true, r') := by
  simp only [walk, h]

theorem walk_refuse (h : step r = some r') (as : List Reception) :
    walk step (.refuse :: as) r = walk step as r := by
  simp only [walk, h]

theorem walk_lose (h : step r = some r') (as : List Reception) :
    walk step (.lose :: as) r = walk step as r' := by
  simp only [walk, h]

theorem serve_mem_of_walk (h : (walk step as r).1 = true) : .serve ∈ as := by
  induction as generalizing r with
  | nil => cases h
  | cons a as ih =>
    cases hs : step r with
    | none => rw [walk_cons_none hs] at h; cases h
    | some r' =>
      cases a with
      | serve => exact List.mem_cons_self
      | refuse => exact List.mem_cons_of_mem _ (ih (walk_refuse hs as ▸ h))
      | lose => exact List.mem_cons_of_mem _ (ih (walk_lose hs as ▸ h))

theorem walk_of_fixed (h : step r = some r) (as : List Reception) :
    walk step as r = (decide (.serve ∈ as), r) := by
  induction as with
  | nil => rfl
  | cons a as ih =>
    cases a with
    | serve => simp [walk_serve h]
    | refuse => simp [walk_refuse h, ih]
    | lose => simp [walk_lose h, ih]

section OneWay
variable {le : α → α → Prop} [IsPartialOrder α le]

/-- Results only move one way. -/
def OneWay (le : α → α → Prop) (step : α → Option α) : Prop :=
  ∀ r r', IsResult step r → step r = some r' → le r' r

theorem walk_le (hway : OneWay le step) (hr : IsResult step r) :
    le (walk step as r).2 r ∧ IsResult step (walk step as r).2 := by
  induction as generalizing r with
  | nil => exact ⟨refl r, hr⟩
  | cons a as ih =>
    cases hs : step r with
    | none => rw [walk_cons_none hs]; exact ⟨refl r, hr⟩
    | some r' =>
      have hle := hway r r' hr hs
      cases a with
      | serve => rw [walk_serve hs]; exact ⟨hle, r, hs⟩
      | refuse => rw [walk_refuse hs]; exact ih hr
      | lose =>
        rw [walk_lose hs]
        obtain ⟨hle', hres⟩ := ih ⟨r, hs⟩
        exact ⟨Trans.trans hle' hle, hres⟩

/-- A client that returns with the value it started from found a fixed value. -/
theorem fixed_of_walk (hway : OneWay le step) (hr : IsResult step r) (h : walk step as r = (true, r)) :
    step r = some r := by
  induction as with
  | nil => cases h
  | cons a as ih =>
    cases hs : step r with
    | none => rw [walk_cons_none hs] at h; cases h
    | some r' =>
      have hle := hway r r' hr hs
      cases a with
      | serve => rw [walk_serve hs] at h; cases h; rfl
      | refuse => rw [walk_refuse hs] at h; rw [← hs]; exact ih h
      | lose =>
        rw [walk_lose hs] at h
        have hle' : le (walk step as r').2 r' := (walk_le hway ⟨r, hs⟩).1
        rw [h] at hle'
        rw [antisymm hle hle']

theorem exactly_lose_iff (hway : OneWay le step)
    (htarget : ∀ q, step r = some q → IsResult step target → q = target) (hs : step r = some r') :
    Exactly target r (walk step as r') ↔
      if .serve ∈ as then step r = some target ∧ step target = some target else step r = some r := by
  have hr' : IsResult step r' := ⟨r, hs⟩
  have hle : le (walk step as r').2 r' := (walk_le hway hr').1
  have hres : IsResult step (walk step as r').2 := (walk_le hway hr').2
  have hback (h : (walk step as r').2 = r) : r' = r := by
    have h1 := hway r r' (h ▸ hres) hs
    exact antisymm h1 (h ▸ hle)
  split_ifs with hserve
  · constructor
    · rintro ⟨hret, hraise⟩
      cases hw : (walk step as r').1 with
      | true =>
        have hfinal := hret hw
        have heq : r' = target := htarget r' hs (hfinal ▸ hres)
        subst heq
        exact ⟨hs, fixed_of_walk hway hr' (Prod.ext hw hfinal)⟩
      | false =>
        have heq := hback (hraise hw)
        rw [heq] at hs hw
        rw [walk_of_fixed hs] at hw
        simp [hserve] at hw
    · rintro ⟨h1, h2⟩
      cases h1.symm.trans hs
      rw [walk_of_fixed h2]
      exact ⟨fun _ => rfl, fun h => by simp [hserve] at h⟩
  · have hw : (walk step as r').1 = false := by
      by_contra h
      exact hserve (serve_mem_of_walk (Bool.not_eq_false _ ▸ h))
    constructor
    · intro h
      rw [hs, hback (h.2 hw)]
    · intro h
      cases h.symm.trans hs
      rw [walk_of_fixed hs]
      exact ⟨fun h => absurd (of_decide_eq_true h) hserve, fun _ => rfl⟩

/-- **Exactly once**: where the step is defined, the attempts leave the target after a return and the old
value after an exception if and only if they are harmless. -/
theorem exactly_iff (hway : OneWay le step)
    (htarget : ∀ q, step r = some q → IsResult step target → q = target)
    (hs : step r = some r') : Exactly target r (walk step as r) ↔ Harmless step target r as := by
  induction as with
  | nil => simp [Exactly, Harmless, walk]
  | cons a as ih =>
    cases a with
    | serve =>
      rw [walk_serve hs, Harmless, hs]
      simp [Exactly]
    | refuse =>
      rw [walk_refuse hs, Harmless]
      exact ih
    | lose =>
      rw [walk_lose hs, Harmless]
      exact exactly_lose_iff hway htarget hs

end OneWay

end Versioned
