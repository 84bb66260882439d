import ApprovalFlow.Async.Pool
import ApprovalFlow.Async.Slots
import ApprovalFlow.Decision.Provider
import Mathlib.Logic.Relation

/-!
# The bulkhead

Any number of tasks that call a dependency through one bulkhead, interleaved at their awaits. A deadline,
or a cancellation from outside, may arrive at any await, and a call may catch it.

* `BulkheadTask`: a call with the operations it performed; `BulkheadTask.leave`: what `run` makes of its
  result.
* `Bulkhead.act`: one action of the pool; `Bulkhead.act_cases`: what it does.
* `BulkheadTask.Ended`: how a task can have ended.
* `slots_conserved`: no slot is lost, and no more tasks hold one than there are.
* `tasks_end`: every task that ended did so as it should.
-/

namespace ApprovalFlow
open Numeric Async

/-- A task waits for a slot, holds one while its call is underway, or has ended. -/
inductive BulkheadPhase (σ : Sig) (α : Type)
  | queued
  | inside (p : Prog σ Exn α)
  | done (r : Except Exn α)

/-- A `run` of the bulkhead. -/
structure BulkheadTask (σ : Sig) (α : Type) where
  label : String
  call : Prog σ Exn α
  /-- what the call performed, newest first -/
  history : List (Awaited σ Exn)
  /-- the deadline passed -/
  expired : Bool
  /-- cancelled from outside -/
  cancelled : Bool
  phase : BulkheadPhase σ α

/-- The error that `run` raises for a timeout in a phase. -/
def Bulkhead.timeoutError (b : Bulkhead) (label phase : String) : Exn :=
  .bulkheadTimeoutError (label ++ ": bulkhead " ++ phase ++ " timeout after " ++ b.timeoutSeconds ++ "s")

namespace BulkheadTask
variable {σ : Sig} {α : Type}

def arriving (label : String) (call : Prog σ Exn α) : BulkheadTask σ α :=
  ⟨label, call, [], false, false, .queued⟩

def inside (t : BulkheadTask σ α) : Bool :=
  match t.phase with
  | .inside _ => true
  | _ => false

/-- The end of `async with asyncio.timeout(..)`: its own cancellation leaves the block as `TimeoutError`,
unless the task was also cancelled from outside. -/
def exitTimeout (t : BulkheadTask σ α) : Except Exn α → Except Exn α
  | .error .cancelledError =>
    if t.expired && !t.cancelled then .error .timeoutError else .error .cancelledError
  | r => r

/-- `except TimeoutError`. -/
def exceptTimeout (b : Bulkhead) (t : BulkheadTask σ α) (phase : String) : Except Exn α → Except Exn α
  | .error .timeoutError => .error (b.timeoutError t.label phase)
  | r => r

/-- What `run` ends with, in the phase in which the block ends. -/
def leave (b : Bulkhead) (t : BulkheadTask σ α) (phase : String) (r : Except Exn α) : Except Exn α :=
  t.exceptTimeout b phase (t.exitTimeout r)

/-- A cancellation arrives at the await of the task. -/
def interrupt (b : Bulkhead) (t : BulkheadTask σ α) : Option (BulkheadTask σ α) :=
  match t.phase with
  | .queued => some { t with phase := .done (t.leave b "capacity" (.error .cancelledError)) }
  | .inside (.await o k) => some { t with
      phase := .inside (k (.error .cancelledError)), history := ⟨o, .error .cancelledError⟩ :: t.history }
  | _ => none

end BulkheadTask

/-- The dependency, with what its calls await, and the tasks. -/
structure BulkheadPool (σ : Sig) (α S : Type) where
  dependency : S
  slots : Slots (BulkheadTask σ α)

inductive BulkheadAction (σ : Sig) (α C : Type)
  | run (label : String) (call : Prog σ Exn α)
  | acquire (i : Nat)
  /-- the call performs the operation it awaits -/
  | step (i : Nat) (c : C)
  /-- the call has ended -/
  | leave (i : Nat)
  /-- the deadline passes; the operation that is awaited may have been performed -/
  | expire (i : Nat) (served : Option C)
  | cancel (i : Nat) (served : Option C)

/-- The number of slots, and the text of the deadline. -/
def Bulkhead.create (maxConcurrency : Int) (timeoutSeconds : ℚ) (text : String) :
    Except Exn (Nat × Bulkhead) :=
  if maxConcurrency < 1 then
    .error (.valueError ("max_concurrency must be >= 1, got " ++ toString maxConcurrency))
  else if timeoutSeconds ≤ 0 then .error (.valueError ("timeout_seconds must be > 0, got " ++ text))
  else .ok (maxConcurrency.toNat, ⟨text⟩)

namespace BulkheadPool
variable {σ : Sig} {α S C : Type}

/-- No task yet. -/
def start (n : Nat) (s : S) : BulkheadPool σ α S := ⟨s, ⟨n, []⟩⟩

/-- The number of tasks inside. -/
def inside (s : BulkheadPool σ α S) : Nat := s.slots.taken BulkheadTask.inside

/-- Task `i`, which is `t`, becomes `t'`. -/
def move (s : BulkheadPool σ α S) (i : Nat) (t t' : BulkheadTask σ α) : Option (BulkheadPool σ α S) :=
  (s.slots.move BulkheadTask.inside i t t').map fun slots => { s with slots := slots }

/-- The dependency performs what a task awaits. -/
def served (exec : Handler σ Exn S C) (s : BulkheadPool σ α S) (t : BulkheadTask σ α) :
    Option C → BulkheadPool σ α S
  | none => s
  | some c =>
    match t.phase with
    | .inside (.await o _) => { s with dependency := (exec c o s.dependency).2 }
    | _ => s

end BulkheadPool

namespace Bulkhead
variable {σ : Sig} {α S C : Type} (b : Bulkhead) (exec : Handler σ Exn S C)

def act (s : BulkheadPool σ α S) : BulkheadAction σ α C → Option (BulkheadPool σ α S)
  | .run label call => some { s with slots := s.slots.arrive (.arriving label call) }
  | .acquire i =>
    match s.slots.tasks[i]? with
    | some t =>
      match t.phase with
      | .queued => s.move i t { t with phase := .inside t.call }
      | _ => none
    | none => none
  | .step i c =>
    match s.slots.tasks[i]? with
    | some t =>
      match t.phase with
      | .inside (.await o k) =>
        let r := exec c o s.dependency
        { s with dependency := r.2 }.move i t { t with
          phase := .inside (k r.1), history := ⟨o, r.1⟩ :: t.history }
      | _ => none
    | none => none
  | .leave i =>
    match s.slots.tasks[i]? with
    | some t =>
      match t.phase with
      | .inside p => p.result?.bind fun r => s.move i t { t with phase := .done (t.leave b "call" r) }
      | _ => none
    | none => none
  | .expire i served =>
    match s.slots.tasks[i]? with
    | some t =>
      if t.expired then none
      else ({ t with expired := true }.interrupt b).bind ((s.served exec t served).move i t)
    | none => none
  | .cancel i served =>
    match s.slots.tasks[i]? with
    | some t => ({ t with cancelled := true }.interrupt b).bind ((s.served exec t served).move i t)
    | none => none

/-- The pools that actions reach. -/
def Reaches : BulkheadPool σ α S → BulkheadPool σ α S → Prop :=
  Relation.ReflTransGen fun s s' => ∃ a, b.act exec s a = some s'

end Bulkhead

/-! ## What an action does -/

namespace BulkheadTask
variable {σ : Sig} {α : Type}

/-- What happens to a task. -/
inductive Moves (b : Bulkhead) (t : BulkheadTask σ α) : BulkheadTask σ α → Prop
  | acquire (h : t.phase = .queued) : Moves b t { t with phase := .inside t.call }
  | step {o : σ.Op} {k : Except Exn (σ.Res o) → Prog σ Exn α} (h : t.phase = .inside (.await o k))
      (r : Except Exn (σ.Res o)) :
      Moves b t { t with phase := .inside (k r), history := ⟨o, r⟩ :: t.history }
  | leave {p : Prog σ Exn α} {r : Except Exn α} (h : t.phase = .inside p) (hr : p.result? = some r) :
      Moves b t { t with phase := .done (t.leave b "call" r) }
  | expire {t' : BulkheadTask σ α} (h : { t with expired := true }.interrupt b = some t') : Moves b t t'
  | cancel {t' : BulkheadTask σ α} (h : { t with cancelled := true }.interrupt b = some t') : Moves b t t'

end BulkheadTask

namespace BulkheadPool
variable {σ : Sig} {α S C : Type} {s s' : BulkheadPool σ α S} {i : Nat} {t t' : BulkheadTask σ α}

theorem move_slots (h : s.move i t t' = some s') :
    s.slots.move BulkheadTask.inside i t t' = some s'.slots := by
  obtain ⟨slots, hslots, rfl⟩ := Option.map_eq_some_iff.mp h
  exact hslots

@[simp] theorem served_slots (exec : Handler σ Exn S C) (s : BulkheadPool σ α S) (t : BulkheadTask σ α)
    (served : Option C) : (s.served exec t served).slots = s.slots := by
  unfold BulkheadPool.served
  split
  · rfl
  · split <;> rfl

end BulkheadPool

namespace Bulkhead
variable {σ : Sig} {α S C : Type} {b : Bulkhead} {exec : Handler σ Exn S C} {s s' : BulkheadPool σ α S}

/-- **What an action does**: a task arrives, or one task moves. -/
theorem act_cases {a : BulkheadAction σ α C} (h : b.act exec s a = some s') :
    (∃ label call, s'.slots = s.slots.arrive (.arriving label call)) ∨
      ∃ i t t', s.slots.tasks[i]? = some t ∧
        t.Moves b t' ∧ s.slots.move BulkheadTask.inside i t t' = some s'.slots := by
  have hserved {t t' : BulkheadTask σ α} {i : Nat} {served : Option C}
      (hmove : (s.served exec t served).move i t t' = some s') :
      s.slots.move BulkheadTask.inside i t t' = some s'.slots := by
    rw [← BulkheadPool.served_slots exec s t served]
    exact BulkheadPool.move_slots hmove
  cases a with
  | run label call =>
    cases h
    exact .inl ⟨label, call, rfl⟩
  | acquire i =>
    simp only [act] at h
    split at h
    · next t hi =>
      split at h
      · next hphase => exact .inr ⟨i, t, _, hi, .acquire hphase, BulkheadPool.move_slots h⟩
      · cases h
    · cases h
  | step i c =>
    simp only [act] at h
    split at h
    · next t hi =>
      split at h
      · next o k hphase =>
        have hmove := BulkheadPool.move_slots (s := { s with dependency := (exec c o s.dependency).2 }) h
        exact .inr ⟨i, t, _, hi, .step hphase _, hmove⟩
      · cases h
    · cases h
  | leave i =>
    simp only [act] at h
    split at h
    · next t hi =>
      split at h
      · next p hphase =>
        obtain ⟨r, hr, h⟩ := Option.bind_eq_some_iff.mp h
        exact .inr ⟨i, t, _, hi, .leave hphase hr, BulkheadPool.move_slots h⟩
      · cases h
    · cases h
  | expire i served =>
    simp only [act] at h
    split at h
    · next t hi =>
      split_ifs at h
      obtain ⟨t', ht', h⟩ := Option.bind_eq_some_iff.mp h
      exact .inr ⟨i, t, t', hi, .expire ht', hserved h⟩
    · cases h
  | cancel i served =>
    simp only [act] at h
    split at h
    · next t hi =>
      obtain ⟨t', ht', h⟩ := Option.bind_eq_some_iff.mp h
      exact .inr ⟨i, t, t', hi, .cancel ht', hserved h⟩
    · cases h

/-- What every task satisfies when it arrives and keeps when it moves, every task of a pool satisfies. -/
theorem Reaches.tasks {P : BulkheadTask σ α → Prop} (harrive : ∀ label call, P (.arriving label call))
    (hmove : ∀ t t', t.Moves b t' → P t → P t') (hr : b.Reaches exec s s') (hs : ∀ t ∈ s.slots.tasks, P t) :
    ∀ t ∈ s'.slots.tasks, P t := by
  induction hr with
  | refl => exact hs
  | tail _ hstep ih =>
    obtain ⟨a, ha⟩ := hstep
    rcases act_cases ha with ⟨label, call, hslots⟩ | ⟨i, t, t', hi, htt', hslots⟩
    · rw [hslots]
      intro t ht
      rcases List.mem_append.mp ht with ht | ht
      · exact ih t ht
      · rw [List.mem_singleton.mp ht]
        exact harrive label call
    · rw [Slots.move_tasks hslots]
      intro u hu
      rcases List.mem_or_eq_of_mem_set hu with hu | rfl
      · exact ih u hu
      · exact hmove t u htt' (ih t (List.mem_of_getElem? hi))

/-! ## Capacity -/

/-- **No slot is lost**: in every run the free slots and the tasks inside add up to `max_concurrency`, so
a waiting task can go in exactly if fewer tasks are inside, and one always can where none is. -/
theorem slots_conserved {m : Int} {x : ℚ} {text : String}
    {n : Nat} (hcreate : Bulkhead.create m x text = .ok (n, b)) (d : S)
    (hr : b.Reaches exec (BulkheadPool.start n d) s) :
    s.slots.free + s.inside = m ∧ 1 ≤ m ∧
      ∀ i t, s.slots.tasks[i]? = some t → t.phase = .queued →
        ((b.act exec s (.acquire i : BulkheadAction σ α C)).isSome ↔ (s.inside : Int) < m) := by
  have hm : (n : Int) = m ∧ 1 ≤ m := by
    unfold Bulkhead.create at hcreate
    split_ifs at hcreate with hlt
    cases hcreate
    omega
  have htotal : s.slots.free + s.inside = n := by
    clear hcreate
    induction hr with
    | refl => simp [BulkheadPool.start, BulkheadPool.inside, Slots.taken]
    | tail _ hstep ih =>
      obtain ⟨a, ha⟩ := hstep
      rw [← ih]
      rcases act_cases ha with ⟨label, call, hslots⟩ | ⟨i, t, t', hi, -, hslots⟩
      · rw [BulkheadPool.inside, hslots, Slots.taken_arrive rfl]
        rfl
      · exact Slots.move_total hi hslots
  refine ⟨by omega, hm.2, fun i t hi hqueued => ?_⟩
  have hout : t.inside = false := by simp [BulkheadTask.inside, hqueued]
  have hact : (b.act exec s (.acquire i : BulkheadAction σ α C)).isSome =
      (s.slots.move BulkheadTask.inside i t { t with phase := .inside t.call }).isSome := by
    simp only [act, hi, hqueued, BulkheadPool.move, Option.isSome_map]
  rw [hact, Slots.move_isSome_iff hout rfl]
  omega

end Bulkhead

/-! ## Ends -/

namespace BulkheadTask
variable {σ : Sig} {α : Type} {b : Bulkhead} {t t' : BulkheadTask σ α}

/-- The result of a call that the bulkhead reports as its timeout. -/
def TimesOut (t : BulkheadTask σ α) (r : Except Exn α) : Prop :=
  r = .error .timeoutError ∨ r = .error .cancelledError ∧ t.expired = true ∧ t.cancelled = false

/-- How a task can have ended. -/
inductive Ended (b : Bulkhead) (t : BulkheadTask σ α) : Except Exn α → Prop
  /-- the deadline passed in the queue, and the dependency was not called -/
  | starved (hnone : t.history = []) (h : t.expired = true ∧ t.cancelled = false) : Ended b t
      (.error (b.timeoutError t.label "capacity"))
  /-- cancelled from outside in the queue, and the dependency was not called -/
  | abandoned (hnone : t.history = []) (h : t.cancelled = true) : Ended b t (.error .cancelledError)
  /-- the call ended in time -/
  | returned {p : Prog σ Exn α} {r : Except Exn α} (hp : Follows t.call t.history p)
    (hr : p.result? = some r)
      (h : ¬ t.TimesOut r) : Ended b t r
  | timedOut {p : Prog σ Exn α} {r : Except Exn α} (hp : Follows t.call t.history p)
    (hr : p.result? = some r)
      (h : t.TimesOut r) : Ended b t (.error (b.timeoutError t.label "call"))

/-- What a task has done agrees with its phase. -/
def Consistent (b : Bulkhead) (t : BulkheadTask σ α) : Prop :=
  match t.phase with
  | .queued => t.history = [] ∧ t.expired = false ∧ t.cancelled = false
  | .inside p => Follows t.call t.history p
  | .done r => t.Ended b r

theorem ended_leave {p : Prog σ Exn α} {r : Except Exn α} (hp : Follows t.call t.history p)
    (hr : p.result? = some r) : t.Ended b (t.leave b "call" r) := by
  by_cases h : t.TimesOut r
  · have hleave : t.leave b "call" r = .error (b.timeoutError t.label "call") := by
      rcases h with rfl | ⟨rfl, hexpired, hcancelled⟩
      · rfl
      · simp [leave, exitTimeout, exceptTimeout, hexpired, hcancelled]
    rw [hleave]
    exact .timedOut hp hr h
  · have hleave : t.leave b "call" r = r := by
      rcases r with e | a
      · have htimeout : e ≠ .timeoutError := fun he => h (.inl (he ▸ rfl))
        have hcancel : e = .cancelledError → (t.expired && !t.cancelled) = false := fun he => by
          rw [Bool.eq_false_iff]
          intro hflags
          rw [Bool.and_eq_true, Bool.not_eq_true'] at hflags
          exact h (.inr ⟨he ▸ rfl, hflags⟩)
        cases e <;> simp_all [leave, exitTimeout, exceptTimeout]
      · rfl
    rw [hleave]
    exact .returned hp hr h

/-- An interruption in the queue ends a task, one during the call is thrown into it. -/
theorem Consistent.interrupt (h : t.Consistent b) {u : BulkheadTask σ α}
    (hu : u = { t with expired := true } ∨ u = { t with cancelled := true })
    (ht' : u.interrupt b = some t') : t'.Consistent b := by
  have hsame : u.phase = t.phase ∧ u.call = t.call ∧ u.history = t.history := by
    rcases hu with rfl | rfl <;> exact ⟨rfl, rfl, rfl⟩
  unfold BulkheadTask.interrupt at ht'
  split at ht'
  · next hphase =>
    rw [hsame.1] at hphase
    simp only [Consistent, hphase] at h
    cases ht'
    obtain ⟨hnone, hexpired, hcancelled⟩ := h
    show Ended b _ _
    rcases hu with rfl | rfl
    · have hleave : ({ t with expired := true } : BulkheadTask σ α).leave b "capacity"
          (.error .cancelledError) = .error (b.timeoutError t.label "capacity") := by
        simp [leave, exitTimeout, exceptTimeout, hcancelled]
      rw [hleave]
      exact .starved hnone ⟨rfl, hcancelled⟩
    · have hleave : ({ t with cancelled := true } : BulkheadTask σ α).leave b "capacity"
          (.error .cancelledError) = .error .cancelledError := by
        simp [leave, exitTimeout, exceptTimeout]
      rw [hleave]
      exact .abandoned hnone rfl
  · next o k hphase =>
    rw [hsame.1] at hphase
    simp only [Consistent, hphase] at h
    cases ht'
    show Follows u.call (_ :: u.history) _
    rw [hsame.2.1, hsame.2.2]
    exact h.step _
  · cases ht'

theorem Moves.consistent (hm : t.Moves b t') (h : t.Consistent b) : t'.Consistent b := by
  cases hm with
  | acquire hphase =>
    simp only [Consistent, hphase] at h
    show Follows t.call t.history t.call
    rw [h.1]
    exact .refl
  | step hphase r =>
    simp only [Consistent, hphase] at h
    exact h.step r
  | @leave p r hphase hr =>
    simp only [Consistent, hphase] at h
    exact ended_leave (t := { t with phase := .done (t.leave b "call" r) }) h hr
  | expire ht' => exact h.interrupt (.inl rfl) ht'
  | cancel ht' => exact h.interrupt (.inr rfl) ht'

/-! ### The sequential coroutine -/

variable {acquire : Prog σ Exn Unit} {h : List (Awaited σ Exn)}

/-- `run` where the deadline passes before a slot is free. -/
theorem run_starved (b : Bulkhead) (call : Prog σ Exn α) (label : String)
    (hacquire : Follows acquire h (.raise .cancelledError)) :
    Follows (b.run acquire call label) h (.raise (b.timeoutError label "capacity")) :=
  (hacquire.attempt _).attempt _

theorem eq_ofExcept {p : Prog σ Exn α} {r : Except Exn α} (hr : p.result? = some r) : p = .ofExcept r := by
  cases p <;> cases hr <;> rfl

/-- `run` where a slot is free and the call ends. -/
theorem run_ended (b : Bulkhead) {call p : Prog σ Exn α} (label : String)
    {h' : List (Awaited σ Exn)} {r : Except Exn α}
    (hacquire : Follows acquire h (.ret ())) (hp : Follows call h' p) (hr : p.result? = some r) :
    Follows (b.run acquire call label) (h' ++ h) (.ofExcept (match r with
      | .error .cancelledError => .error (b.timeoutError label "call")
      | .error .timeoutError => .error (b.timeoutError label "call")
      | r => r)) := by
  rw [eq_ofExcept hr] at hp
  refine Follows.trans ((hacquire.attempt _).attempt _) ?_
  rcases r with e | a
  · cases e <;> exact (hp.attempt _).attempt _
  · exact (hp.attempt _).attempt _

/-- **A task is a run of the coroutine**: unless a cancellation left it, what it ended with is what `run`
ends with after the same operations, where a slot was refused or granted. -/
theorem Ended.run {r : Except Exn α} (h : t.Ended b r) (hr : r ≠ .error .cancelledError) :
    ∃ reply : Except Exn Unit, ∀ (acquire : Prog σ Exn Unit) (before : List (Awaited σ Exn)),
      Follows acquire before (.ofExcept reply) →
        Follows (b.run acquire t.call t.label) (t.history ++ before) (.ofExcept r) := by
  cases h with
  | starved hnone _ =>
    refine ⟨.error .cancelledError, fun acquire before hacquire => ?_⟩
    rw [hnone]
    exact run_starved b t.call t.label hacquire
  | abandoned _ h => exact absurd rfl hr
  | returned hp hres h =>
    refine ⟨.ok (), fun acquire before hacquire => ?_⟩
    have hrun := run_ended b t.label hacquire hp hres
    rcases r with e | a
    · cases e
      case cancelledError => exact absurd rfl hr
      case timeoutError => exact absurd (.inl rfl) h
      all_goals exact hrun
    · exact hrun
  | timedOut hp hres h =>
    refine ⟨.ok (), fun acquire before hacquire => ?_⟩
    have hrun := run_ended b t.label hacquire hp hres
    rcases h with rfl | ⟨rfl, -, -⟩
    · exact hrun
    · exact hrun

end BulkheadTask

namespace Bulkhead
variable {σ : Sig} {α S C : Type} {b : Bulkhead} {exec : Handler σ Exn S C} {s : BulkheadPool σ α S}

/-- **Every task ends as it should**: a timeout in the queue means that the dependency was not called, a
timeout of the call that its slot was held; otherwise the result is that of the call. Unless a
cancellation left it, a task is a run of the coroutine. -/
theorem tasks_end (n : Nat) (d : S) (hr : b.Reaches exec (BulkheadPool.start n d) s) (t : BulkheadTask σ α)
    (ht : t ∈ s.slots.tasks) (r : Except Exn α) (hdone : t.phase = .done r) :
    t.Ended b r ∧ (r ≠ .error .cancelledError →
      ∃ reply : Except Exn Unit, ∀ (acquire : Prog σ Exn Unit) (before : List (Awaited σ Exn)),
        Follows acquire before (.ofExcept reply) →
          Follows (b.run acquire t.call t.label) (t.history ++ before) (.ofExcept r)) := by
  have hconsistent : t.Consistent b := hr.tasks (fun _ _ => ⟨rfl, rfl, rfl⟩)
      (fun _ _ hm h => hm.consistent h)
    (fun _ ht => absurd ht List.not_mem_nil) t ht
  simp only [BulkheadTask.Consistent, hdone] at hconsistent
  exact ⟨hconsistent, hconsistent.run⟩

/-! ## A crowded bulkhead -/

def runActions (b : Bulkhead) (exec : Handler σ Exn S C) :
    List (BulkheadAction σ α C) → BulkheadPool σ α S → Option (BulkheadPool σ α S)
  | [], s => some s
  | a :: as, s => (b.act exec s a).bind (b.runActions exec as)

theorem reaches_of_runActions (as : List (BulkheadAction σ α C)) {s s' : BulkheadPool σ α S}
    (h : b.runActions exec as s = some s') : b.Reaches exec s s' := by
  induction as generalizing s with
  | nil =>
    cases h
    exact .refl
  | cons a as ih =>
    obtain ⟨s₁, h1, h2⟩ := Option.bind_eq_some_iff.mp h
    exact .head ⟨a, h1⟩ (ih h2)

/-- A call of Groq. -/
def groqCall (message : String) : Prog groqSig Exn String :=
  (GroqProvider.complete ⟨"openai/gpt-oss-120b"⟩).complete "system" message

/-- Two calls for one slot: the second waits until its deadline. -/
def crowded : List (BulkheadAction groqSig String GroqBehaviour) :=
  [.run "groq" (groqCall "first"), .run "groq" (groqCall "second"), .acquire 0, .expire 1 none,
    .step 0 (.response ⟨[some "{}"]⟩), .leave 0]

def starvedTask : BulkheadTask groqSig String where
  label := "groq"
  call := groqCall "second"
  history := []
  expired := true
  cancelled := false
  phase := .done (.error (Bulkhead.timeoutError ⟨"15.0"⟩ "groq" "capacity"))

theorem crowded_runs : ∃ served,
    Bulkhead.runActions ⟨"15.0"⟩ GroqBehaviour.answer crowded (BulkheadPool.start 1 ()) =
    some ⟨(), ⟨1, [served, starvedTask]⟩⟩ := ⟨_, rfl⟩

theorem crowded_slots : ∃ served, ((1 : Nat) : Int) +
    (BulkheadPool.inside (⟨(), ⟨1, [served, starvedTask]⟩⟩ : BulkheadPool groqSig String
      Unit) : Nat) = 1 := by
  obtain ⟨served, hruns⟩ := crowded_runs
  have hcreate : Bulkhead.create 1 15 "15.0" = .ok (1, ⟨"15.0"⟩) := if_neg (by decide)
  exact ⟨served, (slots_conserved hcreate () (reaches_of_runActions crowded hruns)).1⟩

theorem starved_ended : starvedTask.Ended ⟨"15.0"⟩
    (.error (Bulkhead.timeoutError ⟨"15.0"⟩ "groq" "capacity")) := by
  obtain ⟨served, hruns⟩ := crowded_runs
  exact (tasks_end 1 () (reaches_of_runActions crowded hruns) starvedTask (by simp) _ rfl).1

end Bulkhead

end ApprovalFlow
