import ApprovalFlow.Payment.DaprState
import ApprovalFlow.Store.Retry

/-!
# Lost replies

`reserve` and `release` take every failed write for a stale etag and try again. Where a write was
committed and its reply was lost, the next attempt applies the amount once more.

* `alone`: a call with no other client, each of its five write attempts served, refused, or served with
  the reply lost.
* `updateLoop_walk`: such a call is a walk on the remaining balance.
* `moves_exactly_iff`: exactly when a call moves the balance by its amount if it returns and leaves it if
  it raises; `lost_reply_reserves_twice`: a reply that is lost.
-/

namespace ApprovalFlow.Payment
open Numeric Async Versioned

/-- Five write attempts; reads are served. -/
def attempts (attempt : Nat → Reception) : List Reception := (List.range maxRetries).map attempt

/-- What becomes of the requests of these attempts, each a read and a write. -/
def requests (as : List Reception) : List Reception := as.flatMap fun a => [.serve, a]

/-- Run a call on the store with no other client. -/
def alone (p : Prog (storeSig PaymentValue) Exn Unit) (as : List Reception) (s : Store PaymentValue) :
    Outcome Exn Unit × Store PaymentValue :=
  p.run (lossyStore PaymentValue) (requests as) s

/-- The remaining balance of a department. -/
def remaining? (s : Store PaymentValue) (d : String) : Option ℚ :=
  match s.value (DaprStateBudgetRepository.key d) with
  | some (.budget b) => some b.remaining.toRat
  | _ => none

/-- The balance moved by `delta` if the call returned, and not at all if it raised. -/
def MovesExactly (delta : ℚ) (d : String) (s : Store PaymentValue)
    (r : Outcome Exn Unit × Store PaymentValue) : Prop :=
  (r.1 = .returned () → remaining? r.2 d = (remaining? s d).map (· + delta)) ∧
    ∀ e, r.1 = .raised e → remaining? r.2 d = remaining? s d

/-- The balance that a reservation stores for the balance it reads, if it stores one. -/
def reserveStep (rnd : Rounding) (x : ℚ) (r : ℚ) : Option ℚ := if r < x then none else rnd.value (r - x)

/-- The balance that a release stores for the balance it reads, if it stores one. -/
def releaseStep (rnd : Rounding) (x total : ℚ) (r : ℚ) : Option ℚ :=
  (rnd.value (r + x)).bind fun r' => if total < r' then none else some r'

/-- A change of budgets that is the step `step` on the remaining balance. -/
def Steps (step : ℚ → Option ℚ) (total : ℚ) (f : Budget → Except Exn Budget) : Prop :=
  ∀ b, b.total.toRat = total → match f b with
    | .ok b' => b'.total = b.total ∧ step b.remaining.toRat = some b'.remaining.toRat
    | .error _ => step b.remaining.toRat = none

variable {rnd : Rounding} {x : Decimal} {d : String} {s : Store PaymentValue}

theorem reserved_steps (total : ℚ) :
    Steps (reserveStep rnd x.toRat) total (InMemoryBudgetRepository.reserved rnd d x) := by
  intro b _
  simp only [InMemoryBudgetRepository.reserved, Decimal.lt_iff, reserveStep]
  split_ifs with hlt
  · simp
  · cases hr : rnd.sub b.remaining x with
    | ok r => exact ⟨rfl, Rounding.sub_ok hr⟩
    | error e =>
      have := Rounding.round_error hr
      rwa [Decimal.toRat_subExact] at this

theorem released_steps (total : ℚ) :
    Steps (releaseStep rnd x.toRat total) total (InMemoryBudgetRepository.released rnd d x) := by
  intro b hb
  unfold InMemoryBudgetRepository.released releaseStep
  cases hr : rnd.add b.remaining x with
  | ok r =>
    simp only [Exn.ofSignal, Except.bind, Rounding.add_ok hr, Option.bind_some, Decimal.lt_iff, hb]
    split_ifs <;> simp
  | error e =>
    have := Rounding.round_error hr
    rw [Decimal.toRat_addExact] at this
    simp [Exn.ofSignal, Except.bind, this]

/-! ## A call is a walk -/

section Walk
variable {f : Budget → Except Exn Budget} {action : String} {step : ℚ → Option ℚ} {total : ℚ}

/-- The outcome and the store that a walk stands for. -/
def Follows (d : String) (w : Bool × ℚ) (r : Outcome Exn Unit × Store PaymentValue) : Prop :=
  remaining? r.2 d = some w.2 ∧ (w.1 = true → r.1 = .returned ()) ∧ (w.1 = false → ∃ e, r.1 = .raised e)

theorem remaining?_put (s : Store PaymentValue) (d : String) (b : Budget) :
    remaining? (s.put (DaprStateBudgetRepository.key d) (.budget b)) d = some b.remaining.toRat := by
  simp [remaining?]

theorem transact_current (s : Store PaymentValue) (k : String) (v : PaymentValue) :
    s.transact [⟨k, v, some (s.etag k)⟩] = some (s.put k v) :=
  Store.transact_eq_some.mpr ⟨Store.current_single.mpr rfl, rfl⟩

/-- **A call with no other client** is a walk of its attempts. -/
theorem updateLoop_walk (hf : Steps step total f) (as : List Reception) {b : Budget}
    (hb : b.total.toRat = total)
    (hs : s.value (DaprStateBudgetRepository.key d) = some (.budget b)) :
    Follows d (walk step as b.remaining.toRat)
      (alone (DaprStateBudgetRepository.updateLoop (storeClient PaymentValue) f action d as.length)
        as s) := by
  have hrem {s : Store PaymentValue} {b : Budget}
      (hs : s.value (DaprStateBudgetRepository.key d) = some (.budget b)) :
      remaining? s d = some b.remaining.toRat := by
    simp [remaining?, hs]
  induction as generalizing s b with
  | nil => exact ⟨hrem hs, by simp [walk], fun _ => ⟨_, rfl⟩⟩
  | cons a as ih =>
    have hstep := hf b hb
    rw [List.length_cons, DaprStateBudgetRepository.updateLoop_succ, getState_attempt]
    simp only [alone, requests, List.flatMap_cons, List.cons_append, List.nil_append, Prog.run,
      lossyStore, Op.perform,
      StateClient.afterRead, Store.get, hs, DaprStateBudgetRepository.updated,
        PaymentValue.toBudget, Except.bind]
    cases hfb : f b with
    | error e =>
      rw [hfb] at hstep
      rw [walk_cons_none hstep]
      exact ⟨hrem hs, by simp, fun _ => ⟨_, rfl⟩⟩
    | ok b' =>
      rw [hfb] at hstep
      obtain ⟨ht, hstep⟩ := hstep
      simp only [executeStateTransaction_attempt, Prog.run]
      cases a with
      | serve =>
        rw [walk_serve hstep]
        simp only [lossyStore, Op.perform, transact_current, StateClient.afterWrite, Prog.run]
        exact ⟨remaining?_put s d b', fun _ => rfl, by simp⟩
      | refuse =>
        rw [walk_refuse hstep]
        exact ih hb hs
      | lose =>
        rw [walk_lose hstep]
        simp only [lossyStore, Op.perform, transact_current, StateClient.afterWrite, Option.getD_some]
        exact ih (by rw [ht, hb]) (Store.value_put_self _ _ _)

end Walk

theorem updateLoop_raises {f : Budget → Except Exn Budget} {action : String} {e : Exn}
    (h : DaprStateBudgetRepository.updated f d (s.value (DaprStateBudgetRepository.key d)) = .error e)
    (a : Reception) (as : List Reception) :
    alone (DaprStateBudgetRepository.updateLoop (storeClient PaymentValue) f action d (a :: as).length)
      (a :: as) s = (.raised e, s) := by
  rw [List.length_cons, DaprStateBudgetRepository.updateLoop_succ, getState_attempt]
  simp only [alone, requests, List.flatMap_cons, List.cons_append, List.nil_append, Prog.run,
    lossyStore, Op.perform, StateClient.afterRead, Store.get, h]

/-! ## Exactly once -/

theorem movesExactly_of_raised (delta : ℚ) (e : Exn) : MovesExactly delta d s (.raised e, s) :=
  ⟨by simp, fun _ _ => rfl⟩

theorem movesExactly_iff {w : Bool × ℚ} {r : Outcome Exn Unit × Store PaymentValue}
    {q delta : ℚ} (h : Follows d w r)
    (hs : remaining? s d = some q) : MovesExactly delta d s r ↔ Exactly (q + delta) q w := by
  obtain ⟨hr, hret, hraise⟩ := h
  unfold MovesExactly Exactly
  rw [hr, hs]
  simp only [Option.map_some, Option.some.injEq]
  cases hw : w.1 with
  | true =>
    rw [hret hw]
    simp
  | false =>
    obtain ⟨e, he⟩ := hraise hw
    rw [he]
    simp

/-- What the step stores is the balance moved by `delta`, rounded. -/
def Moves (rnd : Rounding) (delta : ℚ) (step : ℚ → Option ℚ) : Prop :=
  ∀ r r', step r = some r' → rnd.value (r + delta) = some r'

theorem reserveStep_moves (rnd : Rounding) (x : ℚ) : Moves rnd (-x) (reserveStep rnd x) := by
  intro r r' h
  unfold reserveStep at h
  split_ifs at h
  rwa [← sub_eq_add_neg]

theorem releaseStep_moves (rnd : Rounding) (x total : ℚ) : Moves rnd x (releaseStep rnd x total) := by
  intro r r' h
  simp only [releaseStep, Option.bind_eq_some_iff] at h
  obtain ⟨q, hq, h⟩ := h
  split_ifs at h
  cases h
  exact hq

section Moves
variable {delta : ℚ} {step : ℚ → Option ℚ} {r : ℚ}

theorem Moves.fits (hm : Moves rnd delta step) (h : IsResult step r) : rnd.Fits r := by
  obtain ⟨q, hq⟩ := h
  exact Rounding.fits_of_value (hm q r hq)

theorem Moves.oneWay_le (hm : Moves rnd delta step) (hdelta : delta ≤ 0) : OneWay (· ≤ ·) step :=
  fun _ _ hr hs => rnd.value_mono (by linarith) (hm _ _ hs) (hm.fits hr)

theorem Moves.oneWay_ge (hm : Moves rnd delta step) (hdelta : 0 ≤ delta) : OneWay (· ≥ ·) step :=
  fun _ _ hr hs => rnd.value_mono (by linarith) (hm.fits hr) (hm _ _ hs)

theorem Moves.target (hm : Moves rnd delta step) (q : ℚ) (hq : step r = some q)
    (h : IsResult step (r + delta)) : q = r + delta :=
  Option.some.inj ((hm r q hq).symm.trans (hm.fits h))

end Moves

/-- The budget is absent, the step raises, or the attempts are harmless. -/
def Once (step : Budget → ℚ → Option ℚ) (delta : ℚ) (d : String) (s : Store PaymentValue)
    (as : List Reception) : Prop :=
  ∀ b, s.value (DaprStateBudgetRepository.key d) = some (.budget b) →
    step b b.remaining.toRat = none ∨ Harmless (step b) (b.remaining.toRat + delta) b.remaining.toRat as

theorem updateLoop_movesExactly_iff {f : Budget → Except Exn Budget} {action : String}
    {step : Budget → ℚ → Option ℚ}
    {delta : ℚ} (le : ℚ → ℚ → Prop) [IsPartialOrder ℚ le] (hf : ∀ b, Steps (step b) b.total.toRat f)
    (hm : ∀ b, Moves rnd delta (step b)) (hway : ∀ b, OneWay le (step b)) (a : Reception)
    (as : List Reception) : MovesExactly delta d s
        (alone
          (DaprStateBudgetRepository.updateLoop (storeClient PaymentValue) f action d (a :: as).length)
            (a :: as) s) ↔
      Once step delta d s (a :: as) := by
  cases hdoc : s.value (DaprStateBudgetRepository.key d) with
  | none =>
    rw [updateLoop_raises (e := .budgetNotFoundError d) (by rw [hdoc]; rfl)]
    exact iff_of_true (movesExactly_of_raised _ _) fun b hb => by rw [hdoc] at hb; cases hb
  | some data =>
    cases hb : data.toBudget with
    | error e =>
      rw [updateLoop_raises (e := e) (by rw [hdoc, DaprStateBudgetRepository.updated, hb]; rfl)]
      refine iff_of_true (movesExactly_of_raised _ _) fun b hb' => ?_
      rw [hdoc] at hb'
      cases hb'
      cases hb
    | ok b =>
      have hdata : data = .budget b := by cases data <;> cases hb; rfl
      subst hdata
      have honce : Once step delta d s (a :: as) ↔ step b b.remaining.toRat = none ∨
          Harmless (step b) (b.remaining.toRat + delta) b.remaining.toRat (a :: as) := by
        simp [Once, hdoc]
      have hrem : remaining? s d = some b.remaining.toRat := by simp [remaining?, hdoc]
      rw [honce, movesExactly_iff (updateLoop_walk (hf b) (a :: as) rfl hdoc) hrem]
      cases hs : step b b.remaining.toRat with
      | none => simp [walk_cons_none hs, Exactly]
      | some r' => simp [exactly_iff (hway b) (fun q hq h => (hm b).target q hq h) hs]

/-- **Lost replies**: a `reserve` or `release` of a non-negative amount with no other client moves the
balance by exactly the amount if it returns, and leaves it if it raises, if and only if the pattern of
attempts is harmless. -/
theorem moves_exactly_iff (rnd : Rounding) (s : Store PaymentValue) (d : String)
    (x : Decimal) (hx : 0 ≤ x.toRat) (attempt : Nat → Reception) : (MovesExactly (-x.toRat) d s
        (alone (DaprStateBudgetRepository.reserve (storeClient PaymentValue) rnd d x)
          (attempts attempt) s) ↔
      Once (fun _ => reserveStep rnd x.toRat) (-x.toRat) d s (attempts attempt)) ∧
    (MovesExactly x.toRat d s
        (alone (DaprStateBudgetRepository.release (storeClient PaymentValue) rnd d x)
          (attempts attempt) s) ↔
      Once (fun b => releaseStep rnd x.toRat b.total.toRat) x.toRat d s (attempts attempt)) := by
  have hlist : attempts attempt = attempt 0 :: [attempt 1, attempt 2, attempt 3, attempt 4] := rfl
  have hlength : maxRetries = (attempt 0 :: [attempt 1, attempt 2, attempt 3, attempt 4]).length := rfl
  rw [DaprStateBudgetRepository.reserve, DaprStateBudgetRepository.release, hlist, hlength]
  constructor
  · exact updateLoop_movesExactly_iff (· ≤ ·) (fun b => reserved_steps b.total.toRat)
      (fun _ => reserveStep_moves rnd _) (fun _ => (reserveStep_moves rnd _).oneWay_le (by linarith)) _ _
  · exact updateLoop_movesExactly_iff (· ≥ ·) (fun b => released_steps b.total.toRat)
      (fun b => releaseStep_moves rnd _ b.total.toRat)
        (fun b => (releaseStep_moves rnd _ b.total.toRat).oneWay_ge hx) _ _

/-- A department with 100 of its 100 dollars left. -/
def fresh : Store PaymentValue :=
  Store.empty.put (DaprStateBudgetRepository.key "engineering")
    (.budget ⟨"engineering", .ofInt 100, .ofInt 100⟩)

/-- A refused attempt, then one that is served. -/
theorem moves_exactly_fresh :
    MovesExactly (-(Decimal.ofInt 30).toRat) "engineering" fresh
      (alone (DaprStateBudgetRepository.reserve (storeClient PaymentValue) defaultContext.rounding
        "engineering" (.ofInt 30))
        (attempts fun n => if n = 0 then .refuse else .serve) fresh) := by
  refine (moves_exactly_iff _ fresh _ (.ofInt 30) (by simp) _).1.mpr fun b hb => .inr ?_
  cases hb
  have hsub : defaultContext.rounding.sub (.ofInt 100) (.ofInt 30) = .ok (.ofInt 70) := rfl
  have h := Rounding.sub_ok hsub
  norm_num at h
  change reserveStep _ _ _ = _
  norm_num [reserveStep, h]

/-- The first reply of a reservation of 30 dollars is lost. -/
def lostFirst (n : Nat) : Reception := if n = 0 then .lose else .serve

/-- The call that lost a reply and then returned. -/
def reservedTwice : Outcome Exn Unit × Store PaymentValue :=
  alone (DaprStateBudgetRepository.reserve (storeClient PaymentValue) defaultContext.rounding
    "engineering" (.ofInt 30)) (attempts lostFirst) fresh

/-- **A lost reply reserves twice**: the call returns, and 40 of 100 dollars remain. -/
theorem lost_reply_reserves_twice :
    reservedTwice.1 = .returned () ∧
      reservedTwice.2.value (DaprStateBudgetRepository.key "engineering") =
        some (.budget ⟨"engineering", .ofInt 100, .ofInt 40⟩) ∧
      ¬ MovesExactly (-(Decimal.ofInt 30).toRat) "engineering" fresh reservedTwice := by
  have hret : reservedTwice.1 = .returned () := by decide
  have hstored : reservedTwice.2.value (DaprStateBudgetRepository.key "engineering") =
      some (.budget ⟨"engineering", .ofInt 100, .ofInt 40⟩) := by decide
  have hfresh : fresh.value (DaprStateBudgetRepository.key "engineering") =
      some (.budget ⟨"engineering", .ofInt 100, .ofInt 100⟩) := by decide
  refine ⟨hret, hstored, fun h => ?_⟩
  have := h.1 hret
  simp only [remaining?, hstored, hfresh, Option.map_some, Option.some.injEq, Decimal.toRat_ofInt] at this
  norm_num at this

end ApprovalFlow.Payment
