import ApprovalFlow.Payment.DaprState
import ApprovalFlow.Async.Linearize

/-!
# The etag repository linearizes to the locked one

Any number of clients call `ensure_seeded`, `reserve` and `release` on the Dapr repository, interleaved
at every await.

* `BudgetCall.body`, `BudgetCall.locked`: a call on the Dapr repository and on the locked dictionary.
* `budgetPoints`: the linearization points: a committed write, a read that finds no budget or one that
  the change rejects, a seed that is there or is lost to another.
* `budget_repository_linearizes`: the linearization, that no seed resets a budget, and that budgets stay
  non-negative.
-/

namespace ApprovalFlow.Payment
open Numeric Async Versioned

/-- What a client calls. -/
inductive BudgetCall
  | ensureSeeded (department : String) (total : Decimal)
  | reserve (department : String) (amount : Decimal)
  | release (department : String) (amount : Decimal)
  deriving DecidableEq

namespace BudgetCall

def amount : BudgetCall → Decimal
  | ensureSeeded _ total => total
  | reserve _ amount => amount
  | release _ amount => amount

/-- The call on the Dapr repository. -/
def body (rnd : Rounding) : BudgetCall → Prog (storeSig PaymentValue) Exn Unit
  | ensureSeeded d x => (daprStateBudgetRepository (storeClient PaymentValue) rnd).ensureSeeded d x
  | reserve d x => (daprStateBudgetRepository (storeClient PaymentValue) rnd).reserve d x
  | release d x => (daprStateBudgetRepository (storeClient PaymentValue) rnd).release d x

/-- The call on the locked dictionary. -/
def locked (rnd : Rounding) : BudgetCall → Dict String Budget → Except Exn Unit × Dict String Budget
  | ensureSeeded d x, budgets => (.ok (), InMemoryBudgetRepository.ensureSeeded d x budgets)
  | reserve d x, budgets => InMemoryBudgetRepository.reserve rnd d x budgets
  | release d x, budgets => InMemoryBudgetRepository.release rnd d x budgets

end BudgetCall

/-- Clients of one store. -/
def budgetClients (rnd : Rounding) :
    System (storeSig PaymentValue) Exn Unit (Store PaymentValue) Unit BudgetCall where
  body := BudgetCall.body rnd
  invoke _ s := some s
  exec _ o s := o.perform (.rpcError "") .serve s

/-- The store holds these budgets. -/
def Stands (s : Store PaymentValue) (budgets : Dict String Budget) : Prop :=
  ∀ d, s.value (DaprStateBudgetRepository.key d) = (budgets.get? d).map .budget

/-- The retries of a call were exhausted, or the store failed. -/
def isRepositoryError : Except Exn Unit → Bool
  | .error (.budgetRepositoryError _) => true
  | _ => false

/-! ## Linearization points -/

/-- `reserve` and `release` take effect where they read a budget that they do not change, or where they
commit. -/
def updatePoint (f : Budget → Except Exn Budget) (d : String) :
    (o : Op PaymentValue) → Except Exn o.Reply → Option (Except Exn Unit)
  | .get _, .ok (data, _) =>
    match DaprStateBudgetRepository.updated f d data with
    | .error e => some (.error e)
    | .ok _ => none
  | .get _, .error _ => none
  | .transact _, .ok _ => some (.ok ())
  | .transact _, .error _ => none

/-- `ensure_seeded` takes effect where it reads a budget, commits one, or loses to another seed. -/
def seedPoint : (o : Op PaymentValue) → Except Exn o.Reply → Option (Except Exn Unit)
  | .get _, .ok (some _, _) => some (.ok ())
  | .get _, .ok (none, _) => none
  | .get _, .error _ => none
  | .transact _, _ => some (.ok ())

def budgetPoints (rnd : Rounding) : Points (budgetClients rnd) (Dict String Budget) where
  spec := BudgetCall.locked rnd
  failed := isRepositoryError
  point
    | .ensureSeeded _ _ => seedPoint
    | .reserve d x => updatePoint (InMemoryBudgetRepository.reserved rnd d x) d
    | .release d x => updatePoint (InMemoryBudgetRepository.released rnd d x) d
  Rel := Stands
  Evolves := Store.Evolves
  refl := Store.Evolves.refl
  trans h h' := h.trans h'
  exec _ o s := o.evolves_perform _ _ s
  invoke h := (Option.some.inj h).symm

section Store
variable {s : Store PaymentValue} {budgets : Dict String Budget}

theorem key_inj {d d' : String} :
    DaprStateBudgetRepository.key d = DaprStateBudgetRepository.key d' ↔ d = d' :=
  String.append_right_inj "budget:"

theorem stands_empty : Stands Store.empty .empty := fun _ => rfl

theorem Stands.put (h : Stands s budgets) (d : String) (b : Budget) :
    Stands (s.put (DaprStateBudgetRepository.key d) (.budget b)) (budgets.insert d b) := by
  intro d'
  rw [Store.value_put, Dict.get?_insert, h d']
  simp only [key_inj]
  split_ifs <;> rfl

theorem Stands.get?_of_value (h : Stands s budgets) {d : String} {b : Budget}
    (hs : s.value (DaprStateBudgetRepository.key d) = some (.budget b)) : budgets.get? d = some b := by
  rw [h d, Option.map_eq_some_iff] at hs
  obtain ⟨b', hb', heq⟩ := hs
  cases heq
  exact hb'

theorem Stands.value_of_get? (h : Stands s budgets) {d : String} {b : Budget}
    (hb : budgets.get? d = some b) :
    s.value (DaprStateBudgetRepository.key d) = some (.budget b) := by
  rw [h d, hb]
  rfl

end Store

section Points
variable {rnd : Rounding} {c : BudgetCall}

/-- A conditional write that commits or loses, and what comes after it. -/
theorem pending_transact {k : String} {v : PaymentValue} {e : Nat}
    {f : Except Exn Unit → Prog (storeSig PaymentValue) Exn Unit} {s : Store PaymentValue}
    (hcommit : ∀ s₁ budgets, s.Evolves s₁ → Stands s₁ budgets → s₁.etag k = e →
      (budgetPoints rnd).point c (.transact [⟨k, v, some e⟩]) (.ok ()) = some (.ok ()) ∧
        f (.ok ()) = .ret () ∧
        ∃ budgets', BudgetCall.locked rnd c budgets = (.ok (), budgets') ∧ Stands (s₁.put k v) budgets')
    (hlose : ∀ s₁ budgets, s.Evolves s₁ → Stands s₁ budgets → s₁.etag k ≠ e →
      match (budgetPoints rnd).point c (.transact [⟨k, v, some e⟩]) (.error (.rpcError "")) with
      | none => (budgetPoints rnd).Pending c (f (.error (.rpcError ""))) s₁
      | some r => f (.error (.rpcError "")) = .ofExcept r ∧ isRepositoryError r = false ∧
          BudgetCall.locked rnd c budgets = (r, budgets)) :
    (budgetPoints rnd).Pending c (.await (.transact [⟨k, v, some e⟩]) f) s := by
  intro s₁ budgets hev hrel _
  by_cases hcurrent : s₁.etag k = e
  · have hperform : Op.perform (Exn.rpcError "") .serve (.transact [⟨k, v, some e⟩]) s₁ =
        (.ok (), s₁.put k v) :=
      Op.perform_current (Store.current_single.mpr hcurrent)
    obtain ⟨hpoint, hf, budgets', hspec, hrel'⟩ := hcommit s₁ budgets hev hrel hcurrent
    simp only [budgetClients, hperform, hpoint]
    exact ⟨hf, rfl, budgets', hspec, hrel'⟩
  · have hperform : Op.perform (Exn.rpcError "") .serve (.transact [⟨k, v, some e⟩]) s₁ =
        (.error (.rpcError ""), s₁) :=
      Op.perform_stale (mt Store.current_single.mp hcurrent) .serve
    have h := hlose s₁ budgets hev hrel hcurrent
    simp only [budgetClients, hperform]
    cases hpoint : (budgetPoints rnd).point c (.transact [⟨k, v, some e⟩]) (.error (.rpcError "")) with
    | none =>
      rw [hpoint] at h
      exact ⟨hrel, h⟩
    | some r =>
      rw [hpoint] at h
      exact ⟨h.1, h.2.1, budgets, h.2.2, hrel⟩

/-- **`reserve` and `release`**, by induction on the attempts that are left. -/
theorem updateLoop_pending {f : Budget → Except Exn Budget} {action d : String}
    (hpoint : (budgetPoints rnd).point c = updatePoint f d)
    (hlocked : ∀ budgets, BudgetCall.locked rnd c budgets = InMemoryBudgetRepository.update f d budgets)
    (hf : ∀ b e, f b = .error e → isRepositoryError (.error e) = false) (n : Nat) (s : Store PaymentValue) :
    (budgetPoints rnd).Pending c
      (DaprStateBudgetRepository.updateLoop (storeClient PaymentValue) f action d n) s := by
  induction n generalizing s with
  | zero => exact rfl
  | succ n ih =>
    rw [DaprStateBudgetRepository.updateLoop_succ, getState_attempt]
    intro s₁ budgets _ hrel _
    have hstands := hrel d
    simp only [budgetClients, Op.perform, hpoint, Store.get, updatePoint, StateClient.afterRead]
    cases hbudget : budgets.get? d with
    | none =>
      rw [hbudget] at hstands
      rw [hstands]
      refine ⟨rfl, rfl, budgets, ?_, hrel⟩
      show BudgetCall.locked rnd c budgets = _
      rw [hlocked, InMemoryBudgetRepository.update, hbudget]
    | some b =>
      rw [hbudget] at hstands
      have hupdated : DaprStateBudgetRepository.updated f d
          (s₁.value (DaprStateBudgetRepository.key d)) = f b := by
        rw [hstands]
        rfl
      rw [hupdated]
      cases hfb : f b with
      | error e =>
        refine ⟨rfl, hf b e hfb, budgets, ?_, hrel⟩
        show BudgetCall.locked rnd c budgets = _
        rw [hlocked, InMemoryBudgetRepository.update, hbudget]
        simp only [hfb]
      | ok b' =>
        refine ⟨hrel, ?_⟩
        simp only [executeStateTransaction_attempt]
        refine pending_transact (fun s₂ budgets₂ hev hrel₂ hcurrent => ?_) fun s₂ _ _ _ _ => ?_
        · have hbudget₂ : budgets₂.get? d = some b :=
            hrel₂.get?_of_value ((hev.value_eq hcurrent).trans (hrel.value_of_get? hbudget))
          refine ⟨by rw [hpoint]; rfl, rfl, budgets₂.insert d b', ?_, hrel₂.put d b'⟩
          rw [hlocked, InMemoryBudgetRepository.update, hbudget₂]
          simp only [hfb]
        · rw [hpoint]
          exact ih s₂

theorem ensureSeeded_pending (d : String) (x : Decimal) (s : Store PaymentValue) :
    (budgetPoints rnd).Pending (.ensureSeeded d x)
      (DaprStateBudgetRepository.ensureSeeded (storeClient PaymentValue) d x) s := by
  have hlocked {budgets : Dict String Budget} {b : Budget} (hb : budgets.get? d = some b) :
      BudgetCall.locked rnd (.ensureSeeded d x) budgets = (.ok (), budgets) := by
    simp only [BudgetCall.locked, InMemoryBudgetRepository.ensureSeeded, hb]
  rw [DaprStateBudgetRepository.ensureSeeded_eq, getState_attempt]
  intro s₁ budgets _ hrel _
  have hstands := hrel d
  simp only [budgetClients, Op.perform, budgetPoints, Store.get, StateClient.afterRead]
  cases hbudget : budgets.get? d with
  | some b =>
    rw [hbudget] at hstands
    rw [hstands]
    exact ⟨rfl, rfl, budgets, hlocked hbudget, hrel⟩
  | none =>
    rw [hbudget] at hstands
    have habsent : s₁.etag (DaprStateBudgetRepository.key d) = 0 := Store.etag_eq_zero.mpr hstands
    rw [hstands, habsent]
    refine ⟨hrel, ?_⟩
    simp only [executeStateTransaction_attempt]
    refine pending_transact (fun s₂ budgets₂ _ hrel₂ hcurrent => ?_) fun s₂ budgets₂ _ hrel₂ hcurrent => ?_
    · have hnone : budgets₂.get? d = none := by
        have hvalue := Store.etag_eq_zero.mp hcurrent
        rwa [hrel₂ d, Option.map_eq_none_iff] at hvalue
      refine ⟨rfl, rfl, budgets₂.insert d ⟨d, x, x⟩, ?_, hrel₂.put d _⟩
      simp only [BudgetCall.locked, InMemoryBudgetRepository.ensureSeeded, hnone]
    · -- another seed was there first
      have hsome : budgets₂.get? d ≠ none := by
        intro hnone
        apply hcurrent
        rw [Store.etag_eq_zero, hrel₂ d, hnone]
        rfl
      obtain ⟨b, hb⟩ := Option.ne_none_iff_exists'.mp hsome
      exact ⟨rfl, rfl, hlocked hb⟩

theorem reserved_error {d : String} {x : Decimal} (b : Budget) (e : Exn)
    (h : InMemoryBudgetRepository.reserved rnd d x b = .error e) :
    isRepositoryError (.error e) = false := by
  unfold InMemoryBudgetRepository.reserved at h
  split_ifs at h
  · cases h; rfl
  · cases hr : rnd.sub b.remaining x with
    | ok r => rw [hr] at h; cases h
    | error e => rw [hr] at h; cases h; rfl

theorem released_error {d : String} {x : Decimal} (b : Budget) (e : Exn)
    (h : InMemoryBudgetRepository.released rnd d x b = .error e) :
    isRepositoryError (.error e) = false := by
  unfold InMemoryBudgetRepository.released at h
  cases hr : rnd.add b.remaining x with
  | ok r =>
    rw [hr] at h
    simp only [Exn.ofSignal, Except.bind] at h
    split_ifs at h
    cases h
    rfl
  | error e => rw [hr] at h; cases h; rfl

theorem body_pending (c : BudgetCall) (s : Store PaymentValue) :
    (budgetPoints rnd).Pending c ((budgetClients rnd).body c) s := by
  cases c with
  | ensureSeeded d x => exact ensureSeeded_pending d x s
  | reserve d x => exact updateLoop_pending rfl (fun _ => rfl) reserved_error maxRetries s
  | release d x => exact updateLoop_pending rfl (fun _ => rfl) released_error maxRetries s

end Points

/-! ## What a sequential run keeps -/

/-- No department is overdrawn. -/
def Nonneg (budgets : Dict String Budget) : Prop := ∀ d b, budgets.get? d = some b → 0 ≤ b.remaining.toRat

section Sequential
variable {rnd : Rounding} {budgets : Dict String Budget}

theorem Nonneg.insert (h : Nonneg budgets) (d : String) {b : Budget} (hb : 0 ≤ b.remaining.toRat) :
    Nonneg (budgets.insert d b) := by
  intro d' b' hb'
  rw [Dict.get?_insert] at hb'
  split_ifs at hb' with hd
  · cases hb'
    exact hb
  · exact h d' b' hb'

theorem Nonneg.update (h : Nonneg budgets) {f : Budget → Except Exn Budget} (d : String)
    (hf : ∀ b b', 0 ≤ b.remaining.toRat → f b = .ok b' → 0 ≤ b'.remaining.toRat) :
    Nonneg (InMemoryBudgetRepository.update f d budgets).2 := by
  unfold InMemoryBudgetRepository.update
  cases hb : budgets.get? d with
  | none => exact h
  | some b =>
    cases hfb : f b with
    | error e => simpa only [hfb] using h
    | ok b' => simpa only [hfb] using h.insert d (hf b b' (h d b hb) hfb)

theorem nonneg_of_value {q r : ℚ} (hq : 0 ≤ q) (h : rnd.value q = some r) : 0 ≤ r :=
  rnd.value_mono hq rnd.value_zero h

theorem Nonneg.locked (h : Nonneg budgets) {c : BudgetCall} (hc : 0 ≤ c.amount.toRat) :
    Nonneg (c.locked rnd budgets).2 := by
  cases c with
  | ensureSeeded d x =>
    intro d' b hb
    rcases InMemoryBudgetRepository.get?_ensureSeeded hb with hb | ⟨-, rfl⟩
    · exact h d' b hb
    · exact hc
  | reserve d x =>
    refine h.update d fun b b' _ hok => ?_
    obtain ⟨hle, r, hr, rfl⟩ := InMemoryBudgetRepository.reserved_ok hok
    rw [Decimal.lt_iff, not_lt] at hle
    exact nonneg_of_value (sub_nonneg.mpr hle) (Rounding.sub_ok hr)
  | release d x =>
    refine h.update d fun b b' hb hok => ?_
    obtain ⟨r, hr, -, rfl⟩ := InMemoryBudgetRepository.released_ok hok
    exact nonneg_of_value (add_nonneg hb hc) (Rounding.add_ok hr)

theorem ensureSeeded_keeps {d d' : String} {x : Decimal} {b : Budget} (h : budgets.get? d' = some b) :
    (InMemoryBudgetRepository.ensureSeeded d x budgets).get? d' = some b := by
  unfold InMemoryBudgetRepository.ensureSeeded
  split
  · exact h
  · next hnone =>
    rw [Dict.get?_insert]
    split_ifs with hd
    · rw [hd, hnone] at h
      cases h
    · exact h

end Sequential

/-- A step of a thread that seeds leaves every budget that is there. -/
def KeepsBudgets (rnd : Rounding)
    (cfg : Config (storeSig PaymentValue) Exn Unit (Store PaymentValue) BudgetCall) : Prop :=
  ∀ i cfg' d x st, cfg.threads[i]? = some ⟨.ensureSeeded d x, st⟩ →
    (budgetClients rnd).act cfg (.step i ()) = some cfg' →
    ∀ d' b, cfg.world.state.value (DaprStateBudgetRepository.key d') = some (.budget b) →
      cfg'.world.state.value (DaprStateBudgetRepository.key d') = some (.budget b)

/-- **Linearization**: from budgets that the store holds, every interleaving of any clients is a
sequential run of the locked repository, without the calls that raised `BudgetRepositoryError`; no seed
resets a budget, and where no amount is negative no department is overdrawn. -/
theorem budget_repository_linearizes (rnd : Rounding) (s : Store PaymentValue)
    (budgets : Dict String Budget)
    (hs : Stands s budgets) (cfg : Config (storeSig PaymentValue) Exn Unit (Store PaymentValue) BudgetCall)
    (hr : (budgetClients rnd).Reach (fun _ _ => True) (System.start s) cfg) :
    ∃ es budgets', Linearizes (BudgetCall.locked rnd) isRepositoryError budgets budgets' cfg.world.log es ∧
      Stands cfg.world.state budgets' ∧ KeepsBudgets rnd cfg ∧
      (Nonneg budgets → (∀ i c, .invoke i c ∈ cfg.world.log → 0 ≤ c.amount.toRat) → Nonneg budgets') := by
  obtain ⟨budgets', hlin, hrel⟩ := (budgetPoints rnd).linearizes body_pending hs hr
  refine ⟨_, budgets', hlin, hrel, fun i cfg' d x st hi ha d' b hb => ?_, fun h₀ hamounts => ?_⟩
  · obtain ⟨budgets'', hlin', hrel'⟩ := (budgetPoints rnd).linearizes body_pending hs (hr.tail trivial ha)
    obtain ⟨call, o, k, hi', rfl⟩ := System.act_step ha
    have hcall : call = .ensureSeeded d x := by
      rw [hi] at hi'
      cases hi'
      rfl
    subst hcall
    have hget : budgets'.get? d' = some b := Stands.get?_of_value hrel hb
    apply Stands.value_of_get? hrel'
    have hreplays := hlin'.replays
    cases hentry : (budgetPoints rnd).entryOf (.perform i (.ensureSeeded d x) o
        ((budgetClients rnd).exec () o cfg.world.state).1) with
    | none =>
      rw [Points.entries_cons_none hentry] at hreplays
      rw [hreplays.unique hlin.replays]
      exact hget
    | some en =>
      rw [Points.entries_cons_some hentry] at hreplays
      obtain ⟨budgets₁, hreplays₁, hspec⟩ := hreplays
      rw [hreplays₁.unique hlin.replays] at hspec
      obtain ⟨r, -, rfl⟩ := Option.map_eq_some_iff.mp hentry
      have hfinal : InMemoryBudgetRepository.ensureSeeded d x budgets' = budgets'' :=
        congrArg Prod.snd hspec
      rw [← hfinal]
      exact ensureSeeded_keeps hget
  · exact hlin.replays.inv h₀ fun e he budgets h => h.locked (hamounts _ _ (hlin.invoked e he))

/-- A seed of 100 dollars, then two reservations of 60 that read it before either writes. -/
def oversell : List (Action Unit BudgetCall) :=
  [.invoke (.ensureSeeded "engineering" (.ofInt 100)), .step 0 (), .step 0 (), .respond 0,
    .invoke (.reserve "engineering" (.ofInt 60)), .invoke (.reserve "engineering" (.ofInt 60)),
      .step 1 (), .step 2 (),
    .step 2 (), .step 1 (), .step 1 (), .respond 1, .respond 2]

def oversold : Config (storeSig PaymentValue) Exn Unit (Store PaymentValue) BudgetCall :=
  ((budgetClients defaultContext.rounding).runActions
    (fun _ _ => true) oversell (System.start Store.empty)).get (by decide)

theorem budget_repository_linearizes_oversold :
    ∃ es budgets', Linearizes (BudgetCall.locked defaultContext.rounding) isRepositoryError .empty budgets'
        oversold.world.log es ∧
      Stands oversold.world.state budgets' ∧ KeepsBudgets defaultContext.rounding oversold ∧
      (Nonneg .empty → (∀ i c, .invoke i c ∈ oversold.world.log → 0 ≤ c.amount.toRat) → Nonneg budgets') :=
  budget_repository_linearizes _ Store.empty .empty stands_empty oversold
    (System.reach_of_runActions (fun _ _ _ => trivial) oversell (Option.some_get _).symm)

end ApprovalFlow.Payment
