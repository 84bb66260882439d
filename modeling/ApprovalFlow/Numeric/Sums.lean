import ApprovalFlow.Numeric.Division
import Mathlib.Algebra.BigOperators.Ring.Finset
import Mathlib.Data.List.Perm.Subperm

/-!
# Rounded sums

What rounding does to numbers that are added one after another.

* `Rounding.err`: the error of one rounding, none where it overflows.
* `Rounding.dotDrift`: the errors of a sum of products, each product and each partial sum rounded;
  `dot_value`: such a sum is the exact one and its drift.
* `Rounding.sumDrift`, `sum_value`: the same for a sum of amounts; `sum_exact_iff`: when it is exact.
* `Rounding.Unrounded`: no sum of some of the amounts is rounded; `Unrounded.sumDrift`: so nothing
  drifts; `unrounded_multiples`: cents are such amounts.
-/

namespace Numeric

namespace Rounding
variable (rnd : Rounding)

/-- The error of a rounding. -/
def err (q : ℚ) : Option ℚ := (rnd.value q).map (· - q)

/-- Add a product to a sum. -/
def addProduct (acc : Decimal) (item : Decimal × Decimal) : Except Signal Decimal := do
  let amount ← rnd.mul item.1 item.2
  rnd.add acc amount

/-- The error of a sum of products, added to a sum with the exact value `x` and the error `δ`. -/
def dotDrift : ℚ → ℚ → List (ℚ × ℚ) → Option ℚ
  | _, δ, [] => some δ
  | x, δ, (q, p) :: rest => do
    let ε ← rnd.err (q * p)
    let ε' ← rnd.err (x + δ + (q * p + ε))
    dotDrift (x + q * p) (δ + ε + ε') rest

/-- The error of a sum, added to a sum with the exact value `x` and the error `δ`. -/
def sumDrift : ℚ → ℚ → List ℚ → Option ℚ
  | _, δ, [] => some δ
  | x, δ, q :: rest => do
    let ε ← rnd.err (x + δ + q)
    sumDrift (x + q) (δ + ε) rest

variable {rnd} {a b c : Decimal} {e : Signal}

theorem err_of_ok {q : ℚ} (h : rnd.round a = .ok b) (ha : a.toRat = q) :
    rnd.err q = some (b.toRat - q) := by
  rw [err, ← ha, round_ok h]
  rfl

theorem err_of_error {q : ℚ} (h : rnd.round a = .error e) (ha : a.toRat = q) : rnd.err q = none := by
  rw [err, ← ha, round_error h]
  rfl

theorem err_add_ok (h : rnd.add a b = .ok c) :
    rnd.err (a.toRat + b.toRat) = some (c.toRat - (a.toRat + b.toRat)) :=
  err_of_ok h (Decimal.toRat_addExact a b)

theorem err_add_error (h : rnd.add a b = .error e) : rnd.err (a.toRat + b.toRat) = none :=
  err_of_error h (Decimal.toRat_addExact a b)

theorem err_mul_ok (h : rnd.mul a b = .ok c) :
    rnd.err (a.toRat * b.toRat) = some (c.toRat - a.toRat * b.toRat) :=
  err_of_ok h (Decimal.toRat_mulExact a b)

theorem err_mul_error (h : rnd.mul a b = .error e) : rnd.err (a.toRat * b.toRat) = none :=
  err_of_error h (Decimal.toRat_mulExact a b)

theorem dot_value (items : List (Decimal × Decimal)) (acc : Decimal) (x δ : ℚ) (hacc : acc.toRat = x + δ) :
    (items.foldlM rnd.addProduct acc).toOption.map Decimal.toRat =
    (rnd.dotDrift x δ (items.map fun item => (item.1.toRat, item.2.toRat))).map fun drift =>
      x + (items.map fun item => item.1.toRat * item.2.toRat).sum + drift := by
  induction items generalizing acc x δ with
  | nil =>
    show some acc.toRat = some (x + 0 + δ)
    rw [hacc, add_zero]
  | cons item items ih =>
    rw [List.foldlM_cons, List.map_cons, List.map_cons, List.sum_cons, dotDrift]
    cases hm : rnd.mul item.1 item.2 with
    | error e =>
      rw [err_mul_error hm]
      unfold addProduct
      rw [hm]
      rfl
    | ok amount =>
      have hamount : x + δ + (item.1.toRat * item.2.toRat + (amount.toRat - item.1.toRat * item.2.toRat)) =
          acc.toRat + amount.toRat := by
        rw [hacc, add_sub_cancel]
      have hstep : rnd.addProduct acc item = rnd.add acc amount := by
        unfold addProduct
        rw [hm]
        rfl
      rw [err_mul_ok hm, hstep]
      show _ =
          ((rnd.err (x + δ +
            (item.1.toRat * item.2.toRat + (amount.toRat - item.1.toRat * item.2.toRat)))).bind
          fun ε' => rnd.dotDrift _ (δ + (amount.toRat - item.1.toRat * item.2.toRat) + ε') _).map _
      rw [hamount]
      cases ha : rnd.add acc amount with
      | error e =>
        rw [err_add_error ha]
        rfl
      | ok sum =>
        rw [err_add_ok ha]
        show (items.foldlM rnd.addProduct sum).toOption.map Decimal.toRat = (rnd.dotDrift _ _ _).map _
        rw [ih sum (x + item.1.toRat * item.2.toRat)
          (δ + (amount.toRat - item.1.toRat * item.2.toRat) + (sum.toRat - (acc.toRat + amount.toRat)))
          (by rw [hacc]; ring)]
        simp only [add_assoc]

theorem sum_value (amounts : List Decimal) (acc : Decimal) (x δ : ℚ) (hacc : acc.toRat = x + δ) :
    (amounts.foldlM rnd.add acc).toOption.map Decimal.toRat =
      (rnd.sumDrift x δ (amounts.map Decimal.toRat)).map fun drift =>
        x + (amounts.map Decimal.toRat).sum + drift := by
  induction amounts generalizing acc x δ with
  | nil =>
    show some acc.toRat = some (x + 0 + δ)
    rw [hacc, add_zero]
  | cons amount amounts ih =>
    rw [List.foldlM_cons, List.map_cons, List.sum_cons, sumDrift, ← hacc]
    cases ha : rnd.add acc amount with
    | error e =>
      rw [err_add_error ha]
      rfl
    | ok sum =>
      rw [err_add_ok ha]
      show (amounts.foldlM rnd.add sum).toOption.map Decimal.toRat = (rnd.sumDrift _ _ _).map _
      rw [ih sum (x + amount.toRat) (δ + (sum.toRat - (acc.toRat + amount.toRat))) (by rw [hacc]; ring)]
      simp only [add_assoc]

/-- **When a sum from zero is exact**: nothing overflows, and the errors cancel. -/
theorem sum_exact_iff (amounts : List Decimal) :
    (∃ sum, amounts.foldlM rnd.add .zero = .ok sum ∧ sum.toRat = (amounts.map Decimal.toRat).sum) ↔
      rnd.sumDrift 0 0 (amounts.map Decimal.toRat) = some 0 := by
  have h := @sum_value rnd amounts .zero 0 0 (by simp)
  constructor
  · rintro ⟨sum, hsum, hexact⟩
    rw [hsum] at h
    obtain ⟨drift, hdrift, hvalue⟩ := Option.map_eq_some_iff.mp h.symm
    have hzero : drift = 0 := by linarith
    rw [hdrift, hzero]
  · intro hdrift
    rw [hdrift] at h
    cases hsum : amounts.foldlM rnd.add .zero with
    | error e =>
      rw [hsum] at h
      cases h
    | ok sum =>
      rw [hsum] at h
      refine ⟨sum, rfl, ?_⟩
      have hvalue : sum.toRat = 0 + (amounts.map Decimal.toRat).sum + 0 := Option.some.inj h
      rw [hvalue, zero_add, add_zero]

/-- No sum of some of the amounts is rounded. -/
def Unrounded (rnd : Rounding) (amounts : List ℚ) : Prop :=
  ∀ part : List ℚ, part.Subperm amounts → rnd.Fits part.sum

theorem unrounded_exact (amounts : List ℚ) : exact.Unrounded amounts := fun part _ => fits_exact part.sum

theorem Unrounded.sumDrift {amounts : List ℚ} (h : rnd.Unrounded amounts) :
    rnd.sumDrift 0 0 amounts = some 0 := by
  -- the amounts before and after
  have hrest (before after : List ℚ) (heq : before ++ after = amounts) :
      rnd.sumDrift before.sum 0 after = some 0 := by
    induction after generalizing before with
    | nil => rfl
    | cons q after ih =>
      have hpart : (before ++ [q]).Subperm amounts := by
        rw [← heq, List.append_cons before q after]
        exact (List.sublist_append_left (before ++ [q]) after).subperm
      have hfits := h _ hpart
      rw [List.sum_append, List.sum_singleton] at hfits
      have herr : rnd.err (before.sum + 0 + q) = some 0 := by
        unfold err
        rw [add_zero, hfits, Option.map_some, sub_self]
      have hih := ih (before ++ [q]) (by rw [← heq, List.append_cons before q after])
      rw [List.sum_append, List.sum_singleton] at hih
      unfold Rounding.sumDrift
      rw [herr, Option.bind_eq_bind, Option.bind_some, add_zero]
      exact hih
  exact hrest [] amounts rfl

end Rounding

namespace Context
variable {ctx : Context} {e : ℤ}

theorem fits_multiple (he : ctx.etiny ≤ e) (hmax : ctx.prec + e ≤ ctx.emax) {n : ℕ}
    (hn : n ≤ 10 ^ ctx.prec) : ctx.rounding.Fits (n * 10 ^ e) := by
  show ctx.value _ = some _
  rcases Nat.eq_zero_or_pos n with rfl | hpos
  · simp
  · have hround : ctx.grid.round ((n : ℚ) * 10 ^ e) = n * 10 ^ e :=
      Grid.round_of_onGrid (Grid.onGrid_of_le (n := n) he (by exact_mod_cast hpos) (by exact_mod_cast hn))
    have hlt : (n : ℚ) * 10 ^ e < 10 ^ (ctx.emax + 1) := by
      calc (n : ℚ) * 10 ^ e ≤ 10 ^ (ctx.prec : ℤ) * 10 ^ e :=
            mul_le_mul_of_nonneg_right (by exact_mod_cast hn) (Grid.ten_zpow_pos e).le
        _ = 10 ^ (ctx.prec + e) := (Grid.ten_zpow_add _ _).symm
        _ < 10 ^ (ctx.emax + 1) := zpow_lt_zpow_right₀ (by norm_num) (by omega)
    rw [value_pos (mul_pos (by exact_mod_cast hpos) (Grid.ten_zpow_pos e)), magnitude, hround, if_pos hlt]

/-- Amounts in one unit whose sum has at most `prec` digits, such as cents, add up without rounding. -/
theorem unrounded_multiples (he : ctx.etiny ≤ e) (hmax : ctx.prec + e ≤ ctx.emax) {units : List ℕ}
    (hsum : units.sum ≤ 10 ^ ctx.prec) :
    ctx.rounding.Unrounded (units.map fun n : ℕ => (n : ℚ) * 10 ^ e) := by
  intro part hpart
  obtain ⟨part', hperm, hsub⟩ := hpart
  obtain ⟨ns, hns, rfl⟩ := List.sublist_map_iff.mp hsub
  have hvalue : part.sum = (ns.sum : ℕ) * 10 ^ e := by
    rw [← hperm.sum_eq, List.sum_map_mul_right, Nat.cast_list_sum]
  rw [hvalue]
  exact fits_multiple he hmax ((hns.sum_le_sum fun _ _ => Nat.zero_le _).trans hsum)

end Context

end Numeric
