import Mathlib.Data.Int.Log
import Mathlib.Data.Rat.Floor
import Mathlib.Tactic.Linarith
import Mathlib.Tactic.FieldSimp
import Mathlib.Tactic.Positivity

/-!
# Rounding to a decimal grid

Rounding half to even, first to an integer, then to a number of significant decimal digits with a least
exponent.

* `halfEven n d`: the integer nearest to `n / d`, computed on natural numbers; `nearest q` on rationals,
  `nearest_natCast_div`.
* `Grid`: a precision and a least exponent. `Grid.ulp g q` is the exponent of the last digit kept,
  `Grid.round g q` the rounded value.
* `Grid.round_mono`, `Grid.round_of_onGrid`, `Grid.onGrid_round`: rounding is monotone, fixes the grid
  and lands on it.
-/

namespace Numeric

/-- `n / d` rounded half to even. -/
def halfEven (n d : ℕ) : ℕ :=
  let q := n / d
  let r := n % d
  if 2 * r < d then q else if d < 2 * r then q + 1 else if q % 2 = 0 then q else q + 1

/-- The nearest integer, half to even. -/
def nearest (q : ℚ) : ℤ :=
  if 2 * (q - ⌊q⌋) < 1 then ⌊q⌋ else if 1 < 2 * (q - ⌊q⌋) then ⌊q⌋ + 1
  else if ⌊q⌋ % 2 = 0 then ⌊q⌋ else ⌊q⌋ + 1

theorem nearest_intCast (n : ℤ) : nearest n = n := by simp [nearest]

theorem floor_le_nearest (q : ℚ) : ⌊q⌋ ≤ nearest q := by
  unfold nearest
  split_ifs <;> omega

theorem nearest_le_floor_add_one (q : ℚ) : nearest q ≤ ⌊q⌋ + 1 := by
  unfold nearest
  split_ifs <;> omega

theorem nearest_mono {p q : ℚ} (h : p ≤ q) : nearest p ≤ nearest q := by
  rcases (Int.floor_le_floor h).lt_or_eq with hlt | heq
  · have := nearest_le_floor_add_one p
    have := floor_le_nearest q
    omega
  · unfold nearest
    rw [← heq]
    split_ifs <;> first | omega | (exfalso; linarith)

theorem nearest_nonneg {q : ℚ} (h : 0 ≤ q) : 0 ≤ nearest q := by
  have := nearest_mono h
  rwa [← Int.cast_zero, nearest_intCast] at this

theorem nearest_natCast_div (n d : ℕ) (hd : 0 < d) : nearest ((n : ℚ) / d) = halfEven n d := by
  have hfloor : ⌊(n : ℚ) / d⌋ = ((n / d : ℕ) : ℤ) := by
    rw [Rat.floor_natCast_div_natCast, Int.natCast_div]
  have hd' : (0 : ℚ) < d := by exact_mod_cast hd
  have hfract : 2 * ((n : ℚ) / d - ((n / d : ℕ) : ℤ)) = 2 * ((n % d : ℕ) : ℚ) / d := by
    have hdiv : (n : ℚ) = d * (n / d : ℕ) + (n % d : ℕ) := by exact_mod_cast (Nat.div_add_mod n d).symm
    rw [Int.cast_natCast, eq_div_iff (ne_of_gt hd')]
    field_simp
    linarith
  have hlt : 2 * ((n : ℚ) / d - ((n / d : ℕ) : ℤ)) < 1 ↔ 2 * (n % d) < d := by
    rw [hfract, div_lt_one hd']
    exact_mod_cast Iff.rfl
  have hgt : 1 < 2 * ((n : ℚ) / d - ((n / d : ℕ) : ℤ)) ↔ d < 2 * (n % d) := by
    rw [hfract, one_lt_div hd']
    exact_mod_cast Iff.rfl
  unfold nearest halfEven
  rw [hfloor]
  simp only [hlt, hgt]
  split_ifs <;> first | rfl | omega

/-! ## Significant digits -/

/-- A number of significant digits, and the least exponent. -/
structure Grid where
  prec : ℕ
  etiny : ℤ
  prec_pos : 0 < prec

namespace Grid
variable (g : Grid)

theorem ten_zpow_pos (e : ℤ) : (0 : ℚ) < 10 ^ e := zpow_pos (by norm_num) e

theorem ten_zpow_ne (e : ℤ) : (10 : ℚ) ^ e ≠ 0 := ne_of_gt (ten_zpow_pos e)

theorem ten_zpow_add (a b : ℤ) : (10 : ℚ) ^ (a + b) = 10 ^ a * 10 ^ b := zpow_add₀ (by norm_num) a b

theorem ten_zpow_le {a b : ℤ} (h : a ≤ b) : (10 : ℚ) ^ a ≤ 10 ^ b := zpow_le_zpow_right₀ (by norm_num) h

theorem ten_zpow_natCast (n : ℕ) : (10 : ℚ) ^ (n : ℤ) = ((10 ^ n : ℕ) : ℚ) := by
  push_cast; exact zpow_natCast _ _

/-- The exponent of the last digit that is kept of a positive number. -/
def ulp (q : ℚ) : ℤ := max (Int.log 10 q + 1 - g.prec) g.etiny

/-- A positive number rounded to the grid. -/
def round (q : ℚ) : ℚ := nearest (q / 10 ^ g.ulp q) * 10 ^ g.ulp q

/-- An integer multiple of the place of its last kept digit. -/
def OnGrid (q : ℚ) : Prop := ∃ n : ℤ, q = n * 10 ^ g.ulp q

variable {g} {p q : ℚ}

theorem log_le_self (hq : 0 < q) : (10 : ℚ) ^ Int.log 10 q ≤ q := by
  exact_mod_cast Int.zpow_log_le_self (b := 10) (by norm_num) hq

theorem lt_log_succ (q : ℚ) : q < (10 : ℚ) ^ (Int.log 10 q + 1) := by
  exact_mod_cast Int.lt_zpow_succ_log_self (b := 10) (by norm_num) q

theorem le_log_iff (hq : 0 < q) (m : ℤ) : m ≤ Int.log 10 q ↔ (10 : ℚ) ^ m ≤ q := by
  exact_mod_cast (Int.zpow_le_iff_le_log (b := 10) (by norm_num) hq).symm

theorem log_mono (hp : 0 < p) (h : p ≤ q) : Int.log 10 p ≤ Int.log 10 q := Int.log_mono_right hp h

theorem ulp_mono (hp : 0 < p) (h : p ≤ q) : g.ulp p ≤ g.ulp q := by
  have := log_mono hp h
  unfold ulp
  omega

theorem round_of_onGrid (h : g.OnGrid q) : g.round q = q := by
  obtain ⟨n, hn⟩ := h
  have hdiv : q / 10 ^ g.ulp q = n := by rw [div_eq_iff (ten_zpow_ne _)]; exact hn
  rw [round, hdiv, nearest_intCast, ← hn]

theorem zpow_div_zpow {a b : ℤ} (h : b ≤ a) : (10 : ℚ) ^ a / 10 ^ b = ((10 ^ (a - b).toNat : ℕ) : ℤ) := by
  rw [div_eq_iff (ten_zpow_ne _), Int.cast_natCast, ← ten_zpow_natCast, ← ten_zpow_add]
  congr 1
  omega

theorem round_nonneg (hq : 0 ≤ q) : 0 ≤ g.round q := by
  have : 0 ≤ nearest (q / 10 ^ g.ulp q) := nearest_nonneg (div_nonneg hq (le_of_lt (ten_zpow_pos _)))
  exact mul_nonneg (by exact_mod_cast this) (le_of_lt (ten_zpow_pos _))

/-- A number below a power of ten that is no finer than its last digit rounds to at most that power. -/
theorem round_le_zpow {m : ℤ} (h : q ≤ 10 ^ m) (hm : g.ulp q ≤ m) : g.round q ≤ 10 ^ m := by
  have hle : nearest (q / 10 ^ g.ulp q) ≤ ((10 ^ (m - g.ulp q).toNat : ℕ) : ℤ) := by
    rw [← nearest_intCast ((10 ^ (m - g.ulp q).toNat : ℕ) : ℤ), ← zpow_div_zpow hm]
    exact nearest_mono (div_le_div_of_nonneg_right h (le_of_lt (ten_zpow_pos _)))
  calc g.round q ≤ (((10 ^ (m - g.ulp q).toNat : ℕ) : ℤ) : ℚ) * 10 ^ g.ulp q :=
        mul_le_mul_of_nonneg_right (by exact_mod_cast hle) (le_of_lt (ten_zpow_pos _))
    _ = 10 ^ m := by rw [← zpow_div_zpow hm, div_mul_cancel₀ _ (ten_zpow_ne _)]

theorem zpow_le_round {m : ℤ} (h : 10 ^ m ≤ q) (hm : g.ulp q ≤ m) : 10 ^ m ≤ g.round q := by
  have hle : ((10 ^ (m - g.ulp q).toNat : ℕ) : ℤ) ≤ nearest (q / 10 ^ g.ulp q) := by
    rw [← nearest_intCast ((10 ^ (m - g.ulp q).toNat : ℕ) : ℤ), ← zpow_div_zpow hm]
    exact nearest_mono (div_le_div_of_nonneg_right h (le_of_lt (ten_zpow_pos _)))
  calc (10 : ℚ) ^ m = (((10 ^ (m - g.ulp q).toNat : ℕ) : ℤ) : ℚ) * 10 ^ g.ulp q := by
        rw [← zpow_div_zpow hm, div_mul_cancel₀ _ (ten_zpow_ne _)]
    _ ≤ g.round q := mul_le_mul_of_nonneg_right (by exact_mod_cast hle) (le_of_lt (ten_zpow_pos _))

/-- **Rounding is monotone.** Where the places differ, a power of ten on both grids lies between. -/
theorem round_mono (hp : 0 < p) (h : p ≤ q) : g.round p ≤ g.round q := by
  rcases (ulp_mono (g := g) hp h).lt_or_eq with hlt | heq
  · have hulp : g.ulp q = Int.log 10 q + 1 - g.prec := by
      have : g.etiny ≤ g.ulp p := le_max_right _ _
      unfold ulp at hlt ⊢
      omega
    have hprec := g.prec_pos
    have hlog : Int.log 10 p + 1 ≤ Int.log 10 q := by
      have : Int.log 10 p + 1 - g.prec ≤ g.ulp p := le_max_left _ _
      omega
    have hp' : p ≤ 10 ^ Int.log 10 q := le_of_lt ((lt_log_succ p).trans_le (ten_zpow_le hlog))
    calc g.round p ≤ 10 ^ Int.log 10 q := round_le_zpow hp' (by omega)
      _ ≤ g.round q := zpow_le_round (log_le_self (hp.trans_le h)) (by omega)
  · unfold round
    rw [heq]
    have := nearest_mono (div_le_div_of_nonneg_right h (le_of_lt (ten_zpow_pos (g.ulp q))))
    exact mul_le_mul_of_nonneg_right (by exact_mod_cast this) (le_of_lt (ten_zpow_pos _))

theorem log_ten_zpow (m : ℤ) : Int.log 10 ((10 : ℚ) ^ m) = m := by
  exact_mod_cast Int.log_zpow (R := ℚ) (b := 10) (by norm_num) m

theorem onGrid_of_ulp_le {n e : ℤ} (h : g.ulp (n * 10 ^ e) ≤ e) : g.OnGrid (n * 10 ^ e) := by
  refine ⟨n * (10 ^ (e - g.ulp (n * 10 ^ e)).toNat : ℕ), ?_⟩
  rw [Int.cast_mul, ← zpow_div_zpow h, mul_assoc, div_mul_cancel₀ _ (ten_zpow_ne _)]

theorem onGrid_of_le {n e : ℤ} (he : g.etiny ≤ e) (hn : 0 < n) (hle : n ≤ 10 ^ g.prec) :
    g.OnGrid (n * 10 ^ e) := by
  have hprec := g.prec_pos
  have hpos : (0 : ℚ) < n * 10 ^ e := mul_pos (by exact_mod_cast hn) (ten_zpow_pos e)
  have hpow : (10 : ℚ) ^ g.prec * 10 ^ e = 10 ^ (g.prec + e) := by rw [ten_zpow_add, zpow_natCast]
  rcases hle.lt_or_eq with hlt | heq
  · refine onGrid_of_ulp_le ?_
    have hlog : Int.log 10 ((n : ℚ) * 10 ^ e) < g.prec + e := by
      by_contra hge
      refine absurd ((le_log_iff hpos _).mp (not_lt.mp hge)) (not_le.mpr ?_)
      rw [← hpow]
      exact mul_lt_mul_of_pos_right (by exact_mod_cast hlt) (ten_zpow_pos e)
    unfold ulp
    omega
  · have hval : (n : ℚ) * 10 ^ e = ((1 : ℤ) : ℚ) * 10 ^ (g.prec + e) := by
      rw [heq, Int.cast_one, one_mul, ← hpow, Int.cast_pow, Int.cast_ofNat]
    rw [hval]
    refine onGrid_of_ulp_le ?_
    rw [Int.cast_one, one_mul, ulp, log_ten_zpow]
    omega

theorem nearest_le_pow_prec (q : ℚ) : nearest (q / 10 ^ g.ulp q) ≤ 10 ^ g.prec := by
  have hlt : q / 10 ^ g.ulp q ≤ ((10 ^ g.prec : ℤ) : ℚ) := by
    rw [div_le_iff₀ (ten_zpow_pos _), Int.cast_pow, Int.cast_ofNat, ← zpow_natCast, ← ten_zpow_add]
    refine le_of_lt ((lt_log_succ q).trans_le (ten_zpow_le ?_))
    have := le_max_left (Int.log 10 q + 1 - g.prec) g.etiny
    unfold ulp
    omega
  rw [← nearest_intCast (10 ^ g.prec)]
  exact nearest_mono hlt

/-- **Rounding lands on the grid**, or on zero. -/
theorem onGrid_round (hq : 0 < q) : g.round q = 0 ∨ g.OnGrid (g.round q) := by
  have h0 : 0 ≤ nearest (q / 10 ^ g.ulp q) :=
    nearest_nonneg (div_nonneg (le_of_lt hq) (le_of_lt (ten_zpow_pos _)))
  rcases h0.lt_or_eq with hpos | h0
  · exact .inr (onGrid_of_le (le_max_right _ _) hpos (nearest_le_pow_prec q))
  · left
    rw [round, ← h0, Int.cast_zero, zero_mul]

end Grid

end Numeric
