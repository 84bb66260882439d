import ApprovalFlow.Numeric.Arith
import Mathlib.Tactic.LinearCombination

/-!
# Division

A quotient is computed with at least one digit more than the precision, and an inexact one is kept off
the multiples of five, so that rounding it is rounding the exact quotient.

* `Grid.round_congr`: numbers strictly between the same multiples of five, one place below the last digit
  kept, round to the same number.
* `Context.divide_value`: the quotient is the correctly rounded one.
* `Context.value_isSome_anti`: what is smaller than a number that does not overflow does not overflow;
  `divide_ok`: nor does a quotient by one or more.
-/

namespace Numeric

theorem nearest_of_between {q : ℚ} {m : ℤ} (hlo : (m : ℚ) < 2 * q) (hhi : 2 * q < m + 1) :
    nearest q = (m + 1) / 2 := by
  obtain ⟨j, rfl | rfl⟩ := Int.even_or_odd' m
  · push_cast at hlo hhi
    have hfloor : ⌊q⌋ = j := Int.floor_eq_iff.mpr ⟨by linarith, by linarith⟩
    unfold nearest
    rw [hfloor, if_pos (by linarith)]
    omega
  · push_cast at hlo hhi
    have hfloor : ⌊q⌋ = j := Int.floor_eq_iff.mpr ⟨by linarith, by linarith⟩
    unfold nearest
    rw [hfloor, if_neg (by linarith), if_pos (by linarith)]
    omega

namespace Grid
variable {g : Grid} {p q : ℚ} {e m : ℤ}

/-- Between two multiples of five there is no half of a digit further left. -/
theorem nearest_between {u : ℤ} (he : e < u) (hlo : 5 * m * 10 ^ e < q) (hhi : q < 5 * (m + 1) * 10 ^ e) :
    nearest (q / 10 ^ u) = (m / (10 ^ (u - (e + 1)).toNat : ℕ) + 1) / 2 := by
  have hK : (0 : ℤ) < (10 ^ (u - (e + 1)).toNat : ℕ) := by positivity
  generalize hKeq : (10 ^ (u - (e + 1)).toNat : ℕ) = K at *
  have hu : (10 : ℚ) ^ u = K * 10 ^ (e + 1) := by
    have h := zpow_div_zpow (show e + 1 ≤ u by omega)
    rw [hKeq, div_eq_iff (ten_zpow_ne _)] at h
    exact_mod_cast h
  have he' : (10 : ℚ) ^ (e + 1) = 10 * 10 ^ e := by rw [ten_zpow_add, zpow_one, mul_comm]
  have hpos : (0 : ℚ) < 10 ^ u := ten_zpow_pos u
  have hM := Int.mul_ediv_add_emod m K
  have hlow := Int.emod_nonneg m hK.ne'
  have hhigh := Int.emod_lt_of_pos m hK
  generalize m / (K : ℤ) = M at *
  have hfive := ten_zpow_pos e
  apply nearest_of_between
  · rw [mul_div_assoc', lt_div_iff₀ hpos, hu, he']
    have : (M : ℚ) * K ≤ m := by exact_mod_cast (by nlinarith : M * (K : ℤ) ≤ m)
    nlinarith
  · rw [mul_div_assoc', div_lt_iff₀ hpos, hu, he']
    have : (m : ℚ) + 1 ≤ (M + 1) * K := by exact_mod_cast (by nlinarith : m + 1 ≤ (M + 1) * (K : ℤ))
    nlinarith

/-- **Numbers between the same multiples of five round alike**, where these are below the last digit
kept. -/
theorem round_congr (hulp : g.ulp p = g.ulp q) (he : e < g.ulp q)
    (hp : 5 * m * 10 ^ e < p ∧ p < 5 * (m + 1) * 10 ^ e)
    (hq : 5 * m * 10 ^ e < q ∧ q < 5 * (m + 1) * 10 ^ e) : g.round p = g.round q := by
  unfold round
  rw [hulp, nearest_between he hp.1 hp.2, nearest_between he hq.1 hq.2]

theorem log_between {c : ℕ} (hc : 0 < c) (hlo : c * 10 ^ e ≤ q) (hhi : q < (c + 1) * 10 ^ e) :
    Int.log 10 q = Nat.log 10 c + e := by
  have hpos : (0 : ℚ) < q := (mul_pos (by exact_mod_cast hc) (ten_zpow_pos e)).trans_le hlo
  apply le_antisymm
  · by_contra h
    have h1 := (le_log_iff hpos (Nat.log 10 c + 1 + e)).mp (by omega)
    have h2 : ((c : ℚ) + 1) * 10 ^ e ≤ 10 ^ ((Nat.log 10 c : ℤ) + 1 + e) := by
      have hlt : c + 1 ≤ 10 ^ (Nat.log 10 c + 1) := Nat.lt_pow_succ_log_self (by norm_num) c
      rw [ten_zpow_add, mul_le_mul_iff_of_pos_right (ten_zpow_pos e)]
      have hcast : (10 : ℚ) ^ ((Nat.log 10 c : ℤ) + 1) = ((10 ^ (Nat.log 10 c + 1) : ℕ) : ℚ) := by
        rw [← ten_zpow_natCast]
        push_cast
        rfl
      rw [hcast]
      exact_mod_cast hlt
    linarith
  · rw [← Decimal.log_coeff hc]
    exact (le_log_iff hpos _).mpr
      ((log_le_self (mul_pos (by exact_mod_cast hc) (ten_zpow_pos e))).trans hlo)

end Grid

namespace Context
variable {ctx : Context} {a b : Decimal}

/-! ## The sticky digit -/

/-- The quotient without its fraction, off the multiples of five. -/
def sticky (c : ℕ) : ℕ := if c % 5 = 0 then c + 1 else c

theorem le_sticky (c : ℕ) : c ≤ sticky c := by
  unfold sticky
  split_ifs <;> omega

theorem sticky_between (c : ℕ) : 5 * (c / 5) < sticky c ∧ sticky c < 5 * (c / 5 + 1) := by
  unfold sticky
  split_ifs <;> omega

theorem log_sticky {c : ℕ} (hc : 0 < c) : Nat.log 10 (sticky c) = Nat.log 10 c := by
  unfold sticky
  split_ifs with h
  · have hlt := Nat.lt_pow_succ_log_self (b := 10) (by norm_num) c
    have hle := Nat.pow_log_le_self 10 hc.ne'
    have hfive : 10 ^ (Nat.log 10 c + 1) % 5 = 0 := by rw [pow_succ]; omega
    exact (Nat.log_eq_iff (.inr ⟨by norm_num, by omega⟩)).mpr ⟨by omega, by omega⟩
  · rfl

/-- **Rounding the sticky quotient is rounding the quotient.** -/
theorem sticky_magnitude {c : ℕ} {x : ℚ} {e : ℤ} (hprec : 10 ^ ctx.prec ≤ c)
    (hlo : c < x) (hhi : x < c + 1) :
    ctx.magnitude (sticky c * 10 ^ e) = ctx.magnitude (x * 10 ^ e) := by
  have hc : 0 < c := (Nat.pow_pos (by norm_num)).trans_le hprec
  have hpos := Grid.ten_zpow_pos e
  have hlog : Int.log 10 (x * 10 ^ e) = Nat.log 10 c + e :=
    Grid.log_between hc (mul_le_mul_of_nonneg_right hlo.le hpos.le) (mul_lt_mul_of_pos_right hhi hpos)
  have hlog' : Int.log 10 ((sticky c : ℚ) * 10 ^ e) = Nat.log 10 c + e := by
    rw [Decimal.log_coeff (hc.trans_le (le_sticky c)), log_sticky hc]
  have hulp : ctx.grid.ulp (sticky c * 10 ^ e) = ctx.grid.ulp (x * 10 ^ e) := by
    unfold Grid.ulp
    rw [hlog, hlog']
  have he : e < ctx.grid.ulp (x * 10 ^ e) := by
    have hdigits : ctx.prec ≤ Nat.log 10 c := Nat.le_log_of_pow_le (by norm_num) hprec
    have hgrid : ctx.grid.prec = ctx.prec := rfl
    refine lt_of_lt_of_le ?_ (le_max_left _ _)
    rw [hlog, hgrid]
    omega
  -- both lie between the multiples of five next to `c`
  have hsticky := sticky_between c
  have hfive : 5 * (c / 5) ≤ c ∧ c + 1 ≤ 5 * (c / 5 + 1) := by omega
  generalize c / 5 = m at hsticky hfive
  have hround : ctx.grid.round (sticky c * 10 ^ e) = ctx.grid.round (x * 10 ^ e) := by
    refine Grid.round_congr (m := m) hulp he ?_ ?_
    · constructor
      · exact mul_lt_mul_of_pos_right (by exact_mod_cast hsticky.1) hpos
      · exact mul_lt_mul_of_pos_right (by exact_mod_cast hsticky.2) hpos
    · have h1 : (5 * m : ℚ) ≤ c := by exact_mod_cast hfive.1
      have h2 : (c : ℚ) + 1 ≤ 5 * (m + 1) := by exact_mod_cast hfive.2
      constructor
      · exact mul_lt_mul_of_pos_right (by push_cast at h1 ⊢; linarith) hpos
      · exact mul_lt_mul_of_pos_right (by push_cast at h2 ⊢; linarith) hpos
  unfold magnitude
  rw [hround]

/-! ## The quotient -/

theorem trim_value (k c : ℕ) (e : ℤ) : ((trim k c e).1 : ℚ) * 10 ^ (trim k c e).2 = c * 10 ^ e := by
  induction k generalizing c e with
  | zero => rfl
  | succ k ih =>
    unfold trim
    split_ifs with h
    · have hc : (c : ℚ) = (c / 10 : ℕ) * 10 := by exact_mod_cast (by omega : c = c / 10 * 10)
      rw [ih, hc, Grid.ten_zpow_add, zpow_one, mul_assoc, mul_comm (10 ^ e)]
    · rfl

theorem toRat_signed (d : Decimal) : d.toRat = (if d.neg then -1 else 1) * (d.coeff * 10 ^ d.exp) := by
  rw [toRat_eq]
  split_ifs <;> ring

/-- Shifted to enough digits, the quotient of the coefficients has one digit more than the precision. -/
theorem prec_le_quotient {m n up down : ℕ} (hm : 0 < m)
    (h : ctx.prec + Decimal.digits n + down = Nat.log 10 m + up) :
    10 ^ ctx.prec * (n * 10 ^ down) ≤ m * 10 ^ up := by
  have hn : n ≤ 10 ^ Decimal.digits n := (Nat.lt_pow_succ_log_self (by norm_num) n).le
  have hm' : 10 ^ Nat.log 10 m ≤ m := Nat.pow_log_le_self 10 hm.ne'
  calc 10 ^ ctx.prec * (n * 10 ^ down) ≤ 10 ^ ctx.prec * (10 ^ Decimal.digits n * 10 ^ down) :=
        Nat.mul_le_mul_left _ (Nat.mul_le_mul_right _ hn)
    _ = 10 ^ Nat.log 10 m * 10 ^ up := by rw [← pow_add, ← pow_add, ← pow_add, ← h, add_assoc]
    _ ≤ m * 10 ^ up := Nat.mul_le_mul_right _ hm'

theorem shifted_quotient (hb : 0 < b.coeff) (shift : ℤ) :
    ((a.coeff * 10 ^ shift.toNat : ℕ) : ℚ) / (b.coeff * 10 ^ (-shift).toNat : ℕ) *
      10 ^ (a.exp - b.exp - shift) = (a.coeff * 10 ^ a.exp) / (b.coeff * 10 ^ b.exp) := by
  have hpow : (10 : ℚ) ^ (a.exp - b.exp - shift) * (10 ^ b.exp * ((10 : ℕ) ^ shift.toNat : ℕ)) =
      10 ^ a.exp * ((10 : ℕ) ^ (-shift).toNat : ℕ) := by
    rw [← Grid.ten_zpow_natCast, ← Grid.ten_zpow_natCast, ← Grid.ten_zpow_add, ← Grid.ten_zpow_add,
      ← Grid.ten_zpow_add]
    congr 1
    omega
  have hb' : (b.coeff : ℚ) ≠ 0 := by exact_mod_cast hb.ne'
  have hdown : (((10 : ℕ) ^ (-shift).toNat : ℕ) : ℚ) ≠ 0 := by
    exact_mod_cast (Nat.pow_pos (by norm_num)).ne'
  rw [Nat.cast_mul, Nat.cast_mul, div_mul_eq_mul_div,
    div_eq_div_iff (mul_ne_zero hb' hdown) (mul_ne_zero hb' (Grid.ten_zpow_ne _))]
  linear_combination (a.coeff : ℚ) * b.coeff * hpow

/-- What `divide` rounds: its sign, and a magnitude that rounds like the quotient's. -/
theorem divide_eq (ha : 0 < a.coeff) (hb : 0 < b.coeff) : ∃ d, ctx.divide a b = ctx.fix d ∧
    d.neg = (a.neg != b.neg) ∧ 0 < d.coeff ∧
    ctx.magnitude (d.coeff * 10 ^ d.exp) =
      ctx.magnitude ((a.coeff * 10 ^ a.exp) / (b.coeff * 10 ^ b.exp)) := by
  unfold divide
  rw [if_neg hb.ne', if_neg ha.ne']
  dsimp only
  generalize hshift : (Decimal.digits b.coeff - Decimal.digits a.coeff + ctx.prec + 1 : ℤ) = shift
  have hden : 0 < b.coeff * 10 ^ (-shift).toNat := Nat.mul_pos hb (Nat.pow_pos (by norm_num))
  have hprec : 10 ^ ctx.prec ≤ a.coeff * 10 ^ shift.toNat / (b.coeff * 10 ^ (-shift).toNat) := by
    refine (Nat.le_div_iff_mul_le hden).mpr (prec_le_quotient ha ?_)
    unfold Decimal.digits at *
    omega
  have hquotient := shifted_quotient (a := a) hb shift
  generalize a.coeff * 10 ^ shift.toNat = num at *
  generalize b.coeff * 10 ^ (-shift).toNat = den at *
  have hden' : (0 : ℚ) < den := by exact_mod_cast hden
  have hdivmod := Nat.div_add_mod num den
  by_cases hrem : num % den ≠ 0
  · rw [if_pos hrem]
    refine ⟨⟨a.neg != b.neg, sticky (num / den), a.exp - b.exp - shift⟩, rfl, rfl, ?_, ?_⟩
    · exact ((Nat.pow_pos (by norm_num)).trans_le hprec).trans_le (le_sticky _)
    · rw [← hquotient]
      refine sticky_magnitude hprec ?_ ?_
      · rw [lt_div_iff₀ hden']
        exact_mod_cast (by rw [mul_comm]; omega : num / den * den < num)
      · rw [div_lt_iff₀ hden']
        have hlt := Nat.mod_lt num hden
        exact_mod_cast (by rw [add_mul, one_mul, mul_comm]; omega : num < (num / den + 1) * den)
  · rw [if_neg hrem]
    rw [not_not] at hrem
    have hvalue := trim_value shift.toNat (num / den) (a.exp - b.exp - shift)
    have hexact : ((num / den : ℕ) : ℚ) = num / den := by
      rw [eq_div_iff hden'.ne']
      exact_mod_cast (by rw [mul_comm]; omega : num / den * den = num)
    rw [hexact, hquotient] at hvalue
    have hpos : (0 : ℚ) < (a.coeff * 10 ^ a.exp) / (b.coeff * 10 ^ b.exp) := by
      have := Grid.ten_zpow_pos a.exp
      have := Grid.ten_zpow_pos b.exp
      positivity
    refine ⟨_, rfl, rfl, Nat.pos_of_ne_zero fun h0 => ?_, congrArg ctx.magnitude hvalue⟩
    change (trim shift.toNat (num / den) (a.exp - b.exp - shift)).1 = 0 at h0
    rw [← hvalue, h0] at hpos
    simp at hpos

/-- **Division is correctly rounded.** -/
theorem divide_value (hb : b.coeff ≠ 0) :
    (ctx.divide a b).toOption.map Decimal.toRat = ctx.value (a.toRat / b.toRat) := by
  rcases Nat.eq_zero_or_pos a.coeff with ha | ha
  · have hdivide : ctx.divide a b = ctx.fix ⟨a.neg != b.neg, 0, a.exp - b.exp⟩ := by
      unfold divide
      rw [if_neg hb, if_pos ha]
    have ha' : a.toRat = 0 := by rw [toRat_signed, ha]; simp
    rw [hdivide, fix_value, ha', zero_div]
    congr 1
    rw [toRat_signed]
    simp
  · have hb' := Nat.pos_of_ne_zero hb
    obtain ⟨d, hdivide, hneg, hd, hmag⟩ := @divide_eq ctx a b ha hb'
    have hA : (0 : ℚ) < a.coeff * 10 ^ a.exp := mul_pos (by exact_mod_cast ha) (Grid.ten_zpow_pos _)
    have hB : (0 : ℚ) < b.coeff * 10 ^ b.exp := mul_pos (by exact_mod_cast hb') (Grid.ten_zpow_pos _)
    have hD : (0 : ℚ) < d.coeff * 10 ^ d.exp := mul_pos (by exact_mod_cast hd) (Grid.ten_zpow_pos _)
    rw [hdivide, fix_value, toRat_signed d, toRat_signed a, toRat_signed b, hneg]
    rw [← value_pos hD, ← value_pos (div_pos hA hB)] at hmag
    generalize (a.coeff * 10 ^ a.exp : ℚ) = A at *
    generalize (b.coeff * 10 ^ b.exp : ℚ) = B at *
    cases a.neg <;> cases b.neg <;> simp [value_neg, hmag, neg_div, div_neg]

/-! ## Overflow -/

theorem value_abs (q : ℚ) : (ctx.value q).isSome = (ctx.value |q|).isSome := by
  rcases abs_cases q with ⟨h, -⟩ | ⟨h, -⟩
  · rw [h]
  · rw [h, value_neg, Option.isSome_map]

/-- **What is smaller than a number that does not overflow does not overflow.** -/
theorem value_isSome_anti {p q : ℚ} (h : |p| ≤ |q|) (hq : (ctx.value q).isSome = true) :
    (ctx.value p).isSome = true := by
  rw [value_abs] at hq ⊢
  rcases (abs_nonneg p).eq_or_lt with h0 | hpos
  · rw [← h0, value_zero]
    rfl
  · rw [value_pos (hpos.trans_le h)] at hq
    rw [value_pos hpos]
    unfold magnitude at hq ⊢
    split_ifs at hq with hlt
    · rw [if_pos ((Grid.round_mono hpos h).trans_lt hlt)]
      rfl
    · cases hq

/-- **A quotient by one or more** of a number that does not overflow does not overflow. -/
theorem divide_ok (hb : 1 ≤ |b.toRat|) (ha : (ctx.value a.toRat).isSome = true) :
    ∃ q, ctx.divide a b = .ok q := by
  have hcoeff : b.coeff ≠ 0 := by
    intro h0
    rw [toRat_signed, h0] at hb
    norm_num at hb
  have hle : |a.toRat / b.toRat| ≤ |a.toRat| := by
    rw [abs_div]
    exact div_le_self (abs_nonneg _) hb
  have hvalue := @divide_value ctx a b hcoeff
  obtain ⟨q, hq⟩ := Option.isSome_iff_exists.mp (value_isSome_anti hle ha)
  rw [hq] at hvalue
  cases hdiv : ctx.divide a b with
  | error e => rw [hdiv] at hvalue; cases hvalue
  | ok d => exact ⟨d, rfl⟩

end Context

end Numeric
