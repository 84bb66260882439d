import ApprovalFlow.Numeric.Rounding
import Mathlib.Data.Nat.Log

/-!
# Decimal arithmetic

Finite decimal numbers as the `decimal` module has them: a sign, a coefficient and an exponent, compared
by value, with every result rounded half to even to the precision of a context.

* `Decimal.toRat`: the value; `lt_iff`, `le_iff`, `same_iff`: the comparisons are those of the values.
* `Decimal.addExact`, `subExact`, `mulExact`: the results before rounding, with the exponent and the sign
  they carry.
* `Context.fix`: the rounding of a context (`_fix`); `Context.fix_value`: its value is the nearest on the
  context's grid, or the overflow signal.
* `Rounding`: a rounding of results with its value function, monotone and idempotent: `Rounding.exact`
  rounds nothing, `Context.rounding` is that of a context.
-/

namespace Numeric

/-- A finite decimal number, `± coeff * 10 ^ exp`. -/
structure Decimal where
  neg : Bool
  coeff : ℕ
  exp : ℤ
  deriving DecidableEq, Repr

/-- The trapped conditions of the default context. -/
inductive Signal
  | overflow
  | divisionByZero
  | invalidOperation
  deriving DecidableEq, Repr

namespace Decimal

def ofInt (n : ℤ) : Decimal := ⟨decide (n < 0), n.natAbs, 0⟩

/-- `Decimal("0")`. -/
def zero : Decimal := ⟨false, 0, 0⟩

/-- The coefficient with its sign. -/
def int (d : Decimal) : ℤ := if d.neg then -d.coeff else d.coeff

def toRat (d : Decimal) : ℚ := d.int * 10 ^ d.exp

/-- The coefficient in units of `10 ^ e`, for an `e` up to the exponent. -/
def scaled (d : Decimal) (e : ℤ) : ℤ := d.int * 10 ^ (d.exp - e).toNat

instance : LT Decimal := ⟨fun a b => a.scaled (min a.exp b.exp) < b.scaled (min a.exp b.exp)⟩

instance : LE Decimal := ⟨fun a b => a.scaled (min a.exp b.exp) ≤ b.scaled (min a.exp b.exp)⟩

instance (a b : Decimal) : Decidable (a < b) :=
  inferInstanceAs (Decidable (a.scaled (min a.exp b.exp) < b.scaled (min a.exp b.exp)))

instance (a b : Decimal) : Decidable (a ≤ b) :=
  inferInstanceAs (Decidable (a.scaled (min a.exp b.exp) ≤ b.scaled (min a.exp b.exp)))

/-- `==`: equal as numbers. -/
def same (a b : Decimal) : Bool := a.scaled (min a.exp b.exp) == b.scaled (min a.exp b.exp)

/-- `copy_negate`. -/
def negate (d : Decimal) : Decimal := { d with neg := !d.neg }

/-- The sum before rounding; a zero is negative only as the sum of two negative zeros. -/
def addExact (a b : Decimal) : Decimal :=
  let e := min a.exp b.exp
  let n := a.scaled e + b.scaled e
  ⟨if n = 0 then a.neg && b.neg else decide (n < 0), n.natAbs, e⟩

def subExact (a b : Decimal) : Decimal := a.addExact b.negate

def mulExact (a b : Decimal) : Decimal := ⟨a.neg != b.neg, a.coeff * b.coeff, a.exp + b.exp⟩

/-- The number of digits of a coefficient. -/
def digits (n : ℕ) : ℕ := Nat.log 10 n + 1

/-- `str(d)`. -/
def toString (d : Decimal) : String :=
  let ds := d.coeff.repr
  let len : ℤ := ds.length
  let leftdigits := d.exp + len
  let dotplace := if d.exp ≤ 0 ∧ -6 < leftdigits then leftdigits else 1
  let zeros (n : ℤ) := String.ofList (List.replicate n.toNat '0')
  let body :=
    if dotplace ≤ 0 then "0." ++ zeros (-dotplace) ++ ds
    else if len ≤ dotplace then ds ++ zeros (dotplace - len)
    else String.ofList (ds.toList.take dotplace.toNat) ++ "." ++
      String.ofList (ds.toList.drop dotplace.toNat)
  let e := leftdigits - dotplace
  let exponent := if e = 0 then "" else (if e < 0 then "E-" else "E+") ++ e.natAbs.repr
  (if d.neg then "-" else "") ++ body ++ exponent

/-! ## Values -/

@[simp] theorem int_zero : zero.int = 0 := rfl

@[simp] theorem toRat_zero : zero.toRat = 0 := by simp [toRat]

theorem toRat_scaled (d : Decimal) {e : ℤ} (h : e ≤ d.exp) : d.toRat = d.scaled e * 10 ^ e := by
  have : (10 : ℚ) ^ d.exp = ((10 ^ (d.exp - e).toNat : ℕ) : ℤ) * 10 ^ e := by
    rw [← Grid.zpow_div_zpow h, div_mul_cancel₀ _ (Grid.ten_zpow_ne _)]
  rw [toRat, this, scaled]
  push_cast
  ring

theorem lt_iff {a b : Decimal} : a < b ↔ a.toRat < b.toRat := by
  rw [a.toRat_scaled (min_le_left _ b.exp), b.toRat_scaled (min_le_right a.exp _),
    mul_lt_mul_iff_of_pos_right (Grid.ten_zpow_pos _)]
  exact_mod_cast Iff.rfl

theorem le_iff {a b : Decimal} : a ≤ b ↔ a.toRat ≤ b.toRat := by
  rw [a.toRat_scaled (min_le_left _ b.exp), b.toRat_scaled (min_le_right a.exp _),
    mul_le_mul_iff_of_pos_right (Grid.ten_zpow_pos _)]
  exact_mod_cast Iff.rfl

theorem same_iff {a b : Decimal} : a.same b = true ↔ a.toRat = b.toRat := by
  rw [a.toRat_scaled (min_le_left _ b.exp), b.toRat_scaled (min_le_right a.exp _),
    mul_left_inj' (Grid.ten_zpow_ne _), same, beq_iff_eq]
  exact_mod_cast Iff.rfl

@[simp] theorem toRat_negate (d : Decimal) : d.negate.toRat = -d.toRat := by
  unfold toRat negate int
  cases d.neg <;> simp

theorem toRat_ofSigned (s : Bool) (n e : ℤ) (hs : n ≠ 0 → s = decide (n < 0)) :
    (⟨s, n.natAbs, e⟩ : Decimal).toRat = n * 10 ^ e := by
  have : (⟨s, n.natAbs, e⟩ : Decimal).int = n := by
    unfold int
    rcases lt_trichotomy n 0 with h | rfl | h
    · simp only [hs (ne_of_lt h), h, decide_true, if_true]
      omega
    · simp
    · simp only [hs (ne_of_gt h), not_lt.mpr (le_of_lt h), decide_false, Bool.false_eq_true, if_false]
      omega
  rw [toRat, this]

@[simp] theorem toRat_ofInt (n : ℤ) : (ofInt n).toRat = n := by
  have := toRat_ofSigned (decide (n < 0)) n 0 fun _ => rfl
  rwa [zpow_zero, mul_one] at this

@[simp] theorem toRat_addExact (a b : Decimal) : (a.addExact b).toRat = a.toRat + b.toRat := by
  rw [addExact, toRat_ofSigned _ _ _ (fun h => if_neg h), a.toRat_scaled (min_le_left _ b.exp),
    b.toRat_scaled (min_le_right a.exp _), Int.cast_add, add_mul]

@[simp] theorem toRat_subExact (a b : Decimal) : (a.subExact b).toRat = a.toRat - b.toRat := by
  rw [subExact, toRat_addExact, toRat_negate, sub_eq_add_neg]

@[simp] theorem toRat_mulExact (a b : Decimal) : (a.mulExact b).toRat = a.toRat * b.toRat := by
  unfold toRat mulExact int
  rw [Grid.ten_zpow_add]
  cases a.neg <;> cases b.neg <;> push_cast <;> simp <;> ring

theorem log_coeff {n : ℕ} (hn : 0 < n) (e : ℤ) : Int.log 10 ((n : ℚ) * 10 ^ e) = Nat.log 10 n + e := by
  have hpos : (0 : ℚ) < n * 10 ^ e := mul_pos (by exact_mod_cast hn) (Grid.ten_zpow_pos e)
  apply le_antisymm
  · by_contra h
    have h1 := (Grid.le_log_iff hpos (Nat.log 10 n + 1 + e)).mp (by omega)
    rw [Grid.ten_zpow_add, mul_le_mul_iff_of_pos_right (Grid.ten_zpow_pos e)] at h1
    have h2 : 10 ^ (Nat.log 10 n + 1) ≤ n := by
      have : (10 : ℚ) ^ (((Nat.log 10 n + 1 : ℕ)) : ℤ) ≤ n := h1
      rw [Grid.ten_zpow_natCast] at this
      exact_mod_cast this
    exact absurd h2 (not_le.mpr (Nat.lt_pow_succ_log_self (by norm_num) n))
  · rw [Grid.le_log_iff hpos, Grid.ten_zpow_add, mul_le_mul_iff_of_pos_right (Grid.ten_zpow_pos e),
      Grid.ten_zpow_natCast]
    exact_mod_cast Nat.pow_log_le_self 10 hn.ne'

end Decimal

/-! ## Contexts -/

/-- The precision and the exponent range of a context that rounds half to even and does not clamp. -/
structure Context where
  prec : ℕ
  emin : ℤ
  emax : ℤ
  prec_pos : 0 < prec
  emin_le : emin ≤ emax

/-- The context every program starts with. -/
def defaultContext : Context := ⟨28, -999999, 999999, by norm_num, by norm_num⟩

namespace Context
variable (ctx : Context)

def etiny : ℤ := ctx.emin - ctx.prec + 1

def etop : ℤ := ctx.emax - ctx.prec + 1

def grid : Grid := ⟨ctx.prec, ctx.etiny, ctx.prec_pos⟩

/-- `_fix`: round a result to the context. -/
def fix (d : Decimal) : Except Signal Decimal :=
  if d.coeff = 0 then .ok { d with exp := min (max d.exp ctx.etiny) ctx.emax }
  else if ctx.etop < Decimal.digits d.coeff + d.exp - ctx.prec then .error .overflow
  else
    let expMin := max (Decimal.digits d.coeff + d.exp - ctx.prec) ctx.etiny
    if expMin ≤ d.exp then .ok d
    else
      let c := halfEven d.coeff (10 ^ (expMin - d.exp).toNat)
      if c = 10 ^ ctx.prec then
        if ctx.etop < expMin + 1 then .error .overflow else .ok ⟨d.neg, 10 ^ (ctx.prec - 1), expMin + 1⟩
      else .ok ⟨d.neg, c, expMin⟩

/-- The value that `fix` gives to a positive number, `none` on overflow. -/
def magnitude (q : ℚ) : Option ℚ :=
  if ctx.grid.round q < 10 ^ (ctx.emax + 1) then some (ctx.grid.round q) else none

/-- The value that `fix` gives to a number, `none` on overflow. -/
def value (q : ℚ) : Option ℚ :=
  if q = 0 then some 0 else if 0 < q then ctx.magnitude q else (ctx.magnitude (-q)).map Neg.neg

variable {ctx}

theorem ulp_coeff {n : ℕ} (hn : 0 < n) (e : ℤ) :
    ctx.grid.ulp ((n : ℚ) * 10 ^ e) = max (Decimal.digits n + e - ctx.prec) ctx.etiny := by
  rw [Grid.ulp, Decimal.log_coeff hn]
  unfold Decimal.digits grid
  push_cast
  congr 1
  ring

theorem round_coeff {n : ℕ} (e : ℤ) (he : e < ctx.grid.ulp ((n : ℚ) * 10 ^ e)) :
    ctx.grid.round ((n : ℚ) * 10 ^ e) =
      halfEven n (10 ^ (ctx.grid.ulp ((n : ℚ) * 10 ^ e) - e).toNat) * 10 ^ ctx.grid.ulp
        ((n : ℚ) * 10 ^ e) := by
  generalize hu : ctx.grid.ulp ((n : ℚ) * 10 ^ e) = u at *
  have hdiv : (n : ℚ) * 10 ^ e / 10 ^ u = n / ((10 ^ (u - e).toNat : ℕ) : ℚ) := by
    rw [← Int.cast_natCast (10 ^ (u - e).toNat), ← Grid.zpow_div_zpow he.le, div_div_eq_mul_div]
  rw [Grid.round, hu, hdiv, nearest_natCast_div _ _ (by positivity), Int.cast_natCast]

theorem adjusted_le {n : ℕ} {e : ℤ} : ctx.etop < Decimal.digits n + e - ctx.prec ↔
    ctx.emax < Nat.log 10 n + e := by
  unfold etop Decimal.digits
  omega

theorem fix_overflow {n : ℕ} (hn : 0 < n) {e : ℤ} (h : ctx.emax < Nat.log 10 n + e) :
    ctx.magnitude ((n : ℚ) * 10 ^ e) = none := by
  have hpos : (0 : ℚ) < n * 10 ^ e := mul_pos (by exact_mod_cast hn) (Grid.ten_zpow_pos e)
  have hulp : ctx.grid.ulp ((n : ℚ) * 10 ^ e) ≤ Nat.log 10 n + e := by
    have := ctx.prec_pos
    have := ctx.emin_le
    rw [ulp_coeff hn]
    unfold Decimal.digits etiny
    omega
  have hle : (10 : ℚ) ^ (ctx.emax + 1) ≤ ctx.grid.round (n * 10 ^ e) := by
    calc (10 : ℚ) ^ (ctx.emax + 1) ≤ 10 ^ (Nat.log 10 n + e) := Grid.ten_zpow_le h
      _ ≤ ctx.grid.round (n * 10 ^ e) :=
        Grid.zpow_le_round (by rw [← Decimal.log_coeff hn]; exact Grid.log_le_self hpos) hulp
  rw [magnitude, if_neg (not_lt.mpr hle)]

theorem magnitude_of_onGrid {n : ℕ} (hn : 0 < n) {e : ℤ} (h : Nat.log 10 n + e ≤ ctx.emax)
    (he : ctx.grid.ulp ((n : ℚ) * 10 ^ e) ≤ e) :
    ctx.magnitude ((n : ℚ) * 10 ^ e) = some ((n : ℚ) * 10 ^ e) := by
  have hround : ctx.grid.round ((n : ℚ) * 10 ^ e) = n * 10 ^ e :=
    Grid.round_of_onGrid (Grid.onGrid_of_ulp_le (n := n) (by exact_mod_cast he))
  have hlt : (n : ℚ) * 10 ^ e < 10 ^ (ctx.emax + 1) :=
    (Grid.lt_log_succ _).trans_le (Grid.ten_zpow_le (by rw [Decimal.log_coeff hn]; omega))
  rw [magnitude, hround, if_pos hlt]

theorem halfEven_le_pow_prec {n : ℕ} {e : ℤ} (he : e < ctx.grid.ulp ((n : ℚ) * 10 ^ e)) :
    halfEven n (10 ^ (ctx.grid.ulp ((n : ℚ) * 10 ^ e) - e).toNat) ≤ 10 ^ ctx.prec := by
  have h := Grid.nearest_le_pow_prec (g := ctx.grid) ((n : ℚ) * 10 ^ e)
  have hdiv : (n : ℚ) * 10 ^ e / 10 ^ ctx.grid.ulp ((n : ℚ) * 10 ^ e) =
      n / ((10 ^ (ctx.grid.ulp ((n : ℚ) * 10 ^ e) - e).toNat : ℕ) : ℚ) := by
    rw [← Int.cast_natCast (10 ^ (_ - e).toNat), ← Grid.zpow_div_zpow he.le, div_div_eq_mul_div]
  rw [hdiv, nearest_natCast_div _ _ (by positivity)] at h
  exact_mod_cast h

theorem fix_magnitude {d : Decimal} (hd : 0 < d.coeff) :
    (ctx.fix d).toOption.map (fun r => (r.coeff : ℚ) * 10 ^ r.exp) =
      ctx.magnitude (d.coeff * 10 ^ d.exp) := by
  have hulp : ctx.grid.ulp (d.coeff * 10 ^ d.exp) = _ := ulp_coeff hd d.exp
  have hprec := ctx.prec_pos
  have hemin := ctx.emin_le
  unfold fix
  dsimp only
  rw [if_neg hd.ne', ← hulp]
  split_ifs with hover hexp hc htop
  · rw [fix_overflow hd (adjusted_le.mp hover)]
    rfl
  · rw [magnitude_of_onGrid hd (not_lt.mp (mt adjusted_le.mpr hover)) hexp]
    rfl
  all_goals
    have hround := round_coeff d.exp (not_le.mp hexp)
    have hle := halfEven_le_pow_prec (not_le.mp hexp)
    have hu : ctx.grid.ulp (d.coeff * 10 ^ d.exp) ≤ ctx.etop := by unfold etop etiny at *; omega
    generalize halfEven d.coeff _ = c at *
    generalize ctx.grid.ulp (d.coeff * 10 ^ d.exp) = u at *
    have hpow : ((10 ^ ctx.prec : ℕ) : ℚ) * 10 ^ u = 10 ^ (ctx.prec + u) := by
      rw [← Grid.ten_zpow_natCast, ← Grid.ten_zpow_add]
    unfold etop at *
  · rw [magnitude, hround, hc, hpow, if_neg (not_lt.mpr (Grid.ten_zpow_le (by omega)))]
    rfl
  · rw [magnitude, hround, hc, hpow, if_pos (zpow_lt_zpow_right₀ (by norm_num) (by omega))]
    simp only [Except.toOption, Option.map_some, Option.some.injEq]
    rw [← Grid.ten_zpow_natCast, ← Grid.ten_zpow_add]
    congr 1
    omega
  · have hlt : (c : ℚ) * 10 ^ u < 10 ^ (ctx.emax + 1) := by
      calc (c : ℚ) * 10 ^ u < ((10 ^ ctx.prec : ℕ) : ℚ) * 10 ^ u :=
            mul_lt_mul_of_pos_right (by exact_mod_cast lt_of_le_of_ne hle hc) (Grid.ten_zpow_pos u)
        _ ≤ 10 ^ (ctx.emax + 1) := by rw [hpow]; exact Grid.ten_zpow_le (by omega)
    rw [magnitude, hround, if_pos hlt]
    rfl

theorem fix_neg {d r : Decimal} (h : ctx.fix d = .ok r) : r.neg = d.neg := by
  unfold fix at h
  dsimp only at h
  split_ifs at h <;> cases h <;> rfl

theorem toRat_eq (d : Decimal) :
    d.toRat = if d.neg then -((d.coeff : ℚ) * 10 ^ d.exp) else (d.coeff : ℚ) * 10 ^ d.exp := by
  unfold Decimal.toRat Decimal.int
  split_ifs <;> simp

/-- **The rounding of a context, by value.** -/
theorem fix_value (d : Decimal) : (ctx.fix d).toOption.map Decimal.toRat = ctx.value d.toRat := by
  rcases Nat.eq_zero_or_pos d.coeff with h0 | hpos
  · have hz : d.toRat = 0 := by rw [toRat_eq, h0]; simp
    rw [value, if_pos hz, fix, if_pos h0]
    simp [Except.toOption, toRat_eq, h0]
  · have hm : _ = ctx.magnitude _ := fix_magnitude hpos
    have hq : (0 : ℚ) < d.coeff * 10 ^ d.exp := mul_pos (by exact_mod_cast hpos) (Grid.ten_zpow_pos _)
    cases hneg : d.neg
    · have hd : d.toRat = d.coeff * 10 ^ d.exp := by rw [toRat_eq, hneg]; rfl
      rw [hd, value, if_neg hq.ne', if_pos hq, ← hm]
      cases hr : ctx.fix d with
      | error e => rfl
      | ok r => simp [Except.toOption, toRat_eq, fix_neg hr, hneg]
    · have hd : d.toRat = -(d.coeff * 10 ^ d.exp) := by rw [toRat_eq, hneg]; rfl
      rw [hd, value, if_neg (neg_ne_zero.mpr hq.ne'), if_neg (by linarith), neg_neg, ← hm]
      cases hr : ctx.fix d with
      | error e => rfl
      | ok r => simp [Except.toOption, toRat_eq, fix_neg hr, hneg]

/-! ## The order of rounded values -/

theorem magnitude_mono {p q p' q' : ℚ} (hp : 0 < p) (h : p ≤ q) (hp' : ctx.magnitude p = some p')
    (hq' : ctx.magnitude q = some q') : p' ≤ q' := by
  unfold magnitude at hp' hq'
  split_ifs at hp' hq'
  cases hp'
  cases hq'
  exact Grid.round_mono hp h

theorem magnitude_nonneg {q q' : ℚ} (hq : 0 < q) (h : ctx.magnitude q = some q') : 0 ≤ q' := by
  unfold magnitude at h
  split_ifs at h
  cases h
  exact Grid.round_nonneg hq.le

theorem magnitude_idem {q q' : ℚ} (hq : 0 < q) (h : ctx.magnitude q = some q') :
    q' = 0 ∨ ctx.magnitude q' = some q' := by
  unfold magnitude at h
  split_ifs at h with hlt
  cases h
  refine (Grid.onGrid_round (g := ctx.grid) hq).imp_right fun hon => ?_
  rw [magnitude, Grid.round_of_onGrid hon, if_pos hlt]

theorem value_pos {q : ℚ} (hq : 0 < q) : ctx.value q = ctx.magnitude q := by
  rw [value, if_neg hq.ne', if_pos hq]

theorem value_neg (q : ℚ) : ctx.value (-q) = (ctx.value q).map Neg.neg := by
  unfold value
  rcases lt_trichotomy q 0 with h | rfl | h
  · simp only [neg_eq_zero, h.ne, if_false, not_lt.mpr h.le, Left.neg_pos_iff, h, if_true, Option.map_map]
    simp
  · simp
  · simp only [neg_eq_zero, h.ne', if_false, h, if_true, Left.neg_pos_iff, not_lt.mpr h.le, neg_neg]

@[simp] theorem value_zero : ctx.value 0 = some 0 := by simp [value]

theorem value_nonneg {q q' : ℚ} (hq : 0 ≤ q) (h : ctx.value q = some q') : 0 ≤ q' := by
  rcases hq.eq_or_lt with rfl | hpos
  · rw [value_zero] at h
    cases h
    exact le_rfl
  · exact magnitude_nonneg hpos (value_pos hpos ▸ h)

theorem value_neg_eq_some {q r : ℚ} : ctx.value q = some r ↔ ctx.value (-q) = some (-r) := by
  rw [value_neg]
  cases ctx.value q <;> simp

theorem value_mono {p q p' q' : ℚ} (h : p ≤ q) (hp : ctx.value p = some p')
    (hq : ctx.value q = some q') : p' ≤ q' := by
  rcases lt_trichotomy p 0 with hneg | rfl | hpos
  · rcases lt_or_ge q 0 with hq0 | hq0
    · rw [value_neg_eq_some, value_pos (by linarith)] at hp hq
      have := magnitude_mono (by linarith) (neg_le_neg h) hq hp
      linarith
    · have h1 := value_nonneg (q := -p) (by linarith) (value_neg_eq_some.mp hp)
      have h2 := value_nonneg hq0 hq
      linarith
  · rw [value_zero] at hp
    cases hp
    exact value_nonneg h hq
  · rw [value_pos hpos] at hp
    rw [value_pos (hpos.trans_le h)] at hq
    exact magnitude_mono hpos h hp hq

theorem value_idem {q q' : ℚ} (h : ctx.value q = some q') : ctx.value q' = some q' := by
  have hpos {q q' : ℚ} (hq : 0 < q) (h : ctx.value q = some q') : ctx.value q' = some q' := by
    rw [value_pos hq] at h
    rcases magnitude_idem hq h with rfl | hm
    · exact value_zero
    · rcases (magnitude_nonneg hq h).eq_or_lt with h0 | hlt
      · rw [← h0, value_zero]
      · rw [value_pos hlt, hm]
  rcases lt_trichotomy q 0 with hneg | rfl | hq
  · rw [value_neg_eq_some] at h ⊢
    exact hpos (by linarith) h
  · rw [value_zero] at h
    cases h
    exact value_zero
  · exact hpos hq h

end Context

/-- A rounding of results: what is stored for an exact result, and the value that has. -/
structure Rounding where
  round : Decimal → Except Signal Decimal
  value : ℚ → Option ℚ
  round_value : ∀ d, (round d).toOption.map Decimal.toRat = value d.toRat
  value_zero : value 0 = some 0
  value_mono : ∀ {p q p' q'}, p ≤ q → value p = some p' → value q = some q' → p' ≤ q'
  value_idem : ∀ {q q'}, value q = some q' → value q' = some q'

/-- The rounding of the operations of a context. -/
def Context.rounding (ctx : Context) : Rounding :=
  ⟨ctx.fix, ctx.value, Context.fix_value, Context.value_zero, Context.value_mono, Context.value_idem⟩

namespace Rounding

/-- Exact arithmetic. -/
def exact : Rounding where
  round := .ok
  value := some
  round_value _ := rfl
  value_zero := rfl
  value_mono h hp hq := by cases hp; cases hq; exact h
  value_idem _ := rfl

variable (rnd : Rounding)

def add (a b : Decimal) : Except Signal Decimal := rnd.round (a.addExact b)

def sub (a b : Decimal) : Except Signal Decimal := rnd.round (a.subExact b)

def mul (a b : Decimal) : Except Signal Decimal := rnd.round (a.mulExact b)

/-- The number is its own rounding. -/
def Fits (q : ℚ) : Prop := rnd.value q = some q

variable {rnd} {a b c d : Decimal}

theorem round_ok {r : Decimal} (h : rnd.round d = .ok r) : rnd.value d.toRat = some r.toRat := by
  rw [← rnd.round_value, h]
  rfl

theorem round_error {e : Signal} (h : rnd.round d = .error e) : rnd.value d.toRat = none := by
  rw [← rnd.round_value, h]
  rfl

theorem round_of_value {q : ℚ} (h : rnd.value d.toRat = some q) :
    ∃ r, rnd.round d = .ok r ∧ r.toRat = q := by
  cases hr : rnd.round d with
  | error e => rw [round_error hr] at h; cases h
  | ok r => rw [round_ok hr] at h; exact ⟨r, rfl, Option.some.inj h⟩

theorem add_ok (h : rnd.add a b = .ok c) : rnd.value (a.toRat + b.toRat) = some c.toRat := by
  rw [← Decimal.toRat_addExact]
  exact round_ok h

theorem sub_ok (h : rnd.sub a b = .ok c) : rnd.value (a.toRat - b.toRat) = some c.toRat := by
  rw [← Decimal.toRat_subExact]
  exact round_ok h

theorem add_of_fits (h : rnd.Fits (a.toRat + b.toRat)) :
    ∃ c, rnd.add a b = .ok c ∧ c.toRat = a.toRat + b.toRat :=
  round_of_value (by rwa [Decimal.toRat_addExact])

theorem sub_of_fits (h : rnd.Fits (a.toRat - b.toRat)) :
    ∃ c, rnd.sub a b = .ok c ∧ c.toRat = a.toRat - b.toRat :=
  round_of_value (by rwa [Decimal.toRat_subExact])

theorem fits_of_value {q q' : ℚ} (h : rnd.value q = some q') : rnd.Fits q' := rnd.value_idem h

@[simp] theorem fits_exact (q : ℚ) : exact.Fits q := rfl

end Rounding

end Numeric
