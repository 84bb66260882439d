import ApprovalFlow.Numeric.Arith

/-!
# Arithmetic of floats

Each operation rounds the exact result to the nearest double.

* `PyFloat.add`, `mul`, `div`: the operators; a division by zero raises.
* `PyFloat.NotNeg`: not less than zero; `notNeg_add`, `notNeg_mul_self`: sums and squares.
* `ofFrac_pos`: a quotient of at least one does not round to zero.
-/

namespace Numeric

namespace PyFloat

/-- The double nearest to a magnitude, with a sign. -/
def round (neg : Bool) (q : ℚ≥0) : PyFloat := nearest neg q.num q.den

/-- `x * y`. -/
def mul : PyFloat → PyFloat → PyFloat
  | nan, _ => nan
  | _, nan => nan
  | finite m a, finite n b => round (m != n) (a * b)
  | finite m a, inf n => if a = 0 then nan else inf (m != n)
  | inf m, finite n b => if b = 0 then nan else inf (m != n)
  | inf m, inf n => inf (m != n)

/-- `x + y`; a sum of zero is negative only as the sum of two negative zeros. -/
def add : PyFloat → PyFloat → PyFloat
  | nan, _ => nan
  | _, nan => nan
  | finite m a, finite n b =>
    if m = n then round m (a + b)
    else if a = b then finite false 0
    else if a < b then round n (b - a) else round m (a - b)
  | finite _ _, inf n => inf n
  | inf m, finite _ _ => inf m
  | inf m, inf n => if m = n then inf m else nan

/-- `x == 0`. -/
def isZero : PyFloat → Bool
  | finite _ a => a = 0
  | _ => false

/-- A quotient by a number other than zero. -/
def quotient : PyFloat → PyFloat → PyFloat
  | nan, _ => nan
  | _, nan => nan
  | finite m a, finite n b => round (m != n) (a / b)
  | finite m _, inf n => finite (m != n) 0
  | inf m, finite n _ => inf (m != n)
  | inf _, inf _ => nan

/-- `x / y`, `none` for a `ZeroDivisionError`. -/
def div (x y : PyFloat) : Option PyFloat := if y.isZero then none else some (x.quotient y)

/-- `float(n)`, below the range of overflow. -/
def ofNat (n : ℕ) : PyFloat := ofFrac n 1

/-- Not less than zero, or not a number. -/
def NotNeg (x : PyFloat) : Prop := x.lt zero = false

theorem notNeg_finite {a : ℚ≥0} : (finite false a).NotNeg :=
  decide_eq_false (not_lt.mpr a.2)

theorem notNeg_nearest (n d : ℕ) : (nearest false n d).NotNeg := by
  unfold nearest
  simp only
  split_ifs
  · rfl
  · exact notNeg_finite

theorem notNeg_round (q : ℚ≥0) : (round false q).NotNeg := notNeg_nearest _ _

theorem notNeg_mul_self (x : PyFloat) : (x.mul x).NotNeg := by
  cases x with
  | nan => rfl
  | inf m => cases m <;> rfl
  | finite m a =>
    have hsign : (m != m) = false := bne_self_eq_false m
    show (round (m != m) (a * a)).NotNeg
    rw [hsign]
    exact notNeg_round _

theorem notNeg_iff {m : Bool} {a : ℚ≥0} : (finite m a).NotNeg ↔ m = false ∨ a = 0 := by
  unfold NotNeg lt zero
  cases m with
  | false => simp
  | true => simp

theorem notNeg_zero (m : Bool) : (finite m 0).NotNeg := notNeg_iff.mpr (.inr rfl)

theorem round_zero (neg : Bool) : round neg 0 = finite neg 0 := by
  cases neg <;> decide +kernel

theorem notNeg_add {x y : PyFloat} (hx : x.NotNeg) (hy : y.NotNeg) : (x.add y).NotNeg := by
  cases x with
  | nan => rfl
  | inf m =>
    cases y with
    | nan => rfl
    | finite n b => exact hx
    | inf n => cases m <;> cases n <;> first | rfl | cases hx
  | finite m a =>
    cases y with
    | nan => rfl
    | inf n => exact hy
    | finite n b =>
      rw [notNeg_iff] at hx hy
      unfold add
      simp only
      split_ifs with hsign heq hlt
      · -- two zeros, or two magnitudes
        cases m with
        | false => exact notNeg_round _
        | true =>
          obtain rfl : a = 0 := by simpa using hx
          obtain rfl : b = 0 := by simpa [← hsign] using hy
          rw [add_zero, round_zero]
          exact notNeg_zero true
      · exact notNeg_zero false
      · rcases hy with rfl | rfl
        · exact notNeg_round _
        · exact absurd hlt (not_lt.mpr zero_le)
      · rcases hx with rfl | rfl
        · exact notNeg_round _
        · exact absurd (lt_of_le_of_ne zero_le heq) hlt

/-! ## Quotients of counts -/

/-- The unit of a quotient of at least one lies below a power of two that the quotient reaches. -/
theorem unit_le_log {n d : ℕ} (hd : 0 < d) (h : d ≤ n) : ∃ log : ℕ, unit n d ≤ log ∧ d * 2 ^ log ≤ n := by
  have hn : n ≠ 0 := by omega
  have hmono : Nat.log2 d ≤ Nat.log2 n := by
    rw [Nat.log2_eq_log_two, Nat.log2_eq_log_two]
    exact Nat.log_mono_right h
  obtain ⟨k, hk⟩ := Nat.exists_eq_add_of_le hmono
  have hdiff : (Nat.log2 n : ℤ) - Nat.log2 d = k := by omega
  unfold unit
  simp only [hdiff, Int.toNat_natCast, Int.toNat_neg_natCast, pow_zero, mul_one]
  by_cases hle : d * 2 ^ k ≤ n
  · refine ⟨k, ?_, hle⟩
    rw [if_pos hle]
    omega
  · have hpos : 0 < k := by
      apply Nat.pos_of_ne_zero
      intro h0
      apply hle
      rw [h0, pow_zero, mul_one]
      exact h
    refine ⟨k - 1, ?_, ?_⟩
    · rw [if_neg hle]
      omega
    · -- the leading digits are compared
      calc d * 2 ^ (k - 1) ≤ 2 ^ (Nat.log2 d + 1) * 2 ^ (k - 1) :=
            Nat.mul_le_mul_right _ Nat.lt_log2_self.le
        _ = 2 ^ Nat.log2 n := by
            rw [← pow_add]
            congr 1
            omega
        _ ≤ n := Nat.log2_self_le hn

theorem unit_le {n d : ℕ} (hd : 0 < d) (h : d ≤ n) :
    d * 2 ^ (unit n d).toNat ≤ n * 2 ^ (-unit n d).toNat := by
  obtain ⟨log, hunit, hlog⟩ := unit_le_log hd h
  rcases le_total 0 (unit n d) with hpos | hneg
  · have hle : (unit n d).toNat ≤ log := by omega
    calc d * 2 ^ (unit n d).toNat ≤ d * 2 ^ log :=
           Nat.mul_le_mul_left d (Nat.pow_le_pow_right (by omega) hle)
      _ ≤ n := hlog
      _ ≤ n * 2 ^ (-unit n d).toNat := Nat.le_mul_of_pos_right n (by positivity)
  · rw [Int.toNat_of_nonpos hneg, pow_zero, mul_one]
    exact h.trans (Nat.le_mul_of_pos_right n (by positivity))

theorem halfEven_pos {n d : ℕ} (hd : 0 < d) (h : d ≤ n) : 0 < halfEven n d := by
  have hq : 0 < n / d := Nat.div_pos h hd
  unfold halfEven
  simp only
  split_ifs <;> omega

/-- A quotient of at least one does not round to zero. -/
theorem ofFrac_pos {n d : ℕ} (hd : 0 < d) (h : d ≤ n) : (ofFrac n d).le zero = false := by
  have hpos : 0 < halfEven (n * 2 ^ (-unit n d).toNat) (d * 2 ^ (unit n d).toNat) :=
    halfEven_pos (by positivity) (unit_le hd h)
  unfold ofFrac nearest
  simp only
  split_ifs
  · rfl
  · unfold le zero
    apply decide_eq_false
    apply not_le.mpr
    simp only [Bool.false_eq_true, if_false]
    positivity

end PyFloat

end Numeric
