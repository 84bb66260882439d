import ApprovalFlow.Numeric.Decimal
import Mathlib.Data.NNRat.Defs

/-!
# The numbers of the router

* `Context.divide`: the quotient of two decimals, correctly rounded (`__truediv__`).
* `Arith ν`: the arithmetic a computation on decimals uses, with numbers of type `ν` in between:
  `Arith.decimal` computes in a context, `Arith.exact` with rationals. Either compares decimals by value
  (`Arith.lt_ofDecimal`).
* `PyFloat`: a float, with an order in which NaN is below and above nothing, the nearest double of a
  fraction, and its `.2f` text.
-/

namespace Numeric

namespace Context
variable (ctx : Context)

/-- Drop up to `k` trailing zeros of a coefficient, raising the exponent. -/
def trim : ℕ → ℕ → ℤ → ℕ × ℤ
  | 0, c, e => (c, e)
  | k + 1, c, e => if c % 10 = 0 then trim k (c / 10) (e + 1) else (c, e)

/-- `a / b`. -/
def divide (a b : Decimal) : Except Signal Decimal :=
  if b.coeff = 0 then .error (if a.coeff = 0 then .invalidOperation else .divisionByZero)
  else if a.coeff = 0 then ctx.fix ⟨a.neg != b.neg, 0, a.exp - b.exp⟩
  else
    let shift : ℤ := Decimal.digits b.coeff - Decimal.digits a.coeff + ctx.prec + 1
    let num := a.coeff * 10 ^ shift.toNat
    let den := b.coeff * 10 ^ (-shift).toNat
    let c := num / den
    let exp := a.exp - b.exp - shift
    if num % den ≠ 0 then
      -- a sticky digit: an inexact quotient must not look like a tie
      ctx.fix ⟨a.neg != b.neg, if c % 5 = 0 then c + 1 else c, exp⟩
    else
      let t := trim shift.toNat c exp
      ctx.fix ⟨a.neg != b.neg, t.1, t.2⟩

end Context

/-- Arithmetic on decimals with results in `ν`. -/
structure Arith (ν : Type) where
  ofDecimal : Decimal → ν
  add : ν → ν → Except Signal ν
  mul : ν → ν → Except Signal ν
  div : ν → ν → Except Signal ν
  lt : ν → ν → Bool
  eq : ν → ν → Bool
  lt_ofDecimal : ∀ a b, lt (ofDecimal a) (ofDecimal b) = true ↔ a.toRat < b.toRat

/-- The decimal arithmetic of a context. -/
def Arith.decimal (ctx : Context) : Arith Decimal where
  ofDecimal := id
  add a b := ctx.fix (a.addExact b)
  mul a b := ctx.fix (a.mulExact b)
  div := ctx.divide
  lt a b := decide (a < b)
  eq := Decimal.same
  lt_ofDecimal a b := by rw [decide_eq_true_iff]; exact Decimal.lt_iff

/-- Exact arithmetic. -/
def Arith.exact : Arith ℚ where
  ofDecimal := Decimal.toRat
  add a b := .ok (a + b)
  mul a b := .ok (a * b)
  div a b := if b = 0 then .error (if a = 0 then .invalidOperation else .divisionByZero) else .ok (a / b)
  lt a b := decide (a < b)
  eq a b := decide (a = b)
  lt_ofDecimal a b := by rw [decide_eq_true_iff]

/-! ## Floats -/

/-- A float: a number with its sign, an infinity, or NaN. -/
inductive PyFloat
  | finite (neg : Bool) (mag : ℚ≥0)
  | inf (neg : Bool)
  | nan
  deriving DecidableEq

namespace PyFloat

/-- The number, for comparisons: infinities lie beyond all numbers and NaN compares with nothing. -/
def lt : PyFloat → PyFloat → Bool
  | finite m a, finite n b => decide ((if m then -(a : ℚ) else a) < (if n then -(b : ℚ) else b))
  | finite _ _, inf n => !n
  | inf m, finite _ _ => m
  | inf m, inf n => m && !n
  | nan, _ => false
  | _, nan => false

def le : PyFloat → PyFloat → Bool
  | finite m a, finite n b => decide ((if m then -(a : ℚ) else a) ≤ (if n then -(b : ℚ) else b))
  | finite _ _, inf n => !n
  | inf m, finite _ _ => m
  | inf m, inf n => m || !n
  | nan, _ => false
  | _, nan => false

/-- The least exponent `e` for which `n / d` has at most 53 binary digits in units of `2 ^ e`. -/
def unit (n d : ℕ) : ℤ :=
  let k : ℤ := (Nat.log2 n : ℤ) - Nat.log2 d
  let log := if d * 2 ^ k.toNat ≤ n * 2 ^ (-k).toNat then k else k - 1
  max (log - 52) (-1074)

/-- The double nearest to `n / d`. -/
def nearest (neg : Bool) (n d : ℕ) : PyFloat :=
  let e := unit n d
  let m := halfEven (n * 2 ^ (-e).toNat) (d * 2 ^ e.toNat)
  if 2 ^ 1024 ≤ m * 2 ^ e.toNat then inf neg else finite neg ((m * 2 ^ e.toNat : ℕ) / (2 ^ (-e).toNat : ℕ))

/-- A non-negative number from a fraction. -/
def ofFrac (n d : ℕ) : PyFloat := nearest false n d

theorem le_of_not_lt {x y : PyFloat} (hx : x ≠ nan) (hy : y ≠ nan)
    (h : x.lt y = false) : y.le x = true := by
  cases x with
  | nan => exact absurd rfl hx
  | inf m =>
    cases y with
    | nan => exact absurd rfl hy
    | inf n => cases m <;> cases n <;> first | rfl | cases h
    | finite n b => cases m <;> first | rfl | cases h
  | finite m a =>
    cases y with
    | nan => exact absurd rfl hy
    | inf n => cases n <;> first | rfl | cases h
    | finite n b => exact decide_eq_true (not_lt.mp (of_decide_eq_false h))

theorem not_lt_of_le {x y : PyFloat} (h : y.le x = true) : x.lt y = false := by
  cases x with
  | nan => rfl
  | inf m => cases y <;> cases m <;> simp_all [le, lt]
  | finite m a =>
    cases y with
    | nan => rfl
    | inf n => cases n <;> simp_all [le, lt]
    | finite n b => exact decide_eq_false (not_lt.mpr (of_decide_eq_true h))

theorem le_trans {x y z : PyFloat} (hxy : x.le y = true) (hyz : y.le z = true) : x.le z = true := by
  cases x with
  | nan => cases hxy
  | inf m =>
    cases y with
    | nan => cases m <;> cases hxy
    | inf n => cases z <;> cases m <;> cases n <;> simp_all [le]
    | finite n b => cases z <;> cases m <;> simp_all [le]
  | finite m a =>
    cases y with
    | nan => cases hxy
    | inf n => cases z <;> cases n <;> simp_all [le]
    | finite n b =>
      cases z with
      | nan => cases hyz
      | inf k => exact hyz
      | finite k c => exact decide_eq_true ((of_decide_eq_true hxy).trans (of_decide_eq_true hyz))

@[simp] theorem lt_nan (x : PyFloat) : x.lt nan = false := by cases x <;> rfl

@[simp] theorem nan_le (x : PyFloat) : nan.le x = false := rfl

@[simp] theorem le_nan (x : PyFloat) : x.le nan = false := by cases x <;> rfl

def zero : PyFloat := finite false 0

def one : PyFloat := finite false 1

/-- `f"{x:.2f}"`. -/
def fixed2 : PyFloat → String
  | nan => "nan"
  | inf n => if n then "-inf" else "inf"
  | finite n a =>
    let c := halfEven (a.num * 100) a.den
    let cents := (c % 100).repr
    (if n then "-" else "") ++ (c / 100).repr ++ "." ++ (if cents.length = 1 then "0" ++ cents else cents)

end PyFloat

end Numeric
