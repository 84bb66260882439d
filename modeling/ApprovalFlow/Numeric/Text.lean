import ApprovalFlow.Numeric.Arith

/-!
# Numbers from texts

What `float(s)` and `Decimal(s)` accept.

* `Text.isSpace`, `Text.digit`: white space and the decimal digits of Unicode.
* `Text.number`: an unsigned number, digits with an optional point and exponent.
* `PyFloat.ofText`: `float(s)`, `none` for a `ValueError`.
* `DecimalValue`, `DecimalValue.ofText`: `Decimal(s)`, `none` for an `InvalidOperation`.
-/

namespace Numeric

namespace Text

/-- `str.isspace` of one character. -/
def isSpace (c : Char) : Bool :=
  [0x9, 0xa, 0xb, 0xc, 0xd, 0x1c, 0x1d, 0x1e, 0x1f, 0x20, 0x85, 0xa0, 0x1680, 0x2000, 0x2001,
    0x2002, 0x2003, 0x2004, 0x2005,
    0x2006, 0x2007, 0x2008, 0x2009, 0x200a, 0x2028, 0x2029, 0x202f, 0x205f, 0x3000].contains c.toNat

/-- The zeros of the decimal digits, each followed by its nine others. -/
def zeros : List Nat :=
  [0x30, 0x660, 0x6f0, 0x7c0, 0x966, 0x9e6, 0xa66, 0xae6, 0xb66, 0xbe6, 0xc66, 0xce6, 0xd66, 0xde6,
    0xe50, 0xed0, 0xf20,
    0x1040, 0x1090, 0x17e0, 0x1810, 0x1946, 0x19d0, 0x1a80, 0x1a90, 0x1b50, 0x1bb0, 0x1c40, 0x1c50,
      0xa620, 0xa8d0, 0xa900,
    0xa9d0, 0xa9f0, 0xaa50, 0xabf0, 0xff10, 0x104a0, 0x10d30, 0x11066, 0x110f0, 0x11136,
      0x111d0, 0x112f0, 0x11450,
    0x114d0, 0x11650, 0x116c0, 0x11730, 0x118e0, 0x11950, 0x11c50, 0x11d50, 0x11da0, 0x11f50,
      0x16a60, 0x16ac0, 0x16b50,
    0x1d7ce, 0x1d7d8, 0x1d7e2, 0x1d7ec, 0x1d7f6, 0x1e140, 0x1e2f0, 0x1e4f0, 0x1e950, 0x1fbf0]

/-- The value of a decimal digit. -/
def digit (c : Char) : Option Nat :=
  (zeros.find? fun z => z ≤ c.toNat && c.toNat < z + 10).map (c.toNat - ·)

/-- White space and digits beyond ASCII as their ASCII counterparts, and `?` for any other character
there. -/
def ascii (c : Char) : Char :=
  if c.toNat < 127 then c
  else if isSpace c then ' '
  else match digit c with
    | some d => Char.ofNat (0x30 + d)
    | none => '?'

/-- Strip the ends. -/
def strip (space : Char → Bool) (cs : List Char) : List Char :=
  ((cs.dropWhile space).reverse.dropWhile space).reverse

/-- A sign, if there is one: whether it is a minus, and what follows. -/
def sign : List Char → Bool × List Char
  | '-' :: cs => (true, cs)
  | '+' :: cs => (false, cs)
  | cs => (false, cs)

def natural (digits : List Char) : ℕ := digits.foldl (fun n c => 10 * n + (c.toNat - 0x30)) 0

/-- The exponent at the end of a number. -/
def exponent : List Char → Option ℤ
  | [] => some 0
  | c :: cs =>
    let digits := (sign cs).2
    if c.toLower = 'e' ∧ digits ≠ [] ∧ digits.all Char.isDigit then
      some (if (sign cs).1 then -natural digits else natural digits)
    else none

/-- An unsigned number: its coefficient and its exponent. -/
def number (cs : List Char) : Option (ℕ × ℤ) :=
  let whole := cs.takeWhile Char.isDigit
  let rest := cs.dropWhile Char.isDigit
  let fraction := if rest.head? = some '.' then rest.tail.takeWhile Char.isDigit else []
  let rest := if rest.head? = some '.' then rest.tail.dropWhile Char.isDigit else rest
  if whole ++ fraction = [] then none
  else (exponent rest).map fun e => (natural (whole ++ fraction), e - fraction.length)

/-- The text in small letters. -/
def lower (cs : List Char) : List Char := cs.map Char.toLower

/-- Drop underscores, each of which must stand between two digits. -/
def grouped (prev : Char) : List Char → Option (List Char)
  | [] => if prev = '_' then none else some []
  | c :: cs =>
    if c = '_' then if prev.isDigit then grouped c cs else none
    else if prev = '_' ∧ ¬ c.isDigit then none
    else (grouped c cs).map (c :: ·)

end Text

open Text

/-- `float(s)`. -/
def PyFloat.ofText (text : String) : Option PyFloat := do
  let cs ← grouped ' ' (strip (fun c => c = ' ' ∨ (9 ≤ c.toNat ∧ c.toNat ≤ 13)) (text.toList.map ascii))
  let (neg, body) := sign cs
  if lower body = "inf".toList ∨ lower body = "infinity".toList then return .inf neg
  if lower body = "nan".toList then return .nan
  let (coeff, exp) ← number body
  return .nearest neg (coeff * 10 ^ exp.toNat) (10 ^ (-exp).toNat)

/-- What the `decimal` module has besides finite numbers. -/
inductive DecimalValue
  | finite (d : Decimal)
  | infinity (neg : Bool)
  | nan (signaling : Bool)
  deriving DecidableEq, Repr

namespace DecimalValue

/-- The limits of an exact conversion: a zero by its exponent, any other number by its first and last
digit. -/
def representable (d : Decimal) : Bool :=
  decide (-1999999999999999997 ≤ d.exp) &&
    decide ((if d.coeff = 0 then d.exp else d.exp + Nat.log 10 d.coeff) ≤ 999999999999999999)

/-- `Decimal(s)`. -/
def ofText (text : String) : Option DecimalValue :=
  let cs := ((strip isSpace text.toList).filter (· ≠ '_')).map ascii
  let (neg, body) := sign cs
  if lower body = "inf".toList ∨ lower body = "infinity".toList then some (.infinity neg)
  else if lower (body.take 3) = "nan".toList ∧ (body.drop 3).all Char.isDigit then some (.nan false)
  else if lower (body.take 4) = "snan".toList ∧ (body.drop 4).all Char.isDigit then some (.nan true)
  else match number body with
    | some (coeff, exp) =>
      if representable ⟨neg, coeff, exp⟩ then some (.finite ⟨neg, coeff, exp⟩) else none
    | none => none

example : ofText " -1_0.50E+3" = some (.finite ⟨true, 1050, 1⟩) := by decide

end DecimalValue

end Numeric
