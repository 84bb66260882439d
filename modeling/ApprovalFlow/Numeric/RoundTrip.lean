import ApprovalFlow.Numeric.Text

/-!
# Reading a number back

The text of a decimal number, read as `Decimal(s)` reads it, is the number with its sign, coefficient and
exponent.

* `Text.number_point`, `Text.number_whole`: the two forms of an unsigned number.
* `Decimal.sign_toString`, `Decimal.number_body`: what is read back.
* `Decimal.toString_inj`: numbers with one text are the same; `Decimal.not_mem_toString`: what stands in
  no text.
-/

namespace Numeric

namespace Text

theorem span_digits {ds rest : List Char} (hds : ∀ c ∈ ds, c.isDigit = true)
    (hrest : ∀ c, rest.head? = some c → c.isDigit = false) :
    (ds ++ rest).takeWhile Char.isDigit = ds ∧ (ds ++ rest).dropWhile Char.isDigit = rest := by
  induction ds with
  | nil =>
    cases rest with
    | nil => exact ⟨rfl, rfl⟩
    | cons c rest =>
      have hc := hrest c rfl
      simp [hc]
  | cons d ds ih =>
    have hd := hds d List.mem_cons_self
    have := ih fun c hc => hds c (List.mem_cons_of_mem _ hc)
    simp [hd, this]

section Number
variable {whole fraction tail : List Char} {e : ℤ}

theorem number_point (hw : ∀ c ∈ whole, c.isDigit = true) (hf : ∀ c ∈ fraction, c.isDigit = true)
    (hne : whole ++ fraction ≠ []) (ht : ∀ c, tail.head? = some c → c.isDigit = false)
    (he : exponent tail = some e) :
    number (whole ++ '.' :: (fraction ++ tail)) =
      some (natural (whole ++ fraction), e - fraction.length) := by
  have hpoint : ∀ c, ('.' :: (fraction ++ tail)).head? = some c → c.isDigit = false := by
    intro c hc
    cases hc
    rfl
  obtain ⟨htake, hdrop⟩ := span_digits hw hpoint
  obtain ⟨htake', hdrop'⟩ := span_digits hf ht
  unfold number
  simp only [htake, hdrop, List.head?_cons, List.tail_cons, if_true, htake', hdrop']
  rw [if_neg hne, he]
  rfl

theorem number_whole (hw : ∀ c ∈ whole, c.isDigit = true) (hne : whole ≠ [])
    (ht : ∀ c, tail.head? = some c → c.isDigit = false ∧ c ≠ '.') (he : exponent tail = some e) :
    number (whole ++ tail) = some (natural whole, e) := by
  obtain ⟨htake, hdrop⟩ := span_digits hw fun c hc => (ht c hc).1
  have hpoint : tail.head? ≠ some '.' := fun h => (ht '.' h).2 rfl
  unfold number
  simp only [htake, hdrop, if_neg hpoint, List.append_nil]
  rw [if_neg hne, he]
  simp

end Number

theorem natural_zeros (n : ℕ) (ds : List Char) : natural (List.replicate n '0' ++ ds) = natural ds := by
  show Nat.ofDigitChars 10 _ 0 = Nat.ofDigitChars 10 _ 0
  rw [Nat.ofDigitChars_append, Nat.ofDigitChars_replicate_zero, mul_zero]

theorem natural_toDigits (n : ℕ) : natural (Nat.toDigits 10 n) = n := Nat.ofDigitChars_ten_toDigits

theorem isDigit_toDigits {n : ℕ} {c : Char} (h : c ∈ Nat.toDigits 10 n) : c.isDigit = true :=
  Nat.isDigit_of_mem_toDigits (by norm_num) (by norm_num) h

theorem isDigit_zeros {n : ℕ} {c : Char} (h : c ∈ List.replicate n '0') : c.isDigit = true := by
  rw [List.eq_of_mem_replicate h]
  rfl

end Text

open Text

namespace Decimal
variable (d : Decimal)

/-! ## The parts of a text -/

/-- The place of the point in the digits. -/
def dotplace : ℤ :=
  if d.exp ≤ 0 ∧ -6 < d.exp + (Nat.toDigits 10 d.coeff).length then
    d.exp + (Nat.toDigits 10 d.coeff).length else 1

/-- The digits and the point. -/
def bodyChars : List Char :=
  let ds := Nat.toDigits 10 d.coeff
  if d.dotplace ≤ 0 then '0' :: '.' :: (List.replicate (-d.dotplace).toNat '0' ++ ds)
  else if ds.length ≤ d.dotplace then ds ++ List.replicate (d.dotplace - ds.length).toNat '0'
  else ds.take d.dotplace.toNat ++ '.' :: ds.drop d.dotplace.toNat

/-- The exponent, with its sign. -/
def exponentChars (e : ℤ) : List Char :=
  if e = 0 then [] else 'E' :: (if e < 0 then '-' else '+') :: Nat.toDigits 10 e.natAbs

theorem toList_toString : d.toString.toList = (if d.neg then ['-'] else []) ++
    (d.bodyChars ++ exponentChars (d.exp + (Nat.toDigits 10 d.coeff).length - d.dotplace)) := by
  have hlen : d.coeff.repr.length = (Nat.toDigits 10 d.coeff).length := by
    rw [← String.length_toList, Nat.toList_repr]
  unfold toString bodyChars exponentChars dotplace
  simp only [hlen, String.toList_append, List.append_assoc]
  congr 1
  · split_ifs <;> rfl
  · congr 1
    · split_ifs <;> simp
    · split_ifs <;> simp

theorem exponent_exponentChars (e : ℤ) : exponent (exponentChars e) = some e := by
  have hdigits : (Nat.toDigits 10 e.natAbs).all Char.isDigit = true :=
    List.all_eq_true.mpr fun c hc => isDigit_toDigits hc
  have hread {s : Char} (hs : sign (s :: Nat.toDigits 10 e.natAbs) = (s == '-', Nat.toDigits 10 e.natAbs)) :
      exponent ('E' :: s :: Nat.toDigits 10 e.natAbs) =
        some (if s = '-' then -(e.natAbs : ℤ) else e.natAbs) := by
    unfold exponent
    dsimp only
    rw [hs]
    rw [if_pos ⟨by decide, Nat.toDigits_ne_nil, hdigits⟩, natural_toDigits]
    simp only [beq_iff_eq]
  unfold exponentChars
  split_ifs with h0 hneg
  · rw [h0]
    rfl
  · rw [hread rfl, if_pos rfl]
    congr 1
    omega
  · rw [hread rfl, if_neg (by decide)]
    congr 1
    omega

theorem head_exponentChars {e : ℤ} {c : Char} (h : (exponentChars e).head? = some c) :
    c.isDigit = false ∧ c ≠ '.' := by
  unfold exponentChars at h
  by_cases h0 : e = 0
  · rw [if_pos h0] at h
    cases h
  · rw [if_neg h0] at h
    cases h
    decide

/-- **The body of a text reads back** as coefficient and exponent. -/
theorem number_body :
    number (d.bodyChars ++ exponentChars (d.exp + (Nat.toDigits 10 d.coeff).length - d.dotplace)) =
      some (d.coeff, d.exp) := by
  have hds : ∀ c ∈ Nat.toDigits 10 d.coeff, c.isDigit = true := fun c hc => isDigit_toDigits hc
  have hne : Nat.toDigits 10 d.coeff ≠ [] := Nat.toDigits_ne_nil
  have hpos : 0 < (Nat.toDigits 10 d.coeff).length := Nat.length_toDigits_pos
  have hcoeff := natural_toDigits d.coeff
  have hdot : d.dotplace = d.exp + (Nat.toDigits 10 d.coeff).length ∧ d.exp ≤ 0 ∨ d.dotplace = 1 := by
    unfold dotplace
    split_ifs with h
    · exact .inl ⟨rfl, h.1⟩
    · exact .inr rfl
  unfold bodyChars
  generalize d.dotplace = dot at *
  generalize Nat.toDigits 10 d.coeff = ds at *
  have he := exponent_exponentChars (d.exp + ds.length - dot)
  dsimp only
  split_ifs with hzero hlen
  · have hf : ∀ c ∈ List.replicate (-dot).toNat '0' ++ ds, c.isDigit = true := by
      intro c hc
      rcases List.mem_append.mp hc with h | h
      · exact isDigit_zeros h
      · exact hds c h
    have hw : ∀ c ∈ ['0'], c.isDigit = true := fun c hc => isDigit_zeros (n := 1) hc
    have hnum :=
      @number_point ['0'] (List.replicate (-dot).toNat '0' ++ ds) _ _ hw hf (List.cons_ne_nil _ _)
      (fun c hc => (head_exponentChars hc).1) he
    have hnatural : natural (['0'] ++ (List.replicate (-dot).toNat '0' ++ ds)) = natural ds := by
      rw [← List.append_assoc]
      exact natural_zeros ((-dot).toNat + 1) ds
    rw [hnatural, hcoeff] at hnum
    refine hnum.trans ?_
    rw [List.length_append, List.length_replicate]
    congr 2
    omega
  · have hzeros : (dot - ds.length).toNat = 0 := by omega
    rw [hzeros, List.replicate_zero, List.append_nil,
      number_whole hds hne (fun c hc => head_exponentChars hc) he, hcoeff]
    congr 2
    omega
  · have hnum := @number_point (ds.take dot.toNat) (ds.drop dot.toNat) _ _
        (fun c hc => hds c (List.mem_of_mem_take hc))
      (fun c hc => hds c (List.mem_of_mem_drop hc)) (by rwa [List.take_append_drop])
      (fun c hc => (head_exponentChars hc).1) he
    rw [List.take_append_drop, hcoeff] at hnum
    rw [List.append_assoc, List.cons_append]
    refine hnum.trans ?_
    rw [List.length_drop]
    congr 2
    omega

theorem bodyChars_head : ∃ c cs, d.bodyChars = c :: cs ∧ c.isDigit = true := by
  have hds : ∀ c ∈ Nat.toDigits 10 d.coeff, c.isDigit = true := fun c hc => isDigit_toDigits hc
  unfold bodyChars
  cases hlist : Nat.toDigits 10 d.coeff with
  | nil => exact absurd hlist Nat.toDigits_ne_nil
  | cons c cs =>
    have hc : c.isDigit = true := hds c (hlist ▸ List.mem_cons_self)
    dsimp only
    split_ifs with hzero hlen
    · exact ⟨'0', _, rfl, rfl⟩
    · exact ⟨c, _, rfl, hc⟩
    · obtain ⟨k, hk⟩ : ∃ k, d.dotplace.toNat = k + 1 := ⟨d.dotplace.toNat - 1, by omega⟩
      rw [hk]
      exact ⟨c, _, rfl, hc⟩

theorem sign_digit {c : Char} {cs : List Char} (h : c.isDigit = true) :
    sign (c :: cs) = (false, c :: cs) := by
  unfold sign
  split
  · simp_all
  · simp_all
  · rfl

theorem sign_toString : sign d.toString.toList = (d.neg, d.bodyChars ++ exponentChars
    (d.exp + (Nat.toDigits 10 d.coeff).length - d.dotplace)) := by
  rw [toList_toString]
  cases d.neg with
  | true => rfl
  | false =>
    obtain ⟨c, cs, hbody, hc⟩ := d.bodyChars_head
    rw [hbody]
    exact sign_digit hc

theorem toString_inj {a b : Decimal} (h : a.toString = b.toString) : a = b := by
  have hsign := a.sign_toString
  rw [h, b.sign_toString, Prod.mk.injEq] at hsign
  have hnumber := a.number_body
  rw [← hsign.2, b.number_body, Option.some.injEq, Prod.mk.injEq] at hnumber
  cases a
  cases b
  simp_all

theorem of_mem_bodyChars {c : Char} (h : c ∈ d.bodyChars) : c.isDigit = true ∨ c = '.' := by
  unfold bodyChars at h
  dsimp only at h
  split_ifs at h
  · rcases List.mem_cons.mp h with rfl | h
    · exact .inl rfl
    · rcases List.mem_cons.mp h with rfl | h
      · exact .inr rfl
      · exact .inl ((List.mem_append.mp h).elim isDigit_zeros isDigit_toDigits)
  · exact .inl ((List.mem_append.mp h).elim isDigit_toDigits isDigit_zeros)
  · rcases List.mem_append.mp h with h | h
    · exact .inl (isDigit_toDigits (List.mem_of_mem_take h))
    · rcases List.mem_cons.mp h with rfl | h
      · exact .inr rfl
      · exact .inl (isDigit_toDigits (List.mem_of_mem_drop h))

theorem of_mem_exponentChars {e : ℤ} {c : Char} (h : c ∈ exponentChars e) :
    c.isDigit = true ∨ c = 'E' ∨ c = '-' ∨ c = '+' := by
  unfold exponentChars at h
  by_cases h0 : e = 0
  · rw [if_pos h0] at h
    cases h
  · rw [if_neg h0] at h
    rcases List.mem_cons.mp h with rfl | h
    · exact .inr (.inl rfl)
    · rcases List.mem_cons.mp h with rfl | h
      · split_ifs
        · exact .inr (.inr (.inl rfl))
        · exact .inr (.inr (.inr rfl))
      · exact .inl (isDigit_toDigits h)

theorem not_mem_toString {c : Char} (hdigit : c.isDigit = false) (hother : c ∉ ['.', 'E', '-', '+']) :
    c ∉ d.toString.toList := by
  intro h
  rw [toList_toString, List.mem_append, List.mem_append] at h
  rcases h with h | h | h
  · cases hneg : d.neg <;> simp_all
  · rcases d.of_mem_bodyChars h with h | rfl
    · rw [h] at hdigit
      cases hdigit
    · simp at hother
  · rcases of_mem_exponentChars h with h | rfl | rfl | rfl
    · rw [h] at hdigit
      cases hdigit
    all_goals simp at hother

end Decimal

end Numeric
