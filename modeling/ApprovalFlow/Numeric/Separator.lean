import ApprovalFlow.Numeric.RoundTrip

/-!
# Parts joined at a separator

* `append_sep_eq_iff`: two texts whose parts may hold the separator; `append_sep_inj`, `sep_append_inj`:
  the last parts, or the first ones, do not hold it.
* `integer_inj`, `not_mem_integer`: the text of an integer, as a part.
-/

namespace Numeric

section Separator
variable {α : Type} {sep : α} {v v' n n' : List α}

/-- The joined texts are equal when the parts are, or when a part of one text belongs to the other. -/
theorem append_sep_eq_iff : v ++ sep :: n = v' ++ sep :: n' ↔ v = v' ∧ n = n' ∨
    (∃ m, v = v' ++ sep :: m ∧ n' = m ++ sep :: n) ∨ ∃ m, v' = v ++ sep :: m ∧ n = m ++ sep :: n' := by
  rw [List.append_eq_append_iff]
  constructor
  · rintro (⟨m, rfl, hm⟩ | ⟨m, rfl, hm⟩)
    · cases m with
      | nil =>
        cases hm
        exact .inl ⟨by simp, rfl⟩
      | cons c m =>
        cases hm
        exact .inr (.inr ⟨m, rfl, rfl⟩)
    · cases m with
      | nil =>
        cases hm
        exact .inl ⟨by simp, rfl⟩
      | cons c m =>
        cases hm
        exact .inr (.inl ⟨m, rfl, rfl⟩)
  · rintro (⟨rfl, rfl⟩ | ⟨m, rfl, rfl⟩ | ⟨m, rfl, rfl⟩)
    · exact .inl ⟨[], by simp, rfl⟩
    · exact .inr ⟨sep :: m, rfl, rfl⟩
    · exact .inl ⟨sep :: m, rfl, rfl⟩

/-- A text without the separator ends at the last one. -/
theorem append_sep_inj (hn : sep ∉ n) (hn' : sep ∉ n') :
    v ++ sep :: n = v' ++ sep :: n' ↔ v = v' ∧ n = n' := by
  rw [append_sep_eq_iff]
  constructor
  · rintro (h | ⟨m, -, rfl⟩ | ⟨m, -, rfl⟩)
    · exact h
    · exact absurd (by simp) hn'
    · exact absurd (by simp) hn
  · exact .inl

theorem sep_append_inj (hv : sep ∉ v) (hv' : sep ∉ v') :
    v ++ sep :: n = v' ++ sep :: n' ↔ v = v' ∧ n = n' := by
  rw [append_sep_eq_iff]
  constructor
  · rintro (h | ⟨m, rfl, -⟩ | ⟨m, rfl, -⟩)
    · exact h
    · exact absurd (by simp) hv
    · exact absurd (by simp) hv'
  · exact .inl

end Separator

/-! ## Integers -/

theorem toList_integer (a : ℤ) :
    (toString a).toList = (if a < 0 then ['-'] else []) ++ Nat.toDigits 10 a.natAbs := by
  cases a with
  | ofNat n =>
    rw [if_neg (by simp)]
    exact Nat.toList_repr
  | negSucc n =>
    rw [if_pos (Int.negSucc_lt_zero n)]
    show ("-" ++ Nat.repr (n + 1)).toList = _
    rw [String.toList_append, Nat.toList_repr]
    rfl

theorem toDigits_inj {m n : ℕ} (h : Nat.toDigits 10 m = Nat.toDigits 10 n) : m = n := by
  rw [← Text.natural_toDigits m, ← Text.natural_toDigits n, h]

theorem not_mem_toDigits {c : Char} (hdigit : c.isDigit = false) (n : ℕ) : c ∉ Nat.toDigits 10 n := by
  intro h
  rw [Text.isDigit_toDigits h] at hdigit
  cases hdigit

theorem integer_inj {a b : ℤ} (h : toString a = toString b) : a = b := by
  have hlist := congrArg String.toList h
  rw [toList_integer, toList_integer] at hlist
  have hminus (n : ℕ) : '-' ∉ Nat.toDigits 10 n := not_mem_toDigits rfl n
  split_ifs at hlist with ha hb hb
  · have := toDigits_inj (List.append_cancel_left hlist)
    omega
  · exact absurd (List.mem_of_mem_head? (congrArg List.head? hlist).symm) (hminus _)
  · exact absurd (List.mem_of_mem_head? (congrArg List.head? hlist)) (hminus _)
  · have := toDigits_inj hlist
    omega

theorem not_mem_integer {c : Char} (hdigit : c.isDigit = false) (hsign : c ≠ '-') (a : ℤ) :
    c ∉ (toString a).toList := by
  rw [toList_integer, List.mem_append, not_or]
  refine ⟨?_, not_mem_toDigits hdigit _⟩
  split_ifs
  · simpa using hsign
  · exact List.not_mem_nil

end Numeric
