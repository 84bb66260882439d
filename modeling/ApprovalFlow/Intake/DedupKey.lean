import ApprovalFlow.Shared.Contracts
import ApprovalFlow.Numeric.Separator

/-!
# What the dedup key decides

* `computeDedupKey_eq_iff`: when two invoices share a key.
* `computeDedupKey_decides_iff`: the key decides GLOBAL-DUP for two invoices exactly when their totals,
  if equal, are written alike, and no separator in their texts is taken for another.
-/

namespace ApprovalFlow
open Numeric

section Key
variable {a b : Invoice}

/-- GLOBAL-DUP: the same vendor and invoice number, and equal totals. -/
structure SameInvoice (a b : Invoice) : Prop where
  vendor : a.vendor = b.vendor
  invoiceNumber : a.invoiceNumber = b.invoiceNumber
  total : a.total.toRat = b.total.toRat

/-- What follows a separator in the vendor of `a` stands before one in the invoice number of `b`. -/
def Shifted (a b : Invoice) : Prop :=
  ∃ part, a.vendor = b.vendor ++ "|" ++ part ∧ b.invoiceNumber = part ++ "|" ++ a.invoiceNumber

theorem toList_computeDedupKey (a : Invoice) : (computeDedupKey a).toList =
    (a.vendor.toList ++ '|' :: a.invoiceNumber.toList) ++ '|' :: a.total.toString.toList := by
  unfold computeDedupKey
  simp

theorem sep_not_mem (d : Decimal) : '|' ∉ d.toString.toList := d.not_mem_toString rfl (by decide)

theorem shifted_iff : Shifted a b ↔ ∃ m, a.vendor.toList = b.vendor.toList ++ '|' :: m ∧
    b.invoiceNumber.toList = m ++ '|' :: a.invoiceNumber.toList := by
  unfold Shifted
  constructor
  · rintro ⟨part, hv, hn⟩
    exact ⟨part.toList, by rw [hv]; simp, by rw [hn]; simp⟩
  · rintro ⟨m, hv, hn⟩
    refine ⟨String.ofList m, String.toList_inj.mp ?_, String.toList_inj.mp ?_⟩
    · rw [hv]
      simp
    · rw [hn]
      simp

theorem computeDedupKey_eq_iff : computeDedupKey a = computeDedupKey b ↔ a.total = b.total ∧
    (a.vendor = b.vendor ∧ a.invoiceNumber = b.invoiceNumber ∨ Shifted a b ∨ Shifted b a) := by
  rw [← String.toList_inj, toList_computeDedupKey, toList_computeDedupKey,
    append_sep_inj (sep_not_mem a.total) (sep_not_mem b.total), append_sep_eq_iff, shifted_iff, shifted_iff,
    String.toList_inj, String.toList_inj, String.toList_inj, and_comm]
  refine and_congr_left' ⟨Decimal.toString_inj, congrArg Decimal.toString⟩

theorem Shifted.vendor_ne (h : Shifted a b) : a.vendor ≠ b.vendor := by
  intro heq
  obtain ⟨m, hm, -⟩ := shifted_iff.mp h
  rw [heq] at hm
  have := congrArg List.length hm
  simp at this

/-- **The key decides GLOBAL-DUP** for two invoices exactly when their totals are written alike, if they
agree otherwise, and when no separator in one is taken for a separator of the other. -/
theorem computeDedupKey_decides_iff (a b : Invoice) :
    (computeDedupKey a = computeDedupKey b ↔ SameInvoice a b) ↔
      (SameInvoice a b → a.total = b.total) ∧ (a.total = b.total → ¬ Shifted a b ∧ ¬ Shifted b a) := by
  rw [computeDedupKey_eq_iff]
  constructor
  · intro h
    refine ⟨fun hsame => (h.mpr hsame).1, fun htotal => ⟨fun hshift => ?_, fun hshift => ?_⟩⟩
    · exact hshift.vendor_ne (h.mp ⟨htotal, .inr (.inl hshift)⟩).vendor
    · exact hshift.vendor_ne (h.mp ⟨htotal, .inr (.inr hshift)⟩).vendor.symm
  · rintro ⟨hwritten, hclear⟩
    constructor
    · rintro ⟨htotal, hsame | hshift | hshift⟩
      · exact ⟨hsame.1, hsame.2, congrArg Decimal.toRat htotal⟩
      · exact absurd hshift (hclear htotal).1
      · exact absurd hshift (hclear htotal).2
    · intro hsame
      exact ⟨hwritten hsame, .inl ⟨hsame.vendor, hsame.invoiceNumber⟩⟩

end Key

/-- The laptop at 100.00 dollars has another key than at 100, and `X|1` of `Acme` shares one with `1` of
`Acme|X`. -/
theorem dedup_collisions :
    (SameInvoice laptop { laptop with total := ⟨false, 10000, -2⟩ } ∧
      computeDedupKey laptop ≠ computeDedupKey { laptop with total := ⟨false, 10000, -2⟩ }) ∧
    computeDedupKey { laptop with invoiceNumber := "X|1" } =
        computeDedupKey { laptop with vendor := "Acme|X", invoiceNumber := "1" } ∧
      ¬ SameInvoice { laptop with invoiceNumber := "X|1" }
        { laptop with vendor := "Acme|X", invoiceNumber := "1" } := by
  refine ⟨⟨⟨rfl, rfl, by decide +kernel⟩, by decide +kernel⟩, by decide +kernel, fun h => ?_⟩
  have := h.vendor
  revert this
  decide

end ApprovalFlow
