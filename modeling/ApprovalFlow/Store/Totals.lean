import ApprovalFlow.Store.Group
import Mathlib.Algebra.BigOperators.Group.Finset.Basic
import Mathlib.Algebra.BigOperators.Ring.Finset

/-!
# Totals of rows

What rows add up to, and what it becomes when they are first added up in groups.

* `sum?`: the sum of some values, if there are any.
* `sum_groups`, `sum?_groups`: the sums of groups add up to the sum of the rows, also where only some
  groups are chosen.
* `Dict.Sums`: a dictionary of sums; `Sums.insert`: one more amount; `Sums.sum_values`: the amounts add
  up to the values.
-/

section Totals
variable {R J M : Type} [AddCommMonoid M]

/-- The sum of some values, if there are any. -/
def sum? : List M → Option M
  | [] => none
  | v :: vs => some (v + vs.sum)

theorem sum?_eq_some {vs : List M} (h : vs ≠ []) : sum? vs = some vs.sum := by
  cases vs with
  | nil => exact absurd rfl h
  | cons v vs => rfl

@[simp] theorem sum?_eq_none {vs : List M} : sum? vs = none ↔ vs = [] := by
  cases vs <;> simp [sum?]

@[simp] theorem sum?_getD (vs : List M) : (sum? vs).getD 0 = vs.sum := by
  cases vs <;> simp [sum?]

theorem sum?_perm {vs ws : List M} (h : vs.Perm ws) : sum? vs = sum? ws := by
  by_cases hv : vs = []
  · subst hv
    rw [h.nil_eq]
  · have hw : ws ≠ [] := fun hw => hv (by rw [hw] at h; exact h.eq_nil)
    rw [sum?_eq_some hv, sum?_eq_some hw, h.sum_eq]

theorem sum?_concat (vs : List M) (v : M) : sum? (vs ++ [v]) = some ((sum? vs).getD 0 + v) := by
  rw [sum?_eq_some (by simp), sum?_getD]
  simp

variable [DecidableEq J]

theorem sum_groups (key : R → J) (value : R → M) {groups : Finset J} {rows : List R}
    (h : ∀ r ∈ rows, key r ∈ groups) :
    ∑ j ∈ groups, ((rows.filter (key · = j)).map value).sum = (rows.map value).sum := by
  induction rows with
  | nil => simp
  | cons r rows ih =>
    have hgroup (j : J) : (((r :: rows).filter (key · = j)).map value).sum =
        (if key r = j then value r else 0) + ((rows.filter (key · = j)).map value).sum := by
      by_cases hj : key r = j
      · simp [hj]
      · simp [hj]
    simp only [hgroup]
    rw [Finset.sum_add_distrib, Finset.sum_ite_eq, if_pos (h r (by simp)),
      ih fun r hr => h r (by simp [hr])]
    simp

/-- **The sums of the chosen groups** are the values of their rows, added up in another order; and there
is a chosen group where there is such a row. -/
theorem sum?_groups (key : R → J) (value : R → M) (chosen : J → Bool) (rows : List R) :
    sum? (((rows.map key).dedup.filter chosen).map fun j => ((rows.filter (key · = j)).map value).sum) =
      sum? ((rows.filter fun r => chosen (key r)).map value) := by
  by_cases hnone : rows.filter (fun r => chosen (key r)) = []
  · have hgroups : (rows.map key).dedup.filter chosen = [] := by
      rw [List.filter_eq_nil_iff] at hnone ⊢
      intro j hj
      obtain ⟨r, hr, rfl⟩ := List.mem_map.mp (List.mem_dedup.mp hj)
      exact hnone r hr
    rw [hnone, hgroups]
    rfl
  · have hgroups : (rows.map key).dedup.filter chosen ≠ [] := by
      obtain ⟨r, hr⟩ := List.exists_mem_of_ne_nil _ hnone
      obtain ⟨hmem, hchosen⟩ := List.mem_filter.mp hr
      exact List.ne_nil_of_mem (List.mem_filter.mpr ⟨List.mem_dedup.mpr (List.mem_map_of_mem hmem),
        hchosen⟩)
    rw [sum?_eq_some (by simpa using hgroups), sum?_eq_some (by simpa using hnone)]
    have hnodup := (List.nodup_dedup (rows.map key)).filter chosen
    -- in a chosen group, the chosen rows are all its rows
    have hrows {j : J} (hj : chosen j = true) :
        rows.filter (key · = j) = (rows.filter fun r => chosen (key r)).filter (key · = j) := by
      rw [List.filter_filter]
      apply List.filter_congr
      intro r _
      by_cases hr : key r = j
      · simp [hr, hj]
      · simp [hr]
    have hkeys : ∀ r ∈ rows.filter (fun r => chosen (key r)),
        key r ∈ ((rows.map key).dedup.filter chosen).toFinset := by
      intro r hr
      obtain ⟨hmem, hchosen⟩ := List.mem_filter.mp hr
      rw [List.mem_toFinset, List.mem_filter, List.mem_dedup]
      exact ⟨List.mem_map_of_mem hmem, hchosen⟩
    rw [← sum_groups key value hkeys, ← List.sum_toFinset _ hnodup]
    congr 1
    apply Finset.sum_congr rfl
    intro j hj
    rw [hrows (List.mem_filter.mp (List.mem_toFinset.mp hj)).2]

end Totals

/-! ## Dictionaries of sums -/

section Sums
variable {K V M : Type} [DecidableEq K] [AddCommMonoid M]

/-- The value of a key is the sum of its amounts, and no other key is there. -/
def Dict.Sums (value : V → M) (d : Dict K V) (amounts : List (K × M)) : Prop :=
  ∀ k, (d.get? k).map value = sum? ((amounts.filter (·.1 = k)).map Prod.snd)

variable {value : V → M} {d : Dict K V} {amounts : List (K × M)} {k : K} {v : V} {m : M}

theorem Dict.Sums.empty (value : V → M) : (Dict.empty : Dict K V).Sums value [] := fun _ => rfl

theorem Dict.Sums.insert (h : d.Sums value amounts) (hv : value v = ((d.get? k).map value).getD 0 + m) :
    (d.insert k v).Sums value (amounts ++ [(k, m)]) := by
  intro k'
  rw [Dict.get?_insert]
  by_cases hk : k' = k
  · subst hk
    rw [if_pos rfl, filter_concat_pos amounts (decide_eq_true rfl), List.map_append,
      List.map_singleton, sum?_concat, ← h k', ← hv]
    rfl
  · rw [if_neg hk, filter_concat_neg amounts (decide_eq_false (Ne.symm hk))]
    exact h k'

theorem Dict.Sums.mem_keys (h : d.Sums value amounts) : k ∈ d.keys ↔ k ∈ amounts.map Prod.fst := by
  rw [Dict.mem_keys, ne_eq, ← Option.map_eq_none_iff (f := value), h k, sum?_eq_none, List.map_eq_nil_iff,
    List.filter_eq_nil_iff]
  simp

/-- The values add up to all amounts. -/
theorem Dict.Sums.sum_values (h : d.Sums value amounts) :
    (d.values.map value).sum = (amounts.map Prod.snd).sum := by
  have hkeys : ∀ p ∈ amounts, p.1 ∈ d.keys.toFinset := fun p hp =>
    List.mem_toFinset.mpr (h.mem_keys.mpr (List.mem_map_of_mem hp))
  rw [← sum_groups Prod.fst Prod.snd hkeys]
  unfold Dict.values Dict.keys
  rw [List.sum_toFinset _ d.nodup, List.map_map, List.map_map]
  congr 1
  apply List.map_congr_left
  intro p hp
  have hget := h p.1
  rw [(d.mem_iff p.1 p.2).mp hp, Option.map_some] at hget
  rw [Function.comp_apply, Function.comp_apply, ← sum?_getD, ← hget]
  rfl

end Sums
