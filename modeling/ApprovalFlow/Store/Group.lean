import ApprovalFlow.Store.Dict
import Mathlib.Data.List.Induction

/-!
# Rows grouped in a dictionary

A fold adds each row to the accumulator of its key; an addition may fail.

* `filter_concat_pos`, `filter_concat_neg`: the chosen rows after one more.
* `Grouping.collect`: the accumulators of all groups, in the order of their first rows.
* `Grouping.total`: the accumulator of one group, from its rows alone.
* `collects_of_ok`: what the fold finds is what each group adds up to; `collect_ok`: it ends if every
  group does.
-/

section Concat
variable {R : Type} {p : R → Bool} {row : R}

theorem filter_concat_pos (rows : List R) (h : p row = true) :
    (rows ++ [row]).filter p = rows.filter p ++ [row] := by
  rw [List.filter_append, List.filter_singleton, h]
  rfl

theorem filter_concat_neg (rows : List R) (h : p row = false) :
    (rows ++ [row]).filter p = rows.filter p := by
  rw [List.filter_append, List.filter_singleton, h]
  exact List.append_nil _

end Concat

structure Grouping (K R V ε : Type) where
  key : R → K
  init : V
  add : V → R → Except ε V

namespace Grouping
variable {K R V ε : Type} [DecidableEq K] (g : Grouping K R V ε)

/-- Add a row to its group. -/
def step (groups : Dict K V) (row : R) : Except ε (Dict K V) := do
  let v ← g.add ((groups.get? (g.key row)).getD g.init) row
  return groups.insert (g.key row) v

def collect (rows : List R) : Except ε (Dict K V) := rows.foldlM g.step .empty

/-- The rows of a key. -/
def group (k : K) (rows : List R) : List R := rows.filter (g.key · = k)

def total (k : K) (rows : List R) : Except ε V := (g.group k rows).foldlM g.add g.init

/-- The groups of some rows: those that have a row, each with its total. -/
structure Collects (rows : List R) (groups : Dict K V) : Prop where
  total : ∀ k v, groups.get? k = some v → g.total k rows = .ok v
  mem : ∀ k, groups.get? k ≠ none ↔ k ∈ rows.map g.key

variable {g} {rows : List R} {row : R} {groups : Dict K V} {k : K}

theorem foldlM_concat {V R : Type} (f : V → R → Except ε V) (v : V) (rows : List R) (row : R) :
    (rows ++ [row]).foldlM f v = rows.foldlM f v >>= (f · row) := by
  rw [List.foldlM_append]
  congr 1
  funext v
  exact bind_pure _

theorem collect_concat (row : R) : g.collect (rows ++ [row]) = g.collect rows >>= (g.step · row) :=
  foldlM_concat g.step .empty rows row

theorem step_eq (groups : Dict K V) (row : R) : g.step groups row =
    (g.add ((groups.get? (g.key row)).getD g.init) row).map (groups.insert (g.key row)) := by
  unfold step
  cases g.add ((groups.get? (g.key row)).getD g.init) row with
  | ok v => rfl
  | error e => rfl

theorem total_concat_self (row : R) :
    g.total (g.key row) (rows ++ [row]) = g.total (g.key row) rows >>= (g.add · row) := by
  unfold Grouping.total group
  rw [filter_concat_pos rows (decide_eq_true rfl), foldlM_concat]

theorem total_concat_ne (h : g.key row ≠ k) : g.total k (rows ++ [row]) = g.total k rows := by
  unfold Grouping.total group
  rw [filter_concat_neg rows (decide_eq_false h)]

theorem total_of_not_mem (h : k ∉ rows.map g.key) : g.total k rows = .ok g.init := by
  have hnil : g.group k rows = [] := by
    refine List.filter_eq_nil_iff.mpr fun row hrow hk => h ?_
    rw [← of_decide_eq_true hk]
    exact List.mem_map_of_mem hrow
  unfold Grouping.total
  rw [hnil]
  rfl

theorem Collects.empty : g.Collects [] .empty := by
  refine ⟨fun k v h => ?_, fun k => ?_⟩
  · cases h
  · simp

/-- What a group holds so far, also where it has no row. -/
theorem Collects.getD (h : g.Collects rows groups) (k : K) :
    g.total k rows = .ok ((groups.get? k).getD g.init) := by
  cases hget : groups.get? k with
  | none =>
    refine total_of_not_mem fun hmem => ?_
    exact (h.mem k).mpr hmem hget
  | some v => exact h.total k v hget

theorem Collects.concat (h : g.Collects rows groups) {v : V}
    (hv : g.add ((groups.get? (g.key row)).getD g.init) row = .ok v) :
    g.Collects (rows ++ [row]) (groups.insert (g.key row) v) := by
  refine ⟨fun k u hget => ?_, fun k => ?_⟩
  · rw [Dict.get?_insert] at hget
    split_ifs at hget with hk
    · cases hget
      subst hk
      rw [total_concat_self, h.getD]
      exact hv
    · rw [total_concat_ne (Ne.symm hk)]
      exact h.total k u hget
  · rw [Dict.get?_insert, List.map_append, List.mem_append, ← h.mem k]
    split_ifs with hk
    · simp [hk]
    · simp [hk]

/-- **The fold**, one row after another: the groups, or a group whose rows do not add up. -/
theorem collect_cases (rows : List R) :
    (∃ groups, g.collect rows = .ok groups ∧ g.Collects rows groups) ∨
      (∃ e, g.collect rows = .error e) ∧ ∃ k e, g.total k rows = .error e := by
  induction rows using List.reverseRecOn with
  | nil => exact .inl ⟨.empty, rfl, .empty⟩
  | append_singleton rows row ih =>
    rcases ih with ⟨groups, hgroups, hcollects⟩ | ⟨⟨e, he⟩, k, e', htotal⟩
    · have hbefore := hcollects.getD (g.key row)
      have hstep : g.collect (rows ++ [row]) = g.step groups row := by
        rw [collect_concat, hgroups]
        rfl
      rw [step_eq] at hstep
      cases hadd : g.add ((groups.get? (g.key row)).getD g.init) row with
      | ok v =>
        rw [hadd] at hstep
        exact .inl ⟨groups.insert (g.key row) v, hstep, hcollects.concat hadd⟩
      | error e =>
        rw [hadd] at hstep
        refine .inr ⟨⟨e, hstep⟩, g.key row, e, ?_⟩
        rw [total_concat_self, hbefore]
        exact hadd
    · refine .inr ⟨⟨e, by rw [collect_concat, he]; rfl⟩, k, e', ?_⟩
      by_cases hk : g.key row = k
      · subst hk
        rw [total_concat_self, htotal]
        rfl
      · rw [total_concat_ne hk]
        exact htotal

theorem collects_of_ok (h : g.collect rows = .ok groups) : g.Collects rows groups := by
  rcases @collect_cases _ _ _ _ _ g rows with ⟨groups', hgroups, hcollects⟩ | ⟨⟨e, he⟩, -⟩
  · rw [hgroups] at h
    cases h
    exact hcollects
  · rw [he] at h
    cases h

theorem collect_ok (h : ∀ k, ∃ v, g.total k rows = .ok v) : ∃ groups, g.collect rows = .ok groups := by
  rcases @collect_cases _ _ _ _ _ g rows with ⟨groups, hgroups, -⟩ | ⟨-, k, e, he⟩
  · exact ⟨groups, hgroups⟩
  · obtain ⟨v, hv⟩ := h k
    rw [he] at hv
    cases hv

end Grouping
