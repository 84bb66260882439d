import Mathlib.Algebra.BigOperators.Group.List.Basic
import Mathlib.Data.List.Nodup
import Mathlib.Tactic.Abel

/-!
# Insertion-ordered dictionaries

`Dict K V` lists its items in insertion order, each key once. `insert` updates a key in place or appends
it.

* `get?_insert_self`, `get?_insert_ne`: what `insert` changes;
* `mem_iff`: the items are what `get?` finds; `filterMap_keys`: the values are what `get?` finds for the
  keys;
* `keys_insert`: an old key keeps its place, a new one goes to the end;
* `weigh f d`, the sum of `f` over the values: `weigh_insert_new`, `weigh_insert_old`.
-/

structure Dict (K V : Type) where
  items : List (K × V)
  nodup : (items.map Prod.fst).Nodup

namespace Dict
variable {K V M : Type} [DecidableEq K]

/-- The value of the first item with key `k`. -/
def find (k : K) : List (K × V) → Option V
  | [] => none
  | (k', v) :: l => if k' = k then some v else find k l

/-- Update the item with key `k`, or append one. -/
def upsert (k : K) (v : V) : List (K × V) → List (K × V)
  | [] => [(k, v)]
  | (k', v') :: l => if k' = k then (k, v) :: l else (k', v') :: upsert k v l

theorem mem_keys_upsert (k k' : K) (v : V) (l : List (K × V)) :
    k' ∈ (upsert k v l).map Prod.fst ↔ k' = k ∨ k' ∈ l.map Prod.fst := by
  induction l with
  | nil => simp [upsert]
  | cons p l ih =>
    obtain ⟨a, b⟩ := p
    unfold upsert
    split_ifs with h
    · subst h; simp
    · simp only [List.map_cons, List.mem_cons, ih]
      tauto

theorem nodup_upsert (k : K) (v : V) {l : List (K × V)} (h : (l.map Prod.fst).Nodup) :
    ((upsert k v l).map Prod.fst).Nodup := by
  induction l with
  | nil => simp [upsert]
  | cons p l ih =>
    obtain ⟨a, b⟩ := p
    rw [List.map_cons, List.nodup_cons] at h
    unfold upsert
    split_ifs with hk
    · subst hk
      exact List.nodup_cons.mpr h
    · refine List.nodup_cons.mpr ⟨fun hm => ?_, ih h.2⟩
      rcases (mem_keys_upsert k a v l).mp hm with rfl | hm
      · exact hk rfl
      · exact h.1 hm

theorem find_upsert_self (k : K) (v : V) (l : List (K × V)) : find k (upsert k v l) = some v := by
  induction l with
  | nil => simp [upsert, find]
  | cons p l ih =>
    obtain ⟨a, b⟩ := p
    simp only [upsert]
    split_ifs with h
    · simp [find]
    · simpa [find, h] using ih

theorem find_upsert_ne {k k' : K} (v : V) (h : k' ≠ k) (l : List (K × V)) :
    find k' (upsert k v l) = find k' l := by
  induction l with
  | nil => simp [upsert, find, Ne.symm h]
  | cons p l ih =>
    obtain ⟨a, b⟩ := p
    simp only [upsert]
    split_ifs with ha
    · subst ha; simp [find, Ne.symm h]
    · by_cases hb : a = k' <;> simp [find, hb, ih]

theorem upsert_upsert (k : K) (v w : V) (l : List (K × V)) : upsert k w (upsert k v l) = upsert k w l := by
  induction l with
  | nil => simp [upsert]
  | cons p l ih =>
    obtain ⟨a, b⟩ := p
    by_cases h : a = k <;> simp [upsert, h, ih]

theorem keys_upsert (k : K) (v : V) (l : List (K × V)) :
    (upsert k v l).map Prod.fst = if k ∈ l.map Prod.fst then l.map Prod.fst else l.map Prod.fst ++ [k] := by
  induction l with
  | nil => simp [upsert]
  | cons p l ih =>
    obtain ⟨a, b⟩ := p
    by_cases ha : a = k
    · simp [upsert, ha]
    · simp only [upsert, if_neg ha, List.map_cons, ih, List.mem_cons, Ne.symm ha, false_or]
      split_ifs <;> rfl

theorem upsert_new {k : K} (v : V) {l : List (K × V)} (h : find k l = none) :
    upsert k v l = l ++ [(k, v)] := by
  induction l with
  | nil => rfl
  | cons p l ih =>
    obtain ⟨a, b⟩ := p
    simp only [find] at h
    split_ifs at h with ha
    simp [upsert, ha, ih h]

theorem mem_iff_find {l : List (K × V)} (hl : (l.map Prod.fst).Nodup) (k : K) (v : V) :
    (k, v) ∈ l ↔ find k l = some v := by
  induction l with
  | nil => simp [find]
  | cons p l ih =>
    obtain ⟨a, b⟩ := p
    rw [List.map_cons, List.nodup_cons] at hl
    simp only [find, List.mem_cons, Prod.mk.injEq]
    split_ifs with ha
    · subst ha
      have hno : (a, v) ∉ l := fun hm => hl.1 (List.mem_map.mpr ⟨_, hm, rfl⟩)
      simp [hno, eq_comm]
    · simp only [Ne.symm ha, false_and, false_or]
      exact ih hl.2

def empty : Dict K V := ⟨[], List.nodup_nil⟩

def get? (d : Dict K V) (k : K) : Option V := find k d.items

def insert (d : Dict K V) (k : K) (v : V) : Dict K V := ⟨upsert k v d.items, nodup_upsert k v d.nodup⟩

/-- The values in insertion order. -/
def values (d : Dict K V) : List V := d.items.map Prod.snd

/-- The keys in insertion order. -/
def keys (d : Dict K V) : List K := d.items.map Prod.fst

@[simp] theorem get?_empty (k : K) : (empty : Dict K V).get? k = none := rfl

@[simp] theorem get?_insert_self (d : Dict K V) (k : K) (v : V) : (d.insert k v).get? k = some v :=
  find_upsert_self k v d.items

theorem get?_insert_ne (d : Dict K V) {k k' : K} (v : V) (h : k' ≠ k) :
    (d.insert k v).get? k' = d.get? k' :=
  find_upsert_ne v h d.items

theorem get?_insert (d : Dict K V) (k k' : K) (v : V) :
    (d.insert k v).get? k' = if k' = k then some v else d.get? k' := by
  split_ifs with h
  · rw [h, get?_insert_self]
  · exact get?_insert_ne d v h

theorem insert_insert (d : Dict K V) (k : K) (v w : V) : (d.insert k v).insert k w = d.insert k w := by
  simp [insert, upsert_upsert]

theorem mem_iff (d : Dict K V) (k : K) (v : V) : (k, v) ∈ d.items ↔ d.get? k = some v :=
  mem_iff_find d.nodup k v

theorem mem_values (d : Dict K V) (v : V) : v ∈ d.values ↔ ∃ k, d.get? k = some v := by
  simp only [values, List.mem_map, Prod.exists, exists_eq_right, mem_iff]

omit [DecidableEq K] in
@[simp] theorem keys_empty : (empty : Dict K V).keys = [] := rfl

/-- An old key keeps its place, a new one goes to the end. -/
theorem keys_insert (d : Dict K V) (k : K) (v : V) :
    (d.insert k v).keys = if k ∈ d.keys then d.keys else d.keys ++ [k] := keys_upsert k v d.items

theorem mem_keys (d : Dict K V) (k : K) : k ∈ d.keys ↔ d.get? k ≠ none := by
  rw [Option.ne_none_iff_exists']
  simp only [keys, List.mem_map, Prod.exists, exists_and_right, exists_eq_right, mem_iff]

theorem filterMap_keys (d : Dict K V) : d.keys.filterMap d.get? = d.values := by
  have hitems : ∀ p ∈ d.items, (d.get? ∘ Prod.fst) p = (some ∘ Prod.snd) p :=
    fun p hp => (d.mem_iff p.1 p.2).mp hp
  rw [keys, List.filterMap_map, List.filterMap_congr hitems, List.filterMap_eq_map, values]

/-! ## Sums over the values -/

section Weigh
variable [AddCommMonoid M] (f : V → M)

theorem sum_upsert_new {k : K} (v : V) {l : List (K × V)} (h : find k l = none) :
    ((upsert k v l).map fun p => f p.2).sum = (l.map fun p => f p.2).sum + f v := by
  rw [upsert_new v h, List.map_append, List.sum_append, List.map_singleton, List.sum_singleton]

theorem sum_upsert_old {k : K} {u : V} (v : V) {l : List (K × V)} (h : find k l = some u) :
    ((upsert k v l).map fun p => f p.2).sum + f u = (l.map fun p => f p.2).sum + f v := by
  induction l with
  | nil => simp [find] at h
  | cons p l ih =>
    obtain ⟨a, b⟩ := p
    simp only [find] at h
    split_ifs at h with ha
    · cases h
      simp only [upsert, ha, if_true, List.map_cons, List.sum_cons]
      abel
    · have := ih h
      simp only [upsert, ha, if_false, List.map_cons, List.sum_cons, add_assoc] at this ⊢
      rw [this]

def weigh (d : Dict K V) : M := (d.items.map fun p => f p.2).sum

omit [DecidableEq K] in
@[simp] theorem weigh_empty : weigh f (empty : Dict K V) = 0 := rfl

theorem weigh_insert_new (d : Dict K V) {k : K} (v : V) (h : d.get? k = none) :
    weigh f (d.insert k v) = weigh f d + f v := sum_upsert_new f v h

theorem weigh_insert_old (d : Dict K V) {k : K} {u : V} (v : V) (h : d.get? k = some u) :
    weigh f (d.insert k v) + f u = weigh f d + f v := sum_upsert_old f v h

end Weigh

end Dict
