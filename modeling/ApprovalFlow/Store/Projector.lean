import ApprovalFlow.Store.Dict
import Mathlib.Data.Finset.Card
import Mathlib.Data.Finset.Lattice.Lemmas

/-!
# Projections of event histories

A projector keeps one row for each key and merges every event into the row of its key.

* `Projector.run`: the rows after a history of events; `get?_run_of_ne`: the rows of other keys.
* `get?_run`: the row of a key is a fold over the events of that key; `keys_run`: the keys in their
  order.
* `view_run`: where a view of the row is a function of the set of kinds that have been merged, it is that
  function of the set of kinds in the history, so neither order nor repetition matters.
-/

structure Projector (K E R : Type) where
  key : E → K
  merge : E → Option R → R

namespace Projector
variable {K E R V κ : Type} [DecidableEq K] [DecidableEq κ] (p : Projector K E R)

def step (rows : Dict K R) (e : E) : Dict K R := rows.insert (p.key e) (p.merge e (rows.get? (p.key e)))

/-- The rows after a history. -/
def run (rows : Dict K R) (events : List E) : Dict K R := events.foldl p.step rows

variable {p} {rows : Dict K R} {k : K}

theorem get?_step (e : E) : (p.step rows e).get? k =
    if p.key e = k then some (p.merge e (rows.get? k)) else rows.get? k := by
  unfold step
  rw [Dict.get?_insert]
  by_cases h : p.key e = k
  · rw [if_pos h.symm, if_pos h, h]
  · rw [if_neg (Ne.symm h), if_neg h]

/-- **The row of a key** is made by the events of that key. -/
theorem get?_run (events : List E) : (p.run rows events).get? k =
    (events.filter (p.key · = k)).foldl (fun row e => some (p.merge e row)) (rows.get? k) := by
  induction events generalizing rows with
  | nil => rfl
  | cons e events ih =>
    show (p.run (p.step rows e) events).get? k = _
    rw [ih, get?_step]
    by_cases h : p.key e = k
    · rw [if_pos h, List.filter_cons_of_pos (by simpa using h)]
      rfl
    · rw [if_neg h, List.filter_cons_of_neg (by simpa using h)]

theorem get?_run_of_ne {events : List E} (h : ∀ e ∈ events, p.key e ≠ k) :
    (p.run rows events).get? k = rows.get? k := by
  have hnil : events.filter (p.key · = k) = [] :=
    List.filter_eq_nil_iff.mpr fun e he => by simpa using h e he
  rw [get?_run, hnil]
  rfl

/-- What every merge into a row of its key keeps, holds of every row. -/
theorem forall_run {P : K → R → Prop} {events : List E}
    (hmerge : ∀ e ∈ events, ∀ r : Option R, (∀ row, r = some row → P (p.key e) row) →
      P (p.key e) (p.merge e r))
    (hrows : ∀ k row, rows.get? k = some row → P k row) :
    ∀ k row, (p.run rows events).get? k = some row → P k row := by
  induction events generalizing rows with
  | nil => exact hrows
  | cons e events ih =>
    refine ih (fun e' he' => hmerge e' (List.mem_cons_of_mem _ he')) fun k row hrow => ?_
    rw [get?_step] at hrow
    split_ifs at hrow with hk
    · cases hrow
      subst hk
      exact hmerge e List.mem_cons_self _ (hrows _)
    · exact hrows k row hrow

/-! ### The keys of a history -/

/-- The keys of a history, each where it first occurs. -/
def firstKeys (p : Projector K E R) (events : List E) : List K :=
  events.foldl (fun keys e => if p.key e ∈ keys then keys else keys ++ [p.key e]) []

theorem keys_run (events : List E) : (p.run .empty events).keys = p.firstKeys events := by
  have hfold (rows : Dict K R) : (p.run rows events).keys =
      events.foldl (fun keys e => if p.key e ∈ keys then keys else keys ++ [p.key e]) rows.keys := by
    induction events generalizing rows with
    | nil => rfl
    | cons e events ih =>
      rw [List.foldl_cons, ← Dict.keys_insert rows (p.key e) (p.merge e (rows.get? (p.key e)))]
      exact ih (p.step rows e)
  exact hfold .empty

theorem mem_firstKeys {events : List E} : k ∈ p.firstKeys events ↔ k ∈ events.map p.key := by
  induction events using List.reverseRecOn with
  | nil => rfl
  | append_singleton events e ih =>
    have hlast : p.firstKeys (events ++ [e]) =
        if p.key e ∈ p.firstKeys events then p.firstKeys events else p.firstKeys events ++ [p.key e] := by
      rw [firstKeys, List.foldl_append]
      rfl
    rw [hlast, List.map_append, List.mem_append, ← ih, List.map_singleton, List.mem_singleton]
    split_ifs with h
    · exact ⟨.inl, fun hk => hk.elim id fun hk => hk ▸ h⟩
    · rw [List.mem_append, List.mem_singleton]

theorem length_firstKeys (events : List E) :
    (p.firstKeys events).length = (events.map p.key).toFinset.card := by
  have hnodup : (p.firstKeys events).Nodup := p.keys_run events ▸ (p.run .empty events).nodup
  rw [← List.toFinset_card_of_nodup hnodup]
  congr 1
  ext k
  rw [List.mem_toFinset, List.mem_toFinset, mem_firstKeys]

section View
variable (kind : E → κ)

/-- The kinds of the events of a key. -/
def kinds (p : Projector K E R) (k : K) (events : List E) : Finset κ :=
  ((events.filter (p.key · = k)).map kind).toFinset

theorem mem_kinds {events : List E} {c : κ} : c ∈ p.kinds kind k events ↔
    ∃ e ∈ events, p.key e = k ∧ kind e = c := by
  simp [kinds, and_assoc]

/-- What is seen of a row after a set of kinds: nothing after none. -/
def seen (view : Finset κ → V) (s : Finset κ) : Option V := if s = ∅ then none else some (view s)

theorem seen_insert (view : Finset κ → V) (c : κ) (s : Finset κ) :
    seen view (insert c s) = some (view (insert c s)) :=
  if_neg (Finset.insert_ne_empty c s)

theorem seen_eq_some {view : Finset κ → V} {s : Finset κ} {v : V} :
    some v = seen view s ↔ s ≠ ∅ ∧ v = view s := by
  unfold seen
  split_ifs with h
  · simp [h]
  · simp [h]

theorem seen_eq_none {view : Finset κ → V} {s : Finset κ} : none = seen view s ↔ s = ∅ := by
  unfold seen
  split_ifs with h
  · simp [h]
  · simp [h]

variable {kind} {view : R → V} {row : Finset κ → V} {events : List E}

/-- **A merge of kinds**: the events of the key only add their kind to what is seen of the row. -/
theorem view_run (hnew : rows.get? k = none)
    (hmerge : ∀ e ∈ events, p.key e = k → ∀ (r : Option R) (s : Finset κ), r.map view = seen row s →
      view (p.merge e r) = row (insert (kind e) s)) :
    ((p.run rows events).get? k).map view = seen row (p.kinds kind k events) := by
  rw [get?_run, hnew, kinds]
  have hfold (l : List E) (hl : ∀ e ∈ l, e ∈ events ∧ p.key e = k) (r : Option R) (s : Finset κ)
      (hr : r.map view = seen row s) :
      (l.foldl (fun row e => some (p.merge e row)) r).map view = seen row (s ∪ (l.map kind).toFinset) := by
    induction l generalizing r s with
    | nil => simpa using hr
    | cons e l ih =>
      obtain ⟨he, hk⟩ := hl e List.mem_cons_self
      have hnext : (some (p.merge e r)).map view = seen row (insert (kind e) s) := by
        rw [seen_insert, Option.map_some, hmerge e he hk r s hr]
      rw [List.foldl_cons, ih (fun e' he' => hl e' (List.mem_cons_of_mem _ he')) _ _ hnext]
      congr 1
      ext c
      simp only [Finset.mem_union, Finset.mem_insert, List.map_cons, List.toFinset_cons]
      tauto
  have := hfold (events.filter (p.key · = k)) (fun e he => by simpa using he) none ∅ (by simp [seen])
  rwa [Finset.empty_union] at this

end View

end Projector
