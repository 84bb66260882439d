import ApprovalFlow.Store.Group

/-!
# Dictionaries built from lists

* `Dict.comprehension`: `{key(a): value(a) for a in l}`, where a value may raise; `comprehension_ok`:
  what it holds.
* `Dict.ofList`: the same for values at hand; `get?_ofList`: the last value of a key.
* `Dict.update`: a counter counts the elements of a list; `mem_keys_counter`, `getD_counter`.
-/

namespace Dict
variable {A K V ε : Type} [DecidableEq K]

def ofList (items : List (K × V)) : Dict K V := items.foldl (fun d p => d.insert p.1 p.2) .empty

def comprehension (key : A → K) (value : A → Except ε V) (l : List A) : Except ε (Dict K V) :=
  l.foldlM (fun d a => do
    let v ← value a
    return d.insert (key a) v) .empty

/-- `counter.update(l)`. -/
def update (counts : Dict K ℕ) (l : List K) : Dict K ℕ :=
  l.foldl (fun counts k => counts.insert k ((counts.get? k).getD 0 + 1)) counts

/-- `Counter(l)`. -/
def counter (l : List K) : Dict K ℕ := update .empty l

theorem mem_keys_insert (d : Dict K V) (k k' : K) (v : V) :
    k' ∈ (d.insert k v).keys ↔ k' = k ∨ k' ∈ d.keys :=
  mem_keys_upsert k k' v d.items

theorem mem_keys_of_get? {d : Dict K V} {k : K} {v : V} (h : d.get? k = some v) : k ∈ d.keys := by
  rw [mem_keys, h]
  exact Option.some_ne_none v

theorem get?_of_mem_keys {d : Dict K V} {k : K} (h : k ∈ d.keys) : ∃ v, d.get? k = some v :=
  Option.ne_none_iff_exists'.mp ((d.mem_keys k).mp h)

/-- The last value of a key. -/
theorem get?_ofList (items : List (K × V)) (k : K) :
    (ofList items).get? k = (items.reverse.find? (·.1 = k)).map Prod.snd := by
  induction items using List.reverseRecOn with
  | nil => rfl
  | append_singleton items p ih =>
    have hlast : ofList (items ++ [p]) = (ofList items).insert p.1 p.2 := by
      unfold ofList
      rw [List.foldl_append]
      rfl
    rw [hlast, get?_insert, List.reverse_append, List.reverse_singleton,
      List.singleton_append, List.find?_cons]
    by_cases hk : k = p.1
    · subst hk
      simp
    · rw [if_neg hk, ih, decide_eq_false (Ne.symm hk)]

theorem mem_keys_ofList (items : List (K × V)) (k : K) :
    k ∈ (ofList items).keys ↔ k ∈ items.map Prod.fst := by
  rw [mem_keys, get?_ofList, ne_eq, Option.map_eq_none_iff, List.find?_eq_none]
  simp

/-- **A comprehension** whose values do not raise: every key, with a value of one of its elements. -/
theorem comprehension_ok (key : A → K) (value : A → Except ε V) {l : List A}
    (h : ∀ a ∈ l, ∃ v, value a = .ok v) :
    ∃ d, comprehension key value l = .ok d ∧ (∀ k, k ∈ d.keys ↔ k ∈ l.map key) ∧
      ∀ k v, d.get? k = some v → ∃ a ∈ l, key a = k ∧ value a = .ok v := by
  induction l using List.reverseRecOn with
  | nil => exact ⟨.empty, rfl, fun k => by simp, fun k v hv => by cases hv⟩
  | append_singleton l a ih =>
    obtain ⟨d, hd, hkeys, hget⟩ := ih fun a ha => h a (List.mem_append_left _ ha)
    obtain ⟨v, hv⟩ := h a (by simp)
    refine ⟨d.insert (key a) v, ?_, fun k => ?_, fun k v' hv' => ?_⟩
    · unfold comprehension at hd ⊢
      rw [Grouping.foldlM_concat, hd]
      show (value a).bind _ = _
      rw [hv]
      rfl
    · rw [mem_keys_insert, hkeys, List.map_append, List.mem_append, List.map_singleton,
        List.mem_singleton, or_comm]
    · rw [get?_insert] at hv'
      split_ifs at hv' with hk
      · cases hv'
        exact ⟨a, by simp, hk.symm, hv⟩
      · obtain ⟨a', ha', hkey, hvalue⟩ := hget k v' hv'
        exact ⟨a', List.mem_append_left _ ha', hkey, hvalue⟩

/-! ## Counters -/

theorem update_append (counts : Dict K ℕ) (l l' : List K) :
    counts.update (l ++ l') = (counts.update l).update l' :=
  List.foldl_append

theorem counter_concat (l : List K) (a : K) :
    counter (l ++ [a]) = (counter l).insert a (((counter l).get? a).getD 0 + 1) :=
      update_append .empty l [a]

theorem mem_keys_counter (l : List K) (k : K) : k ∈ (counter l).keys ↔ k ∈ l := by
  induction l using List.reverseRecOn with
  | nil => simp [counter, update]
  | append_singleton l a ih =>
    rw [counter_concat, mem_keys_insert, ih, List.mem_append, List.mem_singleton, or_comm]

/-- How often an element was counted. -/
theorem getD_counter (l : List K) (k : K) : ((counter l).get? k).getD 0 = l.count k := by
  induction l using List.reverseRecOn with
  | nil => rfl
  | append_singleton l a ih =>
    rw [counter_concat, get?_insert, List.count_append, List.count_singleton]
    by_cases hk : k = a
    · subst hk
      rw [if_pos rfl, Option.getD_some, ih]
      simp
    · rw [if_neg hk, ih, if_neg (by simpa using Ne.symm hk), add_zero]

end Dict
