import Mathlib.Data.List.Basic
import Mathlib.Order.Nat

/-!
# A versioned key-value store

A store with optimistic concurrency: every key carries an etag, reads return it, and a transaction of
writes commits only if each etag it supplies is current.

* `Versioned.Store V`: cells by key; the etag of a key is the number of writes it has seen, `0` (the
  empty etag) when the key is absent. Etags are never reused and keys never deleted.
* `Store.get`, `Store.transact`: the read, and the conditional multi-key write (`none` when it is
  refused).
* `Evolves s s'`: what any number of commits can do; `Evolves.value_eq`: a key whose etag did not change
  holds the same value, the fact that optimistic retry loops rest on.
* `Store.map`: the image of a store; a store and its image take the same transactions.
* `Op`, `Op.perform`: the store's operations, with the ways a request and its reply can be lost.
-/

namespace Versioned

/-- A cell: its value and how often it was overwritten. -/
structure Cell (V : Type) where
  value : V
  rewrites : Nat
  deriving DecidableEq

structure Store (V : Type) where
  cells : String → Option (Cell V)

/-- A write of a transaction; without an etag it is unconditional. -/
structure Write (V : Type) where
  key : String
  data : V
  etag : Option Nat := none

def Write.map {V W : Type} (f : V → W) (w : Write V) : Write W := ⟨w.key, f w.data, w.etag⟩

namespace Store
variable {V : Type}

def empty : Store V := ⟨fun _ => none⟩

def value (s : Store V) (k : String) : Option V := (s.cells k).map Cell.value

/-- The etag of a key; `0` is the empty etag, of an absent key. -/
def etag (s : Store V) (k : String) : Nat :=
  match s.cells k with
  | none => 0
  | some c => c.rewrites + 1

/-- `get_state`: the value and the current etag. -/
def get (s : Store V) (k : String) : Option V × Nat := (s.value k, s.etag k)

def put (s : Store V) (k : String) (v : V) : Store V :=
  ⟨fun k' => if k' = k then some ⟨v, s.etag k⟩ else s.cells k'⟩

/-- Every supplied etag is current. -/
def Current (s : Store V) (ws : List (Write V)) : Prop := ∀ w ∈ ws, ∀ e, w.etag = some e → s.etag w.key = e

instance (s : Store V) (w : Write V) : Decidable (∀ e, w.etag = some e → s.etag w.key = e) :=
  match h : w.etag with
  | none => .isTrue fun _ he => by cases he
  | some e => decidable_of_iff (s.etag w.key = e) ⟨fun h' _ he => by cases he; exact h', fun h' => h' e rfl⟩

instance (s : Store V) (ws : List (Write V)) : Decidable (s.Current ws) :=
  inferInstanceAs (Decidable (∀ w ∈ ws, ∀ e, w.etag = some e → s.etag w.key = e))

/-- The writes in order, unconditionally. -/
def puts (s : Store V) (ws : List (Write V)) : Store V := ws.foldl (fun s w => s.put w.key w.data) s

/-- `execute_state_transaction`: all writes or none. -/
def transact (s : Store V) (ws : List (Write V)) : Option (Store V) :=
  if s.Current ws then some (s.puts ws) else none

@[simp] theorem value_empty (k : String) : (empty : Store V).value k = none := rfl

@[simp] theorem puts_nil (s : Store V) : s.puts [] = s := rfl

@[simp] theorem puts_cons (s : Store V) (w : Write V) (ws : List (Write V)) :
    s.puts (w :: ws) = (s.put w.key w.data).puts ws := rfl

@[simp] theorem value_put_self (s : Store V) (k : String) (v : V) : (s.put k v).value k = some v := by
  simp [put, value]

theorem value_put_ne (s : Store V) {k k' : String} (v : V) (h : k' ≠ k) :
    (s.put k v).value k' = s.value k' := by
  simp [put, value, h]

theorem value_put (s : Store V) (k k' : String) (v : V) :
    (s.put k v).value k' = if k' = k then some v else s.value k' := by
  split_ifs with h
  · rw [h, value_put_self]
  · exact value_put_ne s v h

@[simp] theorem etag_put_self (s : Store V) (k : String) (v : V) : (s.put k v).etag k = s.etag k + 1 := by
  simp [put, etag]

theorem cells_put_ne (s : Store V) {k k' : String} (v : V) (h : k' ≠ k) :
    (s.put k v).cells k' = s.cells k' := by
  simp [put, h]

theorem mem_of_value_puts {s : Store V} {ws : List (Write V)} {k : String} {v : V}
    (h : (s.puts ws).value k = some v) : s.value k = some v ∨ ∃ w ∈ ws, w.key = k ∧ w.data = v := by
  induction ws generalizing s with
  | nil => exact .inl h
  | cons w ws ih =>
    rcases ih h with h | ⟨u, hu, hkey⟩
    · rw [value_put] at h
      split_ifs at h with hk
      · exact .inr ⟨w, List.mem_cons_self, hk.symm, Option.some.inj h⟩
      · exact .inl h
    · exact .inr ⟨u, List.mem_cons_of_mem _ hu, hkey⟩

theorem etag_eq_zero {s : Store V} {k : String} : s.etag k = 0 ↔ s.value k = none := by
  unfold etag value
  cases s.cells k <;> simp

theorem transact_eq_some {s s' : Store V} {ws : List (Write V)} :
    s.transact ws = some s' ↔ s.Current ws ∧ s' = s.puts ws := by
  unfold transact
  split_ifs with h
  · simp [h, eq_comm]
  · simp [h]

theorem transact_eq_none {s : Store V} {ws : List (Write V)} : s.transact ws = none ↔ ¬ s.Current ws := by
  unfold transact
  split_ifs with h <;> simp [h]

theorem current_single {s : Store V} {k : String} {v : V} {e : Nat} :
    s.Current [⟨k, v, some e⟩] ↔ s.etag k = e := by
  simp [Current]

/-! ## Images -/

section Map
variable {W : Type} (f : V → W)

/-- The store with the image of every value. -/
def map (s : Store V) : Store W := ⟨fun k => (s.cells k).map fun c => ⟨f c.value, c.rewrites⟩⟩

variable {f} (s : Store V)

theorem value_map (k : String) : (s.map f).value k = (s.value k).map f := by
  simp only [map, value, Option.map_map]
  rfl

theorem etag_map (k : String) : (s.map f).etag k = s.etag k := by
  simp only [map, etag]
  cases s.cells k <;> rfl

theorem map_put (k : String) (v : V) : (s.put k v).map f = (s.map f).put k (f v) := by
  have hcells (k' : String) : ((s.put k v).map f).cells k' = ((s.map f).put k (f v)).cells k' := by
    simp only [put, map]
    split_ifs
    · rw [Option.map_some, ← etag_map s k]
      rfl
    · rfl
  exact congrArg mk (funext hcells)

theorem map_puts (ws : List (Write V)) : (s.puts ws).map f = (s.map f).puts (ws.map (Write.map f)) := by
  induction ws generalizing s with
  | nil => rfl
  | cons w ws ih =>
    rw [puts_cons, ih, map_put]
    rfl

theorem current_map (ws : List (Write V)) : (s.map f).Current (ws.map (Write.map f)) ↔ s.Current ws := by
  simp only [Current, List.forall_mem_map, Write.map, etag_map]

end Map

/-! ## Evolution -/

/-- Every key kept its etag and its cell, or has a later etag. -/
def Evolves (s s' : Store V) : Prop := ∀ k, s.cells k = s'.cells k ∨ s.etag k < s'.etag k

theorem Evolves.refl (s : Store V) : s.Evolves s := fun _ => .inl rfl

theorem etag_congr {s s' : Store V} {k : String} (h : s.cells k = s'.cells k) : s.etag k = s'.etag k := by
  simp [etag, h]

theorem value_congr {s s' : Store V} {k : String} (h : s.cells k = s'.cells k) :
    s.value k = s'.value k := by
  simp [value, h]

theorem Evolves.trans {s₁ s₂ s₃ : Store V} (h₁ : s₁.Evolves s₂) (h₂ : s₂.Evolves s₃) : s₁.Evolves s₃ := by
  intro k
  rcases h₁ k with h₁ | h₁ <;> rcases h₂ k with h₂ | h₂
  · exact .inl (h₁.trans h₂)
  · exact .inr (by rw [etag_congr h₁]; exact h₂)
  · exact .inr (by rw [← etag_congr h₂]; exact h₁)
  · exact .inr (lt_trans h₁ h₂)

theorem Evolves.etag_le {s s' : Store V} (h : s.Evolves s') (k : String) : s.etag k ≤ s'.etag k := by
  rcases h k with h | h
  · exact le_of_eq (etag_congr h)
  · exact le_of_lt h

/-- A key whose etag did not change holds the same value. -/
theorem Evolves.value_eq {s s' : Store V} (h : s.Evolves s') {k : String} (he : s'.etag k = s.etag k) :
    s'.value k = s.value k := by
  rcases h k with h | h
  · exact (value_congr h).symm
  · omega

theorem evolves_put (s : Store V) (k : String) (v : V) : s.Evolves (s.put k v) := by
  intro k'
  by_cases h : k' = k
  · subst h
    exact .inr (by rw [etag_put_self]; exact Nat.lt_succ_self _)
  · exact .inl (cells_put_ne s v h).symm

theorem evolves_puts (s : Store V) (ws : List (Write V)) : s.Evolves (s.puts ws) := by
  induction ws generalizing s with
  | nil => exact .refl s
  | cons w ws ih => exact (evolves_put s w.key w.data).trans (ih _)

theorem evolves_transact {s s' : Store V} {ws : List (Write V)}
    (h : s.transact ws = some s') : s.Evolves s' := by
  obtain ⟨-, rfl⟩ := transact_eq_some.mp h
  exact evolves_puts s ws

end Store

/-! ## Operations -/

inductive Op (V : Type)
  | get (key : String)
  | transact (writes : List (Write V))

@[reducible] def Op.Reply {V : Type} : Op V → Type
  | get _ => Option V × Nat
  | transact _ => Unit

/-- What becomes of a request: it is served, it is refused without effect, or it is served and the reply
is lost. -/
inductive Reception
  | serve
  | refuse
  | lose
  deriving DecidableEq, Repr

/-- An operation on the store; `refused` is the exception of a refused request, of a lost reply, and of a
transaction whose etags are stale. -/
def Op.perform {V ε : Type} (refused : ε) : Reception → (o : Op V) → Store V → Except ε o.Reply × Store V
  | .serve, .get k, s => (.ok (s.get k), s)
  | .serve, .transact ws, s =>
    match s.transact ws with
    | some s' => (.ok (), s')
    | none => (.error refused, s)
  | .lose, .transact ws, s => (.error refused, (s.transact ws).getD s)
  | _, _, s => (.error refused, s)

theorem Op.evolves_perform {V ε : Type} (refused : ε) (c : Reception) (o : Op V) (s : Store V) :
    s.Evolves (o.perform refused c s).2 := by
  cases o with
  | get k => cases c <;> exact .refl s
  | transact ws =>
    cases h : s.transact ws with
    | none => cases c <;> simp only [perform, h, Option.getD_none] <;> exact .refl s
    | some s' =>
      have hs := Store.evolves_transact h
      cases c <;> simp only [perform, h, Option.getD_some]
      · exact hs
      · exact .refl s
      · exact hs

section Transactions
variable {V ε : Type} {refused : ε} {s : Store V} {ws : List (Write V)}

theorem Op.perform_current (h : s.Current ws) :
    (Op.transact ws).perform refused .serve s = (.ok (), s.puts ws) := by
  simp only [perform, Store.transact_eq_some.mpr ⟨h, rfl⟩]

theorem Op.perform_lost (h : s.Current ws) :
    (Op.transact ws).perform refused .lose s = (.error refused, s.puts ws) := by
  simp only [perform, Store.transact_eq_some.mpr ⟨h, rfl⟩, Option.getD_some]

theorem Op.perform_stale (h : ¬ s.Current ws) (c : Reception) :
    (Op.transact ws).perform refused c s = (.error refused, s) := by
  cases c with
  | serve => simp only [perform, Store.transact_eq_none.mpr h]
  | refuse => rfl
  | lose => simp only [perform, Store.transact_eq_none.mpr h, Option.getD_none]

/-- Two transactions with one image, on two stores with one image, come to the same. -/
theorem Op.transact_map {W : Type} {f : V → W} {s' : Store V} {ws' : List (Write V)} {refused' : ε}
    (hs : s.map f = s'.map f) (hws : ws.map (Write.map f) = ws'.map (Write.map f)) (c : Reception) :
    ((Op.transact ws).perform refused c s).2.map f = ((Op.transact ws').perform refused' c s').2.map f ∧
      (((Op.transact ws).perform refused c s).1 = .ok () ∧
        ((Op.transact ws').perform refused' c s').1 = .ok () ∨
        ((Op.transact ws).perform refused c s).1 = .error refused ∧
          ((Op.transact ws').perform refused' c s').1 = .error refused') := by
  have hcurrent : s.Current ws ↔ s'.Current ws' := by rw [← s.current_map (f := f), hs, hws, s'.current_map]
  have hputs : (s.puts ws).map f = (s'.puts ws').map f := by rw [s.map_puts, s'.map_puts, hs, hws]
  by_cases h : s.Current ws
  · have h' := hcurrent.mp h
    cases c with
    | serve =>
      rw [perform_current h, perform_current h']
      exact ⟨hputs, .inl ⟨rfl, rfl⟩⟩
    | refuse => exact ⟨hs, .inr ⟨rfl, rfl⟩⟩
    | lose =>
      rw [perform_lost h, perform_lost h']
      exact ⟨hputs, .inr ⟨rfl, rfl⟩⟩
  · rw [perform_stale h, perform_stale fun h' => h (hcurrent.mpr h')]
    exact ⟨hs, .inr ⟨rfl, rfl⟩⟩

theorem Op.transact_cases (refused : ε) (c : Reception) (ws : List (Write V)) (s : Store V) :
    c = .serve ∧ s.Current ws ∧ (Op.transact ws).perform refused c s = (.ok (), s.puts ws) ∨
      c = .lose ∧ s.Current ws ∧ (Op.transact ws).perform refused c s = (.error refused, s.puts ws) ∨
        (Op.transact ws).perform refused c s = (.error refused, s) := by
  by_cases h : s.Current ws
  · cases c with
    | serve => exact .inl ⟨rfl, h, perform_current h⟩
    | refuse => exact .inr (.inr rfl)
    | lose => exact .inr (.inl ⟨rfl, h, perform_lost h⟩)
  · exact .inr (.inr (perform_stale h c))

/-- An operation leaves the store, or it is a transaction that commits. -/
theorem Op.perform_store (refused : ε) (c : Reception) (o : Op V) (s : Store V) :
    (o.perform refused c s).2 = s ∨
      ∃ ws, o = .transact ws ∧ c ≠ .refuse ∧ s.Current ws ∧ (o.perform refused c s).2 = s.puts ws := by
  cases o with
  | get k => cases c <;> exact .inl rfl
  | transact ws =>
    obtain ⟨rfl, h, hexec⟩ | ⟨rfl, h, hexec⟩ | hexec := transact_cases refused c ws s
    · exact .inr ⟨ws, rfl, by decide, h, congrArg Prod.snd hexec⟩
    · exact .inr ⟨ws, rfl, by decide, h, congrArg Prod.snd hexec⟩
    · exact .inl (congrArg Prod.snd hexec)

theorem Op.puts_of_ok {c : Reception} (h : ((Op.transact ws).perform refused c s).1 = .ok ()) :
    ((Op.transact ws).perform refused c s).2 = s.puts ws := by
  obtain ⟨-, -, hexec⟩ | ⟨-, -, hexec⟩ | hexec := transact_cases refused c ws s
  · rw [hexec]
  · rw [hexec] at h
    cases h
  · rw [hexec] at h
    cases h

end Transactions

end Versioned
