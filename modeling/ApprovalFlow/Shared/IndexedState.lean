import ApprovalFlow.Shared.StateClient

/-!
# Records with an index

The repositories of Approval and Payment keep every record under a key of its own and the ids of all
records in an index. A record and the index are written in one transaction, which is conditional on the
index only.

* `IndexedLayout`: the keys, documents and exceptions of one repository.
* `IndexedState.save`, `get`, `listAll`: its methods.
-/

namespace ApprovalFlow
open Async

/-- The layout of the documents `V` of a store that holds records `R`. -/
structure IndexedLayout (V R : Type) where
  keyPrefix : String
  trackingId : R → String
  record : R → V
  index : List String → V
  /-- `model_validate_json` -/
  toRecord : V → Except Exn R
  /-- `list(json.loads(raw))` -/
  toIndex : V → List String
  readIndexError : String → Exn
  readError : String → Exn
  retriesError : String → Exn

namespace IndexedLayout
variable {V R : Type} (layout : IndexedLayout V R)

def key (trackingId : String) : String := layout.keyPrefix ++ trackingId

def indexKey : String := layout.key "index"

end IndexedLayout

/-- The index with an id, each id once. -/
def appendId (ids : List String) (trackingId : String) : List String :=
  if trackingId ∈ ids then ids else ids ++ [trackingId]

namespace IndexedState
variable {σ : Sig} {V R : Type} (client : StateClient σ V) (layout : IndexedLayout V R)

/-- `_read_index`. -/
def readIndex : Prog σ Exn (List String × Nat) := do
  let response ← client.read layout.readIndexError layout.indexKey
  match response.1 with
  | none => return ([], response.2)
  | some data => return (layout.toIndex data, response.2)

/-- The transaction of a save, for the index that was read. -/
def writes (r : R) (ids : List String) (etag : Nat) : List (Versioned.Write V) :=
  [⟨layout.key (layout.trackingId r), layout.record r, none⟩,
    ⟨layout.indexKey, layout.index (appendId ids (layout.trackingId r)), some etag⟩]

/-- The attempts that are left of a save. -/
def saveLoop (r : R) : Nat → Prog σ Exn Unit
  | 0 => .raise (layout.retriesError (layout.trackingId r))
  | n + 1 => do
    let (ids, etag) ← readIndex client layout
    client.write (writes layout r ids etag) (saveLoop r n)

def save (r : R) : Prog σ Exn Unit := saveLoop client layout r maxRetries

def get (trackingId : String) : Prog σ Exn (Option R) := do
  let response ← client.read layout.readError (layout.key trackingId)
  match response.1 with
  | none => return none
  | some data => some <$> Prog.ofExcept (layout.toRecord data)

/-- The stored records of these ids. -/
def getAll : List String → Prog σ Exn (List R)
  | [] => return []
  | t :: ids => do
    let r ← get client layout t
    let rest ← getAll ids
    return r.toList ++ rest

def listAll : Prog σ Exn (List R) := do
  let (ids, _) ← readIndex client layout
  getAll client layout ids

/-! ## The methods, as tries -/

/-- What a read of the index returns. -/
def ids : Option V → List String
  | none => []
  | some data => layout.toIndex data

theorem saveLoop_succ (r : R) (n : Nat) :
    saveLoop client layout r (n + 1) =
      (client.getState layout.indexKey).attempt (StateClient.afterRead layout.readIndexError fun response =>
        (client.executeStateTransaction (writes layout r (ids layout response.1) response.2)).attempt
          (StateClient.afterWrite (saveLoop client layout r n))) := by
  rw [saveLoop, readIndex, client.read_bind, Prog.bind_eq, Prog.attempt_assoc]
  refine Prog.attempt_congr fun reply => ?_
  rcases reply with e | ⟨data, etag⟩
  · rfl
  · cases data <;> exact client.write_eq _ _

/-- What a read of a record returns. -/
def found : Option V → Except Exn (Option R)
  | none => .ok none
  | some data => (layout.toRecord data).map some

theorem get_eq (trackingId : String) :
    get client layout trackingId = (client.getState (layout.key trackingId)).attempt
      (StateClient.afterRead layout.readError fun response => .ofExcept (found layout response.1)) := by
  rw [get, client.read_bind]
  refine Prog.attempt_congr fun reply => ?_
  rcases reply with e | ⟨data, etag⟩
  · rfl
  · cases data with
    | none => rfl
    | some data =>
      show some <$> Prog.ofExcept (layout.toRecord data) = Prog.ofExcept ((layout.toRecord data).map some)
      cases layout.toRecord data <;> rfl

/-! ## What a save writes -/

section Writes
variable {layout} (s : Versioned.Store V) (r : R) (ids : List String) (etag : Nat)

theorem key_inj {t t' : String} : layout.key t = layout.key t' ↔ t = t' :=
  String.append_right_inj layout.keyPrefix

theorem value_writes (t : String) :
    (s.puts (writes layout r ids etag)).value (layout.key t) =
      if t = "index" then some (layout.index (appendId ids (layout.trackingId r)))
      else if t = layout.trackingId r then some (layout.record r) else s.value (layout.key t) := by
  show ((s.put (layout.key (layout.trackingId r)) (layout.record r)).put (layout.key "index")
    (layout.index (appendId ids (layout.trackingId r)))).value (layout.key t) = _
  rw [Versioned.Store.value_put, Versioned.Store.value_put]
  simp only [key_inj]

theorem value_writes_of_ne {k : String} (hk : ∀ t, k ≠ layout.key t) :
    (s.puts (writes layout r ids etag)).value k = s.value k := by
  show ((s.put (layout.key (layout.trackingId r)) (layout.record r)).put (layout.key "index") _).value k = _
  rw [Versioned.Store.value_put_ne _ _ (hk _), Versioned.Store.value_put_ne _ _ (hk _)]

/-- A save checks the etag of the index, and nothing else. -/
theorem current_writes : s.Current (writes layout r ids etag) ↔ s.etag layout.indexKey = etag := by
  simp [Versioned.Store.Current, writes]

end Writes

end IndexedState

end ApprovalFlow
