import ApprovalFlow.Async.Refine
import ApprovalFlow.Shared.IndexIntegrity

/-!
# The Dapr repositories as dictionaries

What a repository over the state store does in several requests is one operation on a dictionary, if
requests may be refused but no reply is lost.

* `Exn.SameClass`: exceptions up to the texts of the repositories.
* `Serves`: a client whose requests are answered from the store, or refused.
* `refines_getState`, `refines_transact`: the rules of its two calls.
* `refines_save`, `refines_get`: the methods of a repository with an index.
-/

namespace ApprovalFlow
open Async Async.Coupling Versioned

/-- Exceptions that differ at most in what a repository says of its failure. -/
inductive Exn.SameClass : Exn → Exn → Prop
  | refl (e : Exn) : SameClass e e
  | paymentRepositoryError (failure failure' : Failure) :
      SameClass (.paymentRepositoryError failure) (.paymentRepositoryError failure')
  | budgetRepositoryError (failure failure' : Failure) :
      SameClass (.budgetRepositoryError failure) (.budgetRepositoryError failure')
  | approvalRepositoryError (failure failure' : Failure) :
      SameClass (.approvalRepositoryError failure) (.approvalRepositoryError failure')

/-- The same value, or exceptions of one class. -/
abbrev SameReply {α : Type} : Except Exn α → Except Exn α → Prop := Both Eq Exn.SameClass

theorem SameReply.refl {α : Type} (r : Except Exn α) : SameReply r r := by
  cases r with
  | ok a => exact Eq.refl a
  | error e => exact Exn.SameClass.refl e

variable {σ τ : Sig} {S T C D V R α β : Type} {L : Levels σ τ Exn S T C D}
    {client : StateClient σ V} {store : S → Store V}
  {withStore : S → Store V → S}

/-- Every request is answered from the store of the state, or refused without effect. -/
structure Serves (L : Levels σ τ Exn S T C D) (client : StateClient σ V) (store : S → Store V)
    (withStore : S → Store V → S) : Prop where
  getState : ∀ key, ∃ o k, client.getState key = .await o k ∧ ∀ c s, (L.exec c o s).2 = s ∧
    (k (L.exec c o s).1 = .ret ((store s).get key) ∨
      ∃ details, k (L.exec c o s).1 = .raise (.rpcError details))
  executeStateTransaction : ∀ ws, ∃ o k, client.executeStateTransaction ws = .await o k ∧ ∀ c s,
    (store s).Current ws ∧ (L.exec c o s).2 = withStore s ((store s).puts ws) ∧
      k (L.exec c o s).1 = .ret () ∨
      (L.exec c o s).2 = s ∧ ∃ details, k (L.exec c o s).1 = .raise (.rpcError details)
  evolves : ∀ {s s'}, L.Evolves s s' → (store s).Evolves (store s')

namespace Serves
variable {q : Prog τ Exn β} {s : S} {Φ : Except Exn α → Except Exn β → Prop}

/-- **A read**: what is done with the value, and with a refusal. -/
theorem refines_getState (hclient : Serves L client store withStore) {key : String}
    {f : Except Exn (Option V × ℕ) → Prog σ Exn α} (hq : q.result? = none)
    (hread : ∀ s₁ t, L.Evolves s s₁ → L.Rep s₁ t → L.Refines (f (.ok ((store s₁).get key))) q s₁ Φ ∨
      ∃ r, L.Performs q t r t ∧ L.Refines (f (.ok ((store s₁).get key))) (.ofExcept r) s₁ Φ)
    (hrefused : ∀ s₁ t details, L.Rep s₁ t →
      ∃ r, L.Performs q t r t ∧ L.Refines (f (.error (.rpcError details))) (.ofExcept r) s₁ Φ) :
    L.Refines ((client.getState key).attempt f) q s Φ := by
  obtain ⟨o, k, hawait, hexec⟩ := hclient.getState key
  rw [hawait]
  refine Levels.refines_await hq fun s₁ t c hev hrep => ?_
  obtain ⟨hstate, hk | ⟨details, hk⟩⟩ := hexec c s₁
  · rw [hstate, hk]
    exact (hread s₁ t hev hrep).imp (fun h => ⟨hrep, h⟩) fun ⟨r, hr, h⟩ => ⟨r, t, hr, hrep, h⟩
  · rw [hstate, hk]
    obtain ⟨r, hr, h⟩ := hrefused s₁ t details hrep
    exact .inr ⟨r, t, hr, hrep, h⟩

/-- **A conditional write**: it commits as a step of `q`, or fails. -/
theorem refines_transact (hclient : Serves L client store withStore) {ws : List (Write V)}
    {f : Except Exn Unit → Prog σ Exn α} (hq : q.result? = none)
    (hcommit : ∀ s₁ t, L.Evolves s s₁ → L.Rep s₁ t → (store s₁).Current ws →
      ∃ r t', L.Performs q t r t' ∧ L.Rep (withStore s₁ ((store s₁).puts ws)) t' ∧
        L.Refines (f (.ok ())) (.ofExcept r) (withStore s₁ ((store s₁).puts ws)) Φ)
    (hfail : ∀ s₁ t details, L.Evolves s s₁ → L.Rep s₁ t →
      L.Refines (f (.error (.rpcError details))) q s₁ Φ ∨
      ∃ r, L.Performs q t r t ∧ L.Refines (f (.error (.rpcError details))) (.ofExcept r) s₁ Φ) :
    L.Refines ((client.executeStateTransaction ws).attempt f) q s Φ := by
  obtain ⟨o, k, hawait, hexec⟩ := hclient.executeStateTransaction ws
  rw [hawait]
  refine Levels.refines_await hq fun s₁ t c hev hrep => ?_
  obtain ⟨hcurrent, hstate, hk⟩ | ⟨hstate, details, hk⟩ := hexec c s₁
  · rw [hstate, hk]
    exact .inr (hcommit s₁ t hev hrep hcurrent)
  · rw [hstate, hk]
    exact (hfail s₁ t details hev hrep).imp (fun h => ⟨hrep, h⟩) fun ⟨r, hr, h⟩ => ⟨r, t, hr, hrep, h⟩

end Serves

/-! ## A repository with an index -/

namespace IndexedState
variable {layout : IndexedLayout V R} {s : S}

/-- The other keys of the store do not matter. -/
theorem Mirrors.congr {d : Dict String R} {s s' : Store V} (h : Mirrors layout s d)
    (hs : ∀ t, s'.value (layout.key t) = s.value (layout.key t)) : Mirrors layout s' d where
  record t ht := (hs t).trans (h.record t ht)
  index := (congrArg (ids layout) (hs "index")).trans h.index
  keyed := h.keyed

/-- What a method raises where the store fails. -/
def Raises (layout : IndexedLayout V R) (e : Exn) : Prop :=
  (∃ details, e = layout.readIndexError details) ∨ (∃ details, e = layout.readError details) ∨
    ∃ trackingId, e = layout.retriesError trackingId

/-- An abstract operation may fail as the repository does. -/
def MayFail (L : Levels σ τ Exn S T C D) (layout : IndexedLayout V R) (q : Prog τ Exn β) : Prop :=
  ∀ t e, Raises layout e → ∃ e', L.Performs q t (.error e') t ∧ e.SameClass e'

/-- An attempt of a save; where its write fails, it goes on with `retry`. -/
def saveAttempt (client : StateClient σ V) (layout : IndexedLayout V R) (r : R) (retry : Prog σ Exn Unit) :
    Prog σ Exn Unit :=
  (client.getState layout.indexKey).attempt (StateClient.afterRead layout.readIndexError fun response =>
    (client.executeStateTransaction (writes layout r (ids layout response.1) response.2)).attempt
      (StateClient.afterWrite retry))

/-- **A save** inserts its record, where it commits. -/
theorem refines_save (hclient : Serves L client store withStore) {r : R} {q : Prog τ Exn Unit}
    (hq : q.result? = none) (hfail : MayFail L layout q)
    (hdone : ∀ s t etag, L.Rep s t → ∃ t', L.Performs q t (.ok ()) t' ∧
      L.Rep (withStore s ((store s).puts (writes layout r (index layout (store s)) etag))) t') :
    L.Refines (save client layout r) q s SameReply := by
  have hraise {s₁ t e} (he : Raises layout e) : ∃ r, L.Performs q t r t ∧
      L.Refines (.raise e : Prog σ Exn Unit) (.ofExcept r) s₁ SameReply := by
    obtain ⟨e', hperforms, hclass⟩ := hfail t e he
    exact ⟨_, hperforms, hclass⟩
  refine Levels.refines_retries (saveAttempt client layout r) (saveLoop_succ client layout r)
    (fun retry s hretry => ?_) (fun s₁ t _ => hraise (.inr (.inr ⟨_, rfl⟩))) 4 s
  refine hclient.refines_getState hq (fun s₁ t hev hrep => .inl ?_) fun s₁ t details _ =>
    hraise (.inl ⟨details, rfl⟩)
  refine hclient.refines_transact hq (fun s₂ t₂ hev₂ hrep₂ hcurrent => ?_) fun s₂ t₂ _ _ hrep₂ =>
    hretry s₂ t₂ hrep₂
  -- the index is still the one that was read
  have hvalue := (hclient.evolves hev₂).value_eq (current_writes (store s₂) r _ _ |>.mp hcurrent)
  have hindex : ids layout ((store s₁).get layout.indexKey).1 = index layout (store s₂) := by
    rw [index, hvalue]
    rfl
  rw [hindex]
  obtain ⟨t', hperforms, hrep'⟩ := hdone s₂ t₂ ((store s₁).get layout.indexKey).2 hrep₂
  exact ⟨_, t', hperforms, hrep', rfl⟩

/-- **A read** finds the record of the dictionary. -/
theorem refines_get (hclient : Serves L client store withStore) (law : layout.Lawful)
    (dict : T → Dict String R)
    (hmirrors : ∀ {s t}, L.Rep s t → Mirrors layout (store s) (dict t)) {trackingId : String}
    (ht : trackingId ≠ "index")
    {q : Prog τ Exn (Option R)} (hq : q.result? = none) (hfail : MayFail L layout q)
    (hfound : ∀ t, L.Performs q t (.ok ((dict t).get? trackingId)) t) :
    L.Refines (get client layout trackingId) q s
      (Both (fun a b => a = b ∧ ∀ r, a = some r → layout.trackingId r = trackingId) Exn.SameClass) := by
  rw [get_eq]
  refine hclient.refines_getState hq (fun s₁ t hev hrep => .inr ⟨_, hfound t, ?_⟩) fun s₁ t details _ => ?_
  · have hrecord := (hmirrors hrep).record trackingId ht
    have hread : found layout ((store s₁).get (layout.key trackingId)).1 =
        .ok ((dict t).get? trackingId) := by
      show found layout ((store s₁).value (layout.key trackingId)) = _
      rw [hrecord]
      cases (dict t).get? trackingId with
      | none => rfl
      | some r => simp [found, law.toRecord_record, Except.map]
    show L.Refines (.ofExcept (found layout ((store s₁).get (layout.key trackingId)).1)) _ s₁ _
    rw [hread]
    exact ⟨rfl, fun r hr => ((hmirrors hrep).keyed trackingId r hr).1⟩
  · obtain ⟨e', hperforms, hclass⟩ := hfail t _ (.inr (.inl ⟨details, rfl⟩))
    exact ⟨_, hperforms, hclass⟩

end IndexedState

end ApprovalFlow
