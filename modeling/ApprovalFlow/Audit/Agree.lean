import ApprovalFlow.Audit.OrderFree
import ApprovalFlow.Audit.Summary

/-!
# The two audit stores

The dictionary and the table after the same calls.

* `AuditTrail.Same`: equal rows, a total by its value; `same_iff`: in what the two may differ.
* `lastEntry`, `RecommendationKept`: what the events of a tracking id leave in its row; `parallel`: the
  two rows after the same events.
* `repositories_agree_iff`: exactly when the two stores answer alike.
-/

namespace ApprovalFlow
open Numeric InMemoryAuditRepository PostgresAuditRepository

/-! ## Rows -/

/-- Equal rows; the totals are compared by value. -/
def AuditTrail.Same (a b : AuditTrail) : Prop :=
  { a with total := b.total } = b ∧ a.total.toRat = b.total.toRat

/-- The columns of a recommendation. -/
abbrev RecommendationColumns := Option RecommendationType × Option PyFloat × Option
    (List String) × Option String

def AuditTrail.recommended (trail : AuditTrail) : RecommendationColumns :=
  (trail.recommendationType, trail.recommendationConfidence, trail.recommendationCitedRules,
    trail.recommendationReasoning)

/-- The columns that a recommendation fills. -/
def columns (recommendation : Option Recommendation) : RecommendationColumns :=
  (recommendation.map (·.recommendation), recommendation.map (·.confidence),
    recommendation.map (·.citedRules), recommendation.map (·.reasoning))

/-- A row without its total and its recommendation. -/
def AuditTrail.bare (trail : AuditTrail) : AuditTrail :=
  { trail with
    total := .zero
    recommendationType := none
    recommendationConfidence := none
    recommendationCitedRules := none
    recommendationReasoning := none }

theorem AuditTrail.same_iff {a b : AuditTrail} :
    a.Same b ↔ a.bare = b.bare ∧ a.recommended = b.recommended ∧ a.total.toRat = b.total.toRat := by
  unfold AuditTrail.Same AuditTrail.bare AuditTrail.recommended
  constructor
  · rintro ⟨h, htotal⟩
    rw [← h]
    exact ⟨rfl, rfl, htotal⟩
  · rintro ⟨hbare, hcolumns, htotal⟩
    refine ⟨?_, htotal⟩
    cases a
    cases b
    simp only [AuditTrail.mk.injEq, Prod.mk.injEq] at hbare hcolumns ⊢
    tauto

theorem columns_inj {r r' : Option Recommendation} : columns r = columns r' ↔ r = r' := by
  refine ⟨fun h => ?_, congrArg columns⟩
  unfold columns at h
  cases r with
  | none => cases r' <;> simp_all
  | some r =>
    cases r' with
    | none => simp at h
    | some r' =>
      cases r
      cases r'
      simpa using h

@[simp] theorem toRat_numeric (d : Decimal) : (numeric d).toRat = d.toRat := by
  have hshift : (d.exp - min d.exp 0).toNat = d.exp.toNat := by omega
  unfold numeric
  rw [Decimal.toRat_ofSigned _ _ _ fun _ => rfl, d.toRat_scaled (min_le_left d.exp 0),
    Decimal.scaled, hshift]

/-! ## Events -/

namespace AuditEvent

def invoice : AuditEvent → Invoice
  | decision event => event.invoice
  | approval event => event.invoice
  | payment event => event.invoice

def outcome : AuditEvent → Decision
  | decision event => event.decision
  | approval event => event.decision
  | payment event => event.decision

def resolution? : AuditEvent → Option ApprovalResolution
  | approval event => some event.resolution
  | _ => none

/-- The recommendation of a `decision.completed`, if it has one. -/
def recommendation? : AuditEvent → Option (Option Recommendation)
  | decision event => some event.recommendation
  | _ => none

end AuditEvent

/-- The events of a tracking id, in order. -/
def eventsOf (trackingId : String) (deliveries : List (AuditEvent × Timestamp)) : List AuditEvent :=
  (deliveries.filter (·.1.correlationId = trackingId)).map Prod.fst

/-- The last event names route, currency and amount, and the last approval the resolution. -/
def lastEntry (events : List AuditEvent) : Option (BucketKey × ℚ) :=
  events.getLast?.map fun event =>
    ((event.outcome.route, event.invoice.currency, (events.filterMap (·.resolution?)).getLast?),
      event.invoice.total.toRat)

/-- The entries of the tracking ids, in the order of their first events. -/
def entries (deliveries : List (AuditEvent × Timestamp)) : List (BucketKey × ℚ) :=
  (memory.firstKeys deliveries).filterMap fun trackingId => lastEntry (eventsOf trackingId deliveries)

/-- If the last `decision.completed` has no recommendation, none had one before. -/
def RecommendationKept (events : List AuditEvent) : Prop :=
  (events.filterMap (·.recommendation?)).getLast? = some none →
    ∀ r ∈ events.filterMap (·.recommendation?), r = none

theorem getLast?_filterMap_concat {α β : Type} (f : α → Option β) (l : List α) (a : α) :
    ((l ++ [a]).filterMap f).getLast? = (f a).or (l.filterMap f).getLast? := by
  rw [List.filterMap_append]
  cases h : f a with
  | none => simp [h]
  | some b => simp [h]

/-- The last recommendation is that of the last event exactly if it was kept. -/
theorem recommendationKept_iff (events : List AuditEvent) :
    (events.filterMap (·.recommendation?.join)).getLast? =
      (events.filterMap (·.recommendation?)).getLast?.join ↔ RecommendationKept events := by
  unfold RecommendationKept
  induction events using List.reverseRecOn with
  | nil => simp
  | append_singleton events event ih =>
    rw [getLast?_filterMap_concat, getLast?_filterMap_concat]
    cases hr : event.recommendation? with
    | none =>
      have hsame : (events ++ [event]).filterMap (·.recommendation?) =
          events.filterMap (·.recommendation?) := by
        simp [hr]
      rw [hsame]
      exact ih
    | some r =>
      cases r with
      | some recommendation => simp
      | none =>
        have hnone : (events.filterMap (·.recommendation?.join)).getLast? = none ↔
            ∀ r ∈ events.filterMap (·.recommendation?), r = none := by
          rw [List.getLast?_eq_none_iff, List.filterMap_eq_nil_iff]
          simp only [List.mem_filterMap, forall_exists_index, and_imp]
          constructor
          · intro h r e he hr
            have hjoin := h e he
            rw [hr] at hjoin
            exact hjoin
          · intro h e he
            cases hr : e.recommendation? with
            | none => rfl
            | some r => exact h r e he hr
        rw [List.filterMap_append, List.forall_mem_append, ← hnone]
        simp [hr]

/-! ## One merge -/

section Merge
variable (event : AuditEvent) (now : Timestamp) (row : Option AuditTrail)

theorem entry_memory_merge :
    (memory.merge (event, now) row).entry = ((event.outcome.route, event.invoice.currency,
    event.resolution?.or (row.bind (·.approvalResolution))), event.invoice.total.toRat) := by
  cases event <;> cases row <;> rfl

theorem entry_postgres_merge :
    (postgres.merge (event, now) row).entry = ((event.outcome.route, event.invoice.currency,
    event.resolution?.or (row.bind (·.approvalResolution))), event.invoice.total.toRat) := by
  refine Prod.ext ?_ ?_
  · cases event <;> cases row <;> rfl
  · cases event <;> cases row <;> exact toRat_numeric _

variable {row}

theorem bare_merge (h : ∀ r, row = some r → r.trackingId = event.correlationId) :
    (postgres.merge (event, now) row).bare = (memory.merge (event, now) (row.map AuditTrail.bare)).bare ∧
      (memory.merge (event, now) row).bare =
        (memory.merge (event, now) (row.map AuditTrail.bare)).bare := by
  cases row with
  | none => cases event <;> exact ⟨rfl, rfl⟩
  | some trail =>
    have ht := h trail rfl
    obtain ⟨t, _⟩ := trail
    subst ht
    cases event <;> exact ⟨rfl, rfl⟩

theorem trackingId_merge (h : ∀ r, row = some r → r.trackingId = event.correlationId) :
    (memory.merge (event, now) row).trackingId = event.correlationId ∧
      (postgres.merge (event, now) row).trackingId = event.correlationId := by
  cases row with
  | none => cases event <;> exact ⟨rfl, rfl⟩
  | some trail => cases event <;> exact ⟨rfl, h trail rfl⟩

/-- The recommendation in a row; none where there is no row. -/
def recommendedIn (row : Option AuditTrail) : RecommendationColumns :=
  row.elim (columns none) (·.recommended)

variable {r : Option Recommendation}

theorem recommended_memory_merge (h : recommendedIn row = columns r) :
    (memory.merge (event, now) row).recommended = columns (event.recommendation?.join.or r) := by
  cases row with
  | none =>
    rw [← columns_inj.mp h, Option.or_none]
    cases event <;> rfl
  | some trail =>
    cases event with
    | decision event =>
      obtain ⟨invoice, decision, recommendation⟩ := event
      cases recommendation with
      | none => exact h
      | some recommendation => rfl
    | approval event => exact h
    | payment event => exact h

theorem recommended_postgres_merge (h : recommendedIn row = columns r) :
    (postgres.merge (event, now) row).recommended = columns (event.recommendation?.getD r) := by
  cases row with
  | none =>
    rw [← columns_inj.mp h]
    cases event <;> rfl
  | some trail =>
    cases event with
    | decision event => rfl
    | approval event => exact h
    | payment event => exact h

end Merge

/-! ## The rows of a tracking id -/

/-- The rows that the same events leave in the two stores. -/
structure Parallel (trackingId : String) (events : List AuditEvent) (m p : Option AuditTrail) : Prop where
  id : ∀ r, m = some r ∨ p = some r → r.trackingId = trackingId
  bare : m.map (·.bare) = p.map (·.bare)
  memory_entry : m.map (·.entry) = lastEntry events
  postgres_entry : p.map (·.entry) = lastEntry events
  memory_recommended : recommendedIn m = columns (events.filterMap (·.recommendation?.join)).getLast?
  postgres_recommended : recommendedIn p = columns (events.filterMap (·.recommendation?)).getLast?.join

section Rows
variable {trackingId : String} {events : List AuditEvent} {m p : Option AuditTrail}

theorem lastEntry_resolution (events : List AuditEvent) :
    (lastEntry events).bind (·.1.2.2) = (events.filterMap (·.resolution?)).getLast? := by
  unfold lastEntry
  cases h : events.getLast? with
  | none =>
    rw [List.getLast?_eq_none_iff.mp h]
    rfl
  | some event => rfl

theorem lastEntry_concat (events : List AuditEvent) (event : AuditEvent) : lastEntry (events ++ [event]) =
    some ((event.outcome.route, event.invoice.currency,
      event.resolution?.or (events.filterMap (·.resolution?)).getLast?), event.invoice.total.toRat) := by
  unfold lastEntry
  rw [List.getLast?_concat, getLast?_filterMap_concat]
  rfl

theorem bind_resolution (h : m.map (·.entry) = lastEntry events) :
    m.bind (·.approvalResolution) = (events.filterMap (·.resolution?)).getLast? := by
  rw [← lastEntry_resolution, ← h]
  cases m <;> rfl

theorem Parallel.nil (trackingId : String) : Parallel trackingId [] none none := by
  refine ⟨fun r h => ?_, rfl, rfl, rfl, rfl, rfl⟩
  rcases h with h | h <;> cases h

theorem Parallel.concat (h : Parallel trackingId events m p) {event : AuditEvent}
    (hid : event.correlationId = trackingId) (now : Timestamp) :
    Parallel trackingId (events ++ [event]) (some (memory.merge (event, now) m))
      (some (postgres.merge (event, now) p)) := by
  have hm (r : AuditTrail) (hr : m = some r) : r.trackingId = event.correlationId :=
    (h.id r (.inl hr)).trans hid.symm
  have hp (r : AuditTrail) (hr : p = some r) : r.trackingId = event.correlationId :=
    (h.id r (.inr hr)).trans hid.symm
  refine ⟨fun r hr => ?_, ?_, ?_, ?_, ?_, ?_⟩
  · rcases hr with hr | hr
    · cases hr
      exact (trackingId_merge event now hm).1.trans hid
    · cases hr
      exact (trackingId_merge event now hp).2.trans hid
  · rw [Option.map_some, Option.map_some, (bare_merge event now hm).2, (bare_merge event now hp).1]
    exact congrArg (fun r => some (memory.merge (event, now) r).bare) h.bare
  · rw [Option.map_some, entry_memory_merge, bind_resolution h.memory_entry, lastEntry_concat]
  · rw [Option.map_some, entry_postgres_merge, bind_resolution h.postgres_entry, lastEntry_concat]
  · rw [getLast?_filterMap_concat]
    exact recommended_memory_merge event now h.memory_recommended
  · rw [getLast?_filterMap_concat]
    have hmerged := recommended_postgres_merge event now h.postgres_recommended
    cases hr : event.recommendation? with
    | none =>
      rw [hr] at hmerged
      exact hmerged
    | some r =>
      rw [hr] at hmerged
      exact hmerged

theorem parallel (trackingId : String) (deliveries : List (AuditEvent × Timestamp)) :
    Parallel trackingId (eventsOf trackingId deliveries) ((memory.run .empty deliveries).get? trackingId)
      ((postgres.run .empty deliveries).get? trackingId) := by
  rw [Projector.get?_run, Projector.get?_run]
  have hfold (l : List (AuditEvent × Timestamp)) (hl : ∀ e ∈ l, e.1.correlationId = trackingId) :
      Parallel trackingId (l.map Prod.fst) (l.foldl (fun row e => some (memory.merge e row)) none)
        (l.foldl (fun row e => some (postgres.merge e row)) none) := by
    induction l using List.reverseRecOn with
    | nil => exact .nil trackingId
    | append_singleton l e ih =>
      obtain ⟨event, now⟩ := e
      rw [List.map_append, List.foldl_append, List.foldl_append]
      exact (ih fun e he => hl e (List.mem_append_left _ he)).concat (hl (event, now) (by simp)) now
  exact hfold _ fun e he => of_decide_eq_true (List.mem_filter.mp he).2

/-- **The rows are equal** exactly if the recommendation was kept. -/
theorem Parallel.same_iff (h : Parallel trackingId events m p) :
    Option.Rel AuditTrail.Same m p ↔ RecommendationKept events := by
  rw [← recommendationKept_iff, ← columns_inj, ← h.memory_recommended, ← h.postgres_recommended]
  have hbare := h.bare
  have hentry := h.memory_entry.trans h.postgres_entry.symm
  cases m with
  | none =>
    cases p with
    | none => exact ⟨fun _ => rfl, fun _ => .none⟩
    | some r => cases hbare
  | some r =>
    cases p with
    | none => cases hbare
    | some r' =>
      have htotal : r.total.toRat = r'.total.toRat := congrArg Prod.snd (Option.some.inj hentry)
      constructor
      · intro hrel
        cases hrel with
        | some hsame => exact (AuditTrail.same_iff.mp hsame).2.1
      · intro hrecommended
        exact .some (AuditTrail.same_iff.mpr ⟨Option.some.inj hbare, hrecommended, htotal⟩)

end Rows

/-! ## The stores -/

theorem map_values {V W : Type} (d : Dict String V) (f : V → W) :
    d.values.map f = d.keys.filterMap fun k => (d.get? k).map f := by
  rw [← d.filterMap_keys, List.map_filterMap]

theorem memory_entries (deliveries : List (AuditEvent × Timestamp)) :
    (memory.run .empty deliveries).values.map (·.entry) = entries deliveries := by
  rw [map_values, Projector.keys_run]
  exact List.filterMap_congr fun trackingId _ => (parallel trackingId deliveries).memory_entry

theorem postgres_entries (deliveries : List (AuditEvent × Timestamp)) :
    (postgres.run .empty deliveries).values.map (·.entry) = entries deliveries := by
  rw [map_values, Projector.keys_run]
  exact List.filterMap_congr fun trackingId _ => (parallel trackingId deliveries).postgres_entry

/-- The stores answer alike after the same calls: `get` for every tracking id, and `get_route_summary` up
to order. -/
structure Alike (rnd : Rounding) (orderBy : RouteSummaryBucket → RouteSummaryBucket → Bool)
    (deliveries : List (AuditEvent × Timestamp)) : Prop where
  get : ∀ trackingId, Option.Rel AuditTrail.Same
    (inMemoryAuditRepository.get trackingId
      (AuditService.recordAll inMemoryAuditRepository deliveries .empty))
    (postgresAuditRepository.get trackingId
      (AuditService.recordAll postgresAuditRepository deliveries .empty))
  getRouteSummary : ∃ buckets, InMemoryAuditRepository.getRouteSummary rnd
      (AuditService.recordAll inMemoryAuditRepository deliveries .empty) = .ok buckets ∧
    SameBuckets buckets (PostgresAuditRepository.getRouteSummary orderBy
      (AuditService.recordAll postgresAuditRepository deliveries .empty))

/-- **When the test double answers as the table does**: for no tracking id was a recommendation followed
by a decision without one, and in no group do the rounding errors of the amounts add up to anything. -/
theorem repositories_agree_iff (rnd : Rounding) (orderBy : RouteSummaryBucket → RouteSummaryBucket → Bool)
    (deliveries : List (AuditEvent × Timestamp)) :
    Alike rnd orderBy deliveries ↔ (∀ trackingId, RecommendationKept (eventsOf trackingId deliveries)) ∧
      ∀ key, rnd.sumDrift 0 0 (amounts (entries deliveries) key) = some 0 := by
  have hrows (trackingId : String) := (parallel trackingId deliveries).same_iff
  have hsummary :=
    @sameBuckets_iff rnd orderBy (memory.run .empty deliveries) (postgres.run .empty deliveries)
    ((memory_entries deliveries).trans (postgres_entries deliveries).symm)
  rw [memory_entries] at hsummary
  rw [← hsummary]
  constructor
  · rintro ⟨hget, hbuckets⟩
    rw [recordAll_memory, recordAll_postgres] at hbuckets
    refine ⟨fun trackingId => (hrows trackingId).mp ?_, hbuckets⟩
    have hrel := hget trackingId
    rw [recordAll_memory, recordAll_postgres] at hrel
    exact hrel
  · rintro ⟨hkept, hbuckets⟩
    refine ⟨fun trackingId => ?_, ?_⟩
    · rw [recordAll_memory, recordAll_postgres]
      exact (hrows trackingId).mpr (hkept trackingId)
    · rw [recordAll_memory, recordAll_postgres]
      exact hbuckets

theorem recommendationType_of_same {m p : Option AuditTrail} (h : Option.Rel AuditTrail.Same m p) :
    m.map (·.recommendationType) = p.map (·.recommendationType) := by
  cases h with
  | none => rfl
  | some hsame => exact congrArg some (congrArg Prod.fst (AuditTrail.same_iff.mp hsame).2.1)

theorem one_isConfidence : PyFloat.le .zero .one = true ∧ PyFloat.le .one .one = true := ⟨rfl, rfl⟩

def looksFine : Recommendation := ⟨.approve, .one, [], "looks fine", one_isConfidence⟩

/-- The decision on the laptop is delivered twice, and the model fails the second time. -/
def rerun : List (AuditEvent × Timestamp) :=
  [(.decision ⟨laptop, ⟨.humanReview, "", [], "t1"⟩, some looksFine⟩, 5),
    (.decision ⟨laptop, ⟨.humanReview, "", [], "t1"⟩, none⟩, 6)]

/-- An invoice over 1E28 dollars, and one over a dollar. -/
def ledger : List (AuditEvent × Timestamp) :=
  [(.decision ⟨{ laptop with total := ⟨false, 1, 28⟩ }, ⟨.humanReview, "", [], "t1"⟩, none⟩, 5),
    (.decision ⟨{ laptop with total := .ofInt 1 }, ⟨.humanReview, "", [], "t2"⟩, none⟩, 6)]

theorem totals_of_same {a b : List RouteSummaryBucket} (h : SameBuckets a b) :
    (a.map (·.total.toRat)).Perm (b.map (·.total.toRat)) := by
  have hmap := h.map (·.2.2)
  rw [List.map_map, List.map_map] at hmap
  exact hmap

/-- The dictionary keeps a recommendation that the table drops, and loses a dollar that the table counts. -/
theorem stores_disagree :
    ((inMemoryAuditRepository.get "t1" (AuditService.recordAll inMemoryAuditRepository rerun .empty)).map
        (·.recommendationType) = some (some .approve) ∧
      (postgresAuditRepository.get "t1" (AuditService.recordAll postgresAuditRepository rerun .empty)).map
        (·.recommendationType) = some none ∧
      ¬ Alike defaultContext.rounding (fun _ _ => true) rerun) ∧
    (InMemoryAuditRepository.getRouteSummary defaultContext.rounding
        (AuditService.recordAll inMemoryAuditRepository ledger .empty)).toOption.map (fun buckets =>
          buckets.map (·.total.toRat)) = some [10 ^ 28] ∧
      (PostgresAuditRepository.getRouteSummary (fun _ _ => true)
        (AuditService.recordAll postgresAuditRepository ledger .empty)).map (·.total.toRat) =
          [10 ^ 28 + 1] ∧
      ¬ Alike defaultContext.rounding (fun _ _ => true) ledger := by
  have hkept :
      (inMemoryAuditRepository.get "t1" (AuditService.recordAll inMemoryAuditRepository rerun .empty)).map
      (·.recommendationType) = some (some .approve) := by decide
  have hdropped :
      (postgresAuditRepository.get "t1" (AuditService.recordAll postgresAuditRepository rerun .empty)).map
      (·.recommendationType) = some none := by decide
  have hrounded : (InMemoryAuditRepository.getRouteSummary defaultContext.rounding
      (AuditService.recordAll inMemoryAuditRepository ledger .empty)).toOption.map (fun buckets =>
        buckets.map (·.total.toRat)) = some [10 ^ 28] := by decide +kernel
  have hexact : (PostgresAuditRepository.getRouteSummary (fun _ _ => true)
      (AuditService.recordAll postgresAuditRepository ledger .empty)).map (·.total.toRat) =
        [10 ^ 28 + 1] := by
    decide +kernel
  refine ⟨⟨hkept, hdropped, fun h => ?_⟩, hrounded, hexact, fun h => ?_⟩
  · have hsame := recommendationType_of_same (h.get "t1")
    rw [hkept, hdropped] at hsame
    cases hsame
  · obtain ⟨buckets, hbuckets, hsame⟩ := h.getRouteSummary
    have htotals := totals_of_same hsame
    rw [hbuckets] at hrounded
    have htotal : buckets.map (·.total.toRat) = [10 ^ 28] := Option.some.inj hrounded
    rw [htotal, hexact, List.perm_singleton] at htotals
    norm_num at htotals

end ApprovalFlow
