import ApprovalFlow.Audit.Repository
import ApprovalFlow.Shared.Errors
import ApprovalFlow.Store.Group
import ApprovalFlow.Numeric.Sums

/-!
# The route summary

Count and total of the rows with one route, currency and approval resolution.

* `InMemoryAuditRepository.getRouteSummary`: a dictionary of the groups; amounts add up in the `decimal`
  context.
* `PostgresAuditRepository.getRouteSummary`: `GROUP BY`, with exact sums.
* `memory_exact_iff`: when the dictionary is exact; `sameBuckets_iff`: when the two summaries of the same
  groups agree.
-/

namespace ApprovalFlow
open Numeric

structure RouteSummaryBucket where
  route : Route
  currency : String
  approvalResolution : Option ApprovalResolution
  count : ℕ
  total : Decimal
  deriving DecidableEq

/-- What the rows are grouped by. -/
abbrev BucketKey := Route × String × Option ApprovalResolution

def AuditTrail.bucketKey (trail : AuditTrail) : BucketKey :=
  (trail.route, trail.currency, trail.approvalResolution)

def RouteSummaryBucket.ofGroup (group : BucketKey × ℕ × Decimal) : RouteSummaryBucket where
  route := group.1.1
  currency := group.1.2.1
  approvalResolution := group.1.2.2
  count := group.2.1
  total := group.2.2

/-- `grouped`: count and total of the rows with a key, from `(0, Decimal("0"))`. -/
def InMemoryAuditRepository.grouped (rnd : Rounding) :
    Grouping BucketKey AuditTrail (ℕ × Decimal) Signal where
  key := AuditTrail.bucketKey
  init := (0, .zero)
  add group trail := do
    let total ← rnd.add group.2 trail.total
    return (group.1 + 1, total)

def InMemoryAuditRepository.getRouteSummary (rnd : Rounding) (rows : AuditRows) :
    Except Signal (List RouteSummaryBucket) := do
  let grouped ← (grouped rnd).collect rows.values
  return grouped.items.map .ofGroup

/-- `COUNT(*)` and `SUM(total)` of a group. -/
def PostgresAuditRepository.aggregate (trails : List AuditTrail) (key : BucketKey) : RouteSummaryBucket :=
  let group := trails.filter (·.bucketKey = key)
  .ofGroup (key, group.length, (group.map (·.total)).foldl .addExact .zero)

/-- `_ROUTE_SUMMARY_SQL`; `orderBy` compares routes and currencies as the collation of the database does. -/
def PostgresAuditRepository.getRouteSummary (orderBy : RouteSummaryBucket → RouteSummaryBucket → Bool)
    (rows : AuditRows) : List RouteSummaryBucket :=
  ((rows.values.map (·.bucketKey)).dedup.map (aggregate rows.values)).mergeSort orderBy

/-! ## Buckets compared -/

/-- A bucket with the value of its total. -/
def RouteSummaryBucket.byValue (bucket : RouteSummaryBucket) : BucketKey × ℕ × ℚ :=
  ((bucket.route, bucket.currency, bucket.approvalResolution), bucket.count, bucket.total.toRat)

/-- The same buckets, in any order. -/
def SameBuckets (a b : List RouteSummaryBucket) : Prop := (a.map (·.byValue)).Perm (b.map (·.byValue))

/-- What a summary shows of a row: its group, and its amount. -/
def AuditTrail.entry (trail : AuditTrail) : BucketKey × ℚ := (trail.bucketKey, trail.total.toRat)

/-- The amounts of a group. -/
def amounts (entries : List (BucketKey × ℚ)) (key : BucketKey) : List ℚ :=
  (entries.filter (·.1 = key)).map Prod.snd

section Summary
variable {rnd : Rounding} {trails : List AuditTrail} {key : BucketKey}

theorem keys_entry (trails : List AuditTrail) :
    (trails.map (·.entry)).map Prod.fst = trails.map (·.bucketKey) := by
  rw [List.map_map]
  rfl

theorem amounts_entry (trails : List AuditTrail) (key : BucketKey) :
    amounts (trails.map (·.entry)) key =
      ((trails.filter (·.bucketKey = key)).map (·.total)).map Decimal.toRat := by
  unfold amounts
  rw [List.filter_map, List.map_map, List.map_map]
  rfl

theorem toRat_sumExact (totals : List Decimal) (acc : Decimal) :
    (totals.foldl .addExact acc).toRat = acc.toRat + (totals.map Decimal.toRat).sum := by
  induction totals generalizing acc with
  | nil => simp
  | cons total totals ih =>
    rw [List.foldl_cons, ih, Decimal.toRat_addExact, List.map_cons, List.sum_cons, add_assoc]

theorem byValue_aggregate (trails : List AuditTrail) (key : BucketKey) :
    (PostgresAuditRepository.aggregate trails key).byValue =
      (key, (amounts (trails.map (·.entry)) key).length, (amounts (trails.map (·.entry)) key).sum) := by
  have hsum := toRat_sumExact ((trails.filter (·.bucketKey = key)).map (·.total)) .zero
  rw [Decimal.toRat_zero, zero_add] at hsum
  rw [amounts_entry, List.length_map, List.length_map, ← hsum]
  rfl

theorem grouped_total (trails : List AuditTrail) (key : BucketKey) :
    (InMemoryAuditRepository.grouped rnd).total key trails =
      (((trails.filter (·.bucketKey = key)).map (·.total)).foldlM rnd.add .zero).map
        fun total => ((trails.filter (·.bucketKey = key)).length, total) := by
  unfold Grouping.total Grouping.group
  have hfold (l : List AuditTrail) (n : ℕ) (acc : Decimal) :
      l.foldlM (InMemoryAuditRepository.grouped rnd).add (n, acc) =
        ((l.map (·.total)).foldlM rnd.add acc).map fun total => (n + l.length, total) := by
    induction l generalizing n acc with
    | nil => rfl
    | cons trail l ih =>
      rw [List.foldlM_cons, List.map_cons, List.foldlM_cons, List.length_cons]
      have hadd : (InMemoryAuditRepository.grouped rnd).add (n, acc) trail =
          (rnd.add acc trail.total).map fun total => (n + 1, total) := by
        show (rnd.add acc trail.total).bind (fun total => .ok (n + 1, total)) = _
        cases rnd.add acc trail.total <;> rfl
      rw [hadd]
      cases rnd.add acc trail.total with
      | error e => rfl
      | ok sum =>
        show l.foldlM _ (n + 1, sum) = ((l.map (·.total)).foldlM rnd.add sum).map _
        rw [ih, Nat.add_assoc, Nat.add_comm 1]
  have h := hfold (trails.filter (·.bucketKey = key)) 0 .zero
  rw [Nat.zero_add] at h
  exact h

/-- **A group in memory is exact** where its sum does not drift. -/
theorem grouped_exact_iff (trails : List AuditTrail) (key : BucketKey) :
    (∃ total, (InMemoryAuditRepository.grouped rnd).total key trails =
        .ok ((amounts (trails.map (·.entry)) key).length, total) ∧
      total.toRat = (amounts (trails.map (·.entry)) key).sum) ↔
      rnd.sumDrift 0 0 (amounts (trails.map (·.entry)) key) = some 0 := by
  rw [grouped_total, amounts_entry, ← Rounding.sum_exact_iff, List.length_map, List.length_map]
  refine exists_congr fun total => and_congr_left' ?_
  cases ((trails.filter (·.bucketKey = key)).map (·.total)).foldlM rnd.add .zero with
  | error e => exact ⟨fun h => (by cases h), fun h => (by cases h)⟩
  | ok sum =>
    show Except.ok (_, sum) = Except.ok (_, total) ↔ Except.ok sum = Except.ok total
    simp

end Summary

/-! ## The two summaries -/

/-- The exact buckets of some entries. -/
def exactBuckets (entries : List (BucketKey × ℚ)) : List (BucketKey × ℕ × ℚ) :=
  (entries.map Prod.fst).dedup.map fun key => (key, (amounts entries key).length, (amounts entries key).sum)

section Agreement
variable {rnd : Rounding} {orderBy : RouteSummaryBucket → RouteSummaryBucket → Bool}
    {rows rows' : AuditRows}
  {entries : List (BucketKey × ℚ)} {key : BucketKey}

theorem mem_exactBuckets {x : BucketKey × ℕ × ℚ} : x ∈ exactBuckets entries ↔
    x.1 ∈ entries.map Prod.fst ∧ x.2 = ((amounts entries x.1).length, (amounts entries x.1).sum) := by
  unfold exactBuckets
  rw [List.mem_map]
  constructor
  · rintro ⟨key, hkey, rfl⟩
    exact ⟨List.mem_dedup.mp hkey, rfl⟩
  · rintro ⟨hkey, hx⟩
    exact ⟨x.1, List.mem_dedup.mpr hkey, Prod.ext rfl hx.symm⟩

theorem nodup_exactBuckets : (exactBuckets entries).Nodup := by
  refine List.Nodup.of_map Prod.fst ?_
  unfold exactBuckets
  rw [List.map_map]
  exact (List.map_id _).symm ▸ List.nodup_dedup _

theorem amounts_of_not_mem (h : key ∉ entries.map Prod.fst) : amounts entries key = [] := by
  have hnil : entries.filter (·.1 = key) = [] := by
    refine List.filter_eq_nil_iff.mpr fun entry hentry hkey => h ?_
    rw [← of_decide_eq_true hkey]
    exact List.mem_map_of_mem hentry
  unfold amounts
  rw [hnil]
  rfl

/-- **The table's summary** is exact. -/
theorem postgres_exact (orderBy : RouteSummaryBucket → RouteSummaryBucket → Bool) (rows : AuditRows) :
    ((PostgresAuditRepository.getRouteSummary orderBy rows).map (·.byValue)).Perm
      (exactBuckets (rows.values.map (·.entry))) := by
  refine ((List.mergeSort_perm _ orderBy).map _).trans (List.Perm.of_eq ?_)
  unfold exactBuckets
  rw [List.map_map, List.map_map]
  exact List.map_congr_left fun key _ => byValue_aggregate rows.values key

theorem mem_buckets {groups : Dict BucketKey (ℕ × Decimal)} {x : BucketKey × ℕ × ℚ} :
    x ∈ (groups.items.map RouteSummaryBucket.ofGroup).map (·.byValue) ↔
      ∃ v, groups.get? x.1 = some v ∧ x.2 = (v.1, v.2.toRat) := by
  rw [List.map_map, List.mem_map]
  constructor
  · rintro ⟨⟨key, v⟩, hmem, rfl⟩
    exact ⟨v, (groups.mem_iff key v).mp hmem, rfl⟩
  · rintro ⟨v, hv, hx⟩
    exact ⟨(x.1, v), (groups.mem_iff x.1 v).mpr hv, Prod.ext rfl hx.symm⟩

theorem nodup_buckets (groups : Dict BucketKey (ℕ × Decimal)) :
    ((groups.items.map RouteSummaryBucket.ofGroup).map (·.byValue)).Nodup := by
  refine List.Nodup.of_map Prod.fst ?_
  rw [List.map_map, List.map_map]
  exact groups.nodup

/-- The groups of a dictionary are the exact buckets where each has the exact count and total. -/
theorem buckets_exact_iff {groups : Dict BucketKey (ℕ × Decimal)}
    (h : (InMemoryAuditRepository.grouped rnd).Collects rows.values groups) :
    ((groups.items.map RouteSummaryBucket.ofGroup).map (·.byValue)).Perm
      (exactBuckets (rows.values.map (·.entry))) ↔
      ∀ key v, groups.get? key = some v → (v.1, v.2.toRat) =
        ((amounts (rows.values.map (·.entry)) key).length,
          (amounts (rows.values.map (·.entry)) key).sum) := by
  constructor
  · intro hperm key v hv
    have hmem : (key, v.1, v.2.toRat) ∈ exactBuckets (rows.values.map (·.entry)) :=
      hperm.mem_iff.mp (mem_buckets.mpr ⟨v, hv, rfl⟩)
    exact (mem_exactBuckets.mp hmem).2
  · intro hexact
    refine (List.perm_ext_iff_of_nodup (nodup_buckets groups) nodup_exactBuckets).mpr fun x => ?_
    have hgroup : groups.get? x.1 ≠ none ↔ x.1 ∈ rows.values.map (·.bucketKey) := h.mem x.1
    rw [mem_buckets, mem_exactBuckets, keys_entry, ← hgroup]
    constructor
    · rintro ⟨v, hv, hx⟩
      rw [hv]
      exact ⟨Option.some_ne_none v, hx.trans (hexact x.1 v hv)⟩
    · rintro ⟨hkey, hx⟩
      obtain ⟨v, hv⟩ := Option.ne_none_iff_exists'.mp hkey
      exact ⟨v, hv, hx.trans (hexact x.1 v hv).symm⟩

/-- **The summary in memory** is exact, in some order, where no group drifts. -/
theorem memory_exact_iff :
    (∃ buckets, InMemoryAuditRepository.getRouteSummary rnd rows = .ok buckets ∧
      (buckets.map (·.byValue)).Perm (exactBuckets (rows.values.map (·.entry)))) ↔
      ∀ key, rnd.sumDrift 0 0 (amounts (rows.values.map (·.entry)) key) = some 0 := by
  unfold InMemoryAuditRepository.getRouteSummary
  constructor
  · rintro ⟨buckets, hbuckets, hperm⟩ key
    obtain ⟨groups, hgroups, hitems⟩ := bind_ok hbuckets
    cases hitems
    have hcollects := Grouping.collects_of_ok hgroups
    cases hv : groups.get? key with
    | none =>
      have hkey : key ∉ rows.values.map (·.bucketKey) := fun hmem => (hcollects.mem key).mpr hmem hv
      rw [amounts_of_not_mem (keys_entry rows.values ▸ hkey)]
      rfl
    | some v =>
      obtain ⟨hcount, hsum⟩ := Prod.ext_iff.mp ((buckets_exact_iff hcollects).mp hperm key v hv)
      refine (grouped_exact_iff rows.values key).mp ⟨v.2, ?_, hsum⟩
      rw [hcollects.total key v hv]
      exact congrArg Except.ok (Prod.ext hcount rfl)
  · intro hdrift
    have htotal (key : BucketKey) := (grouped_exact_iff rows.values key).mpr (hdrift key)
    obtain ⟨groups, hgroups⟩ : ∃ groups, (InMemoryAuditRepository.grouped rnd).collect rows.values =
        .ok groups := by
      refine Grouping.collect_ok fun key => ?_
      obtain ⟨total, hok, -⟩ := htotal key
      exact ⟨_, hok⟩
    have hcollects := Grouping.collects_of_ok hgroups
    refine ⟨groups.items.map .ofGroup, by rw [hgroups]; rfl, (buckets_exact_iff hcollects).mpr ?_⟩
    intro key v hv
    obtain ⟨total, hok, hsum⟩ := htotal key
    have heq := Except.ok.inj ((hcollects.total key v hv).symm.trans hok)
    rw [heq, ← hsum]

/-- **When the two summaries agree**, over rows with the same groups and amounts: where no group drifts
in memory. -/
theorem sameBuckets_iff (h : rows.values.map (·.entry) = rows'.values.map (·.entry)) :
    (∃ buckets, InMemoryAuditRepository.getRouteSummary rnd rows = .ok buckets ∧
      SameBuckets buckets (PostgresAuditRepository.getRouteSummary orderBy rows')) ↔
      ∀ key, rnd.sumDrift 0 0 (amounts (rows.values.map (·.entry)) key) = some 0 := by
  rw [← memory_exact_iff]
  have hexact := postgres_exact orderBy rows'
  rw [← h] at hexact
  refine exists_congr fun buckets => and_congr_right fun _ =>
    ⟨fun hsame => hsame.trans hexact, fun hsame => ?_⟩
  exact hsame.trans hexact.symm

end Agreement

end ApprovalFlow
