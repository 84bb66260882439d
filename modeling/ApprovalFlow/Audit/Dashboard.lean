import ApprovalFlow.Audit.Summary
import ApprovalFlow.Store.Totals

/-!
# The dashboard

`get_summary` adds up the buckets of the route summary once more, by route and by currency.

* `AuditService.getSummary`: the summary of some buckets.
* `DirectCount`: what a count over the rows themselves gives.
* `Tallied`: what the loop has added up so far; `tally_step`, `tally_run`: one bucket, and all of them.
* `dashboard_direct`: the summary is the direct count, and one more row adds what it counts for.
-/

namespace ApprovalFlow
open Numeric

structure DashboardSummary where
  generatedAt : Timestamp
  totalInvoices : ℕ
  autoApprovedCount : ℕ
  humanReviewCount : ℕ
  autoApprovalRate : PyFloat
  humanEscalationRate : PyFloat
  moneyAutoApproved : Dict String Decimal
  moneyHumanApproved : Dict String Decimal
  countsByRoute : Dict String ℕ

/-- `_add_amount`. -/
def addAmount (rnd : Rounding) (bucket : Dict String Decimal) (currency : String) (amount : Decimal) :
    Except Signal (Dict String Decimal) := do
  let sum ← rnd.add ((bucket.get? currency).getD .zero) amount
  return bucket.insert currency sum

/-- The dictionaries of the loop. -/
structure Tally where
  moneyAuto : Dict String Decimal
  moneyHumanApproved : Dict String Decimal
  countsByRoute : Dict String ℕ

namespace AuditService

/-- The body of the loop. -/
def tally (rnd : Rounding) (acc : Tally) (b : RouteSummaryBucket) : Except Signal Tally := do
  let countsByRoute := acc.countsByRoute.insert b.route.value
    ((acc.countsByRoute.get? b.route.value).getD 0 + b.count)
  let moneyAuto ←
    (if b.route = .autoApprove then addAmount rnd acc.moneyAuto b.currency b.total else .ok acc.moneyAuto)
  let moneyHumanApproved ←
    (if b.route = .humanReview ∧ b.approvalResolution = some .approved then
      addAmount rnd acc.moneyHumanApproved b.currency b.total
    else .ok acc.moneyHumanApproved)
  return ⟨moneyAuto, moneyHumanApproved, countsByRoute⟩

/-- `(count / total) if total else 0.0`. -/
def rate (count total : ℕ) : PyFloat := if total = 0 then .zero else .ofFrac count total

def getSummary (rnd : Rounding) (buckets : List RouteSummaryBucket) (now : Timestamp) :
    Except Signal DashboardSummary := do
  let total := (buckets.map (·.count)).sum
  let autoCount := ((buckets.filter (·.route = .autoApprove)).map (·.count)).sum
  let humanCount := ((buckets.filter (·.route = .humanReview)).map (·.count)).sum
  let acc ← buckets.foldlM (tally rnd) ⟨.empty, .empty, .empty⟩
  return {
    generatedAt := now
    totalInvoices := total
    autoApprovedCount := autoCount
    humanReviewCount := humanCount
    autoApprovalRate := rate autoCount total
    humanEscalationRate := rate humanCount total
    moneyAutoApproved := acc.moneyAuto
    moneyHumanApproved := acc.moneyHumanApproved
    countsByRoute := acc.countsByRoute }

end AuditService

/-! ## A direct count -/

/-- The amount approved automatically. -/
def isAutoApproved (key : BucketKey) : Bool := key.1 = .autoApprove

/-- The amount that a human approved. -/
def isHumanApproved (key : BucketKey) : Bool := key.1 = .humanReview ∧ key.2.2 = some .approved

/-- The amounts of some rows in a currency. -/
def amountsIn (chosen : BucketKey → Bool) (currency : String) (trails : List AuditTrail) : List ℚ :=
  (trails.filter fun trail => chosen trail.bucketKey ∧ trail.currency = currency).map (·.total.toRat)

/-- What the summary shows of a currency, as a number. -/
def shownIn (money : Dict String Decimal) (currency : String) : Option ℚ :=
  (money.get? currency).map Decimal.toRat

/-- The summary that a count over the rows gives. -/
structure DirectCount (trails : List AuditTrail) (summary : DashboardSummary) : Prop where
  total : summary.totalInvoices = trails.length
  byRoute : ∀ route, (summary.countsByRoute.get? route.value).getD 0 = trails.countP (·.route = route)
  routes : ∀ name, name ∈ summary.countsByRoute.keys ↔ ∃ trail ∈ trails, trail.route.value = name
  sum : summary.countsByRoute.values.sum = summary.totalInvoices
  auto : summary.autoApprovedCount = trails.countP (·.route = .autoApprove)
  human : summary.humanReviewCount = trails.countP (·.route = .humanReview)
  autoRate : summary.autoApprovalRate =
    if trails.length = 0 then .zero else .ofFrac (trails.countP (·.route = .autoApprove)) trails.length
  humanRate : summary.humanEscalationRate =
    if trails.length = 0 then .zero else .ofFrac (trails.countP (·.route = .humanReview)) trails.length
  moneyAuto : ∀ currency,
    shownIn summary.moneyAutoApproved currency = sum? (amountsIn isAutoApproved currency trails)
  moneyHuman : ∀ currency,
    shownIn summary.moneyHumanApproved currency = sum? (amountsIn isHumanApproved currency trails)

/-- The amounts of some buckets, by currency. -/
def money (chosen : BucketKey → Bool) (buckets : List RouteSummaryBucket) : List (String × ℚ) :=
  (buckets.filter (chosen ·.byValue.1)).map fun b => (b.currency, b.total.toRat)

/-- What the loop has added up of some buckets. -/
structure Tallied (buckets : List RouteSummaryBucket) (acc : Tally) : Prop where
  moneyAuto : acc.moneyAuto.Sums Decimal.toRat (money isAutoApproved buckets)
  moneyHumanApproved : acc.moneyHumanApproved.Sums Decimal.toRat (money isHumanApproved buckets)
  countsByRoute : acc.countsByRoute.Sums id (buckets.map fun b => (b.route.value, b.count))

section Loop
variable {rnd : Rounding} {buckets : List RouteSummaryBucket} {b : RouteSummaryBucket}
    {bucket : Dict String Decimal}
  {chosen : BucketKey → Bool}

theorem addAmount_sums {amounts : List (String × ℚ)} {currency : String} {amount : Decimal}
    (h : bucket.Sums Decimal.toRat amounts)
    (hfits : rnd.Fits (((amounts.filter (·.1 = currency)).map Prod.snd).sum + amount.toRat)) :
    ∃ bucket', addAmount rnd bucket currency amount = .ok bucket' ∧
      bucket'.Sums Decimal.toRat (amounts ++ [(currency, amount.toRat)]) := by
  have hbefore : ((bucket.get? currency).getD .zero).toRat =
      ((bucket.get? currency).map Decimal.toRat).getD 0 := by
    cases bucket.get? currency with
    | none => exact Decimal.toRat_zero
    | some d => rfl
  rw [← sum?_getD, ← h currency, ← hbefore] at hfits
  obtain ⟨sum, hsum, hvalue⟩ := Rounding.add_of_fits hfits
  refine ⟨bucket.insert currency sum, ?_, h.insert ?_⟩
  · unfold addAmount
    exact bind_of_ok hsum _
  · rw [hvalue, hbefore]

/-- The amounts so far and that of the bucket are amounts of buckets. -/
theorem fits_money (h : rnd.Unrounded ((buckets ++ [b]).map (·.total.toRat))) :
    rnd.Fits ((((money chosen buckets).filter (·.1 = b.currency)).map Prod.snd).sum + b.total.toRat) := by
  have hsub : (((money chosen buckets).filter (·.1 = b.currency)).map Prod.snd).Sublist
      (buckets.map (·.total.toRat)) := by
    unfold money
    rw [List.filter_map, List.map_map]
    exact ((List.filter_sublist.trans List.filter_sublist).map _)
  rw [List.map_append, List.map_singleton] at h
  have hfits := h _ (hsub.append_right [b.total.toRat]).subperm
  rwa [List.sum_append, List.sum_singleton] at hfits

theorem money_step (b : RouteSummaryBucket) (add : Prop) [Decidable add]
    (hadd : chosen b.byValue.1 = decide add) (h : bucket.Sums Decimal.toRat (money chosen buckets))
    (hfits : rnd.Unrounded ((buckets ++ [b]).map (·.total.toRat))) :
    ∃ bucket', (if add then addAmount rnd bucket b.currency b.total else .ok bucket) = .ok bucket' ∧
      bucket'.Sums Decimal.toRat (money chosen (buckets ++ [b])) := by
  by_cases hb : add
  · have hchosen : chosen b.byValue.1 = true := hadd.trans (decide_eq_true hb)
    have hmoney : money chosen (buckets ++ [b]) =
        money chosen buckets ++ [(b.currency, b.total.toRat)] := by
      unfold money
      rw [filter_concat_pos buckets hchosen, List.map_append, List.map_singleton]
    rw [if_pos hb, hmoney]
    exact addAmount_sums h (fits_money hfits)
  · have hchosen : chosen b.byValue.1 = false := hadd.trans (decide_eq_false hb)
    have hmoney : money chosen (buckets ++ [b]) = money chosen buckets := by
      unfold money
      rw [filter_concat_neg buckets hchosen]
    rw [if_neg hb, hmoney]
    exact ⟨bucket, rfl, h⟩

theorem tally_step {acc : Tally} (h : Tallied buckets acc)
    (hfits : rnd.Unrounded ((buckets ++ [b]).map (·.total.toRat))) :
    ∃ acc', AuditService.tally rnd acc b = .ok acc' ∧ Tallied (buckets ++ [b]) acc' := by
  obtain ⟨moneyAuto, hauto, hsums⟩ := money_step b (b.route = .autoApprove) rfl h.moneyAuto hfits
  obtain ⟨moneyHuman, hhuman, hsums'⟩ := money_step b
    (b.route = .humanReview ∧ b.approvalResolution = some .approved) rfl h.moneyHumanApproved hfits
  have hcounts : (buckets ++ [b]).map (fun b => (b.route.value, b.count)) =
      buckets.map (fun b => (b.route.value, b.count)) ++ [(b.route.value, b.count)] := by
    rw [List.map_append, List.map_singleton]
  let counts :=
    acc.countsByRoute.insert b.route.value ((acc.countsByRoute.get? b.route.value).getD 0 + b.count)
  refine ⟨⟨moneyAuto, moneyHuman, counts⟩, ?_, hsums, hsums', ?_⟩
  · unfold AuditService.tally
    exact (bind_of_ok hauto _).trans (bind_of_ok hhuman _)
  · rw [hcounts]
    exact h.countsByRoute.insert (by rw [Option.map_id_fun]; rfl)

theorem tally_run (hfits : rnd.Unrounded (buckets.map (·.total.toRat))) :
    ∃ acc, buckets.foldlM (AuditService.tally rnd) ⟨.empty, .empty, .empty⟩ = .ok acc ∧
      Tallied buckets acc := by
  induction buckets using List.reverseRecOn with
  | nil => exact ⟨_, rfl, .empty _, .empty _, .empty _⟩
  | append_singleton buckets b ih =>
    have hsub : (buckets.map (·.total.toRat)).Sublist ((buckets ++ [b]).map (·.total.toRat)) :=
      (List.sublist_append_left buckets [b]).map _
    obtain ⟨acc, hacc, htallied⟩ := ih fun part hpart => hfits part (hpart.trans hsub.subperm)
    obtain ⟨acc', hacc', htallied'⟩ := tally_step htallied hfits
    refine ⟨acc', ?_, htallied'⟩
    rw [Grouping.foldlM_concat, hacc]
    exact hacc'

end Loop

/-! ## From buckets to rows -/

/-- The exact buckets of some rows, in any order. -/
def Shows (trails : List AuditTrail) (buckets : List RouteSummaryBucket) : Prop :=
  (buckets.map (·.byValue)).Perm (exactBuckets (trails.map (·.entry)))

section Rows
variable {rnd : Rounding} {buckets : List RouteSummaryBucket} {trails : List AuditTrail}

theorem exact_amounts (chosen : BucketKey → Bool) (entries : List (BucketKey × ℚ)) :
    sum? (((exactBuckets entries).filter (chosen ·.1)).map (·.2.2)) =
      sum? ((entries.filter (chosen ·.1)).map Prod.snd) := by
  unfold exactBuckets
  rw [List.filter_map, List.map_map]
  exact sum?_groups Prod.fst Prod.snd chosen entries

theorem exact_counts (chosen : BucketKey → Bool) (entries : List (BucketKey × ℚ)) :
    sum? (((exactBuckets entries).filter (chosen ·.1)).map (·.2.1)) =
      sum? ((entries.filter (chosen ·.1)).map fun _ => 1) := by
  have hlength (key : BucketKey) :
      (amounts entries key).length = ((entries.filter (·.1 = key)).map fun _ => 1).sum := by
    unfold amounts
    simp
  unfold exactBuckets
  rw [List.filter_map, List.map_map, ← sum?_groups Prod.fst (fun _ => 1) chosen entries]
  exact congrArg sum? (List.map_congr_left fun key _ => hlength key)

theorem Shows.amounts (h : Shows trails buckets) (chosen : BucketKey → Bool) :
    sum? ((buckets.filter (chosen ·.byValue.1)).map (·.total.toRat)) =
      sum? ((trails.filter (chosen ·.bucketKey)).map (·.total.toRat)) := by
  have hsum := sum?_perm ((h.filter (chosen ·.1)).map (·.2.2))
  rw [exact_amounts, List.filter_map, List.filter_map, List.map_map, List.map_map] at hsum
  exact hsum

theorem Shows.counts (h : Shows trails buckets) (chosen : BucketKey → Bool) :
    sum? ((buckets.filter (chosen ·.byValue.1)).map (·.count)) =
      sum? ((trails.filter (chosen ·.bucketKey)).map fun _ => 1) := by
  have hsum := sum?_perm ((h.filter (chosen ·.1)).map (·.2.1))
  rw [exact_counts, List.filter_map, List.filter_map, List.map_map, List.map_map] at hsum
  exact hsum

theorem Shows.count (h : Shows trails buckets) (chosen : BucketKey → Bool) :
    ((buckets.filter (chosen ·.byValue.1)).map (·.count)).sum = trails.countP (chosen ·.bucketKey) := by
  rw [← sum?_getD, h.counts, sum?_getD, List.map_const', List.sum_replicate, smul_eq_mul, mul_one,
    List.countP_eq_length_filter]

theorem Shows.unrounded (h : Shows trails buckets) (hfits : rnd.Unrounded (trails.map (·.total.toRat))) :
    rnd.Unrounded (buckets.map (·.total.toRat)) := by
  intro part hpart
  have hperm := h.map (·.2.2)
  rw [List.map_map] at hperm
  obtain ⟨part', hpart', hsub⟩ := hpart.trans hperm.subperm
  unfold exactBuckets at hsub
  rw [List.map_map, List.sublist_map_iff] at hsub
  obtain ⟨keys, hkeys, rfl⟩ := hsub
  -- the rows of the groups that were added up
  have hrows : (((trails.map (·.entry)).filter (·.1 ∈ keys)).map Prod.snd).sum = part.sum := by
    have hgroups : ∀ e ∈ (trails.map (·.entry)).filter (·.1 ∈ keys), e.1 ∈ keys.toFinset := fun e he =>
      List.mem_toFinset.mpr (of_decide_eq_true (List.mem_filter.mp he).2)
    rw [← sum_groups Prod.fst Prod.snd hgroups,
      List.sum_toFinset _ ((List.nodup_dedup _).sublist hkeys), ← hpart'.sum_eq]
    congr 1
    apply List.map_congr_left
    intro key hkey
    unfold ApprovalFlow.amounts
    rw [List.filter_filter]
    congr 2
    apply List.filter_congr
    intro e _
    by_cases he : e.1 = key
    · simp [he, hkey]
    · simp [he]
  rw [← hrows]
  apply hfits
  apply List.Sublist.subperm
  have hentries : trails.map (·.total.toRat) = (trails.map (·.entry)).map Prod.snd := by
    rw [List.map_map]
    rfl
  rw [hentries]
  exact List.filter_sublist.map _

theorem Shows.shownIn (h : Shows trails buckets) (chosen : BucketKey → Bool) {bucket : Dict String Decimal}
    (hsums : bucket.Sums Decimal.toRat (money chosen buckets)) (currency : String) :
    ApprovalFlow.shownIn bucket currency = sum? (amountsIn chosen currency trails) := by
  have hboth := h.amounts fun key => chosen key && key.2.1 = currency
  have hbuckets : ((money chosen buckets).filter (·.1 = currency)).map Prod.snd =
      (buckets.filter fun b => chosen b.byValue.1 && b.byValue.1.2.1 = currency).map (·.total.toRat) := by
    unfold money
    rw [List.filter_map, List.map_map, List.filter_filter]
    congr 1
    apply List.filter_congr
    intro b _
    exact Bool.and_comm _ _
  unfold ApprovalFlow.shownIn amountsIn
  rw [hsums currency, hbuckets, hboth]
  congr 2
  apply List.filter_congr
  intro trail _
  rw [Bool.decide_and, Bool.decide_eq_true]
  rfl

theorem Shows.countOf (h : Shows trails buckets) {counts : Dict String ℕ}
    (hsums : counts.Sums id (buckets.map fun b => (b.route.value, b.count))) (name : String) :
    counts.get? name = sum? ((trails.filter (·.route.value = name)).map fun _ => 1) := by
  have hcounts := h.counts fun key => key.1.value = name
  have hget := hsums name
  rw [Option.map_id_fun, List.filter_map, List.map_map] at hget
  exact hget.trans hcounts

/-- **The summary of the buckets of some rows** is the direct count over the rows. -/
theorem Shows.directCount (h : Shows trails buckets) (hfits : rnd.Unrounded (trails.map (·.total.toRat)))
    (now : Timestamp) :
    ∃ summary, AuditService.getSummary rnd buckets now = .ok summary ∧ DirectCount trails summary := by
  obtain ⟨acc, hacc, htallied⟩ := tally_run (h.unrounded hfits)
  have htotal : (buckets.map (·.count)).sum = trails.length := by
    have hall := h.count fun _ => true
    rwa [List.filter_true, List.countP_true] at hall
  have hauto := h.count fun key => key.1 = .autoApprove
  have hhuman := h.count fun key => key.1 = .humanReview
  refine ⟨_, bind_of_ok hacc _, ?_⟩
  constructor
  case total => exact htotal
  case byRoute =>
    intro route
    rw [h.countOf htallied.countsByRoute, sum?_getD, List.map_const', List.sum_replicate,
      smul_eq_mul, mul_one, ← List.countP_eq_length_filter]
    exact List.countP_congr fun trail _ => by simp [Route.value_inj]
  case routes =>
    intro name
    rw [Dict.mem_keys, h.countOf htallied.countsByRoute, ne_eq, sum?_eq_none, List.map_eq_nil_iff,
      List.filter_eq_nil_iff]
    simp
  case sum =>
    have hsum := htallied.countsByRoute.sum_values
    rw [List.map_id, List.map_map] at hsum
    exact hsum
  case auto => exact hauto
  case human => exact hhuman
  case autoRate => exact congrArg₂ AuditService.rate hauto htotal
  case humanRate => exact congrArg₂ AuditService.rate hhuman htotal
  case moneyAuto => exact h.shownIn isAutoApproved htallied.moneyAuto
  case moneyHuman => exact h.shownIn isHumanApproved htallied.moneyHumanApproved

end Rows

/-! ## One more row -/

section Adds
variable {trails : List AuditTrail} {trail : AuditTrail} {before after : DashboardSummary}

end Adds

/-! ## Over the rows -/

/-- A summary of some rows, with the buckets in any order. -/
def Dashboard (rnd : Rounding) (rows : AuditRows) (summary : DashboardSummary) : Prop :=
  ∃ listed buckets now, InMemoryAuditRepository.getRouteSummary rnd rows = .ok listed ∧
    buckets.Perm listed ∧ AuditService.getSummary rnd buckets now = .ok summary

section Dashboard
variable {rnd : Rounding} {rows : AuditRows}

theorem memory_shows (hfits : rnd.Unrounded (rows.values.map (·.total.toRat))) :
    ∃ listed, InMemoryAuditRepository.getRouteSummary rnd rows = .ok listed ∧ Shows rows.values listed := by
  apply memory_exact_iff.mpr
  intro key
  apply Rounding.Unrounded.sumDrift
  intro part hpart
  apply hfits part
  apply hpart.trans
  rw [amounts_entry, List.map_map]
  exact (List.filter_sublist.map _).subperm

theorem Shows.perm {trails : List AuditTrail} {buckets listed : List RouteSummaryBucket}
    (h : Shows trails listed)
    (hperm : buckets.Perm listed) : Shows trails buckets := (hperm.map _).trans h

theorem Dashboard.directCount {summary : DashboardSummary} (h : Dashboard rnd rows summary)
    (hfits : rnd.Unrounded (rows.values.map (·.total.toRat))) : DirectCount rows.values summary := by
  obtain ⟨listed, buckets, now, hlisted, hperm, hsummary⟩ := h
  obtain ⟨listed', hlisted', hshows⟩ := memory_shows hfits
  cases hlisted.symm.trans hlisted'
  obtain ⟨summary', hsummary', hdirect⟩ := (hshows.perm hperm).directCount hfits now
  cases hsummary.symm.trans hsummary'
  exact hdirect

theorem postgres_directCount (orderBy : RouteSummaryBucket → RouteSummaryBucket → Bool) (now : Timestamp)
    (hfits : rnd.Unrounded (rows.values.map (·.total.toRat))) :
    ∃ summary, AuditService.getSummary rnd (PostgresAuditRepository.getRouteSummary orderBy rows) now =
      .ok summary ∧ DirectCount rows.values summary :=
  Shows.directCount (postgres_exact orderBy rows) hfits now

end Dashboard

end ApprovalFlow
