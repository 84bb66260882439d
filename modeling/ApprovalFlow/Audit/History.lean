import ApprovalFlow.Audit.Agree
import ApprovalFlow.Audit.Dashboard

/-!
# The dashboard of a history

What `GET /audit/summary` shows after any deliveries to the table, in terms of the events themselves: the
last event of an id names its route, its currency and its amount, and its last approval the resolution.

* `Tells`: a summary of the entries of a history, one for each id.
* `dashboard_tells`: the summary after the deliveries is that of their entries.
-/

namespace ApprovalFlow
open Numeric PostgresAuditRepository

/-- The amounts of some entries in a currency. -/
def chosenIn (chosen : BucketKey → Bool) (currency : String) (history : List (BucketKey × ℚ)) : List ℚ :=
  (history.filter fun entry => chosen entry.1 ∧ entry.1.2.1 = currency).map Prod.snd

/-- A summary that shows these entries. -/
structure Tells (history : List (BucketKey × ℚ)) (summary : DashboardSummary) : Prop where
  total : summary.totalInvoices = history.length
  byRoute : ∀ route, (summary.countsByRoute.get? route.value).getD 0 = history.countP (·.1.1 = route)
  sum : summary.countsByRoute.values.sum = summary.totalInvoices
  auto : summary.autoApprovedCount = history.countP (·.1.1 = .autoApprove)
  human : summary.humanReviewCount = history.countP (·.1.1 = .humanReview)
  moneyAuto : ∀ currency, shownIn summary.moneyAutoApproved currency =
    sum? (chosenIn isAutoApproved currency history)
  moneyHuman : ∀ currency, shownIn summary.moneyHumanApproved currency =
    sum? (chosenIn isHumanApproved currency history)

section History
variable {trails : List AuditTrail} {summary : DashboardSummary}

theorem amountsIn_entry (chosen : BucketKey → Bool) (currency : String) (trails : List AuditTrail) :
    amountsIn chosen currency trails = chosenIn chosen currency (trails.map (·.entry)) := by
  rw [amountsIn, chosenIn, List.filter_map, List.map_map]
  rfl

theorem countP_entry (trails : List AuditTrail) (route : Route) :
    trails.countP (·.route = route) = (trails.map (·.entry)).countP (·.1.1 = route) := by
  rw [List.countP_map]
  rfl

theorem DirectCount.tells (h : DirectCount trails summary) : Tells (trails.map (·.entry)) summary where
  total := by rw [h.total, List.length_map]
  byRoute route := by rw [h.byRoute, countP_entry]
  sum := h.sum
  auto := by rw [h.auto, countP_entry]
  human := by rw [h.human, countP_entry]
  moneyAuto currency := by rw [h.moneyAuto, amountsIn_entry]
  moneyHuman currency := by rw [h.moneyHuman, amountsIn_entry]

theorem length_entries (deliveries : List (AuditEvent × Timestamp)) :
    (entries deliveries).length = (deliveries.map (·.1.correlationId)).toFinset.card := by
  rw [← postgres_entries, List.length_map, Dict.values, List.length_map, ← List.length_map,
    ← Dict.keys, Projector.keys_run]
  exact Projector.length_firstKeys deliveries

end History

/-- **The dashboard tells the history**: after any deliveries to the table, repeated and in any order,
whose amounts add up exactly, the summary counts every id once, under the route of its last event, and
adds up the amounts of these events. -/
theorem dashboard_tells (rnd : Rounding) (orderBy : RouteSummaryBucket → RouteSummaryBucket → Bool)
    (now : Timestamp)
    (deliveries : List (AuditEvent × Timestamp))
    (hfits : rnd.Unrounded ((entries deliveries).map Prod.snd)) :
    ∃ summary, AuditService.getSummary rnd (PostgresAuditRepository.getRouteSummary orderBy
        (AuditService.recordAll postgresAuditRepository deliveries .empty)) now = .ok summary ∧
      Tells (entries deliveries) summary ∧
      summary.totalInvoices = (deliveries.map (·.1.correlationId)).toFinset.card := by
  rw [recordAll_postgres]
  rw [← postgres_entries, List.map_map] at hfits
  obtain ⟨summary, hsummary, hdirect⟩ :=
    @postgres_directCount _ (postgres.run .empty deliveries) orderBy now hfits
  have htells := hdirect.tells
  rw [postgres_entries] at htells
  exact ⟨summary, hsummary, htells, htells.total.trans (length_entries deliveries)⟩

/-- A laptop that a human approved, with its events repeated and out of order, and one that was approved
automatically. -/
def twoLaptops : List (AuditEvent × Timestamp) :=
  [(.approval ⟨laptop, ⟨.humanReview, "", [], "t1"⟩, .approved⟩, 1),
    (.decision ⟨laptop, ⟨.humanReview, "", [], "t1"⟩, none⟩, 2),
    (.decision ⟨laptop, ⟨.autoApprove, "", [], "t2"⟩, none⟩, 3),
    (.decision ⟨laptop, ⟨.humanReview, "", [], "t1"⟩, none⟩, 4)]

theorem twoLaptops_told : ∃ summary,
    AuditService.getSummary defaultContext.rounding (PostgresAuditRepository.getRouteSummary
      (fun _ _ => true) (AuditService.recordAll postgresAuditRepository twoLaptops .empty)) 5 =
        .ok summary ∧
    Tells [((.humanReview, "USD", some .approved), laptop.total.toRat),
      ((.autoApprove, "USD", none), laptop.total.toRat)] summary ∧ summary.totalInvoices = 2 := by
  have hunits (units : List ℕ) (h : units.sum ≤ 10 ^ 28) :
      defaultContext.rounding.Unrounded (units.map fun n : ℕ => (n : ℚ) * 10 ^ (0 : ℤ)) :=
    Context.unrounded_multiples (by decide) (by decide) h
  exact dashboard_tells defaultContext.rounding
    (fun _ _ => true) 5 twoLaptops (hunits [100, 100] (by decide))

end ApprovalFlow
