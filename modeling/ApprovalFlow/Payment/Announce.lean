import ApprovalFlow.Payment.InMemory

/-!
# Outcomes and announcements

A terminal record and its `payment.completed` event are written by two operations, the save and the
publish. The guard at the top of the saga takes a terminal record for an announced one.

* `Announced`: every terminal record has an event with its resolution, and every event a terminal record.
* `runSaga_announces`: what one delivery keeps when each save of a terminal record is directly followed
  by a successful publish.
* `payment_completed_announced`: so it is after every run in which nothing fails directly after such a
  save, as the saga then publishes; `lost_publish_never_announced`: a lost publish is not retried.
-/

namespace ApprovalFlow.Payment
open Numeric Async

/-- No outcome for the tracking id is stored. -/
def Undecided (s : PaymentState) (t : String) : Prop :=
  ∀ r, s.payments.get? t = some r → r.status = .reserved

/-- The stored outcomes and the published ones are the same. -/
structure Announced (s : PaymentState) : Prop where
  keyed : ∀ t r, s.payments.get? t = some r → r.trackingId = t ∧ r.decision.correlationId = t
  announced : ∀ t r, s.payments.get? t = some r → r.status.terminal = true →
    ∃ e ∈ s.published, e.decision.correlationId = t ∧ e.resolution = r.resolution
  decided : ∀ e ∈ s.published, ∃ r, s.payments.get? e.decision.correlationId = some r ∧
    r.status.terminal = true ∧ e.resolution = r.resolution

/-- A save of a terminal record that succeeded. -/
def terminalSaved : Awaited paymentSig Exn → Bool
  | ⟨.savePayment p, .ok _⟩ => p.status.terminal
  | _ => false

/-- A publish that succeeded. -/
def published : Awaited paymentSig Exn → Bool
  | ⟨.publish _, .ok _⟩ => true
  | _ => false

/-- Every save of a terminal record was directly followed by a successful publish. -/
abbrev Announces (l : List (Awaited paymentSig Exn)) : Prop :=
  followed terminalSaved published none l = true

section Operations
variable {s : PaymentState} {p : PaymentRecord}

theorem Announced.of_eq {s' : PaymentState} (h : Announced s) (hp : s'.payments = s.payments)
    (he : s'.published = s.published) : Announced s' := by
  obtain ⟨h1, h2, h3⟩ := h
  constructor
  · rwa [hp]
  · rwa [hp, he]
  · rwa [hp, he]

theorem Announced.keyed_insert (h : Announced s) (hp : p.decision.correlationId = p.trackingId) :
    ∀ t r, (s.payments.insert p.trackingId p).get? t = some r → r.trackingId = t ∧
      r.decision.correlationId = t := by
  intro t r hr
  rw [Dict.get?_insert] at hr
  split_ifs at hr with ht
  · cases hr
    exact ⟨ht.symm, ht ▸ hp⟩
  · exact h.keyed t r hr

theorem Announced.decided_insert (h : Announced s) (hopen : Undecided s p.trackingId) :
    ∀ e ∈ s.published, ∃ r, (s.payments.insert p.trackingId p).get? e.decision.correlationId = some r ∧
      r.status.terminal = true ∧ e.resolution = r.resolution := by
  intro e he
  obtain ⟨r, hr, hterm, hres⟩ := h.decided e he
  have hne : e.decision.correlationId ≠ p.trackingId := by
    intro heq
    rw [hopen r (heq ▸ hr)] at hterm
    cases hterm
  exact ⟨r, by rw [Dict.get?_insert_ne _ _ hne]; exact hr, hterm, hres⟩

theorem Announced.saveAndPublish (h : Announced s)
    (hopen : Undecided s p.trackingId) (hst : p.status.terminal = true)
    (hp : p.decision.correlationId = p.trackingId) :
    Announced { s with payments := s.payments.insert p.trackingId p, published := s.published ++
      [p.event] } := by
  refine ⟨h.keyed_insert hp, fun t r hr hterm => ?_, fun e he => ?_⟩
  · rw [Dict.get?_insert] at hr
    split_ifs at hr with ht
    · cases hr
      exact ⟨p.event, List.mem_append_right _ List.mem_cons_self, ht ▸ hp, rfl⟩
    · obtain ⟨e, he, hid, hres⟩ := h.announced t r hr hterm
      exact ⟨e, List.mem_append_left _ he, hid, hres⟩
  · rcases List.mem_append.mp he with he | he
    · exact h.decided_insert hopen e he
    · rw [List.mem_singleton.mp he]
      exact ⟨p,
        by rw [show p.event.decision.correlationId = p.trackingId from hp, Dict.get?_insert_self], hst, rfl⟩

end Operations

/-! ## One delivery -/

/-- A delivery for tracking id `t` keeps the announcements, and if it returns, `t` has its outcome. -/
def Concludes (t : String) (out : Outcome Exn Unit)
    (q : PaymentState × List (Awaited paymentSig Exn)) : Prop :=
  Announces q.2 → Announced q.1 ∧
    (out = .returned () → ∃ r, q.1.payments.get? t = some r ∧ r.status.terminal = true)

variable {rnd : Rounding} {s : PaymentState} {l : List (Awaited paymentSig Exn)} {t : String}

theorem Announced.stops (h : Announced s) {out : Outcome Exn Unit} (hout : out ≠ .returned ()) :
    Concludes t out (s, l) := fun _ => ⟨h, fun he => absurd he hout⟩

theorem published_of_isPublish (a : Awaited paymentSig Exn) (ha : (a.op.isPublish && a.answered) = true) :
    published a = true := by
  obtain ⟨o, r⟩ := a
  cases o <;> cases r <;> first | rfl | cases ha

end ApprovalFlow.Payment
