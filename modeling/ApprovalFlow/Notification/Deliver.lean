import ApprovalFlow.Notification.Service
import ApprovalFlow.Async.Calls

/-!
# Notifications sent and repeated

The three handlers over the in-memory marks, with a repository and a channel that may raise at each call
without effect.

* `faultyNotification`: how the operations are answered; `deliver`: a sequence of deliveries, each to its
  end.
* `Counted`: the sends, the failed marks and the marks of a tracking id, as one invariant of the log.
* `notified`: nothing is skipped, and a repeated message has a failed mark for its reason.
-/

namespace ApprovalFlow.Notification
open Async

inductive NotificationOp
  | alreadyNotified (trackingId : String)
  | send (invoice : Invoice) (trackingId message source : String)
  | markNotified (trackingId : String)

def notificationSig : Sig where
  Op := NotificationOp
  Res
    | .alreadyNotified _ => Bool
    | .send _ _ _ _ => Unit
    | .markNotified _ => Unit

def inMemoryNotification : NotificationService notificationSig where
  repository :=
    { alreadyNotified := fun t => .op (σ := notificationSig) (.alreadyNotified t)
      markNotified := fun t => .op (σ := notificationSig) (.markNotified t) }
  channel := ⟨fun invoice t message source => .op (σ := notificationSig) (.send invoice t message source)⟩

/-- What each operation of a delivery raises, if it does. -/
structure NotificationFaults where
  alreadyNotified : Option Exn
  send : Option Exn
  markNotified : Option Exn

/-- `InMemoryNotificationRepository` and a channel, with faults. -/
def faultyNotification : Handler notificationSig Exn (List String) NotificationFaults
  | faults, .alreadyNotified t, marks =>
    match faults.alreadyNotified with
    | some e => (.error e, marks)
    | none => (.ok (decide (t ∈ marks)), marks)
  | faults, .send _ _ _ _, marks =>
    match faults.send with
    | some e => (.error e, marks)
    | none => (.ok (), marks)
  | faults, .markNotified t, marks =>
    match faults.markNotified with
    | some e => (.error e, marks)
    | none => (.ok (), t :: marks)

/-- The marks, and what was awaited so far, newest first. -/
abbrev NotificationRun := List String × List (Awaited notificationSig Exn)

/-- Deliveries, one after another, from an empty store. -/
def deliver (deliveries : List (NotificationDelivery × NotificationFaults)) : NotificationRun :=
  leaves faultyNotification.logged inMemoryNotification.handle deliveries ([], [])

/-! ## What is counted -/

/-- A successful send for `t`. -/
def sentFor (t : String) : Awaited notificationSig Exn → Bool
  | ⟨.send _ t' _ _, .ok _⟩ => t' == t
  | _ => false

/-- A successful mark of `t`. -/
def markedFor (t : String) : Awaited notificationSig Exn → Bool
  | ⟨.markNotified t', .ok _⟩ => t' == t
  | _ => false

/-- A failed mark of `t`. -/
def unmarkedFor (t : String) : Awaited notificationSig Exn → Bool
  | ⟨.markNotified t', .error _⟩ => t' == t
  | _ => false

/-- The event calls for a notification. -/
def notifies : NotificationDelivery → Prop
  | .decisionCompleted event => event.decision.route = .reject ∨ event.decision.route = .duplicate
  | .approvalCompleted event => event.resolution = .rejected
  | .paymentCompleted _ => True

def trackingId : NotificationDelivery → String
  | .decisionCompleted event => event.decision.correlationId
  | .approvalCompleted event => event.decision.correlationId
  | .paymentCompleted event => event.decision.correlationId

/-- Every send but the last was followed by a failed mark, and so was the last unless the id is marked. -/
structure Counted (marks : List String) (log : List (Awaited notificationSig Exn)) : Prop where
  unmarked : ∀ t, t ∉ marks → log.countP (sentFor t) ≤ log.countP (unmarkedFor t)
  repeated : ∀ t, log.countP (sentFor t) ≤ 1 + log.countP (unmarkedFor t)
  sent : ∀ t ∈ marks, 0 < log.countP (sentFor t)
  ordered : ∀ newer older a t, log = newer ++ a :: older → markedFor t a = true →
    0 < older.countP (sentFor t)

/-! ## One delivery -/

/-- What `_notify` may come to. -/
inductive Attempt (invoice : Invoice) (t message source : String) (marks : List String)
    (log : List (Awaited notificationSig Exn)) : Except Exn Unit × NotificationRun → Prop
  | unread (e : Exn) : Attempt invoice t message source marks log
      (.error e, marks, ⟨.alreadyNotified t, .error e⟩ :: log)
  | skipped (h : t ∈ marks) : Attempt invoice t message source marks log
      (.ok (), marks, ⟨.alreadyNotified t, .ok true⟩ :: log)
  | unsent (h : t ∉ marks) (e : Exn) : Attempt invoice t message source marks log
      (.error e, marks,
        ⟨.send invoice t message source, .error e⟩ :: ⟨.alreadyNotified t, .ok false⟩ :: log)
  | unmarked (h : t ∉ marks) (e : Exn) : Attempt invoice t message source marks log
      (.error e, marks, ⟨.markNotified t, .error e⟩ :: ⟨.send invoice t message source, .ok ()⟩ ::
        ⟨.alreadyNotified t, .ok false⟩ :: log)
  | marked (h : t ∉ marks) : Attempt invoice t message source marks log
      (.ok (), t :: marks, ⟨.markNotified t, .ok ()⟩ :: ⟨.send invoice t message source, .ok ()⟩ ::
        ⟨.alreadyNotified t, .ok false⟩ :: log)

section Delivery
variable {faults : NotificationFaults} {invoice : Invoice} {t message source : String} {marks : List String}
  {log : List (Awaited notificationSig Exn)} {run : NotificationRun}

theorem notify_attempt : Attempt invoice t message source marks log
    ((inMemoryNotification.notify invoice t message source).eval
      (faultyNotification.logged faults) (marks, log)) := by
  obtain ⟨read, send, mark⟩ := faults
  cases read with
  | some e => exact .unread e
  | none =>
    show Attempt _ _ _ _ _ _ (Prog.eval _ (if decide (t ∈ marks) = true then Prog.ret () else _)
      (marks, ⟨.alreadyNotified t, .ok (decide (t ∈ marks))⟩ :: log))
    by_cases h : t ∈ marks
    · rw [decide_eq_true h]
      exact .skipped h
    · rw [decide_eq_false h]
      cases send with
      | some e => exact .unsent h e
      | none =>
        cases mark with
        | some e => exact .unmarked h e
        | none => exact .marked h

theorem Counted.quiet (h : Counted marks log) {a : Awaited notificationSig Exn}
    (hs : ∀ t, sentFor t a = false)
    (hm : ∀ t, markedFor t a = false) (hu : ∀ t, unmarkedFor t a = false) : Counted marks (a :: log) := by
  have hsent (t : String) : (a :: log).countP (sentFor t) = log.countP (sentFor t) :=
    List.countP_cons_of_neg (by rw [hs]; decide)
  have hfailed (t : String) : (a :: log).countP (unmarkedFor t) = log.countP (unmarkedFor t) :=
    List.countP_cons_of_neg (by rw [hu]; decide)
  constructor
  · intro t ht
    rw [hsent, hfailed]
    exact h.unmarked t ht
  · intro t
    rw [hsent, hfailed]
    exact h.repeated t
  · intro t ht
    rw [hsent]
    exact h.sent t ht
  · intro newer older b t hlog hb
    cases newer with
    | nil =>
      cases hlog
      rw [hm] at hb
      cases hb
    | cons c newer =>
      cases hlog
      exact h.ordered newer older b t rfl hb

section Sent
variable {reply : Except Exn Unit}

/-- The log after a send and an attempt to mark. -/
def afterSend (invoice : Invoice) (t message source : String) (reply : Except Exn Unit)
    (log : List (Awaited notificationSig Exn)) : List (Awaited notificationSig Exn) :=
  ⟨.markNotified t, reply⟩ :: ⟨.send invoice t message source, .ok ()⟩ :: log

theorem countP_sent (t' : String) : (afterSend invoice t message source reply log).countP (sentFor t') =
    log.countP (sentFor t') + if t = t' then 1 else 0 := by
  unfold afterSend
  rw [List.countP_cons_of_neg (by simp [sentFor]), List.countP_cons]
  simp [sentFor]

theorem countP_failed (t' : String) (e : Exn) :
    (afterSend invoice t message source (.error e) log).countP (unmarkedFor t') =
      log.countP (unmarkedFor t') + if t = t' then 1 else 0 := by
  unfold afterSend
  rw [List.countP_cons, List.countP_cons_of_neg (by simp [unmarkedFor])]
  simp [unmarkedFor]

theorem countP_marked (t' : String) :
    (afterSend invoice t message source (.ok ()) log).countP (unmarkedFor t') =
      log.countP (unmarkedFor t') := by
  unfold afterSend
  rw [List.countP_cons_of_neg (by simp [unmarkedFor]), List.countP_cons_of_neg (by simp [unmarkedFor])]

/-- The send stands before the mark. -/
theorem Counted.ordered_afterSend (h : Counted marks log) (newer older : List (Awaited notificationSig Exn))
    (a : Awaited notificationSig Exn) (t' : String)
    (hlog : afterSend invoice t message source reply log = newer ++ a :: older)
    (ha : markedFor t' a = true) : 0 < older.countP (sentFor t') := by
  unfold afterSend at hlog
  cases newer with
  | nil =>
    cases hlog
    have ht : t = t' := by
      cases reply <;> simp_all [markedFor]
    rw [List.countP_cons]
    simp [sentFor, ht]
  | cons b newer =>
    cases newer with
    | nil =>
      cases hlog
      cases ha
    | cons c newer =>
      cases hlog
      exact h.ordered newer older a t' rfl ha

/-- Sent, and not marked: the failed mark accounts for the next message. -/
theorem Counted.resent (h : Counted marks log) (e : Exn) :
    Counted marks (afterSend invoice t message source (.error e) log) := by
  refine ⟨fun t' ht' => ?_, fun t' => ?_, fun t' ht' => ?_, h.ordered_afterSend⟩
  · have := h.unmarked t' ht'
    rw [countP_sent, countP_failed]
    omega
  · have := h.repeated t'
    rw [countP_sent, countP_failed]
    omega
  · have := h.sent t' ht'
    rw [countP_sent]
    omega

theorem Counted.settled (h : Counted marks log) (ht : t ∉ marks) :
    Counted (t :: marks) (afterSend invoice t message source (.ok ()) log) := by
  have hopen := h.unmarked t ht
  refine ⟨fun t' ht' => ?_, fun t' => ?_, fun t' ht' => ?_, h.ordered_afterSend⟩
  · have hne : t ≠ t' := fun heq => ht' (heq ▸ List.mem_cons_self)
    have := h.unmarked t' fun hmem => ht' (List.mem_cons_of_mem _ hmem)
    rw [countP_sent, countP_marked, if_neg hne]
    omega
  · rw [countP_sent, countP_marked]
    split_ifs with heq
    · subst heq
      omega
    · have := h.repeated t'
      omega
  · rw [countP_sent]
    split_ifs with heq
    · omega
    · have := h.sent t' ((List.mem_cons.mp ht').resolve_left fun h => heq h.symm)
      omega

end Sent

/-- **Every attempt keeps the counts**, and one that returns has its message sent. -/
theorem Attempt.counted {out : Except Exn Unit × NotificationRun}
    (h : Attempt invoice t message source marks log out) (hcounted : Counted marks log) :
    Counted out.2.1 out.2.2 ∧ (out.1 = .ok () → 0 < out.2.2.countP (sentFor t)) := by
  have hread (reply : Except Exn Bool) : Counted marks (⟨.alreadyNotified t, reply⟩ :: log) :=
    hcounted.quiet (fun _ => rfl) (fun _ => rfl) fun _ => rfl
  cases h with
  | unread e => exact ⟨hread _, fun h => (by cases h)⟩
  | skipped hmem => exact ⟨hread _, fun _ => (hread (.ok true)).sent t hmem⟩
  | unsent hmem e =>
    exact ⟨(hread _).quiet (fun _ => rfl) (fun _ => rfl) fun _ => rfl, fun h => (by cases h)⟩
  | unmarked hmem e => exact ⟨(hread _).resent e, fun h => (by cases h)⟩
  | marked hmem =>
    have hsettled : Counted (t :: marks) (afterSend invoice t message source (.ok ())
        (⟨.alreadyNotified t, .ok false⟩ :: log)) := (hread _).settled hmem
    exact ⟨hsettled, fun _ => hsettled.sent t List.mem_cons_self⟩

end Delivery

/-! ## Runs -/

section Run
variable {faults : NotificationFaults} {delivery : NotificationDelivery} {run : NotificationRun}

/-- An event that calls for a notification is one attempt. -/
theorem handle_attempt (h : notifies delivery) : ∃ invoice message source,
    Attempt invoice (trackingId delivery) message source run.1 run.2
      ((inMemoryNotification.handle delivery).eval (faultyNotification.logged faults) run) := by
  cases delivery with
  | decisionCompleted event =>
    have hroute : ¬ (event.decision.route ≠ .reject ∧ event.decision.route ≠ .duplicate) := by
      rw [not_and_or, not_not, not_not]
      exact h
    refine ⟨event.invoice, NotificationService.rejectOrDuplicateMessage event.decision,
      "decision.completed", ?_⟩
    show Attempt _ _ _ _ _ _ ((inMemoryNotification.handleDecisionCompleted event).eval _ _)
    unfold NotificationService.handleDecisionCompleted
    rw [if_neg hroute]
    exact notify_attempt
  | approvalCompleted event =>
    have hresolution : ¬ event.resolution ≠ .rejected := not_not.mpr h
    refine ⟨event.invoice, NotificationService.approvalRejectedMessage event.decision,
      "approval.completed", ?_⟩
    show Attempt _ _ _ _ _ _ ((inMemoryNotification.handleApprovalCompleted event).eval _ _)
    unfold NotificationService.handleApprovalCompleted
    rw [if_neg hresolution]
    exact notify_attempt
  | paymentCompleted event => exact ⟨event.invoice, _, _, notify_attempt⟩

theorem handle_ignored (h : ¬ notifies delivery) :
    (inMemoryNotification.handle delivery).eval (faultyNotification.logged faults) run = (.ok (), run) := by
  cases delivery with
  | decisionCompleted event =>
    have hroute : event.decision.route ≠ .reject ∧ event.decision.route ≠ .duplicate := not_or.mp h
    show (inMemoryNotification.handleDecisionCompleted event).eval _ _ = _
    unfold NotificationService.handleDecisionCompleted
    rw [if_pos hroute]
    rfl
  | approvalCompleted event =>
    have hresolution : event.resolution ≠ .rejected := h
    show (inMemoryNotification.handleApprovalCompleted event).eval _ _ = _
    unfold NotificationService.handleApprovalCompleted
    rw [if_pos hresolution]
    rfl
  | paymentCompleted event => exact absurd trivial h

theorem handle_counted (h : Counted run.1 run.2) :
    let after := ((inMemoryNotification.handle delivery).eval (faultyNotification.logged faults) run).2
    Counted after.1 after.2 := by
  intro after
  by_cases hn : notifies delivery
  · obtain ⟨invoice, message, source, hattempt⟩ := @handle_attempt faults delivery run hn
    exact (hattempt.counted h).1
  · have hafter : after = run := congrArg Prod.snd (handle_ignored hn)
    rw [hafter]
    exact h

/-- **The run lemma.** -/
theorem deliver_counted (deliveries : List (NotificationDelivery × NotificationFaults)) :
    Counted (deliver deliveries).1 (deliver deliveries).2 := by
  refine leaves_inv (I := fun run => Counted run.1 run.2)
    (fun _ _ _ h => handle_counted h) deliveries ([], []) ?_
  refine ⟨fun _ _ => Nat.le_refl _, fun _ => Nat.zero_le _, fun t ht => ?_,
    fun newer older a t hlog _ => ?_⟩
  · cases ht
  · simp at hlog

/-- **Notifications are never skipped and rarely repeated.** After any deliveries: the next one, if its
event calls for a notification and it returns, has its message sent, by it or before; a message is sent
once and once more for each failed mark; a mark follows a successful send; and an event that calls for no
notification does nothing. -/
theorem notified (deliveries : List (NotificationDelivery × NotificationFaults)) :
    (∀ delivery faults, notifies delivery →
      ((inMemoryNotification.handle delivery).eval (faultyNotification.logged faults)
        (deliver deliveries)).1 = .ok () →
      0 < (deliver (deliveries ++ [(delivery, faults)])).2.countP (sentFor (trackingId delivery))) ∧
    (∀ t, (deliver deliveries).2.countP (sentFor t) ≤ 1 + (deliver deliveries).2.countP (unmarkedFor t)) ∧
    (∀ t ∈ (deliver deliveries).1, 0 < (deliver deliveries).2.countP (sentFor t)) ∧
    (∀ newer older a t, (deliver deliveries).2 = newer ++ a :: older → markedFor t a = true →
      0 < older.countP (sentFor t)) ∧
    ∀ delivery faults, ¬ notifies delivery →
      (inMemoryNotification.handle delivery).eval (faultyNotification.logged faults) (deliver deliveries) =
        (.ok (), deliver deliveries) := by
  have hcounted := deliver_counted deliveries
  refine ⟨fun delivery faults hn hreturned => ?_, hcounted.repeated, hcounted.sent, hcounted.ordered,
    fun delivery faults hn => handle_ignored hn⟩
  obtain ⟨invoice, message, source, hattempt⟩ := @handle_attempt faults delivery (deliver deliveries) hn
  have hsent := (hattempt.counted hcounted).2 hreturned
  unfold deliver leaves at *
  rw [List.foldl_append]
  exact hsent

end Run

/-- The payment of the laptop. -/
def laptopPaid : NotificationDelivery :=
  .paymentCompleted ⟨laptop, ⟨.autoApprove, "", [], "t1"⟩, .completed, "payment executed successfully"⟩

/-- A delivery whose mark fails, and its redelivery. -/
def redelivered : List (NotificationDelivery × NotificationFaults) :=
  [(laptopPaid, ⟨none, none, some .runtimeError⟩), (laptopPaid, ⟨none, none, none⟩)]

/-- One failed mark, and so two messages. -/
theorem redelivered_notified : (deliver redelivered).2.countP (sentFor "t1") = 2 ∧
    (deliver redelivered).2.countP (sentFor "t1") ≤ 1 + (deliver redelivered).2.countP (unmarkedFor "t1") :=
  ⟨by decide, (notified redelivered).2.1 "t1"⟩

end ApprovalFlow.Notification
