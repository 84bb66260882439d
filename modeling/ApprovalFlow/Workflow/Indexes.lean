import ApprovalFlow.Shared.IndexIntegrity
import ApprovalFlow.Payment.DaprState
import ApprovalFlow.Approval.DaprState
import ApprovalFlow.Approval.InMemory

/-!
# The indexes of Payment and Approval

* `saveThenList`: saves one after another and a listing, over any repository; `payments_listed`,
  `approvals_listed`: what the in-memory repositories list.
* `indexes_intact`: in every interleaving of saves the indexes of both Dapr repositories are intact, and
  both list what the in-memory repositories list after the same commits.
-/

namespace ApprovalFlow
open Numeric Async Versioned IndexedState

theorem DaprStatePaymentRepository.lawful : DaprStatePaymentRepository.layout.Lawful :=
  ⟨fun _ => rfl, fun _ => rfl⟩

theorem DaprStateApprovalRepository.lawful : DaprStateApprovalRepository.layout.Lawful :=
  ⟨fun _ => rfl, fun _ => rfl⟩

/-- Saves one after another, and a listing. -/
def saveThenList {σ : Sig} {R : Type} (save : R → Prog σ Exn Unit) (list : Prog σ Exn (List R)) :
    List R → Prog σ Exn (List R)
  | [] => list
  | r :: rs => do
    save r
    saveThenList save list rs

theorem payments_listed (rnd : Rounding) (verdict : Option String) (saves : List (Nat × PaymentRecord)) :
    ((saveThenList inMemoryPayment.repository.save inMemoryPayment.repository.listAll
      (saves.map Prod.snd)).eval (PaymentState.perform rnd verdict) (PaymentState.seeded [])).1 =
      .ok (inOrder DaprStatePaymentRepository.layout saves).values := by
  have h (s : PaymentState) :
      ((saveThenList inMemoryPayment.repository.save inMemoryPayment.repository.listAll
        (saves.map Prod.snd)).eval (PaymentState.perform rnd verdict) s).1 =
        .ok (saves.foldl (fun d p => d.insert p.2.trackingId p.2) s.payments).values := by
    induction saves generalizing s with
    | nil => rfl
    | cons p saves ih => exact ih _
  exact h (PaymentState.seeded [])

theorem approvals_listed (saves : List (Nat × PendingApproval)) :
    ((saveThenList inMemoryApproval.repository.save inMemoryApproval.repository.listPending
      (saves.map Prod.snd)).eval
      ApprovalState.perform ApprovalState.empty).1 =
        .ok (inOrder DaprStateApprovalRepository.layout saves).values := by
  have h (s : ApprovalState) :
      ((saveThenList inMemoryApproval.repository.save inMemoryApproval.repository.listPending
        (saves.map Prod.snd)).eval ApprovalState.perform s).1 =
        .ok (saves.foldl (fun d p => d.insert p.2.trackingId p.2) s.approvals).values := by
    induction saves generalizing s with
    | nil => rfl
    | cons p saves ih => exact ih _
  exact h ApprovalState.empty

/-- Saves of payments on one store. -/
def paymentSaves : System (storeSig PaymentValue) Exn Unit (Store PaymentValue) Reception PaymentRecord :=
  clients DaprStatePaymentRepository.layout

/-- Saves of approvals on one store. -/
def approvalSaves :
    System (storeSig ApprovalValue) Exn Unit (Store ApprovalValue) Reception PendingApproval :=
  clients DaprStateApprovalRepository.layout

/-- **Indexes intact**: in every interleaving of saves, the index of Payment and that of Approval name
every record that is there, once and in the order of the first commits; a save that raised wrote nothing;
and a listing returns what the in-memory repository lists after the same commits. -/
theorem indexes_intact (payments : SaveConfig PaymentValue PaymentRecord)
    (approvals : SaveConfig ApprovalValue PendingApproval)
    (hpayments : paymentSaves.Reach (meets Answered) (System.start .empty) payments)
    (happrovals : approvalSaves.Reach (meets Answered) (System.start .empty) approvals) :
    (Intact DaprStatePaymentRepository.layout payments ∧
      ∀ rnd verdict,
        ((DaprStatePaymentRepository.listAll (storeClient PaymentValue)).eval (serving PaymentValue)
          payments.world.state).1 =
        ((saveThenList inMemoryPayment.repository.save inMemoryPayment.repository.listAll
          ((commits payments.world.log).map Prod.snd)).eval (PaymentState.perform rnd verdict)
            (PaymentState.seeded [])).1) ∧
    (Intact DaprStateApprovalRepository.layout approvals ∧
      ((DaprStateApprovalRepository.listPending (storeClient ApprovalValue)).eval (serving ApprovalValue)
          approvals.world.state).1 =
        ((saveThenList inMemoryApproval.repository.save inMemoryApproval.repository.listPending
          ((commits approvals.world.log).map Prod.snd)).eval ApprovalState.perform
            ApprovalState.empty).1) := by
  have hp := intact _ DaprStatePaymentRepository.lawful payments hpayments
  have ha := intact _ DaprStateApprovalRepository.lawful approvals happrovals
  refine ⟨⟨hp, fun rnd verdict => ?_⟩, ha, ?_⟩
  · obtain ⟨rs, heval, -, -, rfl⟩ := hp.listed
    rw [payments_listed rnd verdict]
    exact congrArg Prod.fst heval
  · obtain ⟨rs, heval, -, -, rfl⟩ := ha.listed
    rw [approvals_listed]
    exact congrArg Prod.fst heval

/-- Two saves that both read the empty index: the second is refused, and tries again. -/
def contendedSaves {R : Type} (r r' : R) : List (Action Reception R) :=
  [.invoke r, .invoke r', .step 0 .serve, .step 1 .serve, .step 0 .serve, .step 1 .serve,
    .step 1 .serve, .step 1 .serve, .respond 0, .respond 1]

/-- No action loses a reply. -/
def answered {V R : Type} (_ : SaveConfig V R) : Action Reception R → Bool
  | .step _ c => c ≠ .lose
  | _ => true

theorem meets_of_answered {V R : Type} (cfg : SaveConfig V R) (a : Action Reception R)
    (h : answered cfg a = true) : meets Answered cfg a := by
  cases a with
  | invoke r => trivial
  | respond i => trivial
  | step i c =>
    intro r o k _
    have hc : c ≠ .lose := of_decide_eq_true h
    exact hc

def contendedPayments : SaveConfig PaymentValue PaymentRecord :=
  (paymentSaves.runActions answered (contendedSaves (.ofReservation laptop ⟨.autoApprove, "", [], "t-1"⟩)
    (.ofReservation laptop ⟨.autoApprove, "", [], "t-2"⟩)) (System.start .empty)).get (by decide)

def contendedApprovals : SaveConfig ApprovalValue PendingApproval :=
  (approvalSaves.runActions answered
    (contendedSaves (.ofEvent ⟨laptop, ⟨.humanReview, "", [], "t-1"⟩, none⟩)
    (.ofEvent ⟨laptop, ⟨.humanReview, "", [], "t-2"⟩, none⟩)) (System.start .empty)).get (by decide)

theorem contended_indexes :
    index DaprStatePaymentRepository.layout contendedPayments.world.state = ["t-1", "t-2"] ∧
      Intact DaprStatePaymentRepository.layout contendedPayments ∧
      Intact DaprStateApprovalRepository.layout contendedApprovals := by
  obtain ⟨hp, ha⟩ := indexes_intact contendedPayments contendedApprovals
    (System.reach_of_runActions meets_of_answered _ (Option.some_get _).symm)
    (System.reach_of_runActions meets_of_answered _ (Option.some_get _).symm)
  exact ⟨by decide, hp.1, ha.1⟩

end ApprovalFlow
