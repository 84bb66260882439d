import ApprovalFlow.Workflow.Handlers

/-!
# The autonomy ceiling

* `charged_after_approval`: in every run a charge above the ceiling comes after an approver's call for
  its tracking id.
-/

namespace ApprovalFlow.Workflow
open Numeric Async

/-- **The ceiling**: whatever the model answers, and however messages and handlers are delayed, repeated
or lost, an amount above the ceiling is charged only after `approve` was called for the tracking id. -/
theorem charged_after_approval {ν : Type} (env : Deployment ν) (cfg : WorkflowRun)
    (hr : (workflow env).Reach (fun _ _ => True) (System.start .empty) cfg) (i : Nat) (call : WorkflowCall)
    (invoice : Invoice) (t : String) (reply : Except Exn Unit) (newer older : List WorkflowEvent)
    (hlog : cfg.world.log = newer ++ .perform i call (.charge invoice t) reply :: older)
    (hgt : env.thresholds.ceiling < invoice.total) : ∃ j, .invoke j (.approval (.approve t)) ∈ older :=
  (sound hr).charges i call invoice t reply older (hlog ▸ List.suffix_append newer _) hgt

/-- A laptop for 300 dollars. -/
def costlyLaptop : Invoice :=
  { laptop with total := .ofInt 300, lineItems := [⟨"laptop", .ofInt 1, .ofInt 300⟩] }

/-- What the router decides on it. -/
def costlyDecision : Decision :=
  ⟨.humanReview, "Amount/category policy violation(s): AUTONOMY-CEILING.", ["AUTONOMY-CEILING"], "t-1"⟩

/-- The costly laptop is submitted, escalated, approved and paid. -/
def costlySchedule : List (Action WorkflowChoice WorkflowCall) :=
  [.invoke (.seed "engineering" (.ofInt 1000))] ++ steps 0 2 "approve" ++
    [.invoke (.submit "t-1" costlyLaptop)] ++ steps 1 2 "approve" ++
    [.invoke (.process "t-1")] ++ steps 2 3 "approve" ++
    [.invoke (.decide ⟨costlyLaptop, "t-1"⟩)] ++ steps 3 2 "approve" ++
    [.invoke (.approval (.decisionCompleted ⟨costlyLaptop, costlyDecision,
      some (PlainJson.recommended .approve)⟩))] ++
    steps 4 3 "approve" ++
    [.invoke (.approval (.approve "t-1"))] ++ steps 5 4 "approve" ++
    [.invoke (.pay (.approvalCompleted ⟨costlyLaptop, costlyDecision, .approved⟩))] ++ steps 6 6 "approve"

def costlyRun : WorkflowRun :=
  ((workflow plainDeployment).runActions (fun _ _ => true) costlySchedule (System.start .empty)).get
    (by decide +kernel)

/-- The event charges the invoice under that key. -/
def charges (invoice : Invoice) (t : String) : WorkflowEvent → Bool
  | .perform _ _ (.charge invoice' t') _ => invoice' = invoice ∧ t' = t
  | _ => false

theorem charges_eq {invoice : Invoice} {t : String} {e : WorkflowEvent} (h : charges invoice t e = true) :
    ∃ i call reply, e = .perform i call (.charge invoice t) reply := by
  unfold charges at h
  split at h
  · next i call invoice' t' reply =>
    obtain ⟨rfl, rfl⟩ := of_decide_eq_true h
    exact ⟨i, call, reply, rfl⟩
  · cases h

theorem costly_charged_after_approval : ∃ i call reply newer older,
    costlyRun.world.log = newer ++ .perform i call (.charge costlyLaptop "t-1") reply :: older ∧
      ∃ j, .invoke j (.approval (.approve "t-1")) ∈ older := by
  have hcharged : costlyRun.world.log.any (charges costlyLaptop "t-1") = true := by decide +kernel
  obtain ⟨e, he, hcharge⟩ := List.any_eq_true.mp hcharged
  obtain ⟨i, call, reply, rfl⟩ := charges_eq hcharge
  obtain ⟨newer, older, hlog⟩ := List.append_of_mem he
  exact ⟨i, call, reply, newer, older, hlog, charged_after_approval plainDeployment costlyRun
    (System.reach_of_runActions (fun _ _ _ => trivial) costlySchedule (Option.some_get _).symm) i
      call costlyLaptop "t-1"
    reply newer older hlog (by decide +kernel)⟩

end ApprovalFlow.Workflow
