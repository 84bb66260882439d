import ApprovalFlow.Async.Calls
import ApprovalFlow.Async.Pool
import ApprovalFlow.Async.Linearize
import ApprovalFlow.Store.Versioned
import ApprovalFlow.Decision.Router
import ApprovalFlow.Decision.Config
import ApprovalFlow.Intake.FirstWrite
import ApprovalFlow.Intake.Duplicates
import ApprovalFlow.Intake.DedupKey
import ApprovalFlow.Intake.Pointers
import ApprovalFlow.Payment.Orphans
import ApprovalFlow.Payment.Announce
import ApprovalFlow.Payment.Bounds
import ApprovalFlow.Payment.LostReply
import ApprovalFlow.Payment.Linearize
import ApprovalFlow.Payment.Replay
import ApprovalFlow.Payment.Resume
import ApprovalFlow.Approval.Announce
import ApprovalFlow.Approval.Concurrent
import ApprovalFlow.Approval.Lifecycle
import ApprovalFlow.Notification.Deliver
import ApprovalFlow.Audit.OrderFree
import ApprovalFlow.Audit.Agree
import ApprovalFlow.Audit.Dashboard
import ApprovalFlow.Auth.Registration
import ApprovalFlow.Shared.Throttle
import ApprovalFlow.Shared.RetryAfter
import ApprovalFlow.Workflow.Indexes
import ApprovalFlow.Workflow.Ceiling
import ApprovalFlow.Workflow.Exclusive
import ApprovalFlow.Decision.Reconcile
import ApprovalFlow.Decision.Merge
import ApprovalFlow.Decision.Similarity
import ApprovalFlow.Shared.Bulkhead
import ApprovalFlow.Workflow.Endpoints
import ApprovalFlow.Workflow.Listings
import ApprovalFlow.Intake.Confidential
import ApprovalFlow.Shared.Admission
import ApprovalFlow.Shared.Linearize
import ApprovalFlow.Audit.History
import ApprovalFlow.Payment.Recover
import ApprovalFlow.Workflow.Trail
import ApprovalFlow.Auth.Lockout
import ApprovalFlow.Payment.Refine
import ApprovalFlow.Approval.Refine
