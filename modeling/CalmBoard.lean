import CalmBoard.Tasks.Paging
import CalmBoard.Sprints.Membership
import CalmBoard.Tasks.Progress
import CalmBoard.Ai.Accounting
import CalmBoard.Usage.Shrinking
import CalmBoard.Timesheets.Closing
import CalmBoard.Timesheets.Approved
import CalmBoard.Members.Owners
import CalmBoard.Members.SingleUse
import CalmBoard.Idempotency.Agreement
import CalmBoard.Licensing.Grace
import CalmBoard.Forms.Created
import CalmBoard.Automations.Cascade
import CalmBoard.Auth.StaleLogins
import CalmBoard.Billing.Order
import CalmBoard.Sprints.Crossing
import CalmBoard.Auth.OneTime
import CalmBoard.Auth.Disabling
import CalmBoard.Auth.OneLive
import CalmBoard.Auth.Logout
import CalmBoard.Tasks.Answered
import CalmBoard.Authorization.Imports
import CalmBoard.Auth.Lockout
import CalmBoard.Auth.Linked
import CalmBoard.Integrations.Disconnected
import CalmBoard.Tasks.StateUpdate
import CalmBoard.Tasks.Recurrence
import CalmBoard.Tasks.Untouched
import CalmBoard.Usage.Exact
import CalmBoard.Comments.Reactions
import CalmBoard.Tasks.Serials
import CalmBoard.Reports.Served
import CalmBoard.Queues.DeadLetters
import CalmBoard.Exports.Recorded
import CalmBoard.Attachments.Scanned
import CalmBoard.Tasks.AssignmentStates
import CalmBoard.Deps.Replaced
import CalmBoard.Sprints.DailySeries
import CalmBoard.CustomFields.Required
import CalmBoard.CustomFields.Options
import CalmBoard.Filters.Kept
import CalmBoard.Documents.Access
import CalmBoard.Authorization.Resolution
import CalmBoard.Automations.FailedRuns
import CalmBoard.Licensing.Activation
import CalmBoard.Goals.Measured
import CalmBoard.Gantt.Conflicts
import CalmBoard.Calendar.Dragged
import CalmBoard.Workload.Allocation
import CalmBoard.Tasks.BoardAgreed
import CalmBoard.Auth.Base32
import CalmBoard.Reports.Recurrence
import CalmBoard.Documents.Tree
import CalmBoard.Attachments.Cleanup
import CalmBoard.CustomFields.SafeDate
import CalmBoard.DataLifecycle.Locator
import CalmBoard.Idempotency.Fingerprint
import CalmBoard.Tasks.Clipboard
import CalmBoard.Forms.Answers
