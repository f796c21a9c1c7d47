import ChainSettle.Lifecycle.DelayedRetry
import ChainSettle.Dlq.Invariant
import ChainSettle.Backfill.Completeness
import ChainSettle.Backfill.Termination
import ChainSettle.Poller.Leadership
import ChainSettle.Poller.Loss
import ChainSettle.Poller.Rewind
import ChainSettle.Poller.Monotone
import ChainSettle.EventLog.Coverage
import ChainSettle.Mirror.Convergence
import ChainSettle.Payments.Escrow
import ChainSettle.Concurrency.StaleSync
import ChainSettle.Concurrency.Indices
import ChainSettle.Requests.Rounds
import ChainSettle.Jobs.Escalation
import ChainSettle.Jobs.Overdue
import ChainSettle.Arbiters.Acceptance
import ChainSettle.Etag.LostUpdate
import ChainSettle.Creation.Idempotency
import ChainSettle.Webhooks.Attempts
import ChainSettle.Kyc.References
import ChainSettle.Auth.Contacts
import ChainSettle.Auth.Impersonation
import ChainSettle.Circuit.Cooldown
import ChainSettle.Organizations.Roles
import ChainSettle.Organizations.Owners
import ChainSettle.Recurring.Drafts
import ChainSettle.Live.Authorisation
import ChainSettle.Notifications.Sms
import ChainSettle.Notifications.Confidentiality
import ChainSettle.Tokens.Updates
import ChainSettle.Throttler.Windows
import ChainSettle.Bulk.Confirm
import ChainSettle.Plan.Rebalance
import ChainSettle.Archive.Termination
import ChainSettle.Tokens.Enabled
import ChainSettle.Responses.Quorum
import ChainSettle.Templates.RoundTrip
import ChainSettle.History.Privacy
import ChainSettle.Quotas.Limits
import ChainSettle.Exports.Amounts
import ChainSettle.Feeds.Calendar
import ChainSettle.Links.Subjects
import ChainSettle.Graphql.Depth
import ChainSettle.Graphql.Loaders
import ChainSettle.Reports.Volume
import ChainSettle.Rpc.Failover
import ChainSettle.Webhooks.CustomHeaders
import ChainSettle.Audit.Secrets
import ChainSettle.Audit.Completeness
import ChainSettle.Notifications.QuietHours
import ChainSettle.Notifications.EmailSent
import ChainSettle.Notifications.Inbox
import ChainSettle.Circuit.Trial
import ChainSettle.Bodies.Depth
import ChainSettle.Locks.Safety
import ChainSettle.Recurring.Progress
import ChainSettle.Tags.Bounds
import ChainSettle.Auth.Revocation
import ChainSettle.Chain.Relay
import ChainSettle.Uploads.Limits
import ChainSettle.Notifications.Suppressions
import ChainSettle.Notifications.Cleanup
import ChainSettle.Circuit.FxRates
import ChainSettle.Notifications.Devices
import ChainSettle.Reports.Risk
import ChainSettle.Notifications.Announcements
import ChainSettle.Templates.Sharing
