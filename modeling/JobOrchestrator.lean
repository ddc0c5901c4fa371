import JobOrchestrator.Library.TransitionSystem
import JobOrchestrator.Library.Base64
import JobOrchestrator.Library.Calendar
import JobOrchestrator.Library.Datetime
import JobOrchestrator.Library.Batches
import JobOrchestrator.Library.Commitment
import JobOrchestrator.Library.Refinement
import JobOrchestrator.Library.PriorityQueue
import JobOrchestrator.Core.Pagination
import JobOrchestrator.Db.Columns
import JobOrchestrator.Domain.Conversions
import JobOrchestrator.Domain.JobCatalog
import JobOrchestrator.Domain.Floats
import JobOrchestrator.Domain.Backoff
import JobOrchestrator.Domain.Handlers
import JobOrchestrator.Services.Notification
import JobOrchestrator.Services.Cancellation
import JobOrchestrator.Services.Submission
import JobOrchestrator.Services.Sweeps
import JobOrchestrator.Services.Execution
import JobOrchestrator.Services.Intake
import JobOrchestrator.Api.Jobs
import JobOrchestrator.Queue.RedisQueue
import JobOrchestrator.Workers.Drain
import JobOrchestrator.Workers.System
import JobOrchestrator.Workers.Scheduler
import JobOrchestrator.Lifecycle.JobStep
import JobOrchestrator.Lifecycle.Effects
import JobOrchestrator.Lifecycle.WorkerStep
import JobOrchestrator.Properties.CancellationFlag
import JobOrchestrator.Properties.Transitions
import JobOrchestrator.Properties.Attempts
import JobOrchestrator.Properties.Cancellation
import JobOrchestrator.Properties.Notifications
import JobOrchestrator.Properties.Timeline
import JobOrchestrator.Properties.Backoff
import JobOrchestrator.Properties.Recovery
import JobOrchestrator.Properties.Coherence
import JobOrchestrator.Properties.Idempotency
import JobOrchestrator.Properties.Admission
import JobOrchestrator.Properties.Columns
import JobOrchestrator.Properties.Delivery
import JobOrchestrator.Properties.Results
import JobOrchestrator.Properties.Claims
import JobOrchestrator.Properties.ConcurrentExecution
import JobOrchestrator.Properties.Exclusion
import JobOrchestrator.Properties.Progress
import JobOrchestrator.Properties.Expiry
import JobOrchestrator.Properties.Publication
import JobOrchestrator.Properties.Audit
import JobOrchestrator.Properties.TimelineOrder
import JobOrchestrator.Properties.Heartbeat
import JobOrchestrator.Properties.DeadLetters
import JobOrchestrator.Properties.Accounting
import JobOrchestrator.Properties.Pagination
import JobOrchestrator.Properties.Isolation
import JobOrchestrator.Properties.Intake
import JobOrchestrator.Properties.Cooldown
import JobOrchestrator.Properties.BackoffBounds
import JobOrchestrator.Properties.Handlers
import JobOrchestrator.Properties.Storable
import JobOrchestrator.Properties.Retries
import JobOrchestrator.Properties.Batching
import JobOrchestrator.Properties.Cooperation
import JobOrchestrator.Properties.Ledger
import JobOrchestrator.Properties.Messages
import JobOrchestrator.Properties.QueueOrder
import JobOrchestrator.Properties.Outbox
import JobOrchestrator.Properties.Underway
import JobOrchestrator.Properties.AttemptRows
import JobOrchestrator.Properties.TimelineWalk
import JobOrchestrator.Properties.Leases
import JobOrchestrator.Properties.NotificationRows
import JobOrchestrator.Properties.Answers
import JobOrchestrator.Properties.Tick
import JobOrchestrator.Properties.Budget
import JobOrchestrator.Properties.Liveness
import JobOrchestrator.Properties.Attendance
import JobOrchestrator.Properties.Told
import JobOrchestrator.Properties.Catalog
