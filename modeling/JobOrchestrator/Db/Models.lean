import JobOrchestrator.Core
import JobOrchestrator.Domain.Json
import JobOrchestrator.Domain.StateMachine
import JobOrchestrator.Library.Table

/-!
# The database

The five tables of `app/db/models.py`, column by column.  Constraints that PostgreSQL
enforces on a row are fields of the row, so no row violates them: the two `CHECK`
constraints of `jobs`, and for a notification that its dedupe key is the one
`enqueue_terminal_notification` builds.  The primary keys are enforced by `Table`; the
other unique indexes are checked by the repository functions that insert.

`jobEvents` is a list in commit order.  That order is not a column (the source sorts by
`created_at`), it is what the audit statements are about.

`Database.record` reads off everything the tables hold about one job.  Every transaction
is later described by what it does to the record of the jobs it touches.
-/

namespace JobOrchestrator

/-- A row of `jobs`. -/
structure Job where
  id : UUID
  userId : String
  type : JobType
  status : JobStatus
  priority : JobPriority
  payload : Dict
  result : Option Dict
  errorCode : Option String
  errorMessage : Option String
  progress : ℕ
  attempts : ℕ
  maxAttempts : ℕ
  idempotencyKey : Option String
  nextAttemptAt : Option Time
  cancellationRequestedAt : Option Time
  cancelReason : Option String
  lockedBy : Option String
  lockExpiresAt : Option Time
  heartbeatAt : Option Time
  lastDispatchedAt : Option Time
  deadLetteredAt : Option Time
  createdAt : Time
  queuedAt : Option Time
  startedAt : Option Time
  completedAt : Option Time
  updatedAt : Time
  /-- `ck_jobs_progress_range` -/
  progress_range : progress ≤ 100
  /-- `ck_jobs_max_attempts_positive` -/
  maxAttempts_positive : 1 ≤ maxAttempts

/-- A row of `job_attempts`. -/
structure JobAttempt where
  id : UUID
  jobId : UUID
  attemptNumber : ℕ
  workerId : String
  status : JobStatus
  startedAt : Time
  completedAt : Option Time
  errorCode : Option String
  errorMessage : Option String

/-- The `detail` object of an event, one constructor for each shape the services write. -/
inductive EventDetail
  | none
  | submitted (type : JobType) (priority : JobPriority)
  | claimed (attempt : ℕ) (workerId : String)
  | failed (errorCode : String) (deadLettered : Bool)
  | retryScheduled (errorCode : String) (nextAttemptAt : Time)
  | cancel (reason : Option String)
  | leaseExpired
  | promoted (attempt : ℕ)

/-- A row of `job_events`. -/
structure JobEvent where
  id : UUID
  jobId : UUID
  eventType : JobEventType
  fromStatus : Option JobStatus
  toStatus : Option JobStatus
  detail : EventDetail
  createdAt : Time

/-- A row of `dispatch_outbox`. -/
structure DispatchOutbox where
  id : UUID
  jobId : UUID
  status : OutboxStatus
  attempts : ℕ
  createdAt : Time
  publishedAt : Option Time

/-- The JSON body of a notification. -/
structure NotificationPayload where
  jobId : UUID
  type : JobType
  status : JobStatus
  event : JobEventType
  result : Option Dict
  errorCode : Option String
  errorMessage : Option String

/-- The text `{job_id}:{event_type}`, by its two parts; the id has a fixed width, so the
text determines both. -/
structure DedupeKey where
  jobId : UUID
  eventType : JobEventType
  deriving DecidableEq

/-- A row of `notification_outbox`. -/
structure NotificationOutbox where
  id : UUID
  jobId : UUID
  userId : String
  channel : NotificationChannel
  destination : String
  eventType : JobEventType
  payload : NotificationPayload
  status : NotificationStatus
  attempts : ℕ
  nextAttemptAt : Time
  dedupeKey : DedupeKey
  lastError : Option String
  createdAt : Time
  sentAt : Option Time
  dedupeKey_eq : dedupeKey = ⟨jobId, eventType⟩

/-- The tables. -/
structure Database where
  jobs : Table Job.id
  jobAttempts : Table JobAttempt.id
  jobEvents : List JobEvent
  dispatchOutbox : Table DispatchOutbox.id
  notificationOutbox : Table NotificationOutbox.id

/-- The schema right after the migrations. -/
def Database.empty : Database := ⟨.empty, .empty, [], .empty, .empty⟩

/-! ## Everything about one job -/

/-- What the five tables hold about one job. -/
@[ext]
structure JobRecord where
  row : Option Job
  attempts : List JobAttempt
  events : List JobEvent
  outbox : List DispatchOutbox
  notifications : List NotificationOutbox

/-- The record of a job that does not exist. -/
def JobRecord.empty : JobRecord := ⟨none, [], [], [], []⟩

namespace Database

variable (db : Database) (jobId : UUID)

/-- The record of a job. -/
def record : JobRecord where
  row := db.jobs.get? jobId
  attempts := db.jobAttempts.children JobAttempt.jobId jobId
  events := db.jobEvents.filter fun e => e.jobId = jobId
  outbox := db.dispatchOutbox.children DispatchOutbox.jobId jobId
  notifications := db.notificationOutbox.children NotificationOutbox.jobId jobId

@[simp] lemma record_empty : Database.empty.record jobId = JobRecord.empty := rfl

@[simp] lemma record_row : (db.record jobId).row = db.jobs.get? jobId := rfl

lemma id_of_row {job : Job} (h : (db.record jobId).row = some job) : job.id = jobId :=
  Table.key_of_get? h

end Database

end JobOrchestrator
