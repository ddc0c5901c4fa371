import JobOrchestrator.Core.Pagination
import JobOrchestrator.Repositories.Outboxes

/-!
# Reading

`app/services/job_read_service.py`, with the response schemas of `app/schemas`.  Each call is one
transaction that only reads.
-/

namespace JobOrchestrator

/-! ## Schemas -/

structure JobSummary where
  jobId : UUID
  type : JobType
  status : JobStatus
  priority : JobPriority
  progress : ℕ
  attempts : ℕ
  maxAttempts : ℕ
  createdAt : Time
  updatedAt : Time

structure JobRead extends JobSummary where
  payload : Dict
  result : Option Dict
  errorCode : Option String
  errorMessage : Option String
  cancellationRequestedAt : Option Time
  cancelReason : Option String
  deadLetteredAt : Option Time
  queuedAt : Option Time
  startedAt : Option Time
  completedAt : Option Time

/-- The schema `JobEvent`; `jobId` and `id` of the row are not part of it. -/
structure JobEventRead where
  eventType : JobEventType
  fromStatus : Option JobStatus
  toStatus : Option JobStatus
  detail : EventDetail
  createdAt : Time

structure JobSummaryCounts where
  counts : List (JobStatus × ℕ)
  total : ℕ

structure PaginatedResponse (α : Type) where
  items : List α
  nextCursor : Option String := none
  hasMore : Bool := false

/-- `model_validate` -/
def JobSummary.validate (job : Job) : JobSummary where
  jobId := job.id
  type := job.type
  status := job.status
  priority := job.priority
  progress := job.progress
  attempts := job.attempts
  maxAttempts := job.maxAttempts
  createdAt := job.createdAt
  updatedAt := job.updatedAt

def JobRead.validate (job : Job) : JobRead where
  toJobSummary := .validate job
  payload := job.payload
  result := job.result
  errorCode := job.errorCode
  errorMessage := job.errorMessage
  cancellationRequestedAt := job.cancellationRequestedAt
  cancelReason := job.cancelReason
  deadLetteredAt := job.deadLetteredAt
  queuedAt := job.queuedAt
  startedAt := job.startedAt
  completedAt := job.completedAt

def JobEventRead.validate (event : JobEvent) : JobEventRead where
  eventType := event.eventType
  fromStatus := event.fromStatus
  toStatus := event.toStatus
  detail := event.detail
  createdAt := event.createdAt

namespace JobReadService

/-! ## The service -/

/-- What `list_jobs` raises. -/
inductive ListError
  | invalidCursor
  /-- `OverflowError`: an instant outside the years 1 to 9999 of a Python `datetime`. -/
  | overflow
  deriving DecidableEq

def get (db : Database) (jobId : UUID) (userId : String) : Option JobRead :=
  (JobRepository.getForUser db jobId userId).map .validate

/-- The key of the row that a cursor names.  An empty cursor is none. -/
def startAfter (cursor : Option String) :
    Except ListError (Option (Time ×ₗ Fin (2 ^ 128))) :=
  match cursor.filter (· ≠ "") with
  | none => .ok none
  | some cursor =>
      match decodeCursor cursor with
      | none => .error .invalidCursor
      | some position =>
          -- the driver converts the parameter to UTC
          if (Datetime.utc position.createdAt.instant).isSome then
            .ok (some (toLex (position.createdAt.instant, position.jobId.int)))
          else .error .overflow

/-- The cursor of a row. -/
def cursorAt (job : Job) : Except ListError String :=
  match Datetime.utc job.createdAt with
  | none => .error .overflow
  | some createdAt => .ok (encodeCursor ⟨createdAt, job.id⟩)

/-- The cursor after a page. -/
def nextCursor (page : List Job) (hasMore : Bool) : Except ListError (Option String) :=
  match page.getLast? with
  | some last => if hasMore then (cursorAt last).map some else .ok none
  | none => .ok none

/-- `list_jobs` -/
def listJobs (db : Database) (userId : String) (status : Option JobStatus)
    (jobType : Option JobType) (cursor : Option String) (limit : ℕ) :
    Except ListError (PaginatedResponse JobSummary) :=
  (startAfter cursor).bind fun position =>
    let rows := JobRepository.listForUser db userId status jobType position (limit + 1)
    let hasMore := decide (limit < rows.length)
    let page := rows.take limit
    (nextCursor page hasMore).map fun nextCursor =>
      { items := page.map .validate, nextCursor, hasMore }

def summary (db : Database) (userId : String) : JobSummaryCounts :=
  let counts := JobRepository.statusCounts db userId
  { counts, total := (counts.map Prod.snd).sum }

def events (db : Database) (jobId : UUID) (userId : String) (limit : ℕ) :
    Option (List JobEventRead) :=
  match JobRepository.getForUser db jobId userId with
  | none => none
  | some _ => some ((JobEventRepository.listForJob db jobId limit).map .validate)

end JobReadService

end JobOrchestrator
