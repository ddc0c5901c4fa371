import JobOrchestrator.Db.Models
import JobOrchestrator.Library.Descending
import Mathlib.Order.WithBot

/-!
# `JobRepository`

The statements of `app/repositories/job_repository.py`.  Every status change of the system
is one of its guarded `UPDATE`s,

`UPDATE jobs SET values WHERE id = :job_id AND guard`,

and the caller learns whether a row matched.  A `JobUpdate` is such a statement without its
job id; each method of the repository is one, written with its own guard and values, and
`Database.updateJob` executes it.  What was submitted (`Job.request`) is written once and by
no `UPDATE`; a `JobUpdate` carries that as a field.

The selections of the sweeps lock their rows with `SKIP LOCKED`.  Which rows other
transactions hold locked at that moment is the argument `locked`.
-/

namespace JobOrchestrator

/-- The columns of a job that are fixed when it is submitted. -/
structure JobRequest where
  id : UUID
  userId : String
  type : JobType
  priority : JobPriority
  payload : Dict
  maxAttempts : ℕ
  idempotencyKey : Option String
  createdAt : Time

def Job.request (job : Job) : JobRequest :=
  ⟨job.id, job.userId, job.type, job.priority, job.payload, job.maxAttempts,
    job.idempotencyKey, job.createdAt⟩

/-- A guarded `UPDATE` of one job. -/
structure JobUpdate where
  guard : Job → Bool
  values : Job → Job
  keeps_request : ∀ job, (values job).request = job.request := by intro job; rfl

namespace JobUpdate

variable (u : JobUpdate)

/-- The row after the statement, whether it matched or not. -/
def apply (job : Job) : Job := if u.guard job then u.values job else job

lemma apply_of_guard {u : JobUpdate} {job : Job} (h : u.guard job) :
    u.apply job = u.values job := if_pos h

lemma apply_of_not_guard {u : JobUpdate} {job : Job} (h : ¬ u.guard job) :
    u.apply job = job := if_neg h

lemma values_id (job : Job) : (u.values job).id = job.id :=
  congrArg JobRequest.id (u.keeps_request job)

lemma apply_id (job : Job) : (u.apply job).id = job.id := by
  unfold apply
  split
  · exact u.values_id job
  · rfl

end JobUpdate

namespace Database

variable (db : Database)

/-- Execute a guarded `UPDATE`: the new tables, and whether a row matched. -/
def updateJob (jobId : UUID) (u : JobUpdate) : Database × Bool :=
  ({ db with jobs := db.jobs.updateAt jobId u.guard u.values u.values_id },
    (db.jobs.get? jobId).any u.guard)

lemma updateJob_matched (jobId : UUID) (u : JobUpdate) :
    (db.updateJob jobId u).2 = (db.record jobId).row.any u.guard := rfl

/-- A guarded `UPDATE` changes the row of its job and nothing else. -/
lemma record_updateJob (jobId : UUID) (u : JobUpdate) :
    (db.updateJob jobId u).1.record =
      Function.update db.record jobId
        { db.record jobId with row := (db.record jobId).row.map u.apply } := by
  have hrow := db.jobs.get?_updateAt jobId u.guard u.values u.values_id
  refine Function.eq_update_iff.mpr ⟨?_, fun i hi => ?_⟩
  · refine JobRecord.ext ?_ rfl rfl rfl rfl
    exact (congrFun hrow jobId).trans (Function.update_self ..)
  · refine JobRecord.ext ?_ rfl rfl rfl rfl
    exact (congrFun hrow i).trans (Function.update_of_ne hi ..)

section Row

variable {db} {jobId : UUID} {job : Job} {u : JobUpdate}
  (hrow : (db.record jobId).row = some job)
include hrow

lemma updateJob_matched_iff : (db.updateJob jobId u).2 = u.guard job := by
  rw [updateJob_matched, hrow, Option.any_some]

lemma record_updateJob_of_guard (h : u.guard job) :
    (db.updateJob jobId u).1.record =
      Function.update db.record jobId { db.record jobId with row := some (u.values job) } := by
  rw [record_updateJob, hrow, Option.map_some, JobUpdate.apply_of_guard h]

lemma record_updateJob_of_not_guard (h : ¬ u.guard job) :
    (db.updateJob jobId u).1.record = db.record := by
  rw [record_updateJob, hrow, Option.map_some, JobUpdate.apply_of_not_guard h, ← hrow]
  exact Function.update_eq_self ..

end Row

end Database

namespace JobRepository

/-! ## The guards -/

def claimable : List JobStatus := [.queued, .retrying]

def finalizable : List JobStatus := [.running, .cancelling]

def inactiveCancellable : List JobStatus := [.pending, .queued, .retrying]

def expirable : List JobStatus := [.pending, .queued]

/-! ## Reading -/

section Reading

/-- The sort order of a nullable column under `ASC NULLS FIRST`. -/
def nullsFirst (t : Option Time) : WithBot Time := t

variable (db : Database)

def get (jobId : UUID) : Option Job := db.jobs.get? jobId

def getForUser (jobId : UUID) (userId : String) : Option Job :=
  (db.jobs.get? jobId).filter fun job => job.userId = userId

/-- `lock_for_user`; the lock itself has no effect inside one atomic transaction. -/
def lockForUser (jobId : UUID) (userId : String) : Option Job :=
  (db.jobs.get? jobId).filter fun job => job.userId = userId

def getByIdempotencyKey (userId idempotencyKey : String) : Option Job :=
  db.jobs.rows.find? fun job => job.userId = userId && job.idempotencyKey = some idempotencyKey

/-- The place of a job in a listing; PostgreSQL compares the bytes of a `uuid`. -/
def position (job : Job) : Time ×ₗ Fin (2 ^ 128) := toLex (job.createdAt, job.id.int)

def listForUser (userId : String) (status : Option JobStatus) (jobType : Option JobType)
    (cursor : Option (Time ×ₗ Fin (2 ^ 128))) (limit : ℕ) : List Job :=
  (descending position (db.jobs.rows.filter fun job =>
    job.userId = userId && status.all (fun status => job.status = status) &&
      jobType.all (fun jobType => job.type = jobType) &&
      cursor.all fun cursor => position job < cursor)).take limit

/-- `status_counts`; the groups come in no particular order. -/
def statusCounts (userId : String) : List (JobStatus × ℕ) :=
  let count status := db.jobs.rows.countP fun job => job.userId = userId && job.status = status
  JobStatus.all.filterMap fun status =>
    if count status = 0 then none else some (status, count status)

def countActiveForUser (userId : String) : ℕ :=
  db.jobs.rows.countP fun job => job.userId = userId && decide (¬ job.status.isTerminal)

variable (locked : List UUID)

def findDueRetries (now : Time) (limit : ℕ) : List Job :=
  db.jobs.select
    (fun job => !locked.contains job.id && job.status = .retrying &&
      job.nextAttemptAt.any fun t => t ≤ now)
    (fun job => nullsFirst job.nextAttemptAt) limit

def findExpiredLeases (now : Time) (limit : ℕ) : List Job :=
  db.jobs.select
    (fun job => !locked.contains job.id && job.status = .running &&
      job.lockExpiresAt.any fun t => t < now)
    (fun job => nullsFirst job.lockExpiresAt) limit

def findStuckQueued (cutoff : Time) (limit : ℕ) : List Job :=
  db.jobs.select
    (fun job => !locked.contains job.id && job.status = .queued &&
      job.lastDispatchedAt.all fun t => t < cutoff)
    (fun job => nullsFirst job.lastDispatchedAt) limit

def findExpirable (cutoff : Time) (limit : ℕ) : List Job :=
  db.jobs.select
    (fun job => !locked.contains job.id && expirable.contains job.status && job.createdAt < cutoff)
    (fun job => job.createdAt) limit

end Reading

/-! ## Writing -/

def markRedispatched (now : Time) : JobUpdate where
  guard job := job.status = .queued
  values job := { job with lastDispatchedAt := some now, updatedAt := now }

def claimForExecution (workerId : String) (leaseSeconds : ℤ) (now : Time) : JobUpdate where
  guard job := claimable.contains job.status && job.cancellationRequestedAt.isNone
  values job := { job with
    status := .running
    attempts := job.attempts + 1
    lockedBy := some workerId
    lockExpiresAt := some (now + seconds leaseSeconds)
    heartbeatAt := some now
    startedAt := some (job.startedAt.getD now)
    nextAttemptAt := none
    updatedAt := now }

def heartbeat (workerId : String) (leaseSeconds : ℤ) (now : Time) : JobUpdate where
  guard job := job.lockedBy = some workerId && job.status = .running
  values job := { job with
    heartbeatAt := some now
    lockExpiresAt := some (now + seconds leaseSeconds)
    updatedAt := now }

/-- `update_progress`; a value above 100 violates `ck_jobs_progress_range` and is no
argument. -/
def updateProgress (workerId : String) (progress : Fin 101) (leaseSeconds : ℤ) (now : Time) :
    JobUpdate where
  guard job := job.lockedBy = some workerId && finalizable.contains job.status
  values job := { job with
    progress := progress
    heartbeatAt := some now
    lockExpiresAt := some (now + seconds leaseSeconds)
    updatedAt := now
    progress_range := Nat.le_of_lt_succ progress.isLt }

def markSucceeded (workerId : String) (result : Dict) (now : Time) : JobUpdate where
  guard job := job.lockedBy = some workerId && finalizable.contains job.status
  values job := { job with
    status := .succeeded
    result := some result
    progress := 100
    completedAt := some now
    lockedBy := none
    lockExpiresAt := none
    errorCode := none
    errorMessage := none
    updatedAt := now
    progress_range := le_rfl }

def markFailed (workerId errorCode errorMessage : String) (now : Time) (deadLettered : Bool) :
    JobUpdate where
  guard job := job.lockedBy = some workerId && finalizable.contains job.status
  values job := { job with
    status := .failed
    errorCode := some errorCode
    errorMessage := some errorMessage
    completedAt := some now
    lockedBy := none
    lockExpiresAt := none
    deadLetteredAt := if deadLettered then some now else none
    updatedAt := now }

def scheduleRetry (workerId errorCode errorMessage : String) (nextAttemptAt now : Time) :
    JobUpdate where
  guard job := job.lockedBy = some workerId && job.status = .running
  values job := { job with
    status := .retrying
    errorCode := some errorCode
    errorMessage := some errorMessage
    nextAttemptAt := some nextAttemptAt
    lockedBy := none
    lockExpiresAt := none
    updatedAt := now }

def finalizeCancelledByWorker (workerId : String) (now : Time) : JobUpdate where
  guard job := job.lockedBy = some workerId && finalizable.contains job.status
  values job := { job with
    status := .cancelled
    completedAt := some now
    lockedBy := none
    lockExpiresAt := none
    updatedAt := now }

def cancelInactive (reason : Option String) (now : Time) : JobUpdate where
  guard job := inactiveCancellable.contains job.status
  values job := { job with
    status := .cancelled
    cancellationRequestedAt := some now
    cancelReason := reason
    completedAt := some now
    nextAttemptAt := none
    updatedAt := now }

def requestRunningCancellation (reason : Option String) (now : Time) : JobUpdate where
  guard job := job.status = .running
  values job := { job with
    status := .cancelling
    cancellationRequestedAt := some now
    cancelReason := reason
    updatedAt := now }

def markQueued (now : Time) : JobUpdate where
  guard job := job.status = .pending
  values job := { job with
    status := .queued
    queuedAt := some now
    lastDispatchedAt := some now
    updatedAt := now }

def requeueExpiredLease (now : Time) : JobUpdate where
  guard job := job.status = .running
  values job := { job with
    status := .queued
    queuedAt := some now
    lastDispatchedAt := some now
    lockedBy := none
    lockExpiresAt := none
    updatedAt := now }

def failExpiredLease (errorCode errorMessage : String) (now : Time) (deadLettered : Bool) :
    JobUpdate where
  guard job := job.status = .running
  values job := { job with
    status := .failed
    errorCode := some errorCode
    errorMessage := some errorMessage
    completedAt := some now
    lockedBy := none
    lockExpiresAt := none
    deadLetteredAt := if deadLettered then some now else none
    updatedAt := now }

def moveRetryToQueued (now : Time) : JobUpdate where
  guard job := job.status = .retrying
  values job := { job with
    status := .queued
    queuedAt := some now
    lastDispatchedAt := some now
    nextAttemptAt := none
    updatedAt := now }

def expire (now : Time) : JobUpdate where
  guard job := expirable.contains job.status
  values job := { job with status := .expired, completedAt := some now, updatedAt := now }

/-! ## The guards as propositions -/

section Guards

variable {job : Job} {workerId errorCode errorMessage : String} {leaseSeconds : ℤ}
  {now nextAttemptAt : Time} {reason : Option String} {deadLettered : Bool}

@[simp] lemma markRedispatched_guard :
    (markRedispatched now).guard job ↔ job.status = .queued := by
  simp [markRedispatched]

@[simp] lemma claimForExecution_guard :
    (claimForExecution workerId leaseSeconds now).guard job ↔
      (job.status = .queued ∨ job.status = .retrying) ∧ job.cancellationRequestedAt = none := by
  simp [claimForExecution, claimable]

@[simp] lemma heartbeat_guard :
    (heartbeat workerId leaseSeconds now).guard job ↔
      job.lockedBy = some workerId ∧ job.status = .running := by
  simp [heartbeat]

@[simp] lemma updateProgress_guard {progress : Fin 101} :
    (updateProgress workerId progress leaseSeconds now).guard job ↔
      job.lockedBy = some workerId ∧ (job.status = .running ∨ job.status = .cancelling) := by
  simp [updateProgress, finalizable]

@[simp] lemma markSucceeded_guard {result : Dict} :
    (markSucceeded workerId result now).guard job ↔
      job.lockedBy = some workerId ∧ (job.status = .running ∨ job.status = .cancelling) := by
  simp [markSucceeded, finalizable]

@[simp] lemma markFailed_guard :
    (markFailed workerId errorCode errorMessage now deadLettered).guard job ↔
      job.lockedBy = some workerId ∧ (job.status = .running ∨ job.status = .cancelling) := by
  simp [markFailed, finalizable]

@[simp] lemma scheduleRetry_guard :
    (scheduleRetry workerId errorCode errorMessage nextAttemptAt now).guard job ↔
      job.lockedBy = some workerId ∧ job.status = .running := by
  simp [scheduleRetry]

@[simp] lemma finalizeCancelledByWorker_guard :
    (finalizeCancelledByWorker workerId now).guard job ↔
      job.lockedBy = some workerId ∧ (job.status = .running ∨ job.status = .cancelling) := by
  simp [finalizeCancelledByWorker, finalizable]

@[simp] lemma cancelInactive_guard :
    (cancelInactive reason now).guard job ↔
      job.status = .pending ∨ job.status = .queued ∨ job.status = .retrying := by
  simp [cancelInactive, inactiveCancellable]

@[simp] lemma requestRunningCancellation_guard :
    (requestRunningCancellation reason now).guard job ↔ job.status = .running := by
  simp [requestRunningCancellation]

@[simp] lemma markQueued_guard : (markQueued now).guard job ↔ job.status = .pending := by
  simp [markQueued]

@[simp] lemma requeueExpiredLease_guard :
    (requeueExpiredLease now).guard job ↔ job.status = .running := by
  simp [requeueExpiredLease]

@[simp] lemma failExpiredLease_guard :
    (failExpiredLease errorCode errorMessage now deadLettered).guard job ↔
      job.status = .running := by
  simp [failExpiredLease]

@[simp] lemma moveRetryToQueued_guard :
    (moveRetryToQueued now).guard job ↔ job.status = .retrying := by
  simp [moveRetryToQueued]

@[simp] lemma expire_guard :
    (expire now).guard job ↔ job.status = .pending ∨ job.status = .queued := by
  simp [expire, expirable]

end Guards

end JobRepository

end JobOrchestrator
