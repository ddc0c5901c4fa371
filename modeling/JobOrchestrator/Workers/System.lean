import JobOrchestrator.Library.TransitionSystem
import JobOrchestrator.Services.Cancellation
import JobOrchestrator.Services.Execution
import JobOrchestrator.Services.Submission
import JobOrchestrator.Services.Sweeps
import Mathlib.Data.Fintype.Basic

/-!
# The system

The database, Redis, the API, the scheduler and any number of worker processes as one
transition system.  A step is one committed transaction, one Redis command, one decision of
an execution between two transactions, or a fault.  Each label carries what its step draws
from outside: clock readings, generated ids, what a handler returns, which rows a concurrent
transaction holds locked.

A worker process (`app/workers/worker.py`) runs `worker_concurrency` consumer tasks that
share its `worker_id`; a `Coroutine` is one of them.  `generate_worker_id` draws a fresh id for
every process, so a coroutine that has ended does not come back.

Nothing forces a sweep, a delivery or a publication to happen: the runs of this system
include every schedule of them, with any number of schedulers.
-/

namespace JobOrchestrator

open ExecutionService SubmissionService CancellationService

/-! ## Executions -/

/-- A consumer task of a worker process. -/
structure Coroutine (concurrency : ℕ) where
  workerId : String
  slot : Fin concurrency
  deriving DecidableEq

/-- What an execution does next. -/
inductive Stage
  /-- The handler is running. -/
  | handler
  /-- `_handle_retryable`, before its cancellation read. -/
  | deciding (code message : String)
  /-- `_handle_retryable`, before `compute_backoff_seconds`. -/
  | backingOff (code message : String)
  /-- Before the finalizing transaction. -/
  | finalizing (outcome : Outcome)
  /-- Before the push of the dead letter. -/
  | deadLettering
  /-- In the `finally` block, with an exception pending or not. -/
  | returning (raised : Bool)

/-- A call of `execute` that won its claim. -/
structure Execution where
  jobId : UUID
  attemptNumber : ℕ
  attemptId : UUID
  snapshot : JobSnapshot
  stage : Stage
  heartbeatFailed : Bool

/-- The call right after `_claim`. -/
def Execution.start (jobId : UUID) (claim : Claim) : Execution where
  jobId := jobId
  attemptNumber := claim.attemptNumber
  attemptId := claim.attemptId
  snapshot := claim.snapshot
  stage := .handler
  heartbeatFailed := false

inductive Consumer
  | idle
  | delivered (jobId : UUID)
  | executing (e : Execution)
  | ended

/-- What a handler raises, apart from the `JobCancelledError` of its checkpoints. -/
inductive HandlerError
  | nonRetryable (code message : String)
  | retryable (code message : String)
  | unexpected (message : String)

/-- The `except` clauses of `execute`. -/
def HandlerError.stage : HandlerError → Stage
  | .nonRetryable code message => .finalizing (.failed code message false)
  | .retryable code message => .deciding code message
  | .unexpected message => .deciding "UNEXPECTED_ERROR" message

/-- `_handle_retryable` after its cancellation read. -/
def Execution.afterRead (e : Execution) (code message : String) (cancelled : Bool) : Stage :=
  if cancelled then .finalizing .cancelled
  else if e.snapshot.maxAttempts ≤ e.attemptNumber then .finalizing (.failed code message true)
  else .backingOff code message

/-- Where `execute` goes on after a finalizing transaction that matched or did not. -/
def Stage.afterFinalize (hit : Bool) : Outcome → Stage
  | .failed _ _ true => if hit then .deadLettering else .returning false
  | _ => .returning false

inductive WorkerAction
  | consume
  | claim (tx : Tx) (now : Time)
  | heartbeat (now : Time)
  | heartbeatFails
  | checkCancelled
  | reportProgress (progress : Fin 101) (now : Time)
  | handlerReturns (result : Dict)
  | handlerRaises (error : HandlerError)
  | readCancellation
  | computeBackoff (now backoff : Time)
  | finalize (tx : Tx) (now : Time)
  | pushDeadLetter
  /-- An exception leaves the pending database or Redis call. -/
  | fails
  | returns
  /-- `task.cancel()` on shutdown. -/
  | stop

/-! ## Sweeps -/

inductive Sweep
  | dispatchPending
  | promoteDue
  | reapExpired
  | redeliverStuck (stamp : UUID → Time)
  | expireStale
  | deliverNotifications (io : NotificationService.DeliveryInputs)

namespace Sweep

variable (settings : Settings) (db : Database) (tx : Tx) (locked : List UUID) (batchSize : ℕ)
  (now clock : Time)

/-- The transaction of a sweep, and what it pushes after the commit. -/
def run : Sweep → Option (Database × List Push)
  | dispatchPending =>
      (DispatchService.dispatchPending db tx locked batchSize now).map fun s => (s.db, s.pushes)
  | promoteDue =>
      (RetryService.promoteDue db tx locked batchSize now).map fun s => (s.db, s.pushes)
  | reapExpired =>
      (LeaseService.reapExpired db tx locked batchSize now).map fun s => (s.db, s.pushes)
  | redeliverStuck stamp =>
      (DispatchService.redeliverStuck settings db locked batchSize now stamp).map
        fun s => (s.db, s.pushes)
  | expireStale =>
      (ExpiryService.expireStale settings db tx locked batchSize now).map
        fun s => (s.db, s.pushes)
  | deliverNotifications io =>
      (NotificationService.dispatchDue settings io db locked batchSize now).map fun db => (db, [])

/-- The clock readings inside the loop of a sweep lie between its start and its commit. -/
def timely : Sweep → Bool
  | redeliverStuck stamp =>
      (JobRepository.findStuckQueued db locked (now - seconds settings.queueStuckSeconds)
        batchSize).all fun job => now ≤ stamp job.id && stamp job.id ≤ clock
  | deliverNotifications io =>
      (NotificationOutboxRepository.claimDue db locked now batchSize).all
        fun n => now ≤ io.now n.id && io.now n.id ≤ clock
  | _ => true

end Sweep

/-! ## States and steps -/

structure System (concurrency : ℕ) where
  db : Database
  queue : JobQueue
  /-- Pushes of committed sweeps that have not reached Redis yet. -/
  unpublished : List Push
  submissions : ℕ → Option Submission
  workers : Coroutine concurrency → Consumer
  clock : Time

inductive Label (concurrency : ℕ)
  | tick (elapsed : ℕ)
  | submit (call : ℕ) (args : SubmitArgs)
  | submission (call : ℕ) (tx : Tx) (now : Time)
  | cancel (tx : Tx) (jobId : UUID) (userId : String) (reason : Option String) (now : Time)
  | sweep (kind : Sweep) (tx : Tx) (locked : List UUID) (batchSize : ℕ) (now : Time)
  | publish (push : Push)
  | publishFails (push : Push)
  | redis (queue : JobQueue)
  | worker (c : Coroutine concurrency) (action : WorkerAction)
  | crash (workerId : String)

namespace System

variable {concurrency : ℕ} (s : System concurrency) (c : Coroutine concurrency)

/-- Right after the deployment. -/
def start (concurrency : ℕ) (clock : Time) : System concurrency where
  db := .empty
  queue := .empty
  unpublished := []
  submissions := fun _ => none
  workers := fun _ => .idle
  clock := clock

/-- The coroutine goes on as `consumer`. -/
def become (consumer : Consumer) : System concurrency :=
  { s with workers := Function.update s.workers c consumer }

lemma become_self (consumer : Consumer) : (s.become c consumer).workers c = consumer :=
  Function.update_self ..

lemma become_become (consumer consumer' : Consumer) :
    (s.become c consumer).become c consumer' = s.become c consumer' := by
  simp [become]

variable {s c} in
lemma become_eq_self {consumer : Consumer} (h : s.workers c = consumer) :
    s.become c consumer = s := by
  rw [become, ← h, Function.update_eq_self]

/-- The execution goes on at `stage`. -/
def resume (e : Execution) (stage : Stage) : System concurrency :=
  s.become c (.executing { e with stage })

lemma resume_self (e : Execution) (stage : Stage) :
    (s.resume c e stage).workers c = .executing { e with stage } :=
  s.become_self c _

lemma resume_resume (e : Execution) (stage stage' : Stage) :
    (s.resume c e stage).resume c { e with stage } stage' = s.resume c e stage' :=
  s.become_become c _ _

/-- A transaction that began at `tx.began` and read the clock as `now` may commit. -/
def timely (tx : Tx) (now : Time) : Bool := tx.began ≤ s.clock && now ≤ s.clock

variable {s} in
lemma le_clock_of_timely {tx : Tx} {now : Time} (h : s.timely tx now) : now ≤ s.clock :=
  of_decide_eq_true (Bool.and_eq_true_iff.mp h).2

/-- One step of an execution. -/
def executionStep (settings : Settings) (e : Execution) : WorkerAction → Option (System concurrency)
  | .heartbeat now =>
      if e.heartbeatFailed || s.clock < now then none
      else some { s with db := heartbeat settings s.db c.workerId e.jobId now }
  | .heartbeatFails => some (s.become c (.executing { e with heartbeatFailed := true }))
  | .stop => some (s.become c .ended)
  | action =>
      match e.stage, action with
      | .handler, .checkCancelled =>
          if cancellationRequested s.db e.jobId then some (s.resume c e (.finalizing .cancelled))
          else some s
      | .handler, .reportProgress progress now =>
          if s.clock < now then none
          else some { s with db := reportProgress settings s.db c.workerId e.jobId progress now }
      | .handler, .handlerReturns result => some (s.resume c e (.finalizing (.succeeded result)))
      | .handler, .handlerRaises error => some (s.resume c e error.stage)
      | .deciding code message, .readCancellation =>
          some (s.resume c e (e.afterRead code message (cancellationRequested s.db e.jobId)))
      | .backingOff code message, .computeBackoff now backoff =>
          if now ≤ s.clock && 0 ≤ backoff then
            some (s.resume c e (.finalizing (.retry code message (now + backoff))))
          else none
      | .finalizing outcome, .finalize tx now =>
          if s.timely tx now then
            (finalize s.db tx c.workerId e.jobId e.attemptId now outcome.finalizer).map
              fun (db, hit) => { s with db }.resume c e (Stage.afterFinalize hit outcome)
          else none
      | .deadLettering, .pushDeadLetter =>
          some ({ s with queue := s.queue.deadLetter e.jobId }.resume c e (.returning false))
      | .handler, .fails => none
      | _, .fails => some (s.resume c e (.returning true))
      | .returning _, .returns => some (s.become c .idle)
      | _, _ => none

/-- One step of a consumer task. -/
def workerStep (settings : Settings) (action : WorkerAction) : Option (System concurrency) :=
  match s.workers c, action with
  | .idle, .consume =>
      s.queue.consume.map fun (jobId, queue) => { s with queue }.become c (.delivered jobId)
  | .delivered jobId, .claim tx now =>
      if s.timely tx now then
        (claim settings s.db tx c.workerId jobId now).map fun (db, result) =>
          { s with db }.become c
            (result.elim .idle fun claim => .executing (.start jobId claim))
      else none
  | .delivered _, .fails => some (s.become c .idle)
  | .executing e, action => s.executionStep c settings e action
  | .idle, .stop | .delivered _, .stop => some (s.become c .ended)
  | _, _ => none

/-- One step of the system. -/
def step (settings : Settings) : Label concurrency → Option (System concurrency)
  | .tick elapsed => some { s with clock := s.clock + elapsed }
  | .submit call args =>
      if (s.submissions call).isNone then
        some { s with submissions := Function.update s.submissions call (some (submit args)) }
      else none
  | .submission call tx now =>
      if s.timely tx now then
        (s.submissions call).bind fun submission =>
          (submission.next settings s.db tx now).map fun (db, submission) =>
            { s with
              db
              submissions := Function.update s.submissions call (some submission) }
      else none
  | .cancel tx jobId userId reason now =>
      if s.timely tx now then
        (cancel s.db tx jobId userId reason now).map fun (db, _) => { s with db }
      else none
  | .sweep kind tx locked batchSize now =>
      if s.timely tx now && kind.timely settings s.db locked batchSize now s.clock then
        (kind.run settings s.db tx locked batchSize now).map fun (db, pushes) =>
          { s with db, unpublished := s.unpublished ++ pushes }
      else none
  | .publish push =>
      if push ∈ s.unpublished then
        some { s with
          queue := s.queue.push push
          unpublished := s.unpublished.erase push }
      else none
  | .publishFails push =>
      if push ∈ s.unpublished then some { s with unpublished := s.unpublished.erase push }
      else none
  | .redis queue => if s.queue.Faulty queue then some { s with queue } else none
  | .worker c action => s.workerStep c settings action
  | .crash workerId =>
      some { s with
        workers := fun c => if c.workerId = workerId then .ended else s.workers c }

end System

/-- The system with the given settings, from an empty database at any time. -/
def orchestrator (settings : Settings) :
    TransitionSystem (System settings.workerConcurrency) (Label settings.workerConcurrency) where
  init s := ∃ clock, s = .start settings.workerConcurrency clock
  step s l := s.step settings l

end JobOrchestrator
