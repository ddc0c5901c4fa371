import JobOrchestrator.Services.Notification

/-!
# Execution

The transactions of `app/services/job_execution_service.py`: the claim, the renewals of the
lease, the cancellation read, and the four transactions that end an attempt.  What `execute`
runs between them is a state machine of its own (`Workers/System.lean`).

The finalizing transactions share one body, `finalize`; each of them is a `Finalizer`.
-/

namespace JobOrchestrator

namespace ExecutionService

structure JobSnapshot where
  type : JobType
  payload : Dict
  maxAttempts : ℕ

/-- What `_claim` returns when it wins the job. -/
structure Claim where
  attemptNumber : ℕ
  attemptId : UUID
  snapshot : JobSnapshot

/-- `_claim` -/
def claim (settings : Settings) (db : Database) (tx : Tx) (workerId : String) (jobId : UUID)
    (now : Time) : Option (Database × Option Claim) :=
  match JobRepository.get db jobId with
  | none => some (db, none)
  | some job =>
      let u := JobRepository.claimForExecution workerId settings.workerLeaseSeconds now
      let (db, matched) := db.updateJob jobId u
      if matched then
        let attemptNumber := (u.apply job).attempts
        (JobAttemptRepository.start db tx.attemptId jobId attemptNumber workerId now).map fun db =>
          (JobEventRepository.record db tx jobId .started none (some .running)
            (.claimed attemptNumber workerId),
          some ⟨attemptNumber, tx.attemptId, ⟨job.type, job.payload, job.maxAttempts⟩⟩)
      else some (db, none)

/-- One renewal of `_heartbeat_loop`. -/
def heartbeat (settings : Settings) (db : Database) (workerId : String) (jobId : UUID)
    (now : Time) : Database :=
  (db.updateJob jobId (JobRepository.heartbeat workerId settings.workerLeaseSeconds now)).1

/-- `_report_progress` -/
def reportProgress (settings : Settings) (db : Database) (workerId : String) (jobId : UUID)
    (progress : Fin 101) (now : Time) : Database :=
  (db.updateJob jobId
    (JobRepository.updateProgress workerId progress settings.workerLeaseSeconds now)).1

/-- `_cancellation_requested` -/
def cancellationRequested (db : Database) (jobId : UUID) : Bool :=
  (JobRepository.get db jobId).any fun job => job.cancellationRequestedAt.isSome

/-! ## The finalizing transactions -/

/-- What one finalizing transaction does, as far as it differs from the others. -/
structure Finalizer where
  update : String → Time → JobUpdate
  attemptStatus : JobStatus
  errorCode : Option String
  errorMessage : Option String
  eventType : JobEventType
  fromStatus : Option JobStatus
  toStatus : JobStatus
  detail : EventDetail
  result : Option Dict
  notifies : Bool

/-- `_finalize_succeeded` -/
def finalizeSucceeded (result : Dict) : Finalizer where
  update workerId now := JobRepository.markSucceeded workerId result now
  attemptStatus := .succeeded
  errorCode := none
  errorMessage := none
  eventType := .succeeded
  fromStatus := none
  toStatus := .succeeded
  detail := .none
  result := some result
  notifies := true

/-- `_finalize_failed` -/
def finalizeFailed (code message : String) (deadLettered : Bool) : Finalizer where
  update workerId now := JobRepository.markFailed workerId code message now deadLettered
  attemptStatus := .failed
  errorCode := some code
  errorMessage := some message
  eventType := .failed
  fromStatus := none
  toStatus := .failed
  detail := .failed code deadLettered
  result := none
  notifies := true

/-- `_schedule_retry` -/
def scheduleRetry (code message : String) (nextAttemptAt : Time) : Finalizer where
  update workerId now := JobRepository.scheduleRetry workerId code message nextAttemptAt now
  attemptStatus := .failed
  errorCode := some code
  errorMessage := some message
  eventType := .retryScheduled
  fromStatus := some .running
  toStatus := .retrying
  detail := .retryScheduled code nextAttemptAt
  result := none
  notifies := false

/-- `_finalize_cancelled` -/
def finalizeCancelled : Finalizer where
  update workerId now := JobRepository.finalizeCancelledByWorker workerId now
  attemptStatus := .cancelled
  errorCode := none
  errorMessage := none
  eventType := .cancelled
  fromStatus := none
  toStatus := .cancelled
  detail := .none
  result := none
  notifies := true

/-- How `execute` decided to end an attempt. -/
inductive Outcome
  | succeeded (result : Dict)
  | failed (code message : String) (deadLettered : Bool)
  | retry (code message : String) (nextAttemptAt : Time)
  | cancelled

def Outcome.finalizer : Outcome → Finalizer
  | .succeeded result => finalizeSucceeded result
  | .failed code message deadLettered => finalizeFailed code message deadLettered
  | .retry code message nextAttemptAt => scheduleRetry code message nextAttemptAt
  | .cancelled => finalizeCancelled

section Outcome

variable {outcome : Outcome} {workerId : String} {now : Time} {job : Job}

/-- A finalizing `UPDATE` matches only an active job whose lease its worker holds. -/
lemma held_of_finalizer (hguard : (outcome.finalizer.update workerId now).guard job) :
    job.lockedBy = some workerId ∧ (job.status = .running ∨ job.status = .cancelling) := by
  cases outcome with
  | succeeded => exact JobRepository.markSucceeded_guard.mp hguard
  | failed => exact JobRepository.markFailed_guard.mp hguard
  | retry =>
      obtain ⟨hlocked, hrunning⟩ := JobRepository.scheduleRetry_guard.mp hguard
      exact ⟨hlocked, Or.inl hrunning⟩
  | cancelled => exact JobRepository.finalizeCancelledByWorker_guard.mp hguard

/-- The `UPDATE` and the event of a finalizing transaction agree on the new status. -/
lemma finalizer_status :
    ((outcome.finalizer.update workerId now).values job).status = outcome.finalizer.toStatus := by
  cases outcome <;> rfl

/-- Finalizing transactions leave no job active. -/
lemma finalizer_inactive (outcome : Outcome) :
    outcome.finalizer.toStatus ≠ .running ∧ outcome.finalizer.toStatus ≠ .cancelling := by
  cases outcome <;> exact ⟨nofun, nofun⟩

end Outcome

/-- The attempt row that `_mark_superseded` leaves. -/
def superseded (now : Time) : JobAttempt → JobAttempt :=
  JobAttemptRepository.finished .failed now (some "SUPERSEDED")
    (some "attempt superseded before finalize")

/-- `_mark_superseded` -/
def markSuperseded (db : Database) (attemptId : UUID) (now : Time) : Database :=
  JobAttemptRepository.finish db attemptId .failed now (some "SUPERSEDED")
    (some "attempt superseded before finalize")

/-- A finalizing transaction, and whether its `UPDATE` matched.  `_schedule_retry` does not
read the job first, which makes no difference: without a row its `UPDATE` matches nothing. -/
def finalize (db : Database) (tx : Tx) (workerId : String) (jobId attemptId : UUID) (now : Time)
    (f : Finalizer) : Option (Database × Bool) :=
  match JobRepository.get db jobId with
  | none => some (markSuperseded db attemptId now, false)
  | some job =>
      let (db, matched) := db.updateJob jobId (f.update workerId now)
      if matched then
        let db := JobAttemptRepository.finish db attemptId f.attemptStatus now f.errorCode
          f.errorMessage
        let db := JobEventRepository.record db tx jobId f.eventType f.fromStatus
          (some f.toStatus) f.detail
        if f.notifies then
          (NotificationService.enqueueTerminalNotification db tx job f.eventType f.toStatus
            f.result f.errorCode f.errorMessage now).map fun db => (db, true)
        else some (db, true)
      else some (markSuperseded db attemptId now, false)

/-! ## What the transactions do to the record of their job -/

section Claim

variable {settings : Settings} {db db' : Database} {tx : Tx} {workerId : String} {jobId : UUID}
  {now : Time} {result : Option Claim}

/-- The record after a claim that won the job. -/
def claimed (settings : Settings) (tx : Tx) (workerId : String) (now : Time) (job : Job)
    (r : JobRecord) : JobRecord :=
  { r with
    row := some ((JobRepository.claimForExecution workerId settings.workerLeaseSeconds
      now).values job)
    attempts := r.attempts ++ [JobAttemptRepository.started tx.attemptId job.id
      (job.attempts + 1) workerId now]
    events := r.events ++ [JobEventRepository.event tx job.id .started none (some .running)
      (.claimed (job.attempts + 1) workerId)] }

/-- A claim wins exactly when its guard matches the row it finds. -/
lemma claim_cases (h : claim settings db tx workerId jobId now = some (db', result)) :
    (result = none ∧ db'.record = db.record ∧ ∀ job, (db.record jobId).row = some job →
      ¬ (JobRepository.claimForExecution workerId settings.workerLeaseSeconds now).guard job) ∨
    (∃ job, (db.record jobId).row = some job ∧
      (JobRepository.claimForExecution workerId settings.workerLeaseSeconds now).guard job ∧
      result = some ⟨job.attempts + 1, tx.attemptId, ⟨job.type, job.payload, job.maxAttempts⟩⟩ ∧
      db'.record = Function.update db.record jobId
        (claimed settings tx workerId now job (db.record jobId))) := by
  unfold claim at h
  cases hrow : (db.record jobId).row with
  | none =>
      have hget : JobRepository.get db jobId = none := hrow
      rw [hget] at h
      obtain ⟨rfl, rfl⟩ := Prod.mk.inj (Option.some.inj h)
      exact Or.inl ⟨rfl, rfl, fun _ hjob => by cases hjob⟩
  | some job =>
      have hget : JobRepository.get db jobId = some job := hrow
      rw [hget] at h
      dsimp only at h
      rw [Database.updateJob_matched_iff hrow] at h
      split at h
      · rename_i hguard
        obtain ⟨d, hd, heq⟩ := Option.map_eq_some_iff.mp h
        obtain ⟨rfl, rfl⟩ := Prod.mk.inj heq
        have hid : job.id = jobId := db.id_of_row jobId hrow
        have hnumber : ((JobRepository.claimForExecution workerId settings.workerLeaseSeconds
            now).apply job).attempts = job.attempts + 1 := by
          rw [JobUpdate.apply_of_guard hguard]
          rfl
        refine Or.inr ⟨job, rfl, hguard, by rw [hnumber], ?_⟩
        rw [JobEventRepository.record_record, JobAttemptRepository.record_start hd,
          Database.record_updateJob_of_guard hrow hguard, hnumber]
        simp only [Function.update_self, Function.update_idem]
        simp [claimed, JobRecord.addAttempt, JobRecord.addEvent, hid]
      · rename_i hguard
        obtain ⟨rfl, rfl⟩ := Prod.mk.inj (Option.some.inj h)
        refine Or.inl ⟨rfl, Database.record_updateJob_of_not_guard hrow hguard, ?_⟩
        intro job' hjob'
        rwa [← Option.some.inj hjob']

/-- A claim that wins inserts an attempt under an id that no attempt has. -/
lemma attempt_of_claim {won : Claim}
    (h : claim settings db tx workerId jobId now = some (db', some won)) :
    won.attemptId = tx.attemptId ∧ db.jobAttempts.get? tx.attemptId = none := by
  unfold claim at h
  split at h
  · cases h
  · rename_i job _
    dsimp only at h
    split at h
    · obtain ⟨d, hd, heq⟩ := Option.map_eq_some_iff.mp h
      obtain ⟨-, hwon⟩ := Prod.mk.inj heq
      obtain rfl := Option.some.inj hwon
      unfold JobAttemptRepository.start at hd
      split at hd
      · cases hd
      · obtain ⟨t, ht, -⟩ := Option.map_eq_some_iff.mp hd
        exact ⟨rfl, Table.get?_none_of_insert? ht⟩
    · cases h

end Claim

section Finalize

variable {db db' : Database} {tx : Tx} {workerId : String} {jobId attemptId : UUID} {now : Time}
  {f : Finalizer} {hit : Bool}

/-- The record after a finalizing transaction whose `UPDATE` matched. -/
def finalized (tx : Tx) (workerId : String) (attemptId : UUID) (now : Time) (f : Finalizer)
    (job : Job) (r : JobRecord) : JobRecord :=
  let r := ({ r with row := some ((f.update workerId now).values job) }.mapAttempt attemptId
    (JobAttemptRepository.finished f.attemptStatus now f.errorCode f.errorMessage)).addEvent
      (JobEventRepository.event tx job.id f.eventType f.fromStatus (some f.toStatus) f.detail)
  if f.notifies then
    r.enqueue (NotificationService.terminalNotification tx job f.eventType f.toStatus f.result
      f.errorCode f.errorMessage now)
  else r

section Finalized

variable {job : Job} {r : JobRecord}

@[simp] lemma finalized_row :
    (finalized tx workerId attemptId now f job r).row =
      some ((f.update workerId now).values job) := by
  unfold finalized
  split
  · exact JobRecord.enqueue_row
  · rfl

@[simp] lemma finalized_attempts :
    (finalized tx workerId attemptId now f job r).attempts =
      r.attempts.map fun a => if a.id = attemptId then
        JobAttemptRepository.finished f.attemptStatus now f.errorCode f.errorMessage a else a := by
  unfold finalized
  split
  · exact JobRecord.enqueue_attempts
  · rfl

@[simp] lemma finalized_events :
    (finalized tx workerId attemptId now f job r).events =
      r.events ++ [JobEventRepository.event tx job.id f.eventType f.fromStatus (some f.toStatus)
        f.detail] := by
  unfold finalized
  split
  · exact JobRecord.enqueue_events
  · rfl

@[simp] lemma finalized_outbox :
    (finalized tx workerId attemptId now f job r).outbox = r.outbox := by
  unfold finalized
  split
  · exact JobRecord.enqueue_outbox
  · rfl

lemma mem_finalized {m : NotificationOutbox} (h : m ∈ r.notifications) :
    m ∈ (finalized tx workerId attemptId now f job r).notifications := by
  unfold finalized
  split
  · exact JobRecord.mem_enqueue h
  · exact h

end Finalized

/-- A finalizing transaction ends the attempt with its outcome when its guard matches the row
it finds, and as superseded when it does not. -/
lemma finalize_cases (h : finalize db tx workerId jobId attemptId now f = some (db', hit))
    (hown : ∃ a ∈ (db.record jobId).attempts, a.id = attemptId) :
    (hit = false ∧ (∀ job, (db.record jobId).row = some job →
        ¬ (f.update workerId now).guard job) ∧
      db'.record = Function.update db.record jobId
        ((db.record jobId).mapAttempt attemptId (superseded now))) ∨
    (∃ job, (db.record jobId).row = some job ∧ (f.update workerId now).guard job ∧ hit = true ∧
      db'.record = Function.update db.record jobId
        (finalized tx workerId attemptId now f job (db.record jobId))) := by
  unfold finalize at h
  cases hrow : (db.record jobId).row with
  | none =>
      have hget : JobRepository.get db jobId = none := hrow
      rw [hget] at h
      obtain ⟨rfl, rfl⟩ := Prod.mk.inj (Option.some.inj h)
      refine Or.inl ⟨rfl, fun _ hjob => (by cases hjob), ?_⟩
      exact JobAttemptRepository.record_finish hown
  | some job =>
      have hget : JobRepository.get db jobId = some job := hrow
      have hid : job.id = jobId := db.id_of_row jobId hrow
      rw [hget] at h
      dsimp only at h
      rw [Database.updateJob_matched_iff hrow] at h
      split at h
      · rename_i hguard
        have hrecord := Database.record_updateJob_of_guard hrow hguard
        have hown' : ∃ a ∈ ((db.updateJob jobId (f.update workerId now)).1.record
            jobId).attempts, a.id = attemptId := by
          rw [hrecord, Function.update_self]
          exact hown
        refine Or.inr ⟨job, rfl, hguard, ?_⟩
        unfold finalized
        split at h
        · rename_i hnotifies
          obtain ⟨d, hd, heq⟩ := Option.map_eq_some_iff.mp h
          obtain ⟨rfl, rfl⟩ := Prod.mk.inj heq
          refine ⟨rfl, ?_⟩
          rw [NotificationService.record_enqueueTerminalNotification hd,
            JobEventRepository.record_record, JobAttemptRepository.record_finish hown', hrecord]
          simp [hid, hnotifies]
        · rename_i hquiet
          obtain ⟨rfl, rfl⟩ := Prod.mk.inj (Option.some.inj h)
          refine ⟨rfl, ?_⟩
          rw [JobEventRepository.record_record, JobAttemptRepository.record_finish hown', hrecord]
          simp [hid, hquiet]
      · rename_i hguard
        obtain ⟨rfl, rfl⟩ := Prod.mk.inj (Option.some.inj h)
        have hrecord := Database.record_updateJob_of_not_guard hrow hguard
        refine Or.inl ⟨rfl, fun job' hjob' => (Option.some.inj hjob') ▸ hguard, ?_⟩
        rw [← hrecord]
        exact JobAttemptRepository.record_finish (by rw [hrecord]; exact hown)

end Finalize

end ExecutionService

end JobOrchestrator
