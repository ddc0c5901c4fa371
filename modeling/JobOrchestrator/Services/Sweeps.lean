import JobOrchestrator.Queue.RedisQueue
import JobOrchestrator.Services.Notification

/-!
# The sweeps of the scheduler

`dispatch_service.py`, `retry_service.py`, `lease_service.py` and `expiry_service.py`.  A
sweep selects a batch of rows, works through them in one transaction, and sends to Redis
after the commit what it collected on the way (`Swept`).

Every row of a batch belongs to another job.  So a sweep acts on the record of each selected
job as one iteration of its loop does, and on no other record; the theorems at the end of
each section say this.
-/

namespace JobOrchestrator

/-- A sweep between two iterations of its loop. -/
structure Swept where
  db : Database
  published : List (UUID × JobPriority)
  deadLettered : List UUID
  expired : ℕ

namespace Swept

def start (db : Database) : Swept := ⟨db, [], [], 0⟩

/-- What is sent to Redis after the commit. -/
def pushes (s : Swept) : List Push :=
  s.deadLettered.map Push.deadLetter ++ s.published.map fun p => Push.publish p.1 p.2

/-- The number that the sweep returns. -/
def returned (s : Swept) : ℕ := s.published.length + s.deadLettered.length + s.expired

end Swept

/-! ## `DispatchService` -/

namespace DispatchService

/-- One iteration of `dispatch_pending`. -/
def dispatchRow (tx : Tx) (now : Time) (s : Swept) (row : DispatchOutbox) : Option Swept :=
  let job := JobRepository.get s.db row.jobId
  let db := DispatchOutboxRepository.markPublished s.db row.id now
  match job with
  | none => some { s with db }
  | some job =>
      let db := (db.updateJob row.jobId (JobRepository.markQueued now)).1
      let db := JobEventRepository.record db tx row.jobId .queued (some .pending) (some .queued)
        .none
      some { s with db, published := s.published ++ [(row.jobId, job.priority)] }

def dispatchPending (db : Database) (tx : Tx) (locked : List UUID) (batchSize : ℕ) (now : Time) :
    Option Swept :=
  (DispatchOutboxRepository.claimPending db locked batchSize).foldlM (dispatchRow tx now)
    (.start db)

/-- What `dispatchRow` does to the record of its job. -/
def dispatchRecord (tx : Tx) (now : Time) (row : DispatchOutbox) (r : JobRecord) : JobRecord :=
  match r.row with
  | none => r.mapOutbox row.id (DispatchOutboxRepository.published now)
  | some _ =>
      ((r.mapOutbox row.id (DispatchOutboxRepository.published now)).updateRow
        (JobRepository.markQueued now)).addEvent
          (JobEventRepository.event tx row.jobId .queued (some .pending) (some .queued) .none)

/-- The record of an existing job after its outbox row was dispatched. -/
def dispatched (tx : Tx) (now : Time) (row : DispatchOutbox) (job : Job) (r : JobRecord) :
    JobRecord :=
  { r with
    row := some ((JobRepository.markQueued now).apply job)
    events := r.events ++ [JobEventRepository.event tx row.jobId .queued (some .pending)
      (some .queued) .none]
    outbox := r.outbox.map fun o =>
      if o.id = row.id then DispatchOutboxRepository.published now o else o }

lemma dispatchRecord_of_row {tx : Tx} {now : Time} {row : DispatchOutbox} {job : Job}
    {r : JobRecord} (hrow : r.row = some job) :
    dispatchRecord tx now row r = dispatched tx now row job r := by
  unfold dispatchRecord
  rw [hrow]
  simp [dispatched, JobRecord.mapOutbox, JobRecord.updateRow, JobRecord.addEvent, hrow]

/-- The row object of an iteration may be stale, but its id and its job are still current. -/
private def Current (row : DispatchOutbox) (s : Swept) : Prop :=
  ∃ o ∈ s.db.dispatchOutbox.rows, o.id = row.id ∧ o.jobId = row.jobId

private lemma record_markPublished {s : Swept} {row : DispatchOutbox} (now : Time)
    (hcurrent : Current row s) :
    (DispatchOutboxRepository.markPublished s.db row.id now).record =
      Function.update s.db.record row.jobId ((s.db.record row.jobId).mapOutbox row.id
        (DispatchOutboxRepository.published now)) := by
  obtain ⟨o, ho, hid, hjob⟩ := hcurrent
  rw [← hid, ← hjob]
  exact DispatchOutboxRepository.record_markPublished ho

lemma record_dispatchRow {tx : Tx} {now : Time} {s s' : Swept} {row : DispatchOutbox}
    (h : dispatchRow tx now s row = some s') (hcurrent : Current row s) :
    s'.db.record = Function.update s.db.record row.jobId
      (dispatchRecord tx now row (s.db.record row.jobId)) := by
  have hpublished := record_markPublished now hcurrent
  unfold dispatchRow at h
  unfold dispatchRecord
  cases hrow : (s.db.record row.jobId).row with
  | none =>
      have hget : JobRepository.get s.db row.jobId = none := hrow
      rw [hget] at h
      obtain rfl := Option.some.inj h
      exact hpublished
  | some job =>
      have hget : JobRepository.get s.db row.jobId = some job := hrow
      rw [hget] at h
      obtain rfl := Option.some.inj h
      simp only [JobEventRepository.record_record, Database.record_updateJob, hpublished,
        Function.update_self, Function.update_idem]
      rfl

lemma current_of_dispatchRow {tx : Tx} {now : Time} {s s' : Swept} {row other : DispatchOutbox}
    (h : dispatchRow tx now s row = some s') (hother : Current other s) : Current other s' := by
  have hrows : s'.db.dispatchOutbox =
      (DispatchOutboxRepository.markPublished s.db row.id now).dispatchOutbox := by
    cases hget : JobRepository.get s.db row.jobId with
    | none =>
        simp only [dispatchRow, hget] at h
        obtain rfl := Option.some.inj h
        rfl
    | some job =>
        simp only [dispatchRow, hget] at h
        obtain rfl := Option.some.inj h
        rfl
  obtain ⟨o, ho, hid, hjob⟩ := hother
  have hmem : (if o.id = row.id && true then DispatchOutboxRepository.published now o else o) ∈
      s'.db.dispatchOutbox.rows := by
    rw [hrows]
    exact Table.mem_update ho _ (DispatchOutboxRepository.published now) fun _ => rfl
  refine ⟨_, hmem, ?_, ?_⟩
  · split <;> exact hid
  · split <;> exact hjob

section

variable {db : Database} {tx : Tx} {locked : List UUID} {batchSize : ℕ} {now : Time} {s : Swept}

/-- When no job has two outbox rows, the claimed rows belong to different jobs. -/
lemma nodup_jobId_claimPending (hone : ∀ i, (db.record i).outbox.length ≤ 1) :
    ((DispatchOutboxRepository.claimPending db locked batchSize).map
      DispatchOutbox.jobId).Nodup := by
  have hnodup := (Table.nodup_select : ((DispatchOutboxRepository.claimPending db locked
    batchSize).map DispatchOutbox.id).Nodup)
  refine List.Nodup.map_on (fun o ho o' ho' hjob => ?_) hnodup.of_map
  have hmem : o ∈ (db.record o'.jobId).outbox :=
    Table.mem_children.mpr ⟨(Table.mem_of_mem_select ho).1, hjob⟩
  have hmem' : o' ∈ (db.record o'.jobId).outbox :=
    Table.mem_children.mpr ⟨(Table.mem_of_mem_select ho').1, rfl⟩
  obtain ⟨a, ha⟩ := List.length_eq_one_iff.mp
    (le_antisymm (hone o'.jobId) (List.length_pos_of_mem hmem))
  rw [ha, List.mem_singleton] at hmem hmem'
  rw [hmem, hmem']

lemma published_dispatchRow {s s' : Swept} {row : DispatchOutbox}
    (h : dispatchRow tx now s row = some s') :
    s'.published = s.published ++ ((s.db.record row.jobId).row.map
      fun job => (row.jobId, job.priority)).toList := by
  unfold dispatchRow at h
  cases hrow : (s.db.record row.jobId).row with
  | none =>
      have hget : JobRepository.get s.db row.jobId = none := hrow
      rw [hget] at h
      obtain rfl := Option.some.inj h
      simp
  | some job =>
      have hget : JobRepository.get s.db row.jobId = some job := hrow
      rw [hget] at h
      obtain rfl := Option.some.inj h
      rfl

lemma deadLettered_dispatchRow {s s' : Swept} {row : DispatchOutbox}
    (h : dispatchRow tx now s row = some s') : s'.deadLettered = s.deadLettered := by
  unfold dispatchRow at h
  cases hget : JobRepository.get s.db row.jobId with
  | none =>
      rw [hget] at h
      obtain rfl := Option.some.inj h
      rfl
  | some job =>
      rw [hget] at h
      obtain rfl := Option.some.inj h
      rfl

/-- `dispatch_pending` acts on the jobs of the rows it claims, once each. -/
theorem record_dispatchPending (h : dispatchPending db tx locked batchSize now = some s)
    (hone : ∀ i, (db.record i).outbox.length ≤ 1) :
    (∀ i, i ∉ (DispatchOutboxRepository.claimPending db locked batchSize).map DispatchOutbox.jobId →
      s.db.record i = db.record i) ∧
    ∀ row ∈ DispatchOutboxRepository.claimPending db locked batchSize,
      s.db.record row.jobId = dispatchRecord tx now row (db.record row.jobId) :=
  Table.foldlM_pointwise (fun s : Swept => s.db.record) Current
    (fun _ _ _ hbody hcurrent => record_dispatchRow hbody hcurrent)
    (fun _ _ _ _ hbody _ hother => current_of_dispatchRow hbody hother)
    (nodup_jobId_claimPending hone)
    (fun row hrow => ⟨row, (Table.mem_of_mem_select hrow).1, rfl, rfl⟩) h

/-- `dispatch_pending` sends the jobs of the rows it claims, whatever their status. -/
theorem pushes_dispatchPending (h : dispatchPending db tx locked batchSize now = some s)
    (hone : ∀ i, (db.record i).outbox.length ≤ 1) :
    s.pushes = (DispatchOutboxRepository.claimPending db locked batchSize).filterMap fun row =>
      (db.record row.jobId).row.map fun job => Push.publish row.jobId job.priority := by
  have hpublished := Table.foldlM_collect (fun s : Swept => s.db.record) Swept.published
    (fun row r => r.row.map fun job => (row.jobId, job.priority)) Current
    (fun _ _ _ hbody hcurrent => record_dispatchRow hbody hcurrent)
    (fun _ _ _ hbody _ => published_dispatchRow hbody)
    (fun _ _ _ _ hbody _ hother => current_of_dispatchRow hbody hother)
    (nodup_jobId_claimPending hone)
    (fun row hrow => ⟨row, (Table.mem_of_mem_select hrow).1, rfl, rfl⟩) h
  have hdead : s.deadLettered = [] :=
    Table.foldlM_constant Swept.deadLettered (fun _ _ _ hbody => deadLettered_dispatchRow hbody) h
  rw [Swept.pushes, hpublished, hdead]
  simp [Swept.start, List.map_filterMap, Option.map_map, Function.comp_def]

end

/-- One iteration of `redeliver_stuck`; `stamp` is the clock as the loop reads it. -/
def redeliverRow (stamp : UUID → Time) (s : Swept) (job : Job) : Option Swept :=
  some { s with
    db := (s.db.updateJob job.id (JobRepository.markRedispatched (stamp job.id))).1
    published := s.published ++ [(job.id, job.priority)] }

def redeliverStuck (settings : Settings) (db : Database) (locked : List UUID) (batchSize : ℕ)
    (now : Time) (stamp : UUID → Time) : Option Swept :=
  (JobRepository.findStuckQueued db locked (now - seconds settings.queueStuckSeconds)
    batchSize).foldlM (redeliverRow stamp) (.start db)

/-- `redeliver_stuck` stamps the jobs it selects. -/
theorem record_redeliverStuck {settings : Settings} {db : Database} {locked : List UUID}
    {batchSize : ℕ} {now : Time} {stamp : UUID → Time} {s : Swept}
    (h : redeliverStuck settings db locked batchSize now stamp = some s) :
    (∀ i, i ∉ (JobRepository.findStuckQueued db locked (now - seconds settings.queueStuckSeconds)
      batchSize).map Job.id → s.db.record i = db.record i) ∧
    ∀ job ∈ JobRepository.findStuckQueued db locked (now - seconds settings.queueStuckSeconds)
      batchSize, s.db.record job.id =
        (db.record job.id).updateRow (JobRepository.markRedispatched (stamp job.id)) := by
  refine Table.foldlM_pointwise (fun s : Swept => s.db.record) (fun _ _ => True)
    (f := fun job r => r.updateRow (JobRepository.markRedispatched (stamp job.id)))
    (fun s job s' hbody _ => ?_) (fun _ _ _ _ _ _ _ => trivial) Table.nodup_select
    (fun _ _ => trivial) h
  obtain rfl := Option.some.inj hbody
  exact Database.record_updateJob ..

/-- `redeliver_stuck` sends the jobs it selects. -/
theorem pushes_redeliverStuck {settings : Settings} {db : Database} {locked : List UUID}
    {batchSize : ℕ} {now : Time} {stamp : UUID → Time} {s : Swept}
    (h : redeliverStuck settings db locked batchSize now stamp = some s) :
    s.pushes = (JobRepository.findStuckQueued db locked (now - seconds settings.queueStuckSeconds)
      batchSize).map fun job => Push.publish job.id job.priority := by
  have hpublished : s.published = (JobRepository.findStuckQueued db locked
      (now - seconds settings.queueStuckSeconds) batchSize).map
        fun job => (job.id, job.priority) := by
    rw [← List.filterMap_eq_map]
    refine Table.foldlM_collect (fun s : Swept => s.db.record) Swept.published
      (fun job _ => some (job.id, job.priority)) (fun _ _ => True)
      (f := fun job r => r.updateRow (JobRepository.markRedispatched (stamp job.id)))
      (fun s job s' hbody _ => ?_) (fun s job s' hbody _ => ?_) (fun _ _ _ _ _ _ _ => trivial)
      Table.nodup_select (fun _ _ => trivial) h
    · obtain rfl := Option.some.inj hbody
      exact Database.record_updateJob ..
    · obtain rfl := Option.some.inj hbody
      rfl
  have hdead : s.deadLettered = [] := by
    refine Table.foldlM_constant Swept.deadLettered (fun _ _ _ hbody => ?_) h
    obtain rfl := Option.some.inj hbody
    rfl
  rw [Swept.pushes, hpublished, hdead, List.map_map]
  rfl

end DispatchService

/-! ## `RetryService` -/

namespace RetryService

/-- One iteration of `promote_due`. -/
def promoteRow (tx : Tx) (now : Time) (s : Swept) (job : Job) : Option Swept :=
  let (db, matched) := s.db.updateJob job.id (JobRepository.moveRetryToQueued now)
  if matched then
    let db := JobEventRepository.record db tx job.id .queued (some .retrying) (some .queued)
      (.promoted job.attempts)
    some { s with db, published := s.published ++ [(job.id, job.priority)] }
  else some { s with db }

def promoteDue (db : Database) (tx : Tx) (locked : List UUID) (batchSize : ℕ) (now : Time) :
    Option Swept :=
  (JobRepository.findDueRetries db locked now batchSize).foldlM (promoteRow tx now) (.start db)

/-- What `promoteRow` does to the record of its job. -/
def promoteRecord (tx : Tx) (now : Time) (job : Job) : JobRecord → JobRecord :=
  JobRecord.guarded (JobRepository.moveRetryToQueued now) fun r => r.addEvent
    (JobEventRepository.event tx job.id .queued (some .retrying) (some .queued)
      (.promoted job.attempts))

/-- The record of a due job after it was promoted. -/
def promoted (tx : Tx) (now : Time) (job : Job) (r : JobRecord) : JobRecord :=
  { r with
    row := some ((JobRepository.moveRetryToQueued now).values job)
    events := r.events ++ [JobEventRepository.event tx job.id .queued (some .retrying)
      (some .queued) (.promoted job.attempts)] }

lemma promoteRecord_of_row {tx : Tx} {now : Time} {job : Job} {r : JobRecord}
    (hrow : r.row = some job) (hstatus : job.status = .retrying) :
    promoteRecord tx now job r = promoted tx now job r :=
  JobRecord.guarded_of_row hrow (by simpa [JobRepository.moveRetryToQueued] using hstatus)

lemma record_promoteRow {tx : Tx} {now : Time} {s s' : Swept} {job : Job}
    (h : promoteRow tx now s job = some s') :
    s'.db.record =
      Function.update s.db.record job.id (promoteRecord tx now job (s.db.record job.id)) := by
  unfold promoteRow at h
  dsimp only at h
  split at h
  · rename_i hmatched
    obtain rfl := Option.some.inj h
    exact record_of_matched hmatched (JobEventRepository.record_record ..)
  · rename_i hmissed
    obtain rfl := Option.some.inj h
    exact record_of_missed hmissed

lemma published_promoteRow {tx : Tx} {now : Time} {s s' : Swept} {job : Job}
    (h : promoteRow tx now s job = some s') :
    s'.published = s.published ++
      (if (s.db.record job.id).row.any (JobRepository.moveRetryToQueued now).guard
        then some (job.id, job.priority) else none).toList ∧ s'.deadLettered = s.deadLettered := by
  unfold promoteRow at h
  dsimp only at h
  rw [Database.updateJob_matched] at h
  split at h
  · rename_i hmatched
    obtain rfl := Option.some.inj h
    rw [if_pos hmatched]
    exact ⟨rfl, rfl⟩
  · rename_i hmissed
    obtain rfl := Option.some.inj h
    rw [if_neg hmissed]
    exact ⟨(List.append_nil _).symm, rfl⟩

/-- The due jobs are `RETRYING`. -/
lemma row_of_findDueRetries {db : Database} {locked : List UUID} {batchSize : ℕ} {now : Time}
    {job : Job} (h : job ∈ JobRepository.findDueRetries db locked now batchSize) :
    (db.record job.id).row = some job ∧ job.status = .retrying ∧
      ∃ t, job.nextAttemptAt = some t ∧ t ≤ now := by
  have hselected := (Table.mem_of_mem_select h).2
  simp only [Bool.and_eq_true, decide_eq_true_eq, Option.any_eq_true] at hselected
  obtain ⟨⟨-, hstatus⟩, hdue⟩ := hselected
  exact ⟨Table.get?_of_mem_select h, hstatus, hdue⟩

/-- `promote_due` acts on the due jobs it selects, once each. -/
theorem record_promoteDue {db : Database} {tx : Tx} {locked : List UUID} {batchSize : ℕ}
    {now : Time} {s : Swept} (h : promoteDue db tx locked batchSize now = some s) :
    (∀ i, i ∉ (JobRepository.findDueRetries db locked now batchSize).map Job.id →
      s.db.record i = db.record i) ∧
    ∀ job ∈ JobRepository.findDueRetries db locked now batchSize,
      s.db.record job.id = promoteRecord tx now job (db.record job.id) :=
  Table.foldlM_pointwise (fun s : Swept => s.db.record) (fun _ _ => True)
    (fun _ _ _ hbody _ => record_promoteRow hbody) (fun _ _ _ _ _ _ _ => trivial)
    Table.nodup_select (fun _ _ => trivial) h

/-- `promote_due` sends the due jobs it selects. -/
theorem pushes_promoteDue {db : Database} {tx : Tx} {locked : List UUID} {batchSize : ℕ}
    {now : Time} {s : Swept} (h : promoteDue db tx locked batchSize now = some s) :
    s.pushes = (JobRepository.findDueRetries db locked now batchSize).map fun job =>
      Push.publish job.id job.priority := by
  have hpublished : s.published = (JobRepository.findDueRetries db locked now batchSize).filterMap
      fun job => if (db.record job.id).row.any (JobRepository.moveRetryToQueued now).guard
        then some (job.id, job.priority) else none :=
    Table.foldlM_collect (fun s : Swept => s.db.record) Swept.published
      (fun (job : Job) (r : JobRecord) =>
        if r.row.any (JobRepository.moveRetryToQueued now).guard
          then some (job.id, job.priority) else none) (fun _ _ => True)
      (fun _ _ _ hbody _ => record_promoteRow hbody)
      (fun _ _ _ hbody _ => (published_promoteRow hbody).1)
      (fun _ _ _ _ _ _ _ => trivial) Table.nodup_select (fun _ _ => trivial) h
  have hdead : s.deadLettered = [] :=
    Table.foldlM_constant Swept.deadLettered (fun _ _ _ hbody => (published_promoteRow hbody).2) h
  have hall : s.published = (JobRepository.findDueRetries db locked now batchSize).map
      fun job => (job.id, job.priority) := by
    rw [hpublished, ← List.filterMap_eq_map]
    refine List.filterMap_congr fun job hjob => ?_
    obtain ⟨hrow, hstatus, -⟩ := row_of_findDueRetries hjob
    rw [hrow, Option.any_some, if_pos (JobRepository.moveRetryToQueued_guard.mpr hstatus)]
    rfl
  rw [Swept.pushes, hall, hdead, List.map_map]
  rfl

end RetryService

/-! ## `LeaseService` -/

namespace LeaseService

def leaseExpiredCode : String := "LEASE_EXPIRED"

def leaseExpiredMessage : String := "worker lease expired and retries were exhausted"

/-- The branch of `reap_expired` for a job without attempts left. -/
def failRow (tx : Tx) (now : Time) (s : Swept) (job : Job) : Option Swept :=
  let (db, matched) := s.db.updateJob job.id
    (JobRepository.failExpiredLease leaseExpiredCode leaseExpiredMessage now true)
  if matched then
    let db := JobEventRepository.record db tx job.id .failed (some .running) (some .failed)
      .leaseExpired
    (NotificationService.enqueueTerminalNotification db tx job .failed .failed none
      (some leaseExpiredCode) (some leaseExpiredMessage) now).map fun db =>
        { s with db, deadLettered := s.deadLettered ++ [job.id] }
  else some { s with db }

/-- The branch of `reap_expired` for a job with attempts left. -/
def requeueRow (tx : Tx) (now : Time) (s : Swept) (job : Job) : Option Swept :=
  let (db, matched) := s.db.updateJob job.id (JobRepository.requeueExpiredLease now)
  if matched then
    let db := JobEventRepository.record db tx job.id .requeued (some .running) (some .queued)
      .leaseExpired
    some { s with db, published := s.published ++ [(job.id, job.priority)] }
  else some { s with db }

/-- One iteration of `reap_expired`. -/
def reapRow (tx : Tx) (now : Time) (s : Swept) (job : Job) : Option Swept :=
  if job.maxAttempts ≤ job.attempts then failRow tx now s job else requeueRow tx now s job

def reapExpired (db : Database) (tx : Tx) (locked : List UUID) (batchSize : ℕ) (now : Time) :
    Option Swept :=
  (JobRepository.findExpiredLeases db locked now batchSize).foldlM (reapRow tx now) (.start db)

/-- What `failRow` does to the record of its job. -/
def failRecord (tx : Tx) (now : Time) (job : Job) : JobRecord → JobRecord :=
  JobRecord.guarded
    (JobRepository.failExpiredLease leaseExpiredCode leaseExpiredMessage now true) fun r =>
      (r.addEvent (JobEventRepository.event tx job.id .failed (some .running) (some .failed)
        .leaseExpired)).enqueue
          (NotificationService.terminalNotification tx job .failed .failed none
            (some leaseExpiredCode) (some leaseExpiredMessage) now)

/-- What `requeueRow` does to the record of its job. -/
def requeueRecord (tx : Tx) (now : Time) (job : Job) : JobRecord → JobRecord :=
  JobRecord.guarded (JobRepository.requeueExpiredLease now) fun r => r.addEvent
    (JobEventRepository.event tx job.id .requeued (some .running) (some .queued) .leaseExpired)

/-- What `reapRow` does to the record of its job. -/
def reapRecord (tx : Tx) (now : Time) (job : Job) (r : JobRecord) : JobRecord :=
  if job.maxAttempts ≤ job.attempts then failRecord tx now job r else requeueRecord tx now job r

/-- The record of a `RUNNING` job after its lease expired with no attempt left. -/
def failed (tx : Tx) (now : Time) (job : Job) (r : JobRecord) : JobRecord :=
  JobRecord.enqueue
    { r with
      row := some ((JobRepository.failExpiredLease leaseExpiredCode leaseExpiredMessage now
        true).values job)
      events := r.events ++ [JobEventRepository.event tx job.id .failed (some .running)
        (some .failed) .leaseExpired] }
    (NotificationService.terminalNotification tx job .failed .failed none
      (some leaseExpiredCode) (some leaseExpiredMessage) now)

/-- The record of a `RUNNING` job after its lease expired with attempts left. -/
def requeued (tx : Tx) (now : Time) (job : Job) (r : JobRecord) : JobRecord :=
  { r with
    row := some ((JobRepository.requeueExpiredLease now).values job)
    events := r.events ++ [JobEventRepository.event tx job.id .requeued (some .running)
      (some .queued) .leaseExpired] }

section Row

variable {tx : Tx} {now : Time} {job : Job} {r : JobRecord} (hrow : r.row = some job)
  (hstatus : job.status = .running)
include hrow hstatus

lemma failRecord_of_row : failRecord tx now job r = failed tx now job r :=
  JobRecord.guarded_of_row hrow (by simpa [JobRepository.failExpiredLease] using hstatus)

lemma requeueRecord_of_row : requeueRecord tx now job r = requeued tx now job r :=
  JobRecord.guarded_of_row hrow (by simpa [JobRepository.requeueExpiredLease] using hstatus)

end Row

lemma record_failRow {tx : Tx} {now : Time} {s s' : Swept} {job : Job}
    (h : failRow tx now s job = some s') :
    s'.db.record =
      Function.update s.db.record job.id (failRecord tx now job (s.db.record job.id)) := by
  unfold failRow at h
  dsimp only at h
  split at h
  · rename_i hmatched
    obtain ⟨d, hd, rfl⟩ := Option.map_eq_some_iff.mp h
    refine record_of_matched hmatched ?_
    rw [NotificationService.record_enqueueTerminalNotification hd,
      JobEventRepository.record_record, Function.update_self, Function.update_idem]
  · rename_i hmissed
    obtain rfl := Option.some.inj h
    exact record_of_missed hmissed

lemma record_requeueRow {tx : Tx} {now : Time} {s s' : Swept} {job : Job}
    (h : requeueRow tx now s job = some s') :
    s'.db.record =
      Function.update s.db.record job.id (requeueRecord tx now job (s.db.record job.id)) := by
  unfold requeueRow at h
  dsimp only at h
  split at h
  · rename_i hmatched
    obtain rfl := Option.some.inj h
    exact record_of_matched hmatched (JobEventRepository.record_record ..)
  · rename_i hmissed
    obtain rfl := Option.some.inj h
    exact record_of_missed hmissed

lemma record_reapRow {tx : Tx} {now : Time} {s s' : Swept} {job : Job}
    (h : reapRow tx now s job = some s') :
    s'.db.record =
      Function.update s.db.record job.id (reapRecord tx now job (s.db.record job.id)) := by
  unfold reapRow at h
  unfold reapRecord
  split at h
  · rename_i hexhausted
    rw [if_pos hexhausted]
    exact record_failRow h
  · rename_i hleft
    rw [if_neg hleft]
    exact record_requeueRow h

lemma collected_failRow {tx : Tx} {now : Time} {s s' : Swept} {job : Job}
    (h : failRow tx now s job = some s') :
    s'.published = s.published ∧ s'.deadLettered = s.deadLettered ++
      (if (s.db.record job.id).row.any (JobRepository.failExpiredLease leaseExpiredCode
        leaseExpiredMessage now true).guard then some job.id else none).toList := by
  unfold failRow at h
  dsimp only at h
  rw [Database.updateJob_matched] at h
  split at h
  · rename_i hmatched
    obtain ⟨d, -, rfl⟩ := Option.map_eq_some_iff.mp h
    rw [if_pos hmatched]
    exact ⟨rfl, rfl⟩
  · rename_i hmissed
    obtain rfl := Option.some.inj h
    rw [if_neg hmissed]
    exact ⟨rfl, (List.append_nil _).symm⟩

lemma collected_requeueRow {tx : Tx} {now : Time} {s s' : Swept} {job : Job}
    (h : requeueRow tx now s job = some s') :
    s'.deadLettered = s.deadLettered ∧ s'.published = s.published ++
      (if (s.db.record job.id).row.any (JobRepository.requeueExpiredLease now).guard
        then some (job.id, job.priority) else none).toList := by
  unfold requeueRow at h
  dsimp only at h
  rw [Database.updateJob_matched] at h
  split at h
  · rename_i hmatched
    obtain rfl := Option.some.inj h
    rw [if_pos hmatched]
    exact ⟨rfl, rfl⟩
  · rename_i hmissed
    obtain rfl := Option.some.inj h
    rw [if_neg hmissed]
    exact ⟨rfl, (List.append_nil _).symm⟩

/-- The jobs with an expired lease are `RUNNING`. -/
lemma row_of_findExpiredLeases {db : Database} {locked : List UUID} {batchSize : ℕ} {now : Time}
    {job : Job} (h : job ∈ JobRepository.findExpiredLeases db locked now batchSize) :
    (db.record job.id).row = some job ∧ job.status = .running ∧
      ∃ t, job.lockExpiresAt = some t ∧ t < now := by
  have hselected := (Table.mem_of_mem_select h).2
  simp only [Bool.and_eq_true, decide_eq_true_eq, Option.any_eq_true] at hselected
  obtain ⟨⟨-, hstatus⟩, hexpired⟩ := hselected
  exact ⟨Table.get?_of_mem_select h, hstatus, hexpired⟩

/-- `reap_expired` acts on the jobs it selects, once each. -/
theorem record_reapExpired {db : Database} {tx : Tx} {locked : List UUID} {batchSize : ℕ}
    {now : Time} {s : Swept} (h : reapExpired db tx locked batchSize now = some s) :
    (∀ i, i ∉ (JobRepository.findExpiredLeases db locked now batchSize).map Job.id →
      s.db.record i = db.record i) ∧
    ∀ job ∈ JobRepository.findExpiredLeases db locked now batchSize,
      s.db.record job.id = reapRecord tx now job (db.record job.id) :=
  Table.foldlM_pointwise (fun s : Swept => s.db.record) (fun _ _ => True)
    (fun _ _ _ hbody _ => record_reapRow hbody) (fun _ _ _ _ _ _ _ => trivial)
    Table.nodup_select (fun _ _ => trivial) h

section Collected

variable {db : Database} {tx : Tx} {locked : List UUID} {batchSize : ℕ} {now : Time} {s : Swept}
  (h : reapExpired db tx locked batchSize now = some s)
include h

/-- `reap_expired` dead-letters the selected jobs that have no attempt left. -/
lemma deadLettered_reapExpired :
    s.deadLettered = ((JobRepository.findExpiredLeases db locked now batchSize).filter
      fun job => job.maxAttempts ≤ job.attempts).map Job.id := by
  have hcollected : s.deadLettered =
      (JobRepository.findExpiredLeases db locked now batchSize).filterMap fun job =>
        if job.maxAttempts ≤ job.attempts then
          if (db.record job.id).row.any (JobRepository.failExpiredLease leaseExpiredCode
            leaseExpiredMessage now true).guard then some job.id else none
        else none := by
    refine Table.foldlM_collect (fun s : Swept => s.db.record) Swept.deadLettered
      (fun (job : Job) (r : JobRecord) =>
        if job.maxAttempts ≤ job.attempts then
          if r.row.any (JobRepository.failExpiredLease leaseExpiredCode
            leaseExpiredMessage now true).guard then some job.id else none
        else none) (fun _ _ => True) (fun _ _ _ hbody _ => record_reapRow hbody)
      (fun s job s' hbody _ => ?_) (fun _ _ _ _ _ _ _ => trivial) Table.nodup_select
      (fun _ _ => trivial) h
    unfold reapRow at hbody
    split at hbody
    · rename_i hexhausted
      rw [if_pos hexhausted]
      exact (collected_failRow hbody).2
    · rename_i hleft
      rw [if_neg hleft, (collected_requeueRow hbody).1]
      exact (List.append_nil _).symm
  rw [hcollected, ← List.filterMap_eq_map, List.filterMap_filter]
  refine List.filterMap_congr fun job hjob => ?_
  obtain ⟨hrow, hstatus, -⟩ := row_of_findExpiredLeases hjob
  rw [hrow, Option.any_some, if_pos (JobRepository.failExpiredLease_guard.mpr hstatus)]
  simp only [decide_eq_true_eq, Function.comp_apply]

/-- `reap_expired` publishes the selected jobs that have an attempt left. -/
lemma published_reapExpired :
    s.published = ((JobRepository.findExpiredLeases db locked now batchSize).filter
      fun job => job.attempts < job.maxAttempts).map fun job => (job.id, job.priority) := by
  have hcollected : s.published =
      (JobRepository.findExpiredLeases db locked now batchSize).filterMap fun job =>
        if job.attempts < job.maxAttempts then
          if (db.record job.id).row.any (JobRepository.requeueExpiredLease now).guard
            then some (job.id, job.priority) else none
        else none := by
    refine Table.foldlM_collect (fun s : Swept => s.db.record) Swept.published
      (fun (job : Job) (r : JobRecord) =>
        if job.attempts < job.maxAttempts then
          if r.row.any (JobRepository.requeueExpiredLease now).guard
            then some (job.id, job.priority) else none
        else none) (fun _ _ => True) (fun _ _ _ hbody _ => record_reapRow hbody)
      (fun s job s' hbody _ => ?_) (fun _ _ _ _ _ _ _ => trivial) Table.nodup_select
      (fun _ _ => trivial) h
    unfold reapRow at hbody
    split at hbody
    · rename_i hexhausted
      rw [if_neg (not_lt.mpr hexhausted), (collected_failRow hbody).1]
      exact (List.append_nil _).symm
    · rename_i hleft
      rw [if_pos (not_le.mp hleft)]
      exact (collected_requeueRow hbody).2
  rw [hcollected, ← List.filterMap_eq_map, List.filterMap_filter]
  refine List.filterMap_congr fun job hjob => ?_
  obtain ⟨hrow, hstatus, -⟩ := row_of_findExpiredLeases hjob
  rw [hrow, Option.any_some, if_pos (JobRepository.requeueExpiredLease_guard.mpr hstatus)]
  simp only [decide_eq_true_eq, Function.comp_apply]

end Collected

end LeaseService

/-! ## `ExpiryService` -/

namespace ExpiryService

def expiredCode : String := "EXPIRED"

def expiredMessage : String := "job expired before it started running"

/-- One iteration of `expire_stale`.  The session mirrors the `UPDATE` into the instance it
has loaded, so the event and the notification read the columns that were just written. -/
def expireRow (tx : Tx) (now : Time) (s : Swept) (job : Job) : Option Swept :=
  let (db, matched) := s.db.updateJob job.id (JobRepository.expire now)
  if matched then
    let job := (JobRepository.expire now).apply job
    let db := JobEventRepository.record db tx job.id .expired (some job.status) (some .expired)
      .none
    (NotificationService.enqueueTerminalNotification db tx job .expired .expired none
      (some expiredCode) (some expiredMessage) now).map fun db =>
        { s with db, expired := s.expired + 1 }
  else some { s with db }

def expireStale (settings : Settings) (db : Database) (tx : Tx) (locked : List UUID)
    (batchSize : ℕ) (now : Time) : Option Swept :=
  (JobRepository.findExpirable db locked (now - seconds settings.jobQueueMaxAgeSeconds)
    batchSize).foldlM (expireRow tx now) (.start db)

/-- What `expireRow` does to the record of its job. -/
def expireRecord (tx : Tx) (now : Time) (job : Job) : JobRecord → JobRecord :=
  JobRecord.guarded (JobRepository.expire now) fun r =>
    (r.addEvent (JobEventRepository.event tx job.id .expired
      (some ((JobRepository.expire now).apply job).status) (some .expired) .none)).enqueue
        (NotificationService.terminalNotification tx ((JobRepository.expire now).apply job)
          .expired .expired none (some expiredCode) (some expiredMessage) now)

/-- The record of a job after it expired.  Its event names `EXPIRED` as the old status too. -/
def expired (tx : Tx) (now : Time) (job : Job) (r : JobRecord) : JobRecord :=
  JobRecord.enqueue
    { r with
      row := some ((JobRepository.expire now).values job)
      events := r.events ++ [JobEventRepository.event tx job.id .expired (some .expired)
        (some .expired) .none] }
    (NotificationService.terminalNotification tx ((JobRepository.expire now).values job)
      .expired .expired none (some expiredCode) (some expiredMessage) now)

lemma expireRecord_of_row {tx : Tx} {now : Time} {job : Job} {r : JobRecord}
    (hrow : r.row = some job) (hstatus : job.status ∈ JobRepository.expirable) :
    expireRecord tx now job r = expired tx now job r := by
  have hguard : (JobRepository.expire now).guard job := by
    simpa [JobRepository.expire] using hstatus
  rw [expireRecord, JobRecord.guarded_of_row hrow hguard, JobUpdate.apply_of_guard hguard]
  rfl

lemma record_expireRow {tx : Tx} {now : Time} {s s' : Swept} {job : Job}
    (h : expireRow tx now s job = some s') :
    s'.db.record =
      Function.update s.db.record job.id (expireRecord tx now job (s.db.record job.id)) := by
  have hid : ((JobRepository.expire now).apply job).id = job.id := JobUpdate.apply_id ..
  unfold expireRow at h
  dsimp only at h
  split at h
  · rename_i hmatched
    obtain ⟨d, hd, rfl⟩ := Option.map_eq_some_iff.mp h
    refine record_of_matched hmatched ?_
    rw [NotificationService.record_enqueueTerminalNotification hd,
      JobEventRepository.record_record, hid, Function.update_self, Function.update_idem]
  · rename_i hmissed
    obtain rfl := Option.some.inj h
    exact record_of_missed hmissed

lemma collected_expireRow {tx : Tx} {now : Time} {s s' : Swept} {job : Job}
    (h : expireRow tx now s job = some s') :
    s'.pushes = s.pushes ∧ s'.published = s.published ∧ s'.deadLettered = s.deadLettered ∧
      s'.expired = s.expired +
        if (s.db.record job.id).row.any (JobRepository.expire now).guard then 1 else 0 := by
  unfold expireRow at h
  dsimp only at h
  rw [Database.updateJob_matched] at h
  split at h
  · rename_i hmatched
    obtain ⟨d, -, rfl⟩ := Option.map_eq_some_iff.mp h
    rw [if_pos hmatched]
    exact ⟨rfl, rfl, rfl, rfl⟩
  · rename_i hmissed
    obtain rfl := Option.some.inj h
    rw [if_neg hmissed]
    exact ⟨rfl, rfl, rfl, rfl⟩

/-- The expirable jobs are `PENDING` or `QUEUED`. -/
lemma row_of_findExpirable {db : Database} {locked : List UUID} {batchSize : ℕ} {cutoff : Time}
    {job : Job} (h : job ∈ JobRepository.findExpirable db locked cutoff batchSize) :
    (db.record job.id).row = some job ∧ (job.status = .pending ∨ job.status = .queued) ∧
      job.createdAt < cutoff := by
  have hselected := (Table.mem_of_mem_select h).2
  simp only [Bool.and_eq_true, decide_eq_true_eq, JobRepository.expirable, List.contains_eq_mem,
    List.mem_cons, List.not_mem_nil, or_false] at hselected
  obtain ⟨⟨-, hstatus⟩, hold⟩ := hselected
  exact ⟨Table.get?_of_mem_select h, hstatus, hold⟩

/-- `expire_stale` acts on the jobs it selects, once each. -/
theorem record_expireStale {settings : Settings} {db : Database} {tx : Tx} {locked : List UUID}
    {batchSize : ℕ} {now : Time} {s : Swept}
    (h : expireStale settings db tx locked batchSize now = some s) :
    (∀ i, i ∉ (JobRepository.findExpirable db locked
      (now - seconds settings.jobQueueMaxAgeSeconds) batchSize).map Job.id →
        s.db.record i = db.record i) ∧
    ∀ job ∈ JobRepository.findExpirable db locked
      (now - seconds settings.jobQueueMaxAgeSeconds) batchSize,
        s.db.record job.id = expireRecord tx now job (db.record job.id) :=
  Table.foldlM_pointwise (fun s : Swept => s.db.record) (fun _ _ => True)
    (fun _ _ _ hbody _ => record_expireRow hbody) (fun _ _ _ _ _ _ _ => trivial)
    Table.nodup_select (fun _ _ => trivial) h

section Collected

variable {settings : Settings} {db : Database} {tx : Tx} {locked : List UUID} {batchSize : ℕ}
  {now : Time} {s : Swept} (h : expireStale settings db tx locked batchSize now = some s)
include h

/-- `expire_stale` sends nothing to Redis. -/
lemma pushes_expireStale : s.pushes = [] :=
  Table.foldlM_constant Swept.pushes (fun _ _ _ hbody => (collected_expireRow hbody).1) h

/-- `expire_stale` returns how many jobs it selected. -/
lemma returned_expireStale :
    s.returned = (JobRepository.findExpirable db locked
      (now - seconds settings.jobQueueMaxAgeSeconds) batchSize).length := by
  have hpublished : s.published = [] :=
    Table.foldlM_constant Swept.published (fun _ _ _ hbody => (collected_expireRow hbody).2.1) h
  have hdead : s.deadLettered = [] :=
    Table.foldlM_constant Swept.deadLettered
      (fun _ _ _ hbody => (collected_expireRow hbody).2.2.1) h
  have hexpired : s.expired = (JobRepository.findExpirable db locked
      (now - seconds settings.jobQueueMaxAgeSeconds) batchSize).foldl
        (fun n job => n + if (db.record job.id).row.any (JobRepository.expire now).guard
          then 1 else 0) 0 :=
    Table.foldlM_accumulate (fun s : Swept => s.db.record) Swept.expired
      (fun n _ (r : JobRecord) => n + if r.row.any (JobRepository.expire now).guard then 1 else 0)
      (fun _ _ => True) (fun _ _ _ hbody _ => record_expireRow hbody)
      (fun _ _ _ hbody _ => (collected_expireRow hbody).2.2.2) (fun _ _ _ _ _ _ _ => trivial)
      Table.nodup_select (fun _ _ => trivial) h
  have hcount : s.expired = (JobRepository.findExpirable db locked
      (now - seconds settings.jobQueueMaxAgeSeconds) batchSize).foldl (fun n _ => n + 1) 0 := by
    rw [hexpired]
    refine List.foldl_ext _ _ _ fun n job hjob => ?_
    obtain ⟨hrow, hstatus, -⟩ := row_of_findExpirable hjob
    rw [hrow, Option.any_some, if_pos (JobRepository.expire_guard.mpr hstatus)]
  rw [Swept.returned, hpublished, hdead, hcount, List.foldl_add_const]
  simp

end Collected

end ExpiryService

end JobOrchestrator
