import JobOrchestrator.Library.Descending
import JobOrchestrator.Repositories.JobRepository

/-!
# The repositories of the four child tables

`job_attempt_repository.py`, `job_event_repository.py`, `dispatch_outbox_repository.py` and
`notification_outbox_repository.py`.  An insert that would violate a primary key or a
unique index yields `none`: PostgreSQL raises, and the transaction around it is rolled
back.

Beside each function that writes stands what it does to the records of the jobs, as one
equation between functions of the job id.  `JobRecord` carries the corresponding
operations.
-/

namespace JobOrchestrator

/-- What a transaction draws from outside: PostgreSQL's `now()` at its start, and the ids
that `generate_uuid7` returns in it (of a batch, by the job they are drawn for). -/
structure Tx where
  began : Time
  jobId : UUID
  attemptId : UUID
  outboxId : UUID
  eventId : UUID → UUID
  notificationId : UUID → UUID

/-! ## What the writes do to one record -/

namespace JobRecord

variable (r : JobRecord)

def updateRow (u : JobUpdate) : JobRecord := { r with row := r.row.map u.apply }

def addAttempt (a : JobAttempt) : JobRecord := { r with attempts := r.attempts ++ [a] }

def addEvent (e : JobEvent) : JobRecord := { r with events := r.events ++ [e] }

def addOutbox (o : DispatchOutbox) : JobRecord := { r with outbox := r.outbox ++ [o] }

/-- Rewrite the attempt with the given id. -/
def mapAttempt (attemptId : UUID) (f : JobAttempt → JobAttempt) : JobRecord :=
  { r with attempts := r.attempts.map fun a => if a.id = attemptId then f a else a }

/-- Rewrite the outbox row with the given id. -/
def mapOutbox (outboxId : UUID) (f : DispatchOutbox → DispatchOutbox) : JobRecord :=
  { r with outbox := r.outbox.map fun o => if o.id = outboxId then f o else o }

/-- Rewrite the notification with the given id. -/
def mapNotification (id : UUID) (f : NotificationOutbox → NotificationOutbox) : JobRecord :=
  { r with notifications := r.notifications.map fun n => if n.id = id then f n else n }

/-- Insert a notification unless one with its dedupe key exists. -/
def enqueue (n : NotificationOutbox) : JobRecord :=
  if r.notifications.any fun m => m.dedupeKey = n.dedupeKey then r
  else { r with notifications := r.notifications ++ [n] }

/-- A guarded `UPDATE`, followed by `g` when it matched. -/
def guarded (u : JobUpdate) (g : JobRecord → JobRecord) (r : JobRecord) : JobRecord :=
  if r.row.any u.guard then g (r.updateRow u) else r

section Enqueue

variable {r : JobRecord} {n : NotificationOutbox}

@[simp] lemma enqueue_row : (r.enqueue n).row = r.row := by
  unfold enqueue
  split <;> rfl

@[simp] lemma enqueue_attempts : (r.enqueue n).attempts = r.attempts := by
  unfold enqueue
  split <;> rfl

@[simp] lemma enqueue_events : (r.enqueue n).events = r.events := by
  unfold enqueue
  split <;> rfl

@[simp] lemma enqueue_outbox : (r.enqueue n).outbox = r.outbox := by
  unfold enqueue
  split <;> rfl

/-- The first notification of a job is inserted. -/
lemma enqueue_notifications (h : r.notifications = []) : (r.enqueue n).notifications = [n] := by
  rw [enqueue, h, List.any_nil, if_neg Bool.false_ne_true, List.nil_append]

/-- The notifications there are stay. -/
lemma mem_enqueue {m : NotificationOutbox} (h : m ∈ r.notifications) :
    m ∈ (r.enqueue n).notifications := by
  unfold enqueue
  split
  · exact h
  · exact List.mem_append_left [n] h

end Enqueue

lemma guarded_of_row {u : JobUpdate} {g : JobRecord → JobRecord} {r : JobRecord} {job : Job}
    (hrow : r.row = some job) (h : u.guard job) :
    r.guarded u g = g { r with row := some (u.values job) } := by
  rw [guarded, hrow, Option.any_some, if_pos h, updateRow, hrow, Option.map_some,
    JobUpdate.apply_of_guard h]

end JobRecord

section Guarded

variable {db : Database} {jobId : UUID} {u : JobUpdate} {g : JobRecord → JobRecord}

/-- The records after a guarded `UPDATE` that matched and the writes `g` that followed it. -/
lemma record_of_matched {d : Database} (hmatched : (db.updateJob jobId u).2)
    (hd : d.record = Function.update (db.updateJob jobId u).1.record jobId
      (g ((db.updateJob jobId u).1.record jobId))) :
    d.record = Function.update db.record jobId ((db.record jobId).guarded u g) := by
  rw [JobRecord.guarded, ← Database.updateJob_matched, if_pos hmatched, hd,
    Database.record_updateJob, Function.update_self, Function.update_idem]
  rfl

/-- The records after a guarded `UPDATE` that matched no row. -/
lemma record_of_missed (hmissed : ¬ (db.updateJob jobId u).2) :
    (db.updateJob jobId u).1.record =
      Function.update db.record jobId ((db.record jobId).guarded u g) := by
  rw [Database.updateJob_matched] at hmissed
  rw [JobRecord.guarded, if_neg hmissed, Function.update_eq_self]
  cases hrow : (db.record jobId).row with
  | none =>
      rw [Database.record_updateJob, hrow, Option.map_none, ← hrow]
      exact Function.update_eq_self ..
  | some job =>
      rw [hrow, Option.any_some] at hmissed
      exact Database.record_updateJob_of_not_guard hrow hmissed

end Guarded

/-! ## `JobAttemptRepository` -/

namespace JobAttemptRepository

def started (attemptId jobId : UUID) (attemptNumber : ℕ) (workerId : String) (now : Time) :
    JobAttempt :=
  { id := attemptId, jobId, attemptNumber, workerId, status := .running, startedAt := now,
    completedAt := none, errorCode := none, errorMessage := none }

/-- `start`; fails on the primary key and on `uq_job_attempt_number`. -/
def start (db : Database) (attemptId jobId : UUID) (attemptNumber : ℕ) (workerId : String)
    (now : Time) : Option Database :=
  if db.jobAttempts.rows.any fun a => a.jobId = jobId && a.attemptNumber = attemptNumber then none
  else
    (db.jobAttempts.insert? (started attemptId jobId attemptNumber workerId now)).map
      fun jobAttempts => { db with jobAttempts }

def finished (status : JobStatus) (now : Time) (errorCode errorMessage : Option String)
    (a : JobAttempt) : JobAttempt :=
  { a with status, completedAt := some now, errorCode, errorMessage }

def finish (db : Database) (attemptId : UUID) (status : JobStatus) (now : Time)
    (errorCode errorMessage : Option String) : Database :=
  { db with
    jobAttempts := db.jobAttempts.updateAt attemptId (fun _ => true)
      (finished status now errorCode errorMessage) fun _ => rfl }

lemma record_start {db db' : Database} {attemptId jobId : UUID} {attemptNumber : ℕ}
    {workerId : String} {now : Time}
    (h : start db attemptId jobId attemptNumber workerId now = some db') :
    db'.record = Function.update db.record jobId
      ((db.record jobId).addAttempt (started attemptId jobId attemptNumber workerId now)) := by
  unfold start at h
  split at h
  · cases h
  · obtain ⟨t, ht, rfl⟩ := Option.map_eq_some_iff.mp h
    have hrows := Table.children_of_insert? JobAttempt.jobId ht
    refine Function.eq_update_iff.mpr ⟨?_, fun i hi => ?_⟩
    · refine JobRecord.ext rfl ?_ rfl rfl rfl
      exact (congrFun hrows jobId).trans (Function.update_self ..)
    · refine JobRecord.ext rfl ?_ rfl rfl rfl
      exact (congrFun hrows i).trans (Function.update_of_ne hi ..)

/-- Finishing an attempt of a job rewrites that attempt in the record of the job. -/
lemma record_finish {db : Database} {attemptId jobId : UUID} {status : JobStatus} {now : Time}
    {errorCode errorMessage : Option String}
    (hown : ∃ a ∈ (db.record jobId).attempts, a.id = attemptId) :
    (finish db attemptId status now errorCode errorMessage).record =
      Function.update db.record jobId ((db.record jobId).mapAttempt attemptId
        (finished status now errorCode errorMessage)) := by
  obtain ⟨a, ha, rfl⟩ := hown
  obtain ⟨hmem, rfl⟩ := Table.mem_children.mp ha
  have hrows := Table.children_updateAt JobAttempt.jobId hmem
    (finished status now errorCode errorMessage) (fun _ => rfl) (fun _ => rfl)
  refine Function.eq_update_iff.mpr ⟨?_, fun i hi => ?_⟩
  · refine JobRecord.ext rfl ?_ rfl rfl rfl
    exact (congrFun hrows a.jobId).trans (Function.update_self ..)
  · refine JobRecord.ext rfl ?_ rfl rfl rfl
    exact (congrFun hrows i).trans (Function.update_of_ne hi ..)

end JobAttemptRepository

/-! ## `JobEventRepository` -/

namespace JobEventRepository

def event (tx : Tx) (jobId : UUID) (eventType : JobEventType)
    (fromStatus toStatus : Option JobStatus) (detail : EventDetail) : JobEvent :=
  { id := tx.eventId jobId, jobId, eventType, fromStatus, toStatus, detail, createdAt := tx.began }

def record (db : Database) (tx : Tx) (jobId : UUID) (eventType : JobEventType)
    (fromStatus toStatus : Option JobStatus) (detail : EventDetail) : Database :=
  { db with
    jobEvents := db.jobEvents ++ [event tx jobId eventType fromStatus toStatus detail] }

/-- What `list_for_job` sorts by; PostgreSQL compares the bytes of a `uuid`. -/
def orderKey (e : JobEvent) : ℤ ×ₗ Fin (2 ^ 128) := toLex (e.createdAt, e.id.int)

/-- `list_for_job` -/
def listForJob (db : Database) (jobId : UUID) (limit : ℕ) : List JobEvent :=
  (descending orderKey (db.jobEvents.filter fun e => e.jobId = jobId)).take limit

lemma record_record (db : Database) (tx : Tx) (jobId : UUID) (eventType : JobEventType)
    (fromStatus toStatus : Option JobStatus) (detail : EventDetail) :
    (record db tx jobId eventType fromStatus toStatus detail).record =
      Function.update db.record jobId ((db.record jobId).addEvent
        (event tx jobId eventType fromStatus toStatus detail)) := by
  funext i
  by_cases hi : i = jobId
  · subst hi
    rw [Function.update_self]
    refine JobRecord.ext rfl rfl ?_ rfl rfl
    simp [record, event, Database.record, JobRecord.addEvent]
  · rw [Function.update_of_ne hi]
    refine JobRecord.ext rfl rfl ?_ rfl rfl
    simp [record, event, Database.record, Ne.symm hi]

end JobEventRepository

/-! ## `DispatchOutboxRepository` -/

namespace DispatchOutboxRepository

def added (tx : Tx) (jobId : UUID) : DispatchOutbox :=
  { id := tx.outboxId, jobId, status := .pending, attempts := 0, createdAt := tx.began,
    publishedAt := none }

def add (db : Database) (tx : Tx) (jobId : UUID) : Option Database :=
  (db.dispatchOutbox.insert? (added tx jobId)).map
    fun dispatchOutbox => { db with dispatchOutbox }

lemma record_add {db db' : Database} {tx : Tx} {jobId : UUID} (h : add db tx jobId = some db') :
    db'.record =
      Function.update db.record jobId ((db.record jobId).addOutbox (added tx jobId)) := by
  obtain ⟨t, ht, rfl⟩ := Option.map_eq_some_iff.mp h
  have hrows := Table.children_of_insert? DispatchOutbox.jobId ht
  refine Function.eq_update_iff.mpr ⟨?_, fun i hi => ?_⟩
  · refine JobRecord.ext rfl rfl rfl ?_ rfl
    exact (congrFun hrows jobId).trans (Function.update_self ..)
  · refine JobRecord.ext rfl rfl rfl ?_ rfl
    exact (congrFun hrows i).trans (Function.update_of_ne hi ..)

def claimPending (db : Database) (locked : List UUID) (limit : ℕ) : List DispatchOutbox :=
  db.dispatchOutbox.select (fun o => !locked.contains o.id && o.status = .pending)
    (fun o => o.createdAt) limit

def published (now : Time) (o : DispatchOutbox) : DispatchOutbox :=
  { o with status := .published, publishedAt := some now, attempts := o.attempts + 1 }

def markPublished (db : Database) (outboxId : UUID) (now : Time) : Database :=
  { db with
    dispatchOutbox := db.dispatchOutbox.updateAt outboxId (fun _ => true) (published now)
      fun _ => rfl }

lemma record_markPublished {db : Database} {o : DispatchOutbox} {now : Time}
    (ho : o ∈ db.dispatchOutbox.rows) :
    (markPublished db o.id now).record =
      Function.update db.record o.jobId ((db.record o.jobId).mapOutbox o.id (published now)) := by
  have hrows := Table.children_updateAt DispatchOutbox.jobId ho (published now)
    (fun _ => rfl) (fun _ => rfl)
  refine Function.eq_update_iff.mpr ⟨?_, fun i hi => ?_⟩
  · refine JobRecord.ext rfl rfl rfl ?_ rfl
    exact (congrFun hrows o.jobId).trans (Function.update_self ..)
  · refine JobRecord.ext rfl rfl rfl ?_ rfl
    exact (congrFun hrows i).trans (Function.update_of_ne hi ..)

end DispatchOutboxRepository

/-! ## `NotificationOutboxRepository` -/

namespace NotificationOutboxRepository

/-- `enqueue`: `ON CONFLICT (dedupe_key) DO NOTHING`, and whether a row was inserted. -/
def enqueue (db : Database) (n : NotificationOutbox) : Option (Database × Bool) :=
  if db.notificationOutbox.rows.any fun m => m.dedupeKey = n.dedupeKey then some (db, false)
  else
    (db.notificationOutbox.insert? n).map
      fun notificationOutbox => ({ db with notificationOutbox }, true)

/-- A dedupe key names its job, so a conflict is visible in the record of that job. -/
lemma any_dedupeKey (db : Database) (n : NotificationOutbox) :
    (db.notificationOutbox.rows.any fun m => m.dedupeKey = n.dedupeKey) =
      (db.record n.jobId).notifications.any fun m => m.dedupeKey = n.dedupeKey := by
  rw [Bool.eq_iff_iff, List.any_eq_true, List.any_eq_true]
  constructor
  · rintro ⟨m, hm, hkey⟩
    have hjob : m.jobId = n.jobId := by
      have hkey : m.dedupeKey = n.dedupeKey := by simpa using hkey
      rw [m.dedupeKey_eq, n.dedupeKey_eq] at hkey
      exact congrArg DedupeKey.jobId hkey
    exact ⟨m, Table.mem_children.mpr ⟨hm, hjob⟩, hkey⟩
  · rintro ⟨m, hm, hkey⟩
    exact ⟨m, (Table.mem_children.mp hm).1, hkey⟩

lemma record_enqueue {db db' : Database} {n : NotificationOutbox} {inserted : Bool}
    (h : enqueue db n = some (db', inserted)) :
    db'.record = Function.update db.record n.jobId ((db.record n.jobId).enqueue n) := by
  unfold enqueue at h
  rw [any_dedupeKey] at h
  split at h
  · rename_i hconflict
    obtain ⟨rfl, -⟩ := Prod.mk.inj (Option.some.inj h)
    rw [JobRecord.enqueue, if_pos hconflict, Function.update_eq_self]
  · rename_i hfree
    obtain ⟨t, ht, heq⟩ := Option.map_eq_some_iff.mp h
    obtain ⟨rfl, -⟩ := Prod.mk.inj heq
    rw [JobRecord.enqueue, if_neg hfree]
    have hrows := Table.children_of_insert? NotificationOutbox.jobId ht
    refine Function.eq_update_iff.mpr ⟨?_, fun i hi => ?_⟩
    · refine JobRecord.ext rfl rfl rfl rfl ?_
      exact (congrFun hrows n.jobId).trans (Function.update_self ..)
    · refine JobRecord.ext rfl rfl rfl rfl ?_
      exact (congrFun hrows i).trans (Function.update_of_ne hi ..)

def claimDue (db : Database) (locked : List UUID) (now : Time) (limit : ℕ) :
    List NotificationOutbox :=
  db.notificationOutbox.select
    (fun n => !locked.contains n.id && n.status = .pending && n.nextAttemptAt ≤ now)
    (fun n => n.nextAttemptAt) limit

lemma pending_of_claimDue {db : Database} {locked : List UUID} {now : Time} {limit : ℕ}
    {n : NotificationOutbox} (h : n ∈ claimDue db locked now limit) : n.status = .pending := by
  have hclaimed := (Table.mem_of_mem_select h).2
  simp only [Bool.and_eq_true, decide_eq_true_eq] at hclaimed
  exact hclaimed.1.2

def sent (now : Time) (n : NotificationOutbox) : NotificationOutbox :=
  { n with status := .sent, sentAt := some now, attempts := n.attempts + 1, lastError := none }

def rescheduled (nextAttemptAt : Time) (lastError : String) (n : NotificationOutbox) :
    NotificationOutbox :=
  { n with attempts := n.attempts + 1, nextAttemptAt, lastError := some lastError }

def failed (lastError : String) (n : NotificationOutbox) : NotificationOutbox :=
  { n with status := .failed, attempts := n.attempts + 1, lastError := some lastError }

/-- One `UPDATE notification_outbox SET values WHERE id = :id`. -/
def updateById (db : Database) (id : UUID) (values : NotificationOutbox → NotificationOutbox)
    (hid : ∀ n, (values n).id = n.id) : Database :=
  { db with
    notificationOutbox := db.notificationOutbox.updateAt id (fun _ => true) values hid }

def markSent (db : Database) (id : UUID) (now : Time) : Database :=
  updateById db id (sent now) fun _ => rfl

def reschedule (db : Database) (id : UUID) (nextAttemptAt : Time) (lastError : String) :
    Database :=
  updateById db id (rescheduled nextAttemptAt lastError) fun _ => rfl

def markFailed (db : Database) (id : UUID) (lastError : String) : Database :=
  updateById db id (failed lastError) fun _ => rfl

lemma record_updateById {db : Database} {n : NotificationOutbox}
    {values : NotificationOutbox → NotificationOutbox} {hid : ∀ n, (values n).id = n.id}
    (hjob : ∀ n, (values n).jobId = n.jobId) (hn : n ∈ db.notificationOutbox.rows) :
    (updateById db n.id values hid).record =
      Function.update db.record n.jobId ((db.record n.jobId).mapNotification n.id values) := by
  have hrows := Table.children_updateAt NotificationOutbox.jobId hn values hid hjob
  refine Function.eq_update_iff.mpr ⟨?_, fun i hi => ?_⟩
  · refine JobRecord.ext rfl rfl rfl rfl ?_
    exact (congrFun hrows n.jobId).trans (Function.update_self ..)
  · refine JobRecord.ext rfl rfl rfl rfl ?_
    exact (congrFun hrows i).trans (Function.update_of_ne hi ..)

end NotificationOutboxRepository

end JobOrchestrator
