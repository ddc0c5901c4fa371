import JobOrchestrator.Library.Batches
import JobOrchestrator.Properties.Progress

/-!
# The size of a batch

Each sweep over jobs is a sweep in batches of the library: it selects jobs by what their records
hold, works on the record of each, and leaves none of them selectable.  So repeating it with
batches of any size until it returns 0 has the effect of one sweep with room for every job.

`redeliver_stuck` stamps a job with the time and leaves it `QUEUED`, so it needs an age limit that
is not negative.
-/

namespace JobOrchestrator

open TransitionSystem

/-! ## Records up to generated ids -/

def JobEvent.withoutId (e : JobEvent) : JobEvent := { e with id := ⟨0⟩ }

def NotificationOutbox.withoutId (n : NotificationOutbox) : NotificationOutbox :=
  { n with id := ⟨0⟩ }

/-- The record of a job without the ids that a sweep generates. -/
def JobRecord.withoutIds (r : JobRecord) : JobRecord :=
  { r with
    events := r.events.map JobEvent.withoutId
    notifications := r.notifications.map NotificationOutbox.withoutId }

section WithoutIds

variable {r r' : JobRecord} {g g' : JobRecord → JobRecord} {tx tx' : Tx} {job : Job} {now : Time}

lemma withoutIds_addEvent (h : r.withoutIds = r'.withoutIds) (hbegan : tx.began = tx'.began)
    (jobId : UUID) (eventType : JobEventType) (fromStatus toStatus : Option JobStatus)
    (detail : EventDetail) :
    (r.addEvent (JobEventRepository.event tx jobId eventType fromStatus toStatus
        detail)).withoutIds =
      (r'.addEvent (JobEventRepository.event tx' jobId eventType fromStatus toStatus
        detail)).withoutIds := by
  have hevent : (JobEventRepository.event tx jobId eventType fromStatus toStatus
      detail).withoutId = (JobEventRepository.event tx' jobId eventType fromStatus toStatus
        detail).withoutId := by
    simp [JobEventRepository.event, JobEvent.withoutId, hbegan]
  obtain ⟨hrow, hattempts, hevents, houtbox, hnotifications⟩ := JobRecord.ext_iff.mp h
  refine JobRecord.ext hrow hattempts ?_ houtbox hnotifications
  show (r.events ++ [_]).map JobEvent.withoutId = (r'.events ++ [_]).map JobEvent.withoutId
  rw [List.map_append, List.map_append, List.map_singleton, List.map_singleton, hevent]
  exact congrArg (· ++ _) hevents

lemma withoutIds_enqueue {n n' : NotificationOutbox} (h : r.withoutIds = r'.withoutIds)
    (hn : n.withoutId = n'.withoutId) :
    (r.enqueue n).withoutIds = (r'.enqueue n').withoutIds := by
  obtain ⟨hrow, hattempts, hevents, houtbox, hnotifications⟩ := JobRecord.ext_iff.mp h
  have hkey : n.dedupeKey = n'.dedupeKey := by
    show n.withoutId.dedupeKey = n'.withoutId.dedupeKey
    rw [hn]
  have hkeys : r.notifications.map NotificationOutbox.dedupeKey =
      r'.notifications.map NotificationOutbox.dedupeKey := by
    have hsame : NotificationOutbox.dedupeKey ∘ NotificationOutbox.withoutId =
        NotificationOutbox.dedupeKey := rfl
    have hmap := congrArg (List.map NotificationOutbox.dedupeKey) hnotifications
    simp only [JobRecord.withoutIds, List.map_map, hsame] at hmap
    exact hmap
  have hconflict : (r.notifications.any fun m => m.dedupeKey = n.dedupeKey) =
      r'.notifications.any fun m => m.dedupeKey = n'.dedupeKey := by
    have hany := congrArg (List.any · fun key => decide (key = n.dedupeKey)) hkeys
    rw [← hkey]
    simpa [List.any_map, Function.comp_def] using hany
  unfold JobRecord.enqueue
  rw [hconflict]
  split
  · exact h
  · refine JobRecord.ext hrow hattempts hevents houtbox ?_
    show (r.notifications ++ [n]).map NotificationOutbox.withoutId =
      (r'.notifications ++ [n']).map NotificationOutbox.withoutId
    rw [List.map_append, List.map_append, List.map_singleton, List.map_singleton, hn]
    exact congrArg (· ++ _) hnotifications

lemma withoutIds_guarded (u : JobUpdate) (hg : ∀ r, (g r).withoutIds = (g' r).withoutIds)
    (r : JobRecord) : (r.guarded u g).withoutIds = (r.guarded u g').withoutIds := by
  unfold JobRecord.guarded
  split
  · exact hg _
  · rfl

lemma withoutId_terminalNotification (hbegan : tx.began = tx'.began) (eventType : JobEventType)
    (status : JobStatus) (result : Option Dict) (errorCode errorMessage : Option String) :
    (NotificationService.terminalNotification tx job eventType status result errorCode
        errorMessage now).withoutId =
      (NotificationService.terminalNotification tx' job eventType status result errorCode
        errorMessage now).withoutId := by
  simp [NotificationService.terminalNotification, NotificationOutbox.withoutId, hbegan]

variable (hbegan : tx.began = tx'.began)
include hbegan

lemma withoutIds_dispatchRecord (row : DispatchOutbox) (r : JobRecord) :
    (DispatchService.dispatchRecord tx now row r).withoutIds =
      (DispatchService.dispatchRecord tx' now row r).withoutIds := by
  unfold DispatchService.dispatchRecord
  split
  · rfl
  · exact withoutIds_addEvent rfl hbegan ..

lemma withoutIds_promoteRecord (job : Job) (r : JobRecord) :
    (RetryService.promoteRecord tx now job r).withoutIds =
      (RetryService.promoteRecord tx' now job r).withoutIds :=
  withoutIds_guarded _ (fun _ => withoutIds_addEvent rfl hbegan ..) r

lemma withoutIds_reapRecord (job : Job) (r : JobRecord) :
    (LeaseService.reapRecord tx now job r).withoutIds =
      (LeaseService.reapRecord tx' now job r).withoutIds := by
  unfold LeaseService.reapRecord
  split
  · refine withoutIds_guarded _ (fun _ => withoutIds_enqueue ?_ ?_) r
    · exact withoutIds_addEvent rfl hbegan ..
    · exact withoutId_terminalNotification hbegan ..
  · exact withoutIds_guarded _ (fun _ => withoutIds_addEvent rfl hbegan ..) r

lemma withoutIds_expireRecord (job : Job) (r : JobRecord) :
    (ExpiryService.expireRecord tx now job r).withoutIds =
      (ExpiryService.expireRecord tx' now job r).withoutIds := by
  refine withoutIds_guarded _ (fun _ => withoutIds_enqueue ?_ ?_) r
  · exact withoutIds_addEvent rfl hbegan ..
  · exact withoutId_terminalNotification hbegan ..

end WithoutIds

/-! ## Sweeps over jobs -/

namespace Swept

/-- What a sweep leaves behind. -/
def batch (s : Swept) : Batch Database Push := ⟨s.db, s.pushes, s.returned⟩

lemma returned_eq (s : Swept) : s.returned = s.pushes.length + s.expired := by
  simp only [returned, pushes, List.length_append, List.length_map]
  omega

end Swept

/-- A sweep that selects jobs by what their rows hold and acts on the record of each of them. -/
def selectingSweep {κ : Type} [LinearOrder κ] (p : Job → Bool) (orderBy : Job → κ)
    (body : Tx → Swept → Job → Option Swept) (effect : Tx → Job → JobRecord → JobRecord)
    (sends : Job → List Push)
    (hbody : ∀ {tx s job s'}, body tx s job = some s' →
      s'.db.record = Function.update s.db.record job.id (effect tx job (s.db.record job.id)))
    (hswept : ∀ {n : ℕ} {tx : Tx} {db : Database} {s : Swept},
      (db.jobs.select p orderBy n).foldlM (body tx) (.start db) = some s →
      s.pushes.Perm ((db.jobs.select p orderBy n).flatMap sends) ∧
        s.returned = (db.jobs.select p orderBy n).length)
    (hdone : ∀ {tx job r}, r.row = some job → p job → ¬ (effect tx job r).row.any p) :
    BatchSweep Database UUID JobRecord Tx Push where
  view db := db.record
  sound _ := True
  eligible r := r.row.any p
  effect tx r := r.row.elim r fun job => effect tx job r
  sends _ r := r.row.elim [] sends
  select n db := (db.jobs.select p orderBy n).map Job.id
  run n tx db := ((db.jobs.select p orderBy n).foldlM (body tx) (.start db)).map Swept.batch
  nodup _ := Table.nodup_select
  eligible_of_mem {n db i} hi := by
    obtain ⟨job, hjob, rfl⟩ := List.mem_map.mp hi
    rw [Database.record_row, Table.get?_of_mem_select hjob]
    exact (Table.mem_of_mem_select hjob).2
  full {n db i} hi hout := by
    obtain ⟨job, hrow, hp⟩ := (Option.any_eq_true ..).mp hi
    obtain ⟨hjob, rfl⟩ := Table.get?_eq_some.mp hrow
    rw [List.length_map]
    exact Table.length_select_of_notMem hjob hp fun hmem => hout (List.mem_map_of_mem hmem)
  idle {n tx db} hnone := by
    rw [List.map_eq_nil_iff.mp hnone]
    rfl
  view_run {n tx db b} _ hrun i := by
    obtain ⟨s, hs, rfl⟩ := Option.map_eq_some_iff.mp hrun
    obtain ⟨hother, hselected⟩ := Table.foldlM_pointwise (fun s : Swept => s.db.record)
      (fun _ _ => True) (fun _ _ _ h _ => hbody h) (fun _ _ _ _ _ _ _ => trivial)
      Table.nodup_select (fun _ _ => trivial) hs
    split
    · rename_i hi
      obtain ⟨job, hjob, rfl⟩ := List.mem_map.mp hi
      have hrow : (db.record job.id).row = some job := Table.get?_of_mem_select hjob
      rw [hrow]
      exact hselected job hjob
    · rename_i hi
      exact hother i hi
  sent_run {n tx db b} _ hrun := by
    obtain ⟨s, hs, rfl⟩ := Option.map_eq_some_iff.mp hrun
    refine (hswept hs).1.trans (List.Perm.of_eq ?_)
    rw [List.flatMap_map]
    refine List.flatMap_congr fun job hjob => ?_
    have hrow : (db.record job.id).row = some job := Table.get?_of_mem_select hjob
    rw [hrow]
    rfl
  handled_run {n tx db b} _ hrun := by
    obtain ⟨s, hs, rfl⟩ := Option.map_eq_some_iff.mp hrun
    rw [List.length_map]
    exact (hswept hs).2
  sound_run _ _ := trivial
  done {tx db i} _ hi := by
    obtain ⟨job, hrow, hp⟩ := (Option.any_eq_true ..).mp hi
    rw [hrow]
    exact hdone hrow hp

/-! ## The five sweeps -/

/-- The sweeps over jobs. -/
inductive JobSweep
  | dispatchPending
  | promoteDue
  | reapExpired
  | redeliverStuck
  | expireStale
  deriving DecidableEq

/-- `find_due_retries` -/
def Job.due (now : Time) (job : Job) : Bool :=
  job.status = .retrying && job.nextAttemptAt.any fun t => t ≤ now

/-- `find_expired_leases` -/
def Job.lapsed (now : Time) (job : Job) : Bool :=
  job.status = .running && job.lockExpiresAt.any fun t => t < now

/-- `find_stuck_queued` -/
def Job.stuck (settings : Settings) (now : Time) (job : Job) : Bool :=
  job.status = .queued &&
    job.lastDispatchedAt.all fun t => t < now - seconds settings.queueStuckSeconds

/-- `find_expirable` -/
def Job.stale (settings : Settings) (now : Time) (job : Job) : Bool :=
  JobRepository.expirable.contains job.status &&
    job.createdAt < now - seconds settings.jobQueueMaxAgeSeconds

/-- `claim_pending` -/
def DispatchOutbox.waiting (o : DispatchOutbox) : Bool := o.status = .pending

namespace JobSweep

variable (settings : Settings) (now : Time)

/-- The jobs that a sweep has to work on. -/
def eligible (db : Database) : JobSweep → List UUID
  | dispatchPending => (db.dispatchOutbox.rowsWhere DispatchOutbox.waiting).map DispatchOutbox.jobId
  | promoteDue => (db.jobs.rowsWhere (Job.due now)).map Job.id
  | reapExpired => (db.jobs.rowsWhere (Job.lapsed now)).map Job.id
  | redeliverStuck => (db.jobs.rowsWhere (Job.stuck settings now)).map Job.id
  | expireStale => (db.jobs.rowsWhere (Job.stale settings now)).map Job.id

/-- One sweep, at a clock that stands still. -/
def run (batchSize : ℕ) (tx : Tx) (db : Database) (kind : JobSweep) :
    Option (Batch Database Push) :=
  Option.map Swept.batch <| match kind with
    | dispatchPending => DispatchService.dispatchPending db tx [] batchSize now
    | promoteDue => RetryService.promoteDue db tx [] batchSize now
    | reapExpired => LeaseService.reapExpired db tx [] batchSize now
    | redeliverStuck =>
        DispatchService.redeliverStuck settings db [] batchSize now fun _ => now
    | expireStale => ExpiryService.expireStale settings db tx [] batchSize now

/-- The sweep of the system, at that clock. -/
def sweep : JobSweep → Sweep
  | dispatchPending => .dispatchPending
  | promoteDue => .promoteDue
  | reapExpired => .reapExpired
  | redeliverStuck => .redeliverStuck fun _ => now
  | expireStale => .expireStale

/-- What a sweep of the system commits and sends is what it leaves behind here. -/
theorem sweep_run (batchSize : ℕ) (tx : Tx) (db : Database) (kind : JobSweep) :
    (sweep now kind).run settings db tx [] batchSize now =
      (kind.run settings now batchSize tx db).map fun b => (b.state, b.sent) := by
  unfold run
  rw [Option.map_map]
  cases kind <;> rfl

end JobSweep

section Swept

variable {settings : Settings} {db : Database} {tx : Tx} {batchSize : ℕ} {now : Time} {s : Swept}

/-- A sweep that sends one message for each job it selects. -/
lemma Swept.one_each {jobs : List Job} {g : Job → Push} (hpushes : s.pushes.Perm (jobs.map g))
    (hexpired : s.expired = 0) :
    s.pushes.Perm (jobs.flatMap fun job => [g job]) ∧ s.returned = jobs.length := by
  rw [Swept.returned_eq, hexpired, hpushes.length_eq, List.length_map, ← List.map_eq_flatMap]
  exact ⟨hpushes, rfl⟩

lemma swept_promoteDue (h : RetryService.promoteDue db tx [] batchSize now = some s) :
    s.pushes.Perm ((JobRepository.findDueRetries db [] now batchSize).flatMap
      fun job => [.publish job.id job.priority]) ∧
      s.returned = (JobRepository.findDueRetries db [] now batchSize).length := by
  refine Swept.one_each (List.Perm.of_eq (RetryService.pushes_promoteDue h)) ?_
  refine Table.foldlM_constant Swept.expired (fun s job s' hbody => ?_) h
  unfold RetryService.promoteRow at hbody
  dsimp only at hbody
  split at hbody <;> obtain rfl := Option.some.inj hbody <;> rfl

lemma swept_redeliverStuck
    (h : DispatchService.redeliverStuck settings db [] batchSize now (fun _ => now) = some s) :
    s.pushes.Perm ((JobRepository.findStuckQueued db [] (now - seconds settings.queueStuckSeconds)
      batchSize).flatMap fun job => [.publish job.id job.priority]) ∧
      s.returned = (JobRepository.findStuckQueued db []
        (now - seconds settings.queueStuckSeconds) batchSize).length := by
  refine Swept.one_each (List.Perm.of_eq (DispatchService.pushes_redeliverStuck h)) ?_
  refine Table.foldlM_constant Swept.expired (fun s job s' hbody => ?_) h
  obtain rfl := Option.some.inj hbody
  rfl

/-- The message for a job whose lease has expired. -/
def reapPush (job : Job) : Push :=
  if job.maxAttempts ≤ job.attempts then .deadLetter job.id else .publish job.id job.priority

lemma swept_reapExpired (h : LeaseService.reapExpired db tx [] batchSize now = some s) :
    s.pushes.Perm ((JobRepository.findExpiredLeases db [] now batchSize).flatMap
      fun job => [reapPush job]) ∧
      s.returned = (JobRepository.findExpiredLeases db [] now batchSize).length := by
  refine Swept.one_each ?_ ?_
  · -- first come the jobs without attempts left, then the others
    have hsplit := List.filter_append_perm (fun job : Job => job.maxAttempts ≤ job.attempts)
      (JobRepository.findExpiredLeases db [] now batchSize)
    refine List.Perm.trans (List.Perm.of_eq ?_) (hsplit.map reapPush)
    rw [Swept.pushes, LeaseService.deadLettered_reapExpired h,
      LeaseService.published_reapExpired h, List.map_append, List.map_map, List.map_map]
    congr 1
    · refine List.map_congr_left fun job hjob => ?_
      have hspent := of_decide_eq_true (List.mem_filter.mp hjob).2
      rw [reapPush, if_pos hspent]
      rfl
    · have hleft : (fun job : Job => decide (job.attempts < job.maxAttempts)) =
          fun job => !decide (job.maxAttempts ≤ job.attempts) := by
        funext job
        rw [← decide_not, decide_eq_decide, not_le]
      rw [hleft]
      refine List.map_congr_left fun job hjob => ?_
      have hspent := (List.mem_filter.mp hjob).2
      rw [Bool.not_eq_true', decide_eq_false_iff_not] at hspent
      rw [reapPush, if_neg hspent]
      rfl
  · refine Table.foldlM_constant Swept.expired (fun s job s' hbody => ?_) h
    unfold LeaseService.reapRow LeaseService.failRow LeaseService.requeueRow at hbody
    dsimp only at hbody
    split at hbody <;> split at hbody
    · obtain ⟨_, -, rfl⟩ := Option.map_eq_some_iff.mp hbody
      rfl
    all_goals
      obtain rfl := Option.some.inj hbody
      rfl

lemma swept_expireStale
    (h : ExpiryService.expireStale settings db tx [] batchSize now = some s) :
    s.pushes.Perm ((JobRepository.findExpirable db []
      (now - seconds settings.jobQueueMaxAgeSeconds) batchSize).flatMap fun _ => []) ∧
      s.returned = (JobRepository.findExpirable db []
        (now - seconds settings.jobQueueMaxAgeSeconds) batchSize).length := by
  refine ⟨List.Perm.of_eq ?_, ExpiryService.returned_expireStale h⟩
  rw [ExpiryService.pushes_expireStale h]
  exact (List.flatMap_eq_nil_iff.mpr fun _ _ => rfl).symm

end Swept

/-- `promote_due` in batches. -/
def promoteSweep (now : Time) : BatchSweep Database UUID JobRecord Tx Push :=
  selectingSweep (Job.due now) (fun job => JobRepository.nullsFirst job.nextAttemptAt)
    (fun tx => RetryService.promoteRow tx now) (fun tx => RetryService.promoteRecord tx now)
    (fun job => [.publish job.id job.priority]) RetryService.record_promoteRow swept_promoteDue
    (fun {tx job r} hrow hp => by
      simp only [Job.due, Bool.and_eq_true, decide_eq_true_eq] at hp
      rw [RetryService.promoteRecord_of_row hrow hp.1]
      simp [RetryService.promoted, Job.due, JobRepository.moveRetryToQueued])

/-- `reap_expired` in batches. -/
def reapSweep (now : Time) : BatchSweep Database UUID JobRecord Tx Push :=
  selectingSweep (Job.lapsed now) (fun job => JobRepository.nullsFirst job.lockExpiresAt)
    (fun tx => LeaseService.reapRow tx now) (fun tx => LeaseService.reapRecord tx now)
    (fun job => [reapPush job]) LeaseService.record_reapRow swept_reapExpired
    (fun {tx job r} hrow hp => by
      simp only [Job.lapsed, Bool.and_eq_true, decide_eq_true_eq] at hp
      unfold LeaseService.reapRecord
      split
      · rw [LeaseService.failRecord_of_row hrow hp.1]
        simp [LeaseService.failed, Job.lapsed, JobRepository.failExpiredLease]
      · rw [LeaseService.requeueRecord_of_row hrow hp.1]
        simp [LeaseService.requeued, Job.lapsed, JobRepository.requeueExpiredLease])

lemma seconds_nonneg {n : ℤ} (h : 0 ≤ n) : 0 ≤ seconds n :=
  mul_nonneg h (by decide)

/-- `redeliver_stuck` in batches: what was delivered at `now` is not stuck at `now`. -/
def redeliverSweep (settings : Settings) (now : Time) (hstuck : 0 ≤ settings.queueStuckSeconds) :
    BatchSweep Database UUID JobRecord Tx Push :=
  selectingSweep (Job.stuck settings now)
    (fun job => JobRepository.nullsFirst job.lastDispatchedAt)
    (fun _ => DispatchService.redeliverRow fun _ => now)
    (fun _ _ r => r.updateRow (JobRepository.markRedispatched now))
    (fun job => [.publish job.id job.priority])
    (fun hbody => by
      obtain rfl := Option.some.inj hbody
      exact Database.record_updateJob ..)
    swept_redeliverStuck
    (fun {tx job r} hrow hp => by
      simp only [Job.stuck, Bool.and_eq_true, decide_eq_true_eq] at hp
      have hguard : (JobRepository.markRedispatched now).guard job :=
        JobRepository.markRedispatched_guard.mpr hp.1
      rw [JobRecord.updateRow, hrow, Option.map_some, JobUpdate.apply_of_guard hguard]
      have hcutoff : now - seconds settings.queueStuckSeconds ≤ now :=
        sub_le_self now (seconds_nonneg hstuck)
      simp [Job.stuck, JobRepository.markRedispatched, hcutoff])

/-- `expire_stale` in batches. -/
def expireSweep (settings : Settings) (now : Time) :
    BatchSweep Database UUID JobRecord Tx Push :=
  selectingSweep (Job.stale settings now) (fun job => job.createdAt)
    (fun tx => ExpiryService.expireRow tx now) (fun tx => ExpiryService.expireRecord tx now)
    (fun _ => []) ExpiryService.record_expireRow swept_expireStale
    (fun {tx job r} hrow hp => by
      simp only [Job.stale, Bool.and_eq_true, List.contains_eq_mem, decide_eq_true_eq] at hp
      rw [ExpiryService.expireRecord_of_row hrow hp.1]
      simp [ExpiryService.expired, Job.stale, JobRepository.expire, JobRepository.expirable])

section Dispatch

variable {db : Database} {tx : Tx} {batchSize : ℕ} {now : Time} {s : Swept} {r : JobRecord}
  {o : DispatchOutbox}

/-- A job has one outbox row at most, and without a row in `jobs` it has none. -/
def OutboxSound (db : Database) : Prop :=
  ∀ i, (db.record i).outbox.length ≤ 1 ∧ ((db.record i).row = none → (db.record i).outbox = [])

/-- What the dispatch of the waiting outbox row does to the record of its job. -/
def dispatchWaiting (tx : Tx) (now : Time) (r : JobRecord) : JobRecord :=
  (r.outbox.find? DispatchOutbox.waiting).elim r fun row =>
    DispatchService.dispatchRecord tx now row r

lemma outbox_eq_singleton (hone : r.outbox.length ≤ 1) (ho : o ∈ r.outbox) : r.outbox = [o] := by
  obtain ⟨o', houtbox⟩ := List.length_eq_one_iff.mp
    (le_antisymm hone (List.length_pos_of_mem ho))
  rw [houtbox, List.mem_singleton] at ho
  rw [houtbox, ho]

lemma dispatchWaiting_eq (hone : r.outbox.length ≤ 1) (ho : o ∈ r.outbox) (hwaiting : o.waiting) :
    dispatchWaiting tx now r = DispatchService.dispatchRecord tx now o r := by
  rw [dispatchWaiting, outbox_eq_singleton hone ho, List.find?_singleton, if_pos hwaiting]
  rfl

lemma dispatchRecord_outbox :
    (DispatchService.dispatchRecord tx now o r).outbox =
      r.outbox.map fun o' => if o'.id = o.id then DispatchOutboxRepository.published now o'
        else o' := by
  unfold DispatchService.dispatchRecord
  split <;> rfl

lemma dispatchRecord_row_eq_none :
    (DispatchService.dispatchRecord tx now o r).row = none ↔ r.row = none := by
  unfold DispatchService.dispatchRecord
  split
  · rfl
  · exact Option.map_eq_none_iff

/-- A row that was dispatched does not wait any more. -/
lemma not_waiting_of_dispatchRecord (hone : r.outbox.length ≤ 1) (ho : o ∈ r.outbox) :
    ¬ ∃ o' ∈ (DispatchService.dispatchRecord tx now o r).outbox, o'.waiting := by
  rw [dispatchRecord_outbox, outbox_eq_singleton hone ho, List.map_singleton, if_pos rfl]
  rintro ⟨o', ho', hwaiting⟩
  rw [List.mem_singleton.mp ho'] at hwaiting
  cases of_decide_eq_true hwaiting

lemma OutboxSound.dispatchRecord (hsound : OutboxSound db) (i : UUID) :
    (DispatchService.dispatchRecord tx now o (db.record i)).outbox.length ≤ 1 ∧
      ((DispatchService.dispatchRecord tx now o (db.record i)).row = none →
        (DispatchService.dispatchRecord tx now o (db.record i)).outbox = []) := by
  obtain ⟨hone, hfresh⟩ := hsound i
  rw [dispatchRecord_outbox, dispatchRecord_row_eq_none, List.length_map, List.map_eq_nil_iff]
  exact ⟨hone, hfresh⟩

lemma mem_claimPending (h : o ∈ DispatchOutboxRepository.claimPending db [] batchSize) :
    o ∈ (db.record o.jobId).outbox ∧ o.waiting := by
  obtain ⟨ho, hwaiting⟩ := Table.mem_of_mem_select h
  exact ⟨Table.mem_children.mpr ⟨ho, rfl⟩, hwaiting⟩

lemma expired_dispatchPending
    (h : DispatchService.dispatchPending db tx [] batchSize now = some s) : s.expired = 0 := by
  refine Table.foldlM_constant Swept.expired (fun s row s' hbody => ?_) h
  unfold DispatchService.dispatchRow at hbody
  dsimp only at hbody
  split at hbody <;> obtain rfl := Option.some.inj hbody <;> rfl

end Dispatch

/-- `dispatch_pending` in batches. -/
def dispatchSweep (now : Time) : BatchSweep Database UUID JobRecord Tx Push where
  view db := db.record
  sound := OutboxSound
  eligible r := ∃ o ∈ r.outbox, o.waiting
  effect tx r := dispatchWaiting tx now r
  sends i r := (r.row.map fun job => Push.publish i job.priority).toList
  select n db := (DispatchOutboxRepository.claimPending db [] n).map DispatchOutbox.jobId
  run n tx db := (DispatchService.dispatchPending db tx [] n now).map Swept.batch
  nodup hsound := DispatchService.nodup_jobId_claimPending fun i => (hsound i).1
  eligible_of_mem {n db i} hi := by
    obtain ⟨o, ho, rfl⟩ := List.mem_map.mp hi
    exact ⟨o, mem_claimPending ho⟩
  full {n db i} hi hout := by
    obtain ⟨o, ho, hwaiting⟩ := hi
    obtain ⟨hmem, rfl⟩ := Table.mem_children.mp ho
    rw [List.length_map]
    exact Table.length_select_of_notMem hmem hwaiting fun hmem => hout (List.mem_map_of_mem hmem)
  idle {n tx db} hnone := by
    rw [DispatchService.dispatchPending, List.map_eq_nil_iff.mp hnone]
    rfl
  view_run {n tx db b} hsound hrun i := by
    obtain ⟨s, hs, rfl⟩ := Option.map_eq_some_iff.mp hrun
    obtain ⟨hother, hclaimed⟩ :=
      DispatchService.record_dispatchPending hs fun i => (hsound i).1
    split
    · rename_i hi
      obtain ⟨o, ho, rfl⟩ := List.mem_map.mp hi
      obtain ⟨hmem, hwaiting⟩ := mem_claimPending ho
      exact (hclaimed o ho).trans (dispatchWaiting_eq (hsound o.jobId).1 hmem hwaiting).symm
    · rename_i hi
      exact hother i hi
  sent_run {n tx db b} hsound hrun := by
    obtain ⟨s, hs, rfl⟩ := Option.map_eq_some_iff.mp hrun
    refine List.Perm.of_eq ?_
    show s.pushes = _
    rw [DispatchService.pushes_dispatchPending hs fun i => (hsound i).1, List.flatMap_map,
      List.filterMap_eq_flatMap_toList]
  handled_run {n tx db b} hsound hrun := by
    obtain ⟨s, hs, rfl⟩ := Option.map_eq_some_iff.mp hrun
    show s.returned = _
    rw [Swept.returned_eq, expired_dispatchPending hs,
      DispatchService.pushes_dispatchPending hs fun i => (hsound i).1, List.length_map]
    refine List.filterMap_length_eq_length.mpr fun o ho => ?_
    have hmem := (mem_claimPending ho).1
    rw [Option.isSome_map, Option.isSome_iff_ne_none]
    intro hnone
    rw [(hsound o.jobId).2 hnone] at hmem
    cases hmem
  sound_run {n tx db b} hsound hrun i := by
    obtain ⟨s, hs, rfl⟩ := Option.map_eq_some_iff.mp hrun
    obtain ⟨hother, hclaimed⟩ :=
      DispatchService.record_dispatchPending hs fun i => (hsound i).1
    show (s.db.record i).outbox.length ≤ 1 ∧ _
    by_cases hi : i ∈ (DispatchOutboxRepository.claimPending db [] n).map DispatchOutbox.jobId
    · obtain ⟨o, ho, rfl⟩ := List.mem_map.mp hi
      show (s.db.record o.jobId).outbox.length ≤ 1 ∧
        ((s.db.record o.jobId).row = none → (s.db.record o.jobId).outbox = [])
      rw [hclaimed o ho]
      exact hsound.dispatchRecord o.jobId
    · show (s.db.record i).outbox.length ≤ 1 ∧
        ((s.db.record i).row = none → (s.db.record i).outbox = [])
      rw [hother i hi]
      exact hsound i
  done {tx db i} hsound hi := by
    obtain ⟨o, ho, hwaiting⟩ := hi
    rw [dispatchWaiting_eq (hsound i).1 ho hwaiting]
    exact not_waiting_of_dispatchRecord (hsound i).1 ho

/-! ## Batching does not matter -/

/-- The job that a message names. -/
def Push.jobId : Push → UUID
  | .publish jobId _ => jobId
  | .deadLetter jobId => jobId

lemma jobId_reapPush (job : Job) : (reapPush job).jobId = job.id := by
  unfold reapPush
  split <;> rfl

/-- The rows that a sweep found are still there, and those it added come after them. -/
structure JobRecord.Extends (r old : JobRecord) : Prop where
  events : old.events <+: r.events
  notifications : old.notifications <+: r.notifications

namespace JobRecord.Extends

variable {r old : JobRecord} {g : JobRecord → JobRecord}

lemma refl (r : JobRecord) : r.Extends r := ⟨List.prefix_rfl, List.prefix_rfl⟩

lemma addEvent (h : r.Extends old) (e : JobEvent) : (r.addEvent e).Extends old :=
  ⟨h.events.trans (List.prefix_append ..), h.notifications⟩

lemma enqueue (h : r.Extends old) (n : NotificationOutbox) : (r.enqueue n).Extends old := by
  unfold JobRecord.enqueue
  split
  · exact h
  · exact ⟨h.events, h.notifications.trans (List.prefix_append ..)⟩

lemma updateRow (h : r.Extends old) (u : JobUpdate) : (r.updateRow u).Extends old :=
  ⟨h.events, h.notifications⟩

lemma mapOutbox (h : r.Extends old) (id : UUID) (f : DispatchOutbox → DispatchOutbox) :
    (r.mapOutbox id f).Extends old :=
  ⟨h.events, h.notifications⟩

lemma guarded (h : r.Extends old) (u : JobUpdate)
    (hg : ∀ r : JobRecord, r.Extends old → (g r).Extends old) : (r.guarded u g).Extends old := by
  unfold JobRecord.guarded
  split
  · exact hg _ (h.updateRow u)
  · exact h

end JobRecord.Extends

lemma extends_reapRecord {tx : Tx} {now : Time} (job : Job) (r : JobRecord) :
    (LeaseService.reapRecord tx now job r).Extends r := by
  have hself : r.Extends r := .refl r
  unfold LeaseService.reapRecord
  split
  · exact hself.guarded _ fun _ h => (h.addEvent _).enqueue _
  · exact hself.guarded _ fun _ h => h.addEvent _

namespace JobSweep

variable {settings : Settings} {now : Time} {kind : JobSweep} {db : Database} {tx tx' : Tx}
  {n : ℕ} {i : UUID} {r : JobRecord}

/-- The sweep as one in batches. -/
def batches (settings : Settings) (now : Time) (kind : JobSweep)
    (hstuck : kind = .redeliverStuck → 0 ≤ settings.queueStuckSeconds) :
    BatchSweep Database UUID JobRecord Tx Push :=
  match kind, hstuck with
  | dispatchPending, _ => dispatchSweep now
  | promoteDue, _ => promoteSweep now
  | reapExpired, _ => reapSweep now
  | redeliverStuck, hstuck => redeliverSweep settings now (hstuck rfl)
  | expireStale, _ => expireSweep settings now

variable {hstuck : kind = .redeliverStuck → 0 ≤ settings.queueStuckSeconds}

lemma batches_view : (batches settings now kind hstuck).view db i = db.record i := by
  cases kind <;> rfl

lemma batches_run : (batches settings now kind hstuck).run n tx db =
    kind.run settings now n tx db := by
  cases kind <;> rfl

lemma batches_sound (h : OutboxSound db) : (batches settings now kind hstuck).sound db := by
  cases kind
  · exact h
  all_goals exact trivial

lemma eligible_iff_of_rows (p : Job → Bool) :
    i ∈ (db.jobs.rowsWhere p).map Job.id ↔ (db.record i).row.any p := by
  rw [List.mem_map, Option.any_eq_true]
  constructor
  · rintro ⟨job, hjob, rfl⟩
    obtain ⟨hmem, hp⟩ := Table.mem_rowsWhere.mp hjob
    exact ⟨job, Table.get?_of_mem hmem, hp⟩
  · rintro ⟨job, hrow, hp⟩
    obtain ⟨hmem, hid⟩ := Table.get?_eq_some.mp hrow
    exact ⟨job, Table.mem_rowsWhere.mpr ⟨hmem, hp⟩, hid⟩

lemma nodup_rowsWhere (p : Job → Bool) : ((db.jobs.rowsWhere p).map Job.id).Nodup :=
  (List.filter_sublist.map Job.id).nodup db.jobs.nodup

lemma nodup_waiting (h : OutboxSound db) :
    ((db.dispatchOutbox.rowsWhere DispatchOutbox.waiting).map DispatchOutbox.jobId).Nodup := by
  have hnodup : (db.dispatchOutbox.rowsWhere DispatchOutbox.waiting).Nodup :=
    List.Nodup.of_map DispatchOutbox.id
      ((List.filter_sublist.map DispatchOutbox.id).nodup db.dispatchOutbox.nodup)
  refine hnodup.map_on fun o ho o' ho' hjob => ?_
  have hmem : o ∈ (db.record o'.jobId).outbox :=
    Table.mem_children.mpr ⟨(Table.mem_rowsWhere.mp ho).1, hjob⟩
  have hmem' : o' ∈ (db.record o'.jobId).outbox :=
    Table.mem_children.mpr ⟨(Table.mem_rowsWhere.mp ho').1, rfl⟩
  rw [outbox_eq_singleton (h o'.jobId).1 hmem', List.mem_singleton] at hmem
  exact hmem

lemma eligible_iff_waiting :
    i ∈ (db.dispatchOutbox.rowsWhere DispatchOutbox.waiting).map DispatchOutbox.jobId ↔
      ∃ o ∈ (db.record i).outbox, o.waiting := by
  rw [List.mem_map]
  constructor
  · rintro ⟨o, ho, rfl⟩
    obtain ⟨hmem, hwaiting⟩ := Table.mem_rowsWhere.mp ho
    exact ⟨o, Table.mem_children.mpr ⟨hmem, rfl⟩, hwaiting⟩
  · rintro ⟨o, ho, hwaiting⟩
    obtain ⟨hmem, hjob⟩ := Table.mem_children.mp ho
    exact ⟨o, Table.mem_rowsWhere.mpr ⟨hmem, hwaiting⟩, hjob⟩

lemma eligibles (h : OutboxSound db) :
    (batches settings now kind hstuck).Eligibles db (kind.eligible settings now db) := by
  cases kind with
  | dispatchPending => exact ⟨nodup_waiting h, fun _ => eligible_iff_waiting⟩
  | promoteDue | reapExpired | redeliverStuck | expireStale =>
      exact ⟨nodup_rowsWhere _, fun _ => eligible_iff_of_rows _⟩

/-- What is sent for a job names it. -/
lemma jobId_sends (h : OutboxSound db)
    (hi : (batches settings now kind hstuck).eligible (db.record i)) :
    ((batches settings now kind hstuck).sends i (db.record i)).map Push.jobId =
      if kind = .expireStale then [] else [i] := by
  cases kind with
  | dispatchPending =>
      obtain ⟨o, ho, -⟩ : ∃ o ∈ (db.record i).outbox, o.waiting := hi
      show ((db.record i).row.map _).toList.map Push.jobId = [i]
      cases hrow : (db.record i).row with
      | none =>
          rw [(h i).2 hrow] at ho
          cases ho
      | some job => rfl
  | promoteDue | reapExpired | redeliverStuck | expireStale =>
      obtain ⟨job, hrow, -⟩ := (Option.any_eq_true ..).mp hi
      obtain rfl := db.id_of_row i hrow
      show ((db.record job.id).row.elim [] _).map Push.jobId = _
      rw [hrow]
      first
      | exact congrArg (· :: []) (jobId_reapPush job)
      | rfl

lemma withoutIds_effect (hbegan : tx.began = tx'.began) :
    ((batches settings now kind hstuck).effect tx r).withoutIds =
      ((batches settings now kind hstuck).effect tx' r).withoutIds := by
  cases kind with
  | dispatchPending =>
      show (dispatchWaiting tx now r).withoutIds = (dispatchWaiting tx' now r).withoutIds
      unfold dispatchWaiting
      cases r.outbox.find? DispatchOutbox.waiting with
      | none => rfl
      | some o => exact withoutIds_dispatchRecord hbegan o r
  | promoteDue | reapExpired | redeliverStuck | expireStale =>
      show (r.row.elim r _).withoutIds = (r.row.elim r _).withoutIds
      cases r.row with
      | none => rfl
      | some job =>
          first
          | exact withoutIds_promoteRecord hbegan job r
          | exact withoutIds_reapRecord hbegan job r
          | exact withoutIds_expireRecord hbegan job r
          | rfl

lemma extends_effect : ((batches settings now kind hstuck).effect tx r).Extends r := by
  have hself : r.Extends r := .refl r
  cases kind with
  | dispatchPending =>
      show (dispatchWaiting tx now r).Extends r
      unfold dispatchWaiting
      cases r.outbox.find? DispatchOutbox.waiting with
      | none => exact hself
      | some o =>
          show (DispatchService.dispatchRecord tx now o r).Extends r
          unfold DispatchService.dispatchRecord
          split
          · exact hself.mapOutbox _ _
          · exact ((hself.mapOutbox _ _).updateRow _).addEvent _
  | promoteDue | reapExpired | redeliverStuck | expireStale =>
      show (r.row.elim r _).Extends r
      cases r.row with
      | none => exact hself
      | some job =>
          first
          | exact hself.guarded _ fun _ h => h.addEvent _
          | exact extends_reapRecord job r
          | exact hself.updateRow _
          | exact hself.guarded _ fun _ h => (h.addEvent _).enqueue _

/-- A sweep sends one message for each of its jobs, an expiry none. -/
lemma jobId_flatMap_sends (houtbox : OutboxSound db) {items : List UUID}
    (h : ∀ i ∈ items, (batches settings now kind hstuck).eligible
      ((batches settings now kind hstuck).view db i)) :
    (items.flatMap fun i => (batches settings now kind hstuck).sends i
      ((batches settings now kind hstuck).view db i)).map Push.jobId =
        if kind = .expireStale then [] else items := by
  have hsends : ∀ i ∈ items, ((batches settings now kind hstuck).sends i
      ((batches settings now kind hstuck).view db i)).map Push.jobId =
        if kind = .expireStale then [] else [i] := by
    intro i hi
    have heligible := h i hi
    rw [batches_view] at heligible ⊢
    exact jobId_sends houtbox heligible
  rw [List.map_flatMap, List.flatMap_congr hsends]
  split
  · exact List.flatMap_eq_nil_iff.mpr fun _ _ => rfl
  · exact List.flatMap_singleton' _

end JobSweep

lemma outboxSound_of_reachable {settings : Settings} {s : System settings.workerConcurrency}
    (h : (orchestrator settings).Reachable Always s) : OutboxSound s.db := by
  intro i
  have hlinked := linked_of_reachable h i
  refine ⟨hlinked.outbox_le, fun hnone => ?_⟩
  exact congrArg JobRecord.outbox (hlinked.fresh hnone)

namespace Scenario

/-- The transaction of the same ids for another job. -/
def other (n : Fin (2 ^ 128)) : Tx := { tx n with jobId := ⟨2⟩ }

/-- A second job of the user. -/
def submittedToo : List (Label 4) :=
  [.submit 1 ⟨"user", .flaky, [], .normal, some 3, none⟩, .submission 1 (other 4) 0,
    .submission 1 (other 4) 0]

end Scenario

section Unending

variable {settings : Settings} {db : Database} {now : Time} {n : ℕ} {j : UUID}

/-- Some job is `QUEUED` and was not delivered later than now. -/
def Redeliverable (now : Time) (db : Database) : Prop :=
  ∃ j job, (db.record j).row = some job ∧ job.status = .queued ∧
    ∀ t, job.lastDispatchedAt = some t → t ≤ now

/-- With a negative age limit a job that is delivered now is already stuck. -/
lemma redeliver_again (hnegative : settings.queueStuckSeconds < 0) (hn : 1 ≤ n) (tx : Tx)
    (h : Redeliverable now db) :
    ∃ b, JobSweep.redeliverStuck.run settings now n tx db = some b ∧ b.handled ≠ 0 ∧
      Redeliverable now b.state := by
  obtain ⟨j, job, hrow, hstatus, hlast⟩ := h
  have hcutoff : now < now - seconds settings.queueStuckSeconds :=
    (lt_sub_comm.mp (by rw [sub_self]; exact mul_neg_of_neg_of_pos hnegative (by decide)))
  have hstuck : job.stuck settings now := by
    rw [Job.stuck, Bool.and_eq_true, decide_eq_true_eq, Option.all_eq_true]
    exact ⟨hstatus, fun t ht => decide_eq_true ((hlast t ht).trans_lt hcutoff)⟩
  obtain ⟨s, hs⟩ := Option.isSome_iff_exists.mp
    (@redeliverStuck_isSome settings now [] n db fun _ => now)
  obtain ⟨hother, hselected⟩ := DispatchService.record_redeliverStuck hs
  refine ⟨s.batch, congrArg (Option.map Swept.batch) hs, ?_, ?_⟩
  · show s.returned ≠ 0
    rw [(swept_redeliverStuck hs).2]
    intro hnone
    have hmem : job ∉ JobRepository.findStuckQueued db []
        (now - seconds settings.queueStuckSeconds) n := by
      rw [List.length_eq_zero_iff.mp hnone]
      exact List.not_mem_nil
    have hfull : (JobRepository.findStuckQueued db [] (now - seconds settings.queueStuckSeconds)
        n).length = n := Table.length_select_of_notMem (Table.get?_eq_some.mp hrow).1 hstuck hmem
    omega
  · by_cases hj : j ∈ (JobRepository.findStuckQueued db []
        (now - seconds settings.queueStuckSeconds) n).map Job.id
    · obtain ⟨job', hjob', rfl⟩ := List.mem_map.mp hj
      have hguard : (JobRepository.markRedispatched now).guard job :=
        JobRepository.markRedispatched_guard.mpr hstatus
      refine ⟨job'.id, (JobRepository.markRedispatched now).values job, ?_, hstatus, ?_⟩
      · show (s.db.record job'.id).row = _
        rw [hselected job' hjob', JobRecord.updateRow, hrow, Option.map_some,
          JobUpdate.apply_of_guard hguard]
      · rintro t ht
        exact (Option.some.inj ht).ge
    · exact ⟨j, job, (congrArg JobRecord.row (hother j hj)).trans hrow, hstatus, hlast⟩

end Unending

end JobOrchestrator
