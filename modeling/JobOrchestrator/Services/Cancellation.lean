import JobOrchestrator.Services.Notification

/-!
# Cancellation

`app/services/job_cancellation_service.py`.  One transaction that locks the row of the job
and decides by the status it finds there: a terminal job is a conflict, a `CANCELLING` one is
answered again, a `RUNNING` one is asked to stop, and every other one is cancelled on the
spot.
-/

namespace JobOrchestrator

namespace CancellationService

structure CancelOutcome where
  found : Bool
  status : Option JobStatus
  conflict : Bool := false
  deriving DecidableEq

/-- The answer that `cancel` gives when it has accepted the request. -/
def CancelOutcome.accepted (outcome : CancelOutcome) : Bool :=
  outcome.found && !outcome.conflict &&
    (outcome.status = some .cancelled || outcome.status = some .cancelling)

def cancel (db : Database) (tx : Tx) (jobId : UUID) (userId : String) (reason : Option String)
    (now : Time) : Option (Database × CancelOutcome) :=
  match JobRepository.lockForUser db jobId userId with
  | none => some (db, { found := false, status := none })
  | some job =>
      if job.status.isTerminal then
        some (db, { found := true, status := some job.status, conflict := true })
      else if job.status = .cancelling then
        some (db, { found := true, status := some .cancelling })
      else if job.status = .running then
        let db := (db.updateJob jobId (JobRepository.requestRunningCancellation reason now)).1
        let db := JobEventRepository.record db tx jobId .cancelRequested (some job.status)
          (some .cancelling) (.cancel reason)
        some (db, { found := true, status := some .cancelling })
      else
        let db := (db.updateJob jobId (JobRepository.cancelInactive reason now)).1
        let db := JobEventRepository.record db tx jobId .cancelled (some job.status)
          (some .cancelled) (.cancel reason)
        (NotificationService.enqueueTerminalNotification db tx job .cancelled .cancelled
          none none none now).map fun db => (db, { found := true, status := some .cancelled })

/-! ## What a cancellation does to the record of its job -/

/-- The record after a `RUNNING` job was asked to stop. -/
def requested (tx : Tx) (reason : Option String) (now : Time) (job : Job) (r : JobRecord) :
    JobRecord :=
  { r with
    row := some ((JobRepository.requestRunningCancellation reason now).values job)
    events := r.events ++ [JobEventRepository.event tx job.id .cancelRequested (some .running)
      (some .cancelling) (.cancel reason)] }

/-- The record after a job that no worker executes was cancelled. -/
def cancelled (tx : Tx) (reason : Option String) (now : Time) (job : Job) (r : JobRecord) :
    JobRecord :=
  JobRecord.enqueue
    { r with
      row := some ((JobRepository.cancelInactive reason now).values job)
      events := r.events ++ [JobEventRepository.event tx job.id .cancelled (some job.status)
        (some .cancelled) (.cancel reason)] }
    (NotificationService.terminalNotification tx job .cancelled .cancelled none none none now)

variable {db db' : Database} {tx : Tx} {jobId : UUID} {userId : String}
  {reason : Option String} {now : Time} {outcome : CancelOutcome}

/-- The statements that ask a worker to stop. -/
lemma record_requested {job : Job} (hrow : (db.record jobId).row = some job)
    (hstatus : job.status = .running) :
    (JobEventRepository.record
        (db.updateJob jobId (JobRepository.requestRunningCancellation reason now)).1 tx jobId
        .cancelRequested (some job.status) (some .cancelling) (.cancel reason)).record =
      Function.update db.record jobId (requested tx reason now job (db.record jobId)) := by
  have hid : job.id = jobId := db.id_of_row jobId hrow
  have hguard : (JobRepository.requestRunningCancellation reason now).guard job := by
    simp [JobRepository.requestRunningCancellation, hstatus]
  rw [JobEventRepository.record_record, Database.record_updateJob_of_guard hrow hguard,
    Function.update_self, Function.update_idem]
  simp [requested, JobRecord.addEvent, hid, hstatus]

/-- The statements that cancel a job on the spot. -/
lemma record_cancelled {job : Job} (hrow : (db.record jobId).row = some job)
    (hinactive : job.status ∈ JobRepository.inactiveCancellable)
    (h : NotificationService.enqueueTerminalNotification
      (JobEventRepository.record (db.updateJob jobId (JobRepository.cancelInactive reason now)).1
        tx jobId .cancelled (some job.status) (some .cancelled) (.cancel reason))
      tx job .cancelled .cancelled none none none now = some db') :
    db'.record = Function.update db.record jobId
      (cancelled tx reason now job (db.record jobId)) := by
  have hid : job.id = jobId := db.id_of_row jobId hrow
  have hguard : (JobRepository.cancelInactive reason now).guard job := by
    simpa [JobRepository.cancelInactive] using hinactive
  rw [NotificationService.record_enqueueTerminalNotification h, hid,
    JobEventRepository.record_record, Database.record_updateJob_of_guard hrow hguard,
    Function.update_self, Function.update_idem, Function.update_self, Function.update_idem]
  simp [cancelled, JobRecord.addEvent, hid]

/-- A status that is neither terminal nor one of a claimed job. -/
lemma mem_inactiveCancellable {status : JobStatus} (hterminal : ¬ status.isTerminal)
    (hcancelling : status ≠ .cancelling) (hrunning : status ≠ .running) :
    status ∈ JobRepository.inactiveCancellable := by
  rw [JobStatus.isTerminal_iff] at hterminal
  cases status <;> simp_all [JobRepository.inactiveCancellable]

/-- The three things a cancellation can do: nothing, ask a worker to stop, or cancel. -/
lemma cancel_cases (h : cancel db tx jobId userId reason now = some (db', outcome)) :
    (db' = db ∧ (outcome.accepted → ∃ job, (db.record jobId).row = some job ∧
      job.status = .cancelling ∧ outcome.status = some .cancelling)) ∨
    (∃ job, JobRepository.lockForUser db jobId userId = some job ∧
      (db.record jobId).row = some job ∧ job.status = .running ∧
      outcome.status = some .cancelling ∧
      db'.record = Function.update db.record jobId
        (requested tx reason now job (db.record jobId))) ∨
    (∃ job, (db.record jobId).row = some job ∧
      job.status ∈ JobRepository.inactiveCancellable ∧ outcome.status = some .cancelled ∧
      db'.record = Function.update db.record jobId
        (cancelled tx reason now job (db.record jobId))) := by
  unfold cancel at h
  split at h
  · obtain ⟨rfl, rfl⟩ := Prod.mk.inj (Option.some.inj h)
    exact Or.inl ⟨rfl, fun hacc => by simp [CancelOutcome.accepted] at hacc⟩
  · rename_i job hlock
    obtain ⟨hrow, -⟩ := Option.filter_eq_some_iff.mp hlock
    have hrow : (db.record jobId).row = some job := hrow
    split at h
    · obtain ⟨rfl, rfl⟩ := Prod.mk.inj (Option.some.inj h)
      exact Or.inl ⟨rfl, fun hacc => by simp [CancelOutcome.accepted] at hacc⟩
    split at h
    · rename_i hstatus
      obtain ⟨rfl, rfl⟩ := Prod.mk.inj (Option.some.inj h)
      exact Or.inl ⟨rfl, fun _ => ⟨job, hrow, hstatus, rfl⟩⟩
    split at h
    · rename_i hstatus
      obtain ⟨rfl, rfl⟩ := Prod.mk.inj (Option.some.inj h)
      exact Or.inr (Or.inl ⟨job, hlock, hrow, hstatus, rfl, record_requested hrow hstatus⟩)
    · rename_i hterminal hcancelling hrunning
      have hinactive := mem_inactiveCancellable hterminal hcancelling hrunning
      obtain ⟨d, hd, heq⟩ := Option.map_eq_some_iff.mp h
      obtain ⟨rfl, rfl⟩ := Prod.mk.inj heq
      exact Or.inr (Or.inr ⟨job, hrow, hinactive, rfl, record_cancelled hrow hinactive hd⟩)

/-- The answer to a cancellation, by the status of the job that it locks. -/
def answer (status : JobStatus) : CancelOutcome :=
  if status.isTerminal then { found := true, status := some status, conflict := true }
  else if status = .cancelling ∨ status = .running then
    { found := true, status := some .cancelling }
  else { found := true, status := some .cancelled }

/-- What a cancellation makes of the record of the job that it locks. -/
def written (tx : Tx) (reason : Option String) (now : Time) (job : Job) (r : JobRecord) :
    JobRecord :=
  if job.status.isTerminal ∨ job.status = .cancelling then r
  else if job.status = .running then requested tx reason now job r
  else cancelled tx reason now job r

/-- A cancellation is a function of the job that it locks and the record of that job. -/
lemma cancel_of_lock {job : Job} (hlock : JobRepository.lockForUser db jobId userId = some job)
    (h : cancel db tx jobId userId reason now = some (db', outcome)) :
    outcome = answer job.status ∧ db'.jobAttempts = db.jobAttempts ∧
      db'.record = Function.update db.record jobId
        (written tx reason now job (db.record jobId)) := by
  have hrow : (db.record jobId).row = some job := (Option.filter_eq_some_iff.mp hlock).1
  rw [cancel, hlock] at h
  dsimp only at h
  unfold answer written
  by_cases hterminal : job.status.isTerminal
  · rw [if_pos hterminal] at h
    obtain ⟨rfl, rfl⟩ := Prod.mk.inj (Option.some.inj h)
    rw [if_pos hterminal, if_pos (Or.inl hterminal), Function.update_eq_self]
    exact ⟨rfl, rfl, rfl⟩
  · rw [if_neg hterminal] at h ⊢
    by_cases hcancelling : job.status = .cancelling
    · rw [if_pos hcancelling] at h
      obtain ⟨rfl, rfl⟩ := Prod.mk.inj (Option.some.inj h)
      rw [if_pos (Or.inl hcancelling), if_pos (Or.inr hcancelling), Function.update_eq_self]
      exact ⟨rfl, rfl, rfl⟩
    · rw [if_neg hcancelling] at h
      rw [if_neg (not_or.mpr ⟨hterminal, hcancelling⟩)]
      by_cases hrunning : job.status = .running
      · rw [if_pos hrunning] at h
        obtain ⟨rfl, rfl⟩ := Prod.mk.inj (Option.some.inj h)
        rw [if_pos (Or.inr hrunning), if_pos hrunning]
        exact ⟨rfl, rfl, record_requested hrow hrunning⟩
      · rw [if_neg hrunning] at h
        obtain ⟨d, hd, heq⟩ := Option.map_eq_some_iff.mp h
        obtain ⟨rfl, rfl⟩ := Prod.mk.inj heq
        rw [if_neg (not_or.mpr ⟨hcancelling, hrunning⟩), if_neg hrunning]
        have hattempts := NotificationService.jobAttempts_of_enqueueTerminalNotification hd
        have hinactive := mem_inactiveCancellable hterminal hcancelling hrunning
        exact ⟨rfl, hattempts, record_cancelled hrow hinactive hd⟩

end CancellationService

end JobOrchestrator
