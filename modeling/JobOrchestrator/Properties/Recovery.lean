import JobOrchestrator.Properties.Attempts

/-!
# Recovery after a crash

The lease reaper is what takes a job back from a worker that died.  It selects `RUNNING` jobs
only, and no other sweep selects a `CANCELLING` one.  So a job that was asked to stop before
its worker died keeps its row as it is for ever.
-/

namespace JobOrchestrator

open ExecutionService SubmissionService CancellationService TransitionSystem

variable {settings : Settings}

/-- The job is `CANCELLING` with the given row, and no execution of it is left in the worker
that holds its lease. -/
structure Abandoned {concurrency : ℕ} (job : Job) (life : Life concurrency) : Prop where
  row : life.record.row = some job
  status : job.status = .cancelling
  unattended : ∀ c e, life.executions c = some e → job.lockedBy ≠ some c.workerId

section Step

variable {s s' : System settings.workerConcurrency} {j : UUID} {job : Job} {workerId : String}
  {l : Label settings.workerConcurrency} {life' : Life settings.workerConcurrency}

/-- The statements that match a `CANCELLING` job are those of the worker that holds its
lease. -/
lemma lockedBy_of_cancelling {u : JobUpdate} (h : Issues s j l u) (hguard : u.guard job)
    (hstatus : job.status = .cancelling) :
    ∃ c e, (s.life j).executions c = some e ∧ job.lockedBy = some c.workerId := by
  cases h with
  | updateProgress e he => exact ⟨_, e, he, (JobRepository.updateProgress_guard.mp hguard).1⟩
  | finalize e outcome he => exact ⟨_, e, he, (held_of_finalizer hguard).1⟩
  | requestRunningCancellation | cancelInactive | claimForExecution | heartbeat | markQueued
  | moveRetryToQueued | failExpiredLease | requeueExpiredLease | markRedispatched | expire =>
      simp [hstatus] at hguard

lemma abandoned_of_jobStep (h : JobStep s j l life') (habandoned : Abandoned job (s.life j)) :
    Abandoned job life' := by
  obtain ⟨hrow, hstatus, hunattended⟩ := habandoned
  have hrow' : life'.record.row = some job := by
    rcases row_of_jobStep_of_row h hrow with hsame | ⟨u, hu, hguard, -⟩
    · exact hsame
    · obtain ⟨c, e, he, hlocked⟩ := lockedBy_of_cancelling hu hguard hstatus
      exact absurd hlocked (hunattended c e he)
  refine ⟨hrow', hstatus, fun c e' he' => ?_⟩
  rcases executions_of_jobStep h he' with ⟨e, he, -⟩ | ⟨tx, now, job₁, -, -, hclaimed, -⟩
  · exact hunattended c e he
  · -- a claim would have made the job `RUNNING`
    obtain rfl := Option.some.inj (hclaimed.symm.trans hrow')
    cases hstatus

/-- A crashed worker has left its `CANCELLING` job behind. -/
lemma abandoned_of_crashed (hrow : s.db.jobs.get? j = some job) (hstatus : job.status = .cancelling)
    (hlocked : job.lockedBy = some workerId)
    (hcrashed : ∀ c, c.workerId = workerId → s.workers c = .ended) :
    Abandoned job (s.life j) where
  row := hrow
  status := hstatus
  unattended c e he hc := by
    have hworker : c.workerId = workerId := Option.some.inj (hc.symm.trans hlocked)
    have hbusy : s.workers c = .executing e := ((s.life_executions j).mp he).1
    cases hbusy.symm.trans (hcrashed c hworker)

/-- **A `CANCELLING` job does not survive its worker.**  Once the worker that holds the lease
of a `CANCELLING` job has crashed, no reap takes the job out of `CANCELLING`, whatever its
batch size and however long the lease has been expired, and neither does any continuation of
the run: no column of its row ever changes again. -/
theorem cancelling_job_stuck (hreach : (orchestrator settings).Reachable Always s)
    (hrow : s.db.jobs.get? j = some job) (hstatus : job.status = .cancelling)
    (hlocked : job.lockedBy = some workerId)
    (hcrashed : ∀ c, c.workerId = workerId → s.workers c = .ended) :
    (∀ tx locked batchSize now s',
      (orchestrator settings).step s (.sweep .reapExpired tx locked batchSize now) = some s' →
        s'.db.jobs.get? j = some job) ∧
    ∀ t, (orchestrator settings).Steps Always s t → t.db.jobs.get? j = some job := by
  have hstuck : ∀ t, (orchestrator settings).Steps Always s t → t.db.jobs.get? j = some job := by
    intro t hsteps
    have habandoned : Abandoned job (t.life j) :=
      life_preserved (I := Abandoned job) hreach
        (fun _ _ _ _ hnext habandoned => abandoned_of_jobStep hnext habandoned) hsteps
        (abandoned_of_crashed hrow hstatus hlocked hcrashed)
    exact habandoned.row
  exact ⟨fun _ _ _ _ s' hstep => hstuck s' (Steps.single trivial hstep), hstuck⟩

lemma ended_of_crash {c : Coroutine settings.workerConcurrency}
    (hstep : (orchestrator settings).step s (.crash workerId) = some s')
    (hc : c.workerId = workerId) : s'.workers c = .ended := by
  obtain rfl := Option.some.inj hstep
  exact if_pos hc

namespace Scenario

/-- A job is claimed and asked to stop, and its lease runs out. -/
def abandoned : List (Label 4) :=
  submitted 3 ++ dispatched ++ claim first 3 0 ++ [cancel 0, .tick 180000000]

/-- A reap two minutes after the lease has expired, with room for ten jobs. -/
def lateReap : Label 4 := .sweep .reapExpired (tx 8) [] 10 180000000

end Scenario

/-- A worker that crashes after it was asked to stop. -/
theorem cancelling_job_stuck_crash :
    ∃ (s s' : System 4) (job : Job), s.db.jobs.get? Scenario.jobId = some job ∧
      job.status = .cancelling ∧
      (orchestrator {}).step s Scenario.lateReap = some s' ∧
      s'.db.jobs.get? Scenario.jobId = some job := by
  obtain ⟨s₀, hsteps, hs⟩ := exists_of_run (T := orchestrator {}) (System.start 4 0)
    Scenario.abandoned
    (fun s₀ => ((orchestrator {}).step s₀ (.crash "worker")).any fun s =>
      ((s.db.jobs.get? Scenario.jobId).any fun job =>
        job.status = .cancelling && job.lockedBy = some "worker") &&
      ((orchestrator {}).step s Scenario.lateReap).isSome) (by decide +kernel)
  obtain ⟨s, hcrash, hs⟩ := (Option.any_eq_true ..).mp hs
  obtain ⟨hjob, henabled⟩ := (Bool.and_eq_true ..).mp hs
  obtain ⟨job, hrow, hjob⟩ := (Option.any_eq_true ..).mp hjob
  simp only [Bool.and_eq_true, decide_eq_true_eq] at hjob
  obtain ⟨s', hs'⟩ := Option.isSome_iff_exists.mp henabled
  have hreach : (orchestrator {}).Reachable Always s :=
    ⟨_, ⟨0, rfl⟩, hsteps.trans (Steps.single trivial hcrash)⟩
  obtain ⟨hreaped, -⟩ := cancelling_job_stuck hreach hrow hjob.1 hjob.2
    fun c hc => ended_of_crash hcrash hc
  exact ⟨s, s', job, hrow, hjob.1, hs', hreaped _ _ _ _ s' hs'⟩

/-- A job whose cancellation was accepted and whose worker then crashed: its lease has expired,
the reaper has room for every job with an expired lease, and leaves it `CANCELLING`. -/
theorem reaper_skips_cancelling :
    ∃ (s s' : System 4) (job : Job), (orchestrator {}).Reachable Always s ∧
      s.db.jobs.get? Scenario.jobId = some job ∧ job.status = .cancelling ∧
      job.lockedBy = some "worker" ∧ (∀ c, c.workerId = "worker" → s.workers c = .ended) ∧
      (job.lockExpiresAt.any fun t => t < 180000000) ∧
      (s.db.jobs.rows.countP fun job => job.lockExpiresAt.any fun t => t < 180000000) ≤ 10 ∧
      (orchestrator {}).step s Scenario.lateReap = some s' ∧
      s'.status Scenario.jobId = some .cancelling := by
  obtain ⟨s₀, hsteps, hs⟩ := exists_of_run (T := orchestrator {}) (System.start 4 0)
    Scenario.abandoned
    (fun s₀ => ((orchestrator {}).step s₀ (.crash "worker")).any fun s =>
      ((s.db.jobs.get? Scenario.jobId).any fun job =>
        job.status = .cancelling && job.lockedBy = some "worker" &&
          job.lockExpiresAt.any fun t => t < 180000000) &&
      (s.db.jobs.rows.countP fun job => job.lockExpiresAt.any fun t => t < 180000000) ≤ 10 &&
      ((orchestrator {}).step s Scenario.lateReap).any fun s' =>
        s'.status Scenario.jobId = some .cancelling) (by decide +kernel)
  obtain ⟨s, hcrash, hs⟩ := (Option.any_eq_true ..).mp hs
  simp only [Bool.and_eq_true, decide_eq_true_eq] at hs
  obtain ⟨⟨hjob, hroom⟩, hreaped⟩ := hs
  obtain ⟨job, hrow, hjob⟩ := (Option.any_eq_true ..).mp hjob
  simp only [Bool.and_eq_true, decide_eq_true_eq] at hjob
  obtain ⟨⟨hstatus, hlocked⟩, hexpired⟩ := hjob
  obtain ⟨s', hs', hleft⟩ := (Option.any_eq_true ..).mp hreaped
  exact ⟨s, s', job, ⟨_, ⟨0, rfl⟩, hsteps.trans (Steps.single trivial hcrash)⟩, hrow, hstatus,
    hlocked, fun c hc => ended_of_crash hcrash hc, hexpired, hroom, hs', of_decide_eq_true hleft⟩

end Step

end JobOrchestrator
