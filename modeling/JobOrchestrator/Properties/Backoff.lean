import JobOrchestrator.Properties.Transitions

/-!
# Backoff

`schedule_retry` names the time before which the job should not run again.  The promotion of
due retries waits for it, and so does every claim of the job once it is `QUEUED`.  A message
that is still in the queue does not: the claim takes a `RETRYING` job at any time.
-/

namespace JobOrchestrator

open ExecutionService SubmissionService CancellationService TransitionSystem

variable {settings : Settings}

/-- The step is a `_schedule_retry` that moves the job to `RETRYING` until `due`. -/
def System.reschedules {concurrency : ℕ} (s : System concurrency) (jobId : UUID) (due : Time) :
    Label concurrency → Bool
  | .worker c (.finalize _ now) =>
      match s.workers c with
      | .executing e =>
          match e.stage with
          | .finalizing (.retry code message nextAttemptAt) =>
              e.jobId = jobId && nextAttemptAt = due && (s.db.jobs.get? jobId).any
                (JobRepository.scheduleRetry c.workerId code message nextAttemptAt now).guard
          | _ => false
      | _ => false
  | _ => false

/-- The step is a claim that wins the job. -/
def System.wins {concurrency : ℕ} (settings : Settings) (s : System concurrency) (jobId : UUID) :
    Label concurrency → Bool
  | .worker c (.claim _ now) =>
      match s.workers c with
      | .delivered i => i = jobId && (s.db.jobs.get? jobId).any
          (JobRepository.claimForExecution c.workerId settings.workerLeaseSeconds now).guard
      | _ => false
  | _ => false

/-- The step is no claim of a `RETRYING` job before its `next_attempt_at`. -/
def claimsWhenDue {concurrency : ℕ} (s : System concurrency) : Label concurrency → Bool
  | .worker c (.claim _ _) =>
      match s.workers c with
      | .delivered jobId => (s.db.jobs.get? jobId).all fun job =>
          job.status ≠ .retrying || job.nextAttemptAt.all fun t => t ≤ s.clock
      | _ => true
  | _ => true

/-- The job waits for its retry at `due`, or was promoted once that time had come, or ended. -/
def Job.waits (job : Job) (due clock : Time) : Prop :=
  (job.status = .retrying ∧ job.nextAttemptAt = some due) ∨
    (job.status = .queued ∧ due ≤ clock) ∨ job.status.isTerminal

/-- What becomes of a job that waits for its retry at `due`, as long as nobody claims it. -/
def Waiting {concurrency : ℕ} (due : Time) (life : Life concurrency) : Prop :=
  ∃ job, life.record.row = some job ∧ job.waits due life.clock

lemma Job.waits.inactive {job : Job} {due clock : Time} (h : job.waits due clock) :
    job.status ≠ .pending ∧ job.status ≠ .running ∧ job.status ≠ .cancelling := by
  rcases h with ⟨hstatus, -⟩ | ⟨hstatus, -⟩ | hterminal
  · simp [hstatus]
  · simp [hstatus]
  · rcases JobStatus.isTerminal_iff.mp hterminal with h | h | h | h <;> simp [h]

lemma Job.waits.mono {job : Job} {due clock clock' : Time} (h : job.waits due clock)
    (hclock : clock ≤ clock') : job.waits due clock' := by
  rcases h with hretrying | ⟨hqueued, hdue⟩ | hterminal
  · exact Or.inl hretrying
  · exact Or.inr (Or.inl ⟨hqueued, hdue.trans hclock⟩)
  · exact Or.inr (Or.inr hterminal)

section Step

variable {s : System settings.workerConcurrency} {j : UUID}
  {l : Label settings.workerConcurrency} {life' : Life settings.workerConcurrency} {due : Time}

lemma claim_of_wins (h : s.wins settings j l) :
    ∃ c tx now job, l = .worker c (.claim tx now) ∧ s.workers c = .delivered j ∧
      s.db.jobs.get? j = some job ∧
      (JobRepository.claimForExecution c.workerId settings.workerLeaseSeconds now).guard job := by
  unfold System.wins at h
  split at h
  · rename_i c tx now
    split at h
    · rename_i i hworker
      rw [Bool.and_eq_true, decide_eq_true_eq] at h
      obtain ⟨rfl, hmatched⟩ := h
      obtain ⟨job, hrow, hguard⟩ := (Option.any_eq_true ..).mp hmatched
      exact ⟨c, tx, now, job, rfl, hworker, hrow, hguard⟩
    · cases h
  · cases h

/-- A statement that matches a waiting job, other than a claim, cancels or expires it, promotes
it when it is due, or redelivers it. -/
lemma waits_of_issues {u : JobUpdate} {job : Job} (h : Issues s j l u)
    (hrow : (s.db.record j).row = some job) (hguard : u.guard job)
    (hlost : ¬ s.wins settings j l) (hwaits : job.waits due s.clock) :
    (u.values job).waits due s.clock := by
  obtain ⟨hpending, hrunning, hcancelling⟩ := hwaits.inactive
  cases h with
  | claimForExecution hworker =>
      refine absurd ?_ hlost
      have hrow : s.db.jobs.get? j = some job := hrow
      simp only [System.wins, hworker, hrow, Option.any_some, hguard, decide_true, Bool.and_true]
  | moveRetryToQueued hdue hnow =>
      have hstatus := JobRepository.moveRetryToQueued_guard.mp hguard
      obtain ⟨t, ht, hle⟩ := hdue job hrow
      rcases hwaits with ⟨-, hnext⟩ | ⟨hqueued, -⟩ | hterminal
      · obtain rfl := Option.some.inj (ht.symm.trans hnext)
        exact Or.inr (Or.inl ⟨rfl, hle.trans hnow⟩)
      · cases hqueued.symm.trans hstatus
      · rw [hstatus] at hterminal
        exact absurd hterminal (by decide)
  | markRedispatched => exact hwaits
  | cancelInactive =>
      have hterminal : JobStatus.cancelled.isTerminal := by decide
      exact Or.inr (Or.inr hterminal)
  | expire =>
      have hterminal : JobStatus.expired.isTerminal := by decide
      exact Or.inr (Or.inr hterminal)
  | requestRunningCancellation =>
      exact absurd (JobRepository.requestRunningCancellation_guard.mp hguard) hrunning
  | heartbeat => exact absurd (JobRepository.heartbeat_guard.mp hguard).2 hrunning
  | updateProgress =>
      have hactive := (JobRepository.updateProgress_guard.mp hguard).2
      exact absurd hactive (not_or.mpr ⟨hrunning, hcancelling⟩)
  | finalize =>
      have hactive := (held_of_finalizer hguard).2
      exact absurd hactive (not_or.mpr ⟨hrunning, hcancelling⟩)
  | markQueued => exact absurd (JobRepository.markQueued_guard.mp hguard) hpending
  | failExpiredLease => exact absurd (JobRepository.failExpiredLease_guard.mp hguard) hrunning
  | requeueExpiredLease =>
      exact absurd (JobRepository.requeueExpiredLease_guard.mp hguard) hrunning

lemma clock_of_jobStep (h : JobStep s j l life') : s.clock ≤ life'.clock := by
  cases h with
  | tick => exact Int.le_add_of_nonneg_right (Int.natCast_nonneg _)
  | idle | created | cancelRequested | cancelled | claimed | heartbeat | progressed
  | heartbeatFailed | decided | finalized | superseded | left | dispatched | promoted | leaseFailed
  | requeued | redelivered | expired | notified => exact le_rfl

lemma waiting_of_jobStep (h : JobStep s j l life') (hlost : ¬ s.wins settings j l)
    (hwaiting : Waiting due (s.life j)) : Waiting due life' := by
  have hclock : s.clock ≤ life'.clock := clock_of_jobStep h
  obtain ⟨job, hrow, hwaits⟩ := hwaiting
  rcases row_of_jobStep_of_row h hrow with hsame | ⟨u, hu, hguard, hvalues⟩
  · exact ⟨job, hsame, hwaits.mono hclock⟩
  · exact ⟨u.values job, hvalues, (waits_of_issues hu hrow hguard hlost hwaits).mono hclock⟩

lemma retry_of_reschedules (h : s.reschedules j due l) :
    ∃ c tx now e code message job, l = .worker c (.finalize tx now) ∧
      s.workers c = .executing e ∧ e.jobId = j ∧
      e.stage = .finalizing (.retry code message due) ∧ s.db.jobs.get? j = some job ∧
      (JobRepository.scheduleRetry c.workerId code message due now).guard job := by
  unfold System.reschedules at h
  split at h
  · rename_i c tx now
    split at h
    · rename_i e he
      split at h
      · rename_i code message nextAttemptAt hstage
        simp only [Bool.and_eq_true, decide_eq_true_eq] at h
        obtain ⟨⟨hid, rfl⟩, hmatched⟩ := h
        obtain ⟨job, hrow, hguard⟩ := (Option.any_eq_true ..).mp hmatched
        exact ⟨c, tx, now, e, code, message, job, rfl, he, hid, hstage, hrow, hguard⟩
      · cases h
    · cases h
  · cases h

/-- The job waits right after its retry was scheduled. -/
lemma waiting_of_reschedules {s' : System settings.workerConcurrency}
    (hreach : (orchestrator settings).Reachable Always s) (hretry : s.reschedules j due l)
    (hstep : (orchestrator settings).step s l = some s') : Waiting due (s'.life j) := by
  obtain ⟨c, tx, now, e, code, message, job, rfl, he, rfl, hstage, hrow, hguard⟩ :=
    retry_of_reschedules hretry
  obtain ⟨outcome, houtcome, hfinalized⟩ :=
    step_finalize (linked_of_reachable hreach e.jobId) he hstep
  obtain rfl : Outcome.retry code message due = outcome :=
    Stage.finalizing.inj (hstage.symm.trans houtcome)
  rcases hfinalized with ⟨job₁, -, -, hrecord⟩ | ⟨hmissed, -⟩
  · have hrow' : (s'.db.record e.jobId).row =
        some ((JobRepository.scheduleRetry c.workerId code message due now).values job₁) := by
      rw [hrecord, Function.update_self]
      exact finalized_row
    exact ⟨_, hrow', Or.inl ⟨rfl, rfl⟩⟩
  · exact absurd hguard (hmissed job hrow)

/-- **Exactly the early claims of `RETRYING` jobs break the backoff.**  After `_schedule_retry`
has moved a job to `RETRYING` with `next_attempt_at = due`, the next claim that wins the job
happens at `due` or later if and only if it is no claim of a `RETRYING` job before its
`next_attempt_at`. -/
theorem backoff_respected_iff {s₀ s₁ t : System settings.workerConcurrency}
    {l₀ : Label settings.workerConcurrency}
    (hreach : (orchestrator settings).Reachable Always s₀) (hretry : s₀.reschedules j due l₀)
    (hstep : (orchestrator settings).step s₀ l₀ = some s₁)
    (hsteps : (orchestrator settings).Steps (fun s l => ¬ s.wins settings j l) s₁ t)
    (hclaim : t.wins settings j l) : due ≤ t.clock ↔ claimsWhenDue t l := by
  have hreach' : (orchestrator settings).Reachable Always s₁ :=
    hreach.steps (Steps.single trivial hstep)
  obtain ⟨job, hrow, hwaits⟩ : Waiting due (t.life j) :=
    life_preserved (I := Waiting due) hreach'
      (fun _ _ _ hlost hnext hwaiting => waiting_of_jobStep hnext hlost hwaiting) hsteps
      (waiting_of_reschedules hreach hretry hstep)
  obtain ⟨c, tx, now, job', rfl, hworker, hrow', hguard⟩ := claim_of_wins hclaim
  obtain rfl := Option.some.inj (hrow.symm.trans hrow')
  simp only [claimsWhenDue, hworker, hrow', Option.all_some, ne_eq, decide_not, Bool.or_eq_true,
    Bool.not_eq_true', decide_eq_false_iff_not]
  rcases hwaits with ⟨hretrying, hnext⟩ | ⟨hqueued, hdue⟩ | hterminal
  · rw [hnext, Option.all_some, decide_eq_true_eq]
    exact ⟨Or.inr, fun h => h.resolve_left fun hne => hne hretrying⟩
  · exact ⟨fun _ => Or.inl (by rw [hqueued]; decide), fun _ => hdue⟩
  · -- a terminal job is not claimed
    rcases (JobRepository.claimForExecution_guard.mp hguard).1 with hstatus | hstatus
    · rw [hstatus] at hterminal
      exact absurd hterminal (by decide)
    · rw [hstatus] at hterminal
      exact absurd hterminal (by decide)

/-- A retry that is promoted and claimed when it is due. -/
theorem backoff_respected_iff_promoted :
    ∃ (s t : System 4) (l : Label 4),
      s.reschedules Scenario.jobId 2000000 (Scenario.finalize Scenario.first 4 0) ∧
      t.wins {} Scenario.jobId l ∧ 2000000 ≤ t.clock := by
  obtain ⟨s, hs, h⟩ := exists_of_run (T := orchestrator {}) (System.start 4 0)
    (Scenario.submitted 3 ++ Scenario.dispatched ++ Scenario.claim Scenario.first 3 0 ++
      Scenario.backOff Scenario.first 0)
    (fun s => s.reschedules Scenario.jobId 2000000 (Scenario.finalize Scenario.first 4 0) &&
      (s.step {} (Scenario.finalize Scenario.first 4 0)).any fun s₁ =>
        ((orchestrator {}).runUnder (fun s l => ¬ s.wins {} Scenario.jobId l) s₁
          [.tick 2000000, .sweep .promoteDue (Scenario.tx 6) [] 1 2000000,
            .publish (.publish Scenario.jobId .normal), .worker Scenario.second .consume]).any
          fun t => t.wins {} Scenario.jobId
              (.worker Scenario.second (.claim (Scenario.tx 7) 2000000)) &&
            claimsWhenDue t (.worker Scenario.second (.claim (Scenario.tx 7) 2000000)))
    (by decide +kernel)
  rw [Bool.and_eq_true] at h
  obtain ⟨hretry, hrest⟩ := h
  obtain ⟨s₁, hstep, hrest⟩ := (Option.any_eq_true ..).mp hrest
  obtain ⟨t, hrun, hrest⟩ := (Option.any_eq_true ..).mp hrest
  obtain ⟨hclaim, hdue⟩ := (Bool.and_eq_true ..).mp hrest
  have hsteps := steps_of_runUnder hrun
  have hstep : (orchestrator {}).step s (Scenario.finalize Scenario.first 4 0) = some s₁ := hstep
  exact ⟨s, t, _, hretry, hclaim,
    (backoff_respected_iff ⟨_, ⟨0, rfl⟩, hs⟩ hretry hstep hsteps hclaim).mpr hdue⟩

/-- A message from before the retry lets a worker claim the job two seconds early. -/
theorem retry_claimed_early :
    ∃ s s₁ t t' : System 4, (orchestrator {}).Reachable Always s ∧
      s.reschedules Scenario.jobId 33000000 (Scenario.finalize Scenario.first 5 31000000) ∧
      (orchestrator {}).step s (Scenario.finalize Scenario.first 5 31000000) = some s₁ ∧
      (orchestrator {}).step s₁ (.worker Scenario.second .consume) = some t ∧
      t.wins {} Scenario.jobId (.worker Scenario.second (.claim (Scenario.tx 7) 31000000)) ∧
      (orchestrator {}).step t (.worker Scenario.second (.claim (Scenario.tx 7) 31000000)) =
        some t' ∧
      t'.status Scenario.jobId = some .running ∧ t'.clock < 33000000 := by
  obtain ⟨s, hs, h⟩ := exists_of_run (T := orchestrator {}) (System.start 4 0)
    (Scenario.submitted 5 ++ Scenario.dispatched ++ Scenario.redelivered ++
      Scenario.claim Scenario.first 4 31000000 ++ Scenario.backOff Scenario.first 31000000)
    (fun s => s.reschedules Scenario.jobId 33000000 (Scenario.finalize Scenario.first 5 31000000) &&
      (s.step {} (Scenario.finalize Scenario.first 5 31000000)).any fun s₁ =>
        (s₁.step {} (.worker Scenario.second .consume)).any fun t =>
          t.wins {} Scenario.jobId
            (.worker Scenario.second (.claim (Scenario.tx 7) 31000000)) &&
          (t.step {} (.worker Scenario.second (.claim (Scenario.tx 7) 31000000))).any fun t' =>
            t'.status Scenario.jobId = some .running && t'.clock < 33000000)
    (by decide +kernel)
  rw [Bool.and_eq_true] at h
  obtain ⟨hretry, hrest⟩ := h
  obtain ⟨s₁, hs₁, hrest⟩ := (Option.any_eq_true ..).mp hrest
  obtain ⟨t, ht, hrest⟩ := (Option.any_eq_true ..).mp hrest
  obtain ⟨hclaim, hrest⟩ := (Bool.and_eq_true ..).mp hrest
  obtain ⟨t', ht', hrest⟩ := (Option.any_eq_true ..).mp hrest
  simp only [Bool.and_eq_true, decide_eq_true_eq] at hrest
  exact ⟨s, s₁, t, t', ⟨_, ⟨0, rfl⟩, hs⟩, hretry, hs₁, ht, hclaim, ht', hrest.1, hrest.2⟩

end Step

end JobOrchestrator
