import JobOrchestrator.Properties.Attempts

/-!
# Coherent rows

Each `UPDATE` of `jobs` sets the columns its author chose and leaves the others as the previous
status left them.  Taken together the statements keep every column in step with the status.
Two clauses need more than the row: a job is `CANCELLED` by a worker only if the execution
saw the flag, and it is dead-lettered by a worker only if the execution knows that its
attempt was the last.
-/

namespace JobOrchestrator

open ExecutionService SubmissionService CancellationService TransitionSystem

variable {settings : Settings}

/-- The columns that the status, or the number of attempts, determines. -/
structure ColumnsFollow (job : Job) : Prop where
  completed : job.completedAt.isSome ↔ job.status.isTerminal
  locked : job.lockedBy.isSome ↔ job.status = .running ∨ job.status = .cancelling
  leased : job.lockExpiresAt.isSome ↔ job.status = .running ∨ job.status = .cancelling
  scheduled : job.nextAttemptAt.isSome ↔ job.status = .retrying
  resulted : job.result.isSome ↔ job.status = .succeeded
  clean : job.status = .succeeded →
    job.progress = 100 ∧ job.errorCode = none ∧ job.errorMessage = none
  started : job.startedAt.isSome ↔ 1 ≤ job.attempts
  dispatched : job.status = .queued → job.lastDispatchedAt.isSome

section Columns

variable {s : System settings.workerConcurrency} {j : UUID}
  {l : Label settings.workerConcurrency} {life' : Life settings.workerConcurrency}

/-- Only a job in its backoff has a time for its next attempt. -/
lemma ColumnsFollow.nextAttemptAt_eq_none {job : Job} (h : ColumnsFollow job)
    (hstatus : job.status ≠ .retrying) : job.nextAttemptAt = none :=
  Option.not_isSome_iff_eq_none.mp (mt h.scheduled.mp hstatus)

/-- The columns of a job that a worker holds. -/
lemma columnsFollow_iff_of_held {job : Job}
    (hheld : job.status = .running ∨ job.status = .cancelling) :
    ColumnsFollow job ↔ job.completedAt = none ∧ job.lockedBy.isSome ∧ job.lockExpiresAt.isSome ∧
      job.nextAttemptAt = none ∧ job.result = none ∧
      (job.startedAt.isSome ↔ 1 ≤ job.attempts) := by
  have hactive : ¬ job.status.isTerminal := by rcases hheld with h | h <;> rw [h] <;> decide
  have hretrying : job.status ≠ .retrying := by rcases hheld with h | h <;> rw [h] <;> decide
  have hsucceeded : job.status ≠ .succeeded := by rcases hheld with h | h <;> rw [h] <;> decide
  have hqueued : job.status ≠ .queued := by rcases hheld with h | h <;> rw [h] <;> decide
  constructor
  · intro h
    refine ⟨?_, h.locked.mpr hheld, h.leased.mpr hheld, h.nextAttemptAt_eq_none hretrying, ?_,
      h.started⟩
    · exact Option.not_isSome_iff_eq_none.mp (mt h.completed.mp hactive)
    · exact Option.not_isSome_iff_eq_none.mp (mt h.resulted.mp hsucceeded)
  · rintro ⟨hcompleted, hlocked, hleased, hscheduled, hresult, hstarted⟩
    exact ⟨iff_of_false (by simp [hcompleted]) hactive, iff_of_true hlocked hheld,
      iff_of_true hleased hheld, by simp [hscheduled, hretrying], by simp [hresult, hsucceeded],
      fun h => absurd h hsucceeded, hstarted, fun h => absurd h hqueued⟩

/-- The columns of a job that has not been claimed since it was submitted, requeued or sent to
its backoff. -/
lemma ColumnsFollow.of_inactive {job : Job} (h : ColumnsFollow job)
    (hstatus : job.status = .pending ∨ job.status = .queued ∨ job.status = .retrying) :
    job.completedAt = none ∧ job.lockedBy = none ∧ job.lockExpiresAt = none ∧
      job.result = none := by
  have hactive : ¬ job.status.isTerminal := by
    rcases hstatus with h | h | h <;> rw [h] <;> decide
  have hfree : ¬ (job.status = .running ∨ job.status = .cancelling) := by
    rcases hstatus with h | h | h <;> rw [h] <;> decide
  have hsucceeded : job.status ≠ .succeeded := by
    rcases hstatus with h | h | h <;> rw [h] <;> decide
  exact ⟨Option.not_isSome_iff_eq_none.mp (mt h.completed.mp hactive),
    Option.not_isSome_iff_eq_none.mp (mt h.locked.mp hfree),
    Option.not_isSome_iff_eq_none.mp (mt h.leased.mp hfree),
    Option.not_isSome_iff_eq_none.mp (mt h.resulted.mp hsucceeded)⟩

/-- The columns that make a job a `QUEUED` one. -/
lemma columnsFollow_of_queued {job : Job} (hstatus : job.status = .queued)
    (hcompleted : job.completedAt = none) (hlocked : job.lockedBy = none)
    (hleased : job.lockExpiresAt = none) (hscheduled : job.nextAttemptAt = none)
    (hresult : job.result = none) (hstarted : job.startedAt.isSome ↔ 1 ≤ job.attempts)
    (hdispatched : job.lastDispatchedAt.isSome) : ColumnsFollow job := by
  constructor <;> simp [hstatus, hcompleted, hlocked, hleased, hscheduled, hresult, hstarted,
    hdispatched]

/-- The columns that make a job one that ended without a result. -/
lemma columnsFollow_of_ended {job : Job}
    (hstatus : job.status = .failed ∨ job.status = .cancelled ∨ job.status = .expired)
    (hcompleted : job.completedAt.isSome) (hlocked : job.lockedBy = none)
    (hleased : job.lockExpiresAt = none) (hscheduled : job.nextAttemptAt = none)
    (hresult : job.result = none) (hstarted : job.startedAt.isSome ↔ 1 ≤ job.attempts) :
    ColumnsFollow job := by
  rcases hstatus with hstatus | hstatus | hstatus <;>
    constructor <;> simp [hstatus, hcompleted, hlocked, hleased, hscheduled, hresult, hstarted]

lemma columnsFollow_newJob {args : SubmitArgs} {id : UUID} {now : Time}
    {hlimit : 1 ≤ args.attemptsLimit settings} :
    ColumnsFollow (newJob settings args id now hlimit) := by
  constructor <;> simp [newJob]

lemma columnsFollow_of_issues {u : JobUpdate} (h : Issues s j l u) {job : Job}
    (hguard : u.guard job) (hcolumns : ColumnsFollow job) : ColumnsFollow (u.values job) := by
  have hstarted := hcolumns.started
  cases h with
  | requestRunningCancellation =>
      have hheld : job.status = .running ∨ job.status = .cancelling :=
        Or.inl (JobRepository.requestRunningCancellation_guard.mp hguard)
      exact (columnsFollow_iff_of_held (Or.inr rfl)).mpr
        ((columnsFollow_iff_of_held hheld).mp hcolumns)
  | cancelInactive =>
      have hinactive := JobRepository.cancelInactive_guard.mp hguard
      obtain ⟨-, hlocked, hleased, hresult⟩ := hcolumns.of_inactive hinactive
      exact columnsFollow_of_ended (Or.inr (Or.inl rfl)) rfl hlocked hleased rfl hresult hstarted
  | claimForExecution =>
      have hclaimable := (JobRepository.claimForExecution_guard.mp hguard).1
      obtain ⟨hcompleted, -, -, hresult⟩ := hcolumns.of_inactive (Or.inr hclaimable)
      exact (columnsFollow_iff_of_held (Or.inl rfl)).mpr
        ⟨hcompleted, rfl, rfl, rfl, hresult, iff_of_true rfl (Nat.le_add_left ..)⟩
  | heartbeat =>
      have hheld : job.status = .running ∨ job.status = .cancelling :=
        Or.inl (JobRepository.heartbeat_guard.mp hguard).2
      obtain ⟨hcompleted, hlocked, -, hrest⟩ := (columnsFollow_iff_of_held hheld).mp hcolumns
      refine (columnsFollow_iff_of_held ?_).mpr ⟨hcompleted, hlocked, rfl, hrest⟩
      exact hheld
  | updateProgress =>
      have hheld := (JobRepository.updateProgress_guard.mp hguard).2
      obtain ⟨hcompleted, hlocked, -, hrest⟩ := (columnsFollow_iff_of_held hheld).mp hcolumns
      refine (columnsFollow_iff_of_held ?_).mpr ⟨hcompleted, hlocked, rfl, hrest⟩
      exact hheld
  | finalize e outcome =>
      have hheld := (held_of_finalizer hguard).2
      obtain ⟨hcompleted, -, -, hscheduled, hresult, -⟩ :=
        (columnsFollow_iff_of_held hheld).mp hcolumns
      cases outcome with
      | succeeded result =>
          constructor <;> simp [Outcome.finalizer, finalizeSucceeded, JobRepository.markSucceeded,
            hscheduled, hstarted]
      | failed code message deadLettered =>
          exact columnsFollow_of_ended (Or.inl rfl) rfl rfl rfl hscheduled hresult hstarted
      | retry code message nextAttemptAt =>
          constructor <;> simp [Outcome.finalizer, scheduleRetry, JobRepository.scheduleRetry,
            hcompleted, hresult, hstarted]
      | cancelled =>
          exact columnsFollow_of_ended (Or.inr (Or.inl rfl)) rfl rfl rfl hscheduled hresult
            hstarted
  | markQueued =>
      have hstatus := JobRepository.markQueued_guard.mp hguard
      obtain ⟨hcompleted, hlocked, hleased, hresult⟩ := hcolumns.of_inactive (Or.inl hstatus)
      have hscheduled := hcolumns.nextAttemptAt_eq_none (by simp [hstatus])
      exact columnsFollow_of_queued rfl hcompleted hlocked hleased hscheduled hresult hstarted rfl
  | moveRetryToQueued =>
      have hstatus := JobRepository.moveRetryToQueued_guard.mp hguard
      obtain ⟨hcompleted, hlocked, hleased, hresult⟩ :=
        hcolumns.of_inactive (Or.inr (Or.inr hstatus))
      exact columnsFollow_of_queued rfl hcompleted hlocked hleased rfl hresult hstarted rfl
  | failExpiredLease =>
      have hheld : job.status = .running ∨ job.status = .cancelling :=
        Or.inl (JobRepository.failExpiredLease_guard.mp hguard)
      obtain ⟨-, -, -, hscheduled, hresult, -⟩ := (columnsFollow_iff_of_held hheld).mp hcolumns
      exact columnsFollow_of_ended (Or.inl rfl) rfl rfl rfl hscheduled hresult hstarted
  | requeueExpiredLease =>
      have hheld : job.status = .running ∨ job.status = .cancelling :=
        Or.inl (JobRepository.requeueExpiredLease_guard.mp hguard)
      obtain ⟨hcompleted, -, -, hscheduled, hresult, -⟩ :=
        (columnsFollow_iff_of_held hheld).mp hcolumns
      exact columnsFollow_of_queued rfl hcompleted rfl rfl hscheduled hresult hstarted rfl
  | markRedispatched =>
      have hstatus := JobRepository.markRedispatched_guard.mp hguard
      obtain ⟨hcompleted, hlocked, hleased, hresult⟩ :=
        hcolumns.of_inactive (Or.inr (Or.inl hstatus))
      have hscheduled := hcolumns.nextAttemptAt_eq_none (by simp [hstatus])
      exact columnsFollow_of_queued hstatus hcompleted hlocked hleased hscheduled hresult hstarted
        rfl
  | expire =>
      have hstatus := JobRepository.expire_guard.mp hguard
      obtain ⟨-, hlocked, hleased, hresult⟩ :=
        hcolumns.of_inactive (hstatus.imp_right Or.inl)
      have hscheduled := hcolumns.nextAttemptAt_eq_none (by rcases hstatus with h | h <;> simp [h])
      exact columnsFollow_of_ended (Or.inr (Or.inr rfl)) rfl hlocked hleased hscheduled hresult
        hstarted

/-- A statement leaves a job `CANCELLED` only with the flag set. -/
lemma requested_of_cancelled {u : JobUpdate} (h : Issues s j l u) {job : Job}
    (hsound : FlagSound (s.life j)) (hrow : (s.db.record j).row = some job)
    (hbefore : job.status = .cancelled → job.cancellationRequestedAt.isSome)
    (hstatus : (u.values job).status = .cancelled) :
    (u.values job).cancellationRequestedAt.isSome := by
  cases h with
  | cancelInactive => rfl
  | heartbeat | updateProgress | markRedispatched => exact hbefore hstatus
  | finalize e outcome he hstage =>
      cases outcome with
      | cancelled =>
          have hobserved := hsound.observed _ e he hstage
          rw [System.life_record, JobRecord.cancellationRequested, hrow] at hobserved
          exact hobserved
      | succeeded | failed | retry => cases hstatus
  | requestRunningCancellation | claimForExecution | markQueued | moveRetryToQueued
  | failExpiredLease | requeueExpiredLease | expire => cases hstatus

end Columns

/-! ## Dead letters -/

/-- A dead-lettered job has failed with its last attempt, and an execution is only about to
dead-letter its job in its last attempt. -/
structure DeadLetterSound {concurrency : ℕ} (life : Life concurrency) : Prop where
  exhausted : ∀ job, life.record.row = some job → job.deadLetteredAt.isSome →
    job.status = .failed ∧ job.maxAttempts ≤ job.attempts
  snapshot : ∀ c e, life.executions c = some e → ∀ job, life.record.row = some job →
    e.snapshot.maxAttempts = job.maxAttempts
  decided : ∀ c e code message, life.executions c = some e →
    e.stage = .finalizing (.failed code message true) →
    e.snapshot.maxAttempts ≤ e.attemptNumber

section DeadLetters

variable {s : System settings.workerConcurrency} {j : UUID}
  {l : Label settings.workerConcurrency} {life' : Life settings.workerConcurrency}

/-- An execution decides to dead-letter its job only in its last attempt. -/
lemma exhausted_of_decides {r : JobRecord} {e : Execution} {code message : String}
    (h : Decides r e (.finalizing (.failed code message true))) :
    e.snapshot.maxAttempts ≤ e.attemptNumber := by
  generalize hstage : Stage.finalizing (.failed code message true) = stage at h
  cases h with
  | raised _ error => cases error <;> cases hstage
  | read =>
      unfold Execution.afterRead at hstage
      split at hstage
      · cases hstage
      · split at hstage
        · assumption
        · cases hstage
  | checkpoint | returned | backoff | deadLetter | failed => cases hstage

/-- The reaper fails a job only when it has no attempt left. -/
lemma exhausted_of_reapExpired {tx : Tx} {locked : List UUID} {batchSize : ℕ} {now : Time}
    (h : JobStep s j (.sweep .reapExpired tx locked batchSize now) life') {job job' : Job}
    (hrow : (s.db.record j).row = some job) (hstatus : job.status = .running)
    (hrow' : life'.record.row = some job') (hstatus' : job'.status = .failed) :
    job.maxAttempts ≤ job.attempts := by
  cases h with
  | idle | left =>
      obtain rfl := Option.some.inj (hrow.symm.trans hrow')
      cases hstatus.symm.trans hstatus'
  | leaseFailed job₁ hrow₁ hstatus₁ hexhausted =>
      obtain rfl := Option.some.inj (hrow.symm.trans hrow₁)
      exact hexhausted
  | requeued job₁ hrow₁ =>
      obtain rfl := Option.some.inj hrow'
      cases hstatus'

/-- A statement that dead-letters a job fails it with no attempt left. -/
lemma exhausted_of_issues {u : JobUpdate} (hu : Issues s j l u) {job : Job}
    (h : JobStep s j l life') (hlease : LeaseSound (s.life j))
    (hsound : DeadLetterSound (s.life j)) (hrow : (s.db.record j).row = some job)
    (hguard : u.guard job) (hvalues : life'.record.row = some (u.values job))
    (hdead : (u.values job).deadLetteredAt.isSome) :
    (u.values job).status = .failed ∧ (u.values job).maxAttempts ≤ (u.values job).attempts := by
  -- a dead-lettered row is terminal, so no statement matches it
  have hbefore : ¬ job.deadLetteredAt.isSome := by
    intro hset
    refine not_isTerminal_of_issues hu hguard ?_
    rw [(hsound.exhausted job hrow hset).1]
    decide
  cases hu with
  | failExpiredLease =>
      have hstatus := JobRepository.failExpiredLease_guard.mp hguard
      have hle : job.maxAttempts ≤ job.attempts :=
        exhausted_of_reapExpired h hrow hstatus hvalues rfl
      exact ⟨rfl, hle⟩
  | finalize e outcome he hstage =>
      cases outcome with
      | failed code message deadLettered =>
          cases deadLettered with
          | false => cases hdead
          | true =>
              have hlast := hsound.decided _ e code message he hstage
              rw [hsound.snapshot _ e he job hrow] at hlast
              obtain ⟨job₁, hrow₁, hle, -⟩ := hlease _ e he
              obtain rfl := Option.some.inj (hrow.symm.trans hrow₁)
              exact ⟨rfl, hlast.trans hle⟩
      | succeeded | retry | cancelled => exact absurd hdead hbefore
  | requestRunningCancellation | cancelInactive | claimForExecution | heartbeat | updateProgress
  | markQueued | moveRetryToQueued | requeueExpiredLease | markRedispatched | expire =>
      exact absurd hdead hbefore

lemma deadLetterSound_of_jobStep (hlease : LeaseSound (s.life j))
    (hsound : DeadLetterSound (s.life j)) (h : JobStep s j l life') : DeadLetterSound life' where
  exhausted job' hrow' hdead := by
    rcases row_of_jobStep h with
      hsame | ⟨args, now, hlimit, -, hnew⟩ | ⟨u, job, hu, hrow, hguard, hvalues⟩
    · exact hsound.exhausted job' (hsame.symm.trans hrow') hdead
    · obtain rfl := Option.some.inj (hnew.symm.trans hrow')
      cases hdead
    · obtain rfl := Option.some.inj (hvalues.symm.trans hrow')
      exact exhausted_of_issues hu h hlease hsound hrow hguard hvalues hdead
  snapshot c e' he' job' hrow' := by
    -- an execution of a job without a row does not exist
    have hkept : ∀ {e}, (s.life j).executions c = some e →
        e.snapshot.maxAttempts = job'.maxAttempts := by
      intro e he
      obtain ⟨job, hrow, -, -⟩ := hlease c e he
      rw [hsound.snapshot c e he job hrow]
      rcases row_of_jobStep_of_row h hrow with hsame | ⟨u, -, -, hvalues⟩
      · rw [Option.some.inj (hsame.symm.trans hrow')]
      · rw [← Option.some.inj (hvalues.symm.trans hrow')]
        exact (congrArg JobRequest.maxAttempts (u.keeps_request job)).symm
    cases execution_of_jobStep h he' with
    | started tx now job hl hrow hrecord =>
        rw [hrecord] at hrow'
        obtain rfl := Option.some.inj hrow'
        rfl
    | kept _ he => exact hkept he
    | heartbeatFailed e he | decided e _ he | finalized e _ _ _ _ he | superseded e _ _ he =>
        have hsnapshot : e.snapshot.maxAttempts = job'.maxAttempts := hkept he
        exact hsnapshot
  decided c e' code message he' hstage' := by
    cases execution_of_jobStep h he' with
    | kept _ he => exact hsound.decided c _ code message he hstage'
    | heartbeatFailed e he => exact hsound.decided c e code message he hstage'
    | started => cases hstage'
    | decided e stage he hdecides =>
        obtain rfl : stage = .finalizing (.failed code message true) := hstage'
        have hlast : e.snapshot.maxAttempts ≤ e.attemptNumber := exhausted_of_decides hdecides
        exact hlast
    | finalized | superseded => exact absurd hstage' afterFinalize_ne_finalizing

theorem deadLetterSound_of_reachable
    {C : System settings.workerConcurrency → Label settings.workerConcurrency → Prop}
    (h : (orchestrator settings).Reachable C s) (j : UUID) : DeadLetterSound (s.life j) := by
  refine life_invariant (fun clock j => ?_) (fun s l life' j hreach _ hstep hsound => ?_) h j
  · exact ⟨fun _ hrow => (by cases hrow), fun _ _ he => (by cases he),
      fun _ _ _ _ he => (by cases he)⟩
  · exact deadLetterSound_of_jobStep (leaseSound_of_reachable hreach j) hsound hstep

end DeadLetters

/-! ## Every row is coherent -/

/-- What the columns of a row say about each other. -/
structure Coherent (job : Job) : Prop extends ColumnsFollow job where
  requested : job.status = .cancelling ∨ job.status = .cancelled →
    job.cancellationRequestedAt.isSome
  settling : job.cancellationRequestedAt.isSome → job.status = .cancelling ∨
    job.status = .cancelled ∨ job.status = .succeeded ∨ job.status = .failed
  deadLettered : job.deadLetteredAt.isSome → job.status = .failed ∧ job.maxAttempts ≤ job.attempts

section Rows

variable {s : System settings.workerConcurrency} {j : UUID}
  {C : System settings.workerConcurrency → Label settings.workerConcurrency → Prop}

lemma columnsFollow_of_reachable (h : (orchestrator settings).Reachable C s) (j : UUID) :
    ∀ job, (s.db.record j).row = some job → ColumnsFollow job :=
  life_invariant (I := fun life => ∀ job, life.record.row = some job → ColumnsFollow job)
    (fun _ _ _ hrow => by cases hrow)
    (fun _ _ _ _ _ _ hstep hbefore => row_rule hstep (fun _ _ _ => columnsFollow_newJob)
      (fun _ _ hu _ hguard => columnsFollow_of_issues hu hguard) hbefore) h j

lemma requested_of_reachable (h : (orchestrator settings).Reachable C s) (j : UUID) :
    ∀ job, (s.db.record j).row = some job → job.status = .cancelled →
      job.cancellationRequestedAt.isSome :=
  life_invariant (I := fun life => ∀ job, life.record.row = some job →
      job.status = .cancelled → job.cancellationRequestedAt.isSome)
    (fun _ _ _ hrow => by cases hrow)
    (fun _ _ _ j hreach _ hstep hbefore => row_rule hstep (fun _ _ _ hstatus => by cases hstatus)
      (fun _ _ hu hrow _ => requested_of_cancelled hu (flagSound_of_reachable hreach j) hrow)
      hbefore) h j

/-- **Row coherence.**  In every reachable state every row is coherent. -/
theorem row_coherent {job : Job} (h : (orchestrator settings).Reachable Always s)
    (hrow : s.db.jobs.get? j = some job) : Coherent job where
  toColumnsFollow := columnsFollow_of_reachable h j job hrow
  requested := by
    rintro (hstatus | hstatus)
    · exact (flagSound_of_reachable h j).requested job hrow hstatus
    · exact requested_of_reachable h j job hrow hstatus
  settling hset := JobStatus.mem_settling.mp ((flagSound_of_reachable h j).settling job hrow hset)
  deadLettered hset := (deadLetterSound_of_reachable h j).exhausted job hrow hset

/-- A job whose only attempt failed for good. -/
theorem row_coherent_deadLettered :
    ∃ (s : System 4) (job : Job), s.db.jobs.get? Scenario.jobId = some job ∧
      job.deadLetteredAt = some 0 ∧ Coherent job := by
  obtain ⟨s, hsteps, hs⟩ := exists_of_run (T := orchestrator {}) (System.start 4 0)
    (Scenario.submitted 1 ++ Scenario.dispatched ++ Scenario.claim Scenario.first 3 0 ++
      [.worker Scenario.first (.handlerRaises (.retryable "TRANSIENT_FAILURE" "failed")),
        .worker Scenario.first .readCancellation, Scenario.finalize Scenario.first 4 0])
    (fun s => (s.db.jobs.get? Scenario.jobId).any fun job => job.deadLetteredAt = some 0)
    (by decide +kernel)
  obtain ⟨job, hrow, hdead⟩ := (Option.any_eq_true ..).mp hs
  exact ⟨s, job, hrow, of_decide_eq_true hdead, row_coherent ⟨_, ⟨0, rfl⟩, hsteps⟩ hrow⟩

end Rows

end JobOrchestrator
