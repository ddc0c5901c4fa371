import JobOrchestrator.Properties.CancellationFlag

/-!
# Status changes

The guards of the repository against the transition table.  A terminal row matches no guard,
so it never changes again.  Every other statement moves a job along an edge of the table,
with one exception: the claim takes `RETRYING` jobs, and from there the table has no edge to
`RUNNING`.
-/

namespace JobOrchestrator

open ExecutionService SubmissionService CancellationService TransitionSystem

variable {settings : Settings}

/-- The status of a job, if it exists. -/
def System.status {concurrency : ℕ} (s : System concurrency) (jobId : UUID) : Option JobStatus :=
  (s.db.jobs.get? jobId).map Job.status

/-! ## Pieces of concrete runs

One job, two coroutines of one worker process, and one of another process. -/

namespace Scenario

def jobId : UUID := ⟨1⟩

def first : Coroutine 4 := ⟨"worker", 0⟩

def second : Coroutine 4 := ⟨"worker", 1⟩

def elsewhere : Coroutine 4 := ⟨"other", 0⟩

/-- The transaction that draws `n` for every id but the one of the job. -/
def tx (n : Fin (2 ^ 128)) : Tx := ⟨0, jobId, ⟨n⟩, ⟨n⟩, fun _ => ⟨n⟩, fun _ => ⟨n⟩⟩

def submitted (maxAttempts : ℕ) : List (Label 4) :=
  [.submit 0 ⟨"user", .flaky, [], .normal, some maxAttempts, none⟩, .submission 0 (tx 1) 0,
    .submission 0 (tx 1) 0]

def dispatched : List (Label 4) :=
  [.sweep .dispatchPending (tx 2) [] 1 0, .publish (.publish jobId .normal)]

/-- A tick past the age at which a `QUEUED` job counts as stuck, and the second message. -/
def redelivered : List (Label 4) :=
  [.tick 31000000, .sweep (.redeliverStuck fun _ => 31000000) (tx 3) [] 1 31000000,
    .publish (.publish jobId .normal)]

def cancel (now : Time) : Label 4 := .cancel (tx 9) jobId "user" none now

/-- The coroutine takes a message and claims its job. -/
def claim (c : Coroutine 4) (n : Fin (2 ^ 128)) (now : Time) : List (Label 4) :=
  [.worker c .consume, .worker c (.claim (tx n) now)]

/-- The handler fails, and `_handle_retryable` is about to schedule a retry. -/
def backOff (c : Coroutine 4) (now : Time) : List (Label 4) :=
  [.worker c (.handlerRaises (.retryable "TRANSIENT_FAILURE" "failed")),
    .worker c .readCancellation, .worker c (.computeBackoff now 2000000)]

def finalize (c : Coroutine 4) (n : Fin (2 ^ 128)) (now : Time) : Label 4 :=
  .worker c (.finalize (tx n) now)

/-- A reap after the lease of a claim at time `0` has expired, and its message. -/
def reaped : List (Label 4) :=
  [.tick 61000000, .sweep .reapExpired (tx 8) [] 1 61000000, .publish (.publish jobId .normal)]

/-- A promotion once the retry that was scheduled at time `61000000` is due. -/
def promoted : List (Label 4) :=
  [.tick 2000000, .sweep .promoteDue (tx 6) [] 1 63000000, .publish (.publish jobId .normal)]

/-- The label is no step of a coroutine other than the first and the one elsewhere. -/
def ofTwo : Label 4 → Bool
  | .worker c _ => c = first || c = elsewhere
  | .crash _ => false
  | _ => true

lemma idle_of_ofTwo {s s' : System 4} {l : Label 4} (h : s.step {} l = some s') (hl : ofTwo l)
    {c : Coroutine 4} (hfirst : c ≠ first) (helsewhere : c ≠ elsewhere) :
    s'.workers c = s.workers c := by
  rcases @consumer_of_step {} s s' l h c with hsame | ⟨rfl, -⟩ | ⟨action, rfl, -⟩
  · exact hsame
  · cases hl
  · simp [ofTwo, hfirst, helsewhere] at hl

end Scenario

/-! ## Terminal jobs -/

section Terminal

variable {s : System settings.workerConcurrency} {j : UUID}
  {l : Label settings.workerConcurrency}

lemma not_isTerminal_of_issues {u : JobUpdate} (h : Issues s j l u) {job : Job}
    (hguard : u.guard job) : ¬ job.status.isTerminal := by
  rw [JobStatus.isTerminal_iff]
  cases h with
  | requestRunningCancellation =>
      simp [JobRepository.requestRunningCancellation_guard.mp hguard]
  | cancelInactive =>
      rcases JobRepository.cancelInactive_guard.mp hguard with h | h | h <;> simp [h]
  | claimForExecution =>
      rcases (JobRepository.claimForExecution_guard.mp hguard).1 with h | h <;> simp [h]
  | heartbeat => simp [(JobRepository.heartbeat_guard.mp hguard).2]
  | updateProgress =>
      rcases (JobRepository.updateProgress_guard.mp hguard).2 with h | h <;> simp [h]
  | finalize e outcome he hstage => rcases (held_of_finalizer hguard).2 with h | h <;> simp [h]
  | markQueued => simp [JobRepository.markQueued_guard.mp hguard]
  | moveRetryToQueued => simp [JobRepository.moveRetryToQueued_guard.mp hguard]
  | failExpiredLease => simp [JobRepository.failExpiredLease_guard.mp hguard]
  | requeueExpiredLease => simp [JobRepository.requeueExpiredLease_guard.mp hguard]
  | markRedispatched => simp [JobRepository.markRedispatched_guard.mp hguard]
  | expire => rcases JobRepository.expire_guard.mp hguard with h | h <;> simp [h]

lemma row_of_terminal {life' : Life settings.workerConcurrency} (h : JobStep s j l life')
    {job : Job} (hrow : (s.db.record j).row = some job) (hterminal : job.status.isTerminal) :
    life'.record.row = some job := by
  rcases row_of_jobStep_of_row h hrow with hsame | ⟨u, hu, hguard, -⟩
  · exact hsame
  · exact absurd hterminal (not_isTerminal_of_issues hu hguard)

/-- **Terminal jobs are immutable.**  Once the row of a job has a terminal status, no
continuation of the run changes any of its columns. -/
theorem terminal_row_immutable {s' : System settings.workerConcurrency} {job : Job}
    (hreach : (orchestrator settings).Reachable Always s)
    (hsteps : (orchestrator settings).Steps Always s s')
    (hrow : s.db.jobs.get? j = some job) (hterminal : job.status.isTerminal) :
    s'.db.jobs.get? j = some job := by
  refine life_preserved (I := fun life => life.record.row = some job) hreach ?_ hsteps hrow
  intro s l life' _ hstep hrow
  exact row_of_terminal hstep hrow hterminal

/-- A job that was cancelled before its dispatch. -/
theorem terminal_row_immutable_cancelled :
    ∃ (s s' : System 4) (job : Job), s.db.jobs.get? Scenario.jobId = some job ∧
      job.status = .cancelled ∧
      (orchestrator {}).step s (.sweep .dispatchPending (Scenario.tx 2) [] 1 0) = some s' ∧
      s'.db.jobs.get? Scenario.jobId = some job := by
  obtain ⟨s, hsteps, hs⟩ := exists_of_run (T := orchestrator {}) (System.start 4 0)
    (Scenario.submitted 5 ++ [Scenario.cancel 0])
    (fun s => s.status Scenario.jobId = some .cancelled &&
      (s.step {} (.sweep .dispatchPending (Scenario.tx 2) [] 1 0)).isSome) (by decide +kernel)
  rw [Bool.and_eq_true, decide_eq_true_eq] at hs
  obtain ⟨hstatus, henabled⟩ := hs
  obtain ⟨s', hs'⟩ := Option.isSome_iff_exists.mp henabled
  have hs' : (orchestrator {}).step s
    (.sweep .dispatchPending (Scenario.tx 2) [] 1 0) = some s' := hs'
  obtain ⟨job, hrow, hjob⟩ := Option.map_eq_some_iff.mp hstatus
  have hreach : (orchestrator {}).Reachable Always s := ⟨_, ⟨0, rfl⟩, hsteps⟩
  have hnext : (orchestrator {}).Steps Always s s' := Steps.single trivial hs'
  exact ⟨s, s', job, hrow, hjob, hs',
    terminal_row_immutable hreach hnext hrow (by rw [hjob]; decide)⟩

end Terminal

/-! ## The transition table -/

/-- Every status that differs between the two states was changed along an edge of the table. -/
def ChangesLegally {concurrency : ℕ} (s s' : System concurrency) : Prop :=
  ∀ jobId source target, s.status jobId = some source → s'.status jobId = some target →
    source ≠ target → source.canTransition target

/-- The step is no claim of a job that is `RETRYING`. -/
def claimsNoRetrying {concurrency : ℕ} (s : System concurrency) : Label concurrency → Bool
  | .worker c (.claim _ _) =>
      match s.workers c with
      | .delivered jobId => s.status jobId ≠ some .retrying
      | _ => true
  | _ => true

section Table

variable {s s' : System settings.workerConcurrency} {j : UUID}
  {l : Label settings.workerConcurrency}

/-- A statement that matches changes the status along an edge, unless it claims a job that is
`RETRYING`. -/
lemma canTransition_of_issues {u : JobUpdate} (h : Issues s j l u) {job : Job}
    (hrow : (s.db.record j).row = some job) (hguard : u.guard job)
    (hsound : FlagSound (s.life j)) (hclaims : claimsNoRetrying s l)
    (hne : job.status ≠ (u.values job).status) :
    job.status.canTransition (u.values job).status := by
  cases h with
  | heartbeat | updateProgress | markRedispatched => exact absurd rfl hne
  | requestRunningCancellation =>
      change job.status.canTransition .cancelling
      rw [JobRepository.requestRunningCancellation_guard.mp hguard]
      decide
  | cancelInactive =>
      change job.status.canTransition .cancelled
      rcases JobRepository.cancelInactive_guard.mp hguard with h | h | h <;> rw [h] <;> decide
  | claimForExecution hworker =>
      change job.status.canTransition .running
      obtain ⟨h | h, -⟩ := JobRepository.claimForExecution_guard.mp hguard
      · rw [h]
        decide
      · have hrow : s.db.jobs.get? j = some job := hrow
        simp [claimsNoRetrying, hworker, System.status, hrow, h] at hclaims
  | finalize e outcome he hstage =>
      cases outcome with
      | succeeded =>
          change job.status.canTransition .succeeded
          rcases (JobRepository.markSucceeded_guard.mp hguard).2 with h | h <;> rw [h] <;> decide
      | failed =>
          change job.status.canTransition .failed
          rcases (JobRepository.markFailed_guard.mp hguard).2 with h | h <;> rw [h] <;> decide
      | retry =>
          change job.status.canTransition .retrying
          rw [(JobRepository.scheduleRetry_guard.mp hguard).2]
          decide
      | cancelled =>
          -- the execution has seen the flag, so the job is no longer `RUNNING`
          change job.status.canTransition .cancelled
          have hflag : job.cancellationRequestedAt.isSome := by
            have hseen := hsound.observed _ e he hstage
            rwa [JobRecord.cancellationRequested, System.life_record, hrow,
              Option.any_some] at hseen
          have hsettling := hsound.settling job hrow hflag
          rcases (JobRepository.finalizeCancelledByWorker_guard.mp hguard).2 with h | h
          · simp [h] at hsettling
          · rw [h]
            decide
  | markQueued =>
      change job.status.canTransition .queued
      rw [JobRepository.markQueued_guard.mp hguard]
      decide
  | moveRetryToQueued =>
      change job.status.canTransition .queued
      rw [JobRepository.moveRetryToQueued_guard.mp hguard]
      decide
  | failExpiredLease =>
      change job.status.canTransition .failed
      rw [JobRepository.failExpiredLease_guard.mp hguard]
      decide
  | requeueExpiredLease =>
      change job.status.canTransition .queued
      rw [JobRepository.requeueExpiredLease_guard.mp hguard]
      decide
  | expire =>
      change job.status.canTransition .expired
      rcases JobRepository.expire_guard.mp hguard with h | h <;> rw [h] <;> decide

lemma changesLegally_of_claims (hreach : (orchestrator settings).Reachable Always s)
    (hstep : (orchestrator settings).step s l = some s') (hclaims : claimsNoRetrying s l) :
    ChangesLegally s s' := by
  intro jobId source target hsource htarget hne
  obtain ⟨job, hrow, rfl⟩ := Option.map_eq_some_iff.mp hsource
  obtain ⟨job', hrow', rfl⟩ := Option.map_eq_some_iff.mp htarget
  rcases row_of_jobStep_of_row (jobStep_of_reachable hreach hstep jobId) hrow with
    hsame | ⟨u, hu, hguard, hvalues⟩
  · obtain rfl := Option.some.inj (hsame.symm.trans hrow')
    exact absurd rfl hne
  · obtain rfl := Option.some.inj (hvalues.symm.trans hrow')
    exact canTransition_of_issues hu hrow hguard (flagSound_of_reachable hreach jobId) hclaims hne

/-- A claim of a job that is `RETRYING` wins, and leaves the table. -/
lemma claims_of_changesLegally (hreach : (orchestrator settings).Reachable Always s)
    (hstep : (orchestrator settings).step s l = some s') (hlegal : ChangesLegally s s') :
    claimsNoRetrying s l := by
  unfold claimsNoRetrying
  split
  · rename_i c tx now
    split
    · rename_i jobId hworker
      refine decide_eq_true fun hretrying => ?_
      obtain ⟨job, hrow, hstatus⟩ := Option.map_eq_some_iff.mp hretrying
      have hnone : job.cancellationRequestedAt = none := by
        by_contra hflag
        have hsettling := (flagSound_of_reachable hreach jobId).settling job hrow
          (Option.isSome_iff_ne_none.mpr hflag)
        simp [hstatus] at hsettling
      have hguard : (JobRepository.claimForExecution c.workerId settings.workerLeaseSeconds
          now).guard job := JobRepository.claimForExecution_guard.mpr ⟨Or.inr hstatus, hnone⟩
      obtain ⟨-, hrecord⟩ := step_claim hworker hrow hguard hstep
      have hrow' : s'.status jobId = some .running := by
        have hrow' : (s'.db.record jobId).row =
            (claimed settings tx c.workerId now job (s.db.record jobId)).row := by
          rw [hrecord, Function.update_self]
        exact congrArg (Option.map Job.status) hrow'
      exact absurd (hlegal jobId .retrying .running hretrying hrow' (by decide)) (by decide)
    · rfl
  · rfl

/-- **Exactly the claims of `RETRYING` jobs leave the transition table.**  Along a run, every
committed status change is an edge of the table if and only if no step of the run claims a
job that is `RETRYING`. -/
theorem status_changes_legal_iff {s₀ : System settings.workerConcurrency}
    (h₀ : (orchestrator settings).init s₀) (ls : List (Label settings.workerConcurrency)) :
    (orchestrator settings).Along (fun s _ s' => ChangesLegally s s') s₀ ls ↔
      (orchestrator settings).Along (fun s l _ => claimsNoRetrying s l) s₀ ls :=
  along_congr (Reachable.start h₀)
    (fun _ _ _ hreach hstep =>
      ⟨claims_of_changesLegally hreach hstep, changesLegally_of_claims hreach hstep⟩) ls

/-- Without a second message every change of a run with a retry is legal. -/
theorem status_changes_legal_iff_retry :
    (orchestrator {}).Along (fun s _ s' => ChangesLegally s s') (System.start 4 0)
      (Scenario.submitted 5 ++ Scenario.dispatched ++ Scenario.claim Scenario.first 3 0 ++
        Scenario.backOff Scenario.first 0 ++ [Scenario.finalize Scenario.first 4 0]) :=
  (status_changes_legal_iff ⟨0, rfl⟩ _).mpr (by decide +kernel)

/-- A duplicate message starts a job that waits for its retry. -/
theorem retrying_job_starts :
    ∃ s s' : System 4, (orchestrator {}).Reachable Always s ∧
      (orchestrator {}).step s (.worker Scenario.second (.claim (Scenario.tx 7) 31000000)) =
        some s' ∧
      s.status Scenario.jobId = some .retrying ∧ s'.status Scenario.jobId = some .running ∧
      ¬ JobStatus.retrying.canTransition .running := by
  obtain ⟨s, hsteps, hs⟩ := exists_of_run (T := orchestrator {}) (System.start 4 0)
    (Scenario.submitted 5 ++ Scenario.dispatched ++ Scenario.redelivered ++
      Scenario.claim Scenario.first 4 31000000 ++ Scenario.backOff Scenario.first 31000000 ++
      [Scenario.finalize Scenario.first 5 31000000, .worker Scenario.second .consume])
    (fun s => s.status Scenario.jobId = some .retrying &&
      (s.step {} (.worker Scenario.second (.claim (Scenario.tx 7) 31000000))).any
        fun s' => s'.status Scenario.jobId = some .running) (by decide +kernel)
  rw [Bool.and_eq_true, decide_eq_true_eq] at hs
  obtain ⟨s', hs', hstatus⟩ := (Option.any_eq_true ..).mp hs.2
  exact ⟨s, s', ⟨_, ⟨0, rfl⟩, hsteps⟩, hs', hs.1, of_decide_eq_true hstatus, by decide⟩

end Table

end JobOrchestrator
