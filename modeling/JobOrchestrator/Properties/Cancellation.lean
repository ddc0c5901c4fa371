import JobOrchestrator.Properties.Attempts

/-!
# Cancellation

What becomes of a cancel request.  Once accepted it is final: the job is never claimed again.
Whether a job that was asked to stop while `RUNNING` ever does rests on the worker that
executes it.  When that worker decides to retry, a request between its cancellation read and
its `schedule_retry` is lost.
-/

namespace JobOrchestrator

open ExecutionService SubmissionService CancellationService TransitionSystem

variable {settings : Settings}

/-! ## An accepted cancel is final -/

section Final

variable {s s' t : System settings.workerConcurrency} {j : UUID} {tx : Tx} {userId : String}
  {reason : Option String} {now : Time} {outcome : CancelOutcome}

/-- The job was cancelled, or asked to stop, in a run that has added no attempt since `r`. -/
structure Settling (r : JobRecord) (outcome : CancelOutcome)
    (s : System settings.workerConcurrency) (j : UUID) : Prop where
  reachable : (orchestrator settings).Reachable Always s
  requested : (s.db.record j).cancellationRequested
  cancelled : outcome.status = some .cancelled → s.status j = some .cancelled
  attempts : (s.db.record j).attempts.map identity = r.attempts.map identity

/-- The job of an accepted request is flagged when the request returns. -/
lemma settling_of_accepted (hreach : (orchestrator settings).Reachable Always s)
    (hstep : (orchestrator settings).step s (.cancel tx j userId reason now) = some s')
    (hcancel : cancel s.db tx j userId reason now = some (s'.db, outcome))
    (haccepted : outcome.accepted) : Settling (s'.db.record j) outcome s' j := by
  have hreach' : (orchestrator settings).Reachable Always s' :=
    hreach.steps (Steps.single trivial hstep)
  rcases cancel_cases hcancel with
    ⟨hdb, hsame⟩ | ⟨job, -, -, -, houtcome, hrecord⟩ | ⟨job, -, -, -, hrecord⟩
  · obtain ⟨job, hrow, hstatus, houtcome⟩ := hsame haccepted
    refine ⟨hreach', ?_, fun h => (by rw [houtcome] at h; cases h), rfl⟩
    rw [hdb, JobRecord.cancellationRequested, hrow, Option.any_some]
    exact (flagSound_of_reachable hreach j).requested job hrow hstatus
  · refine ⟨hreach', ?_, fun h => (by rw [houtcome] at h; cases h), rfl⟩
    rw [hrecord, Function.update_self]
    rfl
  · have hrow' : (s'.db.record j).row =
        some ((JobRepository.cancelInactive reason now).values job) := by
      rw [hrecord, Function.update_self]
      exact JobRecord.enqueue_row
    refine ⟨hreach', ?_, fun _ => congrArg (Option.map Job.status) hrow', rfl⟩
    rw [JobRecord.cancellationRequested, hrow']
    rfl

lemma settling_of_step {r : JobRecord} {l : Label settings.workerConcurrency}
    (hstep : (orchestrator settings).step s l = some s') (h : Settling r outcome s j) :
    Settling r outcome s' j := by
  have hjob : JobStep s j l (s'.life j) := jobStep_of_reachable h.reachable hstep j
  refine ⟨h.reachable.steps (Steps.single trivial hstep),
    cancellationRequested_mono hjob h.requested, fun houtcome => ?_, ?_⟩
  · obtain ⟨job, hrow, hstatus⟩ := Option.map_eq_some_iff.mp (h.cancelled houtcome)
    have hrow' : s'.db.jobs.get? j = some job :=
      row_of_terminal hjob hrow (by rw [hstatus]; decide)
    rw [System.status, hrow', Option.map_some, hstatus]
  · rcases attempts_of_jobStep hjob with hsame | ⟨_, _, _, job, -, -, hrow, hguard, -, -⟩
    · exact hsame.trans h.attempts
    · -- a claim would have found the flag unset
      have hnone := (JobRepository.claimForExecution_guard.mp hguard).2
      have hflag := h.requested
      rw [JobRecord.cancellationRequested, hrow, Option.any_some, hnone] at hflag
      cases hflag

/-- **An accepted cancel is final.**  After `cancel` has answered `CANCELLED` or `CANCELLING`
without a conflict, whatever steps follow: the job is `CANCELLING`, `CANCELLED`, `SUCCEEDED` or
`FAILED`, it has no attempt row that it did not have, every claim of it is refused, and if the
answer was `CANCELLED` then it is `CANCELLED`. -/
theorem accepted_cancel_final (hreach : (orchestrator settings).Reachable Always s)
    (hstep : (orchestrator settings).step s (.cancel tx j userId reason now) = some s')
    (hcancel : cancel s.db tx j userId reason now = some (s'.db, outcome))
    (haccepted : outcome.accepted) (hsteps : (orchestrator settings).Steps Always s' t) :
    (∃ status ∈ JobStatus.settling, t.status j = some status) ∧
    (t.db.record j).attempts.length = (s'.db.record j).attempts.length ∧
    (∀ c tx now t', t.workers c = .delivered j →
      (orchestrator settings).step t (.worker c (.claim tx now)) = some t' →
        t'.workers c = .idle ∧ t'.db.record = t.db.record) ∧
    (outcome.status = some .cancelled → t.status j = some .cancelled) := by
  have h : Settling (s'.db.record j) outcome t j :=
    Steps.preserves (I := fun t => Settling (s'.db.record j) outcome t j)
      (fun _ _ _ _ hnext h => settling_of_step hnext h) hsteps
      (settling_of_accepted hreach hstep hcancel haccepted)
  obtain ⟨job, hrow, hflag⟩ := (Option.any_eq_true ..).mp h.requested
  refine ⟨⟨job.status, ?_, congrArg (Option.map Job.status) hrow⟩, ?_, ?_, h.cancelled⟩
  · exact (flagSound_of_reachable h.reachable j).settling job hrow hflag
  · simpa using congrArg List.length h.attempts
  · intro c tx now t' hworker hclaim
    refine step_claim_lost hworker (fun job' hrow' hguard => ?_) hclaim
    obtain rfl := Option.some.inj (hrow.symm.trans hrow')
    rw [(JobRepository.claimForExecution_guard.mp hguard).2] at hflag
    cases hflag

/-- A running job that is asked to stop and whose worker then notices. -/
theorem accepted_cancel_final_running :
    ∃ (s' t : System 4) (outcome : CancelOutcome), outcome.status = some .cancelling ∧
      s'.status Scenario.jobId = some .cancelling ∧
      (∃ status ∈ JobStatus.settling, t.status Scenario.jobId = some status) ∧
      (t.db.record Scenario.jobId).attempts.length =
        (s'.db.record Scenario.jobId).attempts.length := by
  obtain ⟨s, hsteps, hs⟩ := exists_of_run (T := orchestrator {}) (System.start 4 0)
    (Scenario.submitted 3 ++ Scenario.dispatched ++ Scenario.claim Scenario.first 3 0)
    (fun s => s.timely (Scenario.tx 9) 0 &&
      (cancel s.db (Scenario.tx 9) Scenario.jobId "user" none 0).any (fun r => r.2.accepted &&
        r.2.status = some .cancelling &&
        ({ s with db := r.1 } : System 4).status Scenario.jobId = some .cancelling) &&
      ((orchestrator {}).run s (Scenario.cancel 0 :: [.worker Scenario.first .checkCancelled,
        Scenario.finalize Scenario.first 4 0])).isSome) (by decide +kernel)
  simp only [Bool.and_eq_true] at hs
  obtain ⟨⟨htimely, hcancel⟩, hrun⟩ := hs
  obtain ⟨⟨db, outcome⟩, hcancel, hanswer⟩ := (Option.any_eq_true ..).mp hcancel
  simp only [Bool.and_eq_true, decide_eq_true_eq] at hanswer
  obtain ⟨⟨haccepted, houtcome⟩, hstatus⟩ := hanswer
  have hstep : (orchestrator {}).step s (Scenario.cancel 0) = some { s with db } := by
    simp [orchestrator, System.step, Scenario.cancel, htimely, hcancel]
  obtain ⟨t, ht⟩ := Option.isSome_iff_exists.mp hrun
  rw [run, List.foldlM_cons, hstep] at ht
  have hrest : (orchestrator {}).Steps Always { s with db } t := steps_of_run ht
  obtain ⟨hsettling, hattempts, -, -⟩ :=
    accepted_cancel_final ⟨_, ⟨0, rfl⟩, hsteps⟩ hstep hcancel haccepted hrest
  exact ⟨_, t, outcome, houtcome, hstatus, hsettling, hattempts⟩

end Final

/-! ## Cancels during a retry decision -/

/-- `_handle_retryable` has read the flag as unset and not yet scheduled the retry. -/
def Stage.inRetryWindow : Stage → Bool
  | .backingOff _ _ => true
  | .finalizing (.retry _ _ _) => true
  | _ => false

/-- The execution returns `True`, unless its heartbeat has failed. -/
def Stage.returns : Stage → Bool
  | .returning false => true
  | _ => false

lemma Stage.returns_iff {stage : Stage} : stage.returns ↔ stage = .returning false := by
  unfold Stage.returns
  split <;> simp_all

/-- The step does not ask a job to stop whose current attempt is about to schedule a retry. -/
def cancelsOutsideRetryWindow {concurrency : ℕ} (s : System concurrency) :
    Label concurrency → Bool
  | .cancel _ jobId userId _ _ =>
      (JobRepository.lockForUser s.db jobId userId).all fun job =>
        job.status ≠ .running || job.lockedBy.all fun workerId =>
          decide (∀ slot : Fin concurrency, ((s.workers ⟨workerId, slot⟩).on jobId).all fun e =>
            e.attemptNumber ≠ job.attempts || !e.stage.inRetryWindow)
  | _ => true

/-- The current attempt of a job only goes through the retry window while the job is not
`CANCELLING`, and it only returns once the job is no longer active. -/
def Prompt {concurrency : ℕ} (life : Life concurrency) : Prop :=
  ∀ c e job, life.executions c = some e → life.record.row = some job →
    job.attempts = e.attemptNumber →
    (e.stage.inRetryWindow → job.status ≠ .cancelling) ∧
    ((e.stage = .deadLettering ∨ e.stage = .returning false) →
      job.status ≠ .running ∧ job.status ≠ .cancelling)

section Retry

variable {s : System settings.workerConcurrency} {j : UUID}
  {l : Label settings.workerConcurrency} {life' : Life settings.workerConcurrency}

/-- With the lease held and the job active, every finalizing statement matches, a retry only
while the job is `RUNNING`. -/
lemma finalizer_guard {outcome : Outcome} {workerId : String} {now : Time} {job : Job}
    (hlocked : job.lockedBy = some workerId)
    (hactive : job.status = .running ∨ job.status = .cancelling)
    (hretry : (Stage.finalizing outcome).inRetryWindow → job.status ≠ .cancelling) :
    (outcome.finalizer.update workerId now).guard job := by
  cases outcome with
  | succeeded => exact JobRepository.markSucceeded_guard.mpr ⟨hlocked, hactive⟩
  | failed => exact JobRepository.markFailed_guard.mpr ⟨hlocked, hactive⟩
  | cancelled => exact JobRepository.finalizeCancelledByWorker_guard.mpr ⟨hlocked, hactive⟩
  | retry =>
      have hrunning : job.status = .running := hactive.resolve_right (hretry rfl)
      exact JobRepository.scheduleRetry_guard.mpr ⟨hlocked, hrunning⟩

lemma afterFinalize_inRetryWindow (hit : Bool) (outcome : Outcome) :
    (Stage.afterFinalize hit outcome).inRetryWindow = false := by
  unfold Stage.afterFinalize
  split
  · split <;> rfl
  · rfl

/-- An execution enters the retry window only after it has read the flag as unset. -/
lemma inRetryWindow_of_decides {r : JobRecord} {e : Execution} {stage : Stage}
    (h : Decides r e stage) (hwindow : stage.inRetryWindow) :
    e.stage.inRetryWindow ∨ ¬ r.cancellationRequested := by
  cases h with
  | checkpoint | returned | deadLetter | failed => cases hwindow
  | raised _ error => cases error <;> cases hwindow
  | backoff hstage => exact Or.inl (by rw [hstage]; rfl)
  | read =>
      refine Or.inr fun hrequested => ?_
      rw [Execution.afterRead, if_pos hrequested] at hwindow
      cases hwindow

/-- An execution starts to return without an exception only after its dead letter. -/
lemma deadLettering_of_decides {r : JobRecord} {e : Execution} {stage : Stage}
    (h : Decides r e stage) (hstage : stage = .deadLettering ∨ stage = .returning false) :
    e.stage = .deadLettering := by
  cases h with
  | deadLetter h => exact h
  | checkpoint | returned | backoff | failed => rcases hstage with h | h <;> cases h
  | raised _ error => cases error <;> rcases hstage with h | h <;> cases h
  | read =>
      unfold Execution.afterRead at hstage
      split at hstage
      · rcases hstage with h | h <;> cases h
      · split at hstage <;> rcases hstage with h | h <;> cases h

/-- The cancel request that the condition excludes. -/
lemma not_inRetryWindow_of_cancel {c : Coroutine settings.workerConcurrency} {e : Execution}
    {tx : Tx} {userId : String} {reason : Option String} {now : Time} {job : Job}
    (hcancels : cancelsOutsideRetryWindow s (.cancel tx j userId reason now))
    (hlock : JobRepository.lockForUser s.db j userId = some job) (hrunning : job.status = .running)
    (hlocked : job.lockedBy = some c.workerId) (he : (s.life j).executions c = some e)
    (hcurrent : job.attempts = e.attemptNumber) : ¬ e.stage.inRetryWindow := by
  have hon : (s.workers ⟨c.workerId, c.slot⟩).on j = some e := he
  simp only [cancelsOutsideRetryWindow, hlock, Option.all_some, hrunning, hlocked,
    ne_eq, not_true_eq_false, decide_false, Bool.false_or, decide_eq_true_eq] at hcancels
  have hslot := hcancels c.slot
  simpa [hon, hcurrent] using hslot

/-- Only a cancel request makes a job `CANCELLING`. -/
lemma cancel_of_issues {u : JobUpdate} (h : Issues s j l u) {job : Job}
    (hrow : (s.db.record j).row = some job) (hne : job.status ≠ .cancelling)
    (hcancelling : (u.values job).status = .cancelling) :
    ∃ tx userId reason now, l = .cancel tx j userId reason now ∧
      JobRepository.lockForUser s.db j userId = some job := by
  cases h with
  | requestRunningCancellation job' hlock =>
      have hrow' : s.db.jobs.get? j = some job' := (Option.filter_eq_some_iff.mp hlock).1
      obtain rfl := Option.some.inj (hrow.symm.trans hrow')
      exact ⟨_, _, _, _, rfl, hlock⟩
  | heartbeat | updateProgress | markRedispatched => exact absurd hcancelling hne
  | finalize e outcome he hstage =>
      exact absurd (finalizer_status.symm.trans hcancelling) (finalizer_inactive outcome).2
  | cancelInactive | claimForExecution | markQueued | moveRetryToQueued | failExpiredLease
  | requeueExpiredLease | expire => cases hcancelling

lemma prompt_of_jobStep (hflag : FlagSound (s.life j)) (hlease : LeaseSound (s.life j))
    (hcancels : cancelsOutsideRetryWindow s l) (hprompt : Prompt (s.life j))
    (h : JobStep s j l life') : Prompt life' := by
  intro c e' job' he' hrow' hcurrent
  cases execution_of_jobStep h he' with
  | started => exact ⟨fun h => (by cases h), fun h => by rcases h with h | h <;> cases h⟩
  | heartbeatFailed e he hrecord =>
      rw [hrecord] at hrow'
      exact hprompt c e job' he hrow' hcurrent
  | decided e stage he hdecides hrecord =>
      have hrow : (s.db.record j).row = some job' := hrecord ▸ hrow'
      obtain ⟨hwindow, hreturn⟩ := hprompt c e job' he hrow hcurrent
      refine ⟨fun hstage => ?_, fun hstage => ?_⟩
      · rcases inRetryWindow_of_decides hdecides hstage with hbefore | hunset
        · exact hwindow hbefore
        · intro hcancelling
          have hset := hflag.requested job' hrow hcancelling
          rw [JobRecord.cancellationRequested, hrow, Option.any_some] at hunset
          exact hunset hset
      · exact hreturn (Or.inl (deadLettering_of_decides hdecides hstage))
  | finalized e outcome tx now job he hstage hrow hguard hrecord =>
      rw [hrecord, finalized_row] at hrow'
      obtain rfl := Option.some.inj hrow'
      refine ⟨fun hwindow => ?_, fun _ => ?_⟩
      · rw [afterFinalize_inRetryWindow] at hwindow
        cases hwindow
      · rw [finalizer_status]
        exact finalizer_inactive outcome
  | superseded e outcome now he hstage hmissed hrecord =>
      have hrow : (s.db.record j).row = some job' := by
        rw [hrecord] at hrow'
        exact hrow'
      refine ⟨fun hwindow => ?_, fun _ => ?_⟩
      · rw [afterFinalize_inRetryWindow] at hwindow
        cases hwindow
      · -- an active job would still be locked by this worker, and the statement would match
        obtain ⟨job, hrow₁, -, hholds⟩ := hlease c e he
        obtain rfl := Option.some.inj (hrow.symm.trans hrow₁)
        have hretry := (hprompt c e job' he hrow hcurrent).1
        rw [hstage] at hretry
        refine not_or.mp fun hactive => hmissed job' hrow ?_
        exact finalizer_guard (hholds hactive hcurrent) hactive hretry
  | kept _ he =>
      obtain ⟨job, hrow, hle, hholds⟩ := hlease c e' he
      rcases row_of_jobStep_of_row h hrow with hsame | ⟨u, hu, hguard, hvalues⟩
      · obtain rfl := Option.some.inj (hsame.symm.trans hrow')
        exact hprompt c e' job he hrow hcurrent
      · obtain rfl := Option.some.inj (hvalues.symm.trans hrow')
        rcases lock_of_issues hu hguard with ⟨_, _, _, -, -, hattempts, -⟩ | ⟨hattempts, -, hlock⟩
        · omega
        · have hnumber : job.attempts = e'.attemptNumber := hattempts ▸ hcurrent
          obtain ⟨hwindow, hreturn⟩ := hprompt c e' job he hrow hnumber
          refine ⟨fun hstage hcancelling => ?_, fun hstage => ?_⟩
          · have hactive := (hlock (Or.inr hcancelling)).1
            have hrunning : job.status = .running := hactive.resolve_right (hwindow hstage)
            obtain ⟨tx, userId, reason, now, rfl, hlocks⟩ :=
              cancel_of_issues hu hrow (hwindow hstage) hcancelling
            have hlocked := hholds hactive hnumber
            exact not_inRetryWindow_of_cancel hcancels hlocks hrunning hlocked he hnumber hstage
          · obtain ⟨hne, hne'⟩ := hreturn hstage
            refine not_or.mp fun hactive => ?_
            rcases (hlock hactive).1 with h | h
            · exact hne h
            · exact hne' h

lemma prompt_of_reachable
    (h : (orchestrator settings).Reachable (fun s l => cancelsOutsideRetryWindow s l) s)
    (j : UUID) : Prompt (s.life j) :=
  life_invariant (I := Prompt) (fun _ _ _ _ _ he => by cases he)
    (fun _ _ _ j hreach hcancels hstep hprompt =>
      prompt_of_jobStep (flagSound_of_reachable hreach j) (leaseSound_of_reachable hreach j)
        hcancels hprompt hstep) h j

/-- **No cancel is lost outside the retry window.**  In a run in which no cancel request
commits between the cancellation read of the current attempt and its `schedule_retry`: when
`execute` returns without an exception, and its attempt still is the current one, the job is
not `CANCELLING`, and if its cancellation was requested it is `CANCELLED`, `SUCCEEDED` or
`FAILED`. -/
theorem no_cancel_lost {c : Coroutine settings.workerConcurrency} {e : Execution} {job : Job}
    (h : (orchestrator settings).Reachable (fun s l => cancelsOutsideRetryWindow s l) s)
    (he : s.workers c = .executing e) (hreturn : e.stage = .returning false)
    (hrow : s.db.jobs.get? e.jobId = some job) (hcurrent : job.attempts = e.attemptNumber) :
    job.status ≠ .cancelling ∧
      (job.cancellationRequestedAt.isSome →
        job.status = .cancelled ∨ job.status = .succeeded ∨ job.status = .failed) := by
  have hexecutes : (s.life e.jobId).executions c = some e :=
    (s.life_executions e.jobId).mpr ⟨he, rfl⟩
  have hprompt := prompt_of_reachable h e.jobId c e job hexecutes hrow hcurrent
  have hne : job.status ≠ .cancelling := (hprompt.2 (Or.inr hreturn)).2
  refine ⟨hne, fun hrequested => ?_⟩
  have hsettling := (flagSound_of_reachable h e.jobId).settling job hrow hrequested
  exact (JobStatus.mem_settling.mp hsettling).resolve_left hne

/-- A job that is asked to stop before the cancellation read of its failing attempt. -/
theorem no_cancel_lost_before_read :
    ∃ (s : System 4) (e : Execution) (job : Job), s.workers Scenario.first = .executing e ∧
      e.stage = .returning false ∧ s.db.jobs.get? e.jobId = some job ∧
      job.cancellationRequestedAt.isSome ∧ job.status ≠ .cancelling ∧
      (job.status = .cancelled ∨ job.status = .succeeded ∨ job.status = .failed) := by
  obtain ⟨s, hsteps, hs⟩ := exists_of_runUnder (T := orchestrator {})
    (C := fun s l => cancelsOutsideRetryWindow s l) (System.start 4 0)
    (Scenario.submitted 3 ++ Scenario.dispatched ++ Scenario.claim Scenario.first 3 0 ++
      [.worker Scenario.first (.handlerRaises (.retryable "TRANSIENT_FAILURE" "failed")),
        Scenario.cancel 0, .worker Scenario.first .readCancellation,
        Scenario.finalize Scenario.first 4 0])
    (fun s => ((s.workers Scenario.first).on Scenario.jobId).any (fun e =>
        e.stage.returns && e.attemptNumber = 1) &&
      (s.db.jobs.get? Scenario.jobId).any fun job =>
        job.attempts = 1 && job.cancellationRequestedAt.isSome) (by decide +kernel)
  rw [Bool.and_eq_true] at hs
  obtain ⟨e, he, hexecution⟩ := (Option.any_eq_true ..).mp hs.1
  obtain ⟨job, hrow, hjob⟩ := (Option.any_eq_true ..).mp hs.2
  simp only [Bool.and_eq_true, decide_eq_true_eq] at hexecution hjob
  obtain ⟨he, hid⟩ := Consumer.on_eq_some.mp he
  have hreturn := Stage.returns_iff.mp hexecution.1
  have hrow : s.db.jobs.get? e.jobId = some job := hid ▸ hrow
  have hcurrent : job.attempts = e.attemptNumber := hjob.1.trans hexecution.2.symm
  obtain ⟨hne, hended⟩ := no_cancel_lost ⟨_, ⟨0, rfl⟩, hsteps⟩ he hreturn hrow hcurrent
  exact ⟨s, e, job, he, hreturn, hrow, hjob.2, hne, hended hjob.2⟩

/-- A request between the cancellation read and the scheduled retry of the only attempt: it
is accepted, `execute` returns, and the job is left `CANCELLING`. -/
theorem cancel_lost_in_retryWindow :
    ∃ (s : System 4) (e : Execution) (job : Job), (orchestrator {}).Reachable Always s ∧
      s.workers Scenario.first = .executing e ∧ e.stage = .returning false ∧
      e.heartbeatFailed = false ∧ s.db.jobs.get? e.jobId = some job ∧
      job.attempts = e.attemptNumber ∧ job.status = .cancelling := by
  obtain ⟨s, hsteps, hs⟩ := exists_of_run (T := orchestrator {}) (System.start 4 0)
    (Scenario.submitted 3 ++ Scenario.dispatched ++ Scenario.claim Scenario.first 3 0 ++
      Scenario.backOff Scenario.first 0 ++
      [Scenario.cancel 0, Scenario.finalize Scenario.first 4 0])
    (fun s => ((s.workers Scenario.first).on Scenario.jobId).any (fun e =>
        e.stage.returns && e.attemptNumber = 1 && e.heartbeatFailed = false) &&
      (s.db.jobs.get? Scenario.jobId).any fun job =>
        job.attempts = 1 && job.status = .cancelling) (by decide +kernel)
  rw [Bool.and_eq_true] at hs
  obtain ⟨e, he, hexecution⟩ := (Option.any_eq_true ..).mp hs.1
  obtain ⟨job, hrow, hjob⟩ := (Option.any_eq_true ..).mp hs.2
  simp only [Bool.and_eq_true, decide_eq_true_eq] at hexecution hjob
  obtain ⟨he, hid⟩ := Consumer.on_eq_some.mp he
  obtain ⟨⟨hreturns, hnumber⟩, hheartbeat⟩ := hexecution
  exact ⟨s, e, job, ⟨_, ⟨0, rfl⟩, hsteps⟩, he, Stage.returns_iff.mp hreturns, hheartbeat,
    hid ▸ hrow, hjob.1.trans hnumber.symm, hjob.2⟩

end Retry

end JobOrchestrator
