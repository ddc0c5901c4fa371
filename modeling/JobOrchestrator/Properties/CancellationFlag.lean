import JobOrchestrator.Lifecycle.Effects

/-!
# The cancellation flag

`cancellation_requested_at` is set by a cancel request and never cleared.  The statuses a job
can have while it is set are closed under every step, because the claim refuses a flagged
job and an execution is only about to finalize as cancelled after it has seen the flag.
-/

namespace JobOrchestrator

open ExecutionService SubmissionService CancellationService

variable {settings : Settings}

/-- The statuses of a job whose cancellation was requested. -/
def JobStatus.settling : List JobStatus := [.cancelling, .cancelled, .succeeded, .failed]

@[simp] lemma JobStatus.mem_settling {status : JobStatus} :
    status ∈ settling ↔
      status = .cancelling ∨ status = .cancelled ∨ status = .succeeded ∨ status = .failed := by
  simp [settling]

/-- What the cancellation flag says about the status, and an execution about the flag. -/
structure FlagSound {concurrency : ℕ} (life : Life concurrency) : Prop where
  settling : ∀ job, life.record.row = some job → job.cancellationRequestedAt.isSome →
    job.status ∈ JobStatus.settling
  requested : ∀ job, life.record.row = some job → job.status = .cancelling →
    job.cancellationRequestedAt.isSome
  observed : ∀ c e, life.executions c = some e → e.stage = .finalizing .cancelled →
    life.record.cancellationRequested

section Step

variable {s : System settings.workerConcurrency} {j : UUID}
  {l : Label settings.workerConcurrency} {life' : Life settings.workerConcurrency}

/-- No statement clears the flag. -/
lemma requested_of_issues {u : JobUpdate} (h : Issues s j l u) {job : Job}
    (hrequested : job.cancellationRequestedAt.isSome) :
    (u.values job).cancellationRequestedAt.isSome := by
  cases h with
  | requestRunningCancellation | cancelInactive => rfl
  | finalize e outcome he hstage => cases outcome <;> exact hrequested
  | claimForExecution | heartbeat | updateProgress | markQueued | moveRetryToQueued
  | failExpiredLease | requeueExpiredLease | markRedispatched | expire => exact hrequested

lemma cancellationRequested_mono (h : JobStep s j l life')
    (hrequested : (s.db.record j).cancellationRequested) :
    life'.record.cancellationRequested := by
  obtain ⟨job, hrow, hflag⟩ := (Option.any_eq_true ..).mp hrequested
  rcases row_of_jobStep_of_row h hrow with hsame | ⟨u, hu, -, hvalues⟩
  · rw [JobRecord.cancellationRequested, hsame, Option.any_some]
    exact hflag
  · rw [JobRecord.cancellationRequested, hvalues, Option.any_some]
    exact requested_of_issues hu hflag

/-- A statement that matches keeps a flagged job among the settling statuses. -/
lemma settling_of_issues {u : JobUpdate} (h : Issues s j l u) {job : Job} (hguard : u.guard job)
    (hflag : job.cancellationRequestedAt.isSome → job.status ∈ JobStatus.settling)
    (hflag' : (u.values job).cancellationRequestedAt.isSome) :
    (u.values job).status ∈ JobStatus.settling := by
  cases h with
  | requestRunningCancellation | cancelInactive | failExpiredLease =>
      exact List.mem_of_elem_eq_true rfl
  | heartbeat | updateProgress | markRedispatched => exact hflag hflag'
  | claimForExecution =>
      obtain ⟨-, hnone⟩ := JobRepository.claimForExecution_guard.mp hguard
      simp [JobRepository.claimForExecution, hnone] at hflag'
  | finalize e outcome he hstage =>
      cases outcome with
      | succeeded | failed | cancelled => exact List.mem_of_elem_eq_true rfl
      | retry code message t =>
          obtain ⟨-, hstatus⟩ := JobRepository.scheduleRetry_guard.mp hguard
          simpa [hstatus] using hflag hflag'
  | markQueued =>
      have hstatus := JobRepository.markQueued_guard.mp hguard
      simpa [hstatus] using hflag hflag'
  | moveRetryToQueued =>
      have hstatus := JobRepository.moveRetryToQueued_guard.mp hguard
      simpa [hstatus] using hflag hflag'
  | requeueExpiredLease =>
      have hstatus := JobRepository.requeueExpiredLease_guard.mp hguard
      simpa [hstatus] using hflag hflag'
  | expire =>
      rcases JobRepository.expire_guard.mp hguard with hstatus | hstatus
      · simpa [hstatus] using hflag hflag'
      · simpa [hstatus] using hflag hflag'

/-- A statement leaves a job `CANCELLING` only with the flag set. -/
lemma requested_of_cancelling {u : JobUpdate} (h : Issues s j l u) {job : Job}
    (hflag : job.status = .cancelling → job.cancellationRequestedAt.isSome)
    (hstatus : (u.values job).status = .cancelling) :
    (u.values job).cancellationRequestedAt.isSome := by
  cases h with
  | requestRunningCancellation => rfl
  | heartbeat | updateProgress | markRedispatched => exact hflag hstatus
  | finalize e outcome he hstage => cases outcome <;> cases hstatus
  | cancelInactive | claimForExecution | markQueued | moveRetryToQueued | failExpiredLease
  | requeueExpiredLease | expire => cases hstatus

/-- An execution only decides to finalize as cancelled when the flag is set. -/
lemma requested_of_decides {r : JobRecord} {e : Execution}
    (h : Decides r e (.finalizing .cancelled)) : r.cancellationRequested := by
  generalize hstage : Stage.finalizing .cancelled = stage at h
  cases h with
  | checkpoint _ hrequested => exact hrequested
  | raised _ error => cases error <;> cases hstage
  | read _ =>
      by_contra hnot
      unfold Execution.afterRead at hstage
      rw [if_neg hnot] at hstage
      split at hstage <;> cases hstage
  | returned | backoff | deadLetter | failed => cases hstage

lemma afterFinalize_ne_finalizing {hit : Bool} {outcome outcome' : Outcome} :
    Stage.afterFinalize hit outcome ≠ .finalizing outcome' := by
  unfold Stage.afterFinalize
  split
  · split <;> exact fun h => by cases h
  · exact fun h => by cases h

lemma flagSound_of_jobStep (hsound : FlagSound (s.life j)) (h : JobStep s j l life') :
    FlagSound life' where
  settling := by
    refine row_rule h (fun _ _ _ hflag => ?_) (fun u job hu _ hguard hsettling => ?_)
      hsound.settling
    · cases hflag
    · exact settling_of_issues hu hguard hsettling
  requested := by
    refine row_rule h (fun _ _ _ hstatus => ?_) (fun u job hu _ _ hrequested => ?_)
      hsound.requested
    · cases hstatus
    · exact requested_of_cancelling hu hrequested
  observed c e' he' hstage' := by
    have hbefore : (s.db.record j).cancellationRequested → life'.record.cancellationRequested :=
      cancellationRequested_mono h
    cases execution_of_jobStep h he' with
    | kept _ he => exact hbefore (hsound.observed c _ he hstage')
    | heartbeatFailed e he => exact hbefore (hsound.observed c e he hstage')
    | started => cases hstage'
    | decided e stage he hdecides =>
        obtain rfl : stage = .finalizing .cancelled := hstage'
        exact hbefore (requested_of_decides hdecides)
    | finalized | superseded => exact absurd hstage' afterFinalize_ne_finalizing

end Step

theorem flagSound_of_reachable {s : System settings.workerConcurrency}
    {C : System settings.workerConcurrency → Label settings.workerConcurrency → Prop}
    (h : (orchestrator settings).Reachable C s) (j : UUID) : FlagSound (s.life j) := by
  refine life_invariant (fun clock j => ?_) (fun s l life' j _ _ hstep hsound => ?_) h j
  · exact ⟨fun _ hrow => (by cases hrow), fun _ hrow => (by cases hrow),
      fun _ _ he => (by cases he)⟩
  · exact flagSound_of_jobStep hsound hstep

end JobOrchestrator
