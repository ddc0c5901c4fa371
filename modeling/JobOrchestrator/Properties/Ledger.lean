import JobOrchestrator.Library.Commitment
import JobOrchestrator.Library.Refinement
import JobOrchestrator.Properties.Expiry

/-!
# The ledger

What the orchestrator promises to the users who submit jobs, without leases, queues and retries: it
keeps a `Commitment` for each of them.  `JobRecord.commitment` reads the commitment off the row of a
job, and every run of the system is a run of the ledger (`orchestrator_refines_ledger`).

The notifications are a function of the ledger: `notices_of_ledger` says, column by column, what the
outbox holds about a job in every reachable state.
-/

namespace JobOrchestrator

open ExecutionService SubmissionService CancellationService NotificationService TransitionSystem
open Relation

variable {settings : Settings}

/-! ## The abstraction -/

/-- The error code and the error message of a failure. -/
abbrev Reason := Option String × Option String

abbrev JobVerdict := Verdict (Option Dict) Reason

abbrev JobCommitment := Commitment JobRequest (Option Dict) Reason

/-- How the job has ended. -/
def Job.verdict (job : Job) : Option JobVerdict :=
  match job.status with
  | .succeeded => some (.succeeded job.result)
  | .failed => some (.failed (job.errorCode, job.errorMessage))
  | .cancelled => some .cancelled
  | .expired => some .expired
  | .pending | .queued | .running | .retrying | .cancelling => none

def Job.commitment (job : Job) : JobCommitment where
  request := job.request
  attempts := job.attempts
  asked := job.cancellationRequestedAt.isSome
  verdict := job.verdict

/-- What has been promised about a job, once it is accepted. -/
def JobRecord.commitment (r : JobRecord) : Option JobCommitment := r.row.map Job.commitment

/-- The entries of all jobs. -/
def System.ledger {concurrency : ℕ} (s : System concurrency) (jobId : UUID) :
    Option JobCommitment :=
  (s.db.record jobId).commitment

section Verdict

variable {job : Job}

lemma verdict_eq_none : job.verdict = none ↔ ¬ job.status.isTerminal := by
  rw [JobStatus.isTerminal_iff]
  unfold Job.verdict
  cases job.status <;> simp

lemma verdict_of_held (hheld : job.status = .running ∨ job.status = .cancelling) :
    job.verdict = none := by
  unfold Job.verdict
  rcases hheld with h | h <;> rw [h]

end Verdict

/-! ## The refinement -/

section Step

variable {s : System settings.workerConcurrency} {j : UUID}
  {l : Label settings.workerConcurrency} {life' : Life settings.workerConcurrency}

/-- The statements that neither start nor end anything leave the entry of their job alone. -/
lemma commitment_of_quiet {u : JobUpdate} {job : Job} (hattempts : (u.values job).attempts =
      job.attempts)
    (hflag : (u.values job).cancellationRequestedAt = job.cancellationRequestedAt)
    (hbefore : job.verdict = none) (hafter : (u.values job).verdict = none) :
    (u.values job).commitment = job.commitment := by
  have hrequest : (u.values job).request = job.request := u.keeps_request job
  rw [Job.commitment, Job.commitment, hattempts, hflag, hrequest, hbefore, hafter]

/-- A finalizing statement settles the entry, unless it schedules a retry. -/
lemma commitment_of_finalize {e : Execution} {outcome : Outcome}
    {c : Coroutine settings.workerConcurrency} {now : Time} {job : Job}
    (hflag : FlagSound (s.life j)) (hattempt : HasAttempt job)
    (he : (s.life j).executions c = some e) (hstage : e.stage = .finalizing outcome)
    (hrow : (s.db.record j).row = some job)
    (hguard : (outcome.finalizer.update c.workerId now).guard job) :
    ReflGen Commitment.Step (some job.commitment)
      (some ((outcome.finalizer.update c.workerId now).values job).commitment) := by
  have hheld := (held_of_finalizer hguard).2
  have hopen : job.verdict = none := verdict_of_held hheld
  have hstarted : 1 ≤ job.attempts := hattempt (hheld.imp_right Or.inl)
  cases outcome with
  | succeeded result => exact .single (.settle job.commitment _ hopen hstarted)
  | failed code message deadLettered =>
      exact .single (.settle job.commitment _ hopen hstarted)
  | retry code message nextAttemptAt =>
      have hsame : ((Outcome.retry code message nextAttemptAt).finalizer.update c.workerId
          now |>.values job).commitment = job.commitment :=
        commitment_of_quiet (u := (Outcome.retry code message nextAttemptAt).finalizer.update
          c.workerId now) rfl rfl hopen rfl
      rw [hsame]
  | cancelled =>
      have hasked : job.cancellationRequestedAt.isSome := by
        have hobserved := hflag.observed c e he hstage
        rw [System.life_record, JobRecord.cancellationRequested, hrow] at hobserved
        exact hobserved
      exact .single (.settle job.commitment .cancelled hopen hasked)

/-- A statement that matches moves the entry of its job by one step at most. -/
lemma commitment_of_issues {u : JobUpdate} (h : Issues s j l u) {job : Job}
    (hflag : FlagSound (s.life j)) (hattempt : HasAttempt job)
    (hrow : (s.db.record j).row = some job) (hguard : u.guard job) :
    ReflGen Commitment.Step (some job.commitment) (some (u.values job).commitment) := by
  have hopen : job.verdict = none := verdict_eq_none.mpr (not_isTerminal_of_issues h hguard)
  -- outside the settling statuses nobody has asked to stop the job
  have hunasked : job.status ∉ JobStatus.settling → job.cancellationRequestedAt.isSome = false := by
    intro hstatus
    rw [← Bool.not_eq_true]
    exact fun hset => hstatus (hflag.settling job hrow hset)
  have hquiet : (u.values job).commitment = job.commitment →
      ReflGen Commitment.Step (some job.commitment) (some (u.values job).commitment) := by
    intro hsame
    rw [hsame]
  cases h with
  | requestRunningCancellation =>
      have hrunning := JobRepository.requestRunningCancellation_guard.mp hguard
      have hasked : job.cancellationRequestedAt.isSome = false :=
        hunasked (by rw [hrunning]; decide)
      have hstarted : 1 ≤ job.attempts := hattempt (Or.inl hrunning)
      have hstep := Commitment.Step.ask job.commitment hopen hasked hstarted
      rw [show job.commitment.verdict = none from hopen] at hstep
      exact .single hstep
  | cancelInactive =>
      have hinactive := JobRepository.cancelInactive_guard.mp hguard
      have hasked : job.cancellationRequestedAt.isSome = false := by
        refine hunasked ?_
        rcases hinactive with h | h | h <;> rw [h] <;> decide
      exact .single (.withdraw job.commitment hopen hasked)
  | claimForExecution =>
      have hasked : job.cancellationRequestedAt.isSome = false := by
        rw [(JobRepository.claimForExecution_guard.mp hguard).2, Option.isSome_none]
      have hstep := Commitment.Step.attempt job.commitment hopen hasked
      rw [show job.commitment.verdict = none from hopen] at hstep
      exact .single hstep
  | heartbeat | updateProgress | markRedispatched =>
      exact hquiet (commitment_of_quiet rfl rfl hopen hopen)
  | markQueued | moveRetryToQueued | requeueExpiredLease =>
      exact hquiet (commitment_of_quiet rfl rfl hopen rfl)
  | finalize e outcome he hstage =>
      exact commitment_of_finalize hflag hattempt he hstage hrow hguard
  | failExpiredLease =>
      have hrunning := JobRepository.failExpiredLease_guard.mp hguard
      have hstarted : 1 ≤ job.attempts := hattempt (Or.inl hrunning)
      exact .single (.settle job.commitment _ hopen hstarted)
  | expire =>
      have hstatus := JobRepository.expire_guard.mp hguard
      have hasked : job.cancellationRequestedAt.isSome = false := by
        refine hunasked ?_
        rcases hstatus with h | h <;> rw [h] <;> decide
      exact .single (.settle job.commitment .expired hopen hasked)

lemma commitment_of_jobStep (hflag : FlagSound (s.life j))
    (hattempt : ∀ job, (s.db.record j).row = some job → HasAttempt job)
    (h : JobStep s j l life') :
    ReflGen Commitment.Step (s.db.record j).commitment life'.record.commitment := by
  unfold JobRecord.commitment
  rcases row_of_jobStep h with
    hsame | ⟨args, now, hlimit, hnone, hcreated⟩ | ⟨u, job, hu, hrow, hguard, hvalues⟩
  · rw [hsame]
  · rw [hnone, hcreated]
    exact .single (.accept (newJob settings args j now hlimit).request)
  · rw [hrow, hvalues]
    exact commitment_of_issues hu hflag (hattempt job hrow) hrow hguard

/-- The entry of one job. -/
lemma refines_entry (j : UUID) : (orchestrator settings).Refines (fun s => s.ledger j)
    (fun entry => entry = none) Commitment.Step := by
  refine ⟨?_, ?_⟩
  · rintro s ⟨clock, rfl⟩
    rfl
  · intro s l s' hreach hstep
    exact commitment_of_jobStep (flagSound_of_reachable hreach j)
      (fun job hrow => hasAttempt_of_reachable hreach j job hrow)
      (jobStep_of_reachable hreach hstep j)

/-- **The orchestrator refines the ledger.**  In every run of the system, whatever its workers,
schedulers, queues and crashes do, each step moves the entry of each job by one step of a
commitment or not at all. -/
theorem orchestrator_refines_ledger : (orchestrator settings).Refines System.ledger
    (fun entries => ∀ j, entries j = none)
    fun entries entries' => ∀ j, ReflGen Commitment.Step (entries j) (entries' j) :=
  refines_pi refines_entry

/-- The entry of an accepted job is kept, and only ever extended. -/
lemma ledger_extends {s' : System settings.workerConcurrency} {job : Job}
    (hreach : (orchestrator settings).Reachable Always s)
    (hsteps : (orchestrator settings).Steps Always s s') (hrow : s.db.jobs.get? j = some job) :
    ∃ job', s'.db.jobs.get? j = some job' ∧ job.commitment.Extends job'.commitment := by
  have hentry : ReflTransGen Commitment.Step (s.ledger j) (s'.ledger j) :=
    (refines_entry j).steps hreach hsteps
  have hbefore : s.ledger j = some job.commitment := congrArg (Option.map Job.commitment) hrow
  rw [hbefore] at hentry
  obtain ⟨c, hafter, hextends⟩ := Commitment.extends_of_steps hentry
  obtain ⟨job', hrow', rfl⟩ := Option.map_eq_some_iff.mp hafter
  exact ⟨job', hrow', hextends⟩

/-- **A verdict has its reason.**  In every reachable state a job has succeeded or failed only after
an attempt of it was started, is cancelled only if its owner asked for it, and has expired only if
nobody did; and a job whose owner asked is cancelled, unless an attempt of it was started before. -/
theorem ledger_sound (h : (orchestrator settings).Reachable Always s) {c : JobCommitment}
    (hentry : s.ledger j = some c) : c.Sound := by
  refine (refines_entry j).invariant (I := fun entry => ∀ c, entry = some c → c.Sound) ?_ ?_ h c
    hentry
  · rintro entry rfl c ⟨⟩
  · exact fun _ _ => Commitment.sound_of_step

/-- A job that is cancelled while it waits for its first attempt. -/
theorem ledger_sound_withdrawn : ∃ (s : System 4) (c : JobCommitment),
    s.ledger Scenario.jobId = some c ∧ c.asked ∧ c.attempts = 0 ∧ c.Sound := by
  obtain ⟨s, hsteps, hs⟩ := exists_of_run (T := orchestrator {}) (System.start 4 0)
    (Scenario.submitted 3 ++ Scenario.dispatched ++ [Scenario.cancel 0])
    (fun s => (s.ledger Scenario.jobId).any fun c => c.asked && c.attempts = 0) (by decide +kernel)
  obtain ⟨c, hentry, hc⟩ := (Option.any_eq_true ..).mp hs
  obtain ⟨hasked, hattempts⟩ := Bool.and_eq_true_iff.mp hc
  exact ⟨s, c, hentry, hasked, of_decide_eq_true hattempts,
    ledger_sound ⟨_, ⟨0, rfl⟩, hsteps⟩ hentry⟩

end Step

/-! ## The notifications -/

/-- What a notification says, and to whom. -/
structure Notice where
  userId : String
  channel : NotificationChannel
  destination : String
  eventType : JobEventType
  payload : NotificationPayload

/-- The columns of a row that no delivery writes, without those that are drawn at random. -/
def NotificationOutbox.notice (n : NotificationOutbox) : Notice :=
  ⟨n.userId, n.channel, n.destination, n.eventType, n.payload⟩

/-- What a user is told about a job that ended with a verdict. -/
def Job.notice (job : Job) (verdict : JobVerdict) : Notice :=
  let announce (status : JobStatus) (event : JobEventType) (result : Option Dict)
      (reason : Reason) : Notice :=
    ⟨job.userId, (target job).1, (target job).2, event,
      ⟨job.id, job.type, status, event, result, reason.1, reason.2⟩⟩
  match verdict with
  | .succeeded result => announce .succeeded .succeeded result (none, none)
  | .failed reason => announce .failed .failed none reason
  | .cancelled => announce .cancelled .cancelled none (none, none)
  | .expired => announce .expired .expired none
      (some ExpiryService.expiredCode, some ExpiryService.expiredMessage)

/-- The notices that are due for a job. -/
def Job.notices (job : Job) : List Notice := (job.verdict.map job.notice).toList

/-- The outbox holds what is due for the job. -/
def Noticed (r : JobRecord) : Prop :=
  r.notifications.map NotificationOutbox.notice = (r.row.map Job.notices).getD []

section Noticed

variable {r r' : JobRecord} {job job' : Job}

lemma notices_of_active (hactive : ¬ job.status.isTerminal) : job.notices = [] := by
  rw [Job.notices, verdict_eq_none.mpr hactive]
  rfl

lemma notices_of_announcements
    (h : r'.notifications.map announcement = r.notifications.map announcement) :
    r'.notifications.map NotificationOutbox.notice = r.notifications.map NotificationOutbox.notice
    := by
  have hnotices := congrArg (List.map fun a : Announcement =>
    (⟨a.userId, a.channel, a.destination, a.eventType, a.payload⟩ : Notice)) h
  rwa [List.map_map, List.map_map] at hnotices

lemma Noticed.of_row (h : Noticed r) (hrow : r'.row = r.row)
    (hsame : r'.notifications.map announcement = r.notifications.map announcement) :
    Noticed r' := by
  rw [Noticed, hrow, notices_of_announcements hsame]
  exact h

/-- A job that was active and still is has no notice. -/
lemma Noticed.of_active (h : Noticed r) (hrow : r.row = some job)
    (hactive : ¬ job.status.isTerminal) (hrow' : r'.row = some job')
    (hactive' : ¬ job'.status.isTerminal) (hsame : r'.notifications = r.notifications) :
    Noticed r' := by
  rw [Noticed, hrow, Option.map_some, Option.getD_some, notices_of_active hactive] at h
  rw [Noticed, hrow', Option.map_some, Option.getD_some, notices_of_active hactive', hsame]
  exact h

/-- The notice of a job that ends is the first. -/
lemma Noticed.of_ended {n : NotificationOutbox} (h : Noticed r) (hrow : r.row = some job)
    (hactive : ¬ job.status.isTerminal) (hrow' : r'.row = some job')
    (hsame : r'.notifications = r.notifications) (hdue : job'.notices = [n.notice]) :
    Noticed (r'.enqueue n) := by
  rw [Noticed, hrow, Option.map_some, Option.getD_some, notices_of_active hactive,
    List.map_eq_nil_iff, ← hsame] at h
  rw [Noticed, JobRecord.enqueue_row, hrow', Option.map_some, Option.getD_some, hdue,
    JobRecord.enqueue_notifications h]
  rfl

lemma Noticed.updateRow {u : JobUpdate} (h : Noticed r)
    (hguard : ∀ job, u.guard job → ¬ job.status.isTerminal ∧ ¬ (u.values job).status.isTerminal) :
    Noticed (r.updateRow u) := by
  rcases updateRow_cases (r := r) u with hsame | ⟨job, hrow, hmatched, hvalues⟩
  · exact h.of_row hsame rfl
  · obtain ⟨hactive, hactive'⟩ := hguard job hmatched
    exact h.of_active hrow hactive hvalues hactive' rfl

end Noticed

section Step

variable {s : System settings.workerConcurrency} {j : UUID}
  {l : Label settings.workerConcurrency} {life' : Life settings.workerConcurrency}

lemma noticed_of_jobStep (h : JobStep s j l life') (hnoticed : Noticed (s.db.record j)) :
    Noticed life'.record := by
  cases h with
  | idle | tick | heartbeatFailed | decided | superseded | left =>
      exact hnoticed.of_row rfl rfl
  | notified r hsame =>
      refine hnoticed.of_row ?_ hsame.2
      change r.row = (s.db.record j).row
      rw [hsame.1]
  | created tx' args now' hlimit hrow =>
      rw [Noticed, hrow] at hnoticed
      exact hnoticed
  | heartbeat e he =>
      refine hnoticed.updateRow fun job hguard => ?_
      rw [show (JobUpdate.values _ job).status = job.status from rfl,
        (JobRepository.heartbeat_guard.mp hguard).2]
      decide
  | progressed e he hstage =>
      refine hnoticed.updateRow fun job hguard => ?_
      rw [show (JobUpdate.values _ job).status = job.status from rfl]
      rcases (JobRepository.updateProgress_guard.mp hguard).2 with h | h <;> rw [h] <;> decide
  | redelivered t =>
      refine hnoticed.updateRow fun job hguard => ?_
      rw [show (JobUpdate.values _ job).status = job.status from rfl,
        JobRepository.markRedispatched_guard.mp hguard]
      decide
  | cancelRequested job hlock hrow hstatus =>
      exact hnoticed.of_active hrow (by rw [hstatus]; decide) rfl
        (show ¬ JobStatus.cancelling.isTerminal by decide) rfl
  | cancelled job hrow hstatus =>
      have hactive : ∀ status ∈ JobRepository.inactiveCancellable, ¬ status.isTerminal := by
        decide
      exact hnoticed.of_ended hrow (hactive _ hstatus) rfl rfl rfl
  | claimed job hworker hrow hguard =>
      have hactive : ¬ job.status.isTerminal := by
        rcases (JobRepository.claimForExecution_guard.mp hguard).1 with h | h <;> rw [h] <;> decide
      exact hnoticed.of_active hrow hactive rfl
        (show ¬ JobStatus.running.isTerminal by decide) rfl
  | @finalized c tx now e outcome job he hstage hrow hguard =>
      have hactive : ¬ job.status.isTerminal := by
        rcases (held_of_finalizer hguard).2 with h | h <;> rw [h] <;> decide
      cases outcome with
      | retry =>
          exact hnoticed.of_active hrow hactive rfl
            (show ¬ JobStatus.retrying.isTerminal by decide) rfl
      | succeeded | failed | cancelled => exact hnoticed.of_ended hrow hactive rfl rfl rfl
  | @dispatched _ _ _ now row job hclaimed hjob hrow =>
      have hupdated : Noticed ((s.db.record j).updateRow (JobRepository.markQueued now)) := by
        refine hnoticed.updateRow fun job hguard => ?_
        rw [JobRepository.markQueued_guard.mp hguard]
        exact ⟨by decide, (show ¬ JobStatus.queued.isTerminal by decide)⟩
      refine hupdated.of_row ?_ rfl
      rw [JobRecord.updateRow, hrow]
      rfl
  | promoted job hrow hstatus | requeued job hrow hstatus =>
      exact hnoticed.of_active hrow (by rw [hstatus]; decide) rfl
        (show ¬ JobStatus.queued.isTerminal by decide) rfl
  | leaseFailed job hrow hstatus =>
      exact hnoticed.of_ended hrow (by rw [hstatus]; decide) rfl rfl rfl
  | expired job hrow hstatus =>
      have hactive : ∀ status ∈ JobRepository.expirable, ¬ status.isTerminal := by decide
      exact hnoticed.of_ended hrow (hactive _ hstatus) rfl rfl rfl

lemma noticed_of_reachable
    {C : System settings.workerConcurrency → Label settings.workerConcurrency → Prop}
    (h : (orchestrator settings).Reachable C s) (j : UUID) : Noticed (s.db.record j) :=
  life_invariant (I := fun life => Noticed life.record) (fun _ _ => rfl)
    (fun _ _ _ _ _ _ hstep => noticed_of_jobStep hstep) h j

/-- **The outbox says what the ledger says.**  In every reachable state the notifications of a job,
as far as no delivery writes them, are the ones its verdict calls for: none while it has none, and
then one, for the user and the address that were submitted, with the result or the reason that its
row holds. -/
theorem notices_of_ledger (h : (orchestrator settings).Reachable Always s) (j : UUID) :
    (s.db.notificationOutbox.children NotificationOutbox.jobId j).map NotificationOutbox.notice =
      ((s.db.jobs.get? j).map Job.notices).getD [] :=
  noticed_of_reachable h j

/-- A job whose only attempt failed. -/
theorem notices_of_ledger_failed :
    ∃ (s : System 4) (job : Job), s.db.jobs.get? Scenario.jobId = some job ∧
      job.status = .failed ∧
      (s.db.notificationOutbox.children NotificationOutbox.jobId Scenario.jobId).map
        NotificationOutbox.notice = [job.notice (.failed (job.errorCode, job.errorMessage))] := by
  obtain ⟨s, hsteps, hs⟩ := exists_of_run (T := orchestrator {}) (System.start 4 0)
    (Scenario.submitted 1 ++ Scenario.dispatched ++ Scenario.claim Scenario.first 3 0 ++
      [.worker Scenario.first (.handlerRaises (.retryable "TRANSIENT_FAILURE" "failed")),
        .worker Scenario.first .readCancellation, Scenario.finalize Scenario.first 4 0])
    (fun s => s.status Scenario.jobId = some .failed) (by decide +kernel)
  obtain ⟨job, hrow, hstatus⟩ := Option.map_eq_some_iff.mp (of_decide_eq_true hs)
  have hnotices := notices_of_ledger ⟨_, ⟨0, rfl⟩, hsteps⟩ Scenario.jobId
  have hverdict : job.verdict = some (.failed (job.errorCode, job.errorMessage)) := by
    rw [Job.verdict, hstatus]
  rw [hrow, Option.map_some, Option.getD_some, Job.notices, hverdict] at hnotices
  exact ⟨s, job, hrow, hstatus, hnotices⟩

end Step

end JobOrchestrator
