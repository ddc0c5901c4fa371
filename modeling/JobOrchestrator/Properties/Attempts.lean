import JobOrchestrator.Properties.Transitions

/-!
# Attempts and leases

`locked_by` names a worker process, not an attempt, and the coroutines of a process share its
id.  So the guard `locked_by = :worker_id` identifies an attempt only as long as no coroutine
claims a job that another coroutine of its process still executes.  Under that condition
stale attempts are fenced off; without it they write the row of a newer attempt, and a
stale retry can put a job without attempts left back into circulation.
-/

namespace JobOrchestrator

open ExecutionService SubmissionService CancellationService TransitionSystem

variable {settings : Settings}

/-! ## Who holds the lease -/

/-- Every execution knows an attempt number that was reached, and as long as that attempt is
the current one of an active job, its worker holds the lease. -/
def LeaseSound {concurrency : ℕ} (life : Life concurrency) : Prop :=
  ∀ c e, life.executions c = some e → ∃ job, life.record.row = some job ∧
    e.attemptNumber ≤ job.attempts ∧
    ((job.status = .running ∨ job.status = .cancelling) → job.attempts = e.attemptNumber →
      job.lockedBy = some c.workerId)

section Step

variable {s : System settings.workerConcurrency} {j : UUID}
  {l : Label settings.workerConcurrency} {life' : Life settings.workerConcurrency}

/-- Only the claim counts an attempt, and a statement that leaves a job active without
counting keeps its lock. -/
lemma lock_of_issues {u : JobUpdate} (h : Issues s j l u) {job : Job} (hguard : u.guard job) :
    (∃ c tx now, l = .worker c (.claim tx now) ∧ s.workers c = .delivered j ∧
      (u.values job).attempts = job.attempts + 1 ∧
      (u.values job).lockedBy = some c.workerId) ∨
    ((u.values job).attempts = job.attempts ∧
      ((u.values job).lockedBy = job.lockedBy ∨ (u.values job).lockedBy = none) ∧
      (((u.values job).status = .running ∨ (u.values job).status = .cancelling) →
        (job.status = .running ∨ job.status = .cancelling) ∧
          (u.values job).lockedBy = job.lockedBy)) := by
  cases h with
  | claimForExecution hworker => exact Or.inl ⟨_, _, _, rfl, hworker, rfl, rfl⟩
  | requestRunningCancellation =>
      have hstatus := JobRepository.requestRunningCancellation_guard.mp hguard
      exact Or.inr ⟨rfl, Or.inl rfl, fun _ => ⟨Or.inl hstatus, rfl⟩⟩
  | heartbeat | updateProgress | markRedispatched =>
      exact Or.inr ⟨rfl, Or.inl rfl, fun hactive => ⟨hactive, rfl⟩⟩
  | cancelInactive | markQueued | moveRetryToQueued | expire =>
      exact Or.inr ⟨rfl, Or.inl rfl, fun hactive => by rcases hactive with h | h <;> cases h⟩
  | failExpiredLease | requeueExpiredLease =>
      exact Or.inr ⟨rfl, Or.inr rfl, fun hactive => by rcases hactive with h | h <;> cases h⟩
  | finalize e outcome he hstage =>
      cases outcome <;>
        exact Or.inr ⟨rfl, Or.inr rfl, fun hactive => by rcases hactive with h | h <;> cases h⟩

/-- An execution found after a step is new, or it stands for an attempt it stood for before. -/
lemma executions_of_jobStep (h : JobStep s j l life') {c : Coroutine settings.workerConcurrency}
    {e' : Execution} (he' : life'.executions c = some e') :
    (∃ e, (s.life j).executions c = some e ∧ e.attemptNumber = e'.attemptNumber) ∨
    ∃ tx now job, (s.db.record j).row = some job ∧ e'.attemptNumber = job.attempts + 1 ∧
      life'.record.row = some ((JobRepository.claimForExecution c.workerId
        settings.workerLeaseSeconds now).values job) ∧ l = .worker c (.claim tx now) := by
  cases execution_of_jobStep h he' with
  | kept _ he => exact Or.inl ⟨e', he, rfl⟩
  | heartbeatFailed e he | decided e _ he | finalized e _ _ _ _ he | superseded e _ _ he =>
      exact Or.inl ⟨e, he, rfl⟩
  | started tx now job hl hrow hrecord =>
      refine Or.inr ⟨tx, now, job, hrow, rfl, ?_, hl⟩
      rw [hrecord]
      rfl

lemma leaseSound_of_jobStep (hsound : LeaseSound (s.life j)) (h : JobStep s j l life') :
    LeaseSound life' := by
  intro c e' he'
  rcases executions_of_jobStep h he' with
    ⟨e, he, hnumber⟩ | ⟨tx, now, job, -, hnumber, hrow', -⟩
  · obtain ⟨job, hrow, hle, hholds⟩ := hsound c e he
    rw [hnumber] at hle hholds
    rcases row_of_jobStep_of_row h hrow with hsame | ⟨u, hu, hguard, hvalues⟩
    · exact ⟨job, hsame, hle, hholds⟩
    · refine ⟨u.values job, hvalues, ?_⟩
      rcases lock_of_issues hu hguard with ⟨_, _, _, -, -, hattempts, -⟩ | ⟨hattempts, -, hlock⟩
      · -- the step counted a newer attempt
        exact ⟨by omega, fun _ heq => by omega⟩
      · refine ⟨hattempts ▸ hle, fun hactive heq => ?_⟩
        obtain ⟨hactive, hlocked⟩ := hlock hactive
        rw [hlocked]
        exact hholds hactive (hattempts ▸ heq)
  · exact ⟨_, hrow', hnumber.le, fun _ _ => rfl⟩

end Step

theorem leaseSound_of_reachable {s : System settings.workerConcurrency}
    {C : System settings.workerConcurrency → Label settings.workerConcurrency → Prop}
    (h : (orchestrator settings).Reachable C s) (j : UUID) : LeaseSound (s.life j) :=
  life_invariant (I := LeaseSound) (fun _ _ _ _ he => by cases he)
    (fun _ _ _ _ _ _ hstep hsound => leaseSound_of_jobStep hsound hstep) h j

/-! ## Fencing -/

/-- The step is no claim of a job that another coroutine of the same worker executes. -/
def claimsExclusively {concurrency : ℕ} (s : System concurrency) : Label concurrency → Bool
  | .worker c (.claim _ _) =>
      match s.workers c with
      | .delivered jobId =>
          decide (∀ slot : Fin concurrency, ((s.workers ⟨c.workerId, slot⟩).on jobId).isNone)
      | _ => true
  | _ => true

/-- The lock of a job names the worker of an execution only for the current attempt. -/
def Fenced {concurrency : ℕ} (life : Life concurrency) : Prop :=
  ∀ c e job, life.executions c = some e → life.record.row = some job →
    job.lockedBy = some c.workerId → job.attempts = e.attemptNumber

section Fencing

variable {s : System settings.workerConcurrency} {j : UUID}
  {l : Label settings.workerConcurrency} {life' : Life settings.workerConcurrency}

lemma fenced_of_jobStep (hlease : LeaseSound (s.life j)) (hclaims : claimsExclusively s l)
    (hfenced : Fenced (s.life j)) (h : JobStep s j l life') : Fenced life' := by
  intro c e' job' he' hrow' hlocked'
  rcases executions_of_jobStep h he' with ⟨e, he, hnumber⟩ | ⟨_, _, job, -, hnumber, hnew, -⟩
  · obtain ⟨job, hrow, -, -⟩ := hlease c e he
    rcases row_of_jobStep_of_row h hrow with hsame | ⟨u, hu, hguard, hvalues⟩
    · obtain rfl := Option.some.inj (hsame.symm.trans hrow')
      rw [← hnumber]
      exact hfenced c e job he hrow hlocked'
    · obtain rfl := Option.some.inj (hvalues.symm.trans hrow')
      rcases lock_of_issues hu hguard with
        ⟨d, tx, now, rfl, hworker, -, hlocked⟩ | ⟨hattempts, hlocked | hlocked, -⟩
      · -- `d` claims the job while `c`, of the same worker, executes it
        have hsame : d.workerId = c.workerId :=
          Option.some.inj (hlocked.symm.trans hlocked')
        simp only [claimsExclusively, hworker, decide_eq_true_eq] at hclaims
        have hnone := hclaims c.slot
        rw [hsame] at hnone
        have hbusy : (s.workers c).on j = some e := he
        rw [hbusy] at hnone
        cases hnone
      · rw [hattempts, ← hnumber]
        exact hfenced c e job he hrow (hlocked ▸ hlocked')
      · rw [hlocked] at hlocked'
        cases hlocked'
  · obtain rfl := Option.some.inj (hnew.symm.trans hrow')
    exact hnumber.symm

theorem fenced_of_reachable
    (h : (orchestrator settings).Reachable (fun s l => claimsExclusively s l) s) (j : UUID) :
    Fenced (s.life j) :=
  life_invariant (I := Fenced) (fun _ _ _ _ _ he => by cases he)
    (fun _ _ _ j hreach hclaims hstep hfenced =>
      fenced_of_jobStep (leaseSound_of_reachable hreach j) hclaims hfenced hstep) h j

/-- A statement that an execution issues matches only a row its worker has locked. -/
lemma lockedBy_of_issues {u : JobUpdate} {c : Coroutine settings.workerConcurrency}
    {action : WorkerAction} {e : Execution} {job : Job} (he : s.workers c = .executing e)
    (h : Issues s j (.worker c action) u) (hguard : u.guard job) :
    job.lockedBy = some c.workerId := by
  cases h with
  | claimForExecution hworker => cases he.symm.trans hworker
  | heartbeat => exact (JobRepository.heartbeat_guard.mp hguard).1
  | updateProgress => exact (JobRepository.updateProgress_guard.mp hguard).1
  | finalize e outcome _ hstage => exact (held_of_finalizer hguard).1

/-- **Fencing.**  In a run in which no coroutine claims a job that another coroutine of its
worker executes, an attempt that is no longer the current one changes no column of the row
of its job, and its finalizing transaction is recorded as superseded. -/
theorem stale_attempt_fenced {s' : System settings.workerConcurrency}
    {c : Coroutine settings.workerConcurrency} {e : Execution} {action : WorkerAction} {job : Job}
    (h : (orchestrator settings).Reachable (fun s l => claimsExclusively s l) s)
    (he : s.workers c = .executing e)
    (hstep : (orchestrator settings).step s (.worker c action) = some s')
    (hrow : s.db.jobs.get? e.jobId = some job) (hstale : job.attempts ≠ e.attemptNumber) :
    s'.db.jobs.get? e.jobId = some job ∧
      ∀ tx now, action = .finalize tx now →
        ∃ a ∈ (s'.db.record e.jobId).attempts, a.id = e.attemptId ∧ a.status = .failed ∧
          a.errorCode = some "SUPERSEDED" ∧ a.completedAt = some now := by
  have hexecutes : (s.life e.jobId).executions c = some e :=
    (s.life_executions e.jobId).mpr ⟨he, rfl⟩
  have hunlocked : job.lockedBy ≠ some c.workerId := fun hlocked =>
    hstale (fenced_of_reachable h e.jobId c e job hexecutes hrow hlocked)
  constructor
  · rcases row_of_jobStep_of_row (jobStep_of_reachable h hstep e.jobId) hrow with
      hsame | ⟨u, hu, hguard, -⟩
    · exact hsame
    · exact absurd (lockedBy_of_issues he hu hguard) hunlocked
  · rintro tx now rfl
    obtain ⟨outcome, -, ⟨job₁, hrow₁, hguard, -⟩ | ⟨-, hrecord⟩⟩ :=
      step_finalize (linked_of_reachable h e.jobId) he hstep
    · obtain rfl := Option.some.inj (hrow.symm.trans hrow₁)
      exact absurd (held_of_finalizer hguard).1 hunlocked
    · obtain ⟨a, ha, hid⟩ := (linked_of_reachable h e.jobId).attempt_mem c e hexecutes
      rw [hrecord, Function.update_self]
      refine ⟨superseded now a, ?_, hid, rfl, rfl, rfl⟩
      refine List.mem_map.mpr ⟨a, ha, ?_⟩
      rw [if_pos hid]

/-- The first attempt of a job whose second one runs in another worker process. -/
theorem stale_attempt_fenced_other_worker :
    ∃ (s s' : System 4) (e : Execution) (job : Job), s.workers Scenario.first = .executing e ∧
      e.attemptNumber = 1 ∧ s.db.jobs.get? e.jobId = some job ∧ job.attempts = 2 ∧
      (orchestrator {}).step s (Scenario.finalize Scenario.first 5 61000000) = some s' ∧
      s'.db.jobs.get? e.jobId = some job ∧
      ∃ a ∈ (s'.db.record e.jobId).attempts, a.id = e.attemptId ∧ a.status = .failed ∧
        a.errorCode = some "SUPERSEDED" ∧ a.completedAt = some 61000000 := by
  obtain ⟨s, hsteps, hs⟩ := exists_of_runUnder (T := orchestrator {})
    (C := fun s l => claimsExclusively s l) (System.start 4 0)
    (Scenario.submitted 3 ++ Scenario.dispatched ++ Scenario.claim Scenario.first 3 0 ++
      Scenario.reaped ++ Scenario.claim Scenario.elsewhere 4 61000000 ++
      [.worker Scenario.first (.handlerReturns [])])
    (fun s =>
      (((s.workers Scenario.first).on Scenario.jobId).any fun e => e.attemptNumber = 1) &&
      ((s.db.jobs.get? Scenario.jobId).any fun job => job.attempts = 2) &&
      (s.step {} (Scenario.finalize Scenario.first 5 61000000)).isSome) (by decide +kernel)
  simp only [Bool.and_eq_true] at hs
  obtain ⟨⟨hfirst, hjob⟩, henabled⟩ := hs
  obtain ⟨e, he, hnumber⟩ := (Option.any_eq_true ..).mp hfirst
  obtain ⟨job, hrow, hattempts⟩ := (Option.any_eq_true ..).mp hjob
  obtain ⟨s', hs'⟩ := Option.isSome_iff_exists.mp henabled
  obtain ⟨he, hid⟩ := Consumer.on_eq_some.mp he
  have hnumber : e.attemptNumber = 1 := of_decide_eq_true hnumber
  have hattempts : job.attempts = 2 := of_decide_eq_true hattempts
  have hrow : s.db.jobs.get? e.jobId = some job := hid ▸ hrow
  have hs' : (orchestrator {}).step s (Scenario.finalize Scenario.first 5 61000000) = some s' :=
    hs'
  obtain ⟨hrow', hsuperseded⟩ := stale_attempt_fenced ⟨_, ⟨0, rfl⟩, hsteps⟩ he hs' hrow (by omega)
  exact ⟨s, s', e, job, he, hnumber, hrow, hattempts, hs', hrow', hsuperseded _ _ rfl⟩

/-- The first attempt of a job whose second one runs in the same worker process succeeds the
job. -/
theorem stale_attempt_finalizes :
    ∃ (s s' : System 4) (e : Execution), (orchestrator {}).Reachable Always s ∧
      s.workers Scenario.first = .executing e ∧ e.jobId = Scenario.jobId ∧
      e.attemptNumber = 1 ∧ (s.db.jobs.get? Scenario.jobId).map Job.attempts = some 2 ∧
      (orchestrator {}).step s (Scenario.finalize Scenario.first 5 61000000) = some s' ∧
      s.status Scenario.jobId = some .running ∧ s'.status Scenario.jobId = some .succeeded := by
  obtain ⟨s, hsteps, hs⟩ := exists_of_run (T := orchestrator {}) (System.start 4 0)
    (Scenario.submitted 3 ++ Scenario.dispatched ++ Scenario.claim Scenario.first 3 0 ++
      Scenario.reaped ++ Scenario.claim Scenario.second 4 61000000 ++
      [.worker Scenario.first (.handlerReturns [])])
    (fun s =>
      (((s.workers Scenario.first).on Scenario.jobId).any fun e => e.attemptNumber = 1) &&
      ((s.db.jobs.get? Scenario.jobId).map Job.attempts = some 2) &&
      (s.status Scenario.jobId = some .running) &&
      (s.step {} (Scenario.finalize Scenario.first 5 61000000)).any
        fun s' => s'.status Scenario.jobId = some .succeeded) (by decide +kernel)
  simp only [Bool.and_eq_true, decide_eq_true_eq] at hs
  obtain ⟨⟨⟨hfirst, hattempts⟩, hrunning⟩, hlast⟩ := hs
  obtain ⟨e, he, hnumber⟩ := (Option.any_eq_true ..).mp hfirst
  obtain ⟨he, hid⟩ := Consumer.on_eq_some.mp he
  obtain ⟨s', hs', hsucceeded⟩ := (Option.any_eq_true ..).mp hlast
  exact ⟨s, s', e, ⟨_, ⟨0, rfl⟩, hsteps⟩, he, hid, of_decide_eq_true hnumber, hattempts, hs',
    hrunning, of_decide_eq_true hsucceeded⟩

end Fencing

/-! ## The attempt cap -/

/-- The step schedules no retry of a job that has no attempt left. -/
def retriesWithinLimit {concurrency : ℕ} (s : System concurrency) : Label concurrency → Bool
  | .worker c (.finalize _ now) =>
      match s.workers c with
      | .executing e =>
          match e.stage with
          | .finalizing (.retry code message nextAttemptAt) =>
              (s.db.jobs.get? e.jobId).all fun job =>
                !(JobRepository.scheduleRetry c.workerId code message nextAttemptAt now).guard job ||
                  job.attempts < job.maxAttempts
          | _ => true
      | _ => true
  | _ => true

/-- The attempts of a job are within its limit, strictly so while it can be claimed. -/
def Capped {concurrency : ℕ} (life : Life concurrency) : Prop :=
  ∀ job, life.record.row = some job → job.attempts ≤ job.maxAttempts ∧
    ((job.status = .pending ∨ job.status = .queued ∨ job.status = .retrying) →
      job.attempts < job.maxAttempts)

section Cap

variable {s : System settings.workerConcurrency} {j : UUID}
  {l : Label settings.workerConcurrency} {life' : Life settings.workerConcurrency}

lemma capped_of_issues {u : JobUpdate} (h : Issues s j l u) {job : Job}
    (hrow : (s.db.record j).row = some job) (hguard : u.guard job)
    (hretries : retriesWithinLimit s l)
    (hle : job.attempts ≤ job.maxAttempts)
    (hlt : (job.status = .pending ∨ job.status = .queued ∨ job.status = .retrying) →
      job.attempts < job.maxAttempts) :
    (u.values job).attempts ≤ (u.values job).maxAttempts ∧
      (((u.values job).status = .pending ∨ (u.values job).status = .queued ∨
        (u.values job).status = .retrying) →
          (u.values job).attempts < (u.values job).maxAttempts) := by
  cases h with
  | claimForExecution hworker =>
      have hclaimable := (JobRepository.claimForExecution_guard.mp hguard).1
      have hleft : job.attempts < job.maxAttempts := hlt (Or.inr hclaimable)
      exact ⟨hleft, fun hstatus => by rcases hstatus with h | h | h <;> cases h⟩
  | heartbeat | updateProgress | markRedispatched => exact ⟨hle, hlt⟩
  | requestRunningCancellation | cancelInactive | failExpiredLease | expire =>
      exact ⟨hle, fun hstatus => by rcases hstatus with h | h | h <;> cases h⟩
  | markQueued => exact ⟨hle, fun _ => hlt (Or.inl (JobRepository.markQueued_guard.mp hguard))⟩
  | moveRetryToQueued =>
      have hstatus := JobRepository.moveRetryToQueued_guard.mp hguard
      exact ⟨hle, fun _ => hlt (Or.inr (Or.inr hstatus))⟩
  | requeueExpiredLease hleft => exact ⟨hle, fun _ => hleft job hrow⟩
  | finalize e outcome he hstage =>
      cases outcome with
      | succeeded | failed | cancelled =>
          exact ⟨hle, fun hstatus => by rcases hstatus with h | h | h <;> cases h⟩
      | retry code message nextAttemptAt =>
          refine ⟨hle, fun _ => ?_⟩
          change job.attempts < job.maxAttempts
          obtain ⟨hworker, rfl⟩ := (s.life_executions j).mp he
          have hrow : s.db.jobs.get? e.jobId = some job := hrow
          have hguard : (JobRepository.scheduleRetry _ code message nextAttemptAt _).guard job :=
            hguard
          simpa only [retriesWithinLimit, hworker, hstage, hrow, Option.all_some, hguard,
            Bool.not_true, Bool.false_or, decide_eq_true_eq] using hretries

lemma capped_of_jobStep (hretries : retriesWithinLimit s l) (hcapped : Capped (s.life j))
    (h : JobStep s j l life') : Capped life' := by
  refine row_rule h (fun args now hlimit => ?_) (fun u job hu hrow hguard hbefore => ?_) hcapped
  · exact ⟨Nat.zero_le _, fun _ => hlimit⟩
  · exact capped_of_issues hu hrow hguard hretries hbefore.1 hbefore.2

/-- A job has one attempt row for every attempt it counts. -/
def Counted {concurrency : ℕ} (life : Life concurrency) : Prop :=
  ∀ job, life.record.row = some job → life.record.attempts.length = job.attempts

/-- The attempt rows of a job carry the numbers of the attempts it counts, in their order. -/
def Numbered {concurrency : ℕ} (life : Life concurrency) : Prop :=
  ∀ job, life.record.row = some job →
    life.record.attempts.map JobAttempt.attemptNumber = List.range' 1 job.attempts

/-- A claim that changes the row adds the attempt row that goes with it. -/
lemma claimed_of_row_ne {c : Coroutine settings.workerConcurrency} {tx : Tx} {now : Time}
    (h : JobStep s j (.worker c (.claim tx now)) life')
    (hne : life'.record.row ≠ (s.db.record j).row) :
    life'.record.attempts.length = (s.db.record j).attempts.length + 1 := by
  cases h with
  | claimed => exact List.length_append
  | idle | decided | left => exact absurd rfl hne

lemma numbered_of_jobStep (hlinked : Linked (s.life j)) (hnumbered : Numbered (s.life j))
    (h : JobStep s j l life') : Numbered life' := by
  have hnumbers : ∀ attempts : List JobAttempt,
      attempts.map JobAttempt.attemptNumber = (attempts.map identity).map Prod.snd := by
    intro attempts
    rw [List.map_map]
    rfl
  intro job' hrow'
  rcases attempts_of_jobStep h with hsame | ⟨c, tx, now, job, -, -, hrow, -, hrecord, hmore⟩
  · rw [hnumbers, hsame, ← hnumbers]
    rcases row_of_jobStep h with
      hrows | ⟨_, _, _, hnone, hcreated⟩ | ⟨u, job, hu, hrow, hguard, hvalues⟩
    · exact hnumbered job' (hrows ▸ hrow')
    · obtain rfl := Option.some.inj (hcreated.symm.trans hrow')
      have hempty : s.db.record j = JobRecord.empty := hlinked.fresh hnone
      rw [hempty]
      rfl
    · obtain rfl := Option.some.inj (hvalues.symm.trans hrow')
      rcases lock_of_issues hu hguard with ⟨c, tx, now, rfl, -, hattempts, -⟩ | ⟨hattempts, -⟩
      · -- a claim that counts an attempt also adds its row
        have hne : life'.record.row ≠ (s.db.record j).row := by
          rw [hvalues, hrow]
          intro heq
          have := congrArg Job.attempts (Option.some.inj heq)
          omega
        have hlength : life'.record.attempts.length = (s.db.record j).attempts.length := by
          simpa using congrArg List.length hsame
        have := claimed_of_row_ne h hne
        omega
      · rw [hattempts]
        exact hnumbered job hrow
  · have hbefore : (s.db.record j).attempts.map JobAttempt.attemptNumber =
        List.range' 1 job.attempts := hnumbered job hrow
    rw [hrecord] at hrow'
    obtain rfl := Option.some.inj hrow'
    rw [hnumbers, hmore, List.map_append, ← hnumbers, hbefore]
    change _ ++ [job.attempts + 1] = List.range' 1 (job.attempts + 1)
    rw [List.range'_1_concat, Nat.add_comm 1]

theorem numbered_of_reachable
    {C : System settings.workerConcurrency → Label settings.workerConcurrency → Prop}
    (h : (orchestrator settings).Reachable C s) (j : UUID) : Numbered (s.life j) :=
  life_invariant (I := Numbered) (fun _ _ _ hrow => by cases hrow)
    (fun _ _ _ j hreach _ hstep hnumbered =>
      numbered_of_jobStep (linked_of_reachable hreach j) hnumbered hstep) h j

lemma counted_of_reachable
    {C : System settings.workerConcurrency → Label settings.workerConcurrency → Prop}
    (h : (orchestrator settings).Reachable C s) (j : UUID) : Counted (s.life j) := by
  intro job hrow
  have hlength := congrArg List.length (numbered_of_reachable h j job hrow)
  simpa using hlength

/-- **The attempt cap.**  In a run that schedules no retry of a job without attempts left,
every job stays within its limit, and with it the number of handler starts. -/
theorem attempts_le_maxAttempts {job : Job}
    (h : (orchestrator settings).Reachable (fun s l => retriesWithinLimit s l) s)
    (hrow : s.db.jobs.get? j = some job) :
    job.attempts ≤ job.maxAttempts ∧ (s.db.record j).attempts.length ≤ job.maxAttempts := by
  have hcapped : Capped (s.life j) :=
    life_invariant (I := Capped) (fun _ _ _ hrow => by cases hrow)
      (fun _ _ _ _ _ hretries hstep hcapped => capped_of_jobStep hretries hcapped hstep) h j
  have hle := (hcapped job hrow).1
  have hcount : (s.db.record j).attempts.length = job.attempts :=
    counted_of_reachable h j job hrow
  exact ⟨hle, hcount ▸ hle⟩

/-- A job with two attempts, the first of which is retried. -/
theorem attempts_le_maxAttempts_retry :
    ∃ (s : System 4) (job : Job), s.db.jobs.get? Scenario.jobId = some job ∧
      job.status = .retrying ∧ job.attempts ≤ job.maxAttempts ∧
      (s.db.record Scenario.jobId).attempts.length ≤ job.maxAttempts := by
  obtain ⟨s, hsteps, hs⟩ := exists_of_runUnder (T := orchestrator {})
    (C := fun s l => retriesWithinLimit s l) (System.start 4 0)
    (Scenario.submitted 2 ++ Scenario.dispatched ++ Scenario.claim Scenario.first 3 0 ++
      Scenario.backOff Scenario.first 0 ++ [Scenario.finalize Scenario.first 4 0])
    (fun s => s.status Scenario.jobId = some .retrying) (by decide +kernel)
  obtain ⟨job, hrow, hstatus⟩ := Option.map_eq_some_iff.mp (of_decide_eq_true hs)
  exact ⟨s, job, hrow, hstatus, attempts_le_maxAttempts ⟨_, ⟨0, rfl⟩, hsteps⟩ hrow⟩

/-- The stale first attempt retries a job whose second and last attempt is running, and a
third attempt starts. -/
theorem attempts_exceed_maxAttempts :
    ∃ (s : System 4) (job : Job), (orchestrator {}).Reachable Always s ∧
      s.db.jobs.get? Scenario.jobId = some job ∧ job.maxAttempts = 2 ∧ job.attempts = 3 := by
  obtain ⟨s, hsteps, hs⟩ := exists_of_run (T := orchestrator {}) (System.start 4 0)
    (Scenario.submitted 2 ++ Scenario.dispatched ++ Scenario.claim Scenario.first 3 0 ++
      Scenario.reaped ++ Scenario.claim Scenario.second 4 61000000 ++
      Scenario.backOff Scenario.first 61000000 ++
      [Scenario.finalize Scenario.first 5 61000000] ++ Scenario.promoted ++
      Scenario.claim Scenario.elsewhere 7 63000000)
    (fun s => (s.db.jobs.get? Scenario.jobId).any fun job =>
      job.maxAttempts = 2 && job.attempts = 3) (by decide +kernel)
  obtain ⟨job, hrow, hjob⟩ := (Option.any_eq_true ..).mp hs
  simp only [Bool.and_eq_true, decide_eq_true_eq] at hjob
  exact ⟨s, job, ⟨_, ⟨0, rfl⟩, hsteps⟩, hrow, hjob.1, hjob.2⟩

end Cap

end JobOrchestrator
