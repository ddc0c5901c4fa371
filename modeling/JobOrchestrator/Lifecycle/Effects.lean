import JobOrchestrator.Lifecycle.JobStep

/-!
# The effects of a step, part by part

What a `JobStep` does to the `jobs` row, to the attempt rows and to the executions of its
job.  An invariant that concerns one of these parts is proved from the theorem about that
part: `row_of_jobStep` names the statement that wrote the row, `attempts_of_jobStep` says when
an attempt row is added, `execution_of_jobStep` where an execution comes from.

`linked_of_reachable` closes the loop with the projection: every reachable state is linked, so
every step from it is a `JobStep` for every job.
-/

namespace JobOrchestrator

open ExecutionService SubmissionService CancellationService

variable {settings : Settings}

/-! ## The statements on `jobs` -/

/-- The `UPDATE`s of `jobs` that a step with label `l` can issue for the job `j`, with what the
issuer knows about the job beside the guard of the statement. -/
inductive Issues (s : System settings.workerConcurrency) (j : UUID) :
    Label settings.workerConcurrency → JobUpdate → Prop
  | requestRunningCancellation {tx userId reason now} (job)
      (hlock : JobRepository.lockForUser s.db j userId = some job) :
      Issues s j (.cancel tx j userId reason now)
        (JobRepository.requestRunningCancellation reason now)
  | cancelInactive {tx userId reason now} :
      Issues s j (.cancel tx j userId reason now) (JobRepository.cancelInactive reason now)
  | claimForExecution {c tx now} (hworker : s.workers c = .delivered j) :
      Issues s j (.worker c (.claim tx now))
        (JobRepository.claimForExecution c.workerId settings.workerLeaseSeconds now)
  | heartbeat {c now} (e) (he : (s.life j).executions c = some e) :
      Issues s j (.worker c (.heartbeat now))
        (JobRepository.heartbeat c.workerId settings.workerLeaseSeconds now)
  | updateProgress {c progress now} (e) (he : (s.life j).executions c = some e)
      (hstage : e.stage = .handler) :
      Issues s j (.worker c (.reportProgress progress now))
        (JobRepository.updateProgress c.workerId progress settings.workerLeaseSeconds now)
  | finalize {c tx now} (e outcome) (he : (s.life j).executions c = some e)
      (hstage : e.stage = .finalizing outcome) :
      Issues s j (.worker c (.finalize tx now)) (outcome.finalizer.update c.workerId now)
  | markQueued {tx locked batchSize now} :
      Issues s j (.sweep .dispatchPending tx locked batchSize now) (JobRepository.markQueued now)
  | moveRetryToQueued {tx locked batchSize now}
      (hdue : ∀ job, (s.db.record j).row = some job →
        ∃ t, job.nextAttemptAt = some t ∧ t ≤ now) (hnow : now ≤ s.clock) :
      Issues s j (.sweep .promoteDue tx locked batchSize now)
        (JobRepository.moveRetryToQueued now)
  | failExpiredLease {tx locked batchSize now} :
      Issues s j (.sweep .reapExpired tx locked batchSize now)
        (JobRepository.failExpiredLease LeaseService.leaseExpiredCode
          LeaseService.leaseExpiredMessage now true)
  | requeueExpiredLease {tx locked batchSize now}
      (hleft : ∀ job, (s.db.record j).row = some job → job.attempts < job.maxAttempts) :
      Issues s j (.sweep .reapExpired tx locked batchSize now)
        (JobRepository.requeueExpiredLease now)
  | markRedispatched {stamp tx locked batchSize now} (t) :
      Issues s j (.sweep (.redeliverStuck stamp) tx locked batchSize now)
        (JobRepository.markRedispatched t)
  | expire {tx locked batchSize now} :
      Issues s j (.sweep .expireStale tx locked batchSize now) (JobRepository.expire now)

section Row

variable {s : System settings.workerConcurrency} {j : UUID}
  {l : Label settings.workerConcurrency} {life' : Life settings.workerConcurrency}

lemma updateRow_cases {r : JobRecord} (u : JobUpdate) :
    (r.updateRow u).row = r.row ∨
      ∃ job, r.row = some job ∧ u.guard job ∧ (r.updateRow u).row = some (u.values job) := by
  unfold JobRecord.updateRow
  cases hrow : r.row with
  | none => exact Or.inl rfl
  | some job =>
      by_cases hguard : u.guard job
      · exact Or.inr ⟨job, rfl, hguard, congrArg some (JobUpdate.apply_of_guard hguard)⟩
      · exact Or.inl (congrArg some (JobUpdate.apply_of_not_guard hguard))

/-- A step leaves the row of a job as it is, inserts it, or writes it by one of the statements
of the repository, whose guard the row meets. -/
theorem row_of_jobStep (h : JobStep s j l life') :
    life'.record.row = (s.db.record j).row ∨
    (∃ args now hlimit, (s.db.record j).row = none ∧
      life'.record.row = some (newJob settings args j now hlimit)) ∨
    ∃ u job, Issues s j l u ∧ (s.db.record j).row = some job ∧ u.guard job ∧
      life'.record.row = some (u.values job) := by
  have hissued : ∀ {u}, Issues s j l u → ((s.db.record j).updateRow u).row = life'.record.row →
      life'.record.row = (s.db.record j).row ∨
      (∃ args now hlimit, (s.db.record j).row = none ∧
        life'.record.row = some (newJob settings args j now hlimit)) ∨
      ∃ u job, Issues s j l u ∧ (s.db.record j).row = some job ∧ u.guard job ∧
        life'.record.row = some (u.values job) := by
    intro u hu heq
    rw [← heq]
    rcases updateRow_cases (r := s.db.record j) u with hsame | ⟨job, hrow, hguard, hvalues⟩
    · exact Or.inl hsame
    · exact Or.inr (Or.inr ⟨u, job, hu, hrow, hguard, hvalues⟩)
  cases h with
  | idle | tick | heartbeatFailed | decided | superseded | left => exact Or.inl rfl
  | notified r hsame =>
      rw [hsame.1]
      exact Or.inl rfl
  | created tx' args now' hlimit hrow => exact Or.inr (Or.inl ⟨args, now', hlimit, hrow, rfl⟩)
  | heartbeat e he => exact hissued (.heartbeat e he) rfl
  | progressed e he hstage => exact hissued (.updateProgress e he hstage) rfl
  | redelivered t => exact hissued (.markRedispatched t) rfl
  | dispatched row job hclaimed hjob hrow =>
      refine hissued .markQueued ?_
      rw [JobRecord.updateRow, hrow]
      rfl
  | cancelRequested job hlock hrow hstatus =>
      exact Or.inr (Or.inr ⟨_, job, .requestRunningCancellation job hlock, hrow,
        by simpa [JobRepository.requestRunningCancellation] using hstatus, rfl⟩)
  | cancelled job hrow hstatus =>
      exact Or.inr (Or.inr ⟨_, job, .cancelInactive, hrow,
        by simpa [JobRepository.cancelInactive] using hstatus, JobRecord.enqueue_row⟩)
  | claimed job hworker hrow hguard =>
      exact Or.inr (Or.inr ⟨_, job, .claimForExecution hworker, hrow, hguard, rfl⟩)
  | finalized e outcome job he hstage hrow hguard =>
      exact Or.inr (Or.inr ⟨_, job, .finalize e outcome he hstage, hrow, hguard, finalized_row⟩)
  | promoted job hrow hstatus hdue hnow =>
      refine Or.inr (Or.inr ⟨_, job, .moveRetryToQueued (fun job' hjob' => ?_) hnow, hrow,
        by simpa [JobRepository.moveRetryToQueued] using hstatus, rfl⟩)
      rwa [← Option.some.inj (hrow.symm.trans hjob')]
  | leaseFailed job hrow hstatus hexhausted =>
      exact Or.inr (Or.inr ⟨_, job, .failExpiredLease, hrow,
        by simpa [JobRepository.failExpiredLease] using hstatus, JobRecord.enqueue_row⟩)
  | requeued job hrow hstatus hleft =>
      refine Or.inr (Or.inr ⟨_, job, .requeueExpiredLease (fun job' hjob' => ?_), hrow,
        by simpa [JobRepository.requeueExpiredLease] using hstatus, rfl⟩)
      rwa [← Option.some.inj (hrow.symm.trans hjob')]
  | expired job hrow hstatus =>
      exact Or.inr (Or.inr ⟨_, job, .expire, hrow,
        by simpa [JobRepository.expire] using hstatus, JobRecord.enqueue_row⟩)

/-- A row that exists before a step stays as it is or is written by a statement that matches
it. -/
lemma row_of_jobStep_of_row (h : JobStep s j l life') {job : Job}
    (hrow : (s.db.record j).row = some job) :
    life'.record.row = some job ∨
      ∃ u, Issues s j l u ∧ u.guard job ∧ life'.record.row = some (u.values job) := by
  rcases row_of_jobStep h with hsame | ⟨_, _, _, hnone, _⟩ | ⟨u, job', hu, hrow', hguard, hvalues⟩
  · exact Or.inl (hsame.trans hrow)
  · cases hrow.symm.trans hnone
  · obtain rfl := Option.some.inj (hrow.symm.trans hrow')
    exact Or.inr ⟨u, hu, hguard, hvalues⟩

/-- **The row rule.**  A property of the row that new jobs have and that every statement
preserves when it matches is preserved by the step. -/
lemma row_rule {P : Job → Prop} (h : JobStep s j l life')
    (hcreated : ∀ args now hlimit, P (newJob settings args j now hlimit))
    (hupdated : ∀ u job, Issues s j l u → (s.db.record j).row = some job → u.guard job →
      P job → P (u.values job))
    (hbefore : ∀ job, (s.db.record j).row = some job → P job) :
    ∀ job', life'.record.row = some job' → P job' := by
  intro job' hrow'
  rcases row_of_jobStep h with
    hsame | ⟨args, now, hlimit, -, hnew⟩ | ⟨u, job, hu, hrow, hguard, hvalues⟩
  · exact hbefore job' (hsame.symm.trans hrow')
  · obtain rfl := Option.some.inj (hnew.symm.trans hrow')
    exact hcreated args now hlimit
  · obtain rfl := Option.some.inj (hvalues.symm.trans hrow')
    exact hupdated u job hu hrow hguard (hbefore job hrow)

end Row

/-! ## The rows hang together -/

section Linked

variable {s : System settings.workerConcurrency} {j : UUID}
  {l : Label settings.workerConcurrency} {life' : Life settings.workerConcurrency}

lemma linked_start (clock : Time) : Linked ((System.start settings.workerConcurrency clock).life j)
    where
  fresh _ := rfl
  outbox_le := Nat.zero_le 1
  attempt_mem _ _ h := by cases h

/-- The columns of an attempt row that no `UPDATE` writes. -/
def identity (a : JobAttempt) : UUID × ℕ := (a.id, a.attemptNumber)

lemma identity_mapAttempt {r : JobRecord} {id : UUID} {status : JobStatus} {now : Time}
    {errorCode errorMessage : Option String} :
    (r.attempts.map fun a => if a.id = id then
      JobAttemptRepository.finished status now errorCode errorMessage a else a).map identity =
        r.attempts.map identity := by
  rw [List.map_map]
  refine List.map_congr_left fun a _ => ?_
  by_cases ha : a.id = id <;> simp [ha, identity, JobAttemptRepository.finished]

/-- Only a claim that wins adds an attempt row, and no step removes one. -/
lemma attempts_of_jobStep (h : JobStep s j l life') :
    life'.record.attempts.map identity = (s.db.record j).attempts.map identity ∨
    ∃ c tx now job, l = .worker c (.claim tx now) ∧ s.workers c = .delivered j ∧
      (s.db.record j).row = some job ∧
      (JobRepository.claimForExecution c.workerId settings.workerLeaseSeconds now).guard job ∧
      life'.record = claimed settings tx c.workerId now job (s.db.record j) ∧
      life'.record.attempts.map identity =
        (s.db.record j).attempts.map identity ++ [(tx.attemptId, job.attempts + 1)] := by
  cases h with
  | claimed job hworker hrow hguard =>
      exact Or.inr ⟨_, _, _, job, rfl, hworker, hrow, hguard, rfl, List.map_append⟩
  | finalized e outcome job he hstage hrow hguard =>
      refine Or.inl ?_
      rw [finalized_attempts]
      exact identity_mapAttempt
  | superseded e outcome he hstage hmissed => exact Or.inl identity_mapAttempt
  | cancelled | leaseFailed | expired => exact Or.inl (congrArg _ JobRecord.enqueue_attempts)
  | notified r hsame =>
      rw [hsame.1]
      exact Or.inl rfl
  | idle | tick | created | cancelRequested | heartbeat | progressed | heartbeatFailed | decided
  | left | dispatched | promoted | requeued | redelivered => exact Or.inl rfl

/-- The number of outbox rows of a job is fixed when it is created. -/
lemma outbox_length_of_jobStep (h : JobStep s j l life') :
    life'.record.outbox.length = (s.db.record j).outbox.length ∨
      (s.db.record j).row = none ∧
        life'.record.outbox.length = (s.db.record j).outbox.length + 1 := by
  cases h with
  | created tx' args now' hlimit hrow => exact Or.inr ⟨hrow, List.length_append⟩
  | cancelled | leaseFailed | expired => exact Or.inl (congrArg _ JobRecord.enqueue_outbox)
  | finalized e outcome job he hstage hrow hguard => exact Or.inl (congrArg _ finalized_outbox)
  | dispatched row job hclaimed hjob hrow => exact Or.inl (List.length_map _)
  | notified r hsame =>
      rw [hsame.1]
      exact Or.inl rfl
  | idle | tick | cancelRequested | claimed | heartbeat | progressed | heartbeatFailed | decided
  | superseded | left | promoted | requeued | redelivered => exact Or.inl rfl

/-- The outbox rows of an existing job change only when it is dispatched. -/
lemma outbox_of_jobStep (h : JobStep s j l life') {job : Job}
    (hrow : (s.db.record j).row = some job) :
    life'.record.outbox = (s.db.record j).outbox ∨
      ∃ tx locked batchSize now row, l = .sweep .dispatchPending tx locked batchSize now ∧
        row ∈ DispatchOutboxRepository.claimPending s.db locked batchSize ∧ row.jobId = j ∧
        life'.record = DispatchService.dispatched tx now row job (s.db.record j) := by
  cases h with
  | idle | tick | cancelRequested | claimed | heartbeat | progressed | heartbeatFailed | decided
  | superseded | left | promoted | requeued | redelivered => exact Or.inl rfl
  | cancelled | leaseFailed | expired => exact Or.inl JobRecord.enqueue_outbox
  | finalized => exact Or.inl finalized_outbox
  | notified r hsame =>
      refine Or.inl ?_
      change r.outbox = (s.db.record j).outbox
      rw [hsame.1]
  | created _ _ _ _ hnone => cases hnone.symm.trans hrow
  | dispatched row job' hclaimed hjob hrow' =>
      obtain rfl := Option.some.inj (hrow.symm.trans hrow')
      exact Or.inr ⟨_, _, _, _, row, rfl, hclaimed, hjob, rfl⟩

/-- Where an execution found after a step comes from. -/
inductive ExecutionStep (s : System settings.workerConcurrency) (j : UUID)
    (l : Label settings.workerConcurrency) (life' : Life settings.workerConcurrency)
    (c : Coroutine settings.workerConcurrency) : Execution → Prop
  | kept (e) (he : (s.life j).executions c = some e) : ExecutionStep s j l life' c e
  | started (tx now job) (hl : l = .worker c (.claim tx now))
      (hrow : (s.db.record j).row = some job)
      (hrecord : life'.record = claimed settings tx c.workerId now job (s.db.record j)) :
      ExecutionStep s j l life' c
        (.start j ⟨job.attempts + 1, tx.attemptId, ⟨job.type, job.payload, job.maxAttempts⟩⟩)
  | heartbeatFailed (e) (he : (s.life j).executions c = some e)
      (hrecord : life'.record = s.db.record j) :
      ExecutionStep s j l life' c { e with heartbeatFailed := true }
  | decided (e stage) (he : (s.life j).executions c = some e)
      (hdecides : Decides (s.db.record j) e stage) (hrecord : life'.record = s.db.record j) :
      ExecutionStep s j l life' c { e with stage }
  | finalized (e outcome tx now job) (he : (s.life j).executions c = some e)
      (hstage : e.stage = .finalizing outcome) (hrow : (s.db.record j).row = some job)
      (hguard : (outcome.finalizer.update c.workerId now).guard job)
      (hrecord : life'.record =
        finalized tx c.workerId e.attemptId now outcome.finalizer job (s.db.record j)) :
      ExecutionStep s j l life' c { e with stage := Stage.afterFinalize true outcome }
  | superseded (e outcome now) (he : (s.life j).executions c = some e)
      (hstage : e.stage = .finalizing outcome)
      (hmissed : ∀ job, (s.db.record j).row = some job →
        ¬ (outcome.finalizer.update c.workerId now).guard job)
      (hrecord : life'.record = (s.db.record j).mapAttempt e.attemptId (superseded now)) :
      ExecutionStep s j l life' c { e with stage := Stage.afterFinalize false outcome }

lemma execution_of_jobStep (h : JobStep s j l life') {d : Coroutine settings.workerConcurrency}
    {e' : Execution} (he' : life'.executions d = some e') : ExecutionStep s j l life' d e' := by
  -- a step of the coroutine `c` replaces its execution and keeps the others
  have hreplaced : ∀ {c e₁}, life'.executions =
      Function.update (s.life j).executions c (some e₁) →
      (d = c → ExecutionStep s j l life' d e₁) → ExecutionStep s j l life' d e' := by
    intro c e₁ hexecutions hnew
    rw [hexecutions] at he'
    by_cases hd : d = c
    · subst hd
      rw [Function.update_self] at he'
      obtain rfl := Option.some.inj he'
      exact hnew rfl
    · rw [Function.update_of_ne hd] at he'
      exact .kept e' he'
  cases h with
  | claimed job hworker hrow hguard =>
      exact hreplaced rfl fun hd => by subst hd; exact .started _ _ job rfl hrow rfl
  | heartbeatFailed e he =>
      exact hreplaced rfl fun hd => by subst hd; exact .heartbeatFailed e he rfl
  | decided e stage he hdecides =>
      exact hreplaced rfl fun hd => by subst hd; exact .decided e stage he hdecides rfl
  | finalized e outcome job he hstage hrow hguard =>
      exact hreplaced rfl fun hd => by
        subst hd
        exact .finalized e outcome _ _ job he hstage hrow hguard rfl
  | superseded e outcome he hstage hmissed =>
      exact hreplaced rfl fun hd => by
        subst hd
        exact .superseded e outcome _ he hstage hmissed rfl
  | left gone =>
      dsimp only at he'
      split at he'
      · cases he'
      · exact .kept e' he'
  | idle | tick | created | cancelRequested | cancelled | heartbeat | progressed | dispatched
  | promoted | leaseFailed | requeued | redelivered | expired | notified => exact .kept e' he'

/-- A job without a row stays without any trace until it is created. -/
lemma record_of_row_none (hempty : s.db.record j = JobRecord.empty) (h : JobStep s j l life')
    (hrow' : life'.record.row = none) : life'.record = JobRecord.empty := by
  have hrow : (s.db.record j).row = none := by rw [hempty]; rfl
  cases h with
  | idle | tick | heartbeatFailed | decided | left => exact hempty
  | heartbeat | progressed | redelivered => rw [hempty]; rfl
  | superseded => rw [hempty]; rfl
  | notified r hsame =>
      obtain ⟨hr, hmap⟩ := hsame
      rw [hempty] at hr hmap
      rw [hr, List.map_eq_nil_iff.mp hmap]
      rfl
  | created => cases hrow'
  | cancelRequested job _ hjob | cancelled job hjob | claimed job _ hjob
  | finalized _ _ job _ _ hjob | dispatched _ job _ _ hjob | promoted job hjob
  | leaseFailed job hjob | requeued job hjob | expired job hjob =>
      rw [hrow] at hjob
      cases hjob

lemma linked_of_jobStep (hlinked : Linked (s.life j)) (h : JobStep s j l life') :
    Linked life' where
  fresh hrow' := by
    refine record_of_row_none (hlinked.fresh ?_) h hrow'
    rcases row_of_jobStep h with hsame | ⟨_, _, _, hcreated⟩ | ⟨_, _, _, _, _, hupdated⟩
    · exact hsame.symm.trans hrow'
    · cases hcreated.2.symm.trans hrow'
    · cases hupdated.symm.trans hrow'
  outbox_le := by
    rcases outbox_length_of_jobStep h with hlength | ⟨hrow, hlength⟩
    · rw [hlength]
      exact hlinked.outbox_le
    · have hempty : s.db.record j = JobRecord.empty := hlinked.fresh hrow
      rw [hlength, hempty]
      rfl
  attempt_mem c e' he' := by
    have hkeep : ∀ {id}, (∃ a ∈ (s.db.record j).attempts, a.id = id) →
        ∃ a ∈ life'.record.attempts, a.id = id := by
      rintro id ⟨a, ha, hid⟩
      have hmem : identity a ∈ life'.record.attempts.map identity := by
        rcases attempts_of_jobStep h with hsame | ⟨_, _, _, _, _, _, _, _, _, hmore⟩
        · rw [hsame]
          exact List.mem_map_of_mem ha
        · rw [hmore]
          exact List.mem_append_left _ (List.mem_map_of_mem ha)
      obtain ⟨a', ha', hidentity⟩ := List.mem_map.mp hmem
      exact ⟨a', ha', (congrArg Prod.fst hidentity).trans hid⟩
    cases execution_of_jobStep h he' with
    | started tx now job hl hrow hrecord =>
        rw [hrecord]
        exact ⟨_, List.mem_append_right _ (List.mem_singleton.mpr rfl), rfl⟩
    | kept _ he => exact hkeep (hlinked.attempt_mem c _ he)
    | heartbeatFailed e he | decided e _ he | finalized e _ _ _ _ he | superseded e _ _ he =>
        exact hkeep (hlinked.attempt_mem c e he)

/-! ## Runs -/

/-- Every reachable state is linked. -/
theorem linked_of_reachable
    {C : System settings.workerConcurrency → Label settings.workerConcurrency → Prop}
    (h : (orchestrator settings).Reachable C s) (j : UUID) : Linked (s.life j) := by
  refine TransitionSystem.Reachable.invariant (I := fun s => ∀ j, Linked (s.life j)) ?_ ?_ h j
  · rintro s ⟨clock, rfl⟩ j
    exact linked_start clock
  · intro s l s' _ _ hstep hlinked j
    exact linked_of_jobStep (hlinked j) (jobStep_of_step hlinked j hstep)

/-- What a step from a reachable state does to a job. -/
theorem jobStep_of_reachable
    {C : System settings.workerConcurrency → Label settings.workerConcurrency → Prop}
    {s' : System settings.workerConcurrency} (h : (orchestrator settings).Reachable C s)
    (hstep : (orchestrator settings).step s l = some s') (j : UUID) :
    JobStep s j l (s'.life j) :=
  jobStep_of_step (linked_of_reachable h) j hstep

/-- **The invariant rule for one job.**  A property of lives that holds of a job without a
trace and is preserved by every admitted `JobStep` holds of every job in every reachable
state. -/
theorem life_invariant {I : Life settings.workerConcurrency → Prop}
    {C : System settings.workerConcurrency → Label settings.workerConcurrency → Prop}
    (hstart : ∀ clock j, I ((System.start settings.workerConcurrency clock).life j))
    (hstep : ∀ s l life' j, (orchestrator settings).Reachable C s → C s l →
      JobStep s j l life' → I (s.life j) → I life')
    (h : (orchestrator settings).Reachable C s) (j : UUID) : I (s.life j) := by
  refine TransitionSystem.Reachable.invariant (I := fun s => ∀ j, I (s.life j)) ?_ ?_ h j
  · rintro s ⟨clock, rfl⟩ j
    exact hstart clock j
  · intro s l s' hreach hC hs hI j
    exact hstep s l _ j hreach hC (jobStep_of_reachable hreach hs j) (hI j)

/-- **The run rule for one job.**  What every admitted `JobStep` preserves, a run from a
reachable state preserves. -/
theorem life_preserved {I : Life settings.workerConcurrency → Prop}
    {C : System settings.workerConcurrency → Label settings.workerConcurrency → Prop}
    {t : System settings.workerConcurrency}
    (h : (orchestrator settings).Reachable TransitionSystem.Always s)
    (hstep : ∀ s l life', C s l → JobStep s j l life' → I (s.life j) → I life')
    (hsteps : (orchestrator settings).Steps C s t) (hs : I (s.life j)) : I (t.life j) := by
  refine h.preserves (I := fun s => I (s.life j)) (fun _ _ _ => trivial) ?_ hsteps hs
  intro s l s' hreach hC hl hI
  exact hstep s l _ hC (jobStep_of_reachable hreach hl j) hI

/-- A sweep runs its transaction and leaves the workers and the clock alone. -/
lemma step_sweep {kind : Sweep} {tx : Tx} {locked : List UUID} {batchSize : ℕ} {now : Time}
    {s' : System settings.workerConcurrency}
    (h : s.step settings (.sweep kind tx locked batchSize now) = some s') :
    now ≤ s.clock ∧ s'.workers = s.workers ∧
      ∃ pushes, kind.run settings s.db tx locked batchSize now = some (s'.db, pushes) := by
  cases systemStep_of_step h with
  | sweep _ _ _ _ _ db pushes htimely _ hrun =>
      exact ⟨System.le_clock_of_timely htimely, rfl, pushes, hrun⟩

/-- What the transaction of a sweep has collected waits to be sent. -/
lemma pushes_of_step {kind : Sweep} {tx : Tx} {locked : List UUID} {batchSize : ℕ} {now : Time}
    {s' : System settings.workerConcurrency}
    (h : s.step settings (.sweep kind tx locked batchSize now) = some s') :
    ∃ pushes, kind.run settings s.db tx locked batchSize now = some (s'.db, pushes) ∧
      s'.unpublished = s.unpublished ++ pushes := by
  cases systemStep_of_step h with
  | sweep _ _ _ _ _ db pushes _ _ hrun => exact ⟨pushes, hrun, rfl⟩

/-- A reap leaves every job alone that it does not select. -/
lemma record_of_not_reaped {tx : Tx} {locked : List UUID} {batchSize : ℕ} {now : Time}
    {s' : System settings.workerConcurrency}
    (h : s.step settings (.sweep .reapExpired tx locked batchSize now) = some s')
    (hj : j ∉ (JobRepository.findExpiredLeases s.db locked now batchSize).map Job.id) :
    s'.db.record j = s.db.record j := by
  obtain ⟨-, -, pushes, hrun⟩ := step_sweep h
  obtain ⟨t, ht, heq⟩ := Option.map_eq_some_iff.mp hrun
  obtain ⟨hdb, -⟩ := Prod.mk.inj heq
  rw [← hdb]
  exact (LeaseService.record_reapExpired ht).1 j hj

/-- An expiry sweep leaves every job alone that it does not select. -/
lemma record_of_not_expired {tx : Tx} {locked : List UUID} {batchSize : ℕ} {now : Time}
    {s' : System settings.workerConcurrency}
    (h : s.step settings (.sweep .expireStale tx locked batchSize now) = some s')
    (hj : j ∉ (JobRepository.findExpirable s.db locked
      (now - seconds settings.jobQueueMaxAgeSeconds) batchSize).map Job.id) :
    s'.db.record j = s.db.record j := by
  obtain ⟨-, -, pushes, hrun⟩ := step_sweep h
  obtain ⟨t, ht, heq⟩ := Option.map_eq_some_iff.mp hrun
  obtain ⟨hdb, -⟩ := Prod.mk.inj heq
  rw [← hdb]
  exact (ExpiryService.record_expireStale ht).1 j hj

lemma claim_of_step {c : Coroutine settings.workerConcurrency} {tx : Tx} {now : Time}
    {s' : System settings.workerConcurrency} {jobId : UUID}
    (hworker : s.workers c = .delivered jobId)
    (h : s.step settings (.worker c (.claim tx now)) = some s') :
    s.timely tx now ∧ ∃ db result,
      claim settings s.db tx c.workerId jobId now = some (db, result) ∧
      s' = { s with db }.become c
        (result.elim .idle fun claim => .executing (.start jobId claim)) := by
  have hstep : WorkerStep s c (.claim tx now) s' := workerStep_of_step h
  cases hstep with
  | claimed _ _ jobId' db result hdelivered htimely hclaim =>
      obtain rfl := Consumer.delivered.inj (hworker.symm.trans hdelivered)
      exact ⟨htimely, db, result, hclaim, rfl⟩
  | resumed _ _ _ _ hresumes => cases hresumes

/-- The claim of a delivered job: it wins when its guard matches the row. -/
lemma step_claim {c : Coroutine settings.workerConcurrency} {tx : Tx} {now : Time}
    {s' : System settings.workerConcurrency} {jobId : UUID} {job : Job}
    (hworker : s.workers c = .delivered jobId) (hrow : (s.db.record jobId).row = some job)
    (hguard : (JobRepository.claimForExecution c.workerId settings.workerLeaseSeconds
      now).guard job)
    (h : s.step settings (.worker c (.claim tx now)) = some s') :
    now ≤ s.clock ∧ s'.db.record =
      Function.update s.db.record jobId
        (claimed settings tx c.workerId now job (s.db.record jobId)) := by
  obtain ⟨htimely, db, result, hclaim, rfl⟩ := claim_of_step hworker h
  rcases claim_cases hclaim with ⟨-, -, hmissed⟩ | ⟨job', hrow', -, -, hrecord⟩
  · exact absurd hguard (hmissed job hrow)
  · obtain rfl := Option.some.inj (hrow.symm.trans hrow')
    exact ⟨System.le_clock_of_timely htimely, hrecord⟩

/-- A claim of a delivered job whose row its guard does not match changes nothing. -/
lemma step_claim_lost {c : Coroutine settings.workerConcurrency} {tx : Tx} {now : Time}
    {s' : System settings.workerConcurrency} {jobId : UUID}
    (hworker : s.workers c = .delivered jobId)
    (hmissed : ∀ job, (s.db.record jobId).row = some job →
      ¬ (JobRepository.claimForExecution c.workerId settings.workerLeaseSeconds now).guard job)
    (h : s.step settings (.worker c (.claim tx now)) = some s') :
    s'.workers c = .idle ∧ s'.db.record = s.db.record := by
  obtain ⟨-, db, result, hclaim, rfl⟩ := claim_of_step hworker h
  rcases claim_cases hclaim with ⟨rfl, hrecord, -⟩ | ⟨job, hrow, hguard, -, -⟩
  · exact ⟨Function.update_self .., hrecord⟩
  · exact absurd hguard (hmissed job hrow)

/-- The finalizing transaction of an execution ends its attempt when its guard matches the row,
and supersedes it when it does not. -/
lemma step_finalize {c : Coroutine settings.workerConcurrency} {tx : Tx} {now : Time}
    {s' : System settings.workerConcurrency} {e : Execution} (hlinked : Linked (s.life e.jobId))
    (he : s.workers c = .executing e)
    (h : s.step settings (.worker c (.finalize tx now)) = some s') :
    ∃ outcome, e.stage = .finalizing outcome ∧
      ((∃ job, (s.db.record e.jobId).row = some job ∧
        (outcome.finalizer.update c.workerId now).guard job ∧
        s'.db.record = Function.update s.db.record e.jobId
          (finalized tx c.workerId e.attemptId now outcome.finalizer job
            (s.db.record e.jobId))) ∨
      ((∀ job, (s.db.record e.jobId).row = some job →
        ¬ (outcome.finalizer.update c.workerId now).guard job) ∧
        s'.db.record = Function.update s.db.record e.jobId
          ((s.db.record e.jobId).mapAttempt e.attemptId (superseded now)))) := by
  have hstep : WorkerStep s c (.finalize tx now) s' := workerStep_of_step h
  cases hstep with
  | finalized e₁ outcome _ _ db hit he₁ hstage _ hfinalize =>
      obtain rfl := Consumer.executing.inj (he.symm.trans he₁)
      refine ⟨outcome, hstage, ?_⟩
      have hown := hlinked.attempt_mem c e ((s.life_executions e.jobId).mpr ⟨he, rfl⟩)
      rcases finalize_cases hfinalize hown with
        ⟨-, hmissed, hrecord⟩ | ⟨job, hrow, hguard, -, hrecord⟩
      · exact Or.inr ⟨hmissed, hrecord⟩
      · exact Or.inl ⟨job, hrow, hguard, hrecord⟩
  | resumed _ _ _ _ hresumes => cases hresumes

end Linked

end JobOrchestrator
