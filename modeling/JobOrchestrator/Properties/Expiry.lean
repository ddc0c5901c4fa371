import JobOrchestrator.Properties.Coherence
import JobOrchestrator.Properties.Timeline

/-!
# Expiry

`expire_stale` looks at the age and the status of a job, and at nothing else.  A job that was
put back to `QUEUED` after a lost lease or a retry is as old as it was, so it expires like one
that never started; and the event of an expired job names `EXPIRED` as its old status, because
it is read from the instance that the `UPDATE` has been mirrored into.
-/

namespace JobOrchestrator

open ExecutionService SubmissionService CancellationService TransitionSystem

variable {settings : Settings}

/-! ## The effect of one sweep -/

/-- The effect of an expiry sweep on the jobs it selects: they are `EXPIRED`, no other row of
`jobs` has changed, and each of them has one more notification and one more event, which names
`source job` as the old status. -/
structure ExpiryEffect (source : Job → JobStatus) (db : Database) (selected : List Job)
    (s : Swept) : Prop where
  returned : s.returned = selected.length
  moved : ∀ job ∈ selected, (s.db.jobs.get? job.id).map Job.status = some .expired
  others : ∀ i, i ∉ selected.map Job.id → s.db.jobs.get? i = db.jobs.get? i
  notified : ∀ job ∈ selected, ∃ n, n.eventType = .expired ∧
    (s.db.record job.id).notifications = (db.record job.id).notifications ++ [n]
  recorded : ∀ job ∈ selected, ∃ event, event.eventType = .expired ∧
    event.fromStatus = some (source job) ∧ event.toStatus = some .expired ∧
    (s.db.record job.id).events = (db.record job.id).events ++ [event]

section Effect

variable {db : Database} {tx : Tx} {locked : List UUID} {batchSize : ℕ} {now : Time} {s : Swept}

/-- The selected jobs expire, each in its own record. -/
lemma expired_of_expireStale
    (h : ExpiryService.expireStale settings db tx locked batchSize now = some s) {job : Job}
    (hjob : job ∈ JobRepository.findExpirable db locked
      (now - seconds settings.jobQueueMaxAgeSeconds) batchSize) :
    s.db.record job.id = ExpiryService.expired tx now job (db.record job.id) := by
  obtain ⟨hrow, hstatus, -⟩ := ExpiryService.row_of_findExpirable hjob
  rw [(ExpiryService.record_expireStale h).2 job hjob]
  exact ExpiryService.expireRecord_of_row hrow (by simpa [JobRepository.expirable] using hstatus)

/-- A sweep over jobs without a notification has its effect, except that the events name
`EXPIRED` as the old status too. -/
theorem expiryEffect_of_expireStale
    (h : ExpiryService.expireStale settings db tx locked batchSize now = some s)
    (hquiet : ∀ job ∈ JobRepository.findExpirable db locked
      (now - seconds settings.jobQueueMaxAgeSeconds) batchSize,
        (db.record job.id).notifications = []) :
    ExpiryEffect (fun _ => .expired) db (JobRepository.findExpirable db locked
      (now - seconds settings.jobQueueMaxAgeSeconds) batchSize) s where
  returned := ExpiryService.returned_expireStale h
  moved job hjob := by
    have hrow := congrArg JobRecord.row (expired_of_expireStale h hjob)
    rw [ExpiryService.expired, JobRecord.enqueue_row] at hrow
    exact congrArg (Option.map Job.status) hrow
  others i hi := congrArg JobRecord.row ((ExpiryService.record_expireStale h).1 i hi)
  notified job hjob := by
    refine ⟨NotificationService.terminalNotification tx ((JobRepository.expire now).values job)
      .expired .expired none (some ExpiryService.expiredCode) (some ExpiryService.expiredMessage)
      now, rfl, ?_⟩
    rw [expired_of_expireStale h hjob, hquiet job hjob]
    exact JobRecord.enqueue_notifications (hquiet job hjob)
  recorded job hjob := by
    refine ⟨JobEventRepository.event tx job.id .expired (some .expired) (some .expired) .none,
      rfl, rfl, rfl, ?_⟩
    rw [expired_of_expireStale h hjob, ExpiryService.expired, JobRecord.enqueue_events]

/-- The event of a selected job does not name the status the job had. -/
lemma not_recorded_of_mem
    (h : ExpiryService.expireStale settings db tx locked batchSize now = some s) {job : Job}
    (hjob : job ∈ JobRepository.findExpirable db locked
      (now - seconds settings.jobQueueMaxAgeSeconds) batchSize) :
    ¬ ExpiryEffect Job.status db (JobRepository.findExpirable db locked
      (now - seconds settings.jobQueueMaxAgeSeconds) batchSize) s := by
  intro heffect
  obtain ⟨event, -, hsource, -, hevents⟩ := heffect.recorded job hjob
  rw [expired_of_expireStale h hjob, ExpiryService.expired, JobRecord.enqueue_events] at hevents
  obtain rfl := List.singleton_inj.mp (List.append_cancel_left hevents)
  have hstatus : JobStatus.expired = job.status := Option.some.inj hsource
  obtain ⟨-, hwaiting, -⟩ := ExpiryService.row_of_findExpirable hjob
  rw [← hstatus] at hwaiting
  rcases hwaiting with hwaiting | hwaiting <;> cases hwaiting

/-- **The full effect fails for every selection but the empty one.**  Whatever the tables, the
clock and the batch size are, a sweep that records for each of its jobs the status it had is one
that finds no unlocked row, `PENDING` or `QUEUED`, that is older than the cutoff, or may select
none. -/
theorem expiry_full_effect_iff (db : Database) (tx : Tx) (locked : List UUID) (batchSize : ℕ)
    (now : Time) :
    (∃ s, ExpiryService.expireStale settings db tx locked batchSize now = some s ∧
      ExpiryEffect Job.status db (JobRepository.findExpirable db locked
        (now - seconds settings.jobQueueMaxAgeSeconds) batchSize) s) ↔
    batchSize = 0 ∨ ∀ job ∈ db.jobs.rows, job.id ∉ locked →
      (job.status = .pending ∨ job.status = .queued) →
        now - seconds settings.jobQueueMaxAgeSeconds ≤ job.createdAt := by
  have hempty : JobRepository.findExpirable db locked
      (now - seconds settings.jobQueueMaxAgeSeconds) batchSize = [] ↔
        batchSize = 0 ∨ ∀ job ∈ db.jobs.rows, job.id ∉ locked →
          (job.status = .pending ∨ job.status = .queued) →
            now - seconds settings.jobQueueMaxAgeSeconds ≤ job.createdAt := by
    rw [JobRepository.findExpirable, Table.select_eq_nil]
    simp only [JobRepository.expirable, Bool.and_eq_true, Bool.not_eq_true', decide_eq_true_eq,
      List.contains_eq_mem, decide_eq_false_iff_not, List.mem_cons, List.not_mem_nil, or_false,
      not_and, not_lt, and_imp]
  rw [← hempty]
  constructor
  · rintro ⟨s, hs, heffect⟩
    refine List.eq_nil_iff_forall_not_mem.mpr fun job hjob => ?_
    exact not_recorded_of_mem hs hjob heffect
  · intro hnone
    refine ⟨.start db, ?_, ?_⟩
    · rw [ExpiryService.expireStale, hnone]
      rfl
    · rw [hnone]
      have hno : ∀ {P : Job → Prop}, ∀ job ∈ ([] : List Job), P job := fun _ hjob =>
        absurd hjob List.not_mem_nil
      exact ⟨rfl, hno, fun _ _ => rfl, hno, hno⟩

/-- A job that waits in its queue for longer than an hour. -/
theorem expired_event_names_expired :
    ∃ (s : System 4) (swept : Swept), (orchestrator {}).Reachable Always s ∧
      ExpiryService.expireStale {} s.db (Scenario.tx 5) [] 1 3601000000 = some swept ∧
      s.status Scenario.jobId = some .queued ∧
      ¬ ExpiryEffect Job.status s.db (JobRepository.findExpirable s.db []
        (3601000000 - seconds 3600) 1) swept := by
  obtain ⟨s, hsteps, hs⟩ := exists_of_run (T := orchestrator {}) (System.start 4 0)
    (Scenario.submitted 5 ++ Scenario.dispatched)
    (fun s => s.status Scenario.jobId = some .queued &&
      (ExpiryService.expireStale {} s.db (Scenario.tx 5) [] 1 3601000000).isSome &&
      !(JobRepository.findExpirable s.db [] (3601000000 - seconds 3600) 1).isEmpty)
    (by decide +kernel)
  simp only [Bool.and_eq_true, decide_eq_true_eq, Bool.not_eq_true', List.isEmpty_eq_false_iff]
    at hs
  obtain ⟨⟨hstatus, hexpires⟩, hselects⟩ := hs
  obtain ⟨swept, hswept⟩ := Option.isSome_iff_exists.mp hexpires
  obtain ⟨job, hjob⟩ := List.exists_mem_of_ne_nil _ hselects
  have hevent := not_recorded_of_mem hswept hjob
  exact ⟨s, swept, ⟨_, ⟨0, rfl⟩, hsteps⟩, hswept, hstatus, hevent⟩

end Effect

/-! ## What expires -/

/-- The jobs that a promotion or a reap has put back to `QUEUED` so far. -/
def putBack {concurrency : ℕ} (g : UUID → Bool) (s : System concurrency) (l : Label concurrency)
    (s' : System concurrency) : UUID → Bool :=
  match l with
  | .sweep .promoteDue .. | .sweep .reapExpired .. => fun jobId =>
      g jobId || (s.status jobId ≠ some .queued && s'.status jobId = some .queued)
  | _ => g

/-- The system, watched for jobs that are put back. -/
def watched (settings : Settings) :
    TransitionSystem (System settings.workerConcurrency × (UUID → Bool))
      (Label settings.workerConcurrency) :=
  (orchestrator settings).observing (fun _ => false) putBack

/-- What an expiry sweep moves to `EXPIRED` was never claimed and never put back. -/
def ExpiresUnstarted {concurrency : ℕ} (p : System concurrency × (UUID → Bool)) :
    Label concurrency → System concurrency × (UUID → Bool) → Prop
  | .sweep .expireStale .., p' => ∀ jobId, p.1.status jobId ≠ some .expired →
      p'.1.status jobId = some .expired → p.2 jobId = false ∧
        ∃ job, p'.1.db.jobs.get? jobId = some job ∧ job.attempts = 0 ∧ job.startedAt = none
  | _, _ => True

/-- No job that the step selects for expiry has an attempt. -/
def selectsUnstarted (settings : Settings) (s : System settings.workerConcurrency) :
    Label settings.workerConcurrency → Bool
  | .sweep .expireStale _ locked batchSize now =>
      (JobRepository.findExpirable s.db locked (now - seconds settings.jobQueueMaxAgeSeconds)
        batchSize).all fun job => job.attempts = 0
  | _ => true

/-- A job that has left its first queue by a claim has an attempt. -/
def HasAttempt (job : Job) : Prop :=
  (job.status = .running ∨ job.status = .cancelling ∨ job.status = .retrying) → 1 ≤ job.attempts

/-- Every job that was put back has an attempt. -/
def PutBackSound {concurrency : ℕ} (p : System concurrency × (UUID → Bool)) : Prop :=
  ∀ jobId, p.2 jobId → ∃ job, p.1.db.jobs.get? jobId = some job ∧ 1 ≤ job.attempts

section Unstarted

variable {s s' : System settings.workerConcurrency} {j : UUID}
  {l : Label settings.workerConcurrency} {life' : Life settings.workerConcurrency}

lemma hasAttempt_of_issues {u : JobUpdate} (h : Issues s j l u) {job : Job}
    (hguard : u.guard job) (hbefore : HasAttempt job) : HasAttempt (u.values job) := by
  cases h with
  | claimForExecution => exact fun _ => Nat.le_add_left 1 job.attempts
  | requestRunningCancellation =>
      have hrunning := JobRepository.requestRunningCancellation_guard.mp hguard
      exact fun _ => hbefore (Or.inl hrunning)
  | heartbeat | updateProgress | markRedispatched => exact hbefore
  | finalize e outcome =>
      rcases (held_of_finalizer hguard).2 with hheld | hheld
      · cases outcome <;> exact fun _ => hbefore (Or.inl hheld)
      · cases outcome <;> exact fun _ => hbefore (Or.inr (Or.inl hheld))
  | cancelInactive | markQueued | moveRetryToQueued | failExpiredLease | requeueExpiredLease
  | expire => exact fun hstatus => by rcases hstatus with h | h | h <;> cases h

lemma hasAttempt_of_reachable
    {C : System settings.workerConcurrency → Label settings.workerConcurrency → Prop}
    (h : (orchestrator settings).Reachable C s) (j : UUID) :
    ∀ job, (s.db.record j).row = some job → HasAttempt job :=
  life_invariant (I := fun life => ∀ job, life.record.row = some job → HasAttempt job)
    (fun _ _ _ hrow => by cases hrow)
    (fun _ _ _ _ _ _ hstep hbefore => row_rule hstep
      (fun _ _ _ hstatus => by rcases hstatus with h | h | h <;> cases h)
      (fun _ _ hu _ hguard => hasAttempt_of_issues hu hguard) hbefore) h j

/-- No step takes an attempt away. -/
lemma attempts_le_of_jobStep (h : JobStep s j l life') {job : Job}
    (hrow : (s.db.record j).row = some job) :
    ∃ job', life'.record.row = some job' ∧ job.attempts ≤ job'.attempts := by
  rcases row_of_jobStep_of_row h hrow with hsame | ⟨u, hu, hguard, hvalues⟩
  · exact ⟨job, hsame, le_rfl⟩
  · refine ⟨u.values job, hvalues, ?_⟩
    rcases lock_of_issues hu hguard with ⟨_, _, _, -, -, hattempts, -⟩ | ⟨hattempts, -⟩ <;> omega

/-- A job that a step leaves `QUEUED`, and that neither was it before nor was dispatched for the
first time, has an attempt. -/
lemma hasAttempt_of_putBack (h : JobStep s j l life')
    (hattempt : ∀ job, (s.db.record j).row = some job → HasAttempt job)
    (hl : ∀ tx locked batchSize now, l ≠ .sweep .dispatchPending tx locked batchSize now)
    (hbefore : (s.db.record j).status ≠ some .queued)
    (hafter : life'.record.status = some .queued) :
    ∃ job', life'.record.row = some job' ∧ 1 ≤ job'.attempts := by
  rcases row_of_jobStep h with hsame | ⟨_, _, _, -, hcreated⟩ | ⟨u, job, hu, hrow, hguard, hvalues⟩
  · rw [JobRecord.status, hsame] at hafter
    exact absurd hafter hbefore
  · rw [JobRecord.status, hcreated] at hafter
    cases hafter
  · rw [status_of_row hrow] at hbefore
    rw [status_of_row hvalues] at hafter
    have hqueued : (u.values job).status = .queued := Option.some.inj hafter
    refine ⟨_, hvalues, ?_⟩
    cases hu with
    | moveRetryToQueued =>
        have hretrying := JobRepository.moveRetryToQueued_guard.mp hguard
        exact hattempt job hrow (Or.inr (Or.inr hretrying))
    | requeueExpiredLease =>
        have hrunning := JobRepository.requeueExpiredLease_guard.mp hguard
        exact hattempt job hrow (Or.inl hrunning)
    | markQueued => exact absurd rfl (hl _ _ _ _)
    | heartbeat | updateProgress | markRedispatched =>
        exact absurd (congrArg some hqueued) hbefore
    | finalize e outcome => cases outcome <;> cases hqueued
    | requestRunningCancellation | cancelInactive | claimForExecution | failExpiredLease
    | expire => cases hqueued

lemma putBackSound_of_step {g : UUID → Bool} (hreach : (orchestrator settings).Reachable Always s)
    (hstep : (orchestrator settings).step s l = some s') (hbefore : PutBackSound (s, g)) :
    PutBackSound (s', putBack g s l s') := by
  intro j hj
  have hjob : JobStep s j l (s'.life j) := jobStep_of_reachable hreach hstep j
  have hkept : g j → ∃ job', s'.db.jobs.get? j = some job' ∧ 1 ≤ job'.attempts := by
    intro hg
    obtain ⟨job, hrow, hone⟩ := hbefore j hg
    obtain ⟨job', hrow', hle⟩ := attempts_le_of_jobStep hjob hrow
    exact ⟨job', hrow', hone.trans hle⟩
  have hmoved : (∀ tx locked batchSize now,
      l ≠ .sweep .dispatchPending tx locked batchSize now) →
      (g j || (s.status j ≠ some .queued && s'.status j = some .queued)) = true →
      ∃ job', s'.db.jobs.get? j = some job' ∧ 1 ≤ job'.attempts := by
    intro hl hput
    rw [Bool.or_eq_true, Bool.and_eq_true, decide_eq_true_eq, decide_eq_true_eq] at hput
    rcases hput with hg | ⟨hsource, htarget⟩
    · exact hkept hg
    · exact hasAttempt_of_putBack hjob (hasAttempt_of_reachable hreach j) hl hsource htarget
  unfold putBack at hj
  split at hj
  · refine hmoved ?_ hj
    intro _ _ _ _ heq
    cases heq
  · refine hmoved ?_ hj
    intro _ _ _ _ heq
    cases heq
  · exact hkept hj

lemma putBackSound_of_reachable {p : System settings.workerConcurrency × (UUID → Bool)}
    (h : (watched settings).Reachable Always p) : PutBackSound p := by
  refine Reachable.invariant (I := PutBackSound) ?_ ?_ h
  · rintro ⟨s, g⟩ ⟨-, rfl⟩ j hj
    cases hj
  · rintro ⟨s, g⟩ l ⟨s', g'⟩ hreach - hstep hbefore
    obtain ⟨hstep, hwatch⟩ := observing_step.mp hstep
    obtain rfl : g' = putBack g s l s' := hwatch
    exact putBackSound_of_step (hreach.of_observing fun _ _ _ => trivial) hstep hbefore

/-- What an expiry step does to the jobs it selects. -/
lemma step_expire {tx : Tx} {locked : List UUID} {batchSize : ℕ} {now : Time}
    (h : s.step settings (.sweep .expireStale tx locked batchSize now) = some s') {job : Job}
    (hjob : job ∈ JobRepository.findExpirable s.db locked
      (now - seconds settings.jobQueueMaxAgeSeconds) batchSize) :
    (s.db.record job.id).row = some job ∧
      (s'.db.record job.id).row = some ((JobRepository.expire now).values job) := by
  obtain ⟨-, -, pushes, hrun⟩ := step_sweep h
  obtain ⟨swept, hswept, heq⟩ := Option.map_eq_some_iff.mp hrun
  obtain ⟨hdb, -⟩ := Prod.mk.inj heq
  obtain ⟨hrow, -, -⟩ := ExpiryService.row_of_findExpirable hjob
  refine ⟨hrow, ?_⟩
  rw [← hdb, expired_of_expireStale hswept hjob, ExpiryService.expired]
  exact JobRecord.enqueue_row

/-- An expiry step that selects only jobs without an attempt spares the started ones. -/
lemma expiresUnstarted_of_selects {g : UUID → Bool}
    {p' : System settings.workerConcurrency × (UUID → Bool)}
    (hreach : (orchestrator settings).Reachable Always s) (hsound : PutBackSound (s, g))
    (hstep : (orchestrator settings).step s l = some p'.1)
    (hselects : selectsUnstarted settings s l) :
    ExpiresUnstarted (s, g) l p' := by
  unfold ExpiresUnstarted
  split
  · rename_i tx locked batchSize now
    intro j hbefore hafter
    have hmem : j ∈ (JobRepository.findExpirable s.db locked
        (now - seconds settings.jobQueueMaxAgeSeconds) batchSize).map Job.id := by
      by_contra hj
      have hrecord := record_of_not_expired hstep hj
      have hsame : p'.1.status j = s.status j :=
        congrArg (fun r : JobRecord => r.row.map Job.status) hrecord
      exact hbefore (hsame.symm.trans hafter)
    obtain ⟨job, hjob, rfl⟩ := List.mem_map.mp hmem
    have hzero : job.attempts = 0 := of_decide_eq_true (List.all_eq_true.mp hselects job hjob)
    obtain ⟨hrow, hrow'⟩ := step_expire hstep hjob
    constructor
    · -- a job that was put back has an attempt
      by_contra hput
      obtain ⟨job₁, hrow₁, hone⟩ := hsound job.id (Bool.of_not_eq_false hput)
      obtain rfl := Option.some.inj (hrow.symm.trans hrow₁)
      omega
    · refine ⟨_, hrow', hzero, ?_⟩
      have hstarted := (columnsFollow_of_reachable hreach job.id job hrow).started
      have hnone : ¬ job.startedAt.isSome := fun hsome => by
        have := hstarted.mp hsome
        omega
      exact Option.not_isSome_iff_eq_none.mp hnone
  · trivial

/-- An expiry step expires all the jobs it selects. -/
lemma selects_of_expiresUnstarted {g : UUID → Bool}
    {p' : System settings.workerConcurrency × (UUID → Bool)}
    (hstep : (orchestrator settings).step s l = some p'.1)
    (hexpires : ExpiresUnstarted (s, g) l p') : selectsUnstarted settings s l := by
  unfold selectsUnstarted
  split
  · rename_i tx locked batchSize now
    refine List.all_eq_true.mpr fun job hjob => decide_eq_true ?_
    obtain ⟨hrow, hrow'⟩ := step_expire hstep hjob
    obtain ⟨-, hwaiting, -⟩ := ExpiryService.row_of_findExpirable hjob
    have hstatus : s.status job.id = some job.status := status_of_row hrow
    have hstatus' : p'.1.status job.id = some .expired := status_of_row hrow'
    have hbefore : s.status job.id ≠ some .expired := by
      rw [hstatus]
      rcases hwaiting with hwaiting | hwaiting <;> rw [hwaiting] <;> decide
    obtain ⟨-, job', hjob', hzero, -⟩ := hexpires job.id hbefore hstatus'
    obtain rfl := Option.some.inj (hrow'.symm.trans hjob')
    exact hzero
  · rfl

end Unstarted

end JobOrchestrator
