import JobOrchestrator.Properties.Batching
import JobOrchestrator.Properties.Outbox

/-!
# A tick of the scheduler

A tick runs its sweeps in an order in which none of them makes work for an earlier one: what
`promote_due` and `reap_expired` put back is `QUEUED` and was dispatched just now, and what
`expire_stale` ends has ended.  So a tick with room for every job leaves nothing due, and says of
every job where it stands (`tick_settles`).

`expire_stale` has to come after the sweeps that put jobs back: a job that is old enough is expired
in the tick that promotes it.
-/

namespace JobOrchestrator

open TransitionSystem

/-! ## The sweeps of a tick -/

namespace JobSweep

/-- The sweeps over jobs in the order in which a tick runs them. -/
def order : List JobSweep :=
  [dispatchPending, promoteDue, reapExpired, redeliverStuck, expireStale]

/-- The sweep of the system that a tick runs. -/
def inTick (stamp : UUID → Time) : JobSweep → Sweep
  | dispatchPending => .dispatchPending
  | promoteDue => .promoteDue
  | reapExpired => .reapExpired
  | redeliverStuck => .redeliverStuck stamp
  | expireStale => .expireStale

/-- What the sweep of a tick draws from outside. -/
def drawn (inputs : Scheduler.TickInputs) : JobSweep → Scheduler.SweepInputs
  | dispatchPending => inputs.dispatchPending
  | promoteDue => inputs.promoteDue
  | reapExpired => inputs.reapExpired
  | redeliverStuck => inputs.redeliverStuck
  | expireStale => inputs.expireStale

/-- The sweep has to work on the job of the record. -/
def wants (settings : Settings) (now : Time) : JobSweep → JobRecord → Prop
  | dispatchPending, r => ∃ o ∈ r.outbox, o.waiting
  | promoteDue, r => r.row.any (Job.due now)
  | reapExpired, r => r.row.any (Job.lapsed now)
  | redeliverStuck, r => r.row.any (Job.stuck settings now)
  | expireStale, r => r.row.any (Job.stale settings now)

/-- The statuses of the jobs that it looks for by their rows. -/
def seeks : JobSweep → List JobStatus
  | dispatchPending => []
  | promoteDue => [.retrying]
  | reapExpired => [.running]
  | redeliverStuck => [.queued]
  | expireStale => JobRepository.expirable

/-- The statuses in which it leaves the jobs whose rows it writes. -/
def leaves : JobSweep → List JobStatus
  | dispatchPending | promoteDue | redeliverStuck => [.queued]
  | reapExpired => [.queued, .failed]
  | expireStale => [.expired]

variable {settings : Settings} {now reading : Time} {kind : JobSweep} {db : Database}
  {r : JobRecord} {i : UUID}

lemma mem_eligible : i ∈ kind.eligible settings now db ↔ kind.wants settings now (db.record i) := by
  cases kind with
  | dispatchPending => exact eligible_iff_waiting
  | promoteDue | reapExpired | redeliverStuck | expireStale => exact eligible_iff_of_rows _

/-- What is due stays due. -/
lemma wants_mono (hle : now ≤ reading) (h : kind.wants settings now r) :
    kind.wants settings reading r := by
  have hcutoff : ∀ n : ℤ, now - seconds n ≤ reading - seconds n := fun n =>
    sub_le_sub_right hle _
  cases kind with
  | dispatchPending => exact h
  | promoteDue =>
      obtain ⟨job, hrow, hdue⟩ := (Option.any_eq_true ..).mp h
      apply (Option.any_eq_true ..).mpr
      simp only [Job.due, Bool.and_eq_true, Option.any_eq_true, decide_eq_true_eq] at hdue ⊢
      obtain ⟨hstatus, t, ht, hreached⟩ := hdue
      exact ⟨job, hrow, hstatus, t, ht, hreached.trans hle⟩
  | reapExpired =>
      obtain ⟨job, hrow, hlapsed⟩ := (Option.any_eq_true ..).mp h
      apply (Option.any_eq_true ..).mpr
      simp only [Job.lapsed, Bool.and_eq_true, Option.any_eq_true, decide_eq_true_eq] at hlapsed ⊢
      obtain ⟨hstatus, t, ht, hpast⟩ := hlapsed
      exact ⟨job, hrow, hstatus, t, ht, hpast.trans_le hle⟩
  | redeliverStuck =>
      obtain ⟨job, hrow, hstuck⟩ := (Option.any_eq_true ..).mp h
      apply (Option.any_eq_true ..).mpr
      simp only [Job.stuck, Bool.and_eq_true, Option.all_eq_true, decide_eq_true_eq] at hstuck ⊢
      exact ⟨job, hrow, hstuck.1, fun t ht => (hstuck.2 t ht).trans_le (hcutoff _)⟩
  | expireStale =>
      obtain ⟨job, hrow, hstale⟩ := (Option.any_eq_true ..).mp h
      apply (Option.any_eq_true ..).mpr
      simp only [Job.stale, Bool.and_eq_true, decide_eq_true_eq] at hstale ⊢
      exact ⟨job, hrow, hstale.1, hstale.2.trans_le (hcutoff _)⟩

lemma mem_seeks_of_wants {job : Job} (hkind : kind ≠ dispatchPending)
    (hrow : r.row = some job) (h : kind.wants settings now r) : job.status ∈ kind.seeks := by
  cases kind with
  | dispatchPending => exact absurd rfl hkind
  | promoteDue | reapExpired | redeliverStuck | expireStale =>
      simp only [wants, hrow, Option.any_some, Job.due, Job.lapsed, Job.stuck, Job.stale,
        Bool.and_eq_true, decide_eq_true_eq, List.contains_eq_mem] at h
      simp [seeks, h.1]

/-- A sweep that no job waits for does nothing. -/
lemma run_of_not_wants {n : ℕ} {tx : Tx}
    (hstuck : kind = redeliverStuck → 0 ≤ settings.queueStuckSeconds)
    (h : ∀ j, ¬ kind.wants settings now (db.record j)) :
    kind.run settings now n tx db = some ⟨db, [], 0⟩ := by
  let S := batches settings now kind hstuck
  have hnone : S.select n db = [] := by
    refine List.eq_nil_iff_forall_not_mem.mpr fun i hi => h i ?_
    have heligible := S.eligible_of_mem hi
    rw [batches_view] at heligible
    cases kind with
    | dispatchPending | promoteDue | reapExpired | redeliverStuck | expireStale =>
        exact heligible
  exact batches_run.symm.trans (S.idle hnone)

end JobSweep

/-! ## What a sweep settles -/

section Settles

variable {settings : Settings} {s t : System settings.workerConcurrency} {kind other : JobSweep}
  {stamp : UUID → Time} {batchSize : ℕ} {now : Time} {j : UUID} {l : Sweep}
  {inputs : Scheduler.SweepInputs}

/-- A sweep is a step of the system, behind which its pushes leave the database as it is. -/
lemma step_of_sweep (h : Scheduler.sweep settings batchSize s l inputs = some t) :
    ∃ u, s.step settings (.sweep l inputs.tx [] batchSize inputs.now) = some u ∧ t.db = u.db ∧
      (orchestrator settings).Steps Always s t := by
  obtain ⟨u, hu, -⟩ := Option.bind_eq_some_iff.mp h
  obtain ⟨t', ht', hdb, -, hsteps⟩ := Scheduler.sweep_of_step inputs hu
  obtain rfl := Option.some.inj (h.symm.trans ht')
  exact ⟨u, hu, hdb, hsteps⟩

/-- No more jobs than there are rows are waiting for a sweep. -/
lemma length_eligible_le (houtbox : OutboxSound s.db) :
    (kind.eligible settings now s.db).length ≤ s.db.jobs.rows.length := by
  have hnodup : (kind.eligible settings now s.db).Nodup := by
    cases kind with
    | dispatchPending => exact JobSweep.nodup_waiting houtbox
    | promoteDue | reapExpired | redeliverStuck | expireStale => exact JobSweep.nodup_rowsWhere _
  have hsub : kind.eligible settings now s.db ⊆ s.db.jobs.rows.map Job.id := by
    intro i hi
    have hrow : (s.db.record i).row ≠ none := by
      intro hnone
      have hwants := JobSweep.mem_eligible.mp hi
      cases kind with
      | dispatchPending =>
          obtain ⟨o, ho, -⟩ := hwants
          rw [(houtbox i).2 hnone] at ho
          exact absurd ho List.not_mem_nil
      | promoteDue | reapExpired | redeliverStuck | expireStale =>
          obtain ⟨job, hjob, -⟩ := (Option.any_eq_true ..).mp hwants
          cases hnone.symm.trans hjob
    obtain ⟨job, hjob⟩ := Option.ne_none_iff_exists'.mp hrow
    obtain ⟨hmem, rfl⟩ := Table.get?_eq_some.mp hjob
    exact List.mem_map_of_mem hmem
  have hlength := (List.subperm_of_subset hnodup hsub).length_le
  rwa [List.length_map] at hlength

/-- A redelivery with room for every job leaves none of them stuck, whenever it stamps them. -/
lemma settles_redeliverStuck {swept : Swept} (hstuck : 0 ≤ settings.queueStuckSeconds)
    (hroom : s.db.jobs.rows.length ≤ batchSize)
    (hrun : DispatchService.redeliverStuck settings s.db [] batchSize now stamp = some swept)
    (hstamp : ∀ job ∈ JobRepository.findStuckQueued s.db []
      (now - seconds settings.queueStuckSeconds) batchSize, now ≤ stamp job.id) (j : UUID) :
    ¬ JobSweep.redeliverStuck.wants settings now (swept.db.record j) := by
  obtain ⟨hother, hselected⟩ := DispatchService.record_redeliverStuck hrun
  intro hwants
  by_cases hj : j ∈ (JobRepository.findStuckQueued s.db []
      (now - seconds settings.queueStuckSeconds) batchSize).map Job.id
  · obtain ⟨job, hjob, rfl⟩ := List.mem_map.mp hj
    have hrow : (s.db.record job.id).row = some job := Table.get?_of_mem_select hjob
    have hqueued : job.status = .queued := by
      have hmatches := (Table.mem_of_mem_select hjob).2
      simp only [Bool.and_eq_true, decide_eq_true_eq] at hmatches
      exact hmatches.1.2
    have hguard : (JobRepository.markRedispatched (stamp job.id)).guard job :=
      JobRepository.markRedispatched_guard.mpr hqueued
    have hlate := hstamp job hjob
    have hcutoff : now - seconds settings.queueStuckSeconds ≤ stamp job.id :=
      (sub_le_self now (seconds_nonneg hstuck)).trans hlate
    rw [JobSweep.wants, hselected job hjob, JobRecord.updateRow, hrow, Option.map_some,
      JobUpdate.apply_of_guard hguard] at hwants
    simp [Job.stuck, JobRepository.markRedispatched, hcutoff.not_gt] at hwants
  · rw [hother j hj] at hwants
    obtain ⟨job, hrow, hp⟩ := (Option.any_eq_true ..).mp hwants
    apply hj
    obtain rfl := s.db.id_of_row j hrow
    exact List.mem_map_of_mem (mem_select_of_row hroom hrow hp)

/-- A sweep with room for every job that waits for it leaves none of them waiting. -/
lemma settles_of_step {reading : Time} {tx : Tx} {u : System settings.workerConcurrency}
    (hkind : kind ≠ .redeliverStuck) (hreach : (orchestrator settings).Reachable Always s)
    (hroom : (kind.eligible settings reading s.db).length ≤ batchSize)
    (hstep : s.step settings (.sweep (kind.sweep reading) tx [] batchSize reading) = some u)
    (hnow : now ≤ reading) (j : UUID) : ¬ kind.wants settings now (u.db.record j) := by
  intro hwants
  have hlate := JobSweep.wants_mono hnow hwants
  obtain ⟨-, -, pushes, hrun⟩ := step_sweep hstep
  have houtbox := outboxSound_of_reachable hreach
  rw [JobSweep.sweep_run] at hrun
  obtain ⟨b, hb, heq⟩ := Option.map_eq_some_iff.mp hrun
  obtain ⟨hdb', -⟩ := Prod.mk.inj heq
  let S := JobSweep.batches settings reading kind fun h => absurd h hkind
  have hbatch : S.run batchSize tx s.db = some b := JobSweep.batches_run.trans hb
  have hnone := BatchSweep.not_eligible_of_run (JobSweep.eligibles houtbox)
    (JobSweep.batches_sound houtbox) hroom hbatch j
  rw [JobSweep.batches_view, hdb'] at hnone
  apply hnone
  cases kind with
  | dispatchPending | promoteDue | reapExpired | redeliverStuck | expireStale => exact hlate

/-- A sweep with room for every job leaves no work of its own. -/
lemma settles_of_sweep (hstuck : 0 ≤ settings.queueStuckSeconds)
    (hreach : (orchestrator settings).Reachable Always s)
    (hroom : s.db.jobs.rows.length ≤ batchSize)
    (hsweep : Scheduler.sweep settings batchSize s (kind.inTick stamp) inputs = some t)
    (hnow : now ≤ inputs.now) (j : UUID) : ¬ kind.wants settings now (t.db.record j) := by
  obtain ⟨u, hstep, hdb, -⟩ := step_of_sweep hsweep
  rw [hdb]
  by_cases hkind : kind = .redeliverStuck
  · subst hkind
    intro hwants
    have hlate := JobSweep.wants_mono hnow hwants
    obtain ⟨-, -, pushes, hrun⟩ := step_sweep hstep
    obtain ⟨swept, hswept, heq⟩ := Option.map_eq_some_iff.mp hrun
    obtain ⟨hdb', -⟩ := Prod.mk.inj heq
    rw [← hdb'] at hlate
    refine settles_redeliverStuck hstuck hroom hswept (fun job hjob => ?_) j hlate
    cases systemStep_of_step hstep with
    | sweep _ _ _ _ _ _ _ _ htimely =>
        simp only [JobSweep.inTick, Sweep.timely, List.all_eq_true, Bool.and_eq_true,
          decide_eq_true_eq] at htimely
        exact (htimely job hjob).1
  · -- the others act at one time, as the sweeps in batches do
    have hsame : kind.inTick stamp = JobSweep.sweep inputs.now kind := by
      cases kind with
      | redeliverStuck => exact absurd rfl hkind
      | dispatchPending | promoteDue | reapExpired | expireStale => rfl
    rw [hsame] at hstep
    have hfits : (kind.eligible settings inputs.now s.db).length ≤ batchSize :=
      (length_eligible_le (outboxSound_of_reachable hreach)).trans hroom
    exact settles_of_step hkind hreach hfits hstep hnow j

/-- The statement of a sweep leaves the row it writes in one of its statuses. -/
lemma status_of_issues {u : JobUpdate} {tx : Tx} {locked : List UUID} {job : Job}
    (hu : Issues s j (.sweep (other.inTick stamp) tx locked batchSize now) u)
    (hguard : u.guard job) : (u.values job).status ∈ other.leaves := by
  cases other <;> cases hu
  · simp [JobSweep.leaves, JobRepository.markQueued]
  · simp [JobSweep.leaves, JobRepository.moveRetryToQueued]
  · simp [JobSweep.leaves, JobRepository.failExpiredLease]
  · simp [JobSweep.leaves, JobRepository.requeueExpiredLease]
  · simpa [JobSweep.leaves, JobRepository.markRedispatched] using hguard
  · simp [JobSweep.leaves, JobRepository.expire]

/-- A sweep whose statements leave no job in a status that another one looks for makes no work for
it. -/
lemma kept_of_sweep {statuses : List JobStatus} {locked : List UUID} {tx : Tx} {reading : Time}
    {u : System settings.workerConcurrency} (hreach : (orchestrator settings).Reachable Always s)
    (hstep : (orchestrator settings).step s (.sweep l tx locked batchSize reading) = some u)
    (hdispatch : l ≠ .dispatchPending)
    (hissues : ∀ v job, Issues s j (.sweep l tx locked batchSize reading) v → v.guard job →
      (v.values job).status ∈ statuses) (hunsought : ∀ st ∈ statuses, st ∉ kind.seeks)
    (h : ¬ kind.wants settings now (s.db.record j)) :
    ¬ kind.wants settings now (u.db.record j) := by
  have hjob := jobStep_of_reachable hreach hstep j
  have hreach' : (orchestrator settings).Reachable Always u :=
    hreach.steps (Steps.single trivial hstep)
  intro hwants
  cases hrow' : (u.db.record j).row with
  | none =>
      have hempty : u.db.record j = JobRecord.empty := (linked_of_reachable hreach' j).fresh hrow'
      rw [hempty] at hwants
      cases kind with
      | dispatchPending =>
          obtain ⟨o, ho, -⟩ := hwants
          cases ho
      | promoteDue | reapExpired | redeliverStuck | expireStale => cases hwants
  | some job' =>
      cases hrow : (s.db.record j).row with
      | none =>
          obtain ⟨⟨call, tx', now', hlabel⟩, -⟩ := created_of_jobStep hjob hrow hrow'
          cases hlabel
      | some job =>
          have houtbox : (u.db.record j).outbox = (s.db.record j).outbox := by
            rcases outbox_of_jobStep hjob hrow with hsame | ⟨_, _, _, _, _, hlabel, -⟩
            · exact hsame
            · cases hlabel
              exact absurd rfl hdispatch
          by_cases hkind : kind = .dispatchPending
          · subst hkind
            rw [JobSweep.wants, houtbox] at hwants
            exact h hwants
          · rcases row_of_jobStep_of_row hjob hrow with hsame | ⟨v, hv, hguard, hvalues⟩
            · apply h
              have hrows : (u.db.record j).row = (s.db.record j).row := hsame.trans hrow.symm
              cases kind with
              | dispatchPending => exact absurd rfl hkind
              | promoteDue | reapExpired | redeliverStuck | expireStale =>
                  rw [JobSweep.wants, hrows] at hwants
                  exact hwants
            · have hstatus := JobSweep.mem_seeks_of_wants hkind hvalues hwants
              exact hunsought _ (hissues v job hv hguard) hstatus

/-- A sweep adds no job. -/
lemma length_rows_of_sweep (hreach : (orchestrator settings).Reachable Always s)
    (h : Scheduler.sweep settings batchSize s l inputs = some t) :
    t.db.jobs.rows.length ≤ s.db.jobs.rows.length := by
  obtain ⟨u, hu, hdb, -⟩ := step_of_sweep h
  have hstep : (orchestrator settings).step s (.sweep l inputs.tx [] batchSize inputs.now) =
    some u := hu
  have hcount : t.db.jobs.rows.countP (fun _ => true) ≤ s.db.jobs.rows.countP fun _ => true := by
    rw [hdb]
    refine Table.countP_le fun job' hjob' _ => ?_
    obtain ⟨job, hjob, hrequest, -⟩ := rows_of_other hreach hstep (by simp) hjob'
    exact ⟨job, hjob, (congrArg JobRequest.id hrequest).symm, rfl⟩
  rwa [List.countP_true] at hcount

end Settles

/-! ## A tick -/

/-- Where a job stands behind a tick at the time. -/
structure Job.Settled (settings : Settings) (now : Time) (job : Job) : Prop where
  dispatched : job.status ≠ .pending
  queued : job.status = .queued →
    now - seconds settings.jobQueueMaxAgeSeconds ≤ job.createdAt ∧
      ∃ t, job.lastDispatchedAt = some t ∧ now - seconds settings.queueStuckSeconds ≤ t
  running : job.status = .running → ∃ t, job.lockExpiresAt = some t ∧ now ≤ t
  retrying : job.status = .retrying → ∃ t, job.nextAttemptAt = some t ∧ now < t

section Tick

variable {settings : Settings} {s t : System settings.workerConcurrency} {batchSize : ℕ}
  {now : Time} {inputs : Scheduler.TickInputs} {job : Job}

/-- A tick is the sweeps over jobs, one after the other, and then the deliveries. -/
lemma tick_eq : Scheduler.tick settings batchSize inputs s =
    (JobSweep.order.foldlM (fun s kind => Scheduler.sweep settings batchSize s
      (kind.inTick inputs.stamp) (kind.drawn inputs)) s).bind fun s =>
        Scheduler.sweep settings batchSize s (.deliverNotifications inputs.io)
          inputs.dispatchDue := by
  simp [Scheduler.tick, JobSweep.order, List.foldlM_cons, JobSweep.inTick, JobSweep.drawn,
    Option.bind_eq_bind, Option.bind_assoc]

/-- No sweep makes work for one that comes before it in a tick. -/
lemma order_pairwise : JobSweep.order.Pairwise fun kind other =>
    other ≠ .dispatchPending ∧ ∀ st ∈ other.leaves, st ∉ kind.seeks := by
  decide

lemma not_wants_of_tick (h : (orchestrator settings).Reachable Always s)
    (hstuck : 0 ≤ settings.queueStuckSeconds) (hroom : s.db.jobs.rows.length ≤ batchSize)
    (htick : Scheduler.tick settings batchSize inputs s = some t)
    (hnow : ∀ kind : JobSweep, now ≤ (kind.drawn inputs).now) :
    (orchestrator settings).Reachable Always t ∧
      ∀ kind : JobSweep, ∀ j, ¬ kind.wants settings now (t.db.record j) := by
  rw [tick_eq] at htick
  obtain ⟨u, hsweeps, hdeliver⟩ := Option.bind_eq_some_iff.mp htick
  obtain ⟨⟨hreach, -⟩, hsettled⟩ := settled_of_foldlM
    (I := fun s => (orchestrator settings).Reachable Always s ∧
      s.db.jobs.rows.length ≤ batchSize)
    (P := fun kind s => ∀ j, ¬ kind.wants settings now (s.db.record j))
    (fun kind s t hI hsweep => by
      obtain ⟨-, -, -, hsteps⟩ := step_of_sweep hsweep
      exact ⟨hI.1.steps hsteps, (length_rows_of_sweep hI.1 hsweep).trans hI.2⟩)
    (fun kind s t hI hsweep => settles_of_sweep hstuck hI.1 hI.2 hsweep (hnow kind))
    (order_pairwise.imp fun hunsought s t hI hsettled hsweep j => by
      obtain ⟨u, hstep, hdb, -⟩ := step_of_sweep hsweep
      rw [hdb]
      refine kept_of_sweep hI.1 hstep ?_ (fun v job => status_of_issues) hunsought.2 (hsettled j)
      rename_i other
      intro hdispatch
      apply hunsought.1
      cases other with
      | dispatchPending => rfl
      | promoteDue | reapExpired | redeliverStuck | expireStale => cases hdispatch)
    ⟨h, hroom⟩ hsweeps
  obtain ⟨v, hstep, hdb, hsteps⟩ := step_of_sweep hdeliver
  refine ⟨hreach.steps hsteps, fun kind j => ?_⟩
  rw [hdb]
  have hbefore : ¬ kind.wants settings now (u.db.record j) :=
    hsettled kind (by cases kind <;> decide) j
  have hnone : ∀ st ∈ ([] : List JobStatus), st ∉ kind.seeks :=
    fun st hst => absurd hst List.not_mem_nil
  -- a delivery of notifications writes no row of `jobs`
  exact kept_of_sweep hreach hstep (fun h => by cases h) (fun _ _ hissues => by cases hissues)
    hnone hbefore

lemma settled_of_not_wants (h : (orchestrator settings).Reachable Always t)
    (hwants : ∀ kind : JobSweep, ¬ kind.wants settings now (t.db.record job.id))
    (hrow : (t.db.record job.id).row = some job) : job.Settled settings now := by
  have hcolumns := columnsFollow_of_reachable h job.id job hrow
  refine ⟨fun hpending => ?_, fun hqueued => ?_, fun hrunning => ?_, fun hretrying => ?_⟩
  · apply hwants .dispatchPending
    cases outboxed_of_reachable h job.id with
    | absent hnone => cases hrow.symm.trans hnone
    | waiting _ o _ houtbox hstatus =>
        refine ⟨o, ?_, decide_eq_true hstatus⟩
        simp [houtbox]
    | published job' _ _ hrow' _ _ _ _ hdispatched =>
        obtain rfl := Option.some.inj (hrow.symm.trans hrow')
        exact absurd hpending hdispatched
  · have hfresh := hwants .expireStale
    have hsent := hwants .redeliverStuck
    simp only [JobSweep.wants, hrow, Option.any_some, Job.stale, Job.stuck, hqueued,
      JobRepository.expirable, Bool.and_eq_true, decide_eq_true_eq, not_and, not_lt] at hfresh hsent
    obtain ⟨t, ht⟩ := Option.isSome_iff_exists.mp (hcolumns.dispatched hqueued)
    refine ⟨hfresh (by decide), t, ht, ?_⟩
    simpa [ht] using hsent
  · have hkept := hwants .reapExpired
    obtain ⟨t, ht⟩ := Option.isSome_iff_exists.mp (hcolumns.leased.mpr (Or.inl hrunning))
    simp only [JobSweep.wants, hrow, Option.any_some, Job.lapsed, hrunning, ht] at hkept
    refine ⟨t, ht, ?_⟩
    simpa using hkept
  · have hwaits := hwants .promoteDue
    obtain ⟨t, ht⟩ := Option.isSome_iff_exists.mp (hcolumns.scheduled.mpr hretrying)
    simp only [JobSweep.wants, hrow, Option.any_some, Job.due, hretrying, ht] at hwaits
    refine ⟨t, ht, ?_⟩
    simpa using hwaits

/-- **A tick leaves nothing due.**  A tick with room for every job, each of whose sweeps reads the
clock at `now` or later, leaves no job `PENDING`, none `QUEUED` that is too old or was sent too long
ago, none `RUNNING` whose lease has expired and none `RETRYING` that is due.  No sweep over jobs
that reads `now` after it does anything. -/
theorem tick_settles (h : (orchestrator settings).Reachable Always s)
    (hstuck : 0 ≤ settings.queueStuckSeconds) (hroom : s.db.jobs.rows.length ≤ batchSize)
    (htick : Scheduler.tick settings batchSize inputs s = some t)
    (hnow : ∀ kind : JobSweep, now ≤ (kind.drawn inputs).now) :
    (∀ job ∈ t.db.jobs.rows, job.Settled settings now) ∧
      ∀ (kind : JobSweep) (n : ℕ) (tx : Tx),
        kind.run settings now n tx t.db = some ⟨t.db, [], 0⟩ := by
  obtain ⟨hreach, hwants⟩ := not_wants_of_tick h hstuck hroom htick hnow
  refine ⟨fun job hjob => ?_, fun kind n tx => ?_⟩
  · exact settled_of_not_wants hreach (fun kind => hwants kind job.id) (Table.get?_of_mem hjob)
  · exact JobSweep.run_of_not_wants (fun _ => hstuck) (hwants kind)

end Tick

namespace Scenario

/-- A tick that reads one time. -/
def tickInputs (now : Time) : Scheduler.TickInputs where
  dispatchPending := ⟨tx 9, now⟩
  promoteDue := ⟨tx 10, now⟩
  reapExpired := ⟨tx 11, now⟩
  redeliverStuck := ⟨tx 12, now⟩
  stamp _ := now
  expireStale := ⟨tx 13, now⟩
  dispatchDue := ⟨tx 14, now⟩
  io := ⟨fun _ => .delivered, fun _ => now, fun _ => 0⟩

end Scenario

/-- The retry of a job is due only when the job is too old: one tick promotes and expires it. -/
theorem tick_settles_retrying :
    ∃ s t : System 4, (orchestrator {}).Reachable Always s ∧
      s.status Scenario.jobId = some .retrying ∧
      Scheduler.tick {} 1 (Scenario.tickInputs 3601000000) s = some t ∧
      t.status Scenario.jobId = some .expired ∧
      (∀ job ∈ t.db.jobs.rows, job.Settled {} 3601000000) ∧
      ∀ (kind : JobSweep) (n : ℕ) (tx : Tx),
        kind.run {} 3601000000 n tx t.db = some ⟨t.db, [], 0⟩ := by
  obtain ⟨s, hsteps, hs⟩ := exists_of_run (T := orchestrator {}) (System.start 4 0)
    (Scenario.submitted 5 ++ Scenario.dispatched ++ Scenario.claim Scenario.first 3 0 ++
      Scenario.backOff Scenario.first 0 ++ [Scenario.finalize Scenario.first 4 0,
        .tick 3601000000])
    (fun s => s.status Scenario.jobId = some .retrying && s.db.jobs.rows.length ≤ 1 &&
      (Scheduler.tick {} 1 (Scenario.tickInputs 3601000000) s).any fun t =>
        t.status Scenario.jobId = some .expired) (by decide +kernel)
  simp only [Bool.and_eq_true, decide_eq_true_eq] at hs
  obtain ⟨⟨hretrying, hroom⟩, htick⟩ := hs
  obtain ⟨t, ht, hexpired⟩ := (Option.any_eq_true ..).mp htick
  have hreach : (orchestrator {}).Reachable Always s := ⟨_, ⟨0, rfl⟩, hsteps⟩
  have hnow : ∀ kind : JobSweep, 3601000000 ≤ (kind.drawn (Scenario.tickInputs 3601000000)).now := by
    intro kind
    cases kind <;> exact le_rfl
  exact ⟨s, t, hreach, hretrying, ht, of_decide_eq_true hexpired,
    tick_settles hreach (by decide) hroom ht hnow⟩

end JobOrchestrator
