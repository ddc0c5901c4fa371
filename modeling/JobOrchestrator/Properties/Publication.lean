import JobOrchestrator.Properties.Timeline

/-!
# What the sweeps publish

A sweep publishes after its commit the ids it has collected before.  Three of the four sweeps
collect an id only when their `UPDATE` has left its job `QUEUED`; `dispatch_pending` collects the
job of every outbox row it claims, also when the job was cancelled or has expired since it was
submitted.
-/

namespace JobOrchestrator

open ExecutionService SubmissionService CancellationService TransitionSystem

variable {settings : Settings}

/-- The instant that a sweep stamps on a job it sends. -/
def Sweep.dispatchedAt (now : Time) (jobId : UUID) : Sweep → Time
  | redeliverStuck stamp => stamp jobId
  | _ => now

/-- Every id that the transaction of a sweep has collected for a priority list belongs to a job
that this transaction left `QUEUED` and stamped. -/
def FeedsQueued {concurrency : ℕ} (s : System concurrency) :
    Label concurrency → System concurrency → Prop
  | .sweep kind _ _ _ now, s' => ∀ pushes, s'.unpublished = s.unpublished ++ pushes →
      ∀ jobId priority, .publish jobId priority ∈ pushes → ∃ job,
        s'.db.jobs.get? jobId = some job ∧ job.status = .queued ∧
        job.lastDispatchedAt = some (kind.dispatchedAt now jobId)
  | _, _ => True

/-- A job whose outbox row still waits is `PENDING`, or has ended without being dispatched. -/
def Undispatched (r : JobRecord) : Prop :=
  ∀ o ∈ r.outbox, o.status = .pending → ∀ job, r.row = some job →
    job.status = .pending ∨ job.status = .cancelled ∨ job.status = .expired

section Undispatched

variable {s : System settings.workerConcurrency} {j : UUID}
  {l : Label settings.workerConcurrency} {life' : Life settings.workerConcurrency}

/-- A statement that matches a `PENDING` job dispatches it or ends it. -/
lemma undispatched_of_issues {u : JobUpdate} (h : Issues s j l u) {job : Job}
    (hl : ∀ tx locked batchSize now, l ≠ .sweep .dispatchPending tx locked batchSize now)
    (hguard : u.guard job) (hpending : job.status = .pending) :
    (u.values job).status = .cancelled ∨ (u.values job).status = .expired := by
  cases h with
  | cancelInactive => exact Or.inl rfl
  | expire => exact Or.inr rfl
  | markQueued => exact absurd rfl (hl _ _ _ _)
  | requestRunningCancellation =>
      cases hpending.symm.trans (JobRepository.requestRunningCancellation_guard.mp hguard)
  | claimForExecution =>
      rcases (JobRepository.claimForExecution_guard.mp hguard).1 with h | h <;>
        cases hpending.symm.trans h
  | heartbeat => cases hpending.symm.trans (JobRepository.heartbeat_guard.mp hguard).2
  | updateProgress =>
      rcases (JobRepository.updateProgress_guard.mp hguard).2 with h | h <;>
        cases hpending.symm.trans h
  | finalize e outcome =>
      rcases (held_of_finalizer hguard).2 with h | h <;> cases hpending.symm.trans h
  | moveRetryToQueued =>
      cases hpending.symm.trans (JobRepository.moveRetryToQueued_guard.mp hguard)
  | failExpiredLease =>
      cases hpending.symm.trans (JobRepository.failExpiredLease_guard.mp hguard)
  | requeueExpiredLease =>
      cases hpending.symm.trans (JobRepository.requeueExpiredLease_guard.mp hguard)
  | markRedispatched =>
      cases hpending.symm.trans (JobRepository.markRedispatched_guard.mp hguard)

/-- The dispatch of a job publishes its only outbox row. -/
lemma undispatched_of_dispatched {tx : Tx} {locked : List UUID} {batchSize : ℕ} {now : Time}
    {row : DispatchOutbox} {job : Job} (hlinked : Linked (s.life j))
    (hclaimed : row ∈ DispatchOutboxRepository.claimPending s.db locked batchSize)
    (hjob : row.jobId = j) :
    Undispatched (DispatchService.dispatched tx now row job (s.db.record j)) := by
  intro o ho hwaits
  obtain ⟨o', ho', rfl⟩ := List.mem_map.mp ho
  have hrow : row ∈ (s.db.record j).outbox :=
    Table.mem_children.mpr ⟨(Table.mem_of_mem_select hclaimed).1, hjob⟩
  have hone : (s.db.record j).outbox.length = 1 :=
    le_antisymm hlinked.outbox_le (List.length_pos_of_mem hrow)
  obtain ⟨a, ha⟩ := List.length_eq_one_iff.mp hone
  rw [ha, List.mem_singleton] at hrow ho'
  rw [ho', ← hrow, if_pos rfl] at hwaits
  cases hwaits

lemma undispatched_of_jobStep (hlinked : Linked (s.life j)) (hbefore : Undispatched (s.db.record j))
    (h : JobStep s j l life') : Undispatched life'.record := by
  by_cases hl : ∃ tx locked batchSize now, l = .sweep .dispatchPending tx locked batchSize now
  · obtain ⟨tx, locked, batchSize, now, rfl⟩ := hl
    cases h with
    | idle | left => exact hbefore
    | dispatched row job hclaimed hjob => exact undispatched_of_dispatched hlinked hclaimed hjob
  · intro o ho hwaits job' hrow'
    have hother : ∀ tx locked batchSize now,
        l ≠ .sweep .dispatchPending tx locked batchSize now :=
      fun tx locked batchSize now heq => hl ⟨tx, locked, batchSize, now, heq⟩
    rcases row_of_jobStep h with
      hsame | ⟨_, _, _, -, hcreated⟩ | ⟨u, job, hu, hrow, hguard, hvalues⟩
    · have hrow : (s.db.record j).row = some job' := hsame.symm.trans hrow'
      rcases outbox_of_jobStep h hrow with houtbox | ⟨_, _, _, _, _, rfl, -⟩
      · rw [houtbox] at ho
        exact hbefore o ho hwaits job' hrow
      · exact absurd rfl (hother _ _ _ _)
    · obtain rfl := Option.some.inj (hcreated.symm.trans hrow')
      exact Or.inl rfl
    · obtain rfl := Option.some.inj (hvalues.symm.trans hrow')
      rcases outbox_of_jobStep h hrow with houtbox | ⟨_, _, _, _, _, rfl, -⟩
      · rw [houtbox] at ho
        have hactive := not_isTerminal_of_issues hu hguard
        rcases hbefore o ho hwaits job hrow with hpending | hended | hended
        · exact Or.inr (undispatched_of_issues hu hother hguard hpending)
        · exact absurd (by rw [hended]; decide) hactive
        · exact absurd (by rw [hended]; decide) hactive
      · exact absurd rfl (hother _ _ _ _)

lemma undispatched_of_reachable
    {C : System settings.workerConcurrency → Label settings.workerConcurrency → Prop}
    (h : (orchestrator settings).Reachable C s) (j : UUID) : Undispatched (s.db.record j) :=
  life_invariant (I := fun life => Undispatched life.record)
    (fun _ _ _ ho => absurd ho List.not_mem_nil)
    (fun _ _ _ j hreach _ hstep hbefore =>
      undispatched_of_jobStep (linked_of_reachable hreach j) hbefore hstep) h j

end Undispatched

/-! ## The four sweeps that publish -/

section Feeds

variable {s s' : System settings.workerConcurrency} {l : Label settings.workerConcurrency}
  {tx : Tx} {locked : List UUID} {batchSize : ℕ} {now : Time} {jobId : UUID}
  {priority : JobPriority} {pushes : List Push}

/-- `dispatch_pending` sends the jobs of the rows it claims. -/
lemma mem_pushes_dispatchPending (hreach : (orchestrator settings).Reachable Always s)
    (hrun : Sweep.dispatchPending.run settings s.db tx locked batchSize now =
      some (s'.db, pushes)) :
    .publish jobId priority ∈ pushes ↔
      ∃ row ∈ DispatchOutboxRepository.claimPending s.db locked batchSize, row.jobId = jobId ∧
        ∃ job, (s.db.record jobId).row = some job ∧ job.priority = priority := by
  obtain ⟨swept, hswept, heq⟩ := Option.map_eq_some_iff.mp hrun
  obtain ⟨-, rfl⟩ := Prod.mk.inj heq
  rw [DispatchService.pushes_dispatchPending hswept
    fun i => (linked_of_reachable hreach i).outbox_le, List.mem_filterMap]
  simp only [Option.map_eq_some_iff, Push.publish.injEq]
  constructor
  · rintro ⟨row, hrow, job, hjob, rfl, rfl⟩
    exact ⟨row, hrow, rfl, job, hjob, rfl⟩
  · rintro ⟨row, hrow, rfl, job, hjob, rfl⟩
    exact ⟨row, hrow, job, hjob, rfl, rfl⟩

/-- `promote_due` sends jobs that it has put back. -/
lemma queued_of_promoteDue
    (hrun : Sweep.promoteDue.run settings s.db tx locked batchSize now = some (s'.db, pushes))
    (hpush : .publish jobId priority ∈ pushes) :
    ∃ job, (s'.db.record jobId).row = some job ∧ job.status = .queued ∧
      job.lastDispatchedAt = some now := by
  obtain ⟨swept, hswept, heq⟩ := Option.map_eq_some_iff.mp hrun
  obtain ⟨hdb, rfl⟩ := Prod.mk.inj heq
  rw [RetryService.pushes_promoteDue hswept, List.mem_map] at hpush
  obtain ⟨job, hjob, heq⟩ := hpush
  obtain ⟨rfl, -⟩ := Push.publish.inj heq
  obtain ⟨hrow, hstatus, -⟩ := RetryService.row_of_findDueRetries hjob
  refine ⟨(JobRepository.moveRetryToQueued now).values job, ?_, rfl, rfl⟩
  rw [← hdb, (RetryService.record_promoteDue hswept).2 job hjob,
    RetryService.promoteRecord_of_row hrow hstatus]
  rfl

/-- `reap_expired` sends jobs that it has put back. -/
lemma queued_of_reapExpired
    (hrun : Sweep.reapExpired.run settings s.db tx locked batchSize now = some (s'.db, pushes))
    (hpush : .publish jobId priority ∈ pushes) :
    ∃ job, (s'.db.record jobId).row = some job ∧ job.status = .queued ∧
      job.lastDispatchedAt = some now := by
  obtain ⟨swept, hswept, heq⟩ := Option.map_eq_some_iff.mp hrun
  obtain ⟨hdb, rfl⟩ := Prod.mk.inj heq
  rw [Swept.pushes, LeaseService.published_reapExpired hswept, List.mem_append, List.map_map,
    List.mem_map, List.mem_map] at hpush
  rcases hpush with ⟨_, -, heq⟩ | ⟨job, hjob, heq⟩
  · cases heq
  · obtain ⟨rfl, -⟩ := Push.publish.inj heq
    obtain ⟨hselected, hleft⟩ := List.mem_filter.mp hjob
    have hleft : job.attempts < job.maxAttempts := of_decide_eq_true hleft
    obtain ⟨hrow, hstatus, -⟩ := LeaseService.row_of_findExpiredLeases hselected
    refine ⟨(JobRepository.requeueExpiredLease now).values job, ?_, rfl, rfl⟩
    change (s'.db.record job.id).row = _
    rw [← hdb, (LeaseService.record_reapExpired hswept).2 job hselected, LeaseService.reapRecord,
      if_neg (not_le.mpr hleft), LeaseService.requeueRecord_of_row hrow hstatus]
    rfl

/-- `redeliver_stuck` sends jobs that it has stamped. -/
lemma queued_of_redeliverStuck {stamp : UUID → Time}
    (hrun : (Sweep.redeliverStuck stamp).run settings s.db tx locked batchSize now =
      some (s'.db, pushes))
    (hpush : .publish jobId priority ∈ pushes) :
    ∃ job, (s'.db.record jobId).row = some job ∧ job.status = .queued ∧
      job.lastDispatchedAt = some (stamp jobId) := by
  obtain ⟨swept, hswept, heq⟩ := Option.map_eq_some_iff.mp hrun
  obtain ⟨hdb, rfl⟩ := Prod.mk.inj heq
  rw [DispatchService.pushes_redeliverStuck hswept, List.mem_map] at hpush
  obtain ⟨job, hjob, heq⟩ := hpush
  obtain ⟨rfl, -⟩ := Push.publish.inj heq
  have hselected := (Table.mem_of_mem_select hjob).2
  simp only [Bool.and_eq_true, decide_eq_true_eq] at hselected
  obtain ⟨⟨-, hstatus⟩, -⟩ := hselected
  have hrow : (s.db.record job.id).row = some job := Table.get?_of_mem_select hjob
  have hguard : (JobRepository.markRedispatched (stamp job.id)).guard job :=
    JobRepository.markRedispatched_guard.mpr hstatus
  refine ⟨(JobRepository.markRedispatched (stamp job.id)).values job, ?_, hstatus, rfl⟩
  rw [← hdb, (DispatchService.record_redeliverStuck hswept).2 job hjob, JobRecord.updateRow, hrow,
    Option.map_some, JobUpdate.apply_of_guard hguard]

/-- A dispatch of `PENDING` jobs sends jobs that it has queued. -/
lemma queued_of_dispatchPending (hreach : (orchestrator settings).Reachable Always s)
    (hstep : (orchestrator settings).step s (.sweep .dispatchPending tx locked batchSize now) =
      some s')
    (hrun : Sweep.dispatchPending.run settings s.db tx locked batchSize now =
      some (s'.db, pushes))
    (hpending : dispatchesPending s (.sweep .dispatchPending tx locked batchSize now))
    (hpush : .publish jobId priority ∈ pushes) :
    ∃ job, (s'.db.record jobId).row = some job ∧ job.status = .queued ∧
      job.lastDispatchedAt = some now := by
  obtain ⟨row, hclaimed, rfl, -⟩ := (mem_pushes_dispatchPending hreach hrun).mp hpush
  obtain ⟨job, hrow, hdispatched⟩ := step_dispatch hreach hstep hclaimed
  have hstatus : s.status row.jobId = some .pending :=
    of_decide_eq_true (List.all_eq_true.mp hpending row hclaimed)
  have hguard : (JobRepository.markQueued now).guard job :=
    JobRepository.markQueued_guard.mpr (Option.some.inj ((status_of_row hrow).symm.trans hstatus))
  refine ⟨(JobRepository.markQueued now).values job, ?_, rfl, rfl⟩
  rw [hdispatched, ← JobUpdate.apply_of_guard hguard]
  rfl

lemma feedsQueued_of_dispatches (hreach : (orchestrator settings).Reachable Always s)
    (hstep : (orchestrator settings).step s l = some s') (hpending : dispatchesPending s l) :
    FeedsQueued s l s' := by
  unfold FeedsQueued
  split
  · rename_i kind tx locked batchSize now
    intro pushes hpushes jobId priority hpush
    obtain ⟨collected, hrun, hcollected⟩ := pushes_of_step hstep
    obtain rfl := List.append_cancel_left (hpushes.symm.trans hcollected)
    cases kind with
    | dispatchPending => exact queued_of_dispatchPending hreach hstep hrun hpending hpush
    | promoteDue => exact queued_of_promoteDue hrun hpush
    | reapExpired => exact queued_of_reapExpired hrun hpush
    | redeliverStuck stamp => exact queued_of_redeliverStuck hrun hpush
    | expireStale =>
        obtain ⟨swept, hswept, heq⟩ := Option.map_eq_some_iff.mp hrun
        obtain ⟨-, rfl⟩ := Prod.mk.inj heq
        rw [ExpiryService.pushes_expireStale hswept] at hpush
        exact absurd hpush List.not_mem_nil
    | deliverNotifications io =>
        obtain ⟨db, -, heq⟩ := Option.map_eq_some_iff.mp hrun
        obtain ⟨-, rfl⟩ := Prod.mk.inj heq
        exact absurd hpush List.not_mem_nil
  · trivial

/-- The job of a claimed outbox row is sent, and it is only left `QUEUED` when it was `PENDING`. -/
lemma dispatches_of_feedsQueued (hreach : (orchestrator settings).Reachable Always s)
    (hstep : (orchestrator settings).step s l = some s') (hfeeds : FeedsQueued s l s') :
    dispatchesPending s l := by
  unfold dispatchesPending
  split
  · rename_i tx locked batchSize now
    refine List.all_eq_true.mpr fun row hclaimed => decide_eq_true ?_
    obtain ⟨pushes, hrun, hpushes⟩ := pushes_of_step hstep
    obtain ⟨job, hrow, hdispatched⟩ := step_dispatch hreach hstep hclaimed
    have hpush : .publish row.jobId job.priority ∈ pushes :=
      (mem_pushes_dispatchPending hreach hrun).mpr ⟨row, hclaimed, rfl, job, hrow, rfl⟩
    obtain ⟨job', hrow', hqueued, -⟩ := hfeeds pushes hpushes _ _ hpush
    have happlied : (s'.db.record row.jobId).row =
        some ((JobRepository.markQueued now).apply job) := by
      rw [hdispatched]
      rfl
    obtain rfl := Option.some.inj (happlied.symm.trans hrow')
    have hmem : row ∈ (s.db.record row.jobId).outbox :=
      Table.mem_children.mpr ⟨(Table.mem_of_mem_select hclaimed).1, rfl⟩
    have hwaits : row.status = .pending := by
      have hselected := (Table.mem_of_mem_select hclaimed).2
      simp only [Bool.and_eq_true, decide_eq_true_eq] at hselected
      exact hselected.2
    have hstatus : s.status row.jobId = some job.status := status_of_row hrow
    rw [hstatus]
    rcases undispatched_of_reachable hreach row.jobId row hmem hwaits job hrow with
      hpending | hended | hended
    · rw [hpending]
    · -- the row of a job that has ended stays as it is
      have hmissed : ¬ (JobRepository.markQueued now).guard job := by simp [hended]
      rw [JobUpdate.apply_of_not_guard hmissed, hended] at hqueued
      cases hqueued
    · have hmissed : ¬ (JobRepository.markQueued now).guard job := by simp [hended]
      rw [JobUpdate.apply_of_not_guard hmissed, hended] at hqueued
      cases hqueued
  · rfl

/-- **The lists are fed queued jobs exactly while dispatches claim rows of `PENDING` jobs.**  Along
a run, every id that a sweep sends to a priority list belongs to a job that the sweep has left
`QUEUED` and stamped if and only if every outbox row that a `dispatch_pending` of the run claims
belongs to a job that is `PENDING` at that moment. -/
theorem queue_sound_iff {s₀ : System settings.workerConcurrency}
    (h₀ : (orchestrator settings).init s₀) (ls : List (Label settings.workerConcurrency)) :
    (orchestrator settings).Along FeedsQueued s₀ ls ↔
      (orchestrator settings).Along (fun s l _ => dispatchesPending s l) s₀ ls :=
  along_congr (Reachable.start h₀)
    (fun _ _ _ hreach hstep =>
      ⟨dispatches_of_feedsQueued hreach hstep, feedsQueued_of_dispatches hreach hstep⟩) ls

/-- A job that is dispatched, loses its worker and is put back. -/
theorem queue_sound_iff_reaped :
    (orchestrator {}).Along FeedsQueued (System.start 4 0)
      (Scenario.submitted 5 ++ Scenario.dispatched ++ Scenario.claim Scenario.first 3 0 ++
        Scenario.reaped) :=
  (queue_sound_iff ⟨0, rfl⟩ _).mpr (by decide +kernel)

/-- The id of a job that was cancelled before its dispatch is sent to its list. -/
theorem cancelled_job_published :
    ∃ s s' : System 4, (orchestrator {}).Reachable Always s ∧
      (orchestrator {}).step s (.sweep .dispatchPending (Scenario.tx 2) [] 1 0) = some s' ∧
      s'.unpublished = s.unpublished ++ [.publish Scenario.jobId .normal] ∧
      s'.status Scenario.jobId = some .cancelled ∧
      ¬ FeedsQueued s (.sweep .dispatchPending (Scenario.tx 2) [] 1 0) s' := by
  obtain ⟨s, hsteps, hs⟩ := exists_of_run (T := orchestrator {}) (System.start 4 0)
    (Scenario.submitted 5 ++ [Scenario.cancel 0])
    (fun s => (s.step {} (.sweep .dispatchPending (Scenario.tx 2) [] 1 0)).any fun s' =>
      s'.unpublished = s.unpublished ++ [.publish Scenario.jobId .normal] &&
        s'.status Scenario.jobId = some .cancelled) (by decide +kernel)
  obtain ⟨s', hstep, hs'⟩ := (Option.any_eq_true ..).mp hs
  simp only [Bool.and_eq_true, decide_eq_true_eq] at hs'
  obtain ⟨hpushes, hstatus⟩ := hs'
  refine ⟨s, s', ⟨_, ⟨0, rfl⟩, hsteps⟩, hstep, hpushes, hstatus, fun hfeeds => ?_⟩
  obtain ⟨job, hrow, hqueued, -⟩ := hfeeds _ hpushes _ _ (List.mem_singleton_self _)
  rw [System.status, hrow, Option.map_some, hqueued] at hstatus
  cases hstatus

end Feeds

end JobOrchestrator
