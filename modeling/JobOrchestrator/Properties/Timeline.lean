import JobOrchestrator.Properties.Transitions

/-!
# The audit timeline

`job_events` is written beside the guarded `UPDATE`s.  All but one of the writers record an
event only when their `UPDATE` matched; `dispatch_pending` does not look, and records
`QUEUED` for a job that was cancelled or expired while its outbox row was pending.  As long as
the claimed outbox rows belong to jobs that are `PENDING`, each transaction records exactly its
own status change.
-/

namespace JobOrchestrator

open ExecutionService SubmissionService CancellationService TransitionSystem

variable {settings : Settings}

/-- The status of the job, if it exists. -/
def JobRecord.status (r : JobRecord) : Option JobStatus := r.row.map Job.status

/-- From `r` to `r'` the timeline was kept: neither the status nor the timeline moved, or the
status moved and one event was appended, which says where. -/
def Records (r r' : JobRecord) : Prop :=
  (r'.status = r.status ∧ r'.events = r.events) ∨
    ∃ event, r'.events = r.events ++ [event] ∧ event.toStatus = r'.status ∧ r'.status ≠ r.status

/-- The step keeps the timeline of every job. -/
def RecordsChanges {concurrency : ℕ} (s s' : System concurrency) : Prop :=
  ∀ jobId, Records (s.db.record jobId) (s'.db.record jobId)

/-- The last event of every job names its status. -/
def LastEventCurrent {concurrency : ℕ} (s : System concurrency) : Prop :=
  ∀ jobId, (s.db.record jobId).events.getLast?.bind JobEvent.toStatus = s.status jobId

/-- The step is no dispatch that claims an outbox row of a job that is not `PENDING`. -/
def dispatchesPending {concurrency : ℕ} (s : System concurrency) : Label concurrency → Bool
  | .sweep .dispatchPending _ locked batchSize _ =>
      (DispatchOutboxRepository.claimPending s.db locked batchSize).all fun row =>
        s.status row.jobId = some .pending
  | _ => true

section Record

variable {r r' : JobRecord} {job job' : Job}

lemma status_of_row (hrow : r.row = some job) : r.status = some job.status := by
  rw [JobRecord.status, hrow, Option.map_some]

/-- A statement that keeps the status, without an event. -/
lemma records_updateRow {u : JobUpdate} (hstatus : ∀ job, (u.values job).status = job.status) :
    Records r (r.updateRow u) := by
  refine Or.inl ⟨?_, rfl⟩
  rcases updateRow_cases (r := r) u with hsame | ⟨job, hrow, -, hvalues⟩
  · rw [JobRecord.status, hsame, JobRecord.status]
  · rw [status_of_row hvalues, hstatus, status_of_row hrow]

/-- A statement that changes the status, with the event for it. -/
lemma records_change {source target : JobStatus} {event : JobEvent} (hrow : r.row = some job)
    (hsource : job.status = source) (hevents : r'.events = r.events ++ [event])
    (hto : event.toStatus = some target) (hrow' : r'.row = some job')
    (htarget : job'.status = target) (hne : source ≠ target) : Records r r' := by
  have hstatus : r'.status = some target := by rw [status_of_row hrow', htarget]
  refine Or.inr ⟨event, hevents, hto.trans hstatus.symm, ?_⟩
  rw [hstatus, status_of_row hrow, hsource]
  exact fun h => hne (Option.some.inj h).symm

/-- The timeline goes on naming the status. -/
lemma last_of_records (h : Records r r')
    (hlast : r.events.getLast?.bind JobEvent.toStatus = r.status) :
    r'.events.getLast?.bind JobEvent.toStatus = r'.status := by
  rcases h with ⟨hstatus, hevents⟩ | ⟨event, hevents, hto, -⟩
  · rw [hevents, hstatus, hlast]
  · rw [hevents, List.getLast?_concat, Option.bind_some, hto]

end Record

section Step

variable {s s' : System settings.workerConcurrency} {j : UUID}
  {l : Label settings.workerConcurrency} {life' : Life settings.workerConcurrency}

lemma records_of_jobStep (h : JobStep s j l life') (hdispatches : dispatchesPending s l) :
    Records (s.db.record j) life'.record := by
  cases h with
  | idle | tick | heartbeatFailed | decided | superseded | left => exact Or.inl ⟨rfl, rfl⟩
  | notified r hsame =>
      rw [hsame.1]
      exact Or.inl ⟨rfl, rfl⟩
  | heartbeat | progressed | redelivered => exact records_updateRow fun _ => rfl
  | created tx' args now' hlimit hrow =>
      refine Or.inr ⟨_, rfl, rfl, ?_⟩
      have hnone : (s.db.record j).status = none := by rw [JobRecord.status, hrow, Option.map_none]
      rw [hnone]
      exact Option.some_ne_none _
  | cancelRequested job hlock hrow hstatus =>
      exact records_change hrow hstatus rfl rfl rfl rfl (by decide)
  | cancelled job hrow hstatus =>
      have hne : ∀ status ∈ JobRepository.inactiveCancellable, status ≠ .cancelled := by decide
      exact records_change hrow rfl JobRecord.enqueue_events rfl JobRecord.enqueue_row rfl
        (hne _ hstatus)
  | claimed job hworker hrow hguard =>
      rcases (JobRepository.claimForExecution_guard.mp hguard).1 with hstatus | hstatus
      · exact records_change hrow hstatus rfl rfl rfl rfl (by decide)
      · exact records_change hrow hstatus rfl rfl rfl rfl (by decide)
  | finalized e outcome job he hstage hrow hguard =>
      obtain ⟨hne, hne'⟩ := finalizer_inactive outcome
      rcases (held_of_finalizer hguard).2 with hstatus | hstatus
      · exact records_change hrow hstatus finalized_events rfl finalized_row finalizer_status
          hne.symm
      · exact records_change hrow hstatus finalized_events rfl finalized_row finalizer_status
          hne'.symm
  | dispatched row job hclaimed hjob hrow =>
      have hstatus : job.status = .pending := by
        have hpending := of_decide_eq_true (List.all_eq_true.mp hdispatches row hclaimed)
        rw [hjob] at hpending
        exact Option.some.inj ((status_of_row hrow).symm.trans hpending)
      have happly : ∀ now, (JobRepository.markQueued now).apply job =
          (JobRepository.markQueued now).values job := fun _ =>
        JobUpdate.apply_of_guard (JobRepository.markQueued_guard.mpr hstatus)
      exact records_change hrow hstatus rfl rfl (congrArg some (happly _)) rfl (by decide)
  | promoted job hrow hstatus => exact records_change hrow hstatus rfl rfl rfl rfl (by decide)
  | leaseFailed job hrow hstatus =>
      exact records_change hrow hstatus JobRecord.enqueue_events rfl JobRecord.enqueue_row rfl
        (by decide)
  | requeued job hrow hstatus => exact records_change hrow hstatus rfl rfl rfl rfl (by decide)
  | expired job hrow hstatus =>
      have hne : ∀ status ∈ JobRepository.expirable, status ≠ .expired := by decide
      exact records_change hrow rfl JobRecord.enqueue_events rfl JobRecord.enqueue_row rfl
        (hne _ hstatus)

/-- A dispatch queues the jobs of the outbox rows it claims, and records this for each of them
whether or not it happened. -/
lemma step_dispatch {tx : Tx} {locked : List UUID} {batchSize : ℕ} {now : Time}
    {row : DispatchOutbox} (hreach : (orchestrator settings).Reachable Always s)
    (hstep : (orchestrator settings).step s (.sweep .dispatchPending tx locked batchSize now) =
      some s')
    (hrow : row ∈ DispatchOutboxRepository.claimPending s.db locked batchSize) :
    ∃ job, (s.db.record row.jobId).row = some job ∧
      s'.db.record row.jobId =
        DispatchService.dispatched tx now row job (s.db.record row.jobId) := by
  have hlinked : ∀ i, Linked (s.life i) := linked_of_reachable hreach
  obtain ⟨-, -, pushes, hrun⟩ := step_sweep hstep
  obtain ⟨swept, hswept, heq⟩ := Option.map_eq_some_iff.mp hrun
  obtain ⟨hdb, -⟩ := Prod.mk.inj heq
  obtain ⟨-, hitem⟩ := DispatchService.record_dispatchPending hswept
    fun i => (hlinked i).outbox_le
  obtain ⟨job, hjob⟩ := row_of_claimPending hlinked hrow
  refine ⟨job, hjob, ?_⟩
  rw [← DispatchService.dispatchRecord_of_row hjob, ← hdb]
  exact hitem row hrow

/-- The event that a dispatch records for a job that is not `PENDING` belongs to no change. -/
lemma dispatches_of_records (hreach : (orchestrator settings).Reachable Always s)
    (hstep : (orchestrator settings).step s l = some s') (hrecords : RecordsChanges s s') :
    dispatchesPending s l := by
  unfold dispatchesPending
  split
  · rename_i tx locked batchSize now
    refine List.all_eq_true.mpr fun row hrow => decide_eq_true ?_
    obtain ⟨job, hjob, hdispatched⟩ := step_dispatch hreach hstep hrow
    have hstatus : s.status row.jobId = some job.status := status_of_row hjob
    rw [hstatus]
    have hkept := hrecords row.jobId
    rw [hdispatched] at hkept
    rcases hkept with ⟨-, hevents⟩ | ⟨event, -, -, hmoved⟩
    · exact absurd hevents (by simp [DispatchService.dispatched])
    · -- the status moved, so `mark_queued` matched
      by_contra hpending
      refine hmoved ?_
      have hmissed : ¬ (JobRepository.markQueued now).guard job := fun hguard =>
        hpending (congrArg some (JobRepository.markQueued_guard.mp hguard))
      rw [status_of_row hjob]
      exact congrArg (fun job => some job.status) (JobUpdate.apply_of_not_guard hmissed)
  · rfl

lemma recordsChanges_of_dispatches (hreach : (orchestrator settings).Reachable Always s)
    (hstep : (orchestrator settings).step s l = some s') (hdispatches : dispatchesPending s l) :
    RecordsChanges s s' :=
  fun j => records_of_jobStep (jobStep_of_reachable hreach hstep j) hdispatches

lemma lastEventCurrent_of_reachable
    (h : (orchestrator settings).Reachable (fun s l => dispatchesPending s l) s) :
    LastEventCurrent s := by
  intro j
  refine life_invariant (I := fun life =>
    life.record.events.getLast?.bind JobEvent.toStatus = life.record.status)
    (fun _ _ => rfl) (fun s l life' j _ hdispatches hstep hlast => ?_) h j
  exact last_of_records (records_of_jobStep hstep hdispatches) hlast

/-- **The timeline is kept exactly while dispatches claim rows of `PENDING` jobs.**  In a run,
every transaction records one event for each status change it commits and no other, and the
last event of every job names its status, if and only if every outbox row that a
`dispatch_pending` of the run claims belongs to a job that is `PENDING` at that moment. -/
theorem timeline_kept_iff {s₀ : System settings.workerConcurrency}
    {ls : List (Label settings.workerConcurrency)} (h₀ : (orchestrator settings).init s₀)
    (hrun : (orchestrator settings).run s₀ ls = some s) :
    ((orchestrator settings).Along (fun s _ s' => RecordsChanges s s') s₀ ls ∧
        LastEventCurrent s) ↔
      (orchestrator settings).Along (fun s l _ => dispatchesPending s l) s₀ ls := by
  have hsteps : (orchestrator settings).Along (fun s _ s' => RecordsChanges s s') s₀ ls ↔
      (orchestrator settings).Along (fun s l _ => dispatchesPending s l) s₀ ls :=
    along_congr (Reachable.start h₀)
      (fun _ _ _ hreach hstep => ⟨dispatches_of_records hreach hstep,
        recordsChanges_of_dispatches hreach hstep⟩) ls
  rw [hsteps]
  refine ⟨fun h => h.1, fun h => ⟨h, ?_⟩⟩
  exact lastEventCurrent_of_reachable ⟨s₀, h₀, h.steps hrun⟩

/-- A job that is retried once and then cancelled. -/
theorem timeline_kept_iff_retry :
    ∃ s : System 4, s.status Scenario.jobId = some .cancelled ∧
      (s.db.record Scenario.jobId).events.getLast?.bind JobEvent.toStatus = some .cancelled := by
  obtain ⟨s, hrun, hs⟩ := (Option.any_eq_true ..).mp
    (show ((orchestrator {}).run (System.start 4 0)
      (Scenario.submitted 3 ++ Scenario.dispatched ++ Scenario.claim Scenario.first 3 0 ++
        Scenario.backOff Scenario.first 0 ++
        [Scenario.finalize Scenario.first 4 0, Scenario.cancel 0])).any
      (fun s => s.status Scenario.jobId = some .cancelled) by decide +kernel)
  have hstatus : s.status Scenario.jobId = some .cancelled := of_decide_eq_true hs
  obtain ⟨-, hlast⟩ := (timeline_kept_iff ⟨0, rfl⟩ hrun).mpr (by decide +kernel)
  exact ⟨s, hstatus, (hlast Scenario.jobId).trans hstatus⟩

/-- A job that is cancelled before its dispatch: its last event says that it was queued. -/
theorem cancelled_job_recorded_queued :
    ∃ s : System 4, (orchestrator {}).Reachable Always s ∧
      s.status Scenario.jobId = some .cancelled ∧
      (s.db.record Scenario.jobId).events.getLast?.bind JobEvent.toStatus = some .queued := by
  obtain ⟨s, hsteps, hs⟩ := exists_of_run (T := orchestrator {}) (System.start 4 0)
    (Scenario.submitted 3 ++ [Scenario.cancel 0] ++ Scenario.dispatched)
    (fun s => s.status Scenario.jobId = some .cancelled &&
      (s.db.record Scenario.jobId).events.getLast?.bind JobEvent.toStatus = some .queued)
    (by decide +kernel)
  simp only [Bool.and_eq_true, decide_eq_true_eq] at hs
  exact ⟨s, ⟨_, ⟨0, rfl⟩, hsteps⟩, hs.1, hs.2⟩

end Step

end JobOrchestrator
