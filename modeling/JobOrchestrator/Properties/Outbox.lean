import JobOrchestrator.Properties.Batching
import JobOrchestrator.Properties.Messages

/-!
# The dispatch outbox

`_create` writes the outbox row of a job in the transaction that creates the job, and
`dispatch_pending` marks the row in the transaction that queues the job.  So the row and the job
always tell the same story: the row waits while nobody has touched the job, and once it is
published it is never touched again.
-/

namespace JobOrchestrator

open ExecutionService SubmissionService TransitionSystem

variable {settings : Settings}

/-- Nothing but a cancellation or an expiry has happened to the job. -/
structure Job.Untouched (job : Job) : Prop where
  status : job.status = .pending ∨ job.status = .cancelled ∨ job.status = .expired
  queuedAt : job.queuedAt = none
  lastDispatchedAt : job.lastDispatchedAt = none
  startedAt : job.startedAt = none
  attempts : job.attempts = 0

/-- A job without a row has no outbox row, and otherwise it has exactly one, in one of two
phases. -/
inductive Outboxed (r : JobRecord) : Prop
  | absent (hrow : r.row = none) (houtbox : r.outbox = [])
  | waiting (job o) (hrow : r.row = some job) (houtbox : r.outbox = [o])
      (hstatus : o.status = .pending) (hattempts : o.attempts = 0)
      (hunpublished : o.publishedAt = none) (huntouched : job.Untouched)
  | published (job o t) (hrow : r.row = some job) (houtbox : r.outbox = [o])
      (hstatus : o.status = .published) (hattempts : o.attempts = 1)
      (hpublished : o.publishedAt = some t) (hdispatched : job.status ≠ .pending)

section Step

variable {s s' : System settings.workerConcurrency} {j : UUID}
  {l : Label settings.workerConcurrency} {life' : Life settings.workerConcurrency}

/-- A statement of another step than a dispatch leaves a job untouched that was so. -/
lemma untouched_of_issues {u : JobUpdate} (h : Issues s j l u) {job : Job}
    (hl : ∀ tx locked batchSize now, l ≠ .sweep .dispatchPending tx locked batchSize now)
    (hguard : u.guard job) (huntouched : job.Untouched) : (u.values job).Untouched := by
  have hpending : job.status = .pending := by
    rcases huntouched.status with hpending | hended | hended
    · exact hpending
    · exact absurd (by rw [hended]; decide) (not_isTerminal_of_issues h hguard)
    · exact absurd (by rw [hended]; decide) (not_isTerminal_of_issues h hguard)
  obtain ⟨-, hqueued, hdispatched, hstarted, hattempts⟩ := huntouched
  rcases undispatched_of_issues h hl hguard hpending with hended | hended
  all_goals
    cases h with
    | cancelInactive => exact ⟨Or.inr (Or.inl rfl), hqueued, hdispatched, hstarted, hattempts⟩
    | expire => exact ⟨Or.inr (Or.inr rfl), hqueued, hdispatched, hstarted, hattempts⟩
    | finalize e outcome =>
        rcases (held_of_finalizer hguard).2 with hheld | hheld <;> cases hpending.symm.trans hheld
    | heartbeat | updateProgress | markRedispatched =>
        cases hpending.symm.trans hended
    | requestRunningCancellation | claimForExecution | markQueued | moveRetryToQueued
    | failExpiredLease | requeueExpiredLease => cases hended

/-- The dispatch of a job publishes its row. -/
lemma outboxed_of_dispatched {tx : Tx} {locked : List UUID} {batchSize : ℕ} {now : Time}
    {row : DispatchOutbox} {job : Job} (hrow : (s.db.record j).row = some job)
    (hclaimed : row ∈ DispatchOutboxRepository.claimPending s.db locked batchSize)
    (hjob : row.jobId = j) (h : Outboxed (s.db.record j)) :
    Outboxed (DispatchService.dispatched tx now row job (s.db.record j)) := by
  obtain ⟨hmem, hwaits⟩ := Table.mem_of_mem_select hclaimed
  have hmem : row ∈ (s.db.record j).outbox := Table.mem_children.mpr ⟨hmem, hjob⟩
  simp only [Bool.and_eq_true, decide_eq_true_eq] at hwaits
  have hdispatched : ((JobRepository.markQueued now).apply job).status ≠ .pending := by
    by_cases hguard : (JobRepository.markQueued now).guard job
    · rw [JobUpdate.apply_of_guard hguard]
      exact fun h => by cases h
    · rw [JobUpdate.apply_of_not_guard hguard]
      exact fun hpending => hguard (JobRepository.markQueued_guard.mpr hpending)
  cases h with
  | absent hnone => cases hrow.symm.trans hnone
  | waiting job' o hrow' houtbox hstatus hattempts =>
      rw [houtbox, List.mem_singleton] at hmem
      subst hmem
      refine .published _ (DispatchOutboxRepository.published now row) now rfl ?_ rfl ?_ rfl
        hdispatched
      · simp [DispatchService.dispatched, houtbox]
      · show row.attempts + 1 = 1
        rw [hattempts]
  | published job' o t hrow' houtbox hstatus =>
      rw [houtbox, List.mem_singleton] at hmem
      subst hmem
      cases hwaits.2.symm.trans hstatus

/-- A step that leaves the outbox row alone. -/
lemma Outboxed.of_outbox {r r' : JobRecord} {job job' : Job} (h : Outboxed r)
    (hrow : r.row = some job) (hrow' : r'.row = some job') (houtbox : r'.outbox = r.outbox)
    (huntouched : job.Untouched → job'.Untouched)
    (hdispatched : job.status ≠ .pending → job'.status ≠ .pending) : Outboxed r' := by
  cases h with
  | absent hnone => cases hrow.symm.trans hnone
  | waiting job'' o hrow'' hone hstatus hattempts hunpublished hbefore =>
      obtain rfl := Option.some.inj (hrow.symm.trans hrow'')
      exact .waiting job' o hrow' (houtbox.trans hone) hstatus hattempts hunpublished
        (huntouched hbefore)
  | published job'' o t hrow'' hone hstatus hattempts hpublished hbefore =>
      obtain rfl := Option.some.inj (hrow.symm.trans hrow'')
      exact .published job' o t hrow' (houtbox.trans hone) hstatus hattempts hpublished
        (hdispatched hbefore)

lemma outboxed_of_jobStep (hlinked : Linked (s.life j)) (hbefore : Outboxed (s.db.record j))
    (h : JobStep s j l life') : Outboxed life'.record := by
  cases hrow : (s.db.record j).row with
  | none =>
      have hempty : s.db.record j = JobRecord.empty := hlinked.fresh hrow
      cases hrow' : life'.record.row with
      | none =>
          rw [record_of_row_none hempty h hrow']
          exact .absent rfl rfl
      | some job' =>
          cases h with
          | created tx' args now' hlimit =>
              refine .waiting _ (DispatchOutboxRepository.added tx' j) rfl ?_ rfl rfl rfl
                ⟨Or.inl rfl, rfl, rfl, rfl, rfl⟩
              rw [hempty]
              rfl
          | idle | tick | heartbeatFailed | decided | left => cases hrow.symm.trans hrow'
          | heartbeat | progressed | redelivered =>
              have hsame : ((s.db.record j).row.map _) = some job' := hrow'
              rw [hrow] at hsame
              cases hsame
          | superseded => cases hrow.symm.trans hrow'
          | notified r hsame =>
              have hkept : r.row = (s.db.record j).row := by rw [hsame.1]
              cases (hrow.symm.trans hkept.symm).trans hrow'
          | cancelRequested _ _ hsome | cancelled _ hsome | claimed _ _ hsome
          | finalized _ _ _ _ _ hsome | dispatched _ _ _ _ hsome | promoted _ hsome
          | leaseFailed _ hsome | requeued _ hsome | expired _ hsome =>
              cases hrow.symm.trans hsome
  | some job =>
      rcases outbox_of_jobStep h hrow with
        houtbox | ⟨tx, locked, batchSize, now, row, rfl, hclaimed, hjob, hrecord⟩
      · rcases row_of_jobStep_of_row h hrow with hsame | ⟨u, hu, hguard, hvalues⟩
        · exact hbefore.of_outbox hrow hsame houtbox id id
        · by_cases hl : ∃ tx locked batchSize now,
              l = .sweep .dispatchPending tx locked batchSize now
          · obtain ⟨tx, locked, batchSize, now, rfl⟩ := hl
            cases h with
            | idle | left => exact hbefore
            | dispatched row job' hclaimed hjob hrow' =>
                exact outboxed_of_dispatched hrow' hclaimed hjob hbefore
          · have hother : ∀ tx locked batchSize now,
                l ≠ .sweep .dispatchPending tx locked batchSize now :=
              fun tx locked batchSize now heq => hl ⟨tx, locked, batchSize, now, heq⟩
            exact hbefore.of_outbox hrow hvalues houtbox (untouched_of_issues hu hother hguard)
              fun _ => not_pending_of_issues hu hguard
      · rw [hrecord]
        exact outboxed_of_dispatched hrow hclaimed hjob hbefore

/-- A published row stays as it is. -/
lemma published_of_jobStep {o : DispatchOutbox} (hrow : (s.db.record j).row ≠ none)
    (houtbox : (s.db.record j).outbox = [o]) (hstatus : o.status = .published)
    (h : JobStep s j l life') : life'.record.outbox = [o] := by
  obtain ⟨job, hrow⟩ := Option.ne_none_iff_exists'.mp hrow
  rcases outbox_of_jobStep h hrow with
    hsame | ⟨_, _, _, _, row, -, hclaimed, hjob, -⟩
  · exact hsame.trans houtbox
  · obtain ⟨hmem, hwaits⟩ := Table.mem_of_mem_select hclaimed
    have hmem : row ∈ (s.db.record j).outbox := Table.mem_children.mpr ⟨hmem, hjob⟩
    simp only [Bool.and_eq_true, decide_eq_true_eq] at hwaits
    rw [houtbox, List.mem_singleton] at hmem
    rw [hmem] at hwaits
    cases hwaits.2.symm.trans hstatus

lemma outboxed_of_reachable
    {C : System settings.workerConcurrency → Label settings.workerConcurrency → Prop}
    (h : (orchestrator settings).Reachable C s) (j : UUID) : Outboxed (s.db.record j) :=
  life_invariant (I := fun life => Outboxed life.record) (fun _ _ => .absent rfl rfl)
    (fun _ _ _ j hreach _ hstep hbefore =>
      outboxed_of_jobStep (linked_of_reachable hreach j) hbefore hstep) h j

lemma published_of_steps {o : DispatchOutbox} (hreach : (orchestrator settings).Reachable Always s)
    (hsteps : (orchestrator settings).Steps Always s s')
    (hpublished : (s.db.record j).outbox = [o] ∧ o.status = .published) :
    (s'.db.record j).outbox = [o] ∧ o.status = .published := by
  refine hreach.preserves (I := fun s => (s.db.record j).outbox = [o] ∧ o.status = .published)
    (fun _ _ _ => trivial) ?_ hsteps hpublished
  rintro s l s' hreach - hstep ⟨houtbox, hstatus⟩
  have hrow : (s.db.record j).row ≠ none := by
    intro hnone
    have hempty : s.db.record j = JobRecord.empty := (linked_of_reachable hreach j).fresh hnone
    rw [hempty] at houtbox
    cases houtbox
  exact ⟨published_of_jobStep hrow houtbox hstatus (jobStep_of_reachable hreach hstep j), hstatus⟩

/-- **A job is published once.**  In every reachable state each job has exactly one outbox row: it
waits, untried, while the job has neither been dispatched nor started, and else it was published by
one attempt and the job has left `PENDING`.  A published row is never written again. -/
theorem job_published_once (h : (orchestrator settings).Reachable Always s)
    (hsteps : (orchestrator settings).Steps Always s s') :
    (∀ j, Outboxed (s.db.record j)) ∧ ∀ o ∈ s.db.dispatchOutbox.rows, o.status = .published →
      o ∈ s'.db.dispatchOutbox.rows := by
  refine ⟨outboxed_of_reachable h, fun o ho hstatus => ?_⟩
  have hmem : o ∈ (s.db.record o.jobId).outbox := Table.mem_children.mpr ⟨ho, rfl⟩
  have houtbox : (s.db.record o.jobId).outbox = [o] :=
    outbox_eq_singleton (linked_of_reachable h o.jobId).outbox_le hmem
  have hafter := (published_of_steps h hsteps ⟨houtbox, hstatus⟩).1
  have hkept : o ∈ (s'.db.record o.jobId).outbox := by
    rw [hafter]
    exact List.mem_singleton_self o
  exact (Table.mem_children.mp hkept).1

/-- A job that is dispatched and then claimed. -/
theorem job_published_once_claimed : ∃ (s s' : System 4) (o : DispatchOutbox),
    o ∈ s.db.dispatchOutbox.rows ∧ o.status = .published ∧
      s'.status Scenario.jobId = some .running ∧
      (∀ j, Outboxed (s.db.record j)) ∧ o ∈ s'.db.dispatchOutbox.rows := by
  obtain ⟨s, hbefore, hs⟩ := exists_of_run (T := orchestrator {}) (System.start 4 0)
    (Scenario.submitted 3 ++ Scenario.dispatched)
    (fun s => s.db.dispatchOutbox.rows.any fun o => o.status = .published &&
      ((orchestrator {}).run s (Scenario.claim Scenario.first 3 0)).any fun s' =>
        s'.status Scenario.jobId = some .running) (by decide +kernel)
  obtain ⟨o, ho, hboth⟩ := List.any_eq_true.mp hs
  obtain ⟨hstatus, hrun⟩ := Bool.and_eq_true_iff.mp hboth
  obtain ⟨s', hsteps, hs'⟩ := exists_of_run _ _ _ hrun
  have hstatus : o.status = .published := of_decide_eq_true hstatus
  obtain ⟨houtboxed, hkept⟩ := job_published_once ⟨_, ⟨0, rfl⟩, hbefore⟩ hsteps
  exact ⟨s, s', o, ho, hstatus, of_decide_eq_true hs', houtboxed, hkept o ho hstatus⟩

end Step

end JobOrchestrator
