import JobOrchestrator.Properties.Claims
import JobOrchestrator.Properties.Progress
import JobOrchestrator.Workers.Drain

/-!
# Steps of a job that runs alone

With fresh ids every step of an attempt is enabled and does what its transaction says, and a sweep
finds the one job that it can be about.
-/

namespace JobOrchestrator

open ExecutionService TransitionSystem

variable {settings : Settings}

section Steps

variable {s : System settings.workerConcurrency} {c : Coroutine settings.workerConcurrency}
  {e : Execution} {tx : Tx} {job : Job}

lemma timely_begun (tx : Tx) : s.timely (Attempts.begun tx s.clock) s.clock = true := by
  simp [System.timely, Attempts.begun]

lemma step_executing (he : s.workers c = .executing e) (action : WorkerAction) :
    s.step settings (.worker c action) = s.executionStep c settings e action := by
  simp only [System.step, System.workerStep, he]

lemma step_readCancellation {code message : String} (he : s.workers c = .executing e)
    (hstage : e.stage = .deciding code message) :
    s.step settings (.worker c .readCancellation) =
      some (s.resume c e (e.afterRead code message (cancellationRequested s.db e.jobId))) := by
  simp only [step_executing he, System.executionStep, hstage]

lemma step_computeBackoff {code message : String} (he : s.workers c = .executing e)
    (hstage : e.stage = .backingOff code message) (backoff : ℕ) :
    s.step settings (.worker c (.computeBackoff s.clock backoff)) =
      some (s.resume c e (.finalizing (.retry code message (s.clock + backoff)))) := by
  simp [step_executing he, System.executionStep, hstage]

/-- The tables hold no attempt with the id. -/
lemma get?_attempt_eq_none {db : Database} {id : UUID}
    (h : ∀ i, ∀ b ∈ (db.record i).attempts, b.id ≠ id) : db.jobAttempts.get? id = none :=
  Table.get?_eq_none.mpr fun b hb => h b.jobId b (Table.mem_children.mpr ⟨hb, rfl⟩)

/-- The tables hold no notification with the id. -/
lemma get?_notification_eq_none {db : Database} {id : UUID}
    (h : ∀ i, ∀ n ∈ (db.record i).notifications, n.id ≠ id) :
    db.notificationOutbox.get? id = none :=
  Table.get?_eq_none.mpr fun n hn => h n.jobId n (Table.mem_children.mpr ⟨hn, rfl⟩)

/-- A claim that its guard allows wins, with a fresh attempt id. -/
lemma step_claim_won (h : (orchestrator settings).Reachable Always s) {j : UUID}
    (hdelivered : s.workers c = .delivered j) (hrow : (s.db.record j).row = some job)
    (hguard : (JobRepository.claimForExecution c.workerId settings.workerLeaseSeconds
      s.clock).guard job)
    (hfresh : ∀ i, ∀ b ∈ (s.db.record i).attempts, b.id ≠ tx.attemptId) :
    ∃ db, s.step settings (.worker c (.claim (Attempts.begun tx s.clock) s.clock)) =
        some ({ s with db }.become c (.executing (.start j
          ⟨job.attempts + 1, tx.attemptId, ⟨job.type, job.payload, job.maxAttempts⟩⟩))) ∧
      db.record = Function.update s.db.record j
        (claimed settings (Attempts.begun tx s.clock) c.workerId s.clock job (s.db.record j)) := by
  have hsome : (claim settings s.db (Attempts.begun tx s.clock) c.workerId j s.clock).isSome :=
    claim_isSome h (get?_attempt_eq_none hfresh)
  obtain ⟨⟨db, result⟩, hclaim⟩ := Option.isSome_iff_exists.mp hsome
  rcases claim_cases hclaim with ⟨-, -, hmissed⟩ | ⟨job', hrow', -, hresult, hrecord⟩
  · exact absurd hguard (hmissed job hrow)
  · obtain rfl := Option.some.inj (hrow.symm.trans hrow')
    refine ⟨db, ?_, hrecord⟩
    simp only [System.step, System.workerStep, hdelivered, timely_begun, if_true, hclaim, hresult,
      Option.map_some]
    rfl

/-- A finalizing transaction whose guard matches commits, with a fresh notification id. -/
lemma step_finalize_hit {outcome : Outcome} (he : s.workers c = .executing e)
    (hstage : e.stage = .finalizing outcome)
    (hown : ∃ b ∈ (s.db.record e.jobId).attempts, b.id = e.attemptId)
    (hrow : (s.db.record e.jobId).row = some job)
    (hguard : (outcome.finalizer.update c.workerId s.clock).guard job)
    (hfresh : ∀ i, ∀ n ∈ (s.db.record i).notifications, n.id ≠ tx.notificationId e.jobId) :
    ∃ db, s.step settings (.worker c (.finalize (Attempts.begun tx s.clock) s.clock)) =
        some ({ s with db }.resume c e (Stage.afterFinalize true outcome)) ∧
      db.record = Function.update s.db.record e.jobId
        (finalized (Attempts.begun tx s.clock) c.workerId e.attemptId s.clock outcome.finalizer job
          (s.db.record e.jobId)) := by
  have hid : job.id = e.jobId := s.db.id_of_row e.jobId hrow
  have hsome : (finalize s.db (Attempts.begun tx s.clock) c.workerId e.jobId e.attemptId s.clock
      outcome.finalizer).isSome := by
    have hget : JobRepository.get s.db e.jobId = some job := hrow
    have hfree : s.db.notificationOutbox.get?
        ((Attempts.begun tx s.clock).notificationId job.id) = none := by
      rw [hid]
      exact get?_notification_eq_none hfresh
    unfold finalize
    rw [hget]
    dsimp only
    rw [Database.updateJob_matched_iff hrow, if_pos hguard]
    split
    · rw [Option.isSome_map]
      exact enqueue_isSome hfree
    · rfl
  obtain ⟨⟨db, hit⟩, hfinalize⟩ := Option.isSome_iff_exists.mp hsome
  rcases finalize_cases hfinalize hown with ⟨-, hmissed, -⟩ | ⟨job', hrow', -, rfl, hrecord⟩
  · exact absurd hguard (hmissed job hrow)
  · obtain rfl := Option.some.inj (hrow.symm.trans hrow')
    refine ⟨db, ?_, hrecord⟩
    simp only [step_executing he, System.executionStep, hstage, timely_begun, if_true, hfinalize,
      Option.map_some]

/-- No other job waits for a retry or runs. -/
def Alone (db : Database) (j : UUID) : Prop :=
  ∀ i job, i ≠ j → (db.record i).row = some job → job.status ≠ .retrying ∧ job.status ≠ .running

lemma eq_of_alone {db : Database} {j : UUID} (halone : Alone db j)
    (hrow : (db.record j).row = some job) {other : Job} (hmem : other ∈ db.jobs.rows)
    (hstatus : other.status = .retrying ∨ other.status = .running) : other = job := by
  have hother : (db.record other.id).row = some other := Table.get?_of_mem hmem
  by_cases hj : other.id = j
  · rw [hj] at hother
    exact Option.some.inj (hother.symm.trans hrow)
  · obtain ⟨hretrying, hrunning⟩ := halone other.id other hj hother
    rcases hstatus with hstatus | hstatus
    · exact absurd hstatus hretrying
    · exact absurd hstatus hrunning

lemma findDueRetries_alone {db : Database} {j : UUID} {now : Time} {limit : ℕ}
    (halone : Alone db j) (hrow : (db.record j).row = some job) (hstatus : job.status = .retrying)
    (hdue : job.nextAttemptAt.any fun t => t ≤ now) (hlimit : 1 ≤ limit) :
    JobRepository.findDueRetries db [] now limit = [job] := by
  refine Table.select_eq_singleton (Table.get?_eq_some.mp hrow).1 ?_ ?_ hlimit
  · simp [hstatus, hdue]
  · intro other hmem hother
    simp only [Bool.and_eq_true, decide_eq_true_eq] at hother
    exact eq_of_alone halone hrow hmem (Or.inl hother.1.2)

lemma findExpiredLeases_alone {db : Database} {j : UUID} {now : Time} {limit : ℕ}
    (halone : Alone db j) (hrow : (db.record j).row = some job) (hstatus : job.status = .running)
    (hexpired : job.lockExpiresAt.any fun t => t < now) (hlimit : 1 ≤ limit) :
    JobRepository.findExpiredLeases db [] now limit = [job] := by
  refine Table.select_eq_singleton (Table.get?_eq_some.mp hrow).1 ?_ ?_ hlimit
  · simp [hstatus, hexpired]
  · intro other hmem hother
    simp only [Bool.and_eq_true, decide_eq_true_eq] at hother
    exact eq_of_alone halone hrow hmem (Or.inr hother.1.2)

/-- A sweep that collects one push, with nothing else waiting. -/
lemma sweep_single {kind : Sweep} {batchSize : ℕ} {db : Database} {push : Push}
    (hunpublished : s.unpublished = [])
    (hkind : kind.timely settings s.db [] batchSize s.clock s.clock)
    (hrun : kind.run settings s.db (Attempts.begun tx s.clock) [] batchSize s.clock =
      some (db, [push])) :
    Scheduler.sweep settings batchSize s kind ⟨Attempts.begun tx s.clock, s.clock⟩ =
      some { s with db, queue := s.queue.push push } := by
  simp [Scheduler.sweep, Scheduler.publishAll, System.step, timely_begun, hkind, hrun,
    hunpublished]

/-- The sweep that puts a due retry back. -/
lemma sweep_promote (tx : Tx) {j : UUID} {batchSize : ℕ} (hbatch : 1 ≤ batchSize)
    (hunpublished : s.unpublished = []) (halone : Alone s.db j)
    (hrow : (s.db.record j).row = some job) (hstatus : job.status = .retrying)
    (hdue : job.nextAttemptAt.any fun t => t ≤ s.clock) :
    ∃ db, Scheduler.sweep settings batchSize s .promoteDue
        ⟨Attempts.begun tx s.clock, s.clock⟩ =
          some { s with db, queue := s.queue.publish j job.priority } ∧
      db.record = Function.update s.db.record j
        (RetryService.promoted (Attempts.begun tx s.clock) s.clock job (s.db.record j)) := by
  obtain rfl : job.id = j := s.db.id_of_row j hrow
  have hselect := findDueRetries_alone halone hrow hstatus hdue hbatch
  have hsome : (RetryService.promoteDue s.db (Attempts.begun tx s.clock) [] batchSize
      s.clock).isSome := promoteDue_isSome
  obtain ⟨swept, hswept⟩ := Option.isSome_iff_exists.mp hsome
  have hpushes := RetryService.pushes_promoteDue hswept
  rw [hselect] at hpushes
  have hrun : Sweep.promoteDue.run settings s.db (Attempts.begun tx s.clock) [] batchSize s.clock =
      some (swept.db, [.publish job.id job.priority]) := by
    rw [← List.map_singleton (f := fun job : Job => Push.publish job.id job.priority), ← hpushes]
    exact Option.map_eq_some_iff.mpr ⟨swept, hswept, rfl⟩
  refine ⟨swept.db, sweep_single hunpublished rfl hrun, Function.eq_update_iff.mpr ⟨?_, ?_⟩⟩
  · have hmem : job ∈ JobRepository.findDueRetries s.db [] s.clock batchSize := by
      rw [hselect]
      exact List.mem_singleton_self job
    rw [(RetryService.record_promoteDue hswept).2 job hmem]
    exact RetryService.promoteRecord_of_row hrow hstatus
  · intro i hi
    refine (RetryService.record_promoteDue hswept).1 i ?_
    rw [hselect, List.map_singleton, List.mem_singleton]
    exact hi

/-- A reap of one job commits, with a fresh notification id. -/
lemma reapExpired_single {db : Database} {batchSize : ℕ} {now : Time}
    (hselect : JobRepository.findExpiredLeases db [] now batchSize = [job])
    (hfresh : ∀ i, ∀ n ∈ (db.record i).notifications, n.id ≠ tx.notificationId job.id) :
    (LeaseService.reapExpired db tx [] batchSize now).isSome := by
  rw [LeaseService.reapExpired, hselect, List.foldlM_cons]
  simp only [List.foldlM_nil]
  have hrow : (LeaseService.reapRow tx now (.start db) job).isSome := by
    unfold LeaseService.reapRow
    split
    · unfold LeaseService.failRow
      dsimp only
      split
      · rw [Option.isSome_map]
        exact enqueue_isSome (get?_notification_eq_none hfresh)
      · rfl
    · unfold LeaseService.requeueRow
      dsimp only
      split <;> rfl
  obtain ⟨swept, hswept⟩ := Option.isSome_iff_exists.mp hrow
  rw [hswept]
  rfl

/-- The sweep that takes a job from its dead worker. -/
lemma sweep_reap (tx : Tx) {j : UUID} {batchSize : ℕ} (hbatch : 1 ≤ batchSize)
    (hunpublished : s.unpublished = []) (halone : Alone s.db j)
    (hrow : (s.db.record j).row = some job) (hstatus : job.status = .running)
    (hexpired : job.lockExpiresAt.any fun t => t < s.clock)
    (hfresh : ∀ i, ∀ n ∈ (s.db.record i).notifications, n.id ≠ tx.notificationId j) :
    ∃ db, Scheduler.sweep settings batchSize s .reapExpired
        ⟨Attempts.begun tx s.clock, s.clock⟩ =
          some { s with
            db
            queue := if job.maxAttempts ≤ job.attempts then s.queue.deadLetter j
              else s.queue.publish j job.priority } ∧
      db.record = Function.update s.db.record j
        (LeaseService.reapRecord (Attempts.begun tx s.clock) s.clock job (s.db.record j)) := by
  obtain rfl : job.id = j := s.db.id_of_row j hrow
  have hselect := findExpiredLeases_alone halone hrow hstatus hexpired hbatch
  have hsome : (LeaseService.reapExpired s.db (Attempts.begun tx s.clock) [] batchSize
      s.clock).isSome := reapExpired_single hselect hfresh
  obtain ⟨swept, hswept⟩ := Option.isSome_iff_exists.mp hsome
  have hdead := LeaseService.deadLettered_reapExpired hswept
  have hpublished := LeaseService.published_reapExpired hswept
  rw [hselect] at hdead hpublished
  have hrecord : swept.db.record = Function.update s.db.record job.id
      (LeaseService.reapRecord (Attempts.begun tx s.clock) s.clock job (s.db.record job.id)) := by
    refine Function.eq_update_iff.mpr ⟨?_, fun i hi => ?_⟩
    · refine (LeaseService.record_reapExpired hswept).2 job ?_
      rw [hselect]
      exact List.mem_singleton_self job
    · refine (LeaseService.record_reapExpired hswept).1 i ?_
      rw [hselect, List.map_singleton, List.mem_singleton]
      exact hi
  have hrun : ∀ push, swept.pushes = [push] → Sweep.reapExpired.run settings s.db
      (Attempts.begun tx s.clock) [] batchSize s.clock = some (swept.db, [push]) := by
    intro push hpush
    rw [← hpush]
    exact Option.map_eq_some_iff.mpr ⟨swept, hswept, rfl⟩
  refine ⟨swept.db, ?_, hrecord⟩
  by_cases hexhausted : job.maxAttempts ≤ job.attempts
  · rw [if_pos hexhausted]
    refine sweep_single hunpublished rfl (hrun (.deadLetter job.id) ?_)
    simp [Swept.pushes, hdead, hpublished, hexhausted]
  · rw [if_neg hexhausted]
    refine sweep_single hunpublished rfl (hrun (.publish job.id job.priority) ?_)
    simp [Swept.pushes, hdead, hpublished, hexhausted, not_le.mp hexhausted]

end Steps

end JobOrchestrator
