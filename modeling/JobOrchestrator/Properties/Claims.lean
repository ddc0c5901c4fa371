import JobOrchestrator.Properties.Attempts
import JobOrchestrator.Properties.Backoff
import JobOrchestrator.Properties.Cancellation

/-!
# Claims

The claim is one guarded `UPDATE`, so of all the coroutines that hold a message for a job only
the first one to issue it matches, until something puts the job back among the claimable ones.
Between two such returns at most one claim wins, every claim that wins draws the next attempt
number, and the deliveries of a job that nothing else disturbs give one execution.
-/

namespace JobOrchestrator

open ExecutionService SubmissionService CancellationService TransitionSystem

variable {settings : Settings}

/-! ## One claim at a time -/

/-- A claim could take the job by its status. -/
def System.claimable {concurrency : ℕ} (s : System concurrency) (jobId : UUID) : Bool :=
  (s.db.jobs.get? jobId).any fun job => JobRepository.claimable.contains job.status

/-- The claims that have won the job since it last entered a claimable status. -/
def countWins (settings : Settings) (jobId : UUID) (n : ℕ)
    (s : System settings.workerConcurrency) (l : Label settings.workerConcurrency)
    (s' : System settings.workerConcurrency) : ℕ :=
  if s.wins settings jobId l then n + 1
  else if !s.claimable jobId && s'.claimable jobId then 0
  else n

section Wins

variable {s s' : System settings.workerConcurrency} {j : UUID}
  {l : Label settings.workerConcurrency}

/-- A claim that wins takes the job out of the claimable ones. -/
lemma claimable_of_wins (hwins : s.wins settings j l) (h : s.step settings l = some s') :
    s.claimable j ∧ ¬ s'.claimable j := by
  obtain ⟨c, tx, now, job, rfl, hworker, hrow, hguard⟩ := claim_of_wins hwins
  obtain ⟨-, hrecord⟩ := step_claim hworker hrow hguard h
  have hrow' : s'.db.jobs.get? j = some ((JobRepository.claimForExecution c.workerId
      settings.workerLeaseSeconds now).values job) := by
    have hafter := congrFun hrecord j
    rw [Function.update_self] at hafter
    exact congrArg JobRecord.row hafter
  constructor
  · rw [System.claimable, hrow, Option.any_some]
    simpa [JobRepository.claimable] using (JobRepository.claimForExecution_guard.mp hguard).1
  · rw [System.claimable, hrow', Option.any_some]
    exact Bool.false_ne_true

/-- At most one claim has won since the job was last put back, and none while it can be
claimed. -/
lemma countWins_le {n : ℕ} (h : s.step settings l = some s') (hle : n ≤ 1)
    (hnone : s.claimable j → n = 0) :
    countWins settings j n s l s' ≤ 1 ∧ (s'.claimable j → countWins settings j n s l s' = 0) := by
  unfold countWins
  by_cases hwins : s.wins settings j l
  · obtain ⟨hbefore, hafter⟩ := claimable_of_wins hwins h
    rw [if_pos hwins, hnone hbefore]
    exact ⟨le_rfl, fun hclaimable => absurd hclaimable hafter⟩
  · rw [if_neg hwins]
    by_cases hentry : !s.claimable j && s'.claimable j
    · rw [if_pos hentry]
      exact ⟨Nat.zero_le 1, fun _ => rfl⟩
    · rw [if_neg hentry]
      refine ⟨hle, fun hclaimable => ?_⟩
      simp only [hclaimable, Bool.and_true, Bool.not_eq_true', Bool.not_eq_false] at hentry
      exact hnone hentry

end Wins

theorem countWins_of_reachable {s : System settings.workerConcurrency} {n : ℕ} {j : UUID}
    (h : ((orchestrator settings).observing 0 (countWins settings j)).Reachable Always (s, n)) :
    n ≤ 1 := by
  have hboth : n ≤ 1 ∧ (s.claimable j → n = 0) := by
    refine Reachable.invariant (I := fun p : System settings.workerConcurrency × ℕ =>
      p.2 ≤ 1 ∧ (p.1.claimable j → p.2 = 0)) ?_ ?_ h
    · rintro ⟨s, n⟩ ⟨-, rfl⟩
      exact ⟨Nat.zero_le 1, fun _ => rfl⟩
    · rintro ⟨s, n⟩ l ⟨s', n'⟩ - - hstep ⟨hle, hnone⟩
      obtain ⟨hstep, hcount⟩ := observing_step.mp hstep
      obtain rfl : n' = countWins settings j n s l s' := hcount
      exact countWins_le hstep hle hnone
  exact hboth.1

/-! ## Attempt numbers -/

/-- The unique index on the attempt number refuses no claim. -/
lemma claim_isSome {s : System settings.workerConcurrency} {j : UUID} {tx : Tx}
    {workerId : String} {now : Time} (h : (orchestrator settings).Reachable Always s)
    (hfresh : s.db.jobAttempts.get? tx.attemptId = none) :
    (claim settings s.db tx workerId j now).isSome := by
  unfold claim
  cases hrow : JobRepository.get s.db j with
  | none => rfl
  | some job =>
      have hunused : ∀ a ∈ s.db.jobAttempts.rows,
          ¬ (a.jobId = j ∧ a.attemptNumber = job.attempts + 1) := by
        rintro a ha ⟨hjob, hnumber⟩
        have hmem : a.attemptNumber ∈ List.range' 1 job.attempts := by
          rw [← numbered_of_reachable h j job hrow]
          exact List.mem_map_of_mem (Table.mem_children.mpr ⟨ha, hjob⟩)
        rw [List.mem_range'_1] at hmem
        omega
      dsimp only
      rw [Database.updateJob_matched_iff hrow]
      split
      · rename_i hguard
        have hnumber : ((JobRepository.claimForExecution workerId settings.workerLeaseSeconds
            now).apply job).attempts = job.attempts + 1 := by
          rw [JobUpdate.apply_of_guard hguard]
          rfl
        have hnone : (s.db.jobAttempts.rows.any fun a =>
            a.jobId = j && a.attemptNumber = job.attempts + 1) = false := by
          simpa using hunused
        have hstart : (JobAttemptRepository.start (s.db.updateJob j
            (JobRepository.claimForExecution workerId settings.workerLeaseSeconds now)).1
            tx.attemptId j (job.attempts + 1) workerId now).isSome := by
          unfold JobAttemptRepository.start
          rw [if_neg (by rw [Bool.not_eq_true]; exact hnone), Option.isSome_map]
          exact Table.insert?_isSome.mpr hfresh
        rw [hnumber, Option.isSome_map]
        exact hstart
      · rfl

end JobOrchestrator
