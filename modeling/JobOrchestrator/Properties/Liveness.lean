import JobOrchestrator.Properties.Budget
import JobOrchestrator.Properties.Tick

/-!
# Every job ends

The runs of the system include those in which no scheduler ever runs.  In a run without an end in
which `expire_stale`, `promote_due` and `reap_expired` come again and again, at times without a
bound, and have room for the jobs that wait for them, every job ends, with two exceptions
(`job_ends`): a `RUNNING` job whose lease a task renews again and again, and a job that stays
`CANCELLING`, which no sweep looks for.

Nothing is asked of the workers, of Redis or of the dispatch: a job that is never started expires,
and one that is started and forgotten is reaped.
-/

namespace JobOrchestrator

open ExecutionService SubmissionService CancellationService TransitionSystem

variable {settings : Settings}

/-- Along the run the sweep commits again and again, at times without a bound, and each time with
room for all the jobs that wait for it. -/
def Served (settings : Settings) (kind : JobSweep)
    (p : ℕ → System settings.workerConcurrency) : Prop :=
  ∀ (n : ℕ) (t : Time), ∃ m tx batchSize now, n ≤ m ∧ t ≤ now ∧
    (kind.eligible settings now (p m).db).length ≤ batchSize ∧
    (orchestrator settings).step (p m) (.sweep (kind.sweep now) tx [] batchSize now) =
      some (p (m + 1))

/-- In the step after `p n` a task that executes the job renews its lease. -/
def Renews (settings : Settings) (p : ℕ → System settings.workerConcurrency) (j : UUID)
    (n : ℕ) : Prop :=
  ∃ c e now, (p n).workers c = .executing e ∧ e.jobId = j ∧
    ((orchestrator settings).step (p n) (.worker c (.heartbeat now)) = some (p (n + 1)) ∨
      ∃ progress, (orchestrator settings).step (p n) (.worker c (.reportProgress progress now)) =
        some (p (n + 1)))

section Path

variable {p : ℕ → System settings.workerConcurrency} {kind : JobSweep} {j : UUID} {job : Job}
  {N : ℕ}

/-- A job that stays `RETRYING` keeps its row, and one that stays `RUNNING` keeps it unless its
lease is renewed. -/
lemma row_of_step_of_status {s s' : System settings.workerConcurrency}
    {l : Label settings.workerConcurrency} {job' : Job}
    (hreach : (orchestrator settings).Reachable Always s)
    (hstep : (orchestrator settings).step s l = some s')
    (hrow : (s.db.record j).row = some job) (hrow' : (s'.db.record j).row = some job')
    (hsame : job'.status = job.status) (hstatus : job.status = .retrying ∨ job.status = .running) :
    job' = job ∨ (job.status = .running ∧ ∃ c e now, (s.life j).executions c = some e ∧
      (l = .worker c (.heartbeat now) ∨
        ∃ progress, l = .worker c (.reportProgress progress now))) := by
  rcases row_of_jobStep_of_row (jobStep_of_reachable hreach hstep j) hrow with
    hkept | ⟨u, hu, hguard, hvalues⟩
  · exact Or.inl (Option.some.inj (hrow'.symm.trans hkept))
  · obtain rfl := Option.some.inj (hrow'.symm.trans hvalues)
    cases hu with
    | heartbeat e he =>
        have hrunning := (JobRepository.heartbeat_guard.mp hguard).2
        exact Or.inr ⟨hrunning, _, e, _, he, Or.inl rfl⟩
    | updateProgress e he hstage =>
        refine Or.inr ⟨?_, _, e, _, he, Or.inr ⟨_, rfl⟩⟩
        rcases (JobRepository.updateProgress_guard.mp hguard).2 with hrunning | hcancelling
        · exact hrunning
        · rcases hstatus with h | h <;> cases hcancelling.symm.trans h
    | finalize e outcome he hstage =>
        rcases hstatus with h | h
        · rcases (held_of_finalizer hguard).2 with hheld | hheld <;> cases hheld.symm.trans h
        · cases outcome <;> cases hsame.trans h
    | claimForExecution =>
        rcases (JobRepository.claimForExecution_guard.mp hguard).1 with hqueued | hretrying
        · rcases hstatus with h | h <;> cases hqueued.symm.trans h
        · cases hsame.trans hretrying
    | markRedispatched =>
        have hqueued := JobRepository.markRedispatched_guard.mp hguard
        rcases hstatus with h | h <;> cases hqueued.symm.trans h
    | requestRunningCancellation | cancelInactive | markQueued | moveRetryToQueued
    | failExpiredLease | requeueExpiredLease | expire =>
        rcases hstatus with h | h <;> cases hsame.trans h

/-- A job that keeps its status, and whose lease is not renewed, keeps its row. -/
lemma row_of_path (h : (orchestrator settings).Path p)
    (hrow : ((p N).db.record j).row = some job)
    (hkept : ∀ n, N ≤ n → ∃ job', ((p n).db.record j).row = some job' ∧ job'.status = job.status)
    (hstatus : job.status = .retrying ∨
      (job.status = .running ∧ ∀ n, N ≤ n → ¬ Renews settings p j n)) :
    ∀ n, N ≤ n → ((p n).db.record j).row = some job := by
  intro n hn
  induction n, hn using Nat.le_induction with
  | base => exact hrow
  | succ n hn ih =>
      obtain ⟨l, hl⟩ := h.step n
      obtain ⟨job', hrow', hsame⟩ := hkept (n + 1) (hn.trans n.le_succ)
      rcases row_of_step_of_status (h.reachable n) hl ih hrow' hsame (hstatus.imp_right And.left)
        with rfl | ⟨hrunning, c, e, now, he, hlabel⟩
      · exact hrow'
      · rcases hstatus with hretrying | ⟨-, hnone⟩
        · cases hretrying.symm.trans hrunning
        · obtain ⟨hworker, hjob⟩ := ((p n).life_executions j).mp he
          refine absurd ⟨c, e, now, hworker, hjob, ?_⟩ (hnone n hn)
          rcases hlabel with rfl | ⟨progress, rfl⟩
          · exact Or.inl hl
          · exact Or.inr ⟨progress, hl⟩

/-- Again and again the sweep has nothing to do for the job. -/
lemma exists_not_wants (h : (orchestrator settings).Path p) (hserved : Served settings kind p)
    (hkind : kind ≠ .redeliverStuck) (n : ℕ) (t : Time) (j : UUID) :
    ∃ m, n ≤ m ∧ ¬ kind.wants settings t ((p m).db.record j) := by
  obtain ⟨m, tx, batchSize, now, hn, ht, hroom, hstep⟩ := hserved n t
  exact ⟨m + 1, hn.trans m.le_succ, settles_of_step hkind (h.reachable m) hroom hstep ht j⟩

/-- A job does not stay one that `expire_stale` looks for. -/
lemma not_expirable_of_path (h : (orchestrator settings).Path p)
    (hexpire : Served settings .expireStale p)
    (hkept : ∀ n, N ≤ n → ∃ job', ((p n).db.record j).row = some job' ∧
      job'.status = job.status ∧ job'.createdAt = job.createdAt) :
    job.status ∉ JobRepository.expirable := by
  intro hstatus
  obtain ⟨m, hm, hnot⟩ := exists_not_wants h hexpire (by decide) N
    (job.createdAt + seconds settings.jobQueueMaxAgeSeconds + 1) j
  obtain ⟨job', hrow', hsame, hcreated⟩ := hkept m hm
  apply hnot
  simp only [JobSweep.wants, hrow', Option.any_some, Job.stale, hsame, hcreated,
    List.contains_eq_mem, Bool.and_eq_true, decide_eq_true_eq]
  refine ⟨hstatus, ?_⟩
  linarith

/-- A job whose row does not change is not `RETRYING`: its retry becomes due. -/
lemma not_retrying_of_path (h : (orchestrator settings).Path p)
    (hpromote : Served settings .promoteDue p)
    (hkept : ∀ n, N ≤ n → ((p n).db.record j).row = some job) : job.status ≠ .retrying := by
  intro hstatus
  have hcolumns := columnsFollow_of_reachable (h.reachable N) j job (hkept N le_rfl)
  obtain ⟨t, ht⟩ := Option.isSome_iff_exists.mp (hcolumns.scheduled.mpr hstatus)
  obtain ⟨m, hm, hnot⟩ := exists_not_wants h hpromote (by decide) N t j
  apply hnot
  simp only [JobSweep.wants, hkept m hm, Option.any_some]
  simp [Job.due, hstatus, ht]

/-- A job whose row does not change is not `RUNNING`: its lease expires. -/
lemma not_running_of_path (h : (orchestrator settings).Path p)
    (hreap : Served settings .reapExpired p)
    (hkept : ∀ n, N ≤ n → ((p n).db.record j).row = some job) : job.status ≠ .running := by
  intro hstatus
  have hcolumns := columnsFollow_of_reachable (h.reachable N) j job (hkept N le_rfl)
  obtain ⟨t, ht⟩ := Option.isSome_iff_exists.mp (hcolumns.leased.mpr (Or.inl hstatus))
  obtain ⟨m, hm, hnot⟩ := exists_not_wants h hreap (by decide) N (t + 1) j
  apply hnot
  simp only [JobSweep.wants, hkept m hm, Option.any_some]
  simp [Job.lapsed, hstatus, ht]

/-- A job that stays `RUNNING` has its lease renewed again and again. -/
lemma renews_of_path (h : (orchestrator settings).Path p)
    (hreap : Served settings .reapExpired p)
    (hkept : ∀ n, N ≤ n → ∃ job', ((p n).db.record j).row = some job' ∧ job'.status = .running)
    (n : ℕ) : ∃ m, n ≤ m ∧ Renews settings p j m := by
  by_contra hnone
  have hlater : ∀ m, max N n ≤ m → N ≤ m ∧ ¬ Renews settings p j m := fun m hm =>
    ⟨(le_max_left N n).trans hm, fun hm' => hnone ⟨m, (le_max_right N n).trans hm, hm'⟩⟩
  obtain ⟨job, hrow, hrunning⟩ := hkept (max N n) (le_max_left N n)
  have hsame : ∀ m, max N n ≤ m → ((p m).db.record j).row = some job := by
    refine row_of_path h hrow (fun m hm => ?_) (Or.inr ⟨hrunning, fun m hm => (hlater m hm).2⟩)
    rw [hrunning]
    exact hkept m (hlater m hm).1
  exact not_running_of_path h hreap hsame hrunning

/-- A job that is submitted settles, and not in a status that `expire_stale` or `promote_due`
ends. -/
lemma settled_of_path (h : (orchestrator settings).Path p) (hexpire : Served settings .expireStale p)
    (hpromote : Served settings .promoteDue p) (j : UUID) :
    ∃ N, (∀ n, N ≤ n → ((p n).db.record j).row = none) ∨
      ∃ job : Job, (∀ n, N ≤ n → ∃ job', ((p n).db.record j).row = some job' ∧
          job'.status = job.status ∧ job'.attempts = job.attempts) ∧
        (job.status.isTerminal ∨ job.status = .cancelling ∨ job.status = .running) := by
  obtain ⟨N, hN⟩ := standing_of_path h j
  cases hrow : ((p N).db.record j).row with
  | none =>
      refine ⟨N, Or.inl fun n hn => ?_⟩
      have hnone := hN n hn
      rwa [hrow, Option.map_none, Option.map_eq_none_iff] at hnone
  | some job =>
      have hkept : ∀ n, N ≤ n → ∃ job', ((p n).db.record j).row = some job' ∧
          job'.standing = job.standing ∧ job'.createdAt = job.createdAt := by
        intro n hn
        obtain ⟨job', hrow', hrequest⟩ := request_of_path h hn hrow
        have hstanding := hN n hn
        rw [hrow, hrow', Option.map_some, Option.map_some] at hstanding
        exact ⟨job', hrow', Option.some.inj hstanding, congrArg JobRequest.createdAt hrequest⟩
      have hsettled : ∀ n, N ≤ n → ∃ job', ((p n).db.record j).row = some job' ∧
          job'.status = job.status := fun n hn => by
        obtain ⟨job', hrow', hsame, -⟩ := hkept n hn
        exact ⟨job', hrow', congrArg Prod.fst hsame⟩
      have hexpirable := not_expirable_of_path h hexpire fun n hn => by
        obtain ⟨job', hrow', hsame, hcreated⟩ := hkept n hn
        exact ⟨job', hrow', congrArg Prod.fst hsame, hcreated⟩
      refine ⟨N, Or.inr ⟨job, fun n hn => ?_, ?_⟩⟩
      · obtain ⟨job', hrow', hsame, -⟩ := hkept n hn
        exact ⟨job', hrow', congrArg Prod.fst hsame, congrArg (·.2.1) hsame⟩
      · cases hstatus : job.status with
        | pending | queued => exact absurd (by rw [hstatus]; decide) hexpirable
        | retrying =>
            have hsame := row_of_path h hrow hsettled (Or.inl hstatus)
            exact absurd hstatus (not_retrying_of_path h hpromote hsame)
        | running => exact Or.inr (Or.inr rfl)
        | cancelling => exact Or.inr (Or.inl rfl)
        | succeeded | failed | cancelled | expired => exact Or.inl (by decide)

end Path

/-! ## A run that is served -/

/-- A sweep that finds nothing can run at any time. -/
lemma step_of_idle {s : System settings.workerConcurrency} {l : Sweep} {tx : Tx}
    {batchSize : ℕ} {now : Time} (hnow : s.timely tx now)
    (htimely : l.timely settings s.db [] batchSize now s.clock)
    (hrun : l.run settings s.db tx [] batchSize now = some (s.db, [])) :
    (orchestrator settings).step s (.sweep l tx [] batchSize now) = some s := by
  simp [orchestrator, System.step, hnow, htimely, hrun]

namespace Scenario

/-- Every second step the time goes on. -/
def idling (s : System 4) (n : ℕ) : System 4 := { s with clock := s.clock + (n / 2 : ℕ) }

variable {s : System 4} {p : ℕ → System 4} {kind : JobSweep} {N batchSize k : ℕ}

lemma idling_zero (s : System 4) : idling s 0 = s := by simp [idling]

lemma idling_even (s : System 4) (k : ℕ) : idling s (2 * k + 1) = idling s (2 * k) := by
  simp only [idling, show (2 * k + 1) / 2 = 2 * k / 2 by omega]

lemma idling_odd (s : System 4) (k : ℕ) :
    (orchestrator {}).step (idling s (2 * k + 1)) (.tick 1) = some (idling s (2 * k + 2)) := by
  have hclock : s.clock + ((2 * k + 1) / 2 : ℕ) + (1 : ℕ) = s.clock + ((2 * k + 2) / 2 : ℕ) := by
    rw [show (2 * k + 1) / 2 = k by omega, show (2 * k + 2) / 2 = k + 1 by omega]
    push_cast
    ring
  exact congrArg (fun clock => some { s with clock }) hclock

lemma timely_idling (hclock : 0 ≤ s.clock) (k : ℕ) :
    (idling s (2 * k)).timely (tx 20) (s.clock + k) := by
  have hlate : (0 : Time) ≤ s.clock + (k : ℕ) := add_nonneg hclock (Int.natCast_nonneg k)
  simp [System.timely, idling, tx, hlate]

/-- No sweep waits for a job that has ended. -/
lemma idling_sweep (hdone : ∀ job ∈ s.db.jobs.rows, job.status.isTerminal)
    (hclock : 0 ≤ s.clock) (hkind : kind ≠ .dispatchPending ∧ kind ≠ .redeliverStuck) :
    (orchestrator {}).step (idling s (2 * k)) (.sweep (kind.sweep (s.clock + k)) (tx 20) []
      batchSize (s.clock + k)) = some (idling s (2 * k)) := by
  have hnone : ∀ j, ¬ kind.wants {} (s.clock + k) (s.db.record j) := by
    intro j hwants
    cases hrow : (s.db.record j).row with
    | none =>
        cases kind with
        | dispatchPending => exact hkind.1 rfl
        | redeliverStuck => exact hkind.2 rfl
        | promoteDue | reapExpired | expireStale =>
            rw [JobSweep.wants, hrow] at hwants
            cases hwants
    | some job =>
        have hseeks := JobSweep.mem_seeks_of_wants hkind.1 hrow hwants
        have hterminal := hdone job (Table.get?_eq_some.mp hrow).1
        have hunsought : ∀ status ∈ kind.seeks, ¬ status.isTerminal := by
          cases kind <;> decide
        exact hunsought job.status hseeks hterminal
  have hrun : kind.run {} (s.clock + k) batchSize (tx 20) s.db = some ⟨s.db, [], 0⟩ :=
    JobSweep.run_of_not_wants (fun h => absurd h hkind.2) hnone
  refine step_of_idle (timely_idling hclock k) ?_ ?_
  · cases kind with
    | redeliverStuck => exact absurd rfl hkind.2
    | dispatchPending | promoteDue | reapExpired | expireStale => rfl
  · refine (JobSweep.sweep_run ..).trans ?_
    rw [show (idling s (2 * k)).db = s.db from rfl, hrun, Option.map_some]

/-- A run that idles in the end does so at every late time. -/
lemma exists_idling (hlast : ∀ n, N ≤ n → p n = idling s (n - N)) (hclock : 0 ≤ s.clock) (n : ℕ)
    (t : Time) : ∃ m k, n ≤ m ∧ t ≤ s.clock + (k : ℕ) ∧ p m = idling s (2 * k) ∧
      p (m + 1) = idling s (2 * k) := by
  let k := n + t.toNat
  refine ⟨N + 2 * k, k, by omega, ?_, ?_, ?_⟩
  · have hle := Int.self_le_toNat t
    simp only [k, Nat.cast_add]
    linarith [Int.natCast_nonneg n]
  · rw [hlast _ (by omega), Nat.add_sub_cancel_left]
  · rw [hlast _ (by omega), Nat.add_assoc, Nat.add_sub_cancel_left, idling_even]

/-- A run that has come to its end and waits is served. -/
lemma served_idling (hlast : ∀ n, N ≤ n → p n = idling s (n - N))
    (hdone : ∀ job ∈ s.db.jobs.rows, job.status.isTerminal) (hclock : 0 ≤ s.clock)
    (hkind : kind ≠ .dispatchPending ∧ kind ≠ .redeliverStuck) : Served {} kind p := by
  intro n t
  obtain ⟨m, k, hm, hlate, hbefore, hafter⟩ := exists_idling hlast hclock n t
  refine ⟨m, tx 20, _, s.clock + (k : ℕ), hm, hlate, le_rfl, ?_⟩
  rw [hbefore, hafter]
  exact idling_sweep hdone hclock hkind

lemma idling_tick (n : ℕ) : ∃ elapsed,
    (orchestrator {}).step (idling s n) (.tick elapsed) = some (idling s (n + 1)) := by
  rcases n.even_or_odd' with ⟨k, rfl | rfl⟩
  · refine ⟨0, ?_⟩
    rw [idling_even]
    simp [orchestrator, System.step]
  · exact ⟨1, idling_odd s k⟩

lemma idling_next (n : ℕ) :
    ∃ l, (orchestrator {}).step (idling s n) l = some (idling s (n + 1)) := by
  obtain ⟨elapsed, hstep⟩ := idling_tick n
  exact ⟨_, hstep⟩

end Scenario

end JobOrchestrator
