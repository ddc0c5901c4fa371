import JobOrchestrator.Properties.Attempts
import JobOrchestrator.Properties.Transitions

/-!
# Mutual exclusion

The lease of a running job is written by its claim and renewed by the heartbeats and progress
reports of its attempt.  While the reaper does not take a job from an open attempt, the job has no
other one.  The reaper takes a job only when its lease ran out before a clock value that is not
ahead of the clock, so that is how it is as long as every open attempt renews its lease in time.
-/

namespace JobOrchestrator

open ExecutionService TransitionSystem

variable {settings : Settings}

/-! ## Lease writes -/

/-- A statement that wrote the lease of a job, with the clock value it wrote. -/
structure LeaseWrite (concurrency : ℕ) where
  holder : Coroutine concurrency
  jobId : UUID
  now : Time

/-- The lease write of a step: a claim that wins, or a heartbeat or a progress report that matches
the row. -/
def System.leaseWrite {concurrency : ℕ} (settings : Settings) (s : System concurrency) :
    Label concurrency → Option (LeaseWrite concurrency)
  | .worker c action =>
      match s.workers c, action with
      | .delivered jobId, .claim _ now =>
          if (s.db.jobs.get? jobId).any
              (JobRepository.claimForExecution c.workerId settings.workerLeaseSeconds now).guard then
            some ⟨c, jobId, now⟩
          else none
      | .executing e, .heartbeat now =>
          if (s.db.jobs.get? e.jobId).any
              (JobRepository.heartbeat c.workerId settings.workerLeaseSeconds now).guard then
            some ⟨c, e.jobId, now⟩
          else none
      | .executing e, .reportProgress progress now =>
          if (s.db.jobs.get? e.jobId).any (JobRepository.updateProgress c.workerId progress
              settings.workerLeaseSeconds now).guard then
            some ⟨c, e.jobId, now⟩
          else none
      | _, _ => none
  | _ => none

/-- The clock value that each coroutine wrote last. -/
def renewals (settings : Settings) (renewed : Coroutine settings.workerConcurrency → Time)
    (s : System settings.workerConcurrency) (l : Label settings.workerConcurrency)
    (_ : System settings.workerConcurrency) : Coroutine settings.workerConcurrency → Time :=
  match s.leaseWrite settings l with
  | none => renewed
  | some w => Function.update renewed w.holder w.now

/-- Unless it executes no `RUNNING` job, the coroutine wrote its last lease no longer than a lease
ago. -/
def System.renewedInTime {concurrency : ℕ} (settings : Settings) (s : System concurrency)
    (renewed : Coroutine concurrency → Time) (c : Coroutine concurrency) : Bool :=
  match s.workers c with
  | .executing e => !e.stage.isOpen || (s.db.jobs.get? e.jobId).all fun job =>
      job.status ≠ .running || s.clock ≤ renewed c + seconds settings.workerLeaseSeconds
  | _ => true

/-- With one monotone clock, the lease writes of a row commit in the order of the clock values
they write. -/
def System.leaseOrdered {concurrency : ℕ} (settings : Settings) (s : System concurrency)
    (l : Label concurrency) : Bool :=
  (s.leaseWrite settings l).all fun w => (s.db.jobs.get? w.jobId).all fun job =>
    job.heartbeatAt.all fun t => t ≤ w.now

/-- **Timely renewal.**  Every open attempt of a `RUNNING` job has written its lease at most
`worker_lease_seconds` ago. -/
def RenewsInTime (settings : Settings)
    (p : System settings.workerConcurrency × (Coroutine settings.workerConcurrency → Time))
    (l : Label settings.workerConcurrency) : Prop :=
  (∀ c, p.1.renewedInTime settings p.2 c) ∧ p.1.leaseOrdered settings l

section Lease

variable {s s' : System settings.workerConcurrency} {l : Label settings.workerConcurrency}
  {w : LeaseWrite settings.workerConcurrency}

/-- What a lease write finds. -/
inductive Writes (s : System settings.workerConcurrency) :
    Label settings.workerConcurrency → LeaseWrite settings.workerConcurrency → Prop
  | claim (c tx now jobId job) (hworker : s.workers c = .delivered jobId)
      (hrow : (s.db.record jobId).row = some job)
      (hguard : (JobRepository.claimForExecution c.workerId settings.workerLeaseSeconds
        now).guard job) : Writes s (.worker c (.claim tx now)) ⟨c, jobId, now⟩
  | heartbeat (c now e job) (hworker : s.workers c = .executing e)
      (hrow : (s.db.record e.jobId).row = some job)
      (hguard : (JobRepository.heartbeat c.workerId settings.workerLeaseSeconds now).guard job) :
      Writes s (.worker c (.heartbeat now)) ⟨c, e.jobId, now⟩
  | progress (c progress now e job) (hworker : s.workers c = .executing e)
      (hrow : (s.db.record e.jobId).row = some job)
      (hguard : (JobRepository.updateProgress c.workerId progress settings.workerLeaseSeconds
        now).guard job) : Writes s (.worker c (.reportProgress progress now)) ⟨c, e.jobId, now⟩

lemma writes_of_leaseWrite (h : s.leaseWrite settings l = some w) : Writes s l w := by
  unfold System.leaseWrite at h
  split at h
  · split at h
    case h_1 hworker =>
      split at h
      · rename_i hmatched
        obtain ⟨job, hrow, hguard⟩ := (Option.any_eq_true ..).mp hmatched
        obtain rfl := Option.some.inj h
        exact .claim _ _ _ _ job hworker hrow hguard
      · cases h
    case h_2 hworker =>
      split at h
      · rename_i hmatched
        obtain ⟨job, hrow, hguard⟩ := (Option.any_eq_true ..).mp hmatched
        obtain rfl := Option.some.inj h
        exact .heartbeat _ _ _ job hworker hrow hguard
      · cases h
    case h_3 hworker =>
      split at h
      · rename_i hmatched
        obtain ⟨job, hrow, hguard⟩ := (Option.any_eq_true ..).mp hmatched
        obtain rfl := Option.some.inj h
        exact .progress _ _ _ _ job hworker hrow hguard
      · cases h
    case h_4 => cases h
  · cases h

lemma leaseWrite_of_writes (h : Writes s l w) : s.leaseWrite settings l = some w := by
  cases h with
  | claim c tx now jobId job hworker hrow hguard =>
      have hget : s.db.jobs.get? jobId = some job := hrow
      simp only [System.leaseWrite, hworker, hget, Option.any_some]
      exact if_pos hguard
  | heartbeat c now e job hworker hrow hguard | progress c progress now e job hworker hrow hguard =>
      have hget : s.db.jobs.get? e.jobId = some job := hrow
      simp only [System.leaseWrite, hworker, hget, Option.any_some]
      exact if_pos hguard

/-- The holder of a lease write has the job. -/
lemma holder_of_writes (h : Writes s l w) :
    (∃ action, l = .worker w.holder action) ∧
      (s.workers w.holder = .delivered w.jobId ∨
        ∃ e, (s.life w.jobId).executions w.holder = some e) := by
  cases h with
  | claim c tx now jobId job hworker => exact ⟨⟨_, rfl⟩, Or.inl hworker⟩
  | heartbeat c now e job hworker | progress c _ now e job hworker =>
      exact ⟨⟨_, rfl⟩, Or.inr ⟨e, (s.life_executions e.jobId).mpr ⟨hworker, rfl⟩⟩⟩

/-- A lease write leaves its clock value in the row. -/
lemma row_of_writes (h : Writes s l w) (hstep : s.step settings l = some s') :
    ∃ job', (s'.db.record w.jobId).row = some job' ∧ job'.heartbeatAt = some w.now ∧
      job'.lockExpiresAt = some (w.now + seconds settings.workerLeaseSeconds) := by
  have hwritten : ∀ {db : Database} {u : JobUpdate} {job : Job},
      (db.record w.jobId).row = some job → u.guard job →
      (((db.updateJob w.jobId u).1).record w.jobId).row = some (u.values job) := by
    intro db u job hrow hguard
    rw [Database.record_updateJob_of_guard hrow hguard, Function.update_self]
  cases h with
  | claim c tx now jobId job hworker hrow hguard =>
      obtain ⟨-, hrecord⟩ := step_claim hworker hrow hguard hstep
      have hrow' : (s'.db.record jobId).row = some ((JobRepository.claimForExecution c.workerId
          settings.workerLeaseSeconds now).values job) := by
        rw [hrecord, Function.update_self]
        rfl
      exact ⟨_, hrow', rfl, rfl⟩
  | heartbeat c now e job hworker hrow hguard =>
      have hupdate : WorkerStep s c (.heartbeat now) s' := workerStep_of_step hstep
      cases hupdate with
      | heartbeat e' _ he' =>
          obtain rfl := Consumer.executing.inj (hworker.symm.trans he')
          exact ⟨_, hwritten hrow hguard, rfl, rfl⟩
      | resumed _ _ _ _ hresumes => cases hresumes
  | progress c progress now e job hworker hrow hguard =>
      have hupdate : WorkerStep s c (.reportProgress progress now) s' := workerStep_of_step hstep
      cases hupdate with
      | progressed e' _ _ he' =>
          obtain rfl := Consumer.executing.inj (hworker.symm.trans he')
          exact ⟨_, hwritten hrow hguard, rfl, rfl⟩
      | resumed _ _ _ _ hresumes => cases hresumes

end Lease

/-! ## A job that keeps its lease -/

/-- The reaper does not take the job from an open attempt. -/
def KeepsLease {concurrency : ℕ} (j : UUID) (s : System concurrency) : Label concurrency → Prop
  | .sweep .reapExpired _ locked batchSize now =>
      (∃ c e, (s.life j).executions c = some e ∧ e.stage.isOpen) →
        j ∉ (JobRepository.findExpiredLeases s.db locked now batchSize).map Job.id
  | _ => True

/-- The job has at most one open attempt, and its row is held by the worker of that attempt. -/
structure HeldOnce (s : System settings.workerConcurrency) (j : UUID) : Prop where
  unique : ∀ c d e f, (s.life j).executions c = some e → (s.life j).executions d = some f →
    e.stage.isOpen → f.stage.isOpen → c = d
  held : ∀ c e, (s.life j).executions c = some e → e.stage.isOpen →
    ∃ job, (s.db.record j).row = some job ∧ job.lockedBy = some c.workerId ∧
      (job.status = .running ∨ job.status = .cancelling)

section HeldOnce

variable {s s' : System settings.workerConcurrency} {l : Label settings.workerConcurrency}
  {j : UUID}

/-- An open attempt was open before the step, or the step is the claim that starts it. -/
lemma open_of_jobStep {life' : Life settings.workerConcurrency} (h : JobStep s j l life')
    {c : Coroutine settings.workerConcurrency} {e' : Execution}
    (he' : life'.executions c = some e') (hopen : e'.stage.isOpen) :
    (∃ e, (s.life j).executions c = some e ∧ e.stage.isOpen) ∨
      ∃ tx now job, l = .worker c (.claim tx now) ∧ (s.db.record j).row = some job ∧
        life'.record.row = some ((JobRepository.claimForExecution c.workerId
          settings.workerLeaseSeconds now).values job) := by
  cases execution_of_jobStep h he' with
  | kept _ he => exact Or.inl ⟨e', he, hopen⟩
  | heartbeatFailed e he => exact Or.inl ⟨e, he, hopen⟩
  | decided e stage he hdecides => exact Or.inl ⟨e, he, hdecides.isOpen hopen⟩
  | started tx now job hl hrow hrecord =>
      refine Or.inr ⟨tx, now, job, hl, hrow, ?_⟩
      rw [hrecord]
      rfl
  | finalized _ outcome | superseded _ outcome =>
      rw [afterFinalize_isOpen] at hopen
      cases hopen

/-- Whoever finalizes has no commit ahead any more. -/
lemma closed_of_finalize {c : Coroutine settings.workerConcurrency} {tx : Tx} {now : Time}
    {e' : Execution} (h : s.step settings (.worker c (.finalize tx now)) = some s')
    (he' : s'.workers c = .executing e') : e'.stage.isOpen = false := by
  have hstep : WorkerStep s c (.finalize tx now) s' := workerStep_of_step h
  cases hstep with
  | finalized e outcome _ _ db hit =>
      obtain rfl := Consumer.executing.inj ((Function.update_self ..).symm.trans he')
      exact afterFinalize_isOpen hit outcome
  | resumed _ _ _ _ hresumes => cases hresumes

/-- A job that a worker holds does not wait for one. -/
lemma not_waits_of_held {job : Job} (hheld : job.status = .running ∨ job.status = .cancelling) :
    ¬ (job.status = .pending ∨ job.status = .queued ∨ job.status = .retrying) := by
  rcases hheld with hstatus | hstatus <;> simp [hstatus]

/-- What a step does to the row of a job with an attempt that is open before and after it. -/
lemma row_of_open (hlinked : ∀ i, Linked (s.life i)) (h : s.step settings l = some s')
    (hkeeps : KeepsLease j s l) (hheld : HeldOnce s j)
    {c : Coroutine settings.workerConcurrency} {e e' : Execution}
    (he : (s.life j).executions c = some e) (hopen : e.stage.isOpen)
    (he' : (s'.life j).executions c = some e') (hopen' : e'.stage.isOpen) {job : Job}
    (hrow : (s.db.record j).row = some job)
    (hactive : job.status = .running ∨ job.status = .cancelling) :
    ∃ job', (s'.db.record j).row = some job' ∧ job'.lockedBy = job.lockedBy ∧
      (job'.status = .running ∨ job'.status = .cancelling) ∧
      (job'.status = .running → job.status = .running) ∧
      ((∃ w, s.leaseWrite settings l = some w ∧ w.jobId = j) ∨
        job'.heartbeatAt = job.heartbeatAt ∧ job'.lockExpiresAt = job.lockExpiresAt) := by
  have hwaits := not_waits_of_held hactive
  have hstep : JobStep s j l (s'.life j) := jobStep_of_step hlinked j h
  rcases row_of_jobStep_of_row hstep hrow with hsame | ⟨u, hu, hguard, hvalues⟩
  · exact ⟨job, hsame, rfl, hactive, id, Or.inr ⟨rfl, rfl⟩⟩
  · cases hu with
    | requestRunningCancellation =>
        exact ⟨_, hvalues, rfl, Or.inr rfl, fun h => (by cases h), Or.inr ⟨rfl, rfl⟩⟩
    | heartbeat f hf =>
        obtain ⟨hworker, rfl⟩ := (s.life_executions j).mp hf
        have hwrite := Writes.heartbeat _ _ f job hworker hrow hguard
        exact ⟨_, hvalues, rfl, hactive, id, Or.inl ⟨_, leaseWrite_of_writes hwrite, rfl⟩⟩
    | updateProgress f hf =>
        obtain ⟨hworker, rfl⟩ := (s.life_executions j).mp hf
        have hwrite := Writes.progress _ _ _ f job hworker hrow hguard
        exact ⟨_, hvalues, rfl, hactive, id, Or.inl ⟨_, leaseWrite_of_writes hwrite, rfl⟩⟩
    | finalize f outcome hf hstage =>
        obtain rfl := hheld.unique c _ e f he hf hopen (by rw [hstage]; rfl)
        rw [closed_of_finalize h ((s'.life_executions j).mp he').1] at hopen'
        cases hopen'
    | failExpiredLease | requeueExpiredLease =>
        have hsame := record_of_not_reaped h (hkeeps ⟨c, e, he, hopen⟩)
        exact ⟨job, hsame ▸ hrow, rfl, hactive, id, Or.inr ⟨rfl, rfl⟩⟩
    | markRedispatched t => exact ⟨_, hvalues, rfl, hactive, id, Or.inr ⟨rfl, rfl⟩⟩
    | cancelInactive => exact absurd (JobRepository.cancelInactive_guard.mp hguard) hwaits
    | claimForExecution =>
        exact absurd (Or.inr (JobRepository.claimForExecution_guard.mp hguard).1) hwaits
    | markQueued => exact absurd (Or.inl (JobRepository.markQueued_guard.mp hguard)) hwaits
    | moveRetryToQueued =>
        exact absurd (Or.inr (Or.inr (JobRepository.moveRetryToQueued_guard.mp hguard))) hwaits
    | expire =>
        exact absurd ((JobRepository.expire_guard.mp hguard).imp_right Or.inl) hwaits

/-- A claim that starts an attempt has matched the row of the delivered job. -/
lemma guard_of_started (hlinked : ∀ i, Linked (s.life i)) (h : s.step settings l = some s')
    {c : Coroutine settings.workerConcurrency} {tx : Tx} {now : Time} {job : Job}
    (hl : l = .worker c (.claim tx now)) (hrow : (s.db.record j).row = some job)
    (hrow' : (s'.db.record j).row = some ((JobRepository.claimForExecution c.workerId
      settings.workerLeaseSeconds now).values job)) :
    s.workers c = .delivered j ∧
      (JobRepository.claimForExecution c.workerId settings.workerLeaseSeconds now).guard job := by
  subst hl
  have hstep : JobStep s j (.worker c (.claim tx now)) (s'.life j) := jobStep_of_step hlinked j h
  rcases row_of_jobStep_of_row hstep hrow with hsame | ⟨u, hu, hguard, -⟩
  · -- the claim has counted an attempt
    have hsame : (s'.db.record j).row = some job := hsame
    have hattempts : job.attempts = job.attempts + 1 :=
      congrArg Job.attempts (Option.some.inj (hsame.symm.trans hrow'))
    omega
  · cases hu with
    | claimForExecution hworker => exact ⟨hworker, hguard⟩

lemma HeldOnce.none_open (hheld : HeldOnce s j) {job : Job}
    (hrow : (s.db.record j).row = some job)
    (hclaimable : job.status = .queued ∨ job.status = .retrying) :
    ∀ d f, (s.life j).executions d = some f → ¬ f.stage.isOpen := by
  intro d f hf hopen
  obtain ⟨job', hjob', -, hactive⟩ := hheld.held d f hf hopen
  obtain rfl := Option.some.inj (hrow.symm.trans hjob')
  exact not_waits_of_held hactive (Or.inr hclaimable)

/-- **Step lemma.** -/
lemma heldOnce_of_step (hlinked : ∀ i, Linked (s.life i)) (h : s.step settings l = some s')
    (hkeeps : KeepsLease j s l) (hheld : HeldOnce s j) : HeldOnce s' j := by
  have hstep : JobStep s j l (s'.life j) := jobStep_of_step hlinked j h
  constructor
  · intro c d e' f' he' hf' hopene hopenf
    rcases open_of_jobStep hstep he' hopene with
      ⟨e, he, hopen⟩ | ⟨tx, now, job, hl, hrow, hrow'⟩
    · rcases open_of_jobStep hstep hf' hopenf with
        ⟨f, hf, hopen'⟩ | ⟨tx, now, job, hl, hrow, hrow'⟩
      · exact hheld.unique c d e f he hf hopen hopen'
      · obtain ⟨-, hguard⟩ := guard_of_started hlinked h hl hrow hrow'
        have hclaimable := (JobRepository.claimForExecution_guard.mp hguard).1
        exact absurd hopen (hheld.none_open hrow hclaimable c e he)
    · rcases open_of_jobStep hstep hf' hopenf with ⟨f, hf, hopen'⟩ | ⟨_, _, _, hl', -, -⟩
      · obtain ⟨-, hguard⟩ := guard_of_started hlinked h hl hrow hrow'
        have hclaimable := (JobRepository.claimForExecution_guard.mp hguard).1
        exact absurd hopen' (hheld.none_open hrow hclaimable d f hf)
      · obtain ⟨rfl, -⟩ := Label.worker.inj (hl.symm.trans hl')
        rfl
  · intro c e' he' hopen'
    rcases open_of_jobStep hstep he' hopen' with ⟨e, he, hopen⟩ | ⟨tx, now, job, hl, hrow, hrow'⟩
    · obtain ⟨job, hrow, hlocked, hactive⟩ := hheld.held c e he hopen
      obtain ⟨job', hrow', hlocked', hactive', -⟩ :=
        row_of_open hlinked h hkeeps hheld he hopen he' hopen' hrow hactive
      exact ⟨job', hrow', hlocked'.trans hlocked, hactive'⟩
    · exact ⟨_, hrow', rfl, Or.inl rfl⟩

lemma heldOnce_of_init (h : (orchestrator settings).init s) : HeldOnce s j := by
  obtain ⟨clock, rfl⟩ := h
  exact ⟨fun _ _ _ _ he => (by cases he), fun _ _ he => (by cases he)⟩

lemma heldOnce_of_reachable (h : (orchestrator settings).Reachable (KeepsLease j) s) :
    HeldOnce s j := by
  refine Reachable.invariant (I := fun s => HeldOnce s j) (fun _ => heldOnce_of_init) ?_ h
  intro s l s' hreach hkeeps hstep hheld
  exact heldOnce_of_step (linked_of_reachable hreach) hstep hkeeps hheld

end HeldOnce

/-! ## Timely renewal -/

/-- A job has at most one open attempt, and while the job is `RUNNING` its row holds the lease
that the coroutine of the attempt wrote last, or a later one. -/
structure Exclusive (settings : Settings) (s : System settings.workerConcurrency)
    (renewed : Coroutine settings.workerConcurrency → Time) (j : UUID) : Prop where
  unique : ∀ c d e f, (s.life j).executions c = some e → (s.life j).executions d = some f →
    e.stage.isOpen → f.stage.isOpen → c = d
  held : ∀ c e, (s.life j).executions c = some e → e.stage.isOpen →
    ∃ job, (s.db.record j).row = some job ∧ (job.status = .running ∨ job.status = .cancelling) ∧
      (job.status = .running → ∃ t, job.heartbeatAt = some t ∧
        job.lockExpiresAt = some (t + seconds settings.workerLeaseSeconds) ∧ renewed c ≤ t)

section Exclusive

variable {s s' : System settings.workerConcurrency} {l : Label settings.workerConcurrency}
  {renewed : Coroutine settings.workerConcurrency → Time} {j : UUID}

/-- The reaper does not select a job whose open attempt renews its lease in time. -/
lemma not_expired_of_renewed (hexclusive : Exclusive settings s renewed j)
    {c : Coroutine settings.workerConcurrency} {e : Execution}
    (he : (s.life j).executions c = some e) (hopen : e.stage.isOpen)
    (hrenewed : s.renewedInTime settings renewed c) {locked : List UUID} {batchSize : ℕ}
    {now : Time} (hnow : now ≤ s.clock) :
    j ∉ (JobRepository.findExpiredLeases s.db locked now batchSize).map Job.id := by
  intro hmem
  obtain ⟨job, hselected, rfl⟩ := List.mem_map.mp hmem
  have hrow : (s.db.record job.id).row = some job := Table.get?_of_mem_select hselected
  obtain ⟨-, hexpired⟩ := Table.mem_of_mem_select hselected
  simp only [Bool.and_eq_true, decide_eq_true_eq] at hexpired
  obtain ⟨⟨-, hrunning⟩, hexpired⟩ := hexpired
  obtain ⟨job', hrow', -, hlease⟩ := hexclusive.held c e he hopen
  obtain rfl := Option.some.inj (hrow.symm.trans hrow')
  obtain ⟨t, -, hexpires, hle⟩ := hlease hrunning
  obtain ⟨hworker, hjob⟩ := (s.life_executions _).mp he
  have hclock : s.clock ≤ renewed c + seconds settings.workerLeaseSeconds := by
    have hget : s.db.jobs.get? e.jobId = some job := hjob ▸ hrow
    simpa [System.renewedInTime, hworker, hopen, hget, hrunning] using hrenewed
  rw [hexpires, Option.any_some, decide_eq_true_eq] at hexpired
  have hlate : t + seconds settings.workerLeaseSeconds < t + seconds settings.workerLeaseSeconds :=
    calc
      t + seconds settings.workerLeaseSeconds < now := hexpired
      _ ≤ s.clock := hnow
      _ ≤ renewed c + seconds settings.workerLeaseSeconds := hclock
      _ ≤ t + seconds settings.workerLeaseSeconds := Int.add_le_add_right hle _
  exact lt_irrefl _ hlate

/-- An attempt that renews its lease in time keeps it. -/
lemma keepsLease_of_renewed (hexclusive : Exclusive settings s renewed j)
    (hrenews : RenewsInTime settings (s, renewed) l) (h : s.step settings l = some s') :
    KeepsLease j s l := by
  unfold KeepsLease
  split
  · rintro ⟨c, e, he, hopen⟩
    obtain ⟨hnow, -⟩ := step_sweep h
    exact not_expired_of_renewed hexclusive he hopen (hrenews.1 c) hnow
  · trivial

lemma renewals_of_other {c : Coroutine settings.workerConcurrency}
    (h : ∀ w, s.leaseWrite settings l = some w → w.holder ≠ c) :
    renewals settings renewed s l s' c = renewed c := by
  unfold renewals
  cases hw : s.leaseWrite settings l with
  | none => rfl
  | some w => exact Function.update_of_ne (h w hw).symm ..

lemma renewals_of_write {w : LeaseWrite settings.workerConcurrency}
    (h : s.leaseWrite settings l = some w) :
    renewals settings renewed s l s' = Function.update renewed w.holder w.now := by
  unfold renewals
  rw [h]

lemma le_of_leaseOrdered {w : LeaseWrite settings.workerConcurrency} {job : Job} {t : Time}
    (h : s.leaseOrdered settings l) (hw : s.leaseWrite settings l = some w)
    (hrow : (s.db.record w.jobId).row = some job) (ht : job.heartbeatAt = some t) : t ≤ w.now := by
  have hget : s.db.jobs.get? w.jobId = some job := hrow
  simpa [System.leaseOrdered, hw, hget, ht] using h

/-- **Step lemma.** -/
lemma exclusive_of_step (hlinked : ∀ i, Linked (s.life i)) (h : s.step settings l = some s')
    (hrenews : RenewsInTime settings (s, renewed) l) (hheld : HeldOnce s j)
    (hexclusive : Exclusive settings s renewed j) :
    HeldOnce s' j ∧ Exclusive settings s' (renewals settings renewed s l s') j := by
  have hstep : JobStep s j l (s'.life j) := jobStep_of_step hlinked j h
  have hkeeps := keepsLease_of_renewed hexclusive hrenews h
  have hheld' : HeldOnce s' j := heldOnce_of_step hlinked h hkeeps hheld
  refine ⟨hheld', hheld'.unique, ?_⟩
  intro c e' he' hopen'
  rcases open_of_jobStep hstep he' hopen' with
    ⟨e, he, hopen⟩ | ⟨tx, now, job, hl, hrow, hrow'⟩
  · obtain ⟨job, hrow, hactive, hlease⟩ := hexclusive.held c e he hopen
    obtain ⟨job', hrow', -, hactive', hrunning, hwritten⟩ :=
      row_of_open hlinked h hkeeps hheld he hopen he' hopen' hrow hactive
    refine ⟨job', hrow', hactive', fun hstatus => ?_⟩
    obtain ⟨t, hbeat, hexpires, hle⟩ := hlease (hrunning hstatus)
    by_cases hmine : ∃ w, s.leaseWrite settings l = some w ∧ w.jobId = j
    · obtain ⟨w, hw, rfl⟩ := hmine
      obtain ⟨job'', hrow'', hbeat', hexpires'⟩ := row_of_writes (writes_of_leaseWrite hw) h
      obtain rfl := Option.some.inj (hrow'.symm.trans hrow'')
      refine ⟨w.now, hbeat', hexpires', ?_⟩
      rw [renewals_of_write hw]
      by_cases hholder : c = w.holder
      · rw [hholder, Function.update_self]
      · -- an earlier attempt of the same worker writes the lease of the open one
        rw [Function.update_of_ne hholder]
        exact hle.trans (le_of_leaseOrdered hrenews.2 hw hrow hbeat)
    · obtain ⟨hbeat', hexpires'⟩ := hwritten.resolve_left hmine
      refine ⟨t, hbeat'.trans hbeat, hexpires'.trans hexpires, ?_⟩
      rw [renewals_of_other fun w hw hholder => hmine ⟨w, hw, ?_⟩]
      · exact hle
      · obtain ⟨hworker, hjob⟩ := (s.life_executions j).mp he
        rcases (holder_of_writes (writes_of_leaseWrite hw)).2 with hdelivered | ⟨f, hf⟩
        · rw [hholder, hworker] at hdelivered
          cases hdelivered
        · obtain ⟨hworker', hjob'⟩ := (s.life_executions _).mp hf
          rw [hholder, hworker] at hworker'
          obtain rfl := Consumer.executing.inj hworker'
          exact hjob'.symm.trans hjob
  · obtain ⟨hworker, hguard⟩ := guard_of_started hlinked h hl hrow hrow'
    have hwrite : s.leaseWrite settings l = some ⟨c, j, now⟩ := by
      rw [hl]
      exact leaseWrite_of_writes (.claim c tx now j job hworker hrow hguard)
    refine ⟨_, hrow', Or.inl rfl, fun _ => ⟨now, rfl, rfl, ?_⟩⟩
    rw [renewals_of_write hwrite, Function.update_self]

end Exclusive

/-- A message and its duplicate, a lost claim, and a job that runs longer than a lease under its
renewals, with a reap after each of them. -/
def Scenario.renewed : List (Label 4) :=
  submitted 3 ++ dispatched ++ redelivered ++ claim first 4 31000000 ++
    claim elsewhere 5 31000000 ++
    [.tick 50000000, .worker first (.heartbeat 81000000),
      .sweep .reapExpired (tx 6) [] 1 81000000, .tick 50000000,
      .worker first (.reportProgress 50 131000000), .sweep .reapExpired (tx 7) [] 1 131000000]

end JobOrchestrator
