import JobOrchestrator.Properties.Alone
import JobOrchestrator.Properties.Coherence
import JobOrchestrator.Properties.DeadLetters

/-!
# Attempt accounting

What a job costs when its attempts run one after the other.  The worker compares its attempt number
with the limit of the job, the reaper the attempts of the row; both count the attempts that have
started, so the job ends with its first attempt that decides it or with its last one.
-/

namespace JobOrchestrator

open ExecutionService TransitionSystem

variable {settings : Settings}

/-! ## One attempt -/

section Attempt

variable {a : Attempts settings.workerConcurrency} {j : UUID} {m n : ℕ}
  {s s' : System settings.workerConcurrency} {job : Job} {e : Execution}

/-- What does not change between the attempts of a job that runs alone. -/
structure Calm (a : Attempts settings.workerConcurrency) (j : UUID) (m n : ℕ)
    (s : System settings.workerConcurrency) : Prop where
  reachable : (orchestrator settings).Reachable Always s
  alone : Alone s.db j
  unpublished : s.unpublished = []
  /-- Generated ids are fresh. -/
  attemptIds : ∀ k, n ≤ k → k < m → ∀ i, ∀ b ∈ (s.db.record i).attempts,
    b.id ≠ (a.claimTx k).attemptId
  distinct : Set.InjOn (fun k => (a.claimTx k).attemptId) (Set.Iio m)
  notificationIds : ∀ k i, i ≠ j → ∀ x ∈ (s.db.record i).notifications,
    x.id ≠ (a.finalizeTx k).notificationId j ∧ x.id ≠ (a.sweepTx k).notificationId j

/-- The job waits for its `n`-th attempt. -/
structure Ready (a : Attempts settings.workerConcurrency) (j : UUID) (m n : ℕ)
    (s : System settings.workerConcurrency) : Prop extends Calm a j m n s where
  idle : ∀ k, n ≤ k → s.workers (a.coroutine k) = .idle
  queued : ∃ job, (s.db.record j).row = some job ∧ job.status = .queued ∧ job.attempts = n ∧
    job.maxAttempts = m ∧ job.cancellationRequestedAt = none ∧
    ∃ letters, letters.count j = 0 ∧
      s.queue = { JobQueue.empty with deadLetters := letters }.publish j job.priority

/-- The row of the job and the dead letters while its `n`-th attempt runs. -/
structure Held (a : Attempts settings.workerConcurrency) (j : UUID) (m n : ℕ)
    (s : System settings.workerConcurrency) (job : Job) : Prop extends Calm a j m (n + 1) s where
  row : (s.db.record j).row = some job
  status : job.status = .running
  attempts : job.attempts = n + 1
  maxAttempts : job.maxAttempts = m
  requested : job.cancellationRequestedAt = none
  lockedBy : job.lockedBy = some (a.coroutine n).workerId
  lockExpiresAt : ∃ t, job.lockExpiresAt = some t ∧
    t ≤ s.clock + seconds settings.workerLeaseSeconds
  letters : ∃ letters, letters.count j = 0 ∧
    s.queue = { JobQueue.empty with deadLetters := letters }

/-- The `n`-th attempt is running, and no message of the job is left. -/
structure Running (a : Attempts settings.workerConcurrency) (j : UUID) (m n : ℕ)
    (s : System settings.workerConcurrency) (job : Job) : Prop extends Held a j m n s job where
  executing : s.workers (a.coroutine n) = .executing (.start j
    ⟨n + 1, (a.claimTx n).attemptId, ⟨job.type, job.payload, m⟩⟩)
  waiting : ∀ k, n < k → a.coroutine k ≠ a.coroutine n → s.workers (a.coroutine k) = .idle

/-- A step that touches the record of the job only. -/
lemma Calm.update {n' : ℕ} (h : Calm a j m n s) (hn : n ≤ n')
    (hreach : (orchestrator settings).Reachable Always s')
    (hothers : ∀ i, i ≠ j → s'.db.record i = s.db.record i) (hunpublished : s'.unpublished = [])
    (hids : ∀ b ∈ (s'.db.record j).attempts, (∃ b' ∈ (s.db.record j).attempts, b'.id = b.id) ∨
      ∃ k, k < n' ∧ b.id = (a.claimTx k).attemptId) : Calm a j m n' s' where
  reachable := hreach
  alone i other hi hother := by
    rw [hothers i hi] at hother
    exact h.alone i other hi hother
  unpublished := hunpublished
  attemptIds k hk hkm i b hb := by
    by_cases hi : i = j
    · rw [hi] at hb
      rcases hids b hb with ⟨b', hb', hid⟩ | ⟨k', hk', hid⟩
      · rw [← hid]
        exact h.attemptIds k (hn.trans hk) hkm j b' hb'
      · rw [hid]
        intro heq
        have heq : k' = k := h.distinct (show k' < m by omega) hkm heq
        omega
    · rw [hothers i hi] at hb
      exact h.attemptIds k (hn.trans hk) hkm i b hb
  distinct := h.distinct
  notificationIds k i hi x hx := by
    rw [hothers i hi] at hx
    exact h.notificationIds k i hi x hx

lemma consume_publish {letters : List UUID} {priority : JobPriority} :
    ({ JobQueue.empty with deadLetters := letters }.publish j priority).consume =
      some (j, { JobQueue.empty with deadLetters := letters }) := by
  cases priority <;> rfl

/-- A job that is not terminal has no notification. -/
lemma notifications_eq_nil (h : (orchestrator settings).Reachable Always s)
    (hrow : (s.db.record j).row = some job) (hactive : ¬ job.status.isTerminal) :
    (s.db.record j).notifications = [] := by
  refine List.eq_nil_iff_forall_not_mem.mpr fun x hx => ?_
  obtain ⟨-, job', hrow', hterminal⟩ := notification_of_reachable h hx
  obtain rfl := Option.some.inj (hrow.symm.trans hrow')
  exact hactive hterminal

/-- The notification ids that an attempt draws are free while the job is active. -/
lemma Calm.free (h : Calm a j m n s) (hrow : (s.db.record j).row = some job)
    (hactive : ¬ job.status.isTerminal) (k : ℕ) (i : UUID) :
    ∀ x ∈ (s.db.record i).notifications,
      x.id ≠ (a.finalizeTx k).notificationId j ∧ x.id ≠ (a.sweepTx k).notificationId j := by
  intro x hx
  by_cases hi : i = j
  · rw [hi, notifications_eq_nil h.reachable hrow hactive] at hx
    cases hx
  · exact h.notificationIds k i hi x hx

/-- The claim that starts an attempt. -/
lemma execute_of_ready (h : Ready a j m n s) (hn : n < m) :
    ∃ job s₁, a.execute settings n s = a.finish settings n s₁ ∧ Running a j m n s₁ job := by
  obtain ⟨job, hrow, hstatus, rfl, rfl, hrequested, letters, hcount, hqueue⟩ := h.queued
  let c := a.coroutine job.attempts
  let s₁ := { s with queue := { JobQueue.empty with deadLetters := letters } }.become c
    (.delivered j)
  have hconsume : s.step settings (.worker c .consume) = some s₁ := by
    have hidle : s.workers c = .idle := h.idle job.attempts le_rfl
    simp only [System.step, System.workerStep, hidle, hqueue, consume_publish, Option.map_some]
    rfl
  have hreach₁ : (orchestrator settings).Reachable Always s₁ :=
    h.reachable.steps (Attempts.steps_of_step hconsume)
  have hguard : (JobRepository.claimForExecution c.workerId settings.workerLeaseSeconds
      s₁.clock).guard job := JobRepository.claimForExecution_guard.mpr ⟨Or.inl hstatus, hrequested⟩
  have hfresh : ∀ i, ∀ b ∈ (s₁.db.record i).attempts,
      b.id ≠ (a.claimTx job.attempts).attemptId := h.attemptIds job.attempts le_rfl hn
  obtain ⟨db, hclaim, hrecord⟩ :=
    step_claim_won hreach₁ (System.become_self ..) hrow hguard hfresh
  let row := (JobRepository.claimForExecution c.workerId settings.workerLeaseSeconds s.clock).values
    job
  let s₂ := { s₁ with db }.become c (.executing (.start j ⟨job.attempts + 1,
    (a.claimTx job.attempts).attemptId, ⟨job.type, job.payload, job.maxAttempts⟩⟩))
  let s₃ := { s₂ with clock := s₂.clock + a.duration job.attempts }
  have htick : s₂.step settings (.tick (a.duration job.attempts)) = some s₃ := rfl
  have hreach₃ : (orchestrator settings).Reachable Always s₃ :=
    (hreach₁.steps (Attempts.steps_of_step hclaim)).steps (Attempts.steps_of_step htick)
  have hcalm : Calm a j job.maxAttempts (job.attempts + 1) s₃ := by
    refine h.toCalm.update (Nat.le_succ _) hreach₃ (fun i hi => ?_) h.unpublished fun b hb => ?_
    · change db.record i = s.db.record i
      rw [hrecord, Function.update_of_ne hi]
      rfl
    · change b ∈ (db.record j).attempts at hb
      rw [hrecord, Function.update_self, claimed, List.mem_append, List.mem_singleton] at hb
      rcases hb with hb | rfl
      · exact Or.inl ⟨b, hb, rfl⟩
      · exact Or.inr ⟨job.attempts, Nat.lt_succ_self _, rfl⟩
  have hheld : Held a j job.maxAttempts job.attempts s₃ row := by
    refine ⟨hcalm, ?_, rfl, rfl, rfl, hrequested, rfl, ⟨_, rfl, ?_⟩, letters, hcount, rfl⟩
    · change (db.record j).row = some row
      rw [hrecord, Function.update_self]
      rfl
    · exact Int.add_le_add_right (Int.le_add_of_nonneg_right (Int.natCast_nonneg _)) _
  have hrunning : Running a j job.maxAttempts job.attempts s₃ row := by
    refine ⟨hheld, System.become_self .., fun k hk hne => ?_⟩
    change Function.update (Function.update s.workers c _) c _ (a.coroutine k) = .idle
    rw [Function.update_of_ne hne, Function.update_of_ne hne]
    exact h.idle k hk.le
  refine ⟨row, s₃, ?_, hrunning⟩
  rw [Attempts.execute]
  change (s.step settings (.worker c .consume)).bind _ = _
  rw [hconsume, Option.bind_some]
  change (s₁.step settings _).bind _ = _
  rw [hclaim, Option.bind_some]
  change (s₂.step settings _).bind _ = _
  rw [htick, Option.bind_some]

/-! ## The end of an attempt -/

section Proceed

variable {next : Time → Stage → Option WorkerAction} {k : ℕ}

lemma proceed_step {action : WorkerAction} (he : s.workers (a.coroutine n) = .executing e)
    (hnext : next s.clock e.stage = some action)
    (hstep : s.step settings (.worker (a.coroutine n) action) = some s') :
    a.proceed settings n next (k + 1) s = a.proceed settings n next k s' := by
  rw [Attempts.proceed, he]
  dsimp only
  rw [hnext]
  dsimp only
  rw [hstep, Option.bind_some]

/-- Nothing is left to do. -/
lemma proceed_idle (hidle : s.workers (a.coroutine n) = .idle) :
    a.proceed settings n next k s = some s := by
  cases k with
  | zero => rfl
  | succ k => rw [Attempts.proceed, hidle]

/-- Before its finalizing transaction the driver only moves the execution of the attempt. -/
lemma proceed_before (he : s.workers (a.coroutine n) = .executing e) (hopen : e.stage.isOpen) :
    ∃ e', a.proceed settings n (a.nextActionBefore settings n) k s =
      some (s.become (a.coroutine n) (.executing e')) := by
  induction k generalizing s e with
  | zero => exact ⟨e, congrArg some (System.become_eq_self he).symm⟩
  | succ k ih =>
      have hmoved : ∀ {action stage},
          a.nextActionBefore settings n s.clock e.stage = some action →
          s.step settings (.worker (a.coroutine n) action) =
            some (s.resume (a.coroutine n) e stage) → stage.isOpen →
          ∃ e', a.proceed settings n (a.nextActionBefore settings n) (k + 1) s =
            some (s.become (a.coroutine n) (.executing e')) := by
        intro action stage hnext hstep hstage
        obtain ⟨e', he'⟩ := ih (e := { e with stage }) (System.become_self ..) hstage
        refine ⟨e', ?_⟩
        rw [proceed_step he hnext hstep, System.resume, he', System.become_become]
      have hstops : a.nextActionBefore settings n s.clock e.stage = none →
          ∃ e', a.proceed settings n (a.nextActionBefore settings n) (k + 1) s =
            some (s.become (a.coroutine n) (.executing e')) := by
        intro hnext
        refine ⟨e, ?_⟩
        rw [System.become_eq_self he, Attempts.proceed, he]
        dsimp only
        rw [hnext]
      cases hstage : e.stage with
      | handler | finalizing => exact hstops (by rw [hstage]; rfl)
      | deciding code message =>
          refine hmoved (by rw [hstage]; rfl) (step_readCancellation he hstage) ?_
          unfold Execution.afterRead
          split_ifs <;> rfl
      | backingOff code message =>
          exact hmoved (by rw [hstage]; rfl) (step_computeBackoff he hstage (a.backoff n)) rfl
      | deadLettering | returning => rw [hstage] at hopen; cases hopen

/-- How the attempt ends when its handler ends, if the job is not cancelled. -/
def HandlerExit.outcome (m n : ℕ) (due : Time) : HandlerExit → Outcome
  | .returned result => .succeeded result
  | .raised (.nonRetryable code message) => .failed code message false
  | .raised (.retryable code message) => retryable code message
  | .raised (.unexpected message) => retryable "UNEXPECTED_ERROR" message
where
  retryable (code message : String) : Outcome :=
    if m ≤ n + 1 then .failed code message true else .retry code message due

/-- `_handle_retryable`, with at most two of the five steps. -/
lemma proceed_deciding {code message : String}
    (hrequested : cancellationRequested s.db e.jobId = false)
    (hnumber : e.attemptNumber = n + 1) (hlimit : e.snapshot.maxAttempts = m) :
    ∃ k, 3 ≤ k ∧ a.proceed settings n (a.nextAction settings n) 5
        (s.resume (a.coroutine n) e (.deciding code message)) =
      a.proceed settings n (a.nextAction settings n) k (s.resume (a.coroutine n) e (.finalizing
        (HandlerExit.outcome.retryable m n (s.clock + a.backoff n) code message))) := by
  have hread : (s.resume (a.coroutine n) e (.deciding code message)).step settings
      (.worker (a.coroutine n) .readCancellation) =
        some (s.resume (a.coroutine n) e (if m ≤ n + 1 then .finalizing (.failed code message true)
          else .backingOff code message)) := by
    rw [step_readCancellation (s.resume_self ..) rfl, System.resume_resume]
    have hafter : e.afterRead code message (cancellationRequested s.db e.jobId) =
        if m ≤ n + 1 then .finalizing (.failed code message true)
          else .backingOff code message := by
      simp only [Execution.afterRead, hrequested, hlimit, hnumber, Bool.false_eq_true, if_false]
    exact congrArg (fun stage => some (s.resume (a.coroutine n) e stage)) hafter
  rw [proceed_step (s.resume_self ..) rfl hread]
  by_cases hlast : m ≤ n + 1
  · exact ⟨4, by decide, by simp only [HandlerExit.outcome.retryable, if_pos hlast]⟩
  · have hbackoff : (s.resume (a.coroutine n) e (.backingOff code message)).step settings
        (.worker (a.coroutine n) (.computeBackoff s.clock (a.backoff n))) =
          some (s.resume (a.coroutine n) e
            (.finalizing (.retry code message (s.clock + a.backoff n)))) :=
      (step_computeBackoff (s.resume_self ..) rfl (a.backoff n)).trans
        (congrArg some (s.resume_resume ..))
    refine ⟨3, le_rfl, ?_⟩
    rw [if_neg hlast, proceed_step (s.resume_self ..) rfl hbackoff, HandlerExit.outcome.retryable,
      if_neg hlast]

/-- The outcome is a dead letter. -/
def Outcome.deadLetters : Outcome → Bool
  | .failed _ _ true => true
  | _ => false

/-- The `finally` block of an attempt that has committed. -/
lemma proceed_returning :
    a.proceed settings n (a.nextAction settings n) (k + 1)
      (s.resume (a.coroutine n) e (.returning false)) = some (s.become (a.coroutine n) .idle) := by
  have hreturns : (s.resume (a.coroutine n) e (.returning false)).step settings
      (.worker (a.coroutine n) .returns) = some (s.become (a.coroutine n) .idle) := by
    rw [step_executing (s.resume_self ..)]
    exact congrArg some (s.become_become ..)
  rw [proceed_step (s.resume_self ..) rfl hreturns]
  exact proceed_idle (s.become_self ..)

/-- The end of the attempt from its finalizing transaction on. -/
lemma proceed_finalizing {outcome : Outcome} (hk : 3 ≤ k)
    (he : s.workers (a.coroutine n) = .executing e) (hstage : e.stage = .finalizing outcome)
    (hown : ∃ b ∈ (s.db.record e.jobId).attempts, b.id = e.attemptId)
    (hrow : (s.db.record e.jobId).row = some job)
    (hguard : (outcome.finalizer.update (a.coroutine n).workerId s.clock).guard job)
    (hfresh : ∀ i, ∀ x ∈ (s.db.record i).notifications,
      x.id ≠ (a.finalizeTx n).notificationId e.jobId) :
    ∃ db, a.proceed settings n (a.nextAction settings n) k s = some { s with
          db
          queue := if Outcome.deadLetters outcome then s.queue.deadLetter e.jobId else s.queue
          workers := Function.update s.workers (a.coroutine n) .idle } ∧
      db.record = Function.update s.db.record e.jobId
        (finalized (Attempts.begun (a.finalizeTx n) s.clock) (a.coroutine n).workerId e.attemptId
          s.clock outcome.finalizer job (s.db.record e.jobId)) := by
  obtain ⟨k, rfl⟩ := Nat.exists_eq_add_of_le' hk
  obtain ⟨db, hfinalize, hrecord⟩ := step_finalize_hit he hstage hown hrow hguard hfresh
  refine ⟨db, ?_, hrecord⟩
  have hnext : a.nextAction settings n s.clock e.stage =
      some (.finalize (Attempts.begun (a.finalizeTx n) s.clock) s.clock) := by
    rw [hstage]
    rfl
  rw [proceed_step he hnext hfinalize]
  cases outcome with
  | succeeded | retry | cancelled => exact proceed_returning
  | failed code message deadLettered =>
      cases deadLettered with
      | false => exact proceed_returning
      | true =>
          let t : System settings.workerConcurrency :=
            { s with db, queue := s.queue.deadLetter e.jobId }
          have hpush : (({ s with db } : System settings.workerConcurrency).resume
              (a.coroutine n) e .deadLettering).step settings
                (.worker (a.coroutine n) .pushDeadLetter) =
              some (t.resume (a.coroutine n) e (.returning false)) := by
            rw [step_executing (System.resume_self ..)]
            exact congrArg some (t.resume_resume ..)
          exact (proceed_step (System.resume_self ..) rfl hpush).trans proceed_returning

/-- An attempt whose handler ends commits what it has decided. -/
lemma finish_ended (h : Running a j m n s job) {exit : HandlerExit}
    (hending : a.ending n = .ended exit) {outcome : Outcome}
    (houtcome : exit.outcome m n (s.clock + a.backoff n) = outcome) :
    ∃ db, a.finish settings n s = some { s with
          db
          queue := if Outcome.deadLetters outcome then s.queue.deadLetter j else s.queue
          workers := Function.update s.workers (a.coroutine n) .idle } ∧
      db.record = Function.update s.db.record j
        (finalized (Attempts.begun (a.finalizeTx n) s.clock) (a.coroutine n).workerId
          (a.claimTx n).attemptId s.clock outcome.finalizer job (s.db.record j)) := by
  let c := a.coroutine n
  let e := Execution.start j ⟨n + 1, (a.claimTx n).attemptId, ⟨job.type, job.payload, m⟩⟩
  have hrequested : cancellationRequested s.db j = false := by
    have hget : JobRepository.get s.db j = some job := h.row
    simp [cancellationRequested, hget, h.requested]
  have hdecided : ∃ k, 3 ≤ k ∧ a.finish settings n s =
      a.proceed settings n (a.nextAction settings n) k (s.resume c e (.finalizing outcome)) := by
    have hexit : ∀ stage, s.step settings (.worker c exit.action) = some (s.resume c e stage) →
        a.finish settings n s =
          a.proceed settings n (a.nextAction settings n) 5 (s.resume c e stage) := by
      intro stage hstep
      rw [Attempts.finish, hending]
      dsimp only
      rw [hstep, Option.bind_some]
    subst houtcome
    cases exit with
    | returned result => exact ⟨5, by decide, hexit _ (step_executing h.executing _)⟩
    | raised error =>
        rw [hexit _ (step_executing h.executing _)]
        cases error with
        | nonRetryable code message => exact ⟨5, by decide, rfl⟩
        | retryable code message => exact proceed_deciding hrequested rfl rfl
        | unexpected message => exact proceed_deciding hrequested rfl rfl
  obtain ⟨k, hk, hfinish⟩ := hdecided
  have hown : ∃ b ∈ (s.db.record j).attempts, b.id = (a.claimTx n).attemptId :=
    (linked_of_reachable h.reachable j).attempt_mem c e
      ((s.life_executions j).mpr ⟨h.executing, rfl⟩)
  have hactive : ¬ job.status.isTerminal := by rw [h.status]; decide
  obtain ⟨db, hproceed, hrecord⟩ := proceed_finalizing hk
    (s.resume_self c e (.finalizing outcome)) rfl hown h.row
    (finalizer_guard h.lockedBy (Or.inl h.status) fun _ hc => by cases h.status.symm.trans hc)
    (fun i x hx => (h.toCalm.free h.row hactive n i x hx).1)
  refine ⟨db, ?_, hrecord⟩
  rw [hfinish, hproceed]
  exact congrArg (fun workers => some { s with
    db
    queue := if Outcome.deadLetters outcome then s.queue.deadLetter j else s.queue
    workers }) (Function.update_idem ..)

/-- A worker that dies leaves its job locked. -/
lemma finish_crashed (h : Running a j m n s job) {exit : Option HandlerExit} {steps : ℕ}
    (hending : a.ending n = .crashed exit steps) :
    ∃ workers, a.finish settings n s = some { s with workers } ∧
      ∀ d, d.workerId ≠ (a.coroutine n).workerId → workers d = s.workers d := by
  have hmoved : ∃ e', exit.elim (some s) (fun exit =>
        s.step settings (.worker (a.coroutine n) exit.action)) =
      some (s.become (a.coroutine n) (.executing e')) ∧ e'.stage.isOpen := by
    cases exit with
    | none => exact ⟨_, congrArg some (System.become_eq_self h.executing).symm, rfl⟩
    | some exit =>
        cases exit with
        | returned result => exact ⟨_, step_executing h.executing _, rfl⟩
        | raised error =>
            refine ⟨_, step_executing h.executing _, ?_⟩
            cases error <;> rfl
  obtain ⟨e', hexit, hopen⟩ := hmoved
  obtain ⟨e'', hproceed⟩ :=
    proceed_before (a := a) (k := steps) (s.become_self (a.coroutine n) _) hopen
  rw [System.become_become] at hproceed
  refine ⟨fun d => if d.workerId = (a.coroutine n).workerId then .ended else
    Function.update s.workers (a.coroutine n) (.executing e'') d, ?_, fun d hd => ?_⟩
  · rw [Attempts.finish, hending]
    dsimp only
    rw [hexit]
    change (a.proceed settings n (a.nextActionBefore settings n) steps _).bind _ = _
    rw [hproceed]
    rfl
  · have hne : d ≠ a.coroutine n := fun heq => hd (congrArg Coroutine.workerId heq)
    dsimp only
    rw [if_neg hd, Function.update_of_ne hne]

end Proceed

/-! ## Between two attempts -/

section PutBack

lemma idle_after (h : Running a j m n s job) (k : ℕ) (hk : n < k) :
    Function.update s.workers (a.coroutine n) Consumer.idle (a.coroutine k) = .idle := by
  by_cases hc : a.coroutine k = a.coroutine n
  · rw [hc, Function.update_self]
  · rw [Function.update_of_ne hc]
    exact h.waiting k hk hc

/-- A finalizing transaction of the running attempt. -/
lemma Held.committed (h : Held a j m n s job) {db : Database} {tx : Tx} {workerId : String}
    {attemptId : UUID} {now : Time} {f : Finalizer}
    (hrecord : db.record = Function.update s.db.record j
      (finalized tx workerId attemptId now f job (s.db.record j))) {queue : JobQueue}
    {workers : Coroutine settings.workerConcurrency → Consumer}
    (hreach : (orchestrator settings).Reachable Always { s with db, queue, workers }) :
    Calm a j m (n + 1) { s with db, queue, workers } := by
  refine h.toCalm.update le_rfl hreach (fun i hi => ?_) h.unpublished fun b hb => Or.inl ?_
  · change db.record i = _
    rw [hrecord, Function.update_of_ne hi]
  · change b ∈ (db.record j).attempts at hb
    rw [hrecord, Function.update_self, finalized_attempts] at hb
    obtain ⟨b', hb', rfl⟩ := List.mem_map.mp hb
    refine ⟨b', hb', ?_⟩
    split_ifs <;> rfl

/-- A retry is waited for and promoted. -/
lemma ready_of_retry (h : Running a j m n s job) {exit : HandlerExit} {code message : String}
    (hending : a.ending n = .ended exit)
    (houtcome : exit.outcome m n (s.clock + a.backoff n) =
      .retry code message (s.clock + a.backoff n)) :
    ∃ t s', a.finish settings n s = some t ∧ a.putBack settings n j t = some s' ∧
      Ready a j m (n + 1) s' := by
  obtain ⟨letters, hcount, hqueue⟩ := h.letters
  obtain ⟨db, hfinish, hrecord⟩ := finish_ended h hending houtcome
  let retried := (JobRepository.scheduleRetry (a.coroutine n).workerId code message
    (s.clock + a.backoff n) s.clock).values job
  let t : System settings.workerConcurrency := { s with
    db
    workers := Function.update s.workers (a.coroutine n) .idle }
  have hcalm : Calm a j m (n + 1) t :=
    h.toHeld.committed hrecord (h.reachable.steps (Attempts.steps_of_finish hfinish))
  have hrow : (t.db.record j).row = some retried := by
    change (db.record j).row = _
    rw [hrecord, Function.update_self, finalized_row]
    rfl
  let u := { t with clock := t.clock + (a.backoff n + a.spare n : ℕ) }
  have hdue : retried.nextAttemptAt.any fun due => due ≤ u.clock := by
    refine decide_eq_true (Int.add_le_add_left ?_ s.clock)
    exact Int.ofNat_le.mpr (Nat.le_add_right ..)
  obtain ⟨db', hsweep, hrecord'⟩ := sweep_promote (s := u) (a.sweepTx n)
    (a.batchSize_pos n) hcalm.unpublished hcalm.alone hrow rfl hdue
  have hputBack : a.putBack settings n j t =
      some { u with db := db', queue := u.queue.publish j job.priority } := by
    have hget : t.db.jobs.get? j = some retried := hrow
    rw [Attempts.putBack, hget]
    exact hsweep
  have hcalm' : Calm a j m (n + 1)
      { u with db := db', queue := u.queue.publish j job.priority } := by
    refine hcalm.update le_rfl (hcalm.reachable.steps (Attempts.steps_of_putBack hputBack))
      (fun i hi => ?_) hcalm.unpublished fun b hb => Or.inl ⟨b, ?_, rfl⟩
    · change db'.record i = db.record i
      rw [hrecord', Function.update_of_ne hi]
    · change b ∈ (db'.record j).attempts at hb
      rwa [hrecord', Function.update_self] at hb
  refine ⟨t, _, hfinish, hputBack, hcalm', idle_after h,
    (JobRepository.moveRetryToQueued u.clock).values retried, ?_, rfl, h.attempts, h.maxAttempts,
    h.requested, letters, hcount, congrArg (fun q : JobQueue => q.publish j job.priority) hqueue⟩
  change (db'.record j).row = _
  rw [hrecord', Function.update_self]
  rfl

lemma lt_wait (lease : ℤ) (spare : ℕ) : lease < (lease.toNat + 1 + spare : ℕ) := by
  omega

/-- The lease of a dead worker is waited for and reaped. -/
lemma reaped_of_held (h : Held a j m n s job) :
    ∃ db clock, a.putBack settings n j s = some { s with
          db
          clock
          queue := if m ≤ n + 1 then s.queue.deadLetter j else s.queue.publish j job.priority } ∧
      db.record = Function.update s.db.record j (LeaseService.reapRecord
        (Attempts.begun (a.sweepTx n) clock) clock job (s.db.record j)) := by
  let u := { s with
    clock := s.clock + ((seconds settings.workerLeaseSeconds).toNat + 1 + a.spare n : ℕ) }
  have hexpired : job.lockExpiresAt.any fun t => t < u.clock := by
    obtain ⟨t, ht, hle⟩ := h.lockExpiresAt
    rw [ht]
    exact decide_eq_true (Int.lt_of_le_of_lt hle (Int.add_lt_add_left (lt_wait ..) s.clock))
  have hactive : ¬ job.status.isTerminal := by rw [h.status]; decide
  obtain ⟨db, hsweep, hrecord⟩ := sweep_reap (s := u) (a.sweepTx n) (a.batchSize_pos n)
    h.unpublished h.alone h.row h.status hexpired
    (fun i x hx => (h.toCalm.free h.row hactive n i x hx).2)
  refine ⟨db, u.clock, ?_, hrecord⟩
  have hget : s.db.jobs.get? j = some job := h.row
  rw [Attempts.putBack, hget, Option.map_some, h.status]
  rw [h.maxAttempts, h.attempts] at hsweep
  exact hsweep

/-- The crash of its worker leaves a job as it is. -/
lemma Held.crashed (h : Held a j m n s job)
    {workers : Coroutine settings.workerConcurrency → Consumer}
    (hreach : (orchestrator settings).Reachable Always { s with workers }) :
    Held a j m n { s with workers } job where
  reachable := hreach
  alone := h.alone
  unpublished := h.unpublished
  attemptIds := h.attemptIds
  distinct := h.distinct
  notificationIds := h.notificationIds
  row := h.row
  status := h.status
  attempts := h.attempts
  maxAttempts := h.maxAttempts
  requested := h.requested
  lockedBy := h.lockedBy
  lockExpiresAt := h.lockExpiresAt
  letters := h.letters

/-- A job whose worker has died with attempts left is queued again. -/
lemma ready_of_crash (h : Running a j m n s job) (hn : n + 1 < m) {exit : Option HandlerExit}
    {steps : ℕ} (hending : a.ending n = .crashed exit steps) :
    ∃ t s', a.finish settings n s = some t ∧ a.putBack settings n j t = some s' ∧
      Ready a j m (n + 1) s' := by
  obtain ⟨workers, hfinish, hworkers⟩ := finish_crashed h hending
  let t : System settings.workerConcurrency := { s with workers }
  have hheld : Held a j m n t job :=
    h.toHeld.crashed (h.reachable.steps (Attempts.steps_of_finish hfinish))
  obtain ⟨letters, hcount, hqueue⟩ := h.letters
  obtain ⟨db, clock, hputBack, hrecord⟩ := reaped_of_held hheld
  rw [if_neg (not_le.mpr hn)] at hputBack
  rw [LeaseService.reapRecord, h.maxAttempts, h.attempts, if_neg (not_le.mpr hn),
    LeaseService.requeueRecord_of_row hheld.row hheld.status] at hrecord
  have hcalm : Calm a j m (n + 1)
      { t with db, clock, queue := t.queue.publish j job.priority } := by
    refine hheld.toCalm.update le_rfl
      (hheld.reachable.steps (Attempts.steps_of_putBack hputBack)) (fun i hi => ?_) h.unpublished
      fun b hb => Or.inl ⟨b, ?_, rfl⟩
    · change db.record i = s.db.record i
      rw [hrecord, Function.update_of_ne hi]
    · change b ∈ (db.record j).attempts at hb
      rwa [hrecord, Function.update_self] at hb
  refine ⟨t, _, hfinish, hputBack, hcalm, fun k hk => ?_,
    (JobRepository.requeueExpiredLease clock).values job, ?_, rfl, h.attempts, h.maxAttempts,
    h.requested, letters, hcount, congrArg (fun q : JobQueue => q.publish j job.priority) hqueue⟩
  · have hcrashes : (a.ending n).crashes := by rw [hending]; rfl
    have hother := a.alive n k hcrashes hk
    refine (hworkers _ hother).trans (h.waiting k hk fun heq => hother ?_)
    rw [heq]
  · change (db.record j).row = _
    rw [hrecord, Function.update_self]
    rfl

end PutBack

/-! ## The whole run -/

/-- The row that an attempt leaves that decides its job. -/
def Ending.Decided (job : Job) : Ending → Prop
  | .ended (.returned result) => job.status = .succeeded ∧ job.result = some result
  | .ended (.raised (.nonRetryable code message)) =>
      job.status = .failed ∧ job.errorCode = some code ∧ job.errorMessage = some message
  | _ => False

/-- What the attempts from the `n`-th one on cost: the row of the job in the end, and how often its
id is among the dead letters. -/
inductive Account (ending : ℕ → Ending) (m : ℕ) : ℕ → Job → ℕ → Prop
  | decided (n : ℕ) (job : Job) (hn : n < m) (hdecides : (ending n).decides)
      (hdecided : (ending n).Decided job) (hattempts : job.attempts = n + 1)
      (hdead : job.deadLetteredAt = none) : Account ending m n job 0
  | exhausted (n : ℕ) (job : Job) (hlast : n + 1 = m) (hcontinues : ¬ (ending n).decides)
      (hfailed : job.status = .failed) (hattempts : job.attempts = m)
      (hdead : job.deadLetteredAt.isSome) : Account ending m n job 1
  | again (n : ℕ) (job : Job) (letters : ℕ) (hn : n + 1 < m)
      (hcontinues : ¬ (ending n).decides) (hrest : Account ending m (n + 1) job letters) :
      Account ending m n job letters

lemma Ending.cases_of_continues {ending : Ending} (h : ¬ ending.decides) :
    (∃ exit code message, ending = .ended exit ∧
      ∀ m n due, exit.outcome m n due = HandlerExit.outcome.retryable m n due code message) ∨
    ∃ exit steps, ending = .crashed exit steps := by
  cases ending with
  | crashed exit steps => exact Or.inr ⟨exit, steps, rfl⟩
  | ended exit =>
      cases exit with
      | returned result => exact absurd rfl h
      | raised error =>
          cases error with
          | nonRetryable code message => exact absurd rfl h
          | retryable code message => exact Or.inl ⟨_, code, message, rfl, fun _ _ _ => rfl⟩
          | unexpected message => exact Or.inl ⟨_, _, message, rfl, fun _ _ _ => rfl⟩

lemma putBack_terminal (hrow : (s.db.record j).row = some job) (hterminal : job.status.isTerminal) :
    a.putBack settings n j s = some s := by
  have hget : s.db.jobs.get? j = some job := hrow
  rw [Attempts.putBack, hget, Option.map_some]
  rcases JobStatus.isTerminal_iff.mp hterminal with h | h | h | h <;> rw [h]

lemma drain_terminal {k : ℕ} (hrow : (s.db.record j).row = some job)
    (hterminal : job.status.isTerminal) : a.drain settings j k n s = some s := by
  have hget : s.db.jobs.get? j = some job := hrow
  cases k with
  | zero => rfl
  | succ k => rw [Attempts.drain, hget, Option.any_some, if_pos (decide_eq_true hterminal)]

/-- An attempt that decides the job ends it. -/
lemma account_of_decided (h : Running a j m n s job) (hn : n < m)
    (hdecides : (a.ending n).decides) :
    ∃ t job', a.finish settings n s = some t ∧ (t.db.record j).row = some job' ∧
      job'.status.isTerminal ∧ Account a.ending m n job' (t.queue.deadLetters.count j) := by
  obtain ⟨letters, hcount, hqueue⟩ := h.letters
  have hclean : job.deadLetteredAt = none := by
    by_contra hset
    have hfailed := ((deadLetterSound_of_reachable h.reachable j).exhausted job h.row
      (Option.isSome_iff_ne_none.mpr hset)).1
    cases h.status.symm.trans hfailed
  have hletters : s.queue.deadLetters.count j = 0 := by
    rw [hqueue]
    exact hcount
  have hended : ∀ exit outcome, a.ending n = .ended exit →
      exit.outcome m n (s.clock + a.backoff n) = outcome → Outcome.deadLetters outcome = false →
      ∃ t, a.finish settings n s = some t ∧ (t.db.record j).row =
        some ((outcome.finalizer.update (a.coroutine n).workerId s.clock).values job) ∧
        t.queue.deadLetters.count j = 0 := by
    intro exit outcome hending houtcome hquiet
    obtain ⟨db, hfinish, hrecord⟩ := finish_ended h hending houtcome
    refine ⟨_, hfinish, ?_, ?_⟩
    · change (db.record j).row = _
      rw [hrecord, Function.update_self, finalized_row]
    · simpa only [hquiet, Bool.false_eq_true, if_false] using hletters
  cases hending : a.ending n with
  | crashed exit steps => rw [hending] at hdecides; cases hdecides
  | ended exit =>
      cases exit with
      | returned result =>
          obtain ⟨t, hfinish, hrow, hzero⟩ := hended _ _ hending rfl rfl
          refine ⟨t, _, hfinish, hrow, JobStatus.isTerminal_iff.mpr (Or.inl rfl), ?_⟩
          rw [hzero]
          exact .decided n _ hn hdecides (by rw [hending]; exact ⟨rfl, rfl⟩) h.attempts hclean
      | raised error =>
          cases error with
          | nonRetryable code message =>
              obtain ⟨t, hfinish, hrow, hzero⟩ := hended _ _ hending rfl rfl
              refine ⟨t, _, hfinish, hrow, JobStatus.isTerminal_iff.mpr (Or.inr (Or.inl rfl)), ?_⟩
              rw [hzero]
              exact .decided n _ hn hdecides (by rw [hending]; exact ⟨rfl, rfl, rfl⟩) h.attempts
                rfl
          | retryable | unexpected => rw [hending] at hdecides; cases hdecides

/-- The last attempt ends the job also when it does not decide it. -/
lemma account_of_exhausted (h : Running a j m n s job) (hlast : n + 1 = m)
    (hcontinues : ¬ (a.ending n).decides) :
    ∃ t s' job', a.finish settings n s = some t ∧ a.putBack settings n j t = some s' ∧
      (s'.db.record j).row = some job' ∧ job'.status.isTerminal ∧
      Account a.ending m n job' (s'.queue.deadLetters.count j) := by
  obtain ⟨letters, hcount, hqueue⟩ := h.letters
  have hone : (s.queue.deadLetter j).deadLetters.count j = 1 := by
    rw [hqueue, JobQueue.deadLetter, List.count_cons_self, hcount]
  have hattempts : job.attempts = m := h.attempts.trans hlast
  have hfailed : JobStatus.failed.isTerminal := by decide
  rcases Ending.cases_of_continues hcontinues with
    ⟨exit, code, message, hending, houtcome⟩ | ⟨exit, steps, hending⟩
  · have hdead : exit.outcome m n (s.clock + a.backoff n) = .failed code message true := by
      rw [houtcome, HandlerExit.outcome.retryable, if_pos hlast.ge]
    obtain ⟨db, hfinish, hrecord⟩ := finish_ended h hending hdead
    have hrow : (db.record j).row = some ((JobRepository.markFailed (a.coroutine n).workerId code
        message s.clock true).values job) := by
      rw [hrecord, Function.update_self, finalized_row]
      rfl
    refine ⟨_, _, _, hfinish, putBack_terminal hrow hfailed, hrow, hfailed, ?_⟩
    refine hone.symm ▸ .exhausted n _ hlast hcontinues rfl hattempts rfl
  · obtain ⟨workers, hfinish, -⟩ := finish_crashed h hending
    have hheld := h.toHeld.crashed (h.reachable.steps (Attempts.steps_of_finish hfinish))
    obtain ⟨db, clock, hputBack, hrecord⟩ := reaped_of_held hheld
    rw [if_pos hlast.ge] at hputBack
    rw [LeaseService.reapRecord, h.maxAttempts, h.attempts, if_pos hlast.ge,
      LeaseService.failRecord_of_row hheld.row hheld.status] at hrecord
    have hrow : (db.record j).row = some ((JobRepository.failExpiredLease
        LeaseService.leaseExpiredCode LeaseService.leaseExpiredMessage clock true).values job) := by
      rw [hrecord, Function.update_self]
      exact JobRecord.enqueue_row
    refine ⟨_, _, _, hfinish, hputBack, hrow, hfailed, ?_⟩
    refine hone.symm ▸ .exhausted n _ hlast hcontinues rfl hattempts rfl

/-- The driver reaches the end of the job, and the accounts add up. -/
lemma drain_of_ready {k : ℕ} (h : Ready a j m n s) (hn : n < m) (hk : m ≤ n + k) :
    ∃ s' job, a.drain settings j k n s = some s' ∧ (s'.db.record j).row = some job ∧
      job.status.isTerminal ∧ Account a.ending m n job (s'.queue.deadLetters.count j) := by
  induction k generalizing n s with
  | zero => omega
  | succ k ih =>
      obtain ⟨job, t, hexecute, hrunning⟩ := execute_of_ready h hn
      obtain ⟨queued, hrow, hstatus, -⟩ := h.queued
      have hdrain : ∀ {u s'}, a.finish settings n t = some u → a.putBack settings n j u = some s' →
          a.drain settings j (k + 1) n s = a.drain settings j k (n + 1) s' := by
        intro u s' hfinish hputBack
        have hget : s.db.jobs.get? j = some queued := hrow
        have hactive : ¬ (s.db.jobs.get? j).any fun job => job.status.isTerminal := by
          rw [hget, Option.any_some, hstatus]
          decide
        rw [Attempts.drain, if_neg hactive, hexecute, hfinish]
        change (a.putBack settings n j u).bind _ = _
        rw [hputBack, Option.bind_some]
      by_cases hdecides : (a.ending n).decides
      · obtain ⟨u, job', hfinish, hrow', hterminal, haccount⟩ :=
          account_of_decided hrunning hn hdecides
        refine ⟨u, job', ?_, hrow', hterminal, haccount⟩
        rw [hdrain hfinish (putBack_terminal hrow' hterminal)]
        exact drain_terminal hrow' hterminal
      · by_cases hlast : n + 1 = m
        · obtain ⟨u, s', job', hfinish, hputBack, hrow', hterminal, haccount⟩ :=
            account_of_exhausted hrunning hlast hdecides
          refine ⟨s', job', ?_, hrow', hterminal, haccount⟩
          rw [hdrain hfinish hputBack]
          exact drain_terminal hrow' hterminal
        · have hnext : n + 1 < m := by omega
          have hready : ∃ u s', a.finish settings n t = some u ∧
              a.putBack settings n j u = some s' ∧ Ready a j m (n + 1) s' := by
            rcases Ending.cases_of_continues hdecides with
              ⟨exit, code, message, hending, houtcome⟩ | ⟨exit, steps, hending⟩
            · have hretry : exit.outcome m n (t.clock + a.backoff n) =
                  .retry code message (t.clock + a.backoff n) := by
                rw [houtcome, HandlerExit.outcome.retryable, if_neg (not_le.mpr hnext)]
              exact ready_of_retry hrunning hending hretry
            · exact ready_of_crash hrunning hnext hending
          obtain ⟨u, s', hfinish, hputBack, hready⟩ := hready
          obtain ⟨s'', job', hrest, hrow', hterminal, haccount⟩ := ih hready hnext (by omega)
          refine ⟨s'', job', ?_, hrow', hterminal, .again n job' _ hnext hdecides haccount⟩
          rw [hdrain hfinish hputBack]
          exact hrest

lemma Account.of_decides {ending : ℕ → Ending} {letters i : ℕ}
    (h : Account ending m n job letters) (hn : n ≤ i) (hi : i < m) (hdecides : (ending i).decides)
    (hfirst : ∀ l, n ≤ l → l < i → ¬ (ending l).decides) :
    (ending i).Decided job ∧ job.attempts = i + 1 ∧ job.deadLetteredAt = none ∧ letters = 0 := by
  induction h with
  | decided n job _ hdecides' hdecided hattempts hdead =>
      by_cases heq : n = i
      · subst heq
        exact ⟨hdecided, hattempts, hdead, rfl⟩
      · exact absurd hdecides' (hfirst n le_rfl (by omega))
  | exhausted n job hlast hcontinues =>
      obtain rfl : n = i := by omega
      exact absurd hdecides hcontinues
  | again n job letters _ hcontinues _ ih =>
      have hne : n ≠ i := fun heq => hcontinues (heq ▸ hdecides)
      exact ih (by omega) fun l hl => hfirst l (by omega)

lemma Account.of_continues {ending : ℕ → Ending} {letters : ℕ}
    (h : Account ending m n job letters)
    (hcontinues : ∀ i, n ≤ i → i < m → ¬ (ending i).decides) :
    job.status = .failed ∧ job.attempts = m ∧ job.deadLetteredAt.isSome ∧ letters = 1 := by
  induction h with
  | decided n job hn hdecides => exact absurd hdecides (hcontinues n le_rfl hn)
  | exhausted n job hlast _ hfailed hattempts hdead => exact ⟨hfailed, hattempts, hdead, rfl⟩
  | again n job letters _ _ _ ih => exact ih fun i hi => hcontinues i (by omega)

/-- **The accounts of a job add up.**  However its attempts end, a job with at most `m` attempts
that runs alone ends with the first of them that decides it, if there is one, and as a dead letter
after the last one otherwise; and exactly one notification announces its end. -/
theorem attempts_accounted {k : ℕ} (h : Ready a j m 0 s) (hm : 1 ≤ m) (hk : m ≤ k) :
    ∃ s' job x, a.drain settings j k 0 s = some s' ∧
      (orchestrator settings).Steps Always s s' ∧ s'.db.jobs.get? j = some job ∧
      s'.db.notificationOutbox.children NotificationOutbox.jobId j = [x] ∧
      (∀ i, i < m → (a.ending i).decides → (∀ l, l < i → ¬ (a.ending l).decides) →
        (a.ending i).Decided job ∧ job.attempts = i + 1 ∧ job.deadLetteredAt = none ∧
          s'.queue.deadLetters.count j = 0) ∧
      ((∀ i, i < m → ¬ (a.ending i).decides) →
        job.status = .failed ∧ job.attempts = m ∧ job.deadLetteredAt.isSome ∧
          s'.queue.deadLetters.count j = 1) := by
  obtain ⟨s', job, hdrain, hrow, hterminal, haccount⟩ := drain_of_ready h hm (by omega : m ≤ 0 + k)
  have hsteps := Attempts.steps_of_drain hdrain
  obtain ⟨x, hone, -⟩ :=
    (one_terminal_notification (h.reachable.steps hsteps) hrow).1 hterminal
  refine ⟨s', job, x, hdrain, hsteps, hrow, hone, fun i hi hdecides hfirst => ?_,
    fun hcontinues => ?_⟩
  · exact haccount.of_decides (Nat.zero_le i) hi hdecides fun l _ => hfirst l
  · exact haccount.of_continues fun i _ => hcontinues i

end Attempt

namespace Scenario

/-- The worker of the first attempt dies, the second attempt is to be retried, and the others
return. -/
def mixed : Attempts 4 where
  ending n :=
    if n = 0 then .crashed none 0
    else if n = 1 then .ended (.raised (.retryable "TRANSIENT_FAILURE" "failed"))
    else .ended (.returned [])
  coroutine n := if n = 0 then first else elsewhere
  claimTx n := tx (Fin.ofNat _ (n + 10))
  finalizeTx n := tx (Fin.ofNat _ (n + 10))
  sweepTx n := tx (Fin.ofNat _ (n + 10))
  duration _ := 1000000
  backoff _ := 2000000
  spare _ := 0
  batchSize _ := 1
  batchSize_pos _ := le_rfl
  alive n k hcrashes hk := by
    have hn : n = 0 := by
      by_contra hn
      simp only [if_neg hn] at hcrashes
      split_ifs at hcrashes <;> cases hcrashes
    have hk : k ≠ 0 := by omega
    rw [if_neg hk, if_pos hn]
    decide

lemma eq_idle {consumer : Consumer} (h : isIdle consumer) : consumer = .idle := by
  cases consumer with
  | idle => rfl
  | delivered | executing | ended => cases h

/-- The only job of the system waits for its first attempt. -/
def waiting (s : System 4) : Bool :=
  s.unpublished.isEmpty && s.db.jobAttempts.rows.isEmpty && s.db.notificationOutbox.rows.isEmpty &&
    isIdle (s.workers first) && isIdle (s.workers elsewhere) &&
    (s.queue.high.isEmpty && s.queue.normal = [jobId] && s.queue.low.isEmpty &&
      s.queue.deadLetters.isEmpty) &&
    s.db.jobs.rows.all (fun job => job.id = jobId) &&
    (s.db.jobs.get? jobId).any fun job => job.status = .queued && job.attempts = 0 &&
      job.maxAttempts = 3 && job.cancellationRequestedAt = none && job.priority = .normal

lemma ready_of_waiting {s : System 4} (hreach : (orchestrator {}).Reachable Always s)
    (h : waiting s) : @Ready {} mixed jobId 3 0 s := by
  simp only [waiting, Bool.and_eq_true, List.isEmpty_iff, List.all_eq_true, decide_eq_true_eq]
    at h
  obtain ⟨⟨⟨⟨⟨⟨⟨hunpublished, hattempts⟩, hnotifications⟩, hfirst⟩, helsewhere⟩,
    ⟨⟨hhigh, hnormal⟩, hlow⟩, hdead⟩, hrows⟩, hjob⟩ := h
  obtain ⟨job, hrow, hcolumns⟩ := (Option.any_eq_true ..).mp hjob
  simp only [Bool.and_eq_true, decide_eq_true_eq] at hcolumns
  obtain ⟨⟨⟨⟨hstatus, hzero⟩, hlimit⟩, hrequested⟩, hpriority⟩ := hcolumns
  have hqueue : s.queue = { JobQueue.empty with deadLetters := [] }.publish jobId job.priority := by
    rw [hpriority]
    cases hq : s.queue with
    | mk high normal low deadLetters =>
        rw [hq] at hhigh hnormal hlow hdead
        dsimp only at hhigh hnormal hlow hdead
        rw [hhigh, hnormal, hlow, hdead]
        rfl
  refine ⟨⟨hreach, fun i other hi hother => ?_, hunpublished, fun k _ _ i b hb => ?_, ?_,
    fun k i _ x hx => ?_⟩, fun k _ => ?_, job, hrow, hstatus, hzero, hlimit, hrequested, [], rfl,
    hqueue⟩
  · obtain ⟨hmem, hid⟩ := Table.get?_eq_some.mp hother
    exact absurd (hid.symm.trans (hrows other hmem)) hi
  · have hmem := (Table.mem_children.mp hb).1
    rw [hattempts] at hmem
    cases hmem
  · have hdistinct : ∀ k < 3, ∀ k' < 3,
        (mixed.claimTx k).attemptId = (mixed.claimTx k').attemptId → k = k' := by decide +kernel
    exact fun k hk k' hk' heq => hdistinct k hk k' hk' heq
  · have hmem := (Table.mem_children.mp hx).1
    rw [hnotifications] at hmem
    cases hmem
  · change s.workers (if k = 0 then first else elsewhere) = .idle
    split_ifs
    · exact eq_idle hfirst
    · exact eq_idle helsewhere

end Scenario

/-- The worker of the first attempt dies, the second attempt is retried and the third returns. -/
theorem attempts_accounted_mixed :
    ∃ (s s' : System 4) (job : Job), (orchestrator {}).Reachable Always s ∧
      Scenario.mixed.drain {} Scenario.jobId 3 0 s = some s' ∧
      s'.db.jobs.get? Scenario.jobId = some job ∧ job.status = .succeeded ∧ job.attempts = 3 := by
  obtain ⟨s, hsteps, hs⟩ := exists_of_run (T := orchestrator {}) (System.start 4 0)
    (Scenario.submitted 3 ++ Scenario.dispatched) Scenario.waiting (by decide +kernel)
  have hreach : (orchestrator {}).Reachable Always s := ⟨_, ⟨0, rfl⟩, hsteps⟩
  obtain ⟨s', job, x, hdrain, -, hrow, -, hdecided, -⟩ :=
    @attempts_accounted {} Scenario.mixed Scenario.jobId 3 s 3 (Scenario.ready_of_waiting hreach hs)
      (by decide) le_rfl
  obtain ⟨⟨hstatus, -⟩, hattempts, -, -⟩ := hdecided 2 (by decide) rfl (by decide)
  exact ⟨s, s', job, hreach, hdrain, hrow, hstatus, hattempts⟩

end JobOrchestrator
