import JobOrchestrator.Properties.Attempts
import JobOrchestrator.Properties.Cancellation

/-!
# The audit of attempts

The attempt row that a claim opens is closed by the transaction that ends the attempt: by each
finalizing one, and by `_mark_superseded`.  `reap_expired` ends attempts too, and closes no row.
Until it takes its first job, every row that is recorded as running is the current attempt of a
job that a worker holds.
-/

namespace JobOrchestrator

open ExecutionService SubmissionService CancellationService TransitionSystem

variable {settings : Settings}

/-- At most one attempt of the job is recorded as running, and only the current one of an active
job. -/
structure AuditClosed (r : JobRecord) : Prop where
  unique : (r.attempts.filter fun a => a.status = .running).length ≤ 1
  current : ∀ a ∈ r.attempts, a.status = .running → ∃ job, r.row = some job ∧
    (job.status = .running ∨ job.status = .cancelling) ∧ a.attemptNumber = job.attempts

/-- The step is no reap that selects a job. -/
def reapsNothing {concurrency : ℕ} (s : System concurrency) : Label concurrency → Bool
  | .sweep .reapExpired _ locked batchSize now =>
      (JobRepository.findExpiredLeases s.db locked now batchSize).isEmpty
  | _ => true

/-- What keeps the audit closed: a running job has a running attempt, and so has every execution
that has not committed yet, of which a job has at most one. -/
structure Audited {concurrency : ℕ} (life : Life concurrency) : Prop where
  current : ∀ a ∈ life.record.attempts, a.status = .running → ∃ job,
    life.record.row = some job ∧ (job.status = .running ∨ job.status = .cancelling) ∧
      a.attemptNumber = job.attempts
  started : ∀ job, life.record.row = some job → job.status = .running →
    ∃ a ∈ life.record.attempts, a.status = .running
  executed : ∀ c e, life.executions c = some e → e.stage.isOpen →
    ∃ a ∈ life.record.attempts, a.id = e.attemptId ∧ a.attemptNumber = e.attemptNumber ∧
      a.status = .running
  alone : ∀ c d e f, life.executions c = some e → life.executions d = some f →
    e.stage.isOpen → f.stage.isOpen → c = d

section Audited

variable {s s' : System settings.workerConcurrency} {j : UUID}
  {l : Label settings.workerConcurrency} {life life' : Life settings.workerConcurrency}

/-- The attempt rows of a job have different numbers. -/
lemma attempt_of_number (hnumbered : Numbered life) {job : Job} (hrow : life.record.row = some job)
    {a b : JobAttempt} (ha : a ∈ life.record.attempts) (hb : b ∈ life.record.attempts)
    (hnumber : a.attemptNumber = b.attemptNumber) : a = b := by
  have hnodup : (life.record.attempts.map JobAttempt.attemptNumber).Nodup := by
    rw [hnumbered job hrow]
    exact List.nodup_range'
  exact List.inj_on_of_nodup_map hnodup ha hb hnumber

lemma auditClosed_of_audited (hnumbered : Numbered life) (haudited : Audited life) :
    AuditClosed life.record where
  current := haudited.current
  unique := by
    cases hrow : life.record.row with
    | none =>
        have hnone : (life.record.attempts.filter fun a => a.status = .running) = [] := by
          refine List.filter_eq_nil_iff.mpr fun a ha hrunning => ?_
          obtain ⟨job, hjob, -⟩ := haudited.current a ha (of_decide_eq_true hrunning)
          cases hrow.symm.trans hjob
        rw [hnone]
        exact Nat.zero_le 1
    | some job =>
        -- all of them have the number of attempts that the job counts
        have hsame : (life.record.attempts.filter fun a => a.status = .running).map
            JobAttempt.attemptNumber = List.replicate
              (life.record.attempts.filter fun a => a.status = .running).length job.attempts := by
          refine List.eq_replicate_iff.mpr ⟨List.length_map _, fun n hn => ?_⟩
          obtain ⟨a, ha, rfl⟩ := List.mem_map.mp hn
          obtain ⟨hmem, hrunning⟩ := List.mem_filter.mp ha
          obtain ⟨job', hjob', -, hnumber⟩ :=
            haudited.current a hmem (of_decide_eq_true hrunning)
          rw [hnumber, Option.some.inj (hrow.symm.trans hjob')]
        have hnodup : ((life.record.attempts.filter fun a => a.status = .running).map
            JobAttempt.attemptNumber).Nodup := by
          refine (List.filter_sublist.map _).nodup ?_
          rw [hnumbered job hrow]
          exact List.nodup_range'
        rw [hsame] at hnodup
        exact List.nodup_replicate.mp hnodup

/-- What a step must keep to keep the audit: the attempt rows, the number of attempts and the hold
on an active job, and for every open execution that it was open before. -/
lemma Audited.of_kept (h : Audited life)
    (hattempts : life'.record.attempts = life.record.attempts)
    (hrow : ∀ job, life.record.row = some job → ∃ job', life'.record.row = some job' ∧
      job'.attempts = job.attempts ∧
      ((job.status = .running ∨ job.status = .cancelling) →
        (job'.status = .running ∨ job'.status = .cancelling)) ∧
      (job'.status = .running → job.status = .running))
    (hnone : life.record.row = none → life'.record.row = none)
    (hopen : ∀ c e', life'.executions c = some e' → e'.stage.isOpen → ∃ e,
      life.executions c = some e ∧ e.stage.isOpen ∧ e.attemptId = e'.attemptId ∧
      e.attemptNumber = e'.attemptNumber) : Audited life' where
  current a ha hrunning := by
    rw [hattempts] at ha
    obtain ⟨job, hjob, hactive, hnumber⟩ := h.current a ha hrunning
    obtain ⟨job', hjob', hsame, hkept, -⟩ := hrow job hjob
    exact ⟨job', hjob', hkept hactive, hnumber.trans hsame.symm⟩
  started job' hjob' hrunning := by
    rw [hattempts]
    cases hjob : life.record.row with
    | none => cases (hnone hjob).symm.trans hjob'
    | some job =>
        obtain ⟨job'', hjob'', -, -, hback⟩ := hrow job hjob
        obtain rfl := Option.some.inj (hjob'.symm.trans hjob'')
        exact h.started job hjob (hback hrunning)
  executed c e' he' hopen' := by
    obtain ⟨e, he, hbefore, hid, hnumber⟩ := hopen c e' he' hopen'
    rw [hattempts, ← hid, ← hnumber]
    exact h.executed c e he hbefore
  alone c d e' f' he' hf' hopene hopenf := by
    obtain ⟨e, he, hbefore, -⟩ := hopen c e' he' hopene
    obtain ⟨f, hf, hbefore', -⟩ := hopen d f' hf' hopenf
    exact h.alone c d e f he hf hbefore hbefore'

/-- Without a step of its execution, what is open was open before. -/
lemma open_of_same (hexecutions : life'.executions = life.executions) :
    ∀ c e', life'.executions c = some e' → e'.stage.isOpen → ∃ e,
      life.executions c = some e ∧ e.stage.isOpen ∧ e.attemptId = e'.attemptId ∧
      e.attemptNumber = e'.attemptNumber := by
  intro c e' he' hopen
  rw [hexecutions] at he'
  exact ⟨e', he', hopen, rfl, rfl⟩

/-- The step of an execution that goes on as another stage of the same attempt. -/
lemma open_of_update {c : Coroutine settings.workerConcurrency} {e e₁ : Execution}
    (he : life.executions c = some e)
    (hexecutions : life'.executions = Function.update life.executions c (some e₁))
    (hopen : e₁.stage.isOpen → e.stage.isOpen) (hid : e.attemptId = e₁.attemptId)
    (hnumber : e.attemptNumber = e₁.attemptNumber) :
    ∀ d e', life'.executions d = some e' → e'.stage.isOpen → ∃ e,
      life.executions d = some e ∧ e.stage.isOpen ∧ e.attemptId = e'.attemptId ∧
      e.attemptNumber = e'.attemptNumber := by
  intro d e' he' hopen'
  rw [hexecutions] at he'
  by_cases hd : d = c
  · subst hd
    rw [Function.update_self] at he'
    obtain rfl := Option.some.inj he'
    exact ⟨e, he, hopen hopen', hid, hnumber⟩
  · rw [Function.update_of_ne hd] at he'
    exact ⟨e', he', hopen', rfl, rfl⟩

/-- No attempt of a job that no worker holds is recorded as running, and none is open. -/
lemma Audited.closed_of_inactive (h : Audited life) {job : Job}
    (hrow : life.record.row = some job)
    (hinactive : ¬ (job.status = .running ∨ job.status = .cancelling)) :
    (∀ a ∈ life.record.attempts, a.status ≠ .running) ∧
      ∀ c e, life.executions c = some e → ¬ e.stage.isOpen := by
  have hnone : ∀ a ∈ life.record.attempts, a.status ≠ .running := by
    intro a ha hrunning
    obtain ⟨job', hjob', hactive, -⟩ := h.current a ha hrunning
    rw [← Option.some.inj (hrow.symm.trans hjob')] at hactive
    exact hinactive hactive
  refine ⟨hnone, fun c e he hopen => ?_⟩
  obtain ⟨a, ha, -, -, hrunning⟩ := h.executed c e he hopen
  exact hnone a ha hrunning

/-- A claim opens the one attempt that is running. -/
lemma audited_of_claimed (haudited : Audited (s.life j)) {c : Coroutine settings.workerConcurrency}
    {tx : Tx} {now : Time} {job : Job} (hrow : (s.db.record j).row = some job)
    (hguard : (JobRepository.claimForExecution c.workerId settings.workerLeaseSeconds
      now).guard job) :
    Audited { s.life j with
      record := claimed settings tx c.workerId now job (s.db.record j)
      executions := Function.update (s.life j).executions c (some (.start j
        ⟨job.attempts + 1, tx.attemptId, ⟨job.type, job.payload, job.maxAttempts⟩⟩)) } := by
  have hinactive : ¬ (job.status = .running ∨ job.status = .cancelling) := by
    rcases (JobRepository.claimForExecution_guard.mp hguard).1 with h | h <;> simp [h]
  obtain ⟨hnone, hclosed⟩ := haudited.closed_of_inactive hrow hinactive
  let a := JobAttemptRepository.started tx.attemptId job.id (job.attempts + 1) c.workerId now
  have hstarted : a ∈ (claimed settings tx c.workerId now job (s.db.record j)).attempts :=
    List.mem_append_right _ (List.mem_singleton_self a)
  -- every open execution is the one of the claim
  have hmine : ∀ d e', Function.update (s.life j).executions c (some (Execution.start j
      ⟨job.attempts + 1, tx.attemptId, ⟨job.type, job.payload, job.maxAttempts⟩⟩)) d = some e' →
      e'.stage.isOpen → d = c := by
    intro d e' he' hopen
    by_contra hd
    rw [Function.update_of_ne hd] at he'
    exact hclosed d e' he' hopen
  constructor
  · intro b hb hrunning
    rcases List.mem_append.mp hb with hold | hnew
    · exact absurd hrunning (hnone b hold)
    · obtain rfl := List.mem_singleton.mp hnew
      exact ⟨_, rfl, Or.inl rfl, rfl⟩
  · exact fun _ _ _ => ⟨a, hstarted, rfl⟩
  · intro d e' he' hopen
    obtain rfl := hmine d e' he' hopen
    dsimp only at he'
    rw [Function.update_self] at he'
    obtain rfl := Option.some.inj he'
    exact ⟨a, hstarted, rfl, rfl, rfl⟩
  · intro d f e' f' he' hf' hopene hopenf
    rw [hmine d e' he' hopene, hmine f f' hf' hopenf]

section Finalize

variable {c : Coroutine settings.workerConcurrency} {e : Execution} {outcome : Outcome} {tx : Tx}
  {now : Time} {job : Job}

/-- Once an execution has run its finalizing transaction, no execution of its job is open. -/
lemma Audited.none_open (haudited : Audited (s.life j)) (hit : Bool)
    (he : (s.life j).executions c = some e) (hstage : e.stage = .finalizing outcome) :
    ∀ d e', Function.update (s.life j).executions c
      (some { e with stage := Stage.afterFinalize hit outcome }) d = some e' →
      ¬ e'.stage.isOpen := by
  intro d e' he' hopen
  by_cases hd : d = c
  · subst hd
    rw [Function.update_self] at he'
    obtain rfl := Option.some.inj he'
    rw [afterFinalize_isOpen] at hopen
    cases hopen
  · rw [Function.update_of_ne hd] at he'
    exact hd (haudited.alone d c e' e he' he hopen (by rw [hstage]; rfl))

/-- A finalizing transaction that matches closes the running attempt. -/
lemma audited_of_finalized (hnumbered : Numbered (s.life j)) (haudited : Audited (s.life j))
    (he : (s.life j).executions c = some e) (hstage : e.stage = .finalizing outcome) :
    Audited { s.life j with
      record := finalized tx c.workerId e.attemptId now outcome.finalizer job (s.db.record j)
      executions := Function.update (s.life j).executions c
        (some { e with stage := Stage.afterFinalize true outcome }) } := by
  obtain ⟨a, ha, hid, -, hrunning⟩ := haudited.executed c e he (by rw [hstage]; rfl)
  obtain ⟨job₁, hrow₁, -, hnumber⟩ := haudited.current a ha hrunning
  have hended : outcome.finalizer.attemptStatus ≠ .running := by cases outcome <;> exact nofun
  have hnone : ∀ b ∈ (finalized tx c.workerId e.attemptId now outcome.finalizer job
      (s.db.record j)).attempts, b.status ≠ .running := by
    intro b hb hb'
    rw [finalized_attempts] at hb
    obtain ⟨b₀, hb₀, rfl⟩ := List.mem_map.mp hb
    by_cases hown : b₀.id = e.attemptId
    · rw [if_pos hown] at hb'
      exact hended hb'
    · -- a running attempt is the one that was closed
      rw [if_neg hown] at hb'
      obtain ⟨job₂, hrow₂, -, hnumber'⟩ := haudited.current b₀ hb₀ hb'
      obtain rfl := Option.some.inj (hrow₁.symm.trans hrow₂)
      obtain rfl := attempt_of_number hnumbered hrow₁ ha hb₀ (hnumber.trans hnumber'.symm)
      exact hown hid
  have hclosed := haudited.none_open true he hstage
  refine ⟨fun b hb hb' => absurd hb' (hnone b hb), fun job' hrow' hstatus => ?_,
    fun d e' he' hopen => absurd hopen (hclosed d e' he'),
    fun d _ e' _ he' _ hopen _ => absurd hopen (hclosed d e' he')⟩
  rw [finalized_row] at hrow'
  obtain rfl := Option.some.inj hrow'
  rw [finalizer_status] at hstatus
  exact absurd hstatus (finalizer_inactive outcome).1

/-- A finalizing transaction that misses closes its attempt too; its job is not `RUNNING`. -/
lemma audited_of_superseded (hlease : LeaseSound (s.life j)) (haudited : Audited (s.life j))
    (he : (s.life j).executions c = some e) (hstage : e.stage = .finalizing outcome)
    (hmissed : ∀ job, (s.db.record j).row = some job →
      ¬ (outcome.finalizer.update c.workerId now).guard job) :
    Audited { s.life j with
      record := (s.db.record j).mapAttempt e.attemptId (superseded now)
      executions := Function.update (s.life j).executions c
        (some { e with stage := Stage.afterFinalize false outcome }) } := by
  obtain ⟨a, ha, hid, hnumber, hrunning⟩ := haudited.executed c e he (by rw [hstage]; rfl)
  obtain ⟨job, hrow, hactive, hcurrent⟩ := haudited.current a ha hrunning
  have hnot : job.status ≠ .running := by
    intro hstatus
    obtain ⟨job₁, hrow₁, -, hholds⟩ := hlease c e he
    obtain rfl := Option.some.inj (hrow.symm.trans hrow₁)
    have hlocked : job.lockedBy = some c.workerId :=
      hholds hactive (hcurrent.symm.trans hnumber)
    refine hmissed job hrow (finalizer_guard hlocked hactive fun _ hcancelling => ?_)
    cases hstatus.symm.trans hcancelling
  have hclosed := haudited.none_open false he hstage
  refine ⟨fun b hb hb' => ?_, fun job' hrow' hstatus => ?_,
    fun d e' he' hopen => absurd hopen (hclosed d e' he'),
    fun d _ e' _ he' _ hopen _ => absurd hopen (hclosed d e' he')⟩
  · obtain ⟨b₀, hb₀, rfl⟩ := List.mem_map.mp hb
    by_cases hown : b₀.id = e.attemptId
    · rw [if_pos hown] at hb'
      cases hb'
    · rw [if_neg hown] at hb' ⊢
      exact haudited.current b₀ hb₀ hb'
  · obtain rfl := Option.some.inj (hrow.symm.trans hrow')
    exact absurd hstatus hnot

end Finalize

/-- A statement that keeps the status and the attempts keeps the audit. -/
lemma audited_of_updateRow {u : JobUpdate} (haudited : Audited (s.life j))
    (hu : ∀ job, (u.values job).status = job.status ∧ (u.values job).attempts = job.attempts) :
    Audited { s.life j with record := (s.db.record j).updateRow u } := by
  have happly : ∀ job, (u.apply job).status = job.status ∧
      (u.apply job).attempts = job.attempts := by
    intro job
    unfold JobUpdate.apply
    split
    · exact hu job
    · exact ⟨rfl, rfl⟩
  refine haudited.of_kept rfl (fun job hrow => ?_) (fun hnone => ?_) (open_of_same rfl)
  · refine ⟨u.apply job, ?_, (happly job).2, ?_, ?_⟩
    · exact congrArg (Option.map u.apply) hrow
    · rw [(happly job).1]
      exact id
    · rw [(happly job).1]
      exact id
  · exact congrArg (Option.map u.apply) hnone

/-- A step that takes a job from one status to another, of which either both belong to jobs that a
worker holds or neither does, keeps the audit. -/
lemma audited_of_moved {r : JobRecord} {job job' : Job} (haudited : Audited (s.life j))
    (hrow : (s.db.record j).row = some job) (hrow' : r.row = some job')
    (hattempts : r.attempts = (s.db.record j).attempts) (hcount : job'.attempts = job.attempts)
    (hheld : (job.status = .running ∨ job.status = .cancelling) → job'.status = .cancelling)
    (hstatus : job'.status ≠ .running) :
    Audited { s.life j with record := r } := by
  refine haudited.of_kept hattempts (fun job₁ hrow₁ => ?_) (fun hnone => ?_) (open_of_same rfl)
  · obtain rfl := Option.some.inj (hrow.symm.trans hrow₁)
    exact ⟨job', hrow', hcount, fun hactive => Or.inr (hheld hactive),
      fun hrunning => absurd hrunning hstatus⟩
  · cases hrow.symm.trans hnone

/-- A dispatch queues a `PENDING` job, or leaves the row of its job as it is. -/
lemma audited_of_dispatched (haudited : Audited (s.life j)) {tx : Tx} {now : Time}
    {row : DispatchOutbox} {job : Job} (hrow : (s.db.record j).row = some job) :
    Audited { s.life j with
      record := DispatchService.dispatched tx now row job (s.db.record j) } := by
  by_cases hpending : job.status = .pending
  · have hguard : (JobRepository.markQueued now).guard job :=
      JobRepository.markQueued_guard.mpr hpending
    refine audited_of_moved haudited hrow (congrArg some (JobUpdate.apply_of_guard hguard)) rfl rfl
      (fun hheld => ?_) nofun
    rcases hheld with h | h <;> cases hpending.symm.trans h
  · have hmissed : ¬ (JobRepository.markQueued now).guard job :=
      mt JobRepository.markQueued_guard.mp hpending
    refine haudited.of_kept rfl (fun job₁ hrow₁ => ?_) (fun hnone => ?_) (open_of_same rfl)
    · obtain rfl := Option.some.inj (hrow.symm.trans hrow₁)
      exact ⟨job, congrArg some (JobUpdate.apply_of_not_guard hmissed), rfl, id, id⟩
    · cases hrow.symm.trans hnone

/-- **Step lemma.**  Every step but a reap keeps the audit. -/
lemma audited_of_jobStep (hlinked : Linked (s.life j)) (hlease : LeaseSound (s.life j))
    (hnumbered : Numbered (s.life j)) (haudited : Audited (s.life j))
    (hl : ∀ tx locked batchSize now, l ≠ .sweep .reapExpired tx locked batchSize now)
    (h : JobStep s j l life') : Audited life' := by
  cases h with
  | idle => exact haudited
  | tick => exact ⟨haudited.current, haudited.started, haudited.executed, haudited.alone⟩
  | created tx' args now' hlimit hrow =>
      have hempty : s.db.record j = JobRecord.empty := hlinked.fresh hrow
      have hnone : (s.db.record j).attempts = [] := by rw [hempty]; rfl
      have hclosed : ∀ c e, (s.life j).executions c = some e → ¬ e.stage.isOpen := by
        intro c e he hopen
        obtain ⟨a, ha, -⟩ := haudited.executed c e he hopen
        rw [System.life_record, hnone] at ha
        exact List.not_mem_nil ha
      refine ⟨fun a ha => ?_, fun job hjob hstatus => ?_,
        fun c e he hopen => absurd hopen (hclosed c e he),
        fun c _ e _ he _ hopen _ => absurd hopen (hclosed c e he)⟩
      · have ha : a ∈ (s.db.record j).attempts := ha
        rw [hnone] at ha
        exact absurd ha List.not_mem_nil
      · obtain rfl := Option.some.inj hjob
        cases hstatus
  | cancelRequested job hlock hrow hstatus =>
      exact audited_of_moved haudited hrow rfl rfl rfl (fun _ => rfl) nofun
  | cancelled job hrow hstatus =>
      refine audited_of_moved haudited hrow JobRecord.enqueue_row JobRecord.enqueue_attempts rfl
        (fun hheld => ?_) nofun
      rcases hheld with h | h <;> rw [h] at hstatus <;> exact absurd hstatus (by decide)
  | claimed job hworker hrow hguard => exact audited_of_claimed haudited hrow hguard
  | heartbeat => exact audited_of_updateRow haudited fun _ => ⟨rfl, rfl⟩
  | progressed => exact audited_of_updateRow haudited fun _ => ⟨rfl, rfl⟩
  | redelivered => exact audited_of_updateRow haudited fun _ => ⟨rfl, rfl⟩
  | heartbeatFailed e he =>
      exact haudited.of_kept rfl (fun job hrow => ⟨job, hrow, rfl, id, id⟩) id
        (open_of_update he rfl id rfl rfl)
  | decided e stage he hdecides =>
      exact haudited.of_kept rfl (fun job hrow => ⟨job, hrow, rfl, id, id⟩) id
        (open_of_update he rfl hdecides.isOpen rfl rfl)
  | finalized e outcome job he hstage =>
      exact audited_of_finalized hnumbered haudited he hstage
  | superseded e outcome he hstage hmissed =>
      exact audited_of_superseded hlease haudited he hstage hmissed
  | left gone =>
      refine haudited.of_kept rfl (fun job hrow => ⟨job, hrow, rfl, id, id⟩) id ?_
      intro c e' he' hopen
      dsimp only at he'
      split at he'
      · cases he'
      · exact ⟨e', he', hopen, rfl, rfl⟩
  | dispatched row job hclaimed hjob hrow => exact audited_of_dispatched haudited hrow
  | promoted job hrow hstatus =>
      refine audited_of_moved haudited hrow rfl rfl rfl (fun hheld => ?_) nofun
      rcases hheld with h | h <;> cases hstatus.symm.trans h
  | leaseFailed | requeued => exact absurd rfl (hl _ _ _ _)
  | expired job hrow hstatus =>
      refine audited_of_moved haudited hrow JobRecord.enqueue_row JobRecord.enqueue_attempts rfl
        (fun hheld => ?_) nofun
      rcases hheld with h | h <;> rw [h] at hstatus <;> exact absurd hstatus (by decide)
  | notified r hsame =>
      have hrow : r.row = (s.db.record j).row := by rw [hsame.1]
      have hattempts : r.attempts = (s.db.record j).attempts := by rw [hsame.1]
      exact haudited.of_kept hattempts (fun job hjob => ⟨job, hrow.trans hjob, rfl, id, id⟩)
        (fun hnone => hrow.trans hnone) (open_of_same rfl)

end Audited

/-! ## Runs -/

section Runs

variable {s s' : System settings.workerConcurrency} {l : Label settings.workerConcurrency}

/-- A reap that selects no job leaves every job as it was. -/
lemma life_of_reapsNothing {tx : Tx} {locked : List UUID} {batchSize : ℕ} {now : Time}
    (h : s.step settings (.sweep .reapExpired tx locked batchSize now) = some s')
    (hnothing : reapsNothing s (.sweep .reapExpired tx locked batchSize now)) (j : UUID) :
    (s'.life j).record = (s.life j).record ∧ (s'.life j).executions = (s.life j).executions := by
  have hempty : JobRepository.findExpiredLeases s.db locked now batchSize = [] :=
    List.isEmpty_iff.mp hnothing
  obtain ⟨-, hworkers, -⟩ := step_sweep h
  constructor
  · exact record_of_not_reaped h (by rw [hempty]; exact List.not_mem_nil)
  · funext c
    exact congrArg (Consumer.on j) (congrFun hworkers c)

theorem audited_of_reachable
    (h : (orchestrator settings).Reachable (fun s l => reapsNothing s l) s) (j : UUID) :
    Audited (s.life j) := by
  refine Reachable.invariant (I := fun s => ∀ j, Audited (s.life j)) ?_ ?_ h j
  · rintro s ⟨clock, rfl⟩ j
    exact ⟨fun _ ha => absurd ha List.not_mem_nil, fun _ hrow => (by cases hrow),
      fun _ _ he => (by cases he), fun _ _ _ _ he => (by cases he)⟩
  · intro s l s' hreach hnothing hstep haudited j
    by_cases hl : ∃ tx locked batchSize now, l = .sweep .reapExpired tx locked batchSize now
    · obtain ⟨tx, locked, batchSize, now, rfl⟩ := hl
      obtain ⟨hrecord, hexecutions⟩ := life_of_reapsNothing hstep hnothing j
      refine (haudited j).of_kept (by rw [hrecord]) (fun job hrow => ?_) (fun hnone => ?_)
        (open_of_same hexecutions)
      · exact ⟨job, by rw [hrecord]; exact hrow, rfl, id, id⟩
      · rw [hrecord]
        exact hnone
    · exact audited_of_jobStep (linked_of_reachable hreach j) (leaseSound_of_reachable hreach j)
        (numbered_of_reachable hreach j) (haudited j)
        (fun tx locked batchSize now heq => hl ⟨tx, locked, batchSize, now, heq⟩)
        (jobStep_of_reachable hreach hstep j)

/-- A job that a reap takes from its worker keeps an attempt that is recorded as running. -/
lemma reapsNothing_of_auditClosed (haudited : ∀ j, Audited (s.life j))
    (h : s.step settings l = some s') (hclosed : ∀ j, AuditClosed (s'.db.record j)) :
    reapsNothing s l := by
  unfold reapsNothing
  split
  · rename_i tx locked batchSize now
    refine List.isEmpty_iff.mpr (List.eq_nil_iff_forall_not_mem.mpr fun job hjob => ?_)
    obtain ⟨hrow, hstatus, -⟩ := LeaseService.row_of_findExpiredLeases hjob
    obtain ⟨a, ha, hrunning⟩ := (haudited job.id).started job hrow hstatus
    obtain ⟨-, -, pushes, hrun⟩ := step_sweep h
    obtain ⟨swept, hswept, heq⟩ := Option.map_eq_some_iff.mp hrun
    obtain ⟨hdb, -⟩ := Prod.mk.inj heq
    have hrecord := (LeaseService.record_reapExpired hswept).2 job hjob
    rw [hdb] at hrecord
    unfold LeaseService.reapRecord at hrecord
    split at hrecord
    · rw [LeaseService.failRecord_of_row hrow hstatus] at hrecord
      have hattempts : (s'.db.record job.id).attempts = (s.db.record job.id).attempts := by
        rw [hrecord]
        exact JobRecord.enqueue_attempts
      obtain ⟨job', hrow', hactive, -⟩ := (hclosed job.id).current a (hattempts ▸ ha) hrunning
      rw [hrecord, LeaseService.failed, JobRecord.enqueue_row] at hrow'
      obtain rfl := Option.some.inj hrow'
      rcases hactive with hactive | hactive <;> cases hactive
    · rw [LeaseService.requeueRecord_of_row hrow hstatus] at hrecord
      have hattempts : (s'.db.record job.id).attempts = (s.db.record job.id).attempts := by
        rw [hrecord]
        rfl
      obtain ⟨job', hrow', hactive, -⟩ := (hclosed job.id).current a (hattempts ▸ ha) hrunning
      rw [hrecord] at hrow'
      obtain rfl := Option.some.inj hrow'
      rcases hactive with hactive | hactive <;> cases hactive
  · rfl

/-- **The audit stays closed exactly until a reap takes a job.**  Along a run, in every state at
most one attempt of each job is recorded as running, and only the current one of an active job,
if and only if no `reap_expired` of the run selects a job. -/
theorem audit_closed_iff {s₀ : System settings.workerConcurrency}
    (h₀ : (orchestrator settings).init s₀) (ls : List (Label settings.workerConcurrency)) :
    (orchestrator settings).Along (fun _ _ s' => ∀ j, AuditClosed (s'.db.record j)) s₀ ls ↔
      (orchestrator settings).Along (fun s l _ => reapsNothing s l) s₀ ls := by
  refine along_iff (I := (orchestrator settings).Reachable fun s l => reapsNothing s l)
    (Reachable.start h₀) ?_ ?_ ls
  · intro s l s' hstep hreach
    constructor
    · exact reapsNothing_of_auditClosed (audited_of_reachable hreach) hstep
    · intro hnothing j
      have hreach' := hreach.steps (Steps.single hnothing hstep)
      exact auditClosed_of_audited (numbered_of_reachable hreach' j)
        (audited_of_reachable hreach' j)
  · intro s l s' hstep hreach hnothing
    exact hreach.steps (Steps.single hnothing hstep)

/-- A job that is retried once and then cancelled while it runs. -/
theorem audit_closed_iff_retry :
    (orchestrator {}).Along (fun _ _ s' => ∀ j, AuditClosed (s'.db.record j)) (System.start 4 0)
      (Scenario.submitted 3 ++ Scenario.dispatched ++ Scenario.claim Scenario.first 3 0 ++
        Scenario.backOff Scenario.first 0 ++ [Scenario.finalize Scenario.first 4 0]) :=
  (audit_closed_iff ⟨0, rfl⟩ _).mpr (by decide +kernel)

/-- After a reap a `QUEUED` job has an attempt that is recorded as running. -/
theorem reaped_attempt_stays_running :
    ∃ s : System 4, (orchestrator {}).Reachable Always s ∧
      s.status Scenario.jobId = some .queued ∧
      ((s.db.record Scenario.jobId).attempts.map JobAttempt.status) = [.running] ∧
      ¬ AuditClosed (s.db.record Scenario.jobId) := by
  obtain ⟨s, hsteps, hs⟩ := exists_of_run (T := orchestrator {}) (System.start 4 0)
    (Scenario.submitted 3 ++ Scenario.dispatched ++ Scenario.claim Scenario.first 3 0 ++
      [.crash "worker"] ++ Scenario.reaped)
    (fun s => s.status Scenario.jobId = some .queued &&
      (s.db.record Scenario.jobId).attempts.map JobAttempt.status = [.running])
    (by decide +kernel)
  simp only [Bool.and_eq_true, decide_eq_true_eq] at hs
  obtain ⟨hstatus, hrunning⟩ := hs
  refine ⟨s, ⟨_, ⟨0, rfl⟩, hsteps⟩, hstatus, hrunning, fun hclosed => ?_⟩
  obtain ⟨a, ha, hstatus'⟩ := List.map_eq_singleton_iff.mp hrunning
  obtain ⟨job, hrow, hactive, -⟩ := hclosed.current a (by rw [ha]; exact List.mem_singleton_self a)
    hstatus'
  have hjob : s.db.jobs.get? Scenario.jobId = some job := hrow
  rw [System.status, hjob, Option.map_some] at hstatus
  rw [Option.some.inj hstatus] at hactive
  rcases hactive with hactive | hactive <;> cases hactive

end Runs

end JobOrchestrator
