import JobOrchestrator.Properties.AttemptRows
import JobOrchestrator.Properties.Coherence
import JobOrchestrator.Properties.Outbox

/-!
# The budget of a job

`max_attempts` does not cap the attempts of a job in every run: an execution that has lost its lease
to another task of its own worker can move the job to `RETRYING` when the last attempt has already
started.  Each execution can do so once only, and the last one never does.  So every job has a
budget that no run exceeds, whatever crashes, gets lost, is repeated or comes late.  With
`m = max_attempts`, the reaper requeues it `m - 1` times at most, its executions schedule `m - 1`
retries at most, it is claimed `2 * m - 1` times at most, and its timeline has `5 * m` entries at
most (`job_bounded`).

Every change of the status is an entry of the timeline.  So no run without an end changes the status
of a job forever, not even one in which messages are repeated without end (`standing_settles`).
-/

namespace JobOrchestrator

open ExecutionService SubmissionService CancellationService TransitionSystem

variable {settings : Settings}

/-- The columns of a row that its budget is about. -/
def Job.standing (job : Job) : JobStatus × ℕ × ℕ := (job.status, job.attempts, job.maxAttempts)

/-- A job that can still be claimed or dispatched. -/
def JobStatus.ready : JobStatus → ℕ
  | .pending | .queued | .retrying => 1
  | .running | .succeeded | .failed | .cancelling | .cancelled | .expired => 0

/-- The job is `RUNNING`. -/
def JobStatus.busy : JobStatus → ℕ
  | .running => 1
  | .pending | .queued | .retrying | .succeeded | .failed | .cancelling | .cancelled | .expired => 0

/-- The entries that the timeline keeps room for: a cancellation request and the end, and the
promotion of a retry. -/
def JobStatus.reserve : JobStatus → ℕ
  | .retrying => 3
  | .pending | .queued | .running => 2
  | .cancelling => 1
  | .succeeded | .failed | .cancelled | .expired => 0

/-- The execution is about to schedule a retry. -/
def Stage.retries : Stage → Bool
  | .backingOff .. | .finalizing (.retry ..) => true
  | .handler | .deciding .. | .finalizing (.succeeded _) | .finalizing (.failed ..)
  | .finalizing .cancelled | .deadLettering | .returning _ => false

namespace JobRecord

variable (r : JobRecord)

/-- The types of the entries of the timeline. -/
def types : List JobEventType := r.events.map JobEvent.eventType

/-- How often the timeline has a type. -/
def tally (type : JobEventType) : ℕ := r.types.count type

/-- The closed attempts with a number below the limit. -/
def spent (limit : ℕ) : ℕ :=
  r.attempts.countP fun a => a.attemptNumber < limit && a.status ≠ .running

/-- The outbox rows that wait for their dispatch. -/
def undispatched : ℕ := r.outbox.countP fun o => o.status = .pending

end JobRecord

section Step

variable {s s' : System settings.workerConcurrency} {j : UUID}
  {l : Label settings.workerConcurrency} {life' : Life settings.workerConcurrency}
  {r r' : JobRecord} {job job' : Job} {type t : JobEventType}

/-! ## What a step enters -/

/-- The timeline gets one entry, and no outbox row comes back. -/
structure Entered (r r' : JobRecord) (type : JobEventType) (job job' : Job) : Prop where
  row : r.row = some job
  row' : r'.row = some job'
  types : r'.types = r.types ++ [type]
  limit : job'.maxAttempts = job.maxAttempts
  undispatched : r'.undispatched ≤ r.undispatched

lemma Entered.tally (h : Entered r r' type job job') (t : JobEventType) :
    r'.tally t = r.tally t + if type = t then 1 else 0 := by
  simp [JobRecord.tally, h.types, List.count_append, List.count_singleton]

lemma Entered.length (h : Entered r r' type job job') :
    r'.events.length = r.events.length + 1 := by
  have htypes := congrArg List.length h.types
  simpa [JobRecord.types] using htypes

/-- A step that enters the end of a job and announces it. -/
lemma Entered.of_enqueue {event : JobEvent} {n : NotificationOutbox} (hrow : r.row = some job)
    (htype : event.eventType = type) (hlimit : job'.maxAttempts = job.maxAttempts) :
    Entered r (JobRecord.enqueue { r with row := some job', events := r.events ++ [event] } n)
      type job job' where
  row := hrow
  row' := JobRecord.enqueue_row
  types := by simp [JobRecord.types, htype]
  limit := hlimit
  undispatched := by simp [JobRecord.undispatched]

/-- What a step does to the timeline of a job and to its standing. -/
inductive Turn (s : System settings.workerConcurrency) (j : UUID)
    (life' : Life settings.workerConcurrency) : Prop
  | quiet (htypes : life'.record.types = (s.db.record j).types)
      (hrow : life'.record.row.map Job.standing = (s.db.record j).row.map Job.standing)
      (houtbox : life'.record.undispatched = (s.db.record j).undispatched)
  | created (job' : Job) (hrow : (s.db.record j).row = none) (hrow' : life'.record.row = some job')
      (hstatus : job'.status = .pending) (hattempts : job'.attempts = 0)
      (htypes : life'.record.types = (s.db.record j).types ++ [.submitted])
      (houtbox : life'.record.undispatched = (s.db.record j).undispatched + 1)
  | claimed (job job' : Job) (h : Entered (s.db.record j) life'.record .started job job')
      (hstatus : job.status = .queued ∨ job.status = .retrying) (hstatus' : job'.status = .running)
      (hattempts : job'.attempts = job.attempts + 1)
  | requeued (job job' : Job) (h : Entered (s.db.record j) life'.record .requeued job job')
      (hstatus : job.status = .running) (hstatus' : job'.status = .queued)
      (hattempts : job'.attempts = job.attempts) (hleft : job.attempts < job.maxAttempts)
  | retried (c e) (job job' : Job) (he : (s.life j).executions c = some e)
      (hretries : e.stage.retries)
      (hopen : e.stage.isOpen)
      (h : Entered (s.db.record j) life'.record .retryScheduled job job')
      (hstatus : job.status = .running) (hstatus' : job'.status = .retrying)
      (hattempts : job'.attempts = job.attempts)
      (hrows : ∃ now code message, life'.record.attempts =
        (s.db.record j).attempts.map fun a => if a.id = e.attemptId then
          JobAttemptRepository.finished .failed now (some code) (some message) a else a)
  | promoted (job job' : Job) (h : Entered (s.db.record j) life'.record .queued job job')
      (hstatus : job.status = .retrying) (hstatus' : job'.status = .queued)
      (hattempts : job'.attempts = job.attempts)
  | dispatched (job job' : Job) (h : Entered (s.db.record j) life'.record .queued job job')
      (hstatus : job'.status = job.status ∨ (job.status = .pending ∧ job'.status = .queued))
      (hattempts : job'.attempts = job.attempts)
      (houtbox : life'.record.undispatched < (s.db.record j).undispatched)
  | stopping (job job' : Job) (h : Entered (s.db.record j) life'.record .cancelRequested job job')
      (hstatus : job.status = .running) (hstatus' : job'.status = .cancelling)
      (hattempts : job'.attempts = job.attempts)
  | ended (type : JobEventType) (job job' : Job)
      (h : Entered (s.db.record j) life'.record type job job')
      (htype : type ≠ .requeued ∧ type ≠ .retryScheduled)
      (hstatus : ¬ job.status.isTerminal) (hstatus' : job'.status.isTerminal)
      (hattempts : job'.attempts = job.attempts)

/-- A statement that leaves the standing of every row it matches. -/
lemma standing_updateRow {u : JobUpdate} (h : ∀ job, (u.values job).standing = job.standing) :
    (r.updateRow u).row.map Job.standing = r.row.map Job.standing := by
  cases hrow : r.row with
  | none => simp [JobRecord.updateRow, hrow]
  | some job =>
      by_cases hguard : u.guard job
      · simp [JobRecord.updateRow, hrow, JobUpdate.apply_of_guard hguard, h]
      · simp [JobRecord.updateRow, hrow, JobUpdate.apply_of_not_guard hguard]

/-- The end of a job by a finalizing transaction, or its retry. -/
lemma turn_of_finalized {c : Coroutine settings.workerConcurrency} {tx : Tx} {now : Time}
    {e : Execution} {outcome : Outcome} (he : (s.life j).executions c = some e)
    (hstage : e.stage = .finalizing outcome) (hrow : (s.db.record j).row = some job)
    (hguard : (outcome.finalizer.update c.workerId now).guard job)
    (hrecord : life'.record =
      finalized tx c.workerId e.attemptId now outcome.finalizer job (s.db.record j)) :
    Turn s j life' := by
  have hentered : ((outcome.finalizer.update c.workerId now).values job).maxAttempts =
      job.maxAttempts → Entered (s.db.record j) life'.record outcome.finalizer.eventType job
        ((outcome.finalizer.update c.workerId now).values job) := by
    intro hlimit
    refine ⟨hrow, hrecord ▸ finalized_row, ?_, hlimit, ?_⟩
    · rw [hrecord, JobRecord.types, finalized_events, List.map_append]
      rfl
    · rw [hrecord, JobRecord.undispatched, finalized_outbox, JobRecord.undispatched]
  have hactive : ¬ job.status.isTerminal := by
    rcases (held_of_finalizer hguard).2 with h | h <;> rw [h] <;> decide
  cases outcome with
  | succeeded result =>
      exact .ended .succeeded job _ (hentered rfl) (by decide) hactive
        (show JobStatus.succeeded.isTerminal by decide) rfl
  | failed code message deadLettered =>
      exact .ended .failed job _ (hentered rfl) (by decide) hactive
        (show JobStatus.failed.isTerminal by decide) rfl
  | cancelled =>
      exact .ended .cancelled job _ (hentered rfl) (by decide) hactive
        (show JobStatus.cancelled.isTerminal by decide) rfl
  | retry code message nextAttemptAt =>
      have hrunning := (JobRepository.scheduleRetry_guard.mp hguard).2
      refine .retried c e job _ he (by rw [hstage]; rfl) (by rw [hstage]; rfl) (hentered rfl)
        hrunning rfl rfl ⟨now, code, message, ?_⟩
      rw [hrecord, finalized_attempts]
      rfl

/-- The dispatch of an outbox row that waits. -/
lemma turn_of_dispatched {tx : Tx} {locked : List UUID} {batchSize : ℕ} {now : Time}
    {row : DispatchOutbox} (hlinked : Linked (s.life j))
    (hclaimed : row ∈ DispatchOutboxRepository.claimPending s.db locked batchSize)
    (hjob : row.jobId = j) (hrow : (s.db.record j).row = some job)
    (hrecord : life'.record = DispatchService.dispatched tx now row job (s.db.record j)) :
    Turn s j life' := by
  obtain ⟨hmem, hwaits⟩ := Table.mem_of_mem_select hclaimed
  simp only [Bool.and_eq_true, decide_eq_true_eq] at hwaits
  have hmem : row ∈ (s.db.record j).outbox := Table.mem_children.mpr ⟨hmem, hjob⟩
  have hone : (s.db.record j).outbox = [row] := outbox_eq_singleton hlinked.outbox_le hmem
  have houtbox : life'.record.undispatched < (s.db.record j).undispatched := by
    simp [JobRecord.undispatched, hrecord, DispatchService.dispatched, hone, hwaits.2,
      DispatchOutboxRepository.published]
  have hrow' : life'.record.row = some ((JobRepository.markQueued now).apply job) := by
    rw [hrecord]
    rfl
  have htypes : life'.record.types = (s.db.record j).types ++ [.queued] := by
    rw [hrecord]
    exact List.map_append
  by_cases hpending : job.status = .pending
  · rw [JobUpdate.apply_of_guard (JobRepository.markQueued_guard.mpr hpending)] at hrow'
    exact .dispatched job _ ⟨hrow, hrow', htypes, rfl, houtbox.le⟩ (Or.inr ⟨hpending, rfl⟩) rfl
      houtbox
  · rw [JobUpdate.apply_of_not_guard fun h => hpending (JobRepository.markQueued_guard.mp h)]
      at hrow'
    exact .dispatched job job ⟨hrow, hrow', htypes, rfl, houtbox.le⟩ (Or.inl rfl) rfl houtbox

lemma turn_of_jobStep (hlinked : Linked (s.life j)) (h : JobStep s j l life') :
    Turn s j life' := by
  cases h with
  | idle | tick | heartbeatFailed | decided | left | superseded => exact .quiet rfl rfl rfl
  | heartbeat | progressed | redelivered => exact .quiet rfl (standing_updateRow fun _ => rfl) rfl
  | notified r hsame =>
      refine .quiet ?_ ?_ ?_
      · show r.types = _
        rw [hsame.1]
        rfl
      · show r.row.map _ = _
        rw [hsame.1]
      · show r.undispatched = _
        rw [hsame.1]
        rfl
  | created tx' args now' hlimit hrow =>
      refine .created _ hrow rfl rfl rfl List.map_append ?_
      simp [JobRecord.undispatched, created, DispatchOutboxRepository.added]
  | cancelRequested job hlock hrow hstatus =>
      exact .stopping job _ ⟨hrow, rfl, List.map_append, rfl, le_rfl⟩ hstatus rfl rfl
  | cancelled job hrow hstatus =>
      have hactive : ¬ job.status.isTerminal := by
        simp only [JobRepository.inactiveCancellable, List.mem_cons, List.not_mem_nil, or_false]
          at hstatus
        rcases hstatus with h | h | h <;> rw [h] <;> decide
      exact .ended .cancelled job _ (.of_enqueue hrow rfl rfl) (by decide) hactive
        (show JobStatus.cancelled.isTerminal by decide) rfl
  | claimed job hworker hrow hguard =>
      exact .claimed job _ ⟨hrow, rfl, List.map_append, rfl, le_rfl⟩
        (JobRepository.claimForExecution_guard.mp hguard).1 rfl rfl
  | finalized e outcome job he hstage hrow hguard =>
      exact turn_of_finalized he hstage hrow hguard rfl
  | dispatched row job hclaimed hjob hrow =>
      exact turn_of_dispatched hlinked hclaimed hjob hrow rfl
  | promoted job hrow hstatus =>
      exact .promoted job _ ⟨hrow, rfl, List.map_append, rfl, le_rfl⟩ hstatus rfl rfl
  | leaseFailed job hrow hstatus =>
      exact .ended .failed job _ (.of_enqueue hrow rfl rfl) (by decide)
        (by rw [hstatus]; decide) (show JobStatus.failed.isTerminal by decide) rfl
  | requeued job hrow hstatus hleft =>
      exact .requeued job _ ⟨hrow, rfl, List.map_append, rfl, le_rfl⟩ hstatus rfl rfl hleft
  | expired job hrow hstatus =>
      have hactive : ¬ job.status.isTerminal := by
        simp only [JobRepository.expirable, List.mem_cons, List.not_mem_nil, or_false] at hstatus
        rcases hstatus with h | h <;> rw [h] <;> decide
      exact .ended .expired job _ (.of_enqueue hrow rfl rfl) (by decide) hactive
        (show JobStatus.expired.isTerminal by decide) rfl

/-! ## The attempts that are spent -/

/-- One more element of a list passes the weaker test. -/
lemma countP_lt_countP {α : Type*} {p q : α → Bool} {xs : List α} {x : α}
    (h : ∀ y ∈ xs, p y → q y) (hx : x ∈ xs) (hp : ¬ p x) (hq : q x) :
    xs.countP p < xs.countP q := by
  obtain ⟨before, after, rfl⟩ := List.append_of_mem hx
  have hbefore : before.countP p ≤ before.countP q :=
    List.countP_mono_left fun y hy => h y (by simp [hy])
  have hafter : after.countP p ≤ after.countP q :=
    List.countP_mono_left fun y hy => h y (by simp [hy])
  simp only [List.countP_append, List.countP_cons, hp, hq, if_true]
  simp only [Bool.false_eq_true, if_false]
  omega

section Closed

variable {id : UUID} {f : JobAttempt → JobAttempt}

lemma spent_le_of_closed
    (hrows : r'.attempts = r.attempts.map fun a => if a.id = id then f a else a)
    (hf : ∀ a, (f a).attemptNumber = a.attemptNumber ∧ (f a).status ≠ .running) (limit : ℕ) :
    r.spent limit ≤ r'.spent limit := by
  rw [JobRecord.spent, JobRecord.spent, hrows, List.countP_map]
  refine List.countP_mono_left fun a _ ha => ?_
  simp only [Bool.and_eq_true, decide_eq_true_eq, Function.comp_apply] at ha ⊢
  split
  · rw [(hf a).1]
    exact ⟨ha.1, (hf a).2⟩
  · exact ha

/-- Closing an attempt spends it. -/
lemma spent_lt_of_closed
    (hrows : r'.attempts = r.attempts.map fun a => if a.id = id then f a else a)
    (hf : ∀ a, (f a).attemptNumber = a.attemptNumber ∧ (f a).status ≠ .running) {limit : ℕ}
    {a : JobAttempt} (ha : a ∈ r.attempts) (hid : a.id = id) (hlimit : a.attemptNumber < limit)
    (hopen : a.status = .running) : r.spent limit < r'.spent limit := by
  rw [JobRecord.spent, JobRecord.spent, hrows, List.countP_map]
  refine countP_lt_countP (fun b _ hb => ?_) ha ?_ ?_
  · simp only [Bool.and_eq_true, decide_eq_true_eq, Function.comp_apply] at hb ⊢
    split
    · rw [(hf b).1]
      exact ⟨hb.1, (hf b).2⟩
    · exact hb
  · simp [hopen]
  · simp [hid, hf a, hlimit]

end Closed

/-- No step opens a closed attempt. -/
lemma spent_of_jobStep (h : JobStep s j l life') (limit : ℕ) :
    (s.db.record j).spent limit ≤ life'.record.spent limit := by
  cases attemptsStep_of_jobStep h with
  | same hrows => rw [JobRecord.spent, JobRecord.spent, hrows]
  | started a hstatus hrows =>
      rw [JobRecord.spent, JobRecord.spent, hrows, List.countP_append]
      omega
  | superseded c e outcome now he hstage hrows =>
      exact spent_le_of_closed hrows (fun a => ⟨rfl, by simp [superseded,
        JobAttemptRepository.finished]⟩) limit
  | finalized c e outcome tx now job hl he hstage hrow hguard hrow' he' hrows =>
      refine spent_le_of_closed hrows (fun a => ⟨rfl, ?_⟩) limit
      cases outcome <;>
        simp [JobAttemptRepository.finished, Outcome.finalizer, finalizeSucceeded, finalizeFailed,
          scheduleRetry, finalizeCancelled]

/-- The attempts of a job are numbered, so fewer than `limit` of them are below it. -/
lemma spent_lt (hnumbered : Numbered (s.life j)) (hrow : (s.db.record j).row = some job)
    {limit : ℕ} (hlimit : 1 ≤ limit) : (s.db.record j).spent limit < limit := by
  have hle : (s.db.record j).spent limit ≤
      ((s.db.record j).attempts.map JobAttempt.attemptNumber).countP (· < limit) := by
    rw [JobRecord.spent, List.countP_map]
    refine List.countP_mono_left fun a _ ha => ?_
    exact (Bool.and_eq_true_iff.mp ha).1
  have hrange : (s.db.record j).attempts.map JobAttempt.attemptNumber =
      List.range' 1 job.attempts := hnumbered job hrow
  rw [hrange, List.countP_eq_length_filter] at hle
  have hsubset : (List.range' 1 job.attempts).filter (· < limit) ⊆ List.range' 1 (limit - 1) := by
    intro n hn
    simp only [List.mem_filter, List.mem_range'_1, decide_eq_true_eq] at hn ⊢
    omega
  have hnodup : ((List.range' 1 job.attempts).filter (· < limit)).Nodup :=
    List.filter_sublist.nodup (List.nodup_range' 1)
  have hlength := (hnodup.subperm hsubset).length_le
  rw [List.length_range'] at hlength
  omega

/-! ## What the executions know -/

/-- An execution has the number of its attempt row, and it schedules a retry only if that number is
below the limit it has read. -/
structure Sparing {concurrency : ℕ} (life : Life concurrency) : Prop where
  numbered : ∀ c e, life.executions c = some e →
    (e.attemptId, e.attemptNumber) ∈ life.record.attempts.map identity
  spare : ∀ c e, life.executions c = some e → e.stage.retries →
    e.attemptNumber < e.snapshot.maxAttempts

lemma Decides.spare {e : Execution} {stage : Stage} (h : Decides r e stage)
    (hspare : e.stage.retries → e.attemptNumber < e.snapshot.maxAttempts)
    (hretries : stage.retries) : e.attemptNumber < e.snapshot.maxAttempts := by
  cases h with
  | backoff hstage =>
      apply hspare
      rw [hstage]
      rfl
  | read hstage =>
      rw [Execution.afterRead] at hretries
      split at hretries
      · cases hretries
      · split at hretries
        · cases hretries
        · omega
  | raised hstage error => cases error <;> cases hretries
  | checkpoint | returned | deadLetter | failed => cases hretries

lemma retries_afterFinalize (hit : Bool) (outcome : Outcome) :
    (Stage.afterFinalize hit outcome).retries = false := by
  unfold Stage.afterFinalize
  split
  · cases hit <;> rfl
  · rfl

lemma sparing_of_jobStep (hsparing : Sparing (s.life j)) (h : JobStep s j l life') :
    Sparing life' where
  numbered c e' he' := by
    have hkept : ∀ {pair}, pair ∈ (s.db.record j).attempts.map identity →
        pair ∈ life'.record.attempts.map identity := by
      intro pair hpair
      rcases attempts_of_jobStep h with hsame | ⟨_, _, _, _, -, -, -, -, -, hmore⟩
      · rwa [hsame]
      · rw [hmore]
        exact List.mem_append_left _ hpair
    cases execution_of_jobStep h he' with
    | kept _ he => exact hkept (hsparing.numbered c _ he)
    | heartbeatFailed e he | decided e _ he | finalized e _ _ _ _ he
    | superseded e _ _ he => exact hkept (hsparing.numbered c e he)
    | started tx now job hl hrow hrecord =>
        rw [hrecord]
        simp [claimed, identity, JobAttemptRepository.started, Execution.start]
  spare c e' he' hretries := by
    cases execution_of_jobStep h he' with
    | kept _ he => exact hsparing.spare c _ he hretries
    | heartbeatFailed e he => exact hsparing.spare c e he hretries
    | started => cases hretries
    | decided e stage he hdecides => exact hdecides.spare (hsparing.spare c e he) hretries
    | finalized | superseded =>
        rw [retries_afterFinalize] at hretries
        cases hretries

lemma sparing_of_reachable
    {C : System settings.workerConcurrency → Label settings.workerConcurrency → Prop}
    (h : (orchestrator settings).Reachable C s) (j : UUID) : Sparing (s.life j) :=
  life_invariant (I := Sparing)
    (fun _ _ => ⟨fun _ _ he => (by cases he), fun _ _ he => (by cases he)⟩)
    (fun _ _ _ _ _ _ hstep hsparing => sparing_of_jobStep hsparing hstep) h j

/-! ## The budget -/

/-- What a job has used up, against what it may still use. -/
structure Budget (r : JobRecord) (job : Job) : Prop where
  claims : job.attempts + job.status.ready ≤ 1 + r.tally .requeued + r.tally .retryScheduled
  requeues : r.tally .requeued + job.status.busy ≤ job.attempts
  requeued_lt : r.tally .requeued < job.maxAttempts
  retries : r.tally .retryScheduled ≤ r.spent job.maxAttempts
  length : r.events.length + r.undispatched + job.status.reserve ≤
    job.attempts + r.tally .requeued + 2 * r.tally .retryScheduled + 4

lemma JobStatus.used_of_isTerminal {status : JobStatus} (h : status.isTerminal) :
    status.ready = 0 ∧ status.busy = 0 ∧ status.reserve = 0 := by
  rcases JobStatus.isTerminal_iff.mp h with h | h | h | h <;> rw [h] <;> decide

lemma JobStatus.reserve_of_active {status : JobStatus} (h : ¬ status.isTerminal) :
    1 ≤ status.reserve := by
  cases status <;> first | decide | exact absurd (by decide) h

/-- Nothing that a budget counts has changed. -/
lemma Budget.of_quiet (h : Budget r job) (htypes : r'.types = r.types)
    (hstanding : job'.standing = job.standing) (houtbox : r'.undispatched = r.undispatched)
    (hspent : r.spent job.maxAttempts ≤ r'.spent job.maxAttempts) : Budget r' job' := by
  obtain ⟨hstatus, hattempts, hlimit⟩ : job'.status = job.status ∧ job'.attempts = job.attempts ∧
      job'.maxAttempts = job.maxAttempts := by simpa [Job.standing] using hstanding
  have htally : ∀ type, r'.tally type = r.tally type := fun type => by
    rw [JobRecord.tally, htypes, JobRecord.tally]
  have hlength : r'.events.length = r.events.length := by
    simpa [JobRecord.types] using congrArg List.length htypes
  constructor <;> simp only [hstatus, hattempts, hlimit, htally, hlength, houtbox]
  · exact h.claims
  · exact h.requeues
  · exact h.requeued_lt
  · exact h.retries.trans hspent
  · exact h.length

/-- An entry that the budget allows. -/
lemma Budget.of_entered (h : Budget r job) (hin : Entered r r' type job job')
    (hspent : r.spent job.maxAttempts + (if type = .retryScheduled then 1 else 0) ≤
      r'.spent job.maxAttempts)
    (hleft : type = .requeued → job.status.busy = 1 ∧ job.attempts < job.maxAttempts)
    (hclaims : job'.attempts + job'.status.ready ≤ job.attempts + job.status.ready +
      (if type = .requeued then 1 else 0) + (if type = .retryScheduled then 1 else 0))
    (hrequeues : job.attempts + job'.status.busy + (if type = .requeued then 1 else 0) ≤
      job'.attempts + job.status.busy)
    (hlength : job.attempts + r'.undispatched + job'.status.reserve + 1 ≤
      job'.attempts + r.undispatched + job.status.reserve + (if type = .requeued then 1 else 0) +
        2 * (if type = .retryScheduled then 1 else 0)) : Budget r' job' := by
  obtain ⟨hclaims₀, hrequeues₀, hlt₀, hretries₀, hlength₀⟩ := h
  constructor <;> simp only [hin.tally, hin.length, hin.limit]
  · omega
  · omega
  · by_cases htype : type = .requeued
    · obtain ⟨hbusy, hless⟩ := hleft htype
      rw [if_pos htype]
      omega
    · rw [if_neg htype]
      omega
  · omega
  · omega

/-- A retry spends an attempt that was open. -/
lemma spent_lt_of_retried {c : Coroutine settings.workerConcurrency} {e : Execution} {now : Time}
    {code message : String} (hattempts : AttemptRowsSound s j) (hsparing : Sparing (s.life j))
    (hsnapshot : e.snapshot.maxAttempts = job.maxAttempts)
    (he : (s.life j).executions c = some e) (hretries : e.stage.retries) (hopen : e.stage.isOpen)
    (hrows : life'.record.attempts = (s.db.record j).attempts.map fun a =>
      if a.id = e.attemptId then
        JobAttemptRepository.finished .failed now (some code) (some message) a else a) :
    (s.db.record j).spent job.maxAttempts < life'.record.spent job.maxAttempts := by
  obtain ⟨a, ha, hidentity⟩ := List.mem_map.mp (hsparing.numbered c e he)
  obtain ⟨hid, hnumber⟩ := Prod.mk.inj hidentity
  have hlimit := hsparing.spare c e he hretries
  refine spent_lt_of_closed hrows (fun b => ⟨rfl, ?_⟩) ha hid ?_
    (hattempts.running c e he hopen a ha hid)
  · simp [JobAttemptRepository.finished]
  · omega

lemma budget_of_jobStep (hlinked : Linked (s.life j)) (hattempts : AttemptRowsSound s j)
    (hsparing : Sparing (s.life j)) (hletters : DeadLetterSound (s.life j))
    (h : JobStep s j l life')
    (hbefore : ∀ job, (s.db.record j).row = some job → Budget (s.db.record j) job)
    (hrow' : life'.record.row = some job') : Budget life'.record job' := by
  have hspent := spent_of_jobStep h
  cases turn_of_jobStep hlinked h with
  | quiet htypes hrow houtbox =>
      rw [hrow'] at hrow
      obtain ⟨job, hjob, hstanding⟩ := Option.map_eq_some_iff.mp hrow.symm
      exact (hbefore job hjob).of_quiet htypes hstanding.symm houtbox (hspent _)
  | created job₁ hnone hrow₁ hstatus hzero htypes houtbox =>
      obtain rfl := Option.some.inj (hrow'.symm.trans hrow₁)
      have hempty : s.db.record j = JobRecord.empty := hlinked.fresh hnone
      rw [hempty] at htypes houtbox
      have hlength : life'.record.events.length = 1 := by
        simpa [JobRecord.types, JobRecord.empty] using congrArg List.length htypes
      have htally : ∀ type ≠ JobEventType.submitted, life'.record.tally type = 0 := by
        intro type hne
        rw [JobRecord.tally, htypes]
        simp [JobRecord.types, JobRecord.empty, hne.symm]
      have hwaits : life'.record.undispatched = 1 := houtbox
      have hpositive := job'.maxAttempts_positive
      constructor <;>
        simp only [hstatus, hzero, hlength, hwaits, JobStatus.ready, JobStatus.busy,
          JobStatus.reserve, htally .requeued (by decide), htally .retryScheduled (by decide)] <;>
        omega
  | claimed job job₁ hin hstatus hstatus' hcount =>
      obtain rfl := Option.some.inj (hrow'.symm.trans hin.row')
      have hout := hin.undispatched
      refine (hbefore job hin.row).of_entered hin (hspent _) (fun h => by cases h) ?_ ?_ ?_ <;>
        rcases hstatus with hstatus | hstatus <;>
        simp [hstatus, hstatus', hcount, JobStatus.ready, JobStatus.busy, JobStatus.reserve] <;>
        omega
  | requeued job job₁ hin hstatus hstatus' hcount hleft =>
      obtain rfl := Option.some.inj (hrow'.symm.trans hin.row')
      have hout := hin.undispatched
      refine (hbefore job hin.row).of_entered hin (hspent _)
        (fun _ => ⟨by rw [hstatus]; rfl, hleft⟩) ?_ ?_ ?_ <;>
        simp [hstatus, hstatus', hcount, JobStatus.ready, JobStatus.busy, JobStatus.reserve]
      omega
  | retried c e job job₁ he hretries hopen hin hstatus hstatus' hcount hrows =>
      obtain rfl := Option.some.inj (hrow'.symm.trans hin.row')
      obtain ⟨now, code, message, hrows⟩ := hrows
      have hout := hin.undispatched
      refine (hbefore job hin.row).of_entered hin ?_ (fun h => by cases h) ?_ ?_ ?_
      · exact spent_lt_of_retried hattempts hsparing (hletters.snapshot c e he job hin.row) he
          hretries hopen hrows
      all_goals
        simp [hstatus, hstatus', hcount, JobStatus.ready, JobStatus.busy, JobStatus.reserve]
      omega
  | promoted job job₁ hin hstatus hstatus' hcount =>
      obtain rfl := Option.some.inj (hrow'.symm.trans hin.row')
      have hout := hin.undispatched
      refine (hbefore job hin.row).of_entered hin (hspent _) (fun h => by cases h) ?_ ?_ ?_ <;>
        simp [hstatus, hstatus', hcount, JobStatus.ready, JobStatus.busy, JobStatus.reserve]
      omega
  | dispatched job job₁ hin hstatus hcount houtbox =>
      obtain rfl := Option.some.inj (hrow'.symm.trans hin.row')
      refine (hbefore job hin.row).of_entered hin (hspent _) (fun h => by cases h) ?_ ?_ ?_ <;>
        rcases hstatus with hsame | ⟨hstatus, hstatus'⟩
      · simp [hsame, hcount]
      · simp [hstatus, hstatus', hcount, JobStatus.ready]
      · simp [hsame, hcount]
      · simp [hstatus, hstatus', hcount, JobStatus.busy]
      · simp [hsame, hcount]
        omega
      · simp [hstatus, hstatus', hcount, JobStatus.reserve]
        omega
  | stopping job job₁ hin hstatus hstatus' hcount =>
      obtain rfl := Option.some.inj (hrow'.symm.trans hin.row')
      have hout := hin.undispatched
      refine (hbefore job hin.row).of_entered hin (hspent _) (fun h => by cases h) ?_ ?_ ?_ <;>
        simp [hstatus, hstatus', hcount, JobStatus.ready, JobStatus.busy, JobStatus.reserve]
      omega
  | ended type job job₁ hin htype hstatus hstatus' hcount =>
      obtain rfl := Option.some.inj (hrow'.symm.trans hin.row')
      have hout := hin.undispatched
      obtain ⟨hready, hbusy, hreserve⟩ := JobStatus.used_of_isTerminal hstatus'
      have hroom := JobStatus.reserve_of_active hstatus
      refine (hbefore job hin.row).of_entered hin ?_ (fun h => absurd h htype.1) ?_ ?_ ?_
      · rw [if_neg htype.2]
        exact hspent _
      all_goals
        simp only [hready, hbusy, hreserve, hcount, if_neg htype.1, if_neg htype.2]
        omega

lemma budget_of_reachable (h : (orchestrator settings).Reachable Always s) (j : UUID) :
    ∀ job, (s.db.record j).row = some job → Budget (s.db.record j) job := by
  refine life_invariant (I := fun life => ∀ job, life.record.row = some job →
    Budget life.record job) (fun _ _ _ hrow => by cases hrow) ?_ h j
  intro s l life' j hreach _ hstep hbefore job' hrow'
  exact budget_of_jobStep (linked_of_reachable hreach j) (attemptRowsSound_of_reachable hreach j)
    (sparing_of_reachable hreach j) (deadLetterSound_of_reachable hreach j) hstep hbefore hrow'

/-- The attempts are numbered, so the retries stay below the limit. -/
lemma retryScheduled_lt (h : (orchestrator settings).Reachable Always s)
    (hrow : (s.db.record j).row = some job) :
    (s.db.record j).tally .retryScheduled < job.maxAttempts :=
  (budget_of_reachable h j job hrow).retries.trans_lt
    (spent_lt (numbered_of_reachable h j) hrow job.maxAttempts_positive)

lemma length_le_of_reachable (h : (orchestrator settings).Reachable Always s)
    (hrow : (s.db.record j).row = some job) :
    (s.db.record j).events.length ≤ 5 * job.maxAttempts := by
  obtain ⟨hclaims, -, hrequeued, -, hlength⟩ := budget_of_reachable h j job hrow
  have hretried := retryScheduled_lt h hrow
  omega

/-- **Every job has a budget.**  In every reachable state a job has been requeued by the reaper less
often than `max_attempts`, and so have its executions scheduled retries; it has been claimed fewer
than `2 * max_attempts` times, and its timeline has `5 * max_attempts` entries at most. -/
theorem job_bounded (h : (orchestrator settings).Reachable Always s)
    (hrow : s.db.jobs.get? j = some job) :
    (s.db.record j).tally .requeued < job.maxAttempts ∧
      (s.db.record j).tally .retryScheduled < job.maxAttempts ∧
      job.attempts < 2 * job.maxAttempts ∧
      (s.db.record j).events.length ≤ 5 * job.maxAttempts := by
  obtain ⟨hclaims, -, hrequeued, -, -⟩ := budget_of_reachable h j job hrow
  have hretried := retryScheduled_lt h hrow
  refine ⟨hrequeued, hretried, ?_, length_le_of_reachable h hrow⟩
  omega

namespace Scenario

/-- The first of two attempts is reaped and then puts back the job that the second one executes, and
the third attempt is asked to stop and stops. -/
def overspent : List (Label 4) :=
  submitted 2 ++ dispatched ++ claim first 3 0 ++ reaped ++ claim second 4 61000000 ++
    backOff first 61000000 ++ [finalize first 5 61000000] ++ promoted ++
    claim elsewhere 7 63000000 ++ [cancel 63000000, .worker elsewhere .checkCancelled,
      finalize elsewhere 11 63000000]

end Scenario

/-- A job that uses up its whole budget. -/
theorem job_bounded_overspent : ∃ (s : System 4) (job : Job),
    s.db.jobs.get? Scenario.jobId = some job ∧ job.maxAttempts = 2 ∧ job.attempts = 3 ∧
      (s.db.record Scenario.jobId).events.length = 10 ∧
      (s.db.record Scenario.jobId).tally .requeued < job.maxAttempts ∧
      (s.db.record Scenario.jobId).tally .retryScheduled < job.maxAttempts ∧
      job.attempts < 2 * job.maxAttempts ∧
      (s.db.record Scenario.jobId).events.length ≤ 5 * job.maxAttempts := by
  obtain ⟨s, hsteps, hs⟩ := exists_of_run (T := orchestrator {}) (System.start 4 0)
    Scenario.overspent
    (fun s => ((s.db.jobs.get? Scenario.jobId).any fun job =>
      job.maxAttempts = 2 && job.attempts = 3) &&
        (s.db.record Scenario.jobId).events.length = 10) (by decide +kernel)
  simp only [Bool.and_eq_true, decide_eq_true_eq] at hs
  obtain ⟨hjob, hlength⟩ := hs
  obtain ⟨job, hrow, hcolumns⟩ := (Option.any_eq_true ..).mp hjob
  simp only [Bool.and_eq_true, decide_eq_true_eq] at hcolumns
  exact ⟨s, job, hrow, hcolumns.1, hcolumns.2, hlength, job_bounded ⟨_, ⟨0, rfl⟩, hsteps⟩ hrow⟩

/-! ## Runs without an end -/

/-- The timeline grows with every change of the standing. -/
lemma length_of_step (h : (orchestrator settings).Reachable Always s)
    (hstep : s.step settings l = some s') :
    (s.db.record j).events.length < (s'.db.record j).events.length ∨
      ((s'.db.record j).events.length = (s.db.record j).events.length ∧
        (s'.db.record j).row.map Job.standing = (s.db.record j).row.map Job.standing) := by
  cases turn_of_jobStep (linked_of_reachable h j) (jobStep_of_reachable h hstep j) with
  | quiet htypes hrow houtbox =>
      refine Or.inr ⟨?_, hrow⟩
      simpa [JobRecord.types] using congrArg List.length htypes
  | created job' hnone hrow' hstatus hattempts htypes =>
      have hlength := congrArg List.length htypes
      simp only [JobRecord.types, List.length_map, List.length_append, List.length_singleton,
        System.life_record] at hlength
      omega
  | claimed job job' hin | requeued job job' hin | retried c e job job' he hretries hopen hin
  | promoted job job' hin | dispatched job job' hin | stopping job job' hin
  | ended type job job' hin =>
      have hlength := hin.length
      rw [System.life_record] at hlength
      omega

/-- What a job was asked for stays. -/
lemma request_of_path {p : ℕ → System settings.workerConcurrency}
    (h : (orchestrator settings).Path p) {n m : ℕ} (hnm : n ≤ m)
    (hrow : ((p n).db.record j).row = some job) :
    ∃ job', ((p m).db.record j).row = some job' ∧ job'.request = job.request := by
  induction m, hnm using Nat.le_induction with
  | base => exact ⟨job, hrow, rfl⟩
  | succ m _ ih =>
      obtain ⟨job₁, hrow₁, hrequest⟩ := ih
      obtain ⟨l, hl⟩ := h.step m
      rcases row_of_jobStep_of_row (jobStep_of_reachable (h.reachable m) hl j) hrow₁ with
        hsame | ⟨u, -, -, hvalues⟩
      · exact ⟨job₁, hsame, hrequest⟩
      · exact ⟨_, hvalues, (u.keeps_request job₁).trans hrequest⟩

lemma standing_of_path {p : ℕ → System settings.workerConcurrency}
    (h : (orchestrator settings).Path p) (j : UUID) :
    ∃ N, ∀ n, N ≤ n →
      ((p n).db.record j).row.map Job.standing = ((p N).db.record j).row.map Job.standing := by
  by_cases hexists : ∃ n job, ((p n).db.record j).row = some job
  · obtain ⟨n, job, hrow⟩ := hexists
    have hbound : ∀ m, ((p m).db.record j).events.length ≤ 5 * job.maxAttempts := by
      intro m
      cases hrow' : ((p m).db.record j).row with
      | none =>
          have hempty : (p m).db.record j = JobRecord.empty :=
            (linked_of_reachable (h.reachable m) j).fresh hrow'
          rw [hempty]
          exact Nat.zero_le _
      | some job' =>
          have hrequest : job'.request = job.request := by
            rcases Nat.le_total n m with hnm | hmn
            · obtain ⟨job₁, hrow₁, hrequest⟩ := request_of_path h hnm hrow
              rw [← hrequest, Option.some.inj (hrow'.symm.trans hrow₁)]
            · obtain ⟨job₁, hrow₁, hrequest⟩ := request_of_path h hmn hrow'
              rw [← hrequest, Option.some.inj (hrow.symm.trans hrow₁)]
          have hlimit : job'.maxAttempts = job.maxAttempts :=
            congrArg JobRequest.maxAttempts hrequest
          rw [← hlimit]
          exact length_le_of_reachable (h.reachable m) hrow'
    exact h.settles hbound fun s l s' hreach hstep => length_of_step hreach hstep
  · have hnone : ∀ n, ((p n).db.record j).row = none := fun n =>
      Option.eq_none_iff_forall_ne_some.mpr fun job hrow => hexists ⟨n, job, hrow⟩
    exact ⟨0, fun n _ => by rw [hnone n, hnone 0]⟩

/-- **Every job settles.**  In every run without an end, whatever it repeats, each job has from some
time on the same status and the same number of attempts, or never a row. -/
theorem standing_settles {p : ℕ → System settings.workerConcurrency}
    (h : (orchestrator settings).Path p) (j : UUID) :
    ∃ N, ∀ n, N ≤ n →
      ((p n).db.record j).row.map Job.standing = ((p N).db.record j).row.map Job.standing :=
  standing_of_path h j

/-- The run that uses up the budget and then lets the time stand still. -/
theorem standing_settles_overspent :
    ∃ p : ℕ → System 4, (orchestrator {}).Path p ∧
      (∃ n, (p n).status Scenario.jobId = some .cancelled) ∧
      ∃ N, ∀ n, N ≤ n → ((p n).db.record Scenario.jobId).row.map Job.standing =
        ((p N).db.record Scenario.jobId).row.map Job.standing := by
  obtain ⟨s, hsteps, hs⟩ := exists_of_run (T := orchestrator {}) (System.start 4 0)
    Scenario.overspent (fun s => s.status Scenario.jobId = some .cancelled) (by decide +kernel)
  have htick : (orchestrator {}).step s (.tick 0) = some s := by
    show some { s with clock := s.clock + (0 : ℕ) } = some s
    rw [Nat.cast_zero, add_zero]
  obtain ⟨p, N, hstart, hnext, hlast⟩ :=
    exists_path_of_steps hsteps (q := fun _ => s) rfl fun _ => ⟨_, htick⟩
  have hpath : (orchestrator {}).Path p := ⟨⟨0, hstart⟩, hnext⟩
  refine ⟨p, hpath, ⟨N, ?_⟩, standing_settles hpath Scenario.jobId⟩
  rw [hlast N le_rfl]
  exact of_decide_eq_true hs

end Step

end JobOrchestrator
