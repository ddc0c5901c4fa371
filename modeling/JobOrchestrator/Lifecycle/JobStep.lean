import JobOrchestrator.Lifecycle.WorkerStep

/-!
# One job's view of a step

Every property of the system is about one job at a time: its record and the executions of
it.  `System.life` is that view, and `JobStep` lists what a step of the system can do to it,
with the guard under which it does so.  The invariants are proved by cases on `JobStep`; no
proof after this file unfolds a transaction.

`jobStep_of_step` connects the two levels.  It needs that the rows of a job hang together
(`Linked`), which `linked_of_jobStep` preserves in turn.
-/

namespace JobOrchestrator

open ExecutionService SubmissionService CancellationService

/-- What a state says about one job. -/
@[ext]
structure Life (concurrency : ℕ) where
  record : JobRecord
  executions : Coroutine concurrency → Option Execution
  clock : Time

/-- The execution of the given job that a consumer is in. -/
def Consumer.on (jobId : UUID) : Consumer → Option Execution
  | .executing e => if e.jobId = jobId then some e else none
  | _ => none

lemma Consumer.on_eq_some {jobId : UUID} {consumer : Consumer} {e : Execution} :
    consumer.on jobId = some e ↔ consumer = .executing e ∧ e.jobId = jobId := by
  cases consumer with
  | executing e' =>
      by_cases he' : e'.jobId = jobId
      · simp only [Consumer.on, if_pos he', Option.some.injEq, Consumer.executing.injEq]
        constructor
        · rintro rfl
          exact ⟨rfl, he'⟩
        · exact fun h => h.1
      · simp only [Consumer.on, if_neg he', reduceCtorEq, Consumer.executing.injEq, false_iff,
          not_and]
        rintro rfl
        exact he'
  | idle | delivered _ | ended => simp [Consumer.on]

namespace System

variable {concurrency : ℕ}

def life (s : System concurrency) (jobId : UUID) : Life concurrency where
  record := s.db.record jobId
  executions c := (s.workers c).on jobId
  clock := s.clock

variable (s : System concurrency) (jobId : UUID)

@[simp] lemma life_record : (s.life jobId).record = s.db.record jobId := rfl

@[simp] lemma life_clock : (s.life jobId).clock = s.clock := rfl

lemma life_executions {c : Coroutine concurrency} {e : Execution} :
    (s.life jobId).executions c = some e ↔ s.workers c = .executing e ∧ e.jobId = jobId :=
  Consumer.on_eq_some

end System

/-- The cancellation flag of a job, as `_cancellation_requested` reads it. -/
def JobRecord.cancellationRequested (r : JobRecord) : Bool :=
  r.row.any fun job => job.cancellationRequestedAt.isSome

/-- The decisions of an execution between two transactions, with the record they depend
on. -/
inductive Decides (r : JobRecord) (e : Execution) : Stage → Prop
  | checkpoint (hstage : e.stage = .handler) (hrequested : r.cancellationRequested) :
      Decides r e (.finalizing .cancelled)
  | returned (hstage : e.stage = .handler) (result : Dict) :
      Decides r e (.finalizing (.succeeded result))
  | raised (hstage : e.stage = .handler) (error : HandlerError) : Decides r e error.stage
  | read {code message : String} (hstage : e.stage = .deciding code message) :
      Decides r e (e.afterRead code message r.cancellationRequested)
  | backoff {code message : String} (hstage : e.stage = .backingOff code message)
      (nextAttemptAt : Time) : Decides r e (.finalizing (.retry code message nextAttemptAt))
  | deadLetter (hstage : e.stage = .deadLettering) : Decides r e (.returning false)
  | failed : Decides r e (.returning true)

/-- An attempt whose commit is ahead after a decision had it ahead before. -/
lemma Decides.isOpen {r : JobRecord} {e : Execution} {stage : Stage} (h : Decides r e stage)
    (hopen : stage.isOpen) : e.stage.isOpen := by
  cases h with
  | checkpoint hstage | returned hstage | raised hstage | read hstage | backoff hstage =>
      rw [hstage]
      rfl
  | deadLetter | failed => cases hopen

lemma decides_of_resumes {db : Database} {e : Execution} {action : WorkerAction} {stage : Stage}
    (h : Resumes db e action stage) : Decides (db.record e.jobId) e stage := by
  cases h with
  | cancelled hstage hrequested => exact .checkpoint hstage hrequested
  | returned result hstage => exact .returned hstage result
  | raised error hstage => exact .raised hstage error
  | read code message hstage => exact .read hstage
  | backedOff code message now backoff hstage => exact .backoff hstage (now + backoff)
  | failed => exact .failed

section JobStep

variable {settings : Settings}

/-- What a step with label `l` can do to the job `j` from the state `s`. -/
inductive JobStep (s : System settings.workerConcurrency) (j : UUID) :
    Label settings.workerConcurrency → Life settings.workerConcurrency → Prop
  | idle {l} : JobStep s j l (s.life j)
  | tick {elapsed} :
      JobStep s j (.tick elapsed) { s.life j with clock := s.clock + elapsed }
  | created {call tx now} (tx') (args : SubmitArgs) (now') (hlimit)
      (hrow : (s.db.record j).row = none) :
      JobStep s j (.submission call tx now)
        { s.life j with
          record := created tx' (newJob settings args j now' hlimit) (s.db.record j) }
  | cancelRequested {tx userId reason now} (job)
      (hlock : JobRepository.lockForUser s.db j userId = some job)
      (hrow : (s.db.record j).row = some job) (hstatus : job.status = .running) :
      JobStep s j (.cancel tx j userId reason now)
        { s.life j with record := requested tx reason now job (s.db.record j) }
  | cancelled {tx userId reason now} (job) (hrow : (s.db.record j).row = some job)
      (hstatus : job.status ∈ JobRepository.inactiveCancellable) :
      JobStep s j (.cancel tx j userId reason now)
        { s.life j with record := cancelled tx reason now job (s.db.record j) }
  | claimed {c tx now} (job) (hworker : s.workers c = .delivered j)
      (hrow : (s.db.record j).row = some job)
      (hguard : (JobRepository.claimForExecution c.workerId settings.workerLeaseSeconds
        now).guard job) :
      JobStep s j (.worker c (.claim tx now))
        { s.life j with
          record := claimed settings tx c.workerId now job (s.db.record j)
          executions := Function.update (s.life j).executions c (some (.start j
            ⟨job.attempts + 1, tx.attemptId, ⟨job.type, job.payload, job.maxAttempts⟩⟩)) }
  | heartbeat {c now} (e) (he : (s.life j).executions c = some e) :
      JobStep s j (.worker c (.heartbeat now))
        { s.life j with
          record := (s.db.record j).updateRow
            (JobRepository.heartbeat c.workerId settings.workerLeaseSeconds now) }
  | progressed {c progress now} (e) (he : (s.life j).executions c = some e)
      (hstage : e.stage = .handler) :
      JobStep s j (.worker c (.reportProgress progress now))
        { s.life j with
          record := (s.db.record j).updateRow
            (JobRepository.updateProgress c.workerId progress settings.workerLeaseSeconds now) }
  | heartbeatFailed {c} (e) (he : (s.life j).executions c = some e) :
      JobStep s j (.worker c .heartbeatFails)
        { s.life j with
          executions := Function.update (s.life j).executions c
            (some { e with heartbeatFailed := true }) }
  | decided {c action} (e stage) (he : (s.life j).executions c = some e)
      (hdecides : Decides (s.db.record j) e stage) :
      JobStep s j (.worker c action)
        { s.life j with
          executions := Function.update (s.life j).executions c (some { e with stage }) }
  | finalized {c tx now} (e outcome job) (he : (s.life j).executions c = some e)
      (hstage : e.stage = .finalizing outcome) (hrow : (s.db.record j).row = some job)
      (hguard : (outcome.finalizer.update c.workerId now).guard job) :
      JobStep s j (.worker c (.finalize tx now))
        { s.life j with
          record := finalized tx c.workerId e.attemptId now outcome.finalizer job (s.db.record j)
          executions := Function.update (s.life j).executions c
            (some { e with stage := Stage.afterFinalize true outcome }) }
  | superseded {c tx now} (e outcome) (he : (s.life j).executions c = some e)
      (hstage : e.stage = .finalizing outcome)
      (hmissed : ∀ job, (s.db.record j).row = some job →
        ¬ (outcome.finalizer.update c.workerId now).guard job) :
      JobStep s j (.worker c (.finalize tx now))
        { s.life j with
          record := (s.db.record j).mapAttempt e.attemptId (superseded now)
          executions := Function.update (s.life j).executions c
            (some { e with stage := Stage.afterFinalize false outcome }) }
  | left {l} (gone : Coroutine settings.workerConcurrency → Bool) :
      JobStep s j l
        { s.life j with
          executions := fun c => if gone c then none else (s.life j).executions c }
  | dispatched {tx locked batchSize now} (row job)
      (hclaimed : row ∈ DispatchOutboxRepository.claimPending s.db locked batchSize)
      (hjob : row.jobId = j) (hrow : (s.db.record j).row = some job) :
      JobStep s j (.sweep .dispatchPending tx locked batchSize now)
        { s.life j with record := DispatchService.dispatched tx now row job (s.db.record j) }
  | promoted {tx locked batchSize now} (job) (hrow : (s.db.record j).row = some job)
      (hstatus : job.status = .retrying)
      (hdue : ∃ t, job.nextAttemptAt = some t ∧ t ≤ now) (hnow : now ≤ s.clock) :
      JobStep s j (.sweep .promoteDue tx locked batchSize now)
        { s.life j with record := RetryService.promoted tx now job (s.db.record j) }
  | leaseFailed {tx locked batchSize now} (job) (hrow : (s.db.record j).row = some job)
      (hstatus : job.status = .running) (hexhausted : job.maxAttempts ≤ job.attempts) :
      JobStep s j (.sweep .reapExpired tx locked batchSize now)
        { s.life j with record := LeaseService.failed tx now job (s.db.record j) }
  | requeued {tx locked batchSize now} (job) (hrow : (s.db.record j).row = some job)
      (hstatus : job.status = .running) (hleft : job.attempts < job.maxAttempts) :
      JobStep s j (.sweep .reapExpired tx locked batchSize now)
        { s.life j with record := LeaseService.requeued tx now job (s.db.record j) }
  | redelivered {stamp tx locked batchSize now} (t) :
      JobStep s j (.sweep (.redeliverStuck stamp) tx locked batchSize now)
        { s.life j with
          record := (s.db.record j).updateRow (JobRepository.markRedispatched t) }
  | expired {tx locked batchSize now} (job) (hrow : (s.db.record j).row = some job)
      (hstatus : job.status ∈ JobRepository.expirable) :
      JobStep s j (.sweep .expireStale tx locked batchSize now)
        { s.life j with record := ExpiryService.expired tx now job (s.db.record j) }
  | notified {io tx locked batchSize now} (r)
      (hsame : NotificationService.SameAnnouncements (s.db.record j) r) :
      JobStep s j (.sweep (.deliverNotifications io) tx locked batchSize now)
        { s.life j with record := r }

/-- The rows of a job hang together: without a row in `jobs` it has none elsewhere, it has at
most one outbox row, and the attempt row of each of its executions is one of its own. -/
structure Linked {concurrency : ℕ} (life : Life concurrency) : Prop where
  fresh : life.record.row = none → life.record = JobRecord.empty
  outbox_le : life.record.outbox.length ≤ 1
  attempt_mem : ∀ c e, life.executions c = some e →
    ∃ a ∈ life.record.attempts, a.id = e.attemptId

/-! ## The view of a successor state -/

section View

variable {s s' : System settings.workerConcurrency} {j : UUID} {r : JobRecord}
  {c : Coroutine settings.workerConcurrency} {consumer : Consumer}
  {l : Label settings.workerConcurrency}

lemma life_of_record (hrecord : s'.db.record j = r) (hworkers : s'.workers = s.workers)
    (hclock : s'.clock = s.clock) : s'.life j = { s.life j with record := r } := by
  refine Life.ext hrecord (funext fun c => ?_) hclock
  exact congrArg (fun w : Coroutine settings.workerConcurrency → Consumer => (w c).on j) hworkers

lemma life_of_worker (hrecord : s'.db.record j = r)
    (hworkers : s'.workers = Function.update s.workers c consumer)
    (hclock : s'.clock = s.clock) :
    s'.life j =
      { s.life j with
        record := r
        executions := Function.update (s.life j).executions c (consumer.on j) } := by
  refine Life.ext hrecord ?_ hclock
  funext d
  change (s'.workers d).on j = Function.update (s.life j).executions c (consumer.on j) d
  rw [hworkers]
  by_cases hd : d = c
  · subst hd
    rw [Function.update_self, Function.update_self]
  · rw [Function.update_of_ne hd, Function.update_of_ne hd]
    rfl

/-- A step of a transaction on the record of `i` only concerns the job `i`. -/
lemma jobStep_of_record {i : UUID} (hrecord : s'.db.record = Function.update s.db.record i r)
    (hworkers : s'.workers = s.workers) (hclock : s'.clock = s.clock)
    (hmine : JobStep s i l { s.life i with record := r }) : JobStep s j l (s'.life j) := by
  by_cases hj : j = i
  · subst hj
    rw [life_of_record (by rw [hrecord, Function.update_self]) hworkers hclock]
    exact hmine
  · have hother : s'.db.record j = s.db.record j := by rw [hrecord, Function.update_of_ne hj]
    rw [life_of_record hother hworkers hclock]
    exact .idle

/-- A step of a consumer only concerns the job `i` that it is busy with. -/
lemma jobStep_of_consumer {i : UUID} (hrecord : s'.db.record = Function.update s.db.record i r)
    (hworkers : s'.workers = Function.update s.workers c consumer)
    (hclock : s'.clock = s.clock) (hbefore : ∀ k, k ≠ i → (s.workers c).on k = none)
    (hafter : ∀ k, k ≠ i → consumer.on k = none)
    (hmine : JobStep s i l
      { s.life i with
        record := r
        executions := Function.update (s.life i).executions c (consumer.on i) }) :
    JobStep s j l (s'.life j) := by
  by_cases hj : j = i
  · subst hj
    rw [life_of_worker (by rw [hrecord, Function.update_self]) hworkers hclock]
    exact hmine
  · have hother : s'.db.record j = s.db.record j := by rw [hrecord, Function.update_of_ne hj]
    have hnone : (s.life j).executions c = none := hbefore j hj
    rw [life_of_worker hother hworkers hclock, hafter j hj, ← hnone, Function.update_eq_self]
    exact .idle

lemma jobStep_of_execution {e : Execution} (he : s.workers c = .executing e)
    (hrecord : s'.db.record = Function.update s.db.record e.jobId r)
    (hworkers : s'.workers = Function.update s.workers c consumer)
    (hclock : s'.clock = s.clock) (hafter : ∀ i, i ≠ e.jobId → consumer.on i = none)
    (hmine : (s.life e.jobId).executions c = some e → JobStep s e.jobId l
      { s.life e.jobId with
        record := r
        executions := Function.update (s.life e.jobId).executions c (consumer.on e.jobId) }) :
    JobStep s j l (s'.life j) :=
  jobStep_of_consumer hrecord hworkers hclock
    (fun _ hi => by rw [he, Consumer.on, if_neg (Ne.symm hi)]) hafter
    (hmine ((s.life_executions e.jobId).mpr ⟨he, rfl⟩))

/-- A consumer that executes nothing before and after its step shows in no life. -/
lemma jobStep_of_quiet (hrecord : s'.db.record = s.db.record)
    (hworkers : s'.workers = Function.update s.workers c consumer)
    (hclock : s'.clock = s.clock) (hbefore : ∀ i, (s.workers c).on i = none)
    (hafter : ∀ i, consumer.on i = none) : JobStep s j l (s'.life j) := by
  have hnone : (s.life j).executions c = none := hbefore j
  rw [life_of_worker (congrFun hrecord j) hworkers hclock, hafter, ← hnone,
    Function.update_eq_self]
  exact .idle

lemma on_executing {e : Execution} {i : UUID} (h : i ≠ e.jobId) :
    (Consumer.executing e).on i = none := if_neg (Ne.symm h)

lemma on_executing_self (e : Execution) : (Consumer.executing e).on e.jobId = some e := if_pos rfl

lemma on_executing_start (i : UUID) (claim : Claim) :
    (Consumer.executing (.start i claim)).on i = some (.start i claim) := if_pos rfl

end View

/-! ## Projection -/

section Projection

variable {s s' : System settings.workerConcurrency} (hlinked : ∀ i, Linked (s.life i)) (j : UUID)

/-- A decision of an execution, seen from the job it executes. -/
lemma jobStep_of_resume {c : Coroutine settings.workerConcurrency} {e : Execution}
    {stage : Stage} {action : WorkerAction} (queue : JobQueue) (he : s.workers c = .executing e)
    (hdecides : Decides (s.db.record e.jobId) e stage) :
    JobStep s j (.worker c action) (({ s with queue }.resume c e stage).life j) := by
  refine jobStep_of_execution he (Function.update_eq_self ..).symm rfl rfl
    (fun i hi => if_neg (Ne.symm hi)) fun hexec => ?_
  rw [on_executing_self { e with stage }]
  exact .decided e stage hexec hdecides

/-- A consumer that leaves its execution. -/
lemma jobStep_of_leave {c : Coroutine settings.workerConcurrency} {e : Execution}
    {action : WorkerAction} {consumer : Consumer} (he : s.workers c = .executing e)
    (hon : ∀ i, consumer.on i = none) :
    JobStep s j (.worker c action) ((s.become c consumer).life j) := by
  refine jobStep_of_execution he (Function.update_eq_self ..).symm rfl rfl (fun i _ => hon i)
    fun _ => ?_
  have hleft := JobStep.left (l := .worker c action) (s := s) (j := e.jobId) fun d => decide (d = c)
  have hgone : Function.update (s.life e.jobId).executions c (consumer.on e.jobId) =
      fun d => if decide (d = c) then none else (s.life e.jobId).executions d := by
    funext d
    by_cases hd : d = c
    · subst hd
      rw [Function.update_self, hon, if_pos (decide_eq_true rfl)]
    · rw [Function.update_of_ne hd, if_neg (by simpa using hd)]
  rw [hgone]
  exact hleft

/-- A statement that an execution issues while it goes on at the same stage. -/
lemma jobStep_of_renewal {c : Coroutine settings.workerConcurrency} {e : Execution}
    {action : WorkerAction} {u : JobUpdate} (he : s.workers c = .executing e)
    (hmine : (s.life e.jobId).executions c = some e → JobStep s e.jobId (.worker c action)
      { s.life e.jobId with record := (s.db.record e.jobId).updateRow u }) :
    JobStep s j (.worker c action)
      (({ s with db := (s.db.updateJob e.jobId u).1 } : System _).life j) := by
  have hself : s.workers = Function.update s.workers c (.executing e) := by
    rw [← he, Function.update_eq_self]
  refine jobStep_of_execution he (Database.record_updateJob ..) hself rfl
    (fun _ hi => on_executing hi) fun hexec => ?_
  rw [on_executing_self, ← hexec, Function.update_eq_self]
  exact hmine hexec

include hlinked

/-- The finalizing transaction of an execution. -/
lemma jobStep_of_finalize {c : Coroutine settings.workerConcurrency} {e : Execution} {tx : Tx}
    {now : Time} {outcome : Outcome} {db : Database} {hit : Bool}
    (he : s.workers c = .executing e) (hstage : e.stage = .finalizing outcome)
    (hfinalize : finalize s.db tx c.workerId e.jobId e.attemptId now outcome.finalizer =
      some (db, hit)) :
    JobStep s j (.worker c (.finalize tx now))
      (({ s with db }.resume c e (Stage.afterFinalize hit outcome)).life j) := by
  have hown := (hlinked e.jobId).attempt_mem c e ((s.life_executions e.jobId).mpr ⟨he, rfl⟩)
  rcases finalize_cases hfinalize hown with
    ⟨rfl, hmissed, hrecord⟩ | ⟨job, hrow, hguard, rfl, hrecord⟩
  · refine jobStep_of_execution he hrecord rfl rfl (fun i hi => if_neg (Ne.symm hi))
      fun hexec => ?_
    rw [on_executing_self { e with stage := Stage.afterFinalize false outcome }]
    exact .superseded e outcome hexec hstage hmissed
  · refine jobStep_of_execution he hrecord rfl rfl (fun i hi => if_neg (Ne.symm hi))
      fun hexec => ?_
    rw [on_executing_self { e with stage := Stage.afterFinalize true outcome }]
    exact .finalized e outcome job hexec hstage hrow hguard

lemma jobStep_of_workerStep {c : Coroutine settings.workerConcurrency} {action : WorkerAction}
    (h : WorkerStep s c action s') : JobStep s j (.worker c action) (s'.life j) := by
  cases h with
  | consumed jobId queue hidle =>
      exact jobStep_of_quiet rfl rfl rfl (fun i => by rw [hidle]; rfl) fun _ => rfl
  | claimed tx now jobId db result hdelivered htimely hclaim =>
      have hbefore : ∀ i, (s.workers c).on i = none := fun i => by rw [hdelivered]; rfl
      rcases claim_cases hclaim with ⟨rfl, hrecord, -⟩ | ⟨job, hrow, hguard, rfl, hrecord⟩
      · exact jobStep_of_quiet hrecord rfl rfl hbefore fun _ => rfl
      · refine jobStep_of_consumer hrecord rfl rfl (fun i _ => hbefore i)
          (fun i hi => if_neg (Ne.symm hi)) ?_
        rw [Option.elim_some, on_executing_start]
        exact .claimed job hdelivered hrow hguard
  | claimFailed jobId hdelivered =>
      exact jobStep_of_quiet rfl rfl rfl (fun i => by rw [hdelivered]; rfl) fun _ => rfl
  | stopped =>
      cases hworker : s.workers c with
      | executing e => exact jobStep_of_leave j hworker fun _ => rfl
      | idle | delivered | ended =>
          exact jobStep_of_quiet rfl rfl rfl (fun i => by rw [hworker]; rfl) fun _ => rfl
  | heartbeat e now he => exact jobStep_of_renewal j he fun hexec => .heartbeat e hexec
  | heartbeatFailed e he =>
      refine jobStep_of_execution he (Function.update_eq_self ..).symm rfl rfl
        (fun i hi => if_neg (Ne.symm hi)) fun hexec => ?_
      rw [on_executing_self { e with heartbeatFailed := true }]
      exact .heartbeatFailed e hexec
  | passed => exact .idle
  | progressed e progress now he hstage =>
      exact jobStep_of_renewal j he fun hexec => .progressed e hexec hstage
  | resumed e _ stage he hresumes =>
      exact jobStep_of_resume j s.queue he (decides_of_resumes hresumes)
  | finalized e outcome tx now db hit he hstage _ hfinalize =>
      exact jobStep_of_finalize hlinked j he hstage hfinalize
  | deadLettered e he hstage =>
      exact jobStep_of_resume j (s.queue.deadLetter e.jobId) he (.deadLetter hstage)
  | returned e raised he => exact jobStep_of_leave j he fun _ => rfl

omit hlinked in
/-- The record of a job after a sweep that acts on the selected items only. -/
lemma jobStep_of_sweep {κ : Type*} {items : List κ} {idx : κ → UUID} {f : κ → JobRecord → JobRecord}
    {l : Label settings.workerConcurrency}
    (hother : ∀ i, i ∉ items.map idx → s'.db.record i = s.db.record i)
    (hitem : ∀ x ∈ items, s'.db.record (idx x) = f x (s.db.record (idx x)))
    (hworkers : s'.workers = s.workers) (hclock : s'.clock = s.clock)
    (hmine : ∀ x ∈ items,
      JobStep s (idx x) l { s.life (idx x) with record := f x (s.db.record (idx x)) }) :
    JobStep s j l (s'.life j) := by
  by_cases hj : j ∈ items.map idx
  · obtain ⟨x, hx, rfl⟩ := List.mem_map.mp hj
    rw [life_of_record (hitem x hx) hworkers hclock]
    exact hmine x hx
  · rw [life_of_record (hother j hj) hworkers hclock]
    exact .idle

omit j in
/-- The job of a claimed outbox row exists. -/
lemma row_of_claimPending {locked : List UUID} {batchSize : ℕ} {row : DispatchOutbox}
    (hrow : row ∈ DispatchOutboxRepository.claimPending s.db locked batchSize) :
    ∃ job, (s.db.record row.jobId).row = some job := by
  have hmem : row ∈ (s.db.record row.jobId).outbox :=
    Table.mem_children.mpr ⟨(Table.mem_of_mem_select hrow).1, rfl⟩
  refine Option.ne_none_iff_exists'.mp fun hnone => ?_
  have hempty : s.db.record row.jobId = JobRecord.empty := (hlinked row.jobId).fresh hnone
  rw [hempty] at hmem
  cases hmem

lemma jobStep_of_run {kind : Sweep} {tx : Tx} {locked : List UUID} {batchSize : ℕ} {now : Time}
    {pushes : List Push} (hnow : now ≤ s.clock)
    (h : kind.run settings s.db tx locked batchSize now = some (s'.db, pushes))
    (hworkers : s'.workers = s.workers) (hclock : s'.clock = s.clock) :
    JobStep s j (.sweep kind tx locked batchSize now) (s'.life j) := by
  cases kind with
  | dispatchPending =>
      obtain ⟨t, ht, heq⟩ := Option.map_eq_some_iff.mp h
      obtain ⟨hdb, -⟩ := Prod.mk.inj heq
      obtain ⟨hother, hitem⟩ := DispatchService.record_dispatchPending ht
        fun i => (hlinked i).outbox_le
      rw [hdb] at hother hitem
      refine jobStep_of_sweep j hother hitem hworkers hclock fun row hrow => ?_
      obtain ⟨job, hjob⟩ := row_of_claimPending hlinked hrow
      rw [DispatchService.dispatchRecord_of_row hjob]
      exact .dispatched row job hrow rfl hjob
  | promoteDue =>
      obtain ⟨t, ht, heq⟩ := Option.map_eq_some_iff.mp h
      obtain ⟨hdb, -⟩ := Prod.mk.inj heq
      obtain ⟨hother, hitem⟩ := RetryService.record_promoteDue ht
      rw [hdb] at hother hitem
      refine jobStep_of_sweep j hother hitem hworkers hclock fun job hjob => ?_
      obtain ⟨hrow, hstatus, hdue⟩ := RetryService.row_of_findDueRetries hjob
      rw [RetryService.promoteRecord_of_row hrow hstatus]
      exact .promoted job hrow hstatus hdue hnow
  | reapExpired =>
      obtain ⟨t, ht, heq⟩ := Option.map_eq_some_iff.mp h
      obtain ⟨hdb, -⟩ := Prod.mk.inj heq
      obtain ⟨hother, hitem⟩ := LeaseService.record_reapExpired ht
      rw [hdb] at hother hitem
      refine jobStep_of_sweep j hother hitem hworkers hclock fun job hjob => ?_
      obtain ⟨hrow, hstatus, -⟩ := LeaseService.row_of_findExpiredLeases hjob
      unfold LeaseService.reapRecord
      split
      · rename_i hexhausted
        rw [LeaseService.failRecord_of_row hrow hstatus]
        exact .leaseFailed job hrow hstatus hexhausted
      · rename_i hleft
        rw [LeaseService.requeueRecord_of_row hrow hstatus]
        exact .requeued job hrow hstatus (not_le.mp hleft)
  | redeliverStuck stamp =>
      obtain ⟨t, ht, heq⟩ := Option.map_eq_some_iff.mp h
      obtain ⟨hdb, -⟩ := Prod.mk.inj heq
      obtain ⟨hother, hitem⟩ := DispatchService.record_redeliverStuck ht
      rw [hdb] at hother hitem
      exact jobStep_of_sweep j hother
        (f := fun job r => r.updateRow (JobRepository.markRedispatched (stamp job.id))) hitem
        hworkers hclock fun job _ => .redelivered (stamp job.id)
  | expireStale =>
      obtain ⟨t, ht, heq⟩ := Option.map_eq_some_iff.mp h
      obtain ⟨hdb, -⟩ := Prod.mk.inj heq
      obtain ⟨hother, hitem⟩ := ExpiryService.record_expireStale ht
      rw [hdb] at hother hitem
      refine jobStep_of_sweep j hother hitem hworkers hclock fun job hjob => ?_
      obtain ⟨hrow, hstatus, -⟩ := ExpiryService.row_of_findExpirable hjob
      have hexpirable : job.status ∈ JobRepository.expirable := by
        simpa [JobRepository.expirable] using hstatus
      rw [ExpiryService.expireRecord_of_row hrow hexpirable]
      exact .expired job hrow hexpirable
  | deliverNotifications io =>
      obtain ⟨db, hdb, heq⟩ := Option.map_eq_some_iff.mp h
      obtain ⟨rfl, -⟩ := Prod.mk.inj heq
      rw [life_of_record (s := s) rfl hworkers hclock]
      exact .notified _ (NotificationService.sameAnnouncements_dispatchDue hdb j)

/-- **Projection.**  A step of the system does to each job what `JobStep` allows. -/
theorem jobStep_of_step {l : Label settings.workerConcurrency}
    (h : s.step settings l = some s') : JobStep s j l (s'.life j) := by
  cases systemStep_of_step h with
  | ticked => exact .tick
  | submitted | published | publishFailed | redis => exact .idle
  | submission call tx now submission db submission' _ _ hnext =>
      rcases next_cases hnext with rfl | ⟨now', began, job, hcreate⟩
      · exact .idle
      · obtain ⟨hlimit, rfl, hrow, hrecord⟩ := create_eq_some hcreate
        exact jobStep_of_record hrecord rfl rfl (.created _ submission.args now' hlimit hrow)
  | cancel tx jobId userId reason now db outcome _ hcancel =>
      rcases cancel_cases hcancel with
        ⟨rfl, -⟩ | ⟨job, hlock, hrow, hstatus, -, hrecord⟩ | ⟨job, hrow, hstatus, -, hrecord⟩
      · exact .idle
      · exact jobStep_of_record hrecord rfl rfl (.cancelRequested job hlock hrow hstatus)
      · exact jobStep_of_record hrecord rfl rfl (.cancelled job hrow hstatus)
  | sweep kind tx locked batchSize now db pushes htimely _ hrun =>
      exact jobStep_of_run hlinked j (System.le_clock_of_timely htimely) hrun rfl rfl
  | worker c action hstep => exact jobStep_of_workerStep hlinked j hstep
  | crashed workerId =>
      have hlife : ({ s with
          workers := fun c => if c.workerId = workerId then .ended else s.workers c }).life j =
            { s.life j with
              executions := fun c =>
                if decide (c.workerId = workerId) then none else (s.life j).executions c } := by
        refine Life.ext rfl (funext fun c => ?_) rfl
        by_cases hc : c.workerId = workerId
        · simp [System.life, hc, Consumer.on]
        · simp [System.life, hc]
      rw [hlife]
      exact .left fun c => decide (c.workerId = workerId)

end Projection

end JobStep

end JobOrchestrator
