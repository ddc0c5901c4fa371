import JobOrchestrator.Repositories.Outboxes

/-!
# Submission

`app/services/job_submission_service.py`, after the payload is checked and normalized.  A
call runs at most four statements that other transactions may commit between: the lookup by
idempotency key, the count of the active jobs, the insert, and the lookup after an
`IntegrityError`.  The count and the insert share a transaction, but at `READ COMMITTED` each
statement sees what is committed when it starts.
-/

namespace JobOrchestrator

namespace SubmissionService

/-- The arguments of `submit`, with the payload as `normalize_payload` returns it. -/
structure SubmitArgs where
  userId : String
  type : JobType
  payload : Dict
  priority : JobPriority
  maxAttempts : Option ℕ
  idempotencyKey : Option String

def SubmitArgs.attemptsLimit (settings : Settings) (args : SubmitArgs) : ℕ :=
  args.maxAttempts.getD settings.jobDefaultMaxAttempts

/-- Where a call of `submit` stands: the statement it runs next, or how it ended. -/
inductive Phase
  | lookup
  | count
  | insert (now began : Time)
  | fallback
  | returned (job : Job)
  | tooManyActiveJobs
  | integrityError

structure Submission where
  args : SubmitArgs
  phase : Phase

/-- A call of `submit` before its first statement. -/
def submit (args : SubmitArgs) : Submission where
  args := args
  phase := if args.idempotencyKey.isSome then .lookup else .count

/-- The row that `_create` adds. -/
def newJob (settings : Settings) (args : SubmitArgs) (id : UUID) (now : Time)
    (hlimit : 1 ≤ args.attemptsLimit settings) : Job where
  id := id
  userId := args.userId
  type := args.type
  status := .pending
  priority := args.priority
  payload := args.payload
  result := none
  errorCode := none
  errorMessage := none
  progress := 0
  attempts := 0
  maxAttempts := args.attemptsLimit settings
  idempotencyKey := args.idempotencyKey
  nextAttemptAt := none
  cancellationRequestedAt := none
  cancelReason := none
  lockedBy := none
  lockExpiresAt := none
  heartbeatAt := none
  lastDispatchedAt := none
  deadLetteredAt := none
  createdAt := now
  queuedAt := none
  startedAt := none
  completedAt := none
  updatedAt := now
  progress_range := Nat.zero_le 100
  maxAttempts_positive := hlimit

/-- `jobs.add` and `flush`: fails on the primary key and on `uq_jobs_user_idempotency_key`. -/
def addJob (db : Database) (job : Job) : Option Database :=
  if job.idempotencyKey.any fun key =>
      (JobRepository.getByIdempotencyKey db job.userId key).isSome then none
  else (db.jobs.insert? job).map fun jobs => { db with jobs }

/-- The inserts of `_create`; `none` is an `IntegrityError`. -/
def create (settings : Settings) (db : Database) (tx : Tx) (args : SubmitArgs) (now : Time) :
    Option (Database × Job) :=
  if hlimit : 1 ≤ args.attemptsLimit settings then
    let job := newJob settings args tx.jobId now hlimit
    (addJob db job).bind fun db =>
      let db := JobEventRepository.record db tx job.id .submitted none (some .pending)
        (.submitted args.type args.priority)
      (DispatchOutboxRepository.add db tx job.id).map fun db => (db, job)
  else none

/-- `_find_existing` -/
def findExisting (db : Database) (args : SubmitArgs) : Option Job :=
  args.idempotencyKey.bind (JobRepository.getByIdempotencyKey db args.userId)

/-- The next statement of a call; `none` once the call has ended. -/
def Submission.next (settings : Settings) (db : Database) (tx : Tx) (now : Time)
    (call : Submission) : Option (Database × Submission) :=
  match call.phase with
  | .lookup =>
      match findExisting db call.args with
      | some job => some (db, { call with phase := .returned job })
      | none => some (db, { call with phase := .count })
  | .count =>
      if settings.maxInFlightJobsPerUser ≤
          JobRepository.countActiveForUser db call.args.userId then
        some (db, { call with phase := .tooManyActiveJobs })
      else some (db, { call with phase := .insert now tx.began })
  | .insert now began =>
      match create settings db { tx with began } call.args now with
      | some (db, job) => some (db, { call with phase := .returned job })
      | none =>
          if call.args.idempotencyKey.isSome then some (db, { call with phase := .fallback })
          else some (db, { call with phase := .integrityError })
  | .fallback =>
      match findExisting db call.args with
      | some job => some (db, { call with phase := .returned job })
      | none => some (db, { call with phase := .integrityError })
  | .returned _ | .tooManyActiveJobs | .integrityError => none

/-- Whether the constraints of the tables let the inserts of `_create` through. -/
def accepts (settings : Settings) (db : Database) (tx : Tx) (args : SubmitArgs) : Bool :=
  1 ≤ args.attemptsLimit settings && (findExisting db args).isNone &&
    (JobRepository.get db tx.jobId).isNone && (db.dispatchOutbox.get? tx.outboxId).isNone

/-! ## What a submission does to the records -/

/-- The record of a job right after it was created, on top of what was there before. -/
def created (tx : Tx) (job : Job) (r : JobRecord) : JobRecord :=
  { r with
    row := some job
    events := r.events ++ [JobEventRepository.event tx job.id .submitted none (some .pending)
      (.submitted job.type job.priority)]
    outbox := r.outbox ++ [DispatchOutboxRepository.added tx job.id] }

variable {settings : Settings} {db db' : Database} {tx : Tx} {args : SubmitArgs} {now : Time}
  {job : Job}

lemma record_addJob (h : addJob db job = some db') :
    (db.record job.id).row = none ∧
      db'.record = Function.update db.record job.id { db.record job.id with row := some job } := by
  unfold addJob at h
  split at h
  · cases h
  · obtain ⟨t, ht, rfl⟩ := Option.map_eq_some_iff.mp h
    have hrows := Table.get?_of_insert? ht
    refine ⟨Table.get?_none_of_insert? ht, Function.eq_update_iff.mpr ⟨?_, fun i hi => ?_⟩⟩
    · refine JobRecord.ext ?_ rfl rfl rfl rfl
      exact (congrFun hrows job.id).trans (Function.update_self ..)
    · refine JobRecord.ext ?_ rfl rfl rfl rfl
      exact (congrFun hrows i).trans (Function.update_of_ne hi ..)

lemma create_eq_some (h : create settings db tx args now = some (db', job)) :
    ∃ hlimit : 1 ≤ args.attemptsLimit settings,
      job = newJob settings args tx.jobId now hlimit ∧ (db.record job.id).row = none ∧
      db'.record = Function.update db.record job.id (created tx job (db.record job.id)) := by
  unfold create at h
  split at h
  · rename_i hlimit
    obtain ⟨d, hd, hrest⟩ := Option.bind_eq_some_iff.mp h
    obtain ⟨d', hd', heq⟩ := Option.map_eq_some_iff.mp hrest
    obtain ⟨rfl, rfl⟩ := Prod.mk.inj heq
    obtain ⟨hfresh, hrecord⟩ := record_addJob hd
    refine ⟨hlimit, rfl, hfresh, ?_⟩
    rw [DispatchOutboxRepository.record_add hd', JobEventRepository.record_record, hrecord]
    simp [created, JobRecord.addEvent, JobRecord.addOutbox, newJob]
  · cases h

lemma addJob_eq_some (h : addJob db job = some db') :
    (∀ key, job.idempotencyKey = some key →
      JobRepository.getByIdempotencyKey db job.userId key = none) ∧
    db'.jobs.rows = db.jobs.rows ++ [job] ∧ db'.dispatchOutbox = db.dispatchOutbox := by
  unfold addJob at h
  split at h
  · cases h
  · rename_i hfree
    obtain ⟨t, ht, rfl⟩ := Option.map_eq_some_iff.mp h
    refine ⟨fun key hkey => ?_, Table.rows_of_insert? ht, rfl⟩
    simpa [hkey] using hfree

/-- `_create` adds one row to `jobs`, and no other job of its user has its key. -/
lemma rows_of_create (h : create settings db tx args now = some (db', job)) :
    findExisting db args = none ∧ db'.jobs.rows = db.jobs.rows ++ [job] := by
  unfold create at h
  split at h
  · obtain ⟨d, hd, hrest⟩ := Option.bind_eq_some_iff.mp h
    obtain ⟨d', hd', heq⟩ := Option.map_eq_some_iff.mp hrest
    obtain ⟨rfl, rfl⟩ := Prod.mk.inj heq
    obtain ⟨hfree, hrows, -⟩ := addJob_eq_some hd
    obtain ⟨t, -, rfl⟩ := Option.map_eq_some_iff.mp hd'
    refine ⟨?_, hrows⟩
    rw [findExisting, Option.bind_eq_none_iff]
    exact hfree
  · cases h

/-- `_create` writes no attempt. -/
lemma jobAttempts_of_create (h : create settings db tx args now = some (db', job)) :
    db'.jobAttempts = db.jobAttempts := by
  unfold create at h
  split at h
  · obtain ⟨d, hd, hrest⟩ := Option.bind_eq_some_iff.mp h
    obtain ⟨d', hd', heq⟩ := Option.map_eq_some_iff.mp hrest
    obtain ⟨rfl, rfl⟩ := Prod.mk.inj heq
    obtain ⟨t, -, rfl⟩ := Option.map_eq_some_iff.mp hd'
    unfold addJob at hd
    split at hd
    · cases hd
    · obtain ⟨t, -, rfl⟩ := Option.map_eq_some_iff.mp hd
      rfl
  · cases h

/-- The statements of a call with the given arguments: the phase it leaves, the tables after
it, and the phase it reaches. -/
inductive Advances (settings : Settings) (db : Database) (tx : Tx) (now : Time)
    (args : SubmitArgs) : Phase → Database → Phase → Prop
  | found (phase) (hphase : phase = .lookup ∨ phase = .fallback) (job)
      (hfound : findExisting db args = some job) :
      Advances settings db tx now args phase db (.returned job)
  | missed (hmissed : findExisting db args = none) :
      Advances settings db tx now args .lookup db .count
  | rejected (hfull : settings.maxInFlightJobsPerUser ≤
        JobRepository.countActiveForUser db args.userId) :
      Advances settings db tx now args .count db .tooManyActiveJobs
  | admitted (hroom : JobRepository.countActiveForUser db args.userId <
        settings.maxInFlightJobsPerUser) :
      Advances settings db tx now args .count db (.insert now tx.began)
  | inserted (now' began job db')
      (hcreate : create settings db { tx with began } args now' = some (db', job)) :
      Advances settings db tx now args (.insert now' began) db' (.returned job)
  | refused (now' began phase)
      (hrefused : create settings db { tx with began } args now' = none)
      (hphase : phase = .fallback ∨ phase = .integrityError) :
      Advances settings db tx now args (.insert now' began) db phase
  | lost (hmissed : findExisting db args = none) :
      Advances settings db tx now args .fallback db .integrityError

lemma advances_of_next {call call' : Submission}
    (h : call.next settings db tx now = some (db', call')) :
    call'.args = call.args ∧
      Advances settings db tx now call.args call.phase db' call'.phase := by
  unfold Submission.next at h
  split at h
  case h_1 hphase =>
      rw [hphase]
      split at h
      · rename_i job hfound
        obtain ⟨rfl, rfl⟩ := Prod.mk.inj (Option.some.inj h)
        exact ⟨rfl, .found .lookup (Or.inl rfl) job hfound⟩
      · rename_i hmissed
        obtain ⟨rfl, rfl⟩ := Prod.mk.inj (Option.some.inj h)
        exact ⟨rfl, .missed hmissed⟩
  case h_2 hphase =>
      rw [hphase]
      split at h
      · rename_i hfull
        obtain ⟨rfl, rfl⟩ := Prod.mk.inj (Option.some.inj h)
        exact ⟨rfl, .rejected hfull⟩
      · rename_i hroom
        obtain ⟨rfl, rfl⟩ := Prod.mk.inj (Option.some.inj h)
        exact ⟨rfl, .admitted (not_le.mp hroom)⟩
  case h_3 now' began hphase =>
      rw [hphase]
      split at h
      · rename_i db'' job hcreate
        obtain ⟨rfl, rfl⟩ := Prod.mk.inj (Option.some.inj h)
        exact ⟨rfl, .inserted now' began job db'' hcreate⟩
      · rename_i hrefused
        split at h
        · obtain ⟨rfl, rfl⟩ := Prod.mk.inj (Option.some.inj h)
          exact ⟨rfl, .refused now' began _ hrefused (Or.inl rfl)⟩
        · obtain ⟨rfl, rfl⟩ := Prod.mk.inj (Option.some.inj h)
          exact ⟨rfl, .refused now' began _ hrefused (Or.inr rfl)⟩
  case h_4 hphase =>
      rw [hphase]
      split at h
      · rename_i job hfound
        obtain ⟨rfl, rfl⟩ := Prod.mk.inj (Option.some.inj h)
        exact ⟨rfl, .found .fallback (Or.inr rfl) job hfound⟩
      · rename_i hmissed
        obtain ⟨rfl, rfl⟩ := Prod.mk.inj (Option.some.inj h)
        exact ⟨rfl, .lost hmissed⟩
  case h_5 | h_6 | h_7 => cases h

/-- A statement of a submission either creates a job or leaves the tables alone. -/
lemma next_cases {call call' : Submission}
    (h : call.next settings db tx now = some (db', call')) :
    db' = db ∨ ∃ now' began job,
      create settings db { tx with began } call.args now' = some (db', job) := by
  obtain ⟨-, hadvances⟩ := advances_of_next h
  generalize call.phase = phase, call'.phase = phase' at hadvances
  cases hadvances with
  | inserted now' began job _ hcreate => exact Or.inr ⟨now', began, job, hcreate⟩
  | found | missed | rejected | admitted | refused | lost => exact Or.inl rfl

lemma addJob_isSome : (addJob db job).isSome ↔
    (job.idempotencyKey.bind (JobRepository.getByIdempotencyKey db job.userId)) = none ∧
      JobRepository.get db job.id = none := by
  unfold addJob
  have hinsert : (db.jobs.insert? job).isSome ↔ JobRepository.get db job.id = none :=
    Table.insert?_isSome
  cases hkey : job.idempotencyKey with
  | none => simp [hinsert]
  | some key =>
      cases hfound : JobRepository.getByIdempotencyKey db job.userId key with
      | none => simp [hinsert, hfound]
      | some twin => simp [hfound]

/-- `_create` succeeds exactly when the constraints let it. -/
lemma create_isSome : (create settings db tx args now).isSome ↔ accepts settings db tx args := by
  simp only [accepts, Bool.and_eq_true, decide_eq_true_eq, Option.isNone_iff_eq_none]
  unfold create
  by_cases hlimit : 1 ≤ args.attemptsLimit settings
  · simp only [hlimit, dif_pos, true_and]
    have hadd : (addJob db (newJob settings args tx.jobId now hlimit)).isSome ↔
        findExisting db args = none ∧ JobRepository.get db tx.jobId = none := addJob_isSome
    cases hjob : addJob db (newJob settings args tx.jobId now hlimit) with
    | none =>
        rw [hjob] at hadd
        have hrefused : ¬ (findExisting db args = none ∧ JobRepository.get db tx.jobId = none) :=
          fun hfree => by cases hadd.mpr hfree
        simp only [Option.bind_none, Option.isSome_none, Bool.false_eq_true, false_iff]
        exact fun h => hrefused h.1
    | some d =>
        have hfree : findExisting db args = none ∧ JobRepository.get db tx.jobId = none :=
          hadd.mp (by rw [hjob]; rfl)
        have houtbox : (JobEventRepository.record d tx tx.jobId .submitted none (some .pending)
            (.submitted args.type args.priority)).dispatchOutbox = db.dispatchOutbox :=
          (addJob_eq_some hjob).2.2
        simp only [Option.bind_some, Option.isSome_map, hfree, true_and]
        rw [DispatchOutboxRepository.add, Option.isSome_map, Table.insert?_isSome]
        exact Eq.congr_left (congrArg (fun t => t.get? tx.outboxId) houtbox)
  · simp [hlimit]

/-! ## A call that runs alone -/

/-- The most statements that a call has left. -/
def Phase.remaining : Phase → ℕ
  | .lookup => 4
  | .count => 3
  | .insert .. => 2
  | .fallback => 1
  | .returned _ | .tooManyActiveJobs | .integrityError => 0

/-- At most `n` statements of a call, one after the other. -/
def Submission.runFor (settings : Settings) (tx : Tx) (now : Time) :
    ℕ → Database → Submission → Database × Submission
  | 0, db, call => (db, call)
  | n + 1, db, call =>
      match call.next settings db tx now with
      | none => (db, call)
      | some (db, call) => runFor settings tx now n db call

/-- A call to its end, with no other transaction between its statements. -/
def Submission.run (settings : Settings) (db : Database) (tx : Tx) (now : Time)
    (call : Submission) : Database × Submission :=
  call.runFor settings tx now call.phase.remaining db

lemma remaining_of_advances {phase phase' : Phase}
    (h : Advances settings db tx now args phase db' phase') :
    phase'.remaining < phase.remaining := by
  cases h with
  | found _ hphase => rcases hphase with rfl | rfl <;> exact Nat.zero_lt_succ _
  | missed | rejected | admitted | inserted | lost => simp [Phase.remaining]
  | refused _ _ _ _ hphase => rcases hphase with rfl | rfl <;> simp [Phase.remaining]

/-- A call has ended exactly when no statement is left. -/
lemma next_eq_none {call : Submission} :
    call.next settings db tx now = none ↔ call.phase.remaining = 0 := by
  constructor
  · intro h
    unfold Submission.next at h
    split at h
    case h_1 | h_2 | h_4 => split at h <;> cases h
    case h_3 =>
      split at h
      · cases h
      · split at h <;> cases h
    case h_5 hphase | h_6 hphase | h_7 hphase =>
      rw [hphase]
      rfl
  · intro h
    cases hnext : call.next settings db tx now with
    | none => rfl
    | some next =>
        obtain ⟨db', call'⟩ := next
        have hless := remaining_of_advances (advances_of_next hnext).2
        omega

/-- A call that runs alone ends. -/
lemma remaining_runFor {n : ℕ} {call : Submission} (h : call.phase.remaining ≤ n) :
    (call.runFor settings tx now n db).2.phase.remaining = 0 := by
  induction n generalizing db call with
  | zero => exact Nat.le_zero.mp h
  | succ n ih =>
      unfold Submission.runFor
      cases hnext : call.next settings db tx now with
      | none => exact next_eq_none.mp hnext
      | some next =>
          obtain ⟨db', call'⟩ := next
          have hless := remaining_of_advances (advances_of_next hnext).2
          exact ih (by omega)

end SubmissionService

end JobOrchestrator
