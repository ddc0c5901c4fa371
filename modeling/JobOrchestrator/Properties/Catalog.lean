import JobOrchestrator.Db.Columns
import JobOrchestrator.Properties.Budget
import JobOrchestrator.Properties.Handlers
import JobOrchestrator.Properties.Results

/-!
# The job catalogue in the system

In the runs of the system a handler may return or raise anything at any time.  Here the handlers do
what the code of the catalogue does with the payload and the number of the attempt that they were
started with.  Then every end of a job has its reason in that code, whatever the workers, the queue
and the sweeps have done in between (`job_explained`), and each job type keeps its promise
(`catalog_outcomes`): a flaky job succeeds only on a later attempt than the ones that it fails on, a
job of type `always_fail` never does, and no type but these and a rate-limited summary fails on its
own account.

A callback of the context can always raise an exception that the code of the handler does not know,
when a statement of the database fails; `execute` has a clause for those.
-/

namespace JobOrchestrator

open ExecutionService TransitionSystem

variable {settings : Settings}

/-- The handler of an execution, on what the execution has read of the job. -/
def Execution.script (settings : Settings) (e : Execution) : Script Dict :=
  JobCatalog.handler e.snapshot.payload ⟨e.jobId.str, e.attemptNumber, settings⟩ e.snapshot.type

/-- The handler of a job in its `n`-th attempt. -/
def Job.script (settings : Settings) (job : Job) (n : ℕ) : Script Dict :=
  JobCatalog.handler job.payload ⟨job.id.str, n, settings⟩ job.type

/-- The exception can leave a handler with the script. -/
def HandlerError.Leaves (script : Script Dict) : HandlerError → Prop
  | .retryable code message => script.ending = .error (.retryable code message)
  | .nonRetryable code message => script.ending = .error (.nonRetryable code message)
  | .unexpected _ => True

/-- The handlers do what their code does. -/
structure RunsHandlers (settings : Settings) (s : System settings.workerConcurrency)
    (l : Label settings.workerConcurrency) : Prop where
  returns : ∀ c e result, s.workers c = .executing e → l = .worker c (.handlerReturns result) →
    (e.script settings).ending = .ok result
  raises : ∀ c e error, s.workers c = .executing e → l = .worker c (.handlerRaises error) →
    error.Leaves (e.script settings)

/-! ## What an execution is about to commit -/

/-- `_handle_retryable` is called with the code and the message. -/
def Script.Retries (script : Script Dict) (code message : String) : Prop :=
  code = "UNEXPECTED_ERROR" ∨ script.ending = .error (.retryable code message)

/-- A stage that an execution with the script can be at. -/
def Stage.Accords (script : Script Dict) : Stage → Prop
  | .deciding code message | .backingOff code message | .finalizing (.retry code message _)
  | .finalizing (.failed code message true) => script.Retries code message
  | .finalizing (.failed code message false) =>
      script.ending = .error (.nonRetryable code message)
  | .finalizing (.succeeded result) => script.ending = .ok result
  | .handler | .finalizing .cancelled | .deadLettering | .returning _ => True

/-! ## Why a job has ended -/

/-- Why a job has failed. -/
inductive Job.Failure (settings : Settings) (job : Job) : Prop
  | leaseExpired (hcode : job.errorCode = some LeaseService.leaseExpiredCode)
      (hexhausted : job.maxAttempts ≤ job.attempts)
  | exhausted (n : ℕ) (code message : String) (hn : 1 ≤ n ∧ n ≤ job.attempts)
      (hexhausted : job.maxAttempts ≤ n) (hcode : job.errorCode = some code)
      (hmessage : job.errorMessage = some message)
      (hretries : (job.script settings n).Retries code message)
  | refused (n : ℕ) (code message : String) (hn : 1 ≤ n ∧ n ≤ job.attempts)
      (hcode : job.errorCode = some code) (hmessage : job.errorMessage = some message)
      (hending : (job.script settings n).ending = .error (.nonRetryable code message))

/-- What a job has come to is what its handler has come to in one of its attempts. -/
structure Job.Explained (settings : Settings) (job : Job) : Prop where
  succeeded : ∀ result, job.result = some result →
    ∃ n, 1 ≤ n ∧ n ≤ job.attempts ∧ (job.script settings n).ending = .ok result
  retrying : job.status = .retrying → ∃ n code message, 1 ≤ n ∧ n < job.maxAttempts ∧
    n ≤ job.attempts ∧ job.errorCode = some code ∧ job.errorMessage = some message ∧
    (job.script settings n).Retries code message
  failed : job.status = .failed → job.Failure settings

/-- The executions of a job follow its handler, and so does its row. -/
structure Scripted (settings : Settings) (life : Life settings.workerConcurrency) : Prop where
  read : ∀ c e job, life.executions c = some e → life.record.row = some job →
    e.script settings = job.script settings e.attemptNumber ∧ 1 ≤ e.attemptNumber
  accords : ∀ c e, life.executions c = some e → e.stage.Accords (e.script settings)
  explained : ∀ job, life.record.row = some job → job.Explained settings

section Step

variable {s s' : System settings.workerConcurrency} {j : UUID}
  {l : Label settings.workerConcurrency} {life' : Life settings.workerConcurrency}
  {c : Coroutine settings.workerConcurrency} {e : Execution} {job job' : Job} {stage : Stage}

lemma script_congr (h : job'.request = job.request) (n : ℕ) :
    job'.script settings n = job.script settings n := by
  have hpayload : job'.payload = job.payload := congrArg JobRequest.payload h
  have hid : job'.id = job.id := congrArg JobRequest.id h
  have htype : job'.type = job.type := congrArg JobRequest.type h
  rw [Job.script, hpayload, hid, htype, Job.script]

lemma accords_stage {script : Script Dict} {error : HandlerError} (h : error.Leaves script) :
    error.stage.Accords script := by
  cases error with
  | retryable code message => exact Or.inr h
  | nonRetryable code message => exact h
  | unexpected message => exact Or.inl rfl

lemma accords_afterFinalize {script : Script Dict} (hit : Bool) (outcome : Outcome) :
    (Stage.afterFinalize hit outcome).Accords script := by
  unfold Stage.afterFinalize
  split
  · cases hit <;> exact trivial
  · exact trivial

/-- An execution leaves its handler by what its code does, or by a cancellation. -/
lemma accords_of_resumes {action : WorkerAction} (hC : RunsHandlers settings s (.worker c action))
    (he : s.workers c = .executing e) (h : Resumes s.db e action stage)
    (hstage : e.stage.Accords (e.script settings)) : stage.Accords (e.script settings) := by
  cases h with
  | cancelled | failed => exact trivial
  | returned result => exact hC.returns c e result he rfl
  | raised error => exact accords_stage (hC.raises c e error he rfl)
  | read code message hdeciding =>
      rw [hdeciding] at hstage
      rcases afterRead_cases e code message (cancellationRequested s.db e.jobId) with h | h | h <;>
        rw [h]
      · exact trivial
      · exact hstage
      · exact hstage
  | backedOff code message now backoff hbacking =>
      rw [hbacking] at hstage
      exact hstage

/-- An execution that is at another open stage than before has gone on to it by the step. -/
lemma resumes_of_step (hstep : s.step settings l = some s') (he : s.workers c = .executing e)
    (he' : s'.workers c = .executing { e with stage }) (hopen : stage.isOpen)
    (hstage : stage ≠ .handler) (hne : e.stage ≠ stage) :
    ∃ action, l = .worker c action ∧ Resumes s.db e action stage := by
  rcases execution_of_step hstep he' with ⟨e₁, hcontinues⟩ | ⟨tx, now, -, hhandler, -⟩
  · obtain rfl := Consumer.executing.inj (he.symm.trans hcontinues.before)
    rcases hcontinues.stage with hsame | hresumes | hclosed
    · exact absurd hsame hne
    · exact hresumes
    · exact absurd hopen (Bool.eq_false_iff.mp hclosed)
  · exact absurd hhandler hstage

lemma accords_of_step (hC : RunsHandlers settings s l) (hreach : (orchestrator settings).Reachable
    (RunsHandlers settings) s) (hstep : s.step settings l = some s')
    (h : Scripted settings (s.life j)) {e' : Execution} (he' : (s'.life j).executions c = some e') :
    e'.stage.Accords (e'.script settings) := by
  cases execution_of_jobStep (jobStep_of_reachable hreach hstep j) he' with
  | kept _ he => exact h.accords c _ he
  | heartbeatFailed e he => exact h.accords c e he
  | started => exact trivial
  | finalized e outcome | superseded e outcome => exact accords_afterFinalize _ outcome
  | decided e stage he =>
      obtain ⟨hworker, -⟩ := (s.life_executions j).mp he
      obtain ⟨hworker', -⟩ := (s'.life_executions j).mp he'
      have hbefore : e.stage.Accords (e.script settings) := h.accords c e he
      have hafter : stage.Accords (e.script settings) := by
        by_cases hquiet : stage.isOpen ∧ stage ≠ .handler ∧ e.stage ≠ stage
        · obtain ⟨hopen, hhandler, hne⟩ := hquiet
          obtain ⟨action, rfl, hresumes⟩ :=
            resumes_of_step hstep hworker hworker' hopen hhandler hne
          exact accords_of_resumes hC hworker hresumes hbefore
        · simp only [not_and, not_not] at hquiet
          cases stage with
          | handler | deadLettering | returning => exact trivial
          | deciding | backingOff | finalizing =>
              rw [← hquiet rfl (by simp)]
              exact hbefore
      exact hafter

/-- A statement that leaves the result, and the job in no status that needs a reason. -/
lemma Job.Explained.of_quiet (h : job.Explained settings) (hrequest : job'.request = job.request)
    (hresult : job'.result = job.result) (hattempts : job.attempts ≤ job'.attempts)
    (hretrying : job'.status ≠ .retrying) (hfailed : job'.status ≠ .failed) :
    job'.Explained settings where
  succeeded result hsome := by
    obtain ⟨n, hpositive, hle, hending⟩ := h.succeeded result (hresult ▸ hsome)
    refine ⟨n, hpositive, hle.trans hattempts, ?_⟩
    rwa [script_congr hrequest]
  retrying hstatus := absurd hstatus hretrying
  failed hstatus := absurd hstatus hfailed

/-- The row that a finalizing transaction leaves. -/
lemma explained_of_finalize {outcome : Outcome} {now : Time} (hexplained : job.Explained settings)
    (haccords : (Stage.finalizing outcome).Accords (job.script settings e.attemptNumber))
    (hn : 1 ≤ e.attemptNumber ∧ e.attemptNumber ≤ job.attempts)
    (hspare : (Stage.finalizing outcome).retries → e.attemptNumber < job.maxAttempts)
    (hlast : ∀ code message, outcome = .failed code message true →
      job.maxAttempts ≤ e.attemptNumber) :
    ((outcome.finalizer.update c.workerId now).values job).Explained settings := by
  cases outcome with
  | succeeded result =>
      refine ⟨fun result' hsome => ?_, fun h => (by cases h), fun h => (by cases h)⟩
      obtain rfl := Option.some.inj hsome
      exact ⟨e.attemptNumber, hn.1, hn.2, haccords⟩
  | failed code message deadLettered =>
      refine ⟨hexplained.succeeded, fun h => (by cases h), fun _ => ?_⟩
      cases deadLettered with
      | true =>
          exact .exhausted e.attemptNumber code message hn (hlast code message rfl) rfl rfl haccords
      | false => exact .refused e.attemptNumber code message hn rfl rfl haccords
  | retry code message nextAttemptAt =>
      exact ⟨hexplained.succeeded, fun _ => ⟨e.attemptNumber, code, message, hn.1, hspare rfl, hn.2,
        rfl, rfl, haccords⟩, fun h => (by cases h)⟩
  | cancelled =>
      exact hexplained.of_quiet rfl rfl le_rfl (fun h => by cases h) (fun h => by cases h)

lemma explained_of_issues {u : JobUpdate} (hu : Issues s j l u) (h : JobStep s j l life')
    (hlease : LeaseSound (s.life j)) (hsparing : Sparing (s.life j))
    (hletters : DeadLetterSound (s.life j)) (hscripted : Scripted settings (s.life j))
    (hrow : (s.db.record j).row = some job) (hguard : u.guard job)
    (hvalues : life'.record.row = some (u.values job)) : (u.values job).Explained settings := by
  have hexplained := hscripted.explained job hrow
  cases hu with
  | finalize e outcome he hstage =>
      obtain ⟨hscript, hpositive⟩ := hscripted.read _ e job he hrow
      obtain ⟨job₁, hrow₁, hle, -⟩ := hlease _ e he
      obtain rfl := Option.some.inj (hrow.symm.trans hrow₁)
      have hlimit := hletters.snapshot _ e he job hrow
      have haccords := hscripted.accords _ e he
      rw [hscript, hstage] at haccords
      refine explained_of_finalize hexplained haccords ⟨hpositive, hle⟩ ?_ ?_
      · rw [← hlimit, ← hstage]
        exact hsparing.spare _ e he
      · rintro code message rfl
        rw [← hlimit]
        exact hletters.decided _ e code message he hstage
  | failExpiredLease =>
      have hstatus := JobRepository.failExpiredLease_guard.mp hguard
      have hexhausted : job.maxAttempts ≤ job.attempts :=
        exhausted_of_reapExpired h hrow hstatus hvalues rfl
      exact ⟨hexplained.succeeded, fun h => (by cases h), fun _ => .leaseExpired rfl hexhausted⟩
  | claimForExecution =>
      exact hexplained.of_quiet rfl rfl (Nat.le_succ _) (fun h => by cases h)
        (fun h => by cases h)
  | heartbeat =>
      have hstatus := (JobRepository.heartbeat_guard.mp hguard).2
      exact hexplained.of_quiet rfl rfl le_rfl (by simp [JobRepository.heartbeat, hstatus])
        (by simp [JobRepository.heartbeat, hstatus])
  | updateProgress =>
      have hstatus := (JobRepository.updateProgress_guard.mp hguard).2
      refine hexplained.of_quiet rfl rfl le_rfl ?_ ?_ <;>
        rcases hstatus with hstatus | hstatus <;> simp [JobRepository.updateProgress, hstatus]
  | markRedispatched =>
      have hstatus := JobRepository.markRedispatched_guard.mp hguard
      exact hexplained.of_quiet rfl rfl le_rfl (by simp [JobRepository.markRedispatched, hstatus])
        (by simp [JobRepository.markRedispatched, hstatus])
  | requestRunningCancellation | cancelInactive | markQueued | moveRetryToQueued
  | requeueExpiredLease | expire =>
      exact hexplained.of_quiet rfl rfl le_rfl (fun h => by cases h)
        (fun h => by cases h)

lemma scripted_of_step (hC : RunsHandlers settings s l)
    (hreach : (orchestrator settings).Reachable (RunsHandlers settings) s)
    (hstep : s.step settings l = some s') (h : Scripted settings (s.life j)) :
    Scripted settings (s'.life j) where
  read c e' job' he' hrow' := by
    have hjob := jobStep_of_reachable hreach hstep j
    have hlease := leaseSound_of_reachable hreach j
    -- the row of an execution keeps what it was asked for
    have hkept : ∀ {job}, (s.db.record j).row = some job → job'.request = job.request := by
      intro job hrow
      rcases row_of_jobStep_of_row hjob hrow with hsame | ⟨u, -, -, hvalues⟩
      · rw [Option.some.inj (hrow'.symm.trans hsame)]
      · rw [Option.some.inj (hrow'.symm.trans hvalues)]
        exact u.keeps_request job
    have hread : ∀ {e}, (s.life j).executions c = some e →
        e.script settings = job'.script settings e.attemptNumber ∧ 1 ≤ e.attemptNumber := by
      intro e he
      obtain ⟨job, hrow, -⟩ := hlease c e he
      rw [script_congr (hkept hrow)]
      exact h.read c e job he hrow
    cases execution_of_jobStep hjob he' with
    | kept _ he => exact hread he
    | heartbeatFailed e he | decided e stage he | finalized e outcome tx now job he
    | superseded e outcome now he =>
        have hbefore := hread he
        exact hbefore
    | started tx now job hl hrow hrecord =>
        refine ⟨?_, Nat.succ_le_succ (Nat.zero_le _)⟩
        have hid : job.id = j := (Table.get?_eq_some.mp hrow).2
        rw [script_congr (hkept hrow), Execution.script, Job.script, hid]
        rfl
  accords c e' he' := accords_of_step hC hreach hstep h he'
  explained job' hrow' := by
    have hjob := jobStep_of_reachable hreach hstep j
    rcases row_of_jobStep hjob with
      hsame | ⟨args, now, hlimit, -, hnew⟩ | ⟨u, job, hu, hrow, hguard, hvalues⟩
    · exact h.explained job' (hsame.symm.trans hrow')
    · obtain rfl := Option.some.inj (hnew.symm.trans hrow')
      exact ⟨fun _ hsome => (by cases hsome), fun h => (by cases h), fun h => (by cases h)⟩
    · obtain rfl := Option.some.inj (hvalues.symm.trans hrow')
      exact explained_of_issues hu hjob (leaseSound_of_reachable hreach j)
        (sparing_of_reachable hreach j) (deadLetterSound_of_reachable hreach j) h hrow hguard
        hvalues

lemma scripted_of_reachable (h : (orchestrator settings).Reachable (RunsHandlers settings) s)
    (j : UUID) : Scripted settings (s.life j) := by
  refine h.invariant (I := fun s => ∀ j, Scripted settings (s.life j)) ?_ ?_ j
  · rintro s ⟨clock, rfl⟩ j
    exact ⟨fun c e job he => (by cases he), fun c e he => (by cases he),
      fun job hrow => (by cases hrow)⟩
  · intro s l s' hreach hC hstep hbefore j
    exact scripted_of_step hC hreach hstep (hbefore j)

end Step

/-! ## A flaky job -/

section Quiet

variable {s s' : System settings.workerConcurrency} {l : Label settings.workerConcurrency}
  {ls : List (Label settings.workerConcurrency)} {c : Coroutine settings.workerConcurrency}
  {e : Execution}

/-- No handler ends at the step. -/
def Label.quiet {concurrency : ℕ} : Label concurrency → Bool
  | .worker _ (.handlerReturns _) | .worker _ (.handlerRaises _) => false
  | _ => true

lemma runsHandlers_of_quiet (h : l.quiet) : RunsHandlers settings s l := by
  constructor <;> rintro c e x - rfl <;> cases h

lemma runsHandlers_of_returns {result : Dict} (he : s.workers c = .executing e)
    (h : (e.script settings).ending = .ok result) :
    RunsHandlers settings s (.worker c (.handlerReturns result)) := by
  refine ⟨fun d f result' hf hlabel => ?_, fun d f error hf hlabel => by cases hlabel⟩
  cases hlabel
  cases he.symm.trans hf
  exact h

lemma runsHandlers_of_raises {error : HandlerError} (he : s.workers c = .executing e)
    (h : error.Leaves (e.script settings)) :
    RunsHandlers settings s (.worker c (.handlerRaises error)) := by
  refine ⟨fun d f result hf hlabel => (by cases hlabel), fun d f error' hf hlabel => ?_⟩
  cases hlabel
  cases he.symm.trans hf
  exact h

/-- A run in which at most its first step ends a handler. -/
lemma steps_of_run_quiet (hC : RunsHandlers settings s l) (hquiet : ∀ l ∈ ls, l.quiet)
    (hrun : (orchestrator settings).run s (l :: ls) = some s') :
    (orchestrator settings).Steps (RunsHandlers settings) s s' := by
  rw [run, List.foldlM_cons] at hrun
  obtain ⟨t, ht, hrest⟩ := Option.bind_eq_some_iff.mp hrun
  have halong : (orchestrator settings).Along (fun s l _ => RunsHandlers settings s l) t ls :=
    along_of_forall fun l hl _ _ => runsHandlers_of_quiet (hquiet l hl)
  exact (Steps.single hC ht).trans (halong.steps hrest)

end Quiet

namespace Scenario

/-- A flaky job that fails once is submitted, dispatched and claimed. -/
def flakyClaimed : List (Label 4) :=
  [.submit 0 ⟨"user", .flaky, [("fail_times", .int 1)], .normal, some 2, none⟩,
    .submission 0 (tx 1) 0, .submission 0 (tx 1) 0] ++ dispatched ++ claim first 3 0

def transientFailure : HandlerError :=
  .retryable "TRANSIENT_FAILURE" "flaky job failing on attempt 1"

/-- The retry that is scheduled is promoted and claimed. -/
def retried : List (Label 4) :=
  [.worker first .readCancellation, .worker first (.computeBackoff 0 2000000), finalize first 4 0,
    .worker first .returns, .tick 2000000, .sweep .promoteDue (tx 5) [] 1 2000000,
    .publish (.publish jobId .normal)] ++ claim first 6 2000000

def secondAttempt : Dict := [("succeeded_on_attempt", .int 2)]

/-- The handler of the execution fails for the first time. -/
def failsOnce (e : Execution) : Bool :=
  match (e.script {}).ending with
  | .error error =>
      error = .retryable "TRANSIENT_FAILURE" "flaky job failing on attempt 1"
  | .ok _ => false

/-- The handler of the execution returns in the second attempt. -/
def returnsLater (e : Execution) : Bool :=
  match (e.script {}).ending with
  | .ok [(key, .int n)] => key = "succeeded_on_attempt" && n = 2
  | _ => false

lemma leaves_of_failsOnce {e : Execution} (h : failsOnce e) :
    transientFailure.Leaves (e.script {}) := by
  unfold failsOnce at h
  split at h
  · rename_i error hending
    exact hending.trans (congrArg Except.error (of_decide_eq_true h))
  · cases h

lemma ending_of_returnsLater {e : Execution} (h : returnsLater e) :
    (e.script {}).ending = .ok secondAttempt := by
  unfold returnsLater at h
  split at h
  · rename_i key n hending
    simp only [Bool.and_eq_true, decide_eq_true_eq] at h
    rw [hending, h.1, h.2, secondAttempt]
  · cases h

/-- The run in which the handler fails once and then returns. -/
lemma flaky_run : ((orchestrator {}).run (System.start 4 0) flakyClaimed).any fun s =>
    ((s.life jobId).executions first).any failsOnce &&
      ((orchestrator {}).run s (.worker first (.handlerRaises transientFailure) :: retried)).any
        fun t => ((t.life jobId).executions first).any returnsLater &&
          ((orchestrator {}).run t [.worker first (.handlerReturns secondAttempt),
            finalize first 7 2000000]).any fun u => u.status jobId = some .succeeded := by
  decide +kernel

/-- In this run the handlers do what their code does. -/
lemma exists_flaky : ∃ (s : System 4) (job : Job),
    (orchestrator {}).Reachable (RunsHandlers {}) s ∧ s.db.jobs.get? jobId = some job ∧
      job.status = .succeeded := by
  have hrun := flaky_run
  simp only [Option.any_eq_true, Bool.and_eq_true, decide_eq_true_eq] at hrun
  obtain ⟨s, hs, ⟨e, he, hfails⟩, t, ht, ⟨e', he', hreturns⟩, u, hu, hsucceeded⟩ := hrun
  have hclaimed : (orchestrator {}).Steps (RunsHandlers {}) (System.start 4 0) s :=
    steps_of_run_quiet (runsHandlers_of_quiet rfl) (by decide) hs
  have hretried : (orchestrator {}).Steps (RunsHandlers {}) s t :=
    steps_of_run_quiet (runsHandlers_of_raises ((s.life_executions _).mp he).1
      (leaves_of_failsOnce hfails)) (by decide) ht
  have hfinished : (orchestrator {}).Steps (RunsHandlers {}) t u :=
    steps_of_run_quiet (runsHandlers_of_returns ((t.life_executions _).mp he').1
      (ending_of_returnsLater hreturns)) (by decide) hu
  obtain ⟨job, hrow, hstatus⟩ := Option.map_eq_some_iff.mp hsucceeded
  exact ⟨u, job, ⟨_, ⟨0, rfl⟩, (hclaimed.trans hretried).trans hfinished⟩, hrow, hstatus⟩

end Scenario

/-- **Every end has its reason.**  In every run in which the handlers do what their code does, the
result of a job is what its handler returns in one of the attempts that were started; a job waits
for a retry only if its handler, or a callback, has raised before the last attempt; and it has
failed because a lease expired after the last attempt, because of such an exception in the last
attempt or a later one, or because its handler has refused the job. -/
theorem job_explained {s : System settings.workerConcurrency} {j : UUID} {job : Job}
    (h : (orchestrator settings).Reachable (RunsHandlers settings) s)
    (hrow : s.db.jobs.get? j = some job) : job.Explained settings :=
  (scripted_of_reachable h j).explained job hrow

/-- The second attempt explains the job. -/
theorem job_explained_flaky : ∃ (s : System 4) (job : Job),
    s.db.jobs.get? Scenario.jobId = some job ∧ job.status = .succeeded ∧ job.Explained {} := by
  obtain ⟨s, job, hreach, hrow, hstatus⟩ := Scenario.exists_flaky
  exact ⟨s, job, hrow, hstatus, job_explained hreach hrow⟩

/-! ## The endings of the five handlers -/

namespace Script

variable {α β : Type} {x : Script α} {f : α → Script β}

lemma ending_bind_eq_ok {b : β} (h : (x >>= f).ending = .ok b) :
    ∃ a, x.ending = .ok a ∧ (f a).ending = .ok b := by
  cases hx : x.ending with
  | ok a =>
      rw [bind_of_ok hx] at h
      exact ⟨a, rfl, h⟩
  | error e =>
      change (Script.bind x f).ending = _ at h
      rw [Script.bind, hx] at h
      cases h

lemma ending_bind_eq_error {e : HandlerException} (h : (x >>= f).ending = .error e) :
    x.ending = .error e ∨ ∃ a, x.ending = .ok a ∧ (f a).ending = .error e := by
  cases hx : x.ending with
  | ok a =>
      rw [bind_of_ok hx] at h
      exact Or.inr ⟨a, rfl, h⟩
  | error e' =>
      change (Script.bind x f).ending = _ at h
      rw [Script.bind, hx] at h
      obtain rfl := Except.error.inj h
      exact Or.inl rfl

end Script

namespace JobCatalog

open Script PyNumber

section Endings

variable {payload result : Dict} {context : ExecutionContext} {e : HandlerException} {key : String}

lemma unexpected_of_item (h : payload.item key = .error e) : e.expected = false := by
  unfold Dict.item at h
  cases hget : payload.get key with
  | none =>
      rw [hget] at h
      obtain rfl := Except.error.inj h
      rfl
  | some v =>
      rw [hget] at h
      cases h

/-- Reading a parameter raises nothing that `execute` expects. -/
lemma unexpected_of_read {α : Type} {f : Json → Except ConversionError α}
    (h : (payload.item key).bind (fun v => converted (f v)) = .error e) : e.expected = false := by
  cases hitem : payload.item key with
  | error e' =>
      rw [hitem] at h
      obtain rfl := Except.error.inj h
      exact unexpected_of_item hitem
  | ok v =>
      rw [hitem] at h
      change converted (f v) = _ at h
      cases hf : f v with
      | ok a =>
          rw [hf] at h
          cases h
      | error e' =>
          rw [hf] at h
          obtain rfl := Except.error.inj h
          rfl

lemma unexpected_of_divide {x : PyFloat} {n : ℤ} (h : divideByInt x n = .error e) :
    e.expected = false := by
  unfold divideByInt at h
  cases hn : PyFloat.ofInt n with
  | error e' =>
      rw [hn] at h
      obtain rfl := Except.error.inj h
      rfl
  | ok divisor =>
      rw [hn] at h
      change (if divisor.isZero then _ else _) = _ at h
      split at h
      · obtain rfl := Except.error.inj h
        rfl
      · cases h

lemma handleSleep_eq_ok (h : (handleSleep payload).ending = .ok result) : ∃ duration steps,
    (payload.item "duration_seconds").bind (converted ·.pyFloat) = .ok duration ∧
    (payload.item "steps").bind (converted ·.pyInt) = .ok steps ∧
    result = [("slept_seconds", .float duration), ("steps", .int steps)] := by
  obtain ⟨duration, hduration, h⟩ := ending_bind_eq_ok h
  obtain ⟨steps, hsteps, h⟩ := ending_bind_eq_ok h
  obtain ⟨stepSeconds, -, h⟩ := ending_bind_eq_ok h
  obtain ⟨-, -, h⟩ := ending_bind_eq_ok h
  exact ⟨duration, steps, hduration, hsteps, (Except.ok.inj h).symm⟩

lemma unexpected_of_handleSleep (h : (handleSleep payload).ending = .error e) :
    e.expected = false := by
  rcases ending_bind_eq_error h with h | ⟨duration, -, h⟩
  · exact unexpected_of_read h
  rcases ending_bind_eq_error h with h | ⟨steps, -, h⟩
  · exact unexpected_of_read h
  rcases ending_bind_eq_error h with h | ⟨stepSeconds, -, h⟩
  · exact unexpected_of_divide h
  rw [runSteps_eq, bind_of_ok rfl] at h
  cases h

lemma handleReport_eq_ok (h : (handleReport payload context).ending = .ok result) : ∃ pages,
    (payload.item "pages").bind (converted ·.pyInt) = .ok pages ∧
    result = [("report_ref", .str ("report://" ++ context.jobId)), ("pages", .int pages)] := by
  obtain ⟨pages, hpages, h⟩ := ending_bind_eq_ok h
  obtain ⟨-, -, h⟩ := ending_bind_eq_ok h
  exact ⟨pages, hpages, (Except.ok.inj h).symm⟩

lemma unexpected_of_handleReport (h : (handleReport payload context).ending = .error e) :
    e.expected = false := by
  rcases ending_bind_eq_error h with h | ⟨pages, -, h⟩
  · exact unexpected_of_read h
  rw [runSteps_eq, bind_of_ok rfl] at h
  cases h

lemma handleFlaky_eq_ok (h : (handleFlaky payload context).ending = .ok result) : ∃ failTimes,
    (payload.item "fail_times").bind (converted ·.pyInt) = .ok failTimes ∧
    failTimes < context.attempt ∧ result = [("succeeded_on_attempt", .int context.attempt)] := by
  obtain ⟨failTimes, hfail, h⟩ := ending_bind_eq_ok h
  obtain ⟨-, -, h⟩ := ending_bind_eq_ok h
  split at h
  · cases h
  · exact ⟨failTimes, hfail, by omega, (Except.ok.inj h).symm⟩

lemma handleFlaky_eq_error (h : (handleFlaky payload context).ending = .error e)
    (hexpected : e.expected) : ∃ failTimes,
    (payload.item "fail_times").bind (converted ·.pyInt) = .ok failTimes ∧
    (context.attempt : ℤ) ≤ failTimes ∧ ∃ message, e = .retryable "TRANSIENT_FAILURE" message := by
  rcases ending_bind_eq_error h with h | ⟨failTimes, hfail, h⟩
  · rw [unexpected_of_read h] at hexpected
    cases hexpected
  rcases ending_bind_eq_error h with h | ⟨-, -, h⟩
  · cases h
  split at h
  · exact ⟨failTimes, hfail, by assumption, _, (Except.error.inj h).symm⟩
  · cases h

/-- What a summary says of its prompt. -/
def summaryOf (prompt : Json) : Except HandlerException String :=
  if prompt.truthy then
    prompt.len.map fun length => "summary of " ++ toString length ++ " character prompt"
  else .ok "summary of empty prompt"

lemma handleLlmSummary_eq_ok (h : (handleLlmSummary payload context).ending = .ok result) :
    ∃ tokens limited prompt summary,
      (payload.item "tokens").bind (converted ·.pyInt) = .ok tokens ∧
      payload.item "simulate_rate_limit" = .ok limited ∧
      (limited.truthy → context.attempt ≠ 1) ∧ payload.item "prompt" = .ok prompt ∧
      summaryOf prompt = .ok summary ∧
      result = [("summary", .str summary), ("tokens_used", .int tokens)] := by
  obtain ⟨tokens, htokens, h⟩ := ending_bind_eq_ok h
  obtain ⟨limited, hlimited, h⟩ := ending_bind_eq_ok h
  split at h
  · cases h
  · rename_i hunlimited
    obtain ⟨-, -, h⟩ := ending_bind_eq_ok h
    obtain ⟨prompt, hprompt, h⟩ := ending_bind_eq_ok h
    simp only [Bool.and_eq_true, decide_eq_true_eq, not_and] at hunlimited
    dsimp only at h
    split at h
    · rename_i htruthy
      obtain ⟨length, hlength, h⟩ := ending_bind_eq_ok h
      have hlength : prompt.len = .ok length := hlength
      refine ⟨tokens, limited, prompt, _, htokens, hlimited, hunlimited, hprompt, ?_,
        (Except.ok.inj h).symm⟩
      rw [summaryOf, if_pos htruthy, hlength]
      rfl
    · rename_i htruthy
      exact ⟨tokens, limited, prompt, _, htokens, hlimited, hunlimited, hprompt, if_neg htruthy,
        (Except.ok.inj h).symm⟩

lemma unexpected_of_len {v : Json} (h : v.len = .error e) : e.expected = false := by
  cases v <;> cases h <;> rfl

lemma handleLlmSummary_eq_error (h : (handleLlmSummary payload context).ending = .error e)
    (hexpected : e.expected) : ∃ limited, payload.item "simulate_rate_limit" = .ok limited ∧
      limited.truthy ∧ context.attempt = 1 ∧
      ∃ message, e = .retryable "PROVIDER_RATE_LIMIT" message := by
  rcases ending_bind_eq_error h with h | ⟨tokens, -, h⟩
  · rw [unexpected_of_read h] at hexpected
    cases hexpected
  rcases ending_bind_eq_error h with h | ⟨limited, hlimited, h⟩
  · rw [unexpected_of_item h] at hexpected
    cases hexpected
  split at h
  · rename_i hfirst
    simp only [Bool.and_eq_true, decide_eq_true_eq] at hfirst
    exact ⟨limited, hlimited, hfirst.1, hfirst.2, _, (Except.error.inj h).symm⟩
  · rw [runSteps_eq, bind_of_ok rfl] at h
    rcases ending_bind_eq_error h with h | ⟨prompt, -, h⟩
    · rw [unexpected_of_item h] at hexpected
      cases hexpected
    dsimp only at h
    split at h
    · rcases ending_bind_eq_error h with h | ⟨length, -, h⟩
      · rw [unexpected_of_len h] at hexpected
        cases hexpected
      · cases h
    · cases h

end Endings

end JobCatalog

/-! ## What the job types promise -/

section Types

open JobCatalog PyNumber

/-- What a job that has succeeded has for a result, by its type. -/
inductive Job.Produces (job : Job) : Dict → Prop
  | sleep (duration steps) (htype : job.type = .sleep)
      (hduration : (job.payload.item "duration_seconds").bind (converted ·.pyFloat) = .ok duration)
      (hsteps : (job.payload.item "steps").bind (converted ·.pyInt) = .ok steps) :
      job.Produces [("slept_seconds", .float duration), ("steps", .int steps)]
  | report (pages) (htype : job.type = .report)
      (hpages : (job.payload.item "pages").bind (converted ·.pyInt) = .ok pages) :
      job.Produces [("report_ref", .str ("report://" ++ job.id.str)), ("pages", .int pages)]
  | flaky (failTimes) (n : ℕ) (htype : job.type = .flaky)
      (hfail : (job.payload.item "fail_times").bind (converted ·.pyInt) = .ok failTimes)
      (hlater : failTimes < n) (hn : 1 ≤ n ∧ n ≤ job.attempts) :
      job.Produces [("succeeded_on_attempt", .int n)]
  | llmSummary (tokens limited prompt summary) (htype : job.type = .llmSummary)
      (htokens : (job.payload.item "tokens").bind (converted ·.pyInt) = .ok tokens)
      (hlimited : job.payload.item "simulate_rate_limit" = .ok limited)
      (hlater : limited.truthy → 2 ≤ job.attempts)
      (hprompt : job.payload.item "prompt" = .ok prompt)
      (hsummary : summaryOf prompt = .ok summary) :
      job.Produces [("summary", .str summary), ("tokens_used", .int tokens)]

/-- The error codes that a job can fail with, and when. -/
inductive Job.FailsWith (job : Job) : String → Prop
  | leaseExpired (hexhausted : job.maxAttempts ≤ job.attempts) :
      job.FailsWith LeaseService.leaseExpiredCode
  | unexpected (hexhausted : job.maxAttempts ≤ job.attempts) : job.FailsWith "UNEXPECTED_ERROR"
  | invalidInput (htype : job.type = .alwaysFail) : job.FailsWith "INVALID_INPUT"
  | transientFailure (failTimes) (htype : job.type = .flaky)
      (hfail : (job.payload.item "fail_times").bind (converted ·.pyInt) = .ok failTimes)
      (hexhausted : (job.maxAttempts : ℤ) ≤ failTimes) : job.FailsWith "TRANSIENT_FAILURE"
  | rateLimited (limited) (htype : job.type = .llmSummary)
      (hlimited : job.payload.item "simulate_rate_limit" = .ok limited) (htruthy : limited.truthy)
      (hsingle : job.maxAttempts = 1) : job.FailsWith "PROVIDER_RATE_LIMIT"

variable {s : System settings.workerConcurrency} {j : UUID} {job : Job} {n : ℕ}

lemma produces_of_script {result : Dict} (h : (job.script settings n).ending = .ok result)
    (hn : 1 ≤ n ∧ n ≤ job.attempts) : job.Produces result := by
  unfold Job.script at h
  cases htype : job.type with
  | sleep =>
      rw [htype] at h
      obtain ⟨duration, steps, hduration, hsteps, rfl⟩ := handleSleep_eq_ok h
      exact .sleep duration steps htype hduration hsteps
  | report =>
      rw [htype] at h
      obtain ⟨pages, hpages, rfl⟩ := handleReport_eq_ok h
      exact .report pages htype hpages
  | flaky =>
      rw [htype] at h
      obtain ⟨failTimes, hfail, hlater, rfl⟩ := handleFlaky_eq_ok h
      exact .flaky failTimes n htype hfail hlater hn
  | alwaysFail =>
      rw [htype] at h
      cases h
  | llmSummary =>
      rw [htype] at h
      obtain ⟨tokens, limited, prompt, summary, htokens, hlimited, hlater, hprompt, hsummary, rfl⟩ :=
        handleLlmSummary_eq_ok h
      refine .llmSummary tokens limited prompt summary htype htokens hlimited (fun htruthy => ?_)
        hprompt hsummary
      have hne : n ≠ 1 := hlater htruthy
      omega

/-- The handlers that raise an exception of their own. -/
lemma failsWith_of_script {code message : String}
    (h : (job.script settings n).ending = .error (.retryable code message))
    (hexhausted : job.maxAttempts ≤ n) : job.FailsWith code := by
  unfold Job.script at h
  cases htype : job.type with
  | sleep =>
      rw [htype] at h
      cases unexpected_of_handleSleep h
  | report =>
      rw [htype] at h
      cases unexpected_of_handleReport h
  | flaky =>
      rw [htype] at h
      obtain ⟨failTimes, hfail, hle, message', heq⟩ := handleFlaky_eq_error h rfl
      cases heq
      exact .transientFailure failTimes htype hfail (le_trans (by exact_mod_cast hexhausted) hle)
  | alwaysFail =>
      rw [htype] at h
      cases h
  | llmSummary =>
      rw [htype] at h
      obtain ⟨limited, hlimited, htruthy, hfirst, message', heq⟩ := handleLlmSummary_eq_error h rfl
      cases heq
      have hsingle : n = 1 := hfirst
      have hpositive := job.maxAttempts_positive
      exact .rateLimited limited htype hlimited htruthy (by omega)

lemma failsWith_of_refused {code message : String}
    (h : (job.script settings n).ending = .error (.nonRetryable code message)) :
    job.FailsWith code := by
  unfold Job.script at h
  cases htype : job.type with
  | sleep =>
      rw [htype] at h
      cases unexpected_of_handleSleep h
  | report =>
      rw [htype] at h
      cases unexpected_of_handleReport h
  | flaky =>
      rw [htype] at h
      obtain ⟨_, _, _, _, heq⟩ := handleFlaky_eq_error h rfl
      cases heq
  | alwaysFail =>
      rw [htype] at h
      cases h
      exact .invalidInput htype
  | llmSummary =>
      rw [htype] at h
      obtain ⟨_, _, _, _, _, heq⟩ := handleLlmSummary_eq_error h rfl
      cases heq

/-- **Each job type keeps its promise.**  In every run in which the handlers do what their code
does, a job that has succeeded has the result that its type promises for its payload, and a job that
has failed has an error code that its type and its payload allow. -/
theorem catalog_outcomes (h : (orchestrator settings).Reachable (RunsHandlers settings) s)
    (hrow : s.db.jobs.get? j = some job) :
    (job.status = .succeeded → ∃ result, job.result = some result ∧ job.Produces result) ∧
      (job.status = .failed → ∃ code, job.errorCode = some code ∧ job.FailsWith code) := by
  have hexplained := (scripted_of_reachable h j).explained job hrow
  constructor
  · intro hsucceeded
    have hcolumns := columnsFollow_of_reachable h j job hrow
    obtain ⟨result, hresult⟩ := Option.isSome_iff_exists.mp (hcolumns.resulted.mpr hsucceeded)
    obtain ⟨n, hpositive, hle, hending⟩ := hexplained.succeeded result hresult
    exact ⟨result, hresult, produces_of_script hending ⟨hpositive, hle⟩⟩
  · intro hfailed
    cases hexplained.failed hfailed with
    | leaseExpired hcode hexhausted => exact ⟨_, hcode, .leaseExpired hexhausted⟩
    | exhausted n code message hn hexhausted hcode hmessage hretries =>
        refine ⟨code, hcode, ?_⟩
        rcases hretries with rfl | hending
        · exact .unexpected (hexhausted.trans hn.2)
        · exact failsWith_of_script hending hexhausted
    | refused n code message hn hcode hmessage hending =>
        exact ⟨code, hcode, failsWith_of_refused hending⟩

/-- The result of the flaky job. -/
theorem catalog_outcomes_flaky : ∃ (s : System 4) (job : Job) (result : Dict),
    s.db.jobs.get? Scenario.jobId = some job ∧ job.result = some result ∧ job.Produces result := by
  obtain ⟨s, job, hreach, hrow, hstatus⟩ := Scenario.exists_flaky
  obtain ⟨result, hresult, hproduces⟩ := (catalog_outcomes hreach hrow).1 hstatus
  exact ⟨s, job, result, hrow, hresult, hproduces⟩

end Types

end JobOrchestrator
