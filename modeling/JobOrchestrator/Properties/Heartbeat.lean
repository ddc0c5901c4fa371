import JobOrchestrator.Lifecycle.WorkerStep
import JobOrchestrator.Properties.Transitions
import JobOrchestrator.Workers.Execute

/-!
# Heartbeats that fail

The heartbeat task of an execution has no `except` clause, so the first renewal that raises ends
it: no later interval renews the lease, and the `finally` block of `execute` raises the old
exception after a finalizing transaction that has committed.
-/

namespace JobOrchestrator

open ExecutionService TransitionSystem

variable {settings : Settings}

/-! ## One call -/

namespace ExecutionService

variable {claim : Claim} {calls : Calls}

/-- A failed renewal costs neither the lease nor the outcome: the loop attempts a renewal after
every interval, and a call whose finalizing transaction commits returns `True`. -/
structure SurvivesHeartbeat (claim : Claim) (calls : Calls) : Prop where
  renews : (heartbeatLoop calls.renewals).1 = calls.renewals
  returns : (calls.attempt claim).committed → execute (.ok (some claim)) calls = .ok true

/-- The attempt is committed as a dead letter. -/
def Calls.buries (calls : Calls) (claim : Claim) : Prop :=
  (∃ code message, calls.handler = .raised (.retryable code message) ∨
    calls.handler = .raised (.unexpected message)) ∧
  calls.readCancellation = .ok false ∧ claim.snapshot.maxAttempts ≤ claim.attemptNumber ∧
  calls.finalize = .ok true

lemma error_finish {outcome : Outcome} (hcommitted : (calls.finish outcome).committed)
    (houtcome : ∀ code message, outcome ≠ .failed code message true) :
    (calls.finish outcome).error = none := by
  unfold Calls.finish at hcommitted ⊢
  split
  · rename_i hraises
    rw [hraises] at hcommitted
    cases hcommitted
  · split
    · exact absurd rfl (houtcome _ _)
    · rfl

lemma error_finish_deadLetter {code message : String}
    (hcommitted : (calls.finish (.failed code message true)).committed) :
    (calls.finish (.failed code message true)).error = none ↔
      (calls.finalize = .ok true → calls.deadLetter = .ok ()) := by
  unfold Calls.finish at hcommitted ⊢
  cases hfinalize : calls.finalize with
  | error error =>
      rw [hfinalize] at hcommitted
      cases hcommitted
  | ok hit =>
      cases hit with
      | false => simp
      | true => cases hpush : calls.deadLetter <;> simp [Calls.bury, hpush]

lemma error_handleRetryable {code message : String}
    (hcommitted : (calls.handleRetryable claim code message).committed) :
    (calls.handleRetryable claim code message).error = none ↔
      (calls.readCancellation = .ok false ∧ claim.snapshot.maxAttempts ≤ claim.attemptNumber ∧
        calls.finalize = .ok true → calls.deadLetter = .ok ()) := by
  unfold Calls.handleRetryable at hcommitted ⊢
  cases hread : calls.readCancellation with
  | error error =>
      rw [hread] at hcommitted
      cases hcommitted
  | ok cancelled =>
      rw [hread] at hcommitted
      cases cancelled with
      | true =>
          refine iff_of_true (error_finish hcommitted nofun) ?_
          rintro ⟨hread, -⟩
          cases hread
      | false =>
          dsimp only at hcommitted ⊢
          split
          · rename_i hexhausted
            rw [if_pos hexhausted] at hcommitted
            rw [error_finish_deadLetter hcommitted]
            simp [hexhausted]
          · rename_i hleft
            rw [if_neg hleft] at hcommitted
            refine iff_of_true ?_ fun h => absurd h.2.1 hleft
            unfold Calls.backOff at hcommitted ⊢
            split
            · rename_i hraises
              rw [hraises] at hcommitted
              cases hcommitted
            · rename_i hnext
              rw [hnext] at hcommitted
              exact error_finish hcommitted nofun

/-- After a commit only the push of a dead letter can raise in the `try` statement. -/
lemma error_attempt (hcommitted : (calls.attempt claim).committed) :
    (calls.attempt claim).error = none ↔ (calls.buries claim → calls.deadLetter = .ok ()) := by
  unfold Calls.attempt at hcommitted ⊢
  unfold Calls.buries
  cases hhandler : calls.handler with
  | returned result =>
      rw [hhandler] at hcommitted
      exact iff_of_true (error_finish hcommitted nofun) (by simp)
  | cancelled =>
      rw [hhandler] at hcommitted
      exact iff_of_true (error_finish hcommitted nofun) (by simp)
  | raised error =>
      rw [hhandler] at hcommitted
      cases error with
      | nonRetryable code message =>
          exact iff_of_true (error_finish hcommitted nofun) (by simp)
      | retryable code message => simpa using error_handleRetryable hcommitted
      | unexpected message => simpa using error_handleRetryable hcommitted

/-- **A call survives its heartbeat exactly while no renewal raises.**  The loop renews after
every interval and the call returns `True` after its commit if and only if no renewal but the last
one raises and, when the finalizing transaction commits, that one does not either, nor does the
push of the dead letter if there is one. -/
theorem survives_heartbeat_iff (claim : Claim) (calls : Calls) :
    SurvivesHeartbeat claim calls ↔
      (∀ r ∈ calls.renewals.dropLast, r = .committed) ∧
      ((calls.attempt claim).committed → (∀ r ∈ calls.renewals, r = .committed) ∧
        (calls.buries claim → calls.deadLetter = .ok ())) := by
  constructor
  · rintro ⟨hrenews, hreturns⟩
    refine ⟨heartbeatLoop_attempted.mp hrenews, fun hcommitted => ?_⟩
    obtain ⟨hloop, herror⟩ := execute_eq_true.mp (hreturns hcommitted)
    exact ⟨heartbeatLoop_error.mp hloop, (error_attempt hcommitted).mp herror⟩
  · rintro ⟨hrenews, hcalm⟩
    refine ⟨heartbeatLoop_attempted.mpr hrenews, fun hcommitted => execute_eq_true.mpr ?_⟩
    obtain ⟨hrenewals, hpush⟩ := hcalm hcommitted
    exact ⟨heartbeatLoop_error.mpr hrenewals, (error_attempt hcommitted).mpr hpush⟩

/-- A job that may be tried three times, in its first attempt. -/
def firstAttempt : Claim := ⟨1, ⟨3⟩, ⟨.report, [], 3⟩⟩

/-- The handler returns and its result is committed, but the first renewal meets a lost
connection. -/
def lostConnection : Calls where
  handler := .returned []
  readCancellation := .ok false
  nextAttemptAt := .ok 0
  finalize := .ok true
  deadLetter := .ok ()
  renewals := [.raised "connection lost", .committed, .committed]

/-- One renewal of three is attempted, and the committed call raises its exception. -/
theorem lost_connection_raised :
    (heartbeatLoop lostConnection.renewals).1 = [.raised "connection lost"] ∧
      (lostConnection.attempt firstAttempt).committed = true ∧
      execute (.ok (some firstAttempt)) lostConnection = .error "connection lost" ∧
      ¬ SurvivesHeartbeat firstAttempt lostConnection := by
  refine ⟨rfl, rfl, rfl, fun hsurvives => ?_⟩
  have hraised := hsurvives.returns rfl
  cases hraised

end ExecutionService

/-! ## The call in the system -/

section System

variable {s s' : System settings.workerConcurrency} {c : Coroutine settings.workerConcurrency}
  {l : Label settings.workerConcurrency} {ls : List (Label settings.workerConcurrency)}
  {e e' : Execution} {text : String} {claim : Claim} {calls : Calls} {raised : Bool}

/-- How the renewals of a task end in a list of steps; `text` stands for every exception. -/
def renewalsOf {concurrency : ℕ} (text : String) (c : Coroutine concurrency)
    (ls : List (Label concurrency)) : List Renewal :=
  ls.filterMap fun
    | .worker d (.heartbeat _) => if d = c then some .committed else none
    | .worker d .heartbeatFails => if d = c then some (.raised text) else none
    | _ => none

/-- A finalizing transaction of the task is among the steps. -/
def commits {concurrency : ℕ} (c : Coroutine concurrency) (ls : List (Label concurrency)) : Bool :=
  ls.any fun
    | .worker d (.finalize ..) => d = c
    | _ => false

/-- The task goes on with its call, and nothing but the heartbeat is pending in its `finally`
block. -/
structure StaysInCall {concurrency : ℕ} (c : Coroutine concurrency) (s : System concurrency)
    (l : Label concurrency) : Prop where
  stop : l ≠ .worker c .stop
  returns : l ≠ .worker c .returns
  crash : l ≠ .crash c.workerId
  fails : l = .worker c .fails → ∀ e raised, s.workers c = .executing e →
    e.stage ≠ .returning raised

/-- What the `try` statement does from a stage on; `committed` tells whether its finalizing
transaction has committed before. -/
def ExecutionService.Calls.rest (calls : Calls) (claim : Claim) (text : String)
    (committed : Bool) : Stage → Finished
  | .handler => calls.attempt claim
  | .deciding code message => calls.handleRetryable claim code message
  | .backingOff code message => calls.backOff code message
  | .finalizing outcome => calls.finish outcome
  | .deadLettering => calls.bury
  | .returning raised => ⟨committed, if raised then some text else none⟩

/-- The stages before the commit of the finalizing transaction, and those after it. -/
def Stage.Follows : Stage → Bool → Prop
  | .deadLettering, committed => committed = true
  | .returning _, _ => True
  | _, committed => committed = false

/-- The claim that the execution started from. -/
def Execution.wonClaim (e : Execution) : Claim := ⟨e.attemptNumber, e.attemptId, e.snapshot⟩

lemma follows_of_resumes {db : Database} {action : WorkerAction} {stage : Stage}
    {committed : Bool} (h : Resumes db e action stage) (hfollows : e.stage.Follows committed) :
    stage.Follows committed := by
  cases h with
  | cancelled hstage | returned _ hstage | backedOff _ _ _ _ hstage =>
      rw [hstage] at hfollows
      exact hfollows
  | raised error hstage =>
      rw [hstage] at hfollows
      cases error <;> exact hfollows
  | read code message hstage =>
      rw [hstage] at hfollows
      rcases afterRead_cases e code message (cancellationRequested db e.jobId) with h | h | h <;>
        rw [h] <;> exact hfollows
  | failed => trivial

/-- A call that goes on at another stage does so in a call whose last answer led there. -/
lemma rest_of_resumes {db : Database} {action : WorkerAction} {stage : Stage} {committed : Bool}
    (h : Resumes db e action stage)
    (hfails : action = .fails → ∀ raised, e.stage ≠ .returning raised)
    (hfollows : e.stage.Follows committed) (calls : Calls) :
    ∃ calls' : Calls, calls'.rest e.wonClaim text committed e.stage =
      calls.rest e.wonClaim text committed stage := by
  cases h with
  | cancelled hstage =>
      rw [hstage]
      exact ⟨{ calls with handler := .cancelled }, rfl⟩
  | returned result hstage =>
      rw [hstage]
      exact ⟨{ calls with handler := .returned result }, rfl⟩
  | raised error hstage =>
      rw [hstage]
      refine ⟨{ calls with handler := .raised error }, ?_⟩
      cases error <;> rfl
  | read code message hstage =>
      rw [hstage]
      refine ⟨{ calls with readCancellation := .ok (cancellationRequested db e.jobId) }, ?_⟩
      unfold Execution.afterRead
      cases cancellationRequested db e.jobId with
      | true => rfl
      | false =>
          by_cases hexhausted : e.snapshot.maxAttempts ≤ e.attemptNumber
          · rw [if_neg Bool.false_ne_true, if_pos hexhausted]
            exact if_pos hexhausted
          · rw [if_neg Bool.false_ne_true, if_neg hexhausted]
            exact if_neg hexhausted
  | backedOff code message now backoff hstage =>
      rw [hstage]
      exact ⟨{ calls with nextAttemptAt := .ok (now + backoff) }, rfl⟩
  | failed hstage =>
      have hreturning := hfails rfl
      cases hcurrent : e.stage with
      | handler => exact absurd hcurrent hstage
      | returning raised => exact absurd hcurrent (hreturning raised)
      | deciding code message =>
          rw [hcurrent] at hfollows
          obtain rfl : committed = false := hfollows
          exact ⟨{ calls with readCancellation := .error text }, rfl⟩
      | backingOff code message =>
          rw [hcurrent] at hfollows
          obtain rfl : committed = false := hfollows
          exact ⟨{ calls with nextAttemptAt := .error text }, rfl⟩
      | finalizing outcome =>
          rw [hcurrent] at hfollows
          obtain rfl : committed = false := hfollows
          exact ⟨{ calls with finalize := .error text }, rfl⟩
      | deadLettering =>
          rw [hcurrent] at hfollows
          obtain rfl : committed = true := hfollows
          exact ⟨{ calls with deadLetter := .error text }, rfl⟩

lemma follows_afterFinalize (hit : Bool) (outcome : Outcome) :
    (Stage.afterFinalize hit outcome).Follows true := by
  unfold Stage.afterFinalize
  split
  · cases hit
    · trivial
    · rfl
  · trivial

/-- A finalizing transaction that commits. -/
lemma rest_of_finalized (hit : Bool) (outcome : Outcome) (committed : Bool) (calls : Calls) :
    ∃ calls' : Calls, calls'.rest claim text committed (.finalizing outcome) =
      calls.rest claim text true (Stage.afterFinalize hit outcome) := by
  refine ⟨{ calls with finalize := .ok hit }, ?_⟩
  cases outcome with
  | failed code message deadLettered => cases deadLettered <;> cases hit <;> rfl
  | succeeded | retry | cancelled => rfl

/-- What one step of the system leaves of the call: the execution it becomes, whether its
finalizing transaction has committed, and what remains of the `try` statement. -/
def GoesOn (text : String) (c : Coroutine settings.workerConcurrency) (e : Execution)
    (committed : Bool) (s' : System settings.workerConcurrency) (e₁ : Execution)
    (committed₁ : Bool) : Prop :=
  s'.workers c = .executing e₁ ∧ e₁.wonClaim = e.wonClaim ∧ e₁.stage.Follows committed₁ ∧
    ∀ calls : Calls, ∃ calls' : Calls, calls'.rest e.wonClaim text committed e.stage =
      calls.rest e.wonClaim text committed₁ e₁.stage

lemma goesOn_of_same {committed : Bool} {e₁ : Execution} (he₁ : s'.workers c = .executing e₁)
    (hclaim : e₁.wonClaim = e.wonClaim) (hstage : e₁.stage = e.stage)
    (hfollows : e.stage.Follows committed) : GoesOn text c e committed s' e₁ committed :=
  ⟨he₁, hclaim, by rwa [hstage], fun calls => ⟨calls, by rw [hstage]⟩⟩

variable (text) in
/-- One step of the call. -/
lemma goesOn_of_step {committed : Bool} (he : s.workers c = .executing e)
    (h : s.step settings l = some s') (hstays : StaysInCall c s l)
    (hfollows : e.stage.Follows committed) :
    ∃ e₁, GoesOn text c e committed s' e₁ (committed || commits c [l]) := by
  by_cases hl : ∃ action, l = .worker c action
  · obtain ⟨action, rfl⟩ := hl
    have hstep : WorkerStep s c action s' := workerStep_of_step h
    cases hstep with
    | consumed _ _ hother | claimed _ _ _ _ _ hother | claimFailed _ hother =>
        rw [he] at hother
        cases hother
    | stopped => exact absurd rfl hstays.stop
    | returned => exact absurd rfl hstays.returns
    | heartbeat | passed | progressed =>
        rw [show commits c [_] = false from rfl, Bool.or_false]
        exact ⟨e, goesOn_of_same he rfl rfl hfollows⟩
    | heartbeatFailed e₀ he₀ =>
        obtain rfl := Consumer.executing.inj (he.symm.trans he₀)
        rw [show commits c [_] = false from rfl, Bool.or_false]
        exact ⟨_, goesOn_of_same (System.become_self ..) rfl rfl hfollows⟩
    | resumed e₀ action stage he₀ hresumes =>
        obtain rfl := Consumer.executing.inj (he.symm.trans he₀)
        have hcommits : commits c [.worker c action] = false := by cases hresumes <;> rfl
        rw [hcommits, Bool.or_false]
        refine ⟨{ e with stage }, System.become_self .., rfl,
          follows_of_resumes hresumes hfollows, ?_⟩
        refine rest_of_resumes hresumes (fun hfails raised => ?_) hfollows
        exact hstays.fails (congrArg _ hfails) e raised he
    | finalized e₀ outcome tx now db hit he₀ hstage =>
        obtain rfl := Consumer.executing.inj (he.symm.trans he₀)
        have hcommits : commits c [.worker c (.finalize tx now)] = true := by simp [commits]
        rw [hcommits, Bool.or_true]
        refine ⟨_, System.become_self .., rfl, follows_afterFinalize hit outcome, ?_⟩
        rw [hstage]
        exact rest_of_finalized hit outcome committed
    | deadLettered e₀ he₀ hstage =>
        obtain rfl := Consumer.executing.inj (he.symm.trans he₀)
        rw [show commits c [_] = false from rfl, Bool.or_false]
        rw [hstage] at hfollows
        obtain rfl : committed = true := hfollows
        refine ⟨_, System.become_self .., rfl, trivial, fun calls => ?_⟩
        refine ⟨{ calls with deadLetter := .ok () }, ?_⟩
        rw [hstage]
        rfl
  · have hcommits : commits c [l] = false := by
      unfold commits
      cases l with
      | worker d action =>
          have hd : d ≠ c := fun hd => hl ⟨action, by rw [hd]⟩
          cases action <;> simp [hd]
      | _ => rfl
    rw [hcommits, Bool.or_false]
    rcases consumer_of_step h c with hsame | ⟨hcrash, -⟩ | ⟨action, hworker, -⟩
    · exact ⟨e, goesOn_of_same (hsame.trans he) rfl rfl hfollows⟩
    · exact absurd hcrash hstays.crash
    · exact absurd ⟨action, hworker⟩ hl

lemma commits_cons (l : Label settings.workerConcurrency) (ls) :
    commits c (l :: ls) = (commits c [l] || commits c ls) := by
  unfold commits
  rw [List.any_cons, List.any_cons, List.any_nil, Bool.or_false]

variable (text) in
/-- A run of the call up to its `finally` block. -/
lemma rest_of_run {committed : Bool} (he : s.workers c = .executing e)
    (hfollows : e.stage.Follows committed) (hrun : (orchestrator settings).run s ls = some s')
    (hstays : (orchestrator settings).Along (fun s l _ => StaysInCall c s l) s ls)
    (he' : s'.workers c = .executing e') (hstage' : e'.stage = .returning raised) :
    ∃ calls : Calls, calls.rest e.wonClaim text committed e.stage =
      ⟨committed || commits c ls, if raised then some text else none⟩ := by
  induction ls generalizing s e committed with
  | nil =>
      obtain rfl : s = s' := by simpa [run] using hrun
      obtain rfl := Consumer.executing.inj (he.symm.trans he')
      refine ⟨lostConnection, ?_⟩
      rw [hstage', show commits c [] = false from rfl, Bool.or_false]
      rfl
  | cons l ls ih =>
      rw [run, List.foldlM_cons] at hrun
      obtain ⟨t, hstep, hrest⟩ := Option.bind_eq_some_iff.mp hrun
      rw [Along, hstep] at hstays
      obtain ⟨hfirst, hlater⟩ := hstays
      obtain ⟨e₁, he₁, hclaim, hfollows₁, hcalls⟩ := goesOn_of_step text he hstep hfirst hfollows
      obtain ⟨calls, hends⟩ := ih he₁ hfollows₁ hrest hlater
      obtain ⟨calls', hsame⟩ := hcalls calls
      refine ⟨calls', ?_⟩
      rw [hsame, ← hclaim, hends, commits_cons l ls, Bool.or_assoc]

lemma renewalsOf_cons (l : Label settings.workerConcurrency) (ls) :
    renewalsOf text c (l :: ls) = renewalsOf text c [l] ++ renewalsOf text c ls := by
  unfold renewalsOf
  rw [← List.filterMap_append, List.singleton_append]

variable (text) in
/-- One step of the heartbeat task: a renewal commits while the task is alive, or raises and ends
it. -/
lemma heartbeat_of_step (he : s.workers c = .executing e) (he' : s'.workers c = .executing e')
    (h : s.step settings l = some s') :
    (renewalsOf text c [l] = [] ∧ e'.heartbeatFailed = e.heartbeatFailed) ∨
    (renewalsOf text c [l] = [.committed] ∧ e.heartbeatFailed = false ∧
      e'.heartbeatFailed = false) ∨
    (renewalsOf text c [l] = [.raised text] ∧ e'.heartbeatFailed = true) := by
  by_cases hl : ∃ action, l = .worker c action
  · obtain ⟨action, rfl⟩ := hl
    have hstep : WorkerStep s c action s' := workerStep_of_step h
    have hbecome : ∀ {t : System settings.workerConcurrency} {consumer},
        (t.become c consumer).workers c = .executing e' → consumer = .executing e' :=
      fun hworkers => (Function.update_self ..).symm.trans hworkers
    cases hstep with
    | consumed _ _ hother | claimed _ _ _ _ _ hother | claimFailed _ hother =>
        rw [he] at hother
        cases hother
    | stopped | returned => cases hbecome he'
    | heartbeat e₀ now he₀ halive =>
        obtain rfl := Consumer.executing.inj (he.symm.trans he₀)
        obtain rfl := Consumer.executing.inj (he.symm.trans he')
        exact Or.inr (Or.inl ⟨by simp [renewalsOf], halive, halive⟩)
    | passed | progressed =>
        obtain rfl := Consumer.executing.inj (he.symm.trans he')
        exact Or.inl ⟨rfl, rfl⟩
    | heartbeatFailed e₀ he₀ =>
        obtain rfl := Consumer.executing.inj (hbecome he')
        exact Or.inr (Or.inr ⟨by simp [renewalsOf], rfl⟩)
    | resumed e₀ action stage he₀ hresumes =>
        obtain rfl := Consumer.executing.inj (he.symm.trans he₀)
        obtain rfl := Consumer.executing.inj (hbecome he')
        exact Or.inl ⟨by cases hresumes <;> rfl, rfl⟩
    | finalized e₀ outcome tx now db hit he₀ =>
        obtain rfl := Consumer.executing.inj (he.symm.trans he₀)
        obtain rfl := Consumer.executing.inj (hbecome he')
        exact Or.inl ⟨rfl, rfl⟩
    | deadLettered e₀ he₀ =>
        obtain rfl := Consumer.executing.inj (he.symm.trans he₀)
        obtain rfl := Consumer.executing.inj (hbecome he')
        exact Or.inl ⟨rfl, rfl⟩
  · have hnone : renewalsOf text c [l] = [] := by
      unfold renewalsOf
      cases l with
      | worker d action =>
          have hd : d ≠ c := fun hd => hl ⟨action, by rw [hd]⟩
          cases action <;> simp [hd]
      | _ => rfl
    rcases consumer_of_step h c with hsame | ⟨-, hended⟩ | ⟨action, hworker, -⟩
    · obtain rfl := Consumer.executing.inj (he.symm.trans (hsame.symm.trans he'))
      exact Or.inl ⟨hnone, rfl⟩
    · rw [he'] at hended
      cases hended
    · exact absurd ⟨action, hworker⟩ hl

variable (text) in
/-- The heartbeat task of a run is the loop over its renewals. -/
lemma heartbeat_of_run (he : s.workers c = .executing e)
    (hfollows : ∃ committed, e.stage.Follows committed)
    (hrun : (orchestrator settings).run s ls = some s')
    (hstays : (orchestrator settings).Along (fun s l _ => StaysInCall c s l) s ls)
    (he' : s'.workers c = .executing e') :
    e'.heartbeatFailed =
      (e.heartbeatFailed || (heartbeatLoop (renewalsOf text c ls)).2.isSome) := by
  induction ls generalizing s e with
  | nil =>
      obtain rfl : s = s' := by simpa [run] using hrun
      obtain rfl := Consumer.executing.inj (he.symm.trans he')
      exact (Bool.or_false _).symm
  | cons l ls ih =>
      rw [run, List.foldlM_cons] at hrun
      obtain ⟨t, hstep, hrest⟩ := Option.bind_eq_some_iff.mp hrun
      rw [Along, hstep] at hstays
      obtain ⟨hfirst, hlater⟩ := hstays
      obtain ⟨committed, hfollows⟩ := hfollows
      obtain ⟨e₁, he₁, -, hfollows₁, -⟩ := goesOn_of_step text he hstep hfirst hfollows
      rw [ih he₁ ⟨_, hfollows₁⟩ hrest hlater, renewalsOf_cons]
      rcases heartbeat_of_step text he he₁ hstep with
        ⟨hnone, hsame⟩ | ⟨hcommitted, halive, halive₁⟩ | ⟨hraised, hfailed⟩
      · rw [hnone, hsame]
        rfl
      · rw [hcommitted, halive, halive₁]
        rfl
      · rw [hraised, hfailed, Bool.true_or]
        exact (Bool.or_true _).symm

variable (text) in
/-- **The system executes the call.**  Whenever a task of the system goes from its claim to its
`finally` block, some calls with the renewals of the run make `execute` do what the task does: it
commits when the task does, and returns `True` exactly when neither the heartbeat task of the run
nor its `try` statement has raised. -/
theorem execute_of_run {jobId : UUID}
    (he : s.workers c = .executing (.start jobId claim))
    (hrun : (orchestrator settings).run s ls = some s')
    (hstays : (orchestrator settings).Along (fun s l _ => StaysInCall c s l) s ls)
    (he' : s'.workers c = .executing e') (hstage' : e'.stage = .returning raised) :
    ∃ calls : Calls, calls.renewals = renewalsOf text c ls ∧
      (calls.attempt claim).committed = commits c ls ∧
      (execute (.ok (some claim)) calls = .ok true ↔
        e'.heartbeatFailed = false ∧ raised = false) := by
  have hfollows : (Execution.start jobId claim).stage.Follows false := rfl
  obtain ⟨calls, hcalls⟩ := rest_of_run text he hfollows hrun hstays he' hstage'
  have hattempt : calls.attempt claim = ⟨commits c ls, if raised then some text else none⟩ :=
    hcalls.trans (by rw [Bool.false_or])
  have hfailed := heartbeat_of_run text he ⟨_, hfollows⟩ hrun hstays he'
  have hsame : ({ calls with renewals := renewalsOf text c ls } : Calls).attempt claim =
    calls.attempt claim := rfl
  refine ⟨{ calls with renewals := renewalsOf text c ls }, rfl,
    congrArg Finished.committed hattempt, ?_⟩
  rw [execute_eq_true, hsame, hattempt, hfailed]
  cases (heartbeatLoop (renewalsOf text c ls)).2 <;> cases raised <;> simp [Execution.start]

end System

namespace Scenario

/-- A renewal meets a lost connection, and the result is committed. -/
def lostRenewal : List (Label 4) :=
  [.worker first .heartbeatFails, .worker first (.handlerReturns []), finalize first 4 0]

lemma staysInCall_lostRenewal (s : System 4) :
    (orchestrator {}).Along (fun s l _ => StaysInCall first s l) s lostRenewal := by
  apply along_of_forall
  intro l hl s s'
  simp only [lostRenewal, finalize, List.mem_cons, List.not_mem_nil, or_false] at hl
  rcases hl with rfl | rfl | rfl <;> constructor <;> simp

/-- The call has its claim and nothing more. -/
def begins (e : Execution) : Bool :=
  match e.stage with
  | .handler => !e.heartbeatFailed
  | _ => false

lemma eq_start_of_begins {e : Execution} (h : begins e) :
    e = .start e.jobId ⟨e.attemptNumber, e.attemptId, e.snapshot⟩ := by
  obtain ⟨jobId, attemptNumber, attemptId, snapshot, stage, heartbeatFailed⟩ := e
  cases stage <;> cases heartbeatFailed <;> first | rfl | cases h

/-- Only the heartbeat task of the call has raised. -/
def lost (e : Execution) : Bool :=
  match e.stage with
  | .returning raised => !raised && e.heartbeatFailed
  | _ => false

lemma stage_of_lost {e : Execution} (h : lost e) :
    e.stage = .returning false ∧ e.heartbeatFailed = true := by
  obtain ⟨jobId, attemptNumber, attemptId, snapshot, stage, heartbeatFailed⟩ := e
  cases stage with
  | returning raised => cases raised <;> cases heartbeatFailed <;> first | exact ⟨rfl, rfl⟩ | cases h
  | handler | deciding | backingOff | finalizing | deadLettering => cases h

end Scenario

/-- The call ends with the exception of the renewal, and its job has succeeded. -/
theorem execute_of_run_lostRenewal : ∃ (s s' : System 4) (claim : Claim) (calls : Calls),
    s.workers Scenario.first = .executing (.start Scenario.jobId claim) ∧
    (orchestrator {}).run s Scenario.lostRenewal = some s' ∧
    s'.status Scenario.jobId = some .succeeded ∧ calls.renewals = [.raised "connection lost"] ∧
    (calls.attempt claim).committed ∧ execute (.ok (some claim)) calls ≠ .ok true := by
  obtain ⟨s, -, hs⟩ := exists_of_run (T := orchestrator {}) (System.start 4 0)
    (Scenario.submitted 5 ++ Scenario.dispatched ++ Scenario.claim Scenario.first 3 0)
    (fun s => ((s.life Scenario.jobId).executions Scenario.first).any Scenario.begins &&
      ((orchestrator {}).run s Scenario.lostRenewal).any fun s' =>
        ((s'.life Scenario.jobId).executions Scenario.first).any Scenario.lost &&
          s'.status Scenario.jobId = some .succeeded) (by decide +kernel)
  simp only [Bool.and_eq_true, Option.any_eq_true, decide_eq_true_eq] at hs
  obtain ⟨⟨e, he, hbegins⟩, s', hrun, ⟨e', he', hlost⟩, hsucceeded⟩ := hs
  obtain ⟨hworker, hjob⟩ := (s.life_executions _).mp he
  obtain ⟨hworker', -⟩ := (s'.life_executions _).mp he'
  rw [Scenario.eq_start_of_begins hbegins, hjob] at hworker
  obtain ⟨hstage, hfailed⟩ := Scenario.stage_of_lost hlost
  obtain ⟨calls, hrenewals, hcommitted, hreturns⟩ := execute_of_run "connection lost" hworker hrun
    (Scenario.staysInCall_lostRenewal s) hworker' hstage
  refine ⟨s, s', _, calls, hworker, hrun, hsucceeded, hrenewals.trans ?_,
    hcommitted.trans ?_, fun hok => ?_⟩
  · simp [renewalsOf, Scenario.lostRenewal, Scenario.finalize]
  · simp [commits, Scenario.lostRenewal, Scenario.finalize]
  · cases hfailed.symm.trans (hreturns.mp hok).1

end JobOrchestrator
