import JobOrchestrator.Properties.Accounting
import JobOrchestrator.Properties.Cancellation
import JobOrchestrator.Properties.Liveness

/-!
# A job that is attended ends

`job_ends` leaves two ways for a job not to end: it stays `RUNNING` while its lease is renewed, or it
stays `CANCELLING`.  Both need a task that does not do its part.  As long as no execution of the job
is cut short, and the job is not asked to stop while its current attempt is about to schedule a
retry, a job that is `RUNNING` or `CANCELLING` is attended: a task executes its current attempt
(`attended_of_reachable`).  If every call of `execute` then returns, the job comes to a terminal
status (`attended_job_ends`), and no lease has to expire for it.

The other jobs may be in the hands of workers that crash.
-/

namespace JobOrchestrator

open ExecutionService SubmissionService CancellationService TransitionSystem

variable {settings : Settings}

/-- The step cuts no execution of the job short, by a failing statement or by the end of its task or
of its process, and does not ask the job to stop while its current attempt is about to schedule a
retry. -/
def System.spares {concurrency : ℕ} (s : System concurrency) (j : UUID) : Label concurrency → Bool
  | .worker c .fails | .worker c .stop => ((s.workers c).on j).isNone
  | .crash workerId =>
      decide (∀ slot : Fin concurrency, ((s.workers ⟨workerId, slot⟩).on j).isNone)
  | .cancel tx jobId userId reason now =>
      jobId ≠ j || cancelsOutsideRetryWindow s (.cancel tx jobId userId reason now)
  | _ => true

/-- Along the run every task that executes the job is idle again some time later. -/
def Returns (p : ℕ → System settings.workerConcurrency) (j : UUID) : Prop :=
  ∀ n c e, (p n).workers c = .executing e → e.jobId = j → ∃ m, n ≤ m ∧ (p m).workers c = .idle

/-- The task executes the attempt, and no statement of it has failed. -/
def Attends {concurrency : ℕ} (life : Life concurrency) (c : Coroutine concurrency) (k : ℕ) :
    Prop :=
  ∃ e, life.executions c = some e ∧ e.attemptNumber = k ∧ e.stage ≠ .returning true

/-- A job that is active is attended. -/
def Attended {concurrency : ℕ} (life : Life concurrency) : Prop :=
  ∀ job, life.record.row = some job → (job.status = .running ∨ job.status = .cancelling) →
    ∃ c, Attends life c job.attempts

section Step

variable {s s' : System settings.workerConcurrency} {j : UUID}
  {l : Label settings.workerConcurrency} {life' : Life settings.workerConcurrency}
  {c : Coroutine settings.workerConcurrency} {e : Execution} {job job' : Job} {k : ℕ}

/-- A request to stop another job. -/
lemma prompt_of_cancel_other {tx : Tx} {jobId : UUID} {userId : String} {reason : Option String}
    {now : Time} (h : JobStep s j (.cancel tx jobId userId reason now) life') (hj : jobId ≠ j)
    (hprompt : Prompt (s.life j)) : Prompt life' := by
  cases h with
  | idle => exact hprompt
  | cancelRequested | cancelled => exact absurd rfl hj
  | left gone =>
      intro c e job he
      change (if gone c then none else (s.life j).executions c) = some e at he
      split at he
      · cases he
      · exact hprompt c e job he

lemma prompt_of_spares
    (h : (orchestrator settings).Reachable (fun s l => s.spares j l) s) : Prompt (s.life j) := by
  refine h.invariant (I := fun s => Prompt (s.life j)) ?_ ?_
  · rintro s ⟨clock, rfl⟩ c e job he
    cases he
  · intro s l s' hreach hspares hstep hprompt
    have hjob := jobStep_of_reachable hreach hstep j
    have hwindow : cancelsOutsideRetryWindow s l → Prompt (s'.life j) := fun hcancels =>
      prompt_of_jobStep (flagSound_of_reachable hreach j) (leaseSound_of_reachable hreach j)
        hcancels hprompt hjob
    cases l with
    | cancel tx jobId userId reason now =>
        by_cases hj : jobId = j
        · refine hwindow ?_
          simpa [System.spares, hj] using hspares
        · exact prompt_of_cancel_other hjob hj hprompt
    | tick | submit | submission | sweep | publish | publishFails | redis | worker | crash =>
        exact hwindow rfl

/-- A task leaves its execution only by returning from it. -/
lemma attends_of_step (hstep : s.step settings l = some s') (hspares : s.spares j l)
    (h : Attends (s.life j) c k)
    (hopen : ∀ e, (s.life j).executions c = some e → e.attemptNumber = k →
      e.stage ≠ .returning false) : Attends (s'.life j) c k := by
  obtain ⟨e, he, hnumber, hstage⟩ := h
  obtain ⟨hworker, rfl⟩ := (s.life_executions j).mp he
  have hon : (s.workers c).on e.jobId = some e := he
  -- the task goes on with the attempt
  have hgoes : ∀ e', s'.workers c = .executing e' → e'.jobId = e.jobId →
      e'.attemptNumber = e.attemptNumber → e'.stage ≠ .returning true →
      Attends (s'.life e.jobId) c k := fun e' he' hjob hsame hstage' =>
    ⟨e', (s'.life_executions e.jobId).mpr ⟨he', hjob⟩, hsame.trans hnumber, hstage'⟩
  rcases consumer_of_step hstep c with hsame | ⟨rfl, -⟩ | ⟨action, rfl, hworkerStep⟩
  · exact hgoes e (hsame.trans hworker) rfl rfl hstage
  · have hnone := of_decide_eq_true hspares c.slot
    rw [show (⟨c.workerId, c.slot⟩ : Coroutine settings.workerConcurrency) = c from rfl, hon]
      at hnone
    cases hnone
  · cases hworkerStep with
    | consumed _ _ hidle | claimed _ _ _ _ _ hidle | claimFailed _ hidle =>
        cases hworker.symm.trans hidle
    | stopped =>
        rw [System.spares, hon] at hspares
        cases hspares
    | heartbeat | passed | progressed => exact hgoes e hworker rfl rfl hstage
    | heartbeatFailed e' he' =>
        obtain rfl := Consumer.executing.inj (hworker.symm.trans he')
        exact hgoes _ (s.become_self c _) rfl rfl hstage
    | resumed e' action stage he' hresumes =>
        obtain rfl := Consumer.executing.inj (hworker.symm.trans he')
        refine hgoes _ (s.become_self c _) rfl rfl fun hfailed => ?_
        cases hresumes with
        | cancelled | returned | backedOff => cases hfailed
        | raised error => cases error <;> cases hfailed
        | read code message =>
            rcases afterRead_cases e code message (cancellationRequested s.db e.jobId) with
              h | h | h <;> cases h.symm.trans hfailed
        | failed =>
            rw [System.spares, hon] at hspares
            cases hspares
    | finalized e' outcome tx now db hit he' =>
        obtain rfl := Consumer.executing.inj (hworker.symm.trans he')
        refine hgoes _ (System.become_self { s with db } c _) rfl rfl ?_
        unfold Stage.afterFinalize
        split
        · cases hit <;> exact fun h => by cases h
        · exact fun h => by cases h
    | deadLettered e' he' =>
        obtain rfl := Consumer.executing.inj (hworker.symm.trans he')
        exact hgoes _ (System.become_self ..) rfl rfl fun h => by cases h
    | returned e' raised he' hreturning =>
        obtain rfl := Consumer.executing.inj (hworker.symm.trans he')
        cases raised with
        | true => exact absurd hreturning hstage
        | false => exact absurd hreturning (hopen e he hnumber)

/-- The task that claims the job attends it. -/
lemma attends_of_claim {tx : Tx} {now : Time}
    (h : JobStep s j (.worker c (.claim tx now)) life') (hrow : (s.db.record j).row = some job)
    (hrow' : life'.record.row = some job') (hcounted : job'.attempts = job.attempts + 1) :
    Attends life' c job'.attempts := by
  have hkept : life'.record.row ≠ some job := by
    intro hsame
    obtain rfl := Option.some.inj (hrow'.symm.trans hsame)
    omega
  cases h with
  | idle | decided | left => exact absurd hrow hkept
  | claimed job₁ hworker hrow₁ =>
      obtain rfl := Option.some.inj (hrow.symm.trans hrow₁)
      refine ⟨_, Function.update_self .., ?_, fun h => by cases h⟩
      exact hcounted.symm

/-- A task that attends an active job goes on with it. -/
lemma attends_of_active (hreach : (orchestrator settings).Reachable (fun s l => s.spares j l) s)
    (hspares : s.spares j l) (hstep : s.step settings l = some s')
    (hrow : (s.db.record j).row = some job)
    (hactive : job.status = .running ∨ job.status = .cancelling)
    (h : Attends (s.life j) c job.attempts) : Attends (s'.life j) c job.attempts := by
  refine attends_of_step hstep hspares h fun e he hnumber hreturn => ?_
  obtain ⟨hrunning, hcancelling⟩ :=
    (prompt_of_spares hreach c e job he hrow hnumber.symm).2 (Or.inr hreturn)
  exact hactive.elim hrunning hcancelling

lemma attended_of_reachable
    (h : (orchestrator settings).Reachable (fun s l => s.spares j l) s) :
    Attended (s.life j) := by
  refine h.invariant (I := fun s => Attended (s.life j)) ?_ ?_
  · rintro s ⟨clock, rfl⟩ job hrow
    cases hrow
  · intro s l s' hreach hspares hstep hattended job' hrow' hactive'
    have hjob := jobStep_of_reachable hreach hstep j
    rcases row_of_jobStep hjob with
      hsame | ⟨args, now, hlimit, -, hnew⟩ | ⟨u, job, hu, hrow, hguard, hvalues⟩
    · have hrow : (s.db.record j).row = some job' := hsame.symm.trans hrow'
      obtain ⟨c, hc⟩ := hattended job' hrow hactive'
      exact ⟨c, attends_of_active hreach hspares hstep hrow hactive' hc⟩
    · obtain rfl := Option.some.inj (hnew.symm.trans hrow')
      rcases hactive' with h | h <;> cases h
    · obtain rfl := Option.some.inj (hvalues.symm.trans hrow')
      rcases lock_of_issues hu hguard with
        ⟨c, tx, now, rfl, -, hcounted, -⟩ | ⟨hattempts, -, hlock⟩
      · exact ⟨c, attends_of_claim hjob hrow hrow' hcounted⟩
      · have hactive := (hlock hactive').1
        obtain ⟨c, hc⟩ := hattended job hrow hactive
        rw [hattempts]
        exact ⟨c, attends_of_active hreach hspares hstep hrow hactive hc⟩

end Step

section Path

variable {p : ℕ → System settings.workerConcurrency} {j : UUID} {job : Job} {i N : ℕ}

/-- A job does not stay active when every call of `execute` returns: the task that attends it would
never do so. -/
lemma not_active_of_path (h : (orchestrator settings).PathUnder (fun s l => s.spares j l) p)
    (hreturns : Returns p j)
    (hkept : ∀ n, N ≤ n → ∃ job', ((p n).db.record j).row = some job' ∧
      job'.status = job.status ∧ job'.attempts = job.attempts) :
    ¬ (job.status = .running ∨ job.status = .cancelling) := by
  intro hactive
  obtain ⟨first, hrow, hstatus, hattempts⟩ := hkept N le_rfl
  obtain ⟨c, hc⟩ := attended_of_reachable (h.reachable N) first hrow (hstatus ▸ hactive)
  have hstays : ∀ n, N ≤ n → Attends ((p n).life j) c job.attempts := by
    intro n hn
    induction n, hn using Nat.le_induction with
    | base => exact hattempts ▸ hc
    | succ n hn ih =>
        obtain ⟨l, hspares, hl⟩ := h.step n
        obtain ⟨job', hrow', hstatus', hattempts'⟩ := hkept n hn
        rw [← hattempts'] at ih ⊢
        exact attends_of_active (h.reachable n) hspares hl hrow' (hstatus' ▸ hactive) ih
  obtain ⟨e, he, -⟩ := hstays N le_rfl
  obtain ⟨hworker, hjob⟩ := ((p N).life_executions j).mp he
  obtain ⟨m, hm, hidle⟩ := hreturns N c e hworker hjob
  obtain ⟨e', he', -⟩ := hstays m hm
  cases hidle.symm.trans (((p m).life_executions j).mp he').1

/-- **A job that is attended ends.**  In a run without an end that is served by `expire_stale` and
`promote_due`, in which no execution of the job is cut short, every call of `execute` for it
returns, and no request to stop it falls between the cancellation read and the scheduled retry of
its current attempt, the job comes to a terminal status once it is submitted. -/
theorem attended_job_ends (h : (orchestrator settings).PathUnder (fun s l => s.spares j l) p)
    (hexpire : Served settings .expireStale p) (hpromote : Served settings .promoteDue p)
    (hreturns : Returns p j) (hrow : (p i).db.jobs.get? j = some job) :
    ∃ N status, JobStatus.isTerminal status ∧ ∀ n, N ≤ n → (p n).status j = some status := by
  obtain ⟨N, hnone | ⟨last, hkept, hstatus⟩⟩ := settled_of_path h.path hexpire hpromote j
  · obtain ⟨job', hrow', -⟩ := request_of_path h.path (le_max_right N i) hrow
    cases (hnone _ (le_max_left N i)).symm.trans hrow'
  · have hended : last.status.isTerminal := by
      refine hstatus.resolve_right fun hactive => ?_
      exact not_active_of_path h hreturns hkept hactive.symm
    refine ⟨N, last.status, hended, fun n hn => ?_⟩
    obtain ⟨job', hrow', hsame, -⟩ := hkept n hn
    rw [← hsame]
    exact congrArg (Option.map Job.status) hrow'

end Path

namespace Scenario

/-- The first attempt fails, the second one is asked to stop and stops, and both tasks return. -/
def attended : List (Label 4) :=
  submitted 3 ++ dispatched ++ claim first 3 0 ++ backOff first 0 ++
    [finalize first 4 0, .worker first .returns, .tick 2000000,
      .sweep .promoteDue (tx 5) [] 1 2000000, .publish (.publish jobId .normal)] ++
    claim elsewhere 6 2000000 ++ [cancel 2000000, .worker elsewhere .checkCancelled,
      finalize elsewhere 7 2000000, .worker elsewhere .returns]

/-- While a run idles, its steps ask nothing of the tasks. -/
lemma idling_spares (s : System 4) (n : ℕ) : (orchestrator {}).StepUnder
    (fun s l => s.spares jobId l) (idling s n) (idling s (n + 1)) := by
  obtain ⟨elapsed, hstep⟩ := idling_tick n
  exact ⟨.tick elapsed, rfl, hstep⟩

/-- The tasks that no step of the run is about are idle. -/
lemma idle_of_steps {s : System 4}
    (hsteps : (orchestrator {}).Steps (fun s l => s.spares jobId l ∧ ofTwo l) (System.start 4 0) s)
    (hfirst : isIdle (s.workers first)) (helsewhere : isIdle (s.workers elsewhere))
    (c : Coroutine 4) : s.workers c = .idle := by
  by_cases hc : c = first
  · exact eq_idle (hc ▸ hfirst)
  · by_cases hc' : c = elsewhere
    · exact eq_idle (hc' ▸ helsewhere)
    · refine hsteps.preserves (I := fun s => s.workers c = .idle) ?_ rfl
      rintro s l s' ⟨-, hl⟩ hstep hidle
      exact (idle_of_ofTwo hstep hl hc hc').trans hidle

end Scenario

/-- A job that is retried and then asked to stop. -/
theorem attended_job_ends_retried : ∃ (p : ℕ → System 4) (i : ℕ) (job : Job),
    (orchestrator {}).PathUnder (fun s l => s.spares Scenario.jobId l) p ∧
    Served {} .expireStale p ∧ Served {} .promoteDue p ∧ @Returns {} p Scenario.jobId ∧
    (p i).db.jobs.get? Scenario.jobId = some job ∧ job.attempts = 2 ∧
    ∃ N status, JobStatus.isTerminal status ∧
      ∀ n, N ≤ n → (p n).status Scenario.jobId = some status := by
  obtain ⟨s, hsteps, hs⟩ := exists_of_runUnder (T := orchestrator {})
    (C := fun s l => s.spares Scenario.jobId l ∧ Scenario.ofTwo l) (System.start 4 0)
    Scenario.attended
    (fun s => 0 ≤ s.clock && s.db.jobs.rows.all (fun job => job.status.isTerminal) &&
      ((s.db.jobs.get? Scenario.jobId).any fun job => job.attempts = 2) &&
      Scenario.isIdle (s.workers Scenario.first) &&
      Scenario.isIdle (s.workers Scenario.elsewhere))
    (by decide +kernel)
  simp only [Bool.and_eq_true, decide_eq_true_eq, List.all_eq_true] at hs
  obtain ⟨⟨⟨⟨hclock, hdone⟩, hjob⟩, hfirst⟩, helsewhere⟩ := hs
  obtain ⟨job, hrow, hattempts⟩ := (Option.any_eq_true ..).mp hjob
  obtain ⟨p, N, hstart, hnext, hlast⟩ := exists_pathUnder_of_steps
    (hsteps.mono fun s l h => h.1) (Scenario.idling_zero s) (Scenario.idling_spares s)
  have hpath : (orchestrator {}).PathUnder (fun s l => s.spares Scenario.jobId l) p :=
    ⟨⟨0, hstart⟩, hnext⟩
  have hexpire : Served {} .expireStale p :=
    Scenario.served_idling hlast hdone hclock (by decide)
  have hpromote : Served {} .promoteDue p :=
    Scenario.served_idling hlast hdone hclock (by decide)
  have hreturns : @Returns {} p Scenario.jobId := by
    intro n c e _ _
    refine ⟨max N n, le_max_right N n, ?_⟩
    rw [hlast _ (le_max_left N n)]
    exact Scenario.idle_of_steps hsteps hfirst helsewhere c
  have hrow' : (p N).db.jobs.get? Scenario.jobId = some job := by
    rw [hlast N le_rfl, Nat.sub_self, Scenario.idling_zero]
    exact hrow
  exact ⟨p, N, job, hpath, hexpire, hpromote, hreturns, hrow', of_decide_eq_true hattempts,
    attended_job_ends hpath hexpire hpromote hreturns hrow'⟩

end JobOrchestrator
