import JobOrchestrator.Properties.Claims

/-!
# Concurrent deliveries of one job

Any number of coroutines may hold a message for a `QUEUED` job at the same time, and more may be
delivered while it runs.  As long as handlers succeed and nothing takes the job away, the first
claim wins, all others lose, and of all the calls of `execute` exactly one returns `True`.
-/

namespace JobOrchestrator

open ExecutionService TransitionSystem

variable {settings : Settings}

/-- The consumer has a call of `execute` for the job in progress. -/
def Consumer.busy (jobId : UUID) : Consumer → Bool
  | .delivered i => i = jobId
  | .executing e => e.jobId = jobId
  | .idle | .ended => false

/-- A call of `execute` that won the job after its first `k` attempts returns `True` at the
step. -/
def System.returnsTrue {concurrency : ℕ} (s : System concurrency) (jobId : UUID) (k : ℕ) :
    Label concurrency → Bool
  | .worker c .returns =>
      ((s.workers c).on jobId).any fun e =>
        k < e.attemptNumber && e.stage.returns && !e.heartbeatFailed
  | _ => false

def countTrue {concurrency : ℕ} (jobId : UUID) (k n : ℕ) (s : System concurrency)
    (l : Label concurrency) (_ : System concurrency) : ℕ :=
  if s.returnsTrue jobId k l then n + 1 else n

/-- The step neither cancels, expires nor reaps the job, and no call of `execute` for it fails:
its handler raises nothing and its process and its database calls do not fail. -/
def System.undisturbed {concurrency : ℕ} (settings : Settings) (s : System concurrency)
    (jobId : UUID) : Label concurrency → Bool
  | .cancel _ i _ _ _ => i ≠ jobId
  | .sweep .reapExpired _ locked batchSize now =>
      !((JobRepository.findExpiredLeases s.db locked now batchSize).map Job.id).contains jobId
  | .sweep .expireStale _ locked batchSize now =>
      !((JobRepository.findExpirable s.db locked
        (now - seconds settings.jobQueueMaxAgeSeconds) batchSize).map Job.id).contains jobId
  | .worker c (.handlerRaises _) | .worker c .fails | .worker c .heartbeatFails
  | .worker c .stop => !(s.workers c).busy jobId
  | .crash workerId =>
      decide (∀ slot : Fin concurrency, !(s.workers ⟨workerId, slot⟩).busy jobId)
  | _ => true

/-- What the claim and the executions of a job depend on in its row. -/
structure SameHold (job job' : Job) : Prop where
  status : job'.status = job.status
  attempts : job'.attempts = job.attempts
  lockedBy : job'.lockedBy = job.lockedBy
  cancellationRequestedAt : job'.cancellationRequestedAt = job.cancellationRequestedAt

/-! ## Steps of others -/

section Others

variable {s s' : System settings.workerConcurrency} {j : UUID}
  {l : Label settings.workerConcurrency}

lemma on_of_not_busy {consumer : Consumer} (h : ¬ consumer.busy j) : consumer.on j = none := by
  cases consumer with
  | idle | delivered | ended => rfl
  | executing e => exact if_neg (by simpa [Consumer.busy] using h)

/-- A consumer that is not busy with a job does not execute it after its step. -/
lemma on_of_workerStep {c : Coroutine settings.workerConcurrency} {action : WorkerAction}
    (h : WorkerStep s c action s') (hfree : ¬ (s.workers c).busy j) :
    (s'.workers c).on j = none := by
  cases h with
  | heartbeat | passed | progressed => exact on_of_not_busy hfree
  | consumed | claimFailed | stopped | returned =>
      refine (congrArg (Consumer.on j) (Function.update_self ..)).trans ?_
      rfl
  | claimed tx now jobId db result hdelivered =>
      refine (congrArg (Consumer.on j) (Function.update_self ..)).trans ?_
      have hother : jobId ≠ j := by simpa [hdelivered, Consumer.busy] using hfree
      cases result with
      | none => rfl
      | some claim => exact if_neg hother
  | heartbeatFailed e he | resumed e _ _ he | finalized e _ _ _ _ _ he | deadLettered e he =>
      refine (congrArg (Consumer.on j) (Function.update_self ..)).trans ?_
      have hother : e.jobId ≠ j := by simpa [he, Consumer.busy] using hfree
      exact if_neg hother

/-- The consumers that are busy with a job stay as they are when no step is theirs. -/
lemma busy_of_others (h : s.step settings l = some s') (hundisturbed : s.undisturbed settings j l)
    (hothers : ∀ c action, l = .worker c action → ¬ (s.workers c).busy j)
    {c : Coroutine settings.workerConcurrency} (hbusy : (s.workers c).busy j) :
    s'.workers c = s.workers c := by
  rcases consumer_of_step h c with hsame | ⟨rfl, -⟩ | ⟨action, rfl, -⟩
  · exact hsame
  · have hspared := of_decide_eq_true hundisturbed c.slot
    simp [hbusy] at hspared
  · exact absurd hbusy (hothers c action rfl)

lemma executions_of_others (h : s.step settings l = some s')
    (hundisturbed : s.undisturbed settings j l)
    (hothers : ∀ c action, l = .worker c action → ¬ (s.workers c).busy j) :
    (s'.life j).executions = (s.life j).executions := by
  funext c
  by_cases hbusy : (s.workers c).busy j
  · exact congrArg (Consumer.on j) (busy_of_others h hundisturbed hothers hbusy)
  · have hbefore : (s.life j).executions c = none := on_of_not_busy hbusy
    rw [hbefore]
    rcases consumer_of_step h c with hsame | ⟨-, hended⟩ | ⟨action, rfl, hstep⟩
    · exact (congrArg (Consumer.on j) hsame).trans hbefore
    · exact congrArg (Consumer.on j) hended
    · exact on_of_workerStep hstep hbusy

/-- What a step that is no one's who is busy with the job does to its row, unless a dispatch or a
promotion is still ahead of it. -/
lemma row_of_others (hlinked : ∀ i, Linked (s.life i)) (h : s.step settings l = some s')
    (hundisturbed : s.undisturbed settings j l)
    (hothers : ∀ c action, l = .worker c action → ¬ (s.workers c).busy j) {job : Job}
    (hrow : (s.db.record j).row = some job) (hpending : job.status ≠ .pending)
    (hretrying : job.status ≠ .retrying) :
    ∃ job', (s'.db.record j).row = some job' ∧ SameHold job job' := by
  have hbusy : ∀ {c e}, (s.life j).executions c = some e → (s.workers c).busy j := by
    intro c e he
    obtain ⟨hworker, hjob⟩ := (s.life_executions j).mp he
    simp [hworker, Consumer.busy, hjob]
  have hstep : JobStep s j l (s'.life j) := jobStep_of_step hlinked j h
  rcases row_of_jobStep_of_row hstep hrow with hsame | ⟨u, hu, hguard, hvalues⟩
  · exact ⟨job, hsame, rfl, rfl, rfl, rfl⟩
  · cases hu with
    | requestRunningCancellation | cancelInactive => simp [System.undisturbed] at hundisturbed
    | claimForExecution hworker =>
        exact absurd (by simp [hworker, Consumer.busy]) (hothers _ _ rfl)
    | heartbeat e he | updateProgress e he | finalize e _ he =>
        exact absurd (hbusy he) (hothers _ _ rfl)
    | markQueued => exact absurd (JobRepository.markQueued_guard.mp hguard) hpending
    | moveRetryToQueued => exact absurd (JobRepository.moveRetryToQueued_guard.mp hguard) hretrying
    | failExpiredLease | requeueExpiredLease =>
        have hsame := record_of_not_reaped h (by simpa [System.undisturbed] using hundisturbed)
        exact ⟨job, hsame ▸ hrow, rfl, rfl, rfl, rfl⟩
    | markRedispatched t => exact ⟨_, hvalues, rfl, rfl, rfl, rfl⟩
    | expire =>
        have hsame := record_of_not_expired h (by simpa [System.undisturbed] using hundisturbed)
        exact ⟨job, hsame ▸ hrow, rfl, rfl, rfl, rfl⟩

end Others

/-! ## The phases of the deliveries -/

/-- The execution is one of the first `k` attempts and has committed. -/
structure Settled (k : ℕ) (e : Execution) : Prop where
  number : e.attemptNumber ≤ k
  closed : e.stage.isOpen = false

/-- How far the deliveries of a job that had `k` attempts have come, and how many calls have
returned `True`. -/
inductive DeliveryPhase (k : ℕ) (s : System settings.workerConcurrency) (j : UUID) : ℕ → Prop
  | waiting (job : Job) (hrow : (s.db.record j).row = some job) (hstatus : job.status = .queued)
      (hflag : job.cancellationRequestedAt = none) (hattempts : job.attempts = k)
      (hsettled : ∀ c e, (s.life j).executions c = some e → Settled k e)
      (hdelivered : ∃ c, s.workers c = .delivered j) : DeliveryPhase k s j 0
  | running (job : Job) (c e) (hrow : (s.db.record j).row = some job)
      (hstatus : job.status = .running) (hflag : job.cancellationRequestedAt = none)
      (hattempts : job.attempts = k + 1) (hlocked : job.lockedBy = some c.workerId)
      (he : (s.life j).executions c = some e) (hnumber : e.attemptNumber = k + 1)
      (hsettled : ∀ d e', d ≠ c → (s.life j).executions d = some e' → Settled k e')
      (hstage : e.stage = .handler ∨ ∃ result, e.stage = .finalizing (.succeeded result))
      (halive : e.heartbeatFailed = false) : DeliveryPhase k s j 0
  | committed (job : Job) (c e) (hrow : (s.db.record j).row = some job)
      (hstatus : job.status = .succeeded) (hattempts : job.attempts = k + 1)
      (he : (s.life j).executions c = some e) (hnumber : e.attemptNumber = k + 1)
      (hsettled : ∀ d e', d ≠ c → (s.life j).executions d = some e' → Settled k e')
      (hstage : e.stage = .returning false) (halive : e.heartbeatFailed = false) :
      DeliveryPhase k s j 0
  | done (job : Job) (hrow : (s.db.record j).row = some job) (hstatus : job.status = .succeeded)
      (hattempts : job.attempts = k + 1)
      (hsettled : ∀ c e, (s.life j).executions c = some e → Settled k e) : DeliveryPhase k s j 1

section Phases

variable {s s' : System settings.workerConcurrency} {j : UUID}
  {l : Label settings.workerConcurrency} {k n : ℕ}

/-- A step that changes no execution of the job but settled ones, and nothing that they depend on
in its row. -/
lemma DeliveryPhase.of_same (h : DeliveryPhase k s j n)
    (hrow' : ∀ job, (s.db.record j).row = some job → job.status ≠ .pending →
      job.status ≠ .retrying → ∃ job', (s'.db.record j).row = some job' ∧ SameHold job job')
    (hsettled' : ∀ d e', (s'.life j).executions d = some e' →
      (s.life j).executions d = some e' ∨ Settled k e')
    (hkept : ∀ d e, (s.life j).executions d = some e → k < e.attemptNumber →
      (s'.life j).executions d = some e)
    (hdelivered' : ∀ c job, s.workers c = .delivered j → (s.db.record j).row = some job →
      job.status = .queued → job.cancellationRequestedAt = none → s'.workers c = .delivered j) :
    DeliveryPhase k s' j n := by
  cases h with
  | waiting job hrow hstatus hflag hattempts hsettled hdelivered =>
      obtain ⟨job', hjob', hsame⟩ := hrow' job hrow (by simp [hstatus]) (by simp [hstatus])
      obtain ⟨c, hc⟩ := hdelivered
      refine .waiting job' hjob' (hsame.status.trans hstatus)
        (hsame.cancellationRequestedAt.trans hflag) (hsame.attempts.trans hattempts) ?_
        ⟨c, hdelivered' c job hc hrow hstatus hflag⟩
      intro d e he
      exact (hsettled' d e he).elim (hsettled d e) id
  | running job c e hrow hstatus hflag hattempts hlocked he hnumber hsettled hstage halive =>
      obtain ⟨job', hjob', hsame⟩ := hrow' job hrow (by simp [hstatus]) (by simp [hstatus])
      refine .running job' c e hjob' (hsame.status.trans hstatus)
        (hsame.cancellationRequestedAt.trans hflag) (hsame.attempts.trans hattempts)
        (hsame.lockedBy.trans hlocked) (hkept c e he (by omega)) hnumber ?_ hstage halive
      intro d e' hd he'
      exact (hsettled' d e' he').elim (hsettled d e' hd) id
  | committed job c e hrow hstatus hattempts he hnumber hsettled hstage halive =>
      obtain ⟨job', hjob', hsame⟩ := hrow' job hrow (by simp [hstatus]) (by simp [hstatus])
      refine .committed job' c e hjob' (hsame.status.trans hstatus) (hsame.attempts.trans hattempts)
        (hkept c e he (by omega)) hnumber ?_ hstage halive
      intro d e' hd he'
      exact (hsettled' d e' he').elim (hsettled d e' hd) id
  | done job hrow hstatus hattempts hsettled =>
      obtain ⟨job', hjob', hsame⟩ := hrow' job hrow (by simp [hstatus]) (by simp [hstatus])
      refine .done job' hjob' (hsame.status.trans hstatus) (hsame.attempts.trans hattempts) ?_
      intro d e he
      exact (hsettled' d e he).elim (hsettled d e) id

lemma executions_of_update {c : Coroutine settings.workerConcurrency} {consumer : Consumer}
    (h : s'.workers = Function.update s.workers c consumer) :
    (s'.life j).executions = Function.update (s.life j).executions c (consumer.on j) := by
  funext d
  have hd : (s'.life j).executions d = (Function.update s.workers c consumer d).on j :=
    congrArg (fun workers => (workers d).on j) h
  rw [hd]
  by_cases hdc : d = c
  · subst hdc
    rw [Function.update_self, Function.update_self]
  · rw [Function.update_of_ne hdc, Function.update_of_ne hdc]
    rfl

/-- The first claim starts the only new execution, and every later one loses. -/
lemma DeliveryPhase.of_claim (h : DeliveryPhase k s j n)
    {c : Coroutine settings.workerConcurrency} {tx : Tx} {now : Time} {db : Database}
    {result : Option Claim} (hdelivered : s.workers c = .delivered j)
    (hclaim : claim settings s.db tx c.workerId j now = some (db, result)) :
    DeliveryPhase k ({ s with db }.become c
      (result.elim .idle fun claim => .executing (.start j claim))) j n := by
  have hbefore : (s.life j).executions c = none := congrArg (Consumer.on j) hdelivered
  rcases claim_cases hclaim with ⟨rfl, hrecord, hmissed⟩ | ⟨job₁, hrow₁, hguard, rfl, hrecord⟩
  · have hsame : (({ s with db }.become c .idle).life j).executions = (s.life j).executions := by
      rw [executions_of_update (s := s) rfl]
      exact Function.update_eq_self_iff.mpr hbefore.symm
    refine h.of_same (fun job hrow _ _ => ⟨job, ?_, rfl, rfl, rfl, rfl⟩) ?_ ?_ ?_
    · exact (congrArg (fun record => (record j).row) hrecord).trans hrow
    · exact fun d e he => Or.inl ((congrFun hsame d).symm.trans he)
    · exact fun d e he _ => (congrFun hsame d).trans he
    · intro d job _ hrow hstatus hflag
      exact absurd (JobRepository.claimForExecution_guard.mpr ⟨Or.inl hstatus, hflag⟩)
        (hmissed job hrow)
  · obtain ⟨hclaimable, hflag⟩ := JobRepository.claimForExecution_guard.mp hguard
    cases h with
    | waiting job hrow hstatus _ hattempts hsettled _ =>
        obtain rfl := Option.some.inj (hrow.symm.trans hrow₁)
        have hrow' : (db.record j).row = some ((JobRepository.claimForExecution c.workerId
            settings.workerLeaseSeconds now).values job) := by
          rw [hrecord, Function.update_self]
          rfl
        refine .running _ c (.start j ⟨job.attempts + 1, tx.attemptId,
          ⟨job.type, job.payload, job.maxAttempts⟩⟩) hrow' rfl hflag (congrArg (· + 1) hattempts)
          rfl ?_ (congrArg (· + 1) hattempts) ?_ (Or.inl rfl) rfl
        · rw [executions_of_update (s := s) rfl, Function.update_self]
          exact if_pos rfl
        · intro d e' hd he'
          rw [executions_of_update (s := s) rfl, Function.update_of_ne hd] at he'
          exact hsettled d e' he'
    | running job _ _ hrow hstatus | committed job _ _ hrow hstatus | done job hrow hstatus =>
        obtain rfl := Option.some.inj (hrow.symm.trans hrow₁)
        rcases hclaimable with h | h <;> cases hstatus.symm.trans h

/-- The action renews the lease of a job that its worker already holds. -/
def WorkerAction.renews : WorkerAction → Bool
  | .heartbeat _ | .reportProgress _ _ => true
  | _ => false

/-- A renewal of the lease leaves everything else in the row as it is. -/
lemma row_of_renewal (hlinked : ∀ i, Linked (s.life i))
    {c : Coroutine settings.workerConcurrency} {action : WorkerAction}
    (haction : action.renews) (h : s.step settings (.worker c action) = some s') {job : Job}
    (hrow : (s.db.record j).row = some job) :
    ∃ job', (s'.db.record j).row = some job' ∧ SameHold job job' := by
  have hstep : JobStep s j (.worker c action) (s'.life j) := jobStep_of_step hlinked j h
  rcases row_of_jobStep_of_row hstep hrow with hsame | ⟨u, hu, -, hvalues⟩
  · exact ⟨job, hsame, rfl, rfl, rfl, rfl⟩
  · cases hu with
    | claimForExecution | finalize => cases haction
    | heartbeat | updateProgress => exact ⟨_, hvalues, rfl, rfl, rfl, rfl⟩

/-- The other executions of the job are as settled after a step of a consumer as before. -/
lemma settled_of_workerStep {c : Coroutine settings.workerConcurrency} {action : WorkerAction}
    (h : WorkerStep s c action s')
    (hsettled : ∀ d e, d ≠ c → (s.life j).executions d = some e → Settled k e) :
    ∀ d e, d ≠ c → (s'.life j).executions d = some e → Settled k e := by
  intro d e hd he
  refine hsettled d e hd ?_
  rw [← he]
  exact (congrArg (Consumer.on j) (workers_of_workerStep h hd)).symm

/-- A settled execution that goes on to its return without a write. -/
lemma DeliveryPhase.of_consumer (hphase : DeliveryPhase k s j n)
    {c : Coroutine settings.workerConcurrency} {e : Execution} {consumer : Consumer}
    (he : (s.life j).executions c = some e) (hsettled : Settled k e)
    (hrecord : s'.db.record j = s.db.record j)
    (hworkers : s'.workers = Function.update s.workers c consumer)
    (hconsumer : ∀ e', consumer.on j = some e' → Settled k e') : DeliveryPhase k s' j n := by
  refine hphase.of_same (fun job hrow _ _ => ⟨job, hrecord ▸ hrow, rfl, rfl, rfl, rfl⟩) ?_ ?_ ?_
  · intro d e' he'
    rw [executions_of_update hworkers] at he'
    by_cases hd : d = c
    · subst hd
      rw [Function.update_self] at he'
      exact Or.inr (hconsumer e' he')
    · rw [Function.update_of_ne hd] at he'
      exact Or.inl he'
  · intro d e' he' hnumber
    have hd : d ≠ c := by
      rintro rfl
      obtain rfl := Option.some.inj (he.symm.trans he')
      exact absurd hsettled.number (not_le.mpr hnumber)
    rw [executions_of_update hworkers, Function.update_of_ne hd]
    exact he'
  · intro d job hdelivered _ _ _
    have hd : d ≠ c := by
      rintro rfl
      cases hdelivered.symm.trans ((s.life_executions j).mp he).1
    rw [hworkers, Function.update_of_ne hd]
    exact hdelivered

/-- A step by which no new call returns. -/
lemma countTrue_of_quiet (h : ∀ c e, l = .worker c .returns → (s.life j).executions c = some e →
    k < e.attemptNumber → e.stage ≠ .returning false) : countTrue j k n s l s' = n := by
  refine if_neg fun hreturns => ?_
  unfold System.returnsTrue at hreturns
  split at hreturns
  · rename_i c
    obtain ⟨e, he, hstage⟩ := (Option.any_eq_true ..).mp hreturns
    simp only [Bool.and_eq_true, decide_eq_true_eq] at hstage
    exact h c e rfl he hstage.1.1 (Stage.returns_iff.mp hstage.1.2)
  · cases hreturns

/-- What a task that executes a job does when nothing disturbs it. -/
inductive Proceeds (s : System settings.workerConcurrency)
    (c : Coroutine settings.workerConcurrency) (e : Execution) :
    WorkerAction → System settings.workerConcurrency → Prop
  | renewed {action s'} (hrenews : action.renews) (hworkers : s'.workers = s.workers) :
      Proceeds s c e action s'
  | passed : Proceeds s c e .checkCancelled s
  | resumed {action} (stage) (hresumes : Resumes s.db e action stage)
      (hfails : action ≠ .fails) (hraises : ∀ error, action ≠ .handlerRaises error) :
      Proceeds s c e action (s.resume c e stage)
  | finalized (outcome tx now db hit) (hstage : e.stage = .finalizing outcome) :
      Proceeds s c e (.finalize tx now)
        ({ s with db }.resume c e (Stage.afterFinalize hit outcome))
  | deadLettered (hstage : e.stage = .deadLettering) :
      Proceeds s c e .pushDeadLetter
        ({ s with queue := s.queue.deadLetter e.jobId }.resume c e (.returning false))
  | returned (raised) (hstage : e.stage = .returning raised) :
      Proceeds s c e .returns (s.become c .idle)

lemma proceeds_of_workerStep {c : Coroutine settings.workerConcurrency} {action : WorkerAction}
    {e : Execution} (h : WorkerStep s c action s')
    (hundisturbed : s.undisturbed settings j (.worker c action))
    (he : (s.life j).executions c = some e) : Proceeds s c e action s' := by
  obtain ⟨hworker, hjob⟩ := (s.life_executions j).mp he
  have hbusy : (s.workers c).busy j := by simp [hworker, Consumer.busy, hjob]
  cases h with
  | consumed _ _ hidle => cases hidle.symm.trans hworker
  | claimed _ _ _ _ _ hdelivered | claimFailed _ hdelivered =>
      cases hdelivered.symm.trans hworker
  | stopped | heartbeatFailed => simp [System.undisturbed, hbusy] at hundisturbed
  | heartbeat | progressed => exact .renewed rfl rfl
  | passed => exact .passed
  | resumed e' action stage he' hresumes =>
      obtain rfl := Consumer.executing.inj (hworker.symm.trans he')
      refine .resumed stage hresumes ?_ fun error => ?_ <;> rintro rfl <;>
        simp [System.undisturbed, hbusy] at hundisturbed
  | finalized e' outcome tx now db hit he' hstage =>
      obtain rfl := Consumer.executing.inj (hworker.symm.trans he')
      exact .finalized outcome tx now db hit hstage
  | deadLettered e' he' hstage =>
      obtain rfl := Consumer.executing.inj (hworker.symm.trans he')
      exact .deadLettered hstage
  | returned e' raised he' hstage =>
      obtain rfl := Consumer.executing.inj (hworker.symm.trans he')
      exact .returned raised hstage

/-- The executions of earlier attempts only have their return ahead. -/
lemma DeliveryPhase.of_settled (hlinked : ∀ i, Linked (s.life i)) (hphase : DeliveryPhase k s j n)
    {c : Coroutine settings.workerConcurrency} {action : WorkerAction} {e : Execution}
    (h : s.step settings (.worker c action) = some s') (hproceeds : Proceeds s c e action s')
    (he : (s.life j).executions c = some e) (hsettled : Settled k e) : DeliveryPhase k s' j n := by
  have hclosed : e.stage.isOpen = false := hsettled.closed
  cases hproceeds with
  | renewed hrenews hworkers =>
      have hsame : (s'.life j).executions = (s.life j).executions :=
        funext fun d => congrArg (fun workers => (workers d).on j) hworkers
      refine hphase.of_same (fun job hrow _ _ => row_of_renewal hlinked hrenews h hrow)
        (fun d e' he' => Or.inl (hsame ▸ he')) (fun d e' he' _ => hsame ▸ he')
        fun d job hd _ _ _ => ?_
      rw [hworkers]
      exact hd
  | passed => exact hphase
  | resumed stage hresumes hfails =>
      cases hresumes with
      | failed => exact absurd rfl hfails
      | cancelled hopen | returned _ hopen | raised _ hopen | read _ _ hopen
      | backedOff _ _ _ _ hopen =>
          rw [hopen] at hclosed
          cases hclosed
  | finalized outcome tx now db hit hopen =>
      rw [hopen] at hclosed
      cases hclosed
  | deadLettered =>
      refine hphase.of_consumer he hsettled rfl rfl fun e' he' => ?_
      obtain rfl := Consumer.executing.inj (Consumer.on_eq_some.mp he').1
      exact ⟨hsettled.number, rfl⟩
  | returned => exact hphase.of_consumer he hsettled rfl rfl fun e' he' => by cases he'

/-- The winner runs its handler to its result and commits it. -/
lemma DeliveryPhase.of_running (hlinked : ∀ i, Linked (s.life i))
    {c : Coroutine settings.workerConcurrency} {action : WorkerAction} {e : Execution} {job : Job}
    (h : s.step settings (.worker c action) = some s') (hproceeds : Proceeds s c e action s')
    (hrow : (s.db.record j).row = some job) (hstatus : job.status = .running)
    (hflag : job.cancellationRequestedAt = none) (hattempts : job.attempts = k + 1)
    (hlocked : job.lockedBy = some c.workerId) (he : (s.life j).executions c = some e)
    (hnumber : e.attemptNumber = k + 1)
    (hsettled : ∀ d e', d ≠ c → (s.life j).executions d = some e' → Settled k e')
    (hstage : e.stage = .handler ∨ ∃ result, e.stage = .finalizing (.succeeded result))
    (halive : e.heartbeatFailed = false) : DeliveryPhase k s' j 0 := by
  obtain ⟨hworker, hjob⟩ := (s.life_executions j).mp he
  have hsettled' := settled_of_workerStep (workerStep_of_step h) hsettled
  cases hproceeds with
  | renewed hrenews hworkers =>
      obtain ⟨job', hrow', hsame⟩ := row_of_renewal hlinked hrenews h hrow
      refine .running job' c e hrow' (hsame.status.trans hstatus)
        (hsame.cancellationRequestedAt.trans hflag) (hsame.attempts.trans hattempts)
        (hsame.lockedBy.trans hlocked) ?_ hnumber hsettled' hstage halive
      exact (congrArg (fun workers => (workers c).on j) hworkers).trans he
  | passed =>
      exact .running job c e hrow hstatus hflag hattempts hlocked he hnumber hsettled hstage halive
  | resumed stage hresumes hfails hraises =>
      cases hresumes with
      | cancelled _ hrequested =>
          have hrow' : JobRepository.get s.db e.jobId = some job := hjob ▸ hrow
          rw [cancellationRequested, hrow', Option.any_some, hflag] at hrequested
          cases hrequested
      | returned result =>
          refine .running job c { e with stage := .finalizing (.succeeded result) } hrow hstatus
            hflag hattempts hlocked ?_ hnumber hsettled' (Or.inr ⟨result, rfl⟩) halive
          rw [executions_of_update (s := s) rfl, Function.update_self]
          exact if_pos hjob
      | raised error => exact absurd rfl (hraises error)
      | failed => exact absurd rfl hfails
      | read _ _ hdeciding | backedOff _ _ _ _ hdeciding => simp [hdeciding] at hstage
  | finalized outcome tx now db hit hfinalizing =>
      subst hjob
      obtain ⟨outcome', houtcome, hcases⟩ := step_finalize (hlinked e.jobId) hworker h
      obtain rfl : outcome = outcome' := Stage.finalizing.inj (hfinalizing.symm.trans houtcome)
      obtain ⟨result, rfl⟩ : ∃ result, outcome = .succeeded result := by
        simpa [hfinalizing] using hstage
      rcases hcases with ⟨job', hrow', -, hrecord⟩ | ⟨hmissed, -⟩
      · obtain rfl := Option.some.inj (hrow.symm.trans hrow')
        have hcommitted : (db.record e.jobId).row = some ((JobRepository.markSucceeded c.workerId
            result now).values job) := by
          have hafter : db.record e.jobId = _ := congrFun hrecord e.jobId
          rw [hafter, Function.update_self]
          exact finalized_row
        refine .committed _ c { e with stage := .returning false } hcommitted rfl hattempts ?_
          hnumber hsettled' rfl halive
        rw [executions_of_update (s := s) rfl, Function.update_self]
        exact if_pos rfl
      · exact absurd (JobRepository.markSucceeded_guard.mpr ⟨hlocked, Or.inl hstatus⟩)
          (hmissed job hrow)
  | deadLettered hother | returned _ hother => simp [hother] at hstage

/-- The winner returns `True`, once. -/
lemma DeliveryPhase.of_committed (hlinked : ∀ i, Linked (s.life i))
    {c : Coroutine settings.workerConcurrency} {action : WorkerAction} {e : Execution} {job : Job}
    (h : s.step settings (.worker c action) = some s') (hproceeds : Proceeds s c e action s')
    (hrow : (s.db.record j).row = some job) (hstatus : job.status = .succeeded)
    (hattempts : job.attempts = k + 1) (he : (s.life j).executions c = some e)
    (hnumber : e.attemptNumber = k + 1)
    (hsettled : ∀ d e', d ≠ c → (s.life j).executions d = some e' → Settled k e')
    (hstage : e.stage = .returning false) (halive : e.heartbeatFailed = false) :
    DeliveryPhase k s' j (countTrue j k 0 s (.worker c action) s') := by
  have hsettled' := settled_of_workerStep (workerStep_of_step h) hsettled
  cases hproceeds with
  | renewed hrenews hworkers =>
      have hquiet : countTrue j k 0 s (.worker c action) s' = 0 := by
        refine countTrue_of_quiet fun d e' hl _ _ => ?_
        obtain ⟨-, rfl⟩ := Label.worker.inj hl
        cases hrenews
      rw [hquiet]
      obtain ⟨job', hrow', hsame⟩ := row_of_renewal hlinked hrenews h hrow
      refine .committed job' c e hrow' (hsame.status.trans hstatus)
        (hsame.attempts.trans hattempts) ?_ hnumber hsettled' hstage halive
      exact (congrArg (fun workers => (workers c).on j) hworkers).trans he
  | passed => exact .committed job c e hrow hstatus hattempts he hnumber hsettled hstage halive
  | resumed stage hresumes hfails =>
      cases hresumes with
      | failed => exact absurd rfl hfails
      | cancelled hother | returned _ hother | raised _ hother | read _ _ hother
      | backedOff _ _ _ _ hother => cases hother.symm.trans hstage
  | finalized _ _ _ _ _ hother | deadLettered hother => cases hother.symm.trans hstage
  | returned =>
      have hreturns : s.returnsTrue j k (.worker c .returns) := by
        have hon : (s.workers c).on j = some e := he
        rw [System.returnsTrue, hon, Option.any_some, halive, hstage, hnumber]
        simp [Stage.returns]
      rw [countTrue, if_pos hreturns]
      refine .done job hrow hstatus hattempts fun d e' he' => ?_
      by_cases hd : d = c
      · subst hd
        rw [executions_of_update (s := s) rfl, Function.update_self] at he'
        cases he'
      · exact hsettled' d e' hd he'

/-- The steps of those who are not busy with the job. -/
lemma DeliveryPhase.of_others (hlinked : ∀ i, Linked (s.life i))
    (h : s.step settings l = some s') (hundisturbed : s.undisturbed settings j l)
    (hothers : ∀ c action, l = .worker c action → ¬ (s.workers c).busy j)
    (hphase : DeliveryPhase k s j n) : DeliveryPhase k s' j (countTrue j k n s l s') := by
  have hquiet : countTrue j k n s l s' = n := by
    refine countTrue_of_quiet fun c e hl he _ => ?_
    obtain ⟨hworker, hjob⟩ := (s.life_executions j).mp he
    exact absurd (by simp [hworker, Consumer.busy, hjob]) (hothers c _ hl)
  have hsame := congrFun (executions_of_others h hundisturbed hothers)
  rw [hquiet]
  refine hphase.of_same (fun job hrow hpending hretrying =>
    row_of_others hlinked h hundisturbed hothers hrow hpending hretrying)
    (fun d e he => Or.inl ((hsame d).symm.trans he)) (fun d e he _ => (hsame d).trans he) ?_
  intro c job hc _ _ _
  rw [busy_of_others h hundisturbed hothers (by simp [hc, Consumer.busy]), hc]

/-- The steps of a consumer that holds a message for the job. -/
lemma DeliveryPhase.of_delivered {c : Coroutine settings.workerConcurrency}
    {action : WorkerAction} (h : s.step settings (.worker c action) = some s')
    (hundisturbed : s.undisturbed settings j (.worker c action))
    (hdelivered : s.workers c = .delivered j) (hphase : DeliveryPhase k s j n) :
    DeliveryPhase k s' j (countTrue j k n s (.worker c action) s') := by
  have hquiet : countTrue j k n s (.worker c action) s' = n := by
    refine countTrue_of_quiet fun d e hl he _ => ?_
    obtain ⟨rfl, -⟩ := Label.worker.inj hl
    cases ((s.life_executions j).mp he).1.symm.trans hdelivered
  have hbusy : (s.workers c).busy j := by simp [hdelivered, Consumer.busy]
  rw [hquiet]
  have hstep : WorkerStep s c action s' := workerStep_of_step h
  cases hstep with
  | claimed tx now i db result hdelivered' _ hclaim =>
      obtain rfl := Consumer.delivered.inj (hdelivered.symm.trans hdelivered')
      exact hphase.of_claim hdelivered hclaim
  | claimFailed | stopped => simp [System.undisturbed, hbusy] at hundisturbed
  | consumed _ _ hother | heartbeat _ _ hother | heartbeatFailed _ hother | passed _ hother
  | progressed _ _ _ hother | resumed _ _ _ hother | finalized _ _ _ _ _ _ hother
  | deadLettered _ hother | returned _ _ hother => cases hother.symm.trans hdelivered

/-- The steps of a consumer that executes the job. -/
lemma DeliveryPhase.of_executing (hlinked : ∀ i, Linked (s.life i))
    {c : Coroutine settings.workerConcurrency} {action : WorkerAction} {e : Execution}
    (h : s.step settings (.worker c action) = some s') (hproceeds : Proceeds s c e action s')
    (he : (s.life j).executions c = some e) (hphase : DeliveryPhase k s j n) :
    DeliveryPhase k s' j (countTrue j k n s (.worker c action) s') := by
  have hquiet : (k < e.attemptNumber → e.stage ≠ .returning false) →
      countTrue j k n s (.worker c action) s' = n := by
    intro hstage
    refine countTrue_of_quiet fun d e' hl he' hnumber => ?_
    obtain ⟨rfl, -⟩ := Label.worker.inj hl
    obtain rfl := Option.some.inj (he.symm.trans he')
    exact hstage hnumber
  by_cases hsettled : Settled k e
  · rw [hquiet fun hnumber => absurd hsettled.number (not_le.mpr hnumber)]
    exact hphase.of_settled hlinked h hproceeds he hsettled
  · cases hphase with
    | waiting _ _ _ _ _ hall | done _ _ _ _ hall => exact absurd (hall c e he) hsettled
    | running job d e' hrow hstatus hflag hattempts hlocked he' hnumber hall hstage halive =>
        obtain rfl : c = d := by
          by_contra hne
          exact hsettled (hall c e hne he)
        obtain rfl := Option.some.inj (he.symm.trans he')
        rw [hquiet fun _ hreturning => by simp [hreturning] at hstage]
        exact .of_running hlinked h hproceeds hrow hstatus hflag hattempts hlocked he hnumber
          hall hstage halive
    | committed job d e' hrow hstatus hattempts he' hnumber hall hstage halive =>
        obtain rfl : c = d := by
          by_contra hne
          exact hsettled (hall c e hne he)
        obtain rfl := Option.some.inj (he.symm.trans he')
        exact .of_committed hlinked h hproceeds hrow hstatus hattempts he hnumber hall hstage
          halive

/-- **Step lemma.**  The deliveries go on from phase to phase. -/
lemma DeliveryPhase.of_step (hlinked : ∀ i, Linked (s.life i)) (h : s.step settings l = some s')
    (hundisturbed : s.undisturbed settings j l) (hphase : DeliveryPhase k s j n) :
    DeliveryPhase k s' j (countTrue j k n s l s') := by
  by_cases hothers : ∀ c action, l = .worker c action → ¬ (s.workers c).busy j
  · exact hphase.of_others hlinked h hundisturbed hothers
  · push Not at hothers
    obtain ⟨c, action, rfl, hbusy⟩ := hothers
    cases hworker : s.workers c with
    | idle | ended => simp [hworker, Consumer.busy] at hbusy
    | delivered i =>
        obtain rfl : i = j := by simpa [hworker, Consumer.busy] using hbusy
        exact hphase.of_delivered h hundisturbed hworker
    | executing e =>
        have hjob : e.jobId = j := by simpa [hworker, Consumer.busy] using hbusy
        have he : (s.life j).executions c = some e := (s.life_executions j).mpr ⟨hworker, hjob⟩
        have hproceeds := proceeds_of_workerStep (workerStep_of_step h) hundisturbed he
        exact hphase.of_executing hlinked h hproceeds he

end Phases

/-! ## The deliveries of a queued job -/

section Deliveries

variable {s s' : System settings.workerConcurrency} {j : UUID} {k n n' : ℕ}

/-- **Run lemma.**  So they do along a whole run. -/
lemma DeliveryPhase.of_steps (hreachable : (orchestrator settings).Reachable Always s)
    (h : ((orchestrator settings).observing 0 (countTrue j k)).Steps
      (fun p l => p.1.undisturbed settings j l) (s, n) (s', n'))
    (hphase : DeliveryPhase k s j n) : DeliveryPhase k s' j n' := by
  have hboth : (orchestrator settings).Reachable Always s' ∧ DeliveryPhase k s' j n' := by
    refine Steps.preserves (I := fun p : System settings.workerConcurrency × ℕ =>
      (orchestrator settings).Reachable Always p.1 ∧ DeliveryPhase k p.1 j p.2) ?_ h
      ⟨hreachable, hphase⟩
    rintro ⟨s, n⟩ l ⟨s', n'⟩ hundisturbed hstep ⟨hreach, hbefore⟩
    obtain ⟨hstep, hcount⟩ := observing_step.mp hstep
    obtain rfl : n' = countTrue j k n s l s' := hcount
    exact ⟨hreach.steps (Steps.single trivial hstep),
      hbefore.of_step (linked_of_reachable hreach) hstep hundisturbed⟩
  exact hboth.2

/-- A `QUEUED` job with a message delivered and without an attempt that lost its lease. -/
lemma waiting_of_reachable {job : Job} (hreachable : (orchestrator settings).Reachable Always s)
    (hrow : s.db.jobs.get? j = some job) (hstatus : job.status = .queued)
    (hdelivered : ∃ c, s.workers c = .delivered j)
    (hclosed : ∀ c e, s.workers c = .executing e → e.jobId = j → e.stage.isOpen = false) :
    DeliveryPhase job.attempts s j 0 := by
  have hflag : job.cancellationRequestedAt = none := by
    rw [← Option.not_isSome_iff_eq_none]
    intro hrequested
    have hsettling := (flagSound_of_reachable hreachable j).settling job hrow hrequested
    rw [hstatus] at hsettling
    exact absurd hsettling (by decide)
  refine .waiting job hrow hstatus hflag rfl (fun c e he => ?_) hdelivered
  obtain ⟨hworker, hjob⟩ := (s.life_executions j).mp he
  obtain ⟨job', hrow', hnumber, -⟩ := leaseSound_of_reachable hreachable j c e he
  obtain rfl := Option.some.inj (hrow.symm.trans hrow')
  exact ⟨hnumber, hclosed c e hworker hjob⟩

/-- When no call for the job is in progress any more, its deliveries are done. -/
lemma DeliveryPhase.done_of_free (h : DeliveryPhase k s j n) (hfree : ∀ c, ¬ (s.workers c).busy j) :
    n = 1 ∧ ∃ job, s.db.jobs.get? j = some job ∧ job.attempts = k + 1 := by
  cases h with
  | waiting _ _ _ _ _ _ hdelivered =>
      obtain ⟨c, hc⟩ := hdelivered
      exact absurd (by simp [hc, Consumer.busy]) (hfree c)
  | running _ c e _ _ _ _ _ he | committed _ c e _ _ _ he =>
      obtain ⟨hworker, hjob⟩ := (s.life_executions j).mp he
      exact absurd (by simp [hworker, Consumer.busy, hjob]) (hfree c)
  | done job hrow _ hattempts => exact ⟨rfl, job, hrow, hattempts⟩

/-- **Exclusive claims.**  Between two entries of a job into a claimable status at most one claim
wins.  Its attempt rows carry the numbers from one to its attempts, each once, and the unique
index on them refuses no claim.  Any number of deliveries of a `QUEUED` job that run undisturbed
to their end make one attempt and one `execute` that returns `True`. -/
theorem claims_exclusive (j : UUID) :
    (∀ (s : System settings.workerConcurrency) (n : ℕ),
      ((orchestrator settings).observing 0 (countWins settings j)).Reachable Always (s, n) →
        n ≤ 1) ∧
    (∀ s, (orchestrator settings).Reachable Always s → ∀ job, s.db.jobs.get? j = some job →
      (s.db.record j).attempts.map JobAttempt.attemptNumber = List.range' 1 job.attempts ∧
      ∀ (tx : Tx) (workerId : String) (now : Time),
        s.db.jobAttempts.get? tx.attemptId = none →
          (claim settings s.db tx workerId j now).isSome) ∧
    (∀ s s' n job, (orchestrator settings).Reachable Always s → s.db.jobs.get? j = some job →
      job.status = .queued → (∃ c, s.workers c = .delivered j) →
      (∀ c e, s.workers c = .executing e → e.jobId = j → e.stage.isOpen = false) →
      ((orchestrator settings).observing 0 (countTrue j job.attempts)).Steps
        (fun p l => p.1.undisturbed settings j l) (s, 0) (s', n) →
      (∀ c, ¬ (s'.workers c).busy j) →
      n = 1 ∧ ∃ job', s'.db.jobs.get? j = some job' ∧ job'.attempts = job.attempts + 1) := by
  refine ⟨fun s n => countWins_of_reachable, fun s hreach job hrow => ⟨?_, ?_⟩, ?_⟩
  · exact numbered_of_reachable hreach j job hrow
  · exact fun tx workerId now => claim_isSome hreach
  · intro s s' n job hreach hrow hstatus hdelivered hclosed hsteps hfree
    have hwaiting := waiting_of_reachable hreach hrow hstatus hdelivered hclosed
    exact (hwaiting.of_steps hreach hsteps).done_of_free hfree

end Deliveries

/-! ## Two deliveries -/

namespace Scenario

/-- The message and its redelivery reach two processes. -/
def twoDeliveries : List (Label 4) :=
  submitted 3 ++ dispatched ++ redelivered ++ [.worker first .consume, .worker elsewhere .consume]

/-- Both claim, and the winner runs to its end. -/
def twoCalls : List (Label 4) :=
  [.worker elsewhere (.claim (tx 4) 31000000), .worker first (.claim (tx 5) 31000000),
    .worker elsewhere (.handlerReturns []), finalize elsewhere 6 31000000,
    .worker elsewhere .returns]

end Scenario

/-- Nobody executes a job that has not been attempted. -/
lemma executions_of_attempts_zero {s : System settings.workerConcurrency} {j : UUID} {job : Job}
    (hreachable : (orchestrator settings).Reachable Always s)
    (hrow : s.db.jobs.get? j = some job) (hattempts : job.attempts = 0)
    (c : Coroutine settings.workerConcurrency) : (s.life j).executions c = none := by
  have hnil : (s.db.record j).attempts = [] := by
    have hnumbers := numbered_of_reachable hreachable j job hrow
    rw [hattempts] at hnumbers
    exact List.map_eq_nil_iff.mp hnumbers
  rw [Option.eq_none_iff_forall_ne_some]
  intro e he
  obtain ⟨a, ha, -⟩ := (linked_of_reachable hreachable j).attempt_mem c e he
  have ha : a ∈ (s.db.record j).attempts := ha
  rw [hnil] at ha
  cases ha

lemma delivered_of_busy {consumer : Consumer} {j : UUID} (hbusy : consumer.busy j)
    (hnone : consumer.on j = none) : consumer = .delivered j := by
  cases consumer with
  | idle | ended => cases hbusy
  | delivered i => rw [of_decide_eq_true hbusy]
  | executing e => simp [Consumer.on, of_decide_eq_true hbusy] at hnone

theorem claims_exclusive_two_deliveries :
    ∃ (s s' : System 4) (n : ℕ) (job : Job), s.workers Scenario.first = .delivered Scenario.jobId ∧
      s.workers Scenario.elsewhere = .delivered Scenario.jobId ∧
      s.db.jobs.get? Scenario.jobId = some job ∧
      ((orchestrator {}).observing 0 (countTrue Scenario.jobId job.attempts)).Steps
        (fun p l => p.1.undisturbed {} Scenario.jobId l) (s, 0) (s', n) ∧
      n = 1 ∧ ∃ job', s'.db.jobs.get? Scenario.jobId = some job' ∧
        job'.attempts = job.attempts + 1 := by
  obtain ⟨s, hsteps, hs⟩ := exists_of_runUnder (T := orchestrator {})
    (C := fun _ l => Scenario.ofTwo l) (System.start 4 0) Scenario.twoDeliveries
    (fun s => (s.workers Scenario.first).busy Scenario.jobId &&
      (s.workers Scenario.elsewhere).busy Scenario.jobId &&
      ((s.db.jobs.get? Scenario.jobId).any fun job => job.status = .queued && job.attempts = 0) &&
      (((orchestrator {}).observing 0 (countTrue Scenario.jobId 0)).runUnder
        (fun p l => p.1.undisturbed {} Scenario.jobId l ∧ Scenario.ofTwo l) (s, 0)
        Scenario.twoCalls).any fun p => !(p.1.workers Scenario.first).busy Scenario.jobId &&
          !(p.1.workers Scenario.elsewhere).busy Scenario.jobId) (by decide +kernel)
  rw [Bool.and_eq_true, Bool.and_eq_true, Bool.and_eq_true] at hs
  obtain ⟨⟨⟨hfirst, helsewhere⟩, hjob⟩, hrun⟩ := hs
  obtain ⟨job, hrow, hjob⟩ := (Option.any_eq_true ..).mp hjob
  rw [Bool.and_eq_true, decide_eq_true_eq, decide_eq_true_eq] at hjob
  obtain ⟨hstatus, hattempts⟩ := hjob
  obtain ⟨⟨s', n⟩, hcalls, hfree⟩ := exists_of_runUnder _ _ _ hrun
  rw [Bool.and_eq_true] at hfree
  have hreach : (orchestrator {}).Reachable Always s :=
    ⟨_, ⟨0, rfl⟩, hsteps.mono fun _ _ _ => trivial⟩
  have hnone := @executions_of_attempts_zero {} s _ job hreach hrow hattempts
  have hfirst := delivered_of_busy hfirst (hnone Scenario.first)
  have helsewhere := delivered_of_busy helsewhere (hnone Scenario.elsewhere)
  have hundisturbed : ((orchestrator {}).observing 0 (countTrue Scenario.jobId job.attempts)).Steps
      (fun p l => p.1.undisturbed {} Scenario.jobId l) (s, 0) (s', n) := by
    rw [hattempts]
    exact hcalls.mono fun _ _ hC => hC.1
  have hall : (orchestrator {}).Steps (fun _ l => Scenario.ofTwo l) (System.start 4 0) s' :=
    hsteps.trans (hcalls.of_observing fun _ _ hC => hC.2)
  have hidle : ∀ c, c ≠ Scenario.first → c ≠ Scenario.elsewhere → s'.workers c = .idle := by
    intro c hc hc'
    refine Steps.preserves (I := fun s => s.workers c = .idle) ?_ hall rfl
    intro s l s' hl hstep hbefore
    exact (Scenario.idle_of_ofTwo hstep hl hc hc').trans hbefore
  refine ⟨s, s', n, job, hfirst, helsewhere, hrow, hundisturbed, ?_⟩
  refine (@claims_exclusive {} Scenario.jobId).2.2 s s' n job hreach hrow hstatus
    ⟨_, hfirst⟩ ?_ hundisturbed ?_
  · intro c e he hjob
    cases (hnone c).symm.trans ((s.life_executions _).mpr ⟨he, hjob⟩)
  · intro c
    by_cases hc : c = Scenario.first
    · simpa [hc] using hfree.1
    · by_cases hc' : c = Scenario.elsewhere
      · simpa [hc'] using hfree.2
      · rw [hidle c hc hc']
        exact Bool.false_ne_true

end JobOrchestrator
