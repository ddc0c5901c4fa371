import JobOrchestrator.Properties.Transitions

/-!
# Results

Several attempts of one job may be about to commit at the same time.  The statement that makes
the job succeed matches once, and in its transaction the attempt row of the committing attempt
becomes the one attempt of the job that succeeded.

What the handlers returned is no part of the state of the system, so the runs are observed:
`withResults` collects the value of every handler run under the attempt that ran it.
-/

namespace JobOrchestrator

open ExecutionService TransitionSystem

variable {settings : Settings}

/-- The attempt whose handler returns at the step, and the value. -/
def System.handlerResult {concurrency : ℕ} (s : System concurrency) :
    Label concurrency → Option (UUID × Dict)
  | .worker c (.handlerReturns result) =>
      match s.workers c with
      | .executing e => some (e.attemptId, result)
      | _ => none
  | _ => none

/-- The runs with everything that handlers returned. -/
def withResults (settings : Settings) :
    TransitionSystem (System settings.workerConcurrency × List (UUID × Dict))
      (Label settings.workerConcurrency) :=
  (orchestrator settings).observing [] fun returned s l _ => returned ++ (s.handlerResult l).toList

/-- The attempts of a job that succeeded. -/
def System.succeededAttempts {concurrency : ℕ} (s : System concurrency) (jobId : UUID) :
    List JobAttempt :=
  (s.db.record jobId).attempts.filter fun a => a.status = .succeeded

/-! ## Attempts and their executions -/

/-- No two coroutines execute the same attempt. -/
def AttemptsApart {concurrency : ℕ} (s : System concurrency) : Prop :=
  ∀ c d e f, s.workers c = .executing e → s.workers d = .executing f →
    e.attemptId = f.attemptId → c = d

section Step

variable {s s' : System settings.workerConcurrency} {c : Coroutine settings.workerConcurrency}
  {l : Label settings.workerConcurrency} {e' : Execution}

/-- What an execution found after a step was before it: the same attempt at the same stage, at
one it went on from by the action that the step is, or about to commit. -/
structure Continues (s : System settings.workerConcurrency)
    (c : Coroutine settings.workerConcurrency) (l : Label settings.workerConcurrency)
    (e e' : Execution) : Prop where
  before : s.workers c = .executing e
  attemptId : e.attemptId = e'.attemptId
  jobId : e.jobId = e'.jobId
  stage : e.stage = e'.stage ∨ (∃ action, l = .worker c action ∧ Resumes s.db e action e'.stage) ∨
    e'.stage.isOpen = false

/-- An execution found after a step was there before, or a claim has just inserted its attempt
under a fresh id. -/
lemma execution_of_step (h : s.step settings l = some s') (he' : s'.workers c = .executing e') :
    (∃ e, Continues s c l e e') ∨
      ∃ tx now, l = .worker c (.claim tx now) ∧ e'.stage = .handler ∧
        s.db.jobAttempts.get? e'.attemptId = none := by
  rcases consumer_of_step h c with hsame | ⟨-, hended⟩ | ⟨action, rfl, hstep⟩
  · exact Or.inl ⟨e', hsame ▸ he', rfl, rfl, Or.inl rfl⟩
  · cases hended.symm.trans he'
  · cases hstep with
    | heartbeat e now he | passed e he | progressed e progress now he =>
        exact Or.inl ⟨e', he', rfl, rfl, Or.inl rfl⟩
    | consumed | claimFailed | stopped | returned =>
        cases (Function.update_self ..).symm.trans he'
    | claimed tx now jobId db result hdelivered htimely hclaim =>
        have he' := (Function.update_self ..).symm.trans he'
        cases result with
        | none => cases he'
        | some won =>
            obtain rfl := Consumer.executing.inj he'
            obtain ⟨hid, hfresh⟩ := attempt_of_claim hclaim
            have hnone : s.db.jobAttempts.get? won.attemptId = none := by rw [hid, hfresh]
            exact Or.inr ⟨tx, now, rfl, rfl, hnone⟩
    | heartbeatFailed e he =>
        obtain rfl := Consumer.executing.inj ((Function.update_self ..).symm.trans he')
        exact Or.inl ⟨e, he, rfl, rfl, Or.inl rfl⟩
    | resumed e action stage he hresumes =>
        obtain rfl := Consumer.executing.inj ((Function.update_self ..).symm.trans he')
        exact Or.inl ⟨e, he, rfl, rfl, Or.inr (Or.inl ⟨action, rfl, hresumes⟩)⟩
    | finalized e outcome tx now db hit he =>
        obtain rfl := Consumer.executing.inj ((Function.update_self ..).symm.trans he')
        exact Or.inl ⟨e, he, rfl, rfl, Or.inr (Or.inr (afterFinalize_isOpen hit outcome))⟩
    | deadLettered e he =>
        obtain rfl := Consumer.executing.inj ((Function.update_self ..).symm.trans he')
        exact Or.inl ⟨e, he, rfl, rfl, Or.inr (Or.inr rfl)⟩

/-- An execution has an attempt row. -/
lemma attempt_of_executing (hlinked : ∀ j, Linked (s.life j)) {e : Execution}
    (he : s.workers c = .executing e) :
    ∃ a, s.db.jobAttempts.get? e.attemptId = some a ∧ a.jobId = e.jobId := by
  obtain ⟨a, ha, hid⟩ :=
    (hlinked e.jobId).attempt_mem c e ((s.life_executions e.jobId).mpr ⟨he, rfl⟩)
  obtain ⟨hmem, hjob⟩ := Table.mem_children.mp ha
  exact ⟨a, hid ▸ Table.get?_of_mem hmem, hjob⟩

lemma attemptsApart_of_step (hlinked : ∀ j, Linked (s.life j)) (hapart : AttemptsApart s)
    (h : s.step settings l = some s') : AttemptsApart s' := by
  -- an attempt that has just been claimed is executed nowhere else
  have hfresh : ∀ {d : Coroutine settings.workerConcurrency} {f : Execution} {id : UUID},
      s.workers d = .executing f → s.db.jobAttempts.get? id = none → f.attemptId ≠ id := by
    rintro d f id hf hnone rfl
    obtain ⟨a, ha, -⟩ := attempt_of_executing hlinked hf
    cases hnone.symm.trans ha
  intro c d e' f' he' hf' hid
  rcases execution_of_step h he' with ⟨e, he⟩ | ⟨tx, now, hclaim, -, hnone⟩
  · rcases execution_of_step h hf' with ⟨f, hf⟩ | ⟨tx, now, -, -, hnone⟩
    · exact hapart c d e f he.before hf.before (he.attemptId.trans (hid.trans hf.attemptId.symm))
    · exact absurd (he.attemptId.trans hid) (hfresh he.before hnone)
  · rcases execution_of_step h hf' with ⟨f, hf⟩ | ⟨tx', now', hclaim', -, -⟩
    · exact absurd (hf.attemptId.trans hid.symm) (hfresh hf.before hnone)
    · exact (Label.worker.inj (hclaim.symm.trans hclaim')).1

end Step

theorem attemptsApart_of_reachable {s : System settings.workerConcurrency}
    {C : System settings.workerConcurrency → Label settings.workerConcurrency → Prop}
    (h : (orchestrator settings).Reachable C s) : AttemptsApart s := by
  refine Reachable.invariant (I := AttemptsApart) ?_ ?_ h
  · rintro s ⟨clock, rfl⟩ c d e f he
    cases he
  · intro s l s' hreach _ hstep hapart
    exact attemptsApart_of_step (linked_of_reachable hreach) hapart hstep

/-! ## What the handlers returned -/

/-- The log of the handlers: every attempt is in it at most once and has a row, it is not in it
while its handler runs, and a result that waits for its transaction is in it. -/
structure LogSound {concurrency : ℕ} (s : System concurrency) (returned : List (UUID × Dict)) :
    Prop where
  nodup : (returned.map Prod.fst).Nodup
  row : ∀ p ∈ returned, ∃ a, s.db.jobAttempts.get? p.1 = some a
  running : ∀ c e, s.workers c = .executing e → e.stage = .handler →
    e.attemptId ∉ returned.map Prod.fst
  waiting : ∀ c e result, s.workers c = .executing e →
    e.stage = .finalizing (.succeeded result) → (e.attemptId, result) ∈ returned

section Log

variable {s s' : System settings.workerConcurrency} {c : Coroutine settings.workerConcurrency}
  {l : Label settings.workerConcurrency} {returned : List (UUID × Dict)}

/-- The log grows when a running handler returns. -/
lemma handlerResult_cases (h : s.step settings l = some s') :
    s.handlerResult l = none ∨
      ∃ c e result, l = .worker c (.handlerReturns result) ∧ s.workers c = .executing e ∧
        e.stage = .handler ∧ s.handlerResult l = some (e.attemptId, result) ∧
        s'.workers c = .executing { e with stage := .finalizing (.succeeded result) } := by
  cases hresult : s.handlerResult l with
  | none => exact Or.inl rfl
  | some p =>
      unfold System.handlerResult at hresult
      split at hresult
      · rename_i c result
        cases workerStep_of_step h with
        | resumed e _ stage he hresumes =>
            cases hresumes with
            | returned _ hstage =>
                rw [he] at hresult
                obtain rfl := Option.some.inj hresult
                exact Or.inr ⟨c, e, result, rfl, he, hstage, rfl, Function.update_self ..⟩
      · cases hresult

/-- A row of an attempt keeps its id. -/
lemma attempt_kept (hlinked : ∀ j, Linked (s.life j)) (h : s.step settings l = some s') {id : UUID}
    {a : JobAttempt} (ha : s.db.jobAttempts.get? id = some a) :
    ∃ a', s'.db.jobAttempts.get? id = some a' := by
  obtain ⟨hmem, rfl⟩ := Table.get?_eq_some.mp ha
  have hrecord : a ∈ (s.db.record a.jobId).attempts := Table.mem_children.mpr ⟨hmem, rfl⟩
  have hidentity : identity a ∈ (s'.db.record a.jobId).attempts.map identity := by
    have hstep : JobStep s a.jobId l (s'.life a.jobId) := jobStep_of_step hlinked a.jobId h
    rcases attempts_of_jobStep hstep with hsame | ⟨_, _, _, _, _, _, _, _, _, hmore⟩
    · exact hsame ▸ List.mem_map_of_mem hrecord
    · exact hmore ▸ List.mem_append_left _ (List.mem_map_of_mem hrecord)
  obtain ⟨a', ha', hsame⟩ := List.mem_map.mp hidentity
  have hid : a'.id = a.id := congrArg Prod.fst hsame
  exact ⟨a', hid ▸ Table.get?_of_mem (Table.mem_children.mp ha').1⟩

/-- A handler that runs after a step ran before it as well, unless its attempt is new. -/
lemma running_of_step {e' : Execution} (h : s.step settings l = some s')
    (he' : s'.workers c = .executing e') (hstage' : e'.stage = .handler) :
    (∃ e, s.workers c = .executing e ∧ e.attemptId = e'.attemptId ∧ e.stage = .handler) ∨
      s.db.jobAttempts.get? e'.attemptId = none := by
  rcases execution_of_step h he' with ⟨e, he⟩ | ⟨-, -, -, -, hnone⟩
  · rcases he.stage with hsame | ⟨action, -, hresumes⟩ | hclosed
    · exact Or.inl ⟨e, he.before, he.attemptId, hsame.trans hstage'⟩
    · exact absurd hstage' hresumes.ne_handler
    · rw [hstage'] at hclosed
      cases hclosed
  · exact Or.inr hnone

/-- A result that waits after a step waited before it, or the step is the return of its
handler. -/
lemma waiting_of_step {e' : Execution} {result : Dict} (h : s.step settings l = some s')
    (he' : s'.workers c = .executing e') (hstage' : e'.stage = .finalizing (.succeeded result)) :
    (∃ e, s.workers c = .executing e ∧ e.attemptId = e'.attemptId ∧
      e.stage = .finalizing (.succeeded result)) ∨
      s.handlerResult l = some (e'.attemptId, result) := by
  rcases execution_of_step h he' with ⟨e, he⟩ | ⟨-, -, -, hhandler, -⟩
  · rcases he.stage with hsame | ⟨action, rfl, hresumes⟩ | hclosed
    · exact Or.inl ⟨e, he.before, he.attemptId, hsame.trans hstage'⟩
    · rw [hstage'] at hresumes
      obtain ⟨-, rfl⟩ := hresumes.returned_of_succeeded
      refine Or.inr ?_
      simp [System.handlerResult, he.before, he.attemptId]
    · rw [hstage'] at hclosed
      cases hclosed
  · cases hhandler.symm.trans hstage'

lemma logSound_of_step (hlinked : ∀ j, Linked (s.life j)) (hapart : AttemptsApart s)
    (hsound : LogSound s returned) (h : s.step settings l = some s') :
    LogSound s' (returned ++ (s.handlerResult l).toList) := by
  have hrow : ∀ p ∈ returned, ∃ a, s'.db.jobAttempts.get? p.1 = some a := by
    intro p hp
    obtain ⟨a, ha⟩ := hsound.row p hp
    exact attempt_kept hlinked h ha
  have hrunning : ∀ c e', s'.workers c = .executing e' → e'.stage = .handler →
      e'.attemptId ∉ returned.map Prod.fst := by
    intro c e' he' hstage'
    rcases running_of_step h he' hstage' with ⟨e, he, hid, hstage⟩ | hnone
    · exact hid ▸ hsound.running c e he hstage
    · intro hmem
      obtain ⟨p, hp, hid⟩ := List.mem_map.mp hmem
      obtain ⟨a, ha⟩ := hsound.row p hp
      rw [hid, hnone] at ha
      cases ha
  have hwaiting : ∀ c e' result, s'.workers c = .executing e' →
      e'.stage = .finalizing (.succeeded result) →
      (e'.attemptId, result) ∈ returned ++ (s.handlerResult l).toList := by
    intro c e' result he' hstage'
    rcases waiting_of_step h he' hstage' with ⟨e, he, hid, hstage⟩ | hresult
    · exact List.mem_append_left _ (hid ▸ hsound.waiting c e result he hstage)
    · rw [hresult]
      exact List.mem_append_right _ (List.mem_singleton.mpr rfl)
  rcases handlerResult_cases h with hquiet | ⟨c, e, result, rfl, he, hstage, hresult, hafter⟩
  · rw [hquiet, Option.toList_none, List.append_nil] at hwaiting ⊢
    exact ⟨hsound.nodup, hrow, hrunning, hwaiting⟩
  · refine ⟨?_, ?_, ?_, hwaiting⟩
    · rw [hresult, List.map_append]
      exact hsound.nodup.append (List.nodup_singleton _)
        (List.disjoint_singleton.mpr (hsound.running c e he hstage))
    · intro p hp
      rw [hresult] at hp
      rcases List.mem_append.mp hp with hold | hnew
      · exact hrow p hold
      · obtain rfl := List.mem_singleton.mp hnew
        obtain ⟨a, ha, -⟩ := attempt_of_executing hlinked he
        exact attempt_kept hlinked h ha
    · intro d f' hf' hhandler hmem
      rw [hresult, List.map_append] at hmem
      rcases List.mem_append.mp hmem with hold | hnew
      · exact hrunning d f' hf' hhandler hold
      · -- the attempt whose handler has just returned runs no other handler
        have hid : f'.attemptId = e.attemptId := List.mem_singleton.mp hnew
        obtain rfl : d = c := attemptsApart_of_step hlinked hapart h d c f' _ hf' hafter hid
        obtain rfl := Consumer.executing.inj (hf'.symm.trans hafter)
        cases hhandler

end Log

/-! ## The attempt that succeeded -/

section Attempts

variable {s : System settings.workerConcurrency} {j : UUID}
  {l : Label settings.workerConcurrency} {life' : Life settings.workerConcurrency} {a : JobAttempt}

/-- What a step does to the attempt rows of a job. -/
inductive AttemptsStep (s : System settings.workerConcurrency) (j : UUID)
    (l : Label settings.workerConcurrency) (life' : Life settings.workerConcurrency) : Prop
  | same (h : life'.record.attempts = (s.db.record j).attempts)
  | started (a : JobAttempt) (hstatus : a.status = .running)
      (h : life'.record.attempts = (s.db.record j).attempts ++ [a])
  | superseded (c e outcome now) (he : (s.life j).executions c = some e)
      (hstage : e.stage = .finalizing outcome)
      (h : life'.record.attempts = (s.db.record j).attempts.map fun a =>
        if a.id = e.attemptId then superseded now a else a)
  | finalized (c e outcome tx now job) (hl : l = .worker c (.finalize tx now))
      (he : (s.life j).executions c = some e) (hstage : e.stage = .finalizing outcome)
      (hrow : (s.db.record j).row = some job)
      (hguard : (outcome.finalizer.update c.workerId now).guard job)
      (hrow' : life'.record.row = some ((outcome.finalizer.update c.workerId now).values job))
      (he' : life'.executions c = some { e with stage := Stage.afterFinalize true outcome })
      (h : life'.record.attempts = (s.db.record j).attempts.map fun a =>
        if a.id = e.attemptId then
          JobAttemptRepository.finished outcome.finalizer.attemptStatus now
            outcome.finalizer.errorCode outcome.finalizer.errorMessage a
        else a)

lemma attemptsStep_of_jobStep (h : JobStep s j l life') : AttemptsStep s j l life' := by
  cases h with
  | idle | tick | created | cancelRequested | heartbeat | progressed | heartbeatFailed | decided
  | left | dispatched | promoted | requeued | redelivered => exact .same rfl
  | cancelled | leaseFailed | expired => exact .same JobRecord.enqueue_attempts
  | notified r hsame =>
      refine .same ?_
      change r.attempts = (s.db.record j).attempts
      rw [hsame.1]
  | claimed => exact .started _ rfl rfl
  | superseded e outcome he hstage => exact .superseded _ e outcome _ he hstage rfl
  | finalized e outcome job he hstage hrow hguard =>
      exact .finalized _ e outcome _ _ job rfl he hstage hrow hguard finalized_row
        (Function.update_self ..) finalized_attempts

/-- The step commits the result of the attempt `id`. -/
structure CommitsResult (s : System settings.workerConcurrency) (j : UUID)
    (l : Label settings.workerConcurrency) (life' : Life settings.workerConcurrency) (id : UUID)
    (c : Coroutine settings.workerConcurrency) (e : Execution) (result : Dict) : Prop where
  label : ∃ tx now, l = .worker c (.finalize tx now)
  executes : (s.life j).executions c = some e
  attemptId : e.attemptId = id
  stage : e.stage = .finalizing (.succeeded result)
  active : ∀ job, (s.db.record j).row = some job → ¬ job.status.isTerminal
  closes : ∃ e', life'.executions c = some e' ∧ e'.attemptId = id ∧ e'.stage.isOpen = false
  row : ∃ job', life'.record.row = some job' ∧ job'.status = .succeeded ∧
    job'.result = some result

/-- An attempt that has succeeded after a step had succeeded before it, or the step commits its
result. -/
lemma succeeded_attempt (h : JobStep s j l life') (ha : a ∈ life'.record.attempts)
    (hsucceeded : a.status = .succeeded) :
    a ∈ (s.db.record j).attempts ∨ ∃ c e result, CommitsResult s j l life' a.id c e result := by
  cases attemptsStep_of_jobStep h with
  | same hrows => exact Or.inl (hrows ▸ ha)
  | started a₁ hstatus hrows =>
      rw [hrows] at ha
      rcases List.mem_append.mp ha with hold | hnew
      · exact Or.inl hold
      · obtain rfl := List.mem_singleton.mp hnew
        cases hstatus.symm.trans hsucceeded
  | superseded c e outcome now he hstage hrows =>
      rw [hrows] at ha
      obtain ⟨a₀, ha₀, rfl⟩ := List.mem_map.mp ha
      by_cases hown : a₀.id = e.attemptId
      · rw [if_pos hown] at hsucceeded
        cases hsucceeded
      · rw [if_neg hown]
        exact Or.inl ha₀
  | finalized c e outcome tx now job hl he hstage hrow hguard hrow' he' hrows =>
      rw [hrows] at ha
      obtain ⟨a₀, ha₀, rfl⟩ := List.mem_map.mp ha
      by_cases hown : a₀.id = e.attemptId
      · rw [if_pos hown] at hsucceeded ⊢
        cases outcome with
        | failed | retry | cancelled => cases hsucceeded
        | succeeded result =>
            have hissues : Issues s j (.worker c (.finalize tx now))
                ((Outcome.succeeded result).finalizer.update c.workerId now) :=
              .finalize e _ he hstage
            have hactive : ¬ job.status.isTerminal := not_isTerminal_of_issues hissues hguard
            have hclosed := afterFinalize_isOpen true (.succeeded result)
            refine Or.inr ⟨c, e, result, ⟨tx, now, hl⟩, he, hown.symm, hstage, ?_,
              ⟨_, he', hown.symm, hclosed⟩, ⟨_, hrow', rfl, rfl⟩⟩
            intro job' hjob'
            rwa [← Option.some.inj (hrow.symm.trans hjob')]
      · rw [if_neg hown]
        exact Or.inl ha₀

/-- Only an execution that is about to commit writes the row of its attempt. -/
lemma attempt_of_jobStep (h : JobStep s j l life') (ha : a ∈ (s.db.record j).attempts)
    (hfree : ∀ c e, (s.life j).executions c = some e → e.stage.isOpen → e.attemptId ≠ a.id) :
    a ∈ life'.record.attempts := by
  cases attemptsStep_of_jobStep h with
  | same hrows => exact hrows ▸ ha
  | started a₁ _ hrows => exact hrows ▸ List.mem_append_left _ ha
  | superseded c e outcome now he hstage hrows =>
      have hother : a.id ≠ e.attemptId := (hfree c e he (by rw [hstage]; rfl)).symm
      rw [hrows]
      exact List.mem_map.mpr ⟨a, ha, if_neg hother⟩
  | finalized c e outcome tx now job _ he hstage _ _ _ _ hrows =>
      have hother : a.id ≠ e.attemptId := (hfree c e he (by rw [hstage]; rfl)).symm
      rw [hrows]
      exact List.mem_map.mpr ⟨a, ha, if_neg hother⟩

/-- The statements that can make a job succeed. -/
lemma succeeded_of_issues {u : JobUpdate} (h : Issues s j l u) {job : Job} (hguard : u.guard job)
    (hsucceeded : (u.values job).status = .succeeded) :
    ∃ c tx now e result, l = .worker c (.finalize tx now) ∧
      (s.life j).executions c = some e ∧ e.stage = .finalizing (.succeeded result) := by
  have hactive := not_isTerminal_of_issues h hguard
  cases h with
  | heartbeat | updateProgress | markRedispatched =>
      have hsucceeded : job.status = .succeeded := hsucceeded
      rw [hsucceeded] at hactive
      exact absurd (by decide) hactive
  | requestRunningCancellation | cancelInactive | claimForExecution | markQueued
  | moveRetryToQueued | failExpiredLease | requeueExpiredLease | expire => cases hsucceeded
  | finalize e outcome he hstage =>
      cases outcome with
      | succeeded result => exact ⟨_, _, _, e, result, rfl, he, hstage⟩
      | failed | retry | cancelled => cases hsucceeded

/-- A job that has succeeded after a step had succeeded before it, or the step has made one of
its attempts succeed. -/
lemma succeeded_of_jobStep (hlinked : Linked (s.life j)) (h : JobStep s j l life') {job' : Job}
    (hrow' : life'.record.row = some job') (hsucceeded : job'.status = .succeeded) :
    (s.db.record j).row = some job' ∨ ∃ a ∈ life'.record.attempts, a.status = .succeeded := by
  rcases row_of_jobStep h with hsame | ⟨_, _, _, -, hnew⟩ | ⟨u, job, hu, hrow, hguard, hvalues⟩
  · exact Or.inl (hsame.symm.trans hrow')
  · obtain rfl := Option.some.inj (hnew.symm.trans hrow')
    cases hsucceeded
  · obtain rfl := Option.some.inj (hvalues.symm.trans hrow')
    obtain ⟨c, tx, now, e, result, rfl, he, hstage⟩ := succeeded_of_issues hu hguard hsucceeded
    cases h with
    | idle | decided | left | superseded => exact Or.inl hrow'
    | finalized e₁ outcome _ he₁ hstage₁ =>
        obtain rfl := Option.some.inj (he.symm.trans he₁)
        obtain rfl := Stage.finalizing.inj (hstage.symm.trans hstage₁)
        obtain ⟨a, ha, hid⟩ := hlinked.attempt_mem c e he
        refine Or.inr ⟨JobAttemptRepository.finished .succeeded now none none a, ?_, rfl⟩
        rw [finalized_attempts]
        exact List.mem_map.mpr ⟨a, ha, if_pos hid⟩

end Attempts

/-- The job has succeeded exactly when one of its attempts has, with the value that its handler
returned, and this attempt is executed no more. -/
structure ResultSound {concurrency : ℕ} (s : System concurrency) (returned : List (UUID × Dict))
    (j : UUID) : Prop where
  unfinished : ∀ c e, (s.life j).executions c = some e → e.stage.isOpen →
    ∀ a ∈ (s.db.record j).attempts, a.id = e.attemptId → a.status ≠ .succeeded
  value : ∀ a ∈ (s.db.record j).attempts, a.status = .succeeded → ∃ job result,
    (s.db.record j).row = some job ∧ job.status = .succeeded ∧ job.result = some result ∧
      (a.id, result) ∈ returned
  winner : ∀ job, (s.db.record j).row = some job → job.status = .succeeded →
    ∃ a ∈ (s.db.record j).attempts, a.status = .succeeded
  unique : ∀ a ∈ (s.db.record j).attempts, ∀ b ∈ (s.db.record j).attempts,
    a.status = .succeeded → b.status = .succeeded → a = b

section Result

variable {s s' : System settings.workerConcurrency} {j : UUID}
  {l : Label settings.workerConcurrency} {returned returned' : List (UUID × Dict)}

/-- Attempts of one id are one attempt. -/
lemma attempt_eq {a b : JobAttempt} (ha : a ∈ (s.db.record j).attempts)
    (hb : b ∈ (s.db.record j).attempts) (hid : a.id = b.id) : a = b :=
  Table.eq_of_key_eq (Table.mem_children.mp ha).1 (Table.mem_children.mp hb).1 hid

/-- An execution that is open after a step was open before it, or its attempt is new. -/
lemma open_of_step {c : Coroutine settings.workerConcurrency} {e' : Execution}
    (h : s.step settings l = some s') (he' : (s'.life j).executions c = some e')
    (hopen' : e'.stage.isOpen) :
    (∃ e, (s.life j).executions c = some e ∧ e.attemptId = e'.attemptId ∧ e.stage.isOpen) ∨
      s.db.jobAttempts.get? e'.attemptId = none := by
  obtain ⟨he', hjob⟩ := (s'.life_executions j).mp he'
  rcases execution_of_step h he' with ⟨e, he⟩ | ⟨-, -, -, -, hnone⟩
  · have hexec : (s.life j).executions c = some e :=
      (s.life_executions j).mpr ⟨he.before, he.jobId.trans hjob⟩
    refine Or.inl ⟨e, hexec, he.attemptId, ?_⟩
    rcases he.stage with hsame | ⟨action, -, hresumes⟩ | hclosed
    · rw [hsame]
      exact hopen'
    · exact (decides_of_resumes hresumes).isOpen hopen'
    · rw [hclosed] at hopen'
      cases hopen'
  · exact Or.inr hnone

lemma resultSound_of_step (hlinked : ∀ j, Linked (s.life j)) (hlog : LogSound s returned)
    (hapart' : AttemptsApart s') (hsound : ResultSound s returned j)
    (hmono : ∀ p ∈ returned, p ∈ returned') (h : s.step settings l = some s') :
    ResultSound s' returned' j := by
  have hstep : JobStep s j l (s'.life j) := jobStep_of_step hlinked j h
  refine ⟨?_, ?_, ?_, ?_⟩
  · intro c e' he' hopen' a ha hid hsucceeded
    rcases succeeded_attempt hstep ha hsucceeded with hold | ⟨d, e, result, hcommits⟩
    · rcases open_of_step h he' hopen' with ⟨e, he, hide, hopen⟩ | hnone
      · exact hsound.unfinished c e he hopen a hold (hid.trans hide.symm) hsucceeded
      · rw [← hid, Table.get?_of_mem (Table.mem_children.mp hold).1] at hnone
        cases hnone
    · obtain ⟨f', hf', hidf, hclosed⟩ := hcommits.closes
      obtain ⟨hworker, -⟩ := (s'.life_executions j).mp he'
      obtain ⟨hworker', -⟩ := (s'.life_executions j).mp hf'
      obtain rfl := hapart' c d e' f' hworker hworker' (hid.symm.trans hidf.symm)
      obtain rfl := Option.some.inj (he'.symm.trans hf')
      rw [hclosed] at hopen'
      cases hopen'
  · intro a ha hsucceeded
    rcases succeeded_attempt hstep ha hsucceeded with hold | ⟨c, e, result, hcommits⟩
    · obtain ⟨job, result, hrow, hstatus, hresult, hmem⟩ := hsound.value a hold hsucceeded
      have hterminal : job.status.isTerminal := by
        rw [hstatus]
        decide
      exact ⟨job, result, row_of_terminal hstep hrow hterminal, hstatus, hresult, hmono _ hmem⟩
    · obtain ⟨job', hrow', hstatus, hresult⟩ := hcommits.row
      obtain ⟨hworker, -⟩ := (s.life_executions j).mp hcommits.executes
      have hwaits := hlog.waiting c e result hworker hcommits.stage
      rw [hcommits.attemptId] at hwaits
      exact ⟨job', result, hrow', hstatus, hresult, hmono _ hwaits⟩
  · intro job' hrow' hsucceeded
    rcases succeeded_of_jobStep (hlinked j) hstep hrow' hsucceeded with hrow | hnew
    · obtain ⟨a, ha, hstatus⟩ := hsound.winner job' hrow hsucceeded
      refine ⟨a, attempt_of_jobStep hstep ha fun c e he hopen hid => ?_, hstatus⟩
      exact hsound.unfinished c e he hopen a ha hid.symm hstatus
    · exact hnew
  · -- a commit finds the job active, so there was no such attempt before
    have hfirst : ∀ a ∈ (s.db.record j).attempts, a.status = .succeeded → ∀ id c e result,
        ¬ CommitsResult s j l (s'.life j) id c e result := by
      intro a ha hstatus id c e result hcommits
      obtain ⟨job, -, hrow, hsucceeded, -⟩ := hsound.value a ha hstatus
      have hactive := hcommits.active job hrow
      rw [hsucceeded] at hactive
      exact hactive (by decide)
    intro a ha b hb hstatusa hstatusb
    rcases succeeded_attempt hstep ha hstatusa with holda | ⟨c, e, result, hcommitsa⟩
    · rcases succeeded_attempt hstep hb hstatusb with holdb | ⟨d, f, result', hcommitsb⟩
      · exact hsound.unique a holda b holdb hstatusa hstatusb
      · exact absurd hcommitsb (hfirst a holda hstatusa _ _ _ _)
    · rcases succeeded_attempt hstep hb hstatusb with holdb | ⟨d, f, result', hcommitsb⟩
      · exact absurd hcommitsa (hfirst b holdb hstatusb _ _ _ _)
      · obtain ⟨tx, now, hl⟩ := hcommitsa.label
        obtain ⟨tx', now', hl'⟩ := hcommitsb.label
        obtain rfl := (Label.worker.inj (hl.symm.trans hl')).1
        obtain rfl := Option.some.inj (hcommitsa.executes.symm.trans hcommitsb.executes)
        exact attempt_eq ha hb (hcommitsa.attemptId.symm.trans hcommitsb.attemptId)

end Result

lemma logSound_start (clock : Time) :
    LogSound (System.start settings.workerConcurrency clock) [] where
  nodup := List.nodup_nil
  row _ hp := by cases hp
  running _ _ he := by cases he
  waiting _ _ _ he := by cases he

lemma resultSound_start (clock : Time) (j : UUID) :
    ResultSound (System.start settings.workerConcurrency clock) [] j where
  unfinished _ _ he := by cases he
  value _ ha := by cases ha
  winner _ hrow := by cases hrow
  unique _ ha := by cases ha

/-- In every reachable state the log and the succeeded attempts are as described. -/
theorem resultSound_of_reachable {s : System settings.workerConcurrency}
    {returned : List (UUID × Dict)} (h : (withResults settings).Reachable Always (s, returned)) :
    LogSound s returned ∧ ∀ j, ResultSound s returned j := by
  refine Reachable.invariant (T := withResults settings)
    (I := fun p => LogSound p.1 p.2 ∧ ∀ j, ResultSound p.1 p.2 j) ?_ ?_ h
  · rintro ⟨s, returned⟩ ⟨⟨clock, rfl⟩, rfl⟩
    exact ⟨logSound_start clock, resultSound_start clock⟩
  · rintro ⟨s, returned⟩ l ⟨s', returned'⟩ hreach _ hstep ⟨hlog, hsound⟩
    have hreach : (orchestrator settings).Reachable Always s :=
      hreach.of_observing fun _ _ _ => trivial
    obtain ⟨hstep, rfl⟩ := observing_step.mp hstep
    have hlinked := linked_of_reachable hreach
    have hapart := attemptsApart_of_reachable hreach
    refine ⟨logSound_of_step hlinked hapart hlog hstep, fun j => ?_⟩
    exact resultSound_of_step hlinked hlog (attemptsApart_of_step hlinked hapart hstep) (hsound j)
      (fun p hp => List.mem_append_left _ hp) hstep

/-- **Single-commit result.**  In every reachable state a job has succeeded exactly when one of
its attempts has, it never has two of them, and its result is the one value that the handler of
that attempt returned. -/
theorem single_commit_result {s : System settings.workerConcurrency}
    {returned : List (UUID × Dict)} (h : (withResults settings).Reachable Always (s, returned))
    (j : UUID) :
    (s.status j = some .succeeded ↔ (s.succeededAttempts j).length = 1) ∧
      (s.succeededAttempts j).length ≤ 1 ∧
      ∀ a ∈ s.succeededAttempts j, ∃ job result, s.db.jobs.get? j = some job ∧
        job.result = some result ∧ ∀ value, (a.id, value) ∈ returned ↔ value = result := by
  obtain ⟨hlog, hsound⟩ := resultSound_of_reachable h
  have hmem : ∀ a, a ∈ s.succeededAttempts j ↔
      a ∈ (s.db.record j).attempts ∧ a.status = .succeeded := by
    intro a
    simp [System.succeededAttempts]
  have hnodup : (s.succeededAttempts j).Nodup :=
    (List.filter_sublist.trans List.filter_sublist).nodup s.db.jobAttempts.nodup.of_map
  have hle : (s.succeededAttempts j).length ≤ 1 := by
    cases hattempts : s.succeededAttempts j with
    | nil => simp
    | cons a rest =>
        have hsingle : a :: rest ⊆ [a] := by
          intro b hb
          obtain ⟨ha, hstatusa⟩ := (hmem a).mp (hattempts ▸ List.mem_cons_self)
          obtain ⟨hb, hstatusb⟩ := (hmem b).mp (hattempts ▸ hb)
          exact List.mem_singleton.mpr ((hsound j).unique b hb a ha hstatusb hstatusa)
        exact (hattempts ▸ hnodup).length_le_of_subset hsingle
  refine ⟨?_, hle, ?_⟩
  · constructor
    · intro hstatus
      obtain ⟨job, hrow, hsucceeded⟩ := Option.map_eq_some_iff.mp hstatus
      obtain ⟨a, ha⟩ := (hsound j).winner job hrow hsucceeded
      have hpos : 0 < (s.succeededAttempts j).length := List.length_pos_of_mem ((hmem a).mpr ha)
      omega
    · intro hone
      have hpos : 0 < (s.succeededAttempts j).length := by omega
      obtain ⟨a, ha⟩ := List.exists_mem_of_length_pos hpos
      obtain ⟨hrow, hstatus⟩ := (hmem a).mp ha
      obtain ⟨job, -, hjob, hsucceeded, -, -⟩ := (hsound j).value a hrow hstatus
      exact Option.map_eq_some_iff.mpr ⟨job, hjob, hsucceeded⟩
  · intro a ha
    obtain ⟨hrow, hstatus⟩ := (hmem a).mp ha
    obtain ⟨job, result, hjob, -, hresult, hreturned⟩ := (hsound j).value a hrow hstatus
    refine ⟨job, result, hjob, hresult, fun value => ?_⟩
    constructor
    · intro hvalue
      have hsame := List.inj_on_of_nodup_map hlog.nodup hvalue hreturned rfl
      exact congrArg Prod.snd hsame
    · rintro rfl
      exact hreturned

/-- The stale first attempt of a job returns and commits while the second one runs in the same
worker process; the second one is superseded. -/
theorem single_commit_result_stale :
    ∃ (s : System 4) (returned : List (UUID × Dict)), returned.map Prod.fst = [⟨3⟩, ⟨4⟩] ∧
      s.status Scenario.jobId = some .succeeded ∧
      (s.succeededAttempts Scenario.jobId).map JobAttempt.id = [⟨3⟩] ∧
      (s.succeededAttempts Scenario.jobId).length = 1 := by
  obtain ⟨⟨s, returned⟩, hsteps, hs⟩ := exists_of_run (T := withResults {}) (System.start 4 0, [])
    (Scenario.submitted 3 ++ Scenario.dispatched ++ Scenario.claim Scenario.first 3 0 ++
      Scenario.reaped ++ Scenario.claim Scenario.second 4 61000000 ++
      [.worker Scenario.first (.handlerReturns []), .worker Scenario.second (.handlerReturns []),
        Scenario.finalize Scenario.first 5 61000000, Scenario.finalize Scenario.second 6 61000000])
    (fun p => p.2.map Prod.fst = [⟨3⟩, ⟨4⟩] && p.1.status Scenario.jobId = some .succeeded &&
      (p.1.succeededAttempts Scenario.jobId).map JobAttempt.id = [⟨3⟩]) (by decide +kernel)
  simp only [Bool.and_eq_true, decide_eq_true_eq] at hs
  obtain ⟨⟨hreturned, hstatus⟩, hattempts⟩ := hs
  have hreach : (withResults {}).Reachable Always (s, returned) := ⟨_, ⟨⟨0, rfl⟩, rfl⟩, hsteps⟩
  exact ⟨s, returned, hreturned, hstatus, hattempts,
    (single_commit_result hreach Scenario.jobId).1.mp hstatus⟩

end JobOrchestrator
