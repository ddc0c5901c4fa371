import JobOrchestrator.Properties.Transitions

/-!
# The calls of `submit`

A job's own view (`Life`) does not show which other jobs exist, so the properties of submission
are about the whole table of jobs and the calls in flight.  `callStep_of_step` says what a
step does to the calls, `rows_of_step` what it does to the table: it rewrites rows in place, or
it is the insert of one call and adds one row.
-/

namespace JobOrchestrator

open ExecutionService SubmissionService CancellationService TransitionSystem

variable {settings : Settings}

/-- The arguments of the call whose insert the step is, when no constraint refuses it. -/
def System.inserts (settings : Settings) {concurrency : ℕ} (s : System concurrency) :
    Label concurrency → Option SubmitArgs
  | .submission call tx _ =>
      (s.submissions call).bind fun submission =>
        match submission.phase with
        | .insert _ _ =>
            if accepts settings s.db tx submission.args then some submission.args else none
        | _ => none
  | _ => none

/-- What a step does to the calls of `submit`: nothing, it starts one, or it runs the next
statement of one. -/
inductive CallStep (s : System settings.workerConcurrency) :
    Label settings.workerConcurrency → System settings.workerConcurrency → Prop
  | other {l} {s' : System settings.workerConcurrency}
      (hl : ∀ call tx now, l ≠ .submission call tx now)
      (hcalls : s'.submissions = s.submissions) : CallStep s l s'
  | called {s' : System settings.workerConcurrency} (call args) (hfree : s.submissions call = none)
      (hcalls : s'.submissions = Function.update s.submissions call (some (submit args))) :
      CallStep s (.submit call args) s'
  | advanced {s' : System settings.workerConcurrency} (call tx now args phase phase')
      (hcall : s.submissions call = some ⟨args, phase⟩)
      (hadvances : Advances settings s.db tx now args phase s'.db phase')
      (hcalls : s'.submissions = Function.update s.submissions call (some ⟨args, phase'⟩)) :
      CallStep s (.submission call tx now) s'

section Step

variable {s s' : System settings.workerConcurrency} {l : Label settings.workerConcurrency}

lemma submissions_of_workerStep {c : Coroutine settings.workerConcurrency}
    {action : WorkerAction} (h : WorkerStep s c action s') : s'.submissions = s.submissions := by
  cases h <;> rfl

lemma callStep_of_step (h : s.step settings l = some s') : CallStep s l s' := by
  cases systemStep_of_step h with
  | submitted call args hfree => exact .called call args hfree rfl
  | submission call tx now submission db submission' hcall _ hnext =>
      obtain ⟨args, phase⟩ := submission
      obtain ⟨args', phase'⟩ := submission'
      obtain ⟨hargs, hadvances⟩ := advances_of_next hnext
      obtain rfl : args' = args := hargs
      exact .advanced call tx now args' phase phase' hcall hadvances rfl
  | worker _ _ hstep => exact .other (by simp) (submissions_of_workerStep hstep)
  | ticked | cancel | sweep | published | publishFailed | redis | crashed =>
      exact .other (by simp) rfl

/-- Where a call found after a step comes from: the step did not touch it, started it, or ran
its next statement. -/
lemma call_of_step {call : ℕ} {args : SubmitArgs} {phase' : Phase}
    (h : s.step settings l = some s') (hcall' : s'.submissions call = some ⟨args, phase'⟩) :
    (s.submissions call = some ⟨args, phase'⟩ ∧ ∀ tx now, l ≠ .submission call tx now) ∨
    (l = .submit call args ∧ phase' = (submit args).phase) ∨
    ∃ tx now phase, l = .submission call tx now ∧ s.submissions call = some ⟨args, phase⟩ ∧
      Advances settings s.db tx now args phase s'.db phase' := by
  cases callStep_of_step h with
  | other hl hcalls =>
      rw [hcalls] at hcall'
      exact Or.inl ⟨hcall', hl call⟩
  | called call₁ args₁ hfree hcalls =>
      rw [hcalls] at hcall'
      by_cases hsame : call = call₁
      · subst hsame
        rw [Function.update_self] at hcall'
        have hsubmit := Option.some.inj hcall'
        obtain rfl : args₁ = args := congrArg Submission.args hsubmit
        exact Or.inr (Or.inl ⟨rfl, (congrArg Submission.phase hsubmit).symm⟩)
      · rw [Function.update_of_ne hsame] at hcall'
        exact Or.inl ⟨hcall', by simp⟩
  | advanced call₁ tx now args₁ phase phase₁ hcall hadvances hcalls =>
      rw [hcalls] at hcall'
      by_cases hsame : call = call₁
      · subst hsame
        rw [Function.update_self] at hcall'
        obtain ⟨rfl, rfl⟩ := Submission.mk.inj (Option.some.inj hcall')
        exact Or.inr (Or.inr ⟨tx, now, phase, rfl, hcall, hadvances⟩)
      · rw [Function.update_of_ne hsame] at hcall'
        refine Or.inl ⟨hcall', fun tx' now' heq => ?_⟩
        exact hsame (Label.submission.inj heq).1.symm

lemma submit_phase (args : SubmitArgs) :
    (submit args).phase = .lookup ∨
      (submit args).phase = .count ∧ args.idempotencyKey = none := by
  cases hkey : args.idempotencyKey with
  | none => exact Or.inr ⟨by simp [submit, hkey], rfl⟩
  | some key => exact Or.inl (by simp [submit, hkey])

/-- Only a call of `submit` creates a job. -/
lemma created_of_jobStep {j : UUID} {life' : Life settings.workerConcurrency} {job' : Job}
    (h : JobStep s j l life') (hnone : (s.db.record j).row = none)
    (hrow' : life'.record.row = some job') :
    (∃ call tx now, l = .submission call tx now) ∧
      ∃ tx job, life'.record = created tx job (s.db.record j) := by
  cases h with
  | created => exact ⟨⟨_, _, _, rfl⟩, _, _, rfl⟩
  | idle | tick | heartbeatFailed | decided | left | superseded =>
      cases hnone.symm.trans hrow'
  | heartbeat | progressed | redelivered =>
      rw [JobRecord.updateRow, hnone] at hrow'
      cases hrow'
  | notified r hsame =>
      rw [hsame.1] at hrow'
      cases hnone.symm.trans hrow'
  | cancelRequested job _ hjob | cancelled job hjob | claimed job _ hjob
  | finalized _ _ job _ _ hjob | dispatched _ job _ _ hjob | promoted job hjob
  | leaseFailed job hjob | requeued job hjob | expired job hjob => cases hnone.symm.trans hjob

/-- Rows stay, with what was submitted. -/
lemma request_of_jobStep {j : UUID} {life' : Life settings.workerConcurrency} {job : Job}
    (h : JobStep s j l life') (hrow : (s.db.record j).row = some job) :
    ∃ job', life'.record.row = some job' ∧ job'.request = job.request := by
  rcases row_of_jobStep_of_row h hrow with hsame | ⟨u, -, -, hvalues⟩
  · exact ⟨job, hsame, rfl⟩
  · exact ⟨u.values job, hvalues, u.keeps_request job⟩

/-- A step that is no statement of a call rewrites the rows in place. -/
lemma rows_of_other
    {C : System settings.workerConcurrency → Label settings.workerConcurrency → Prop}
    (hreach : (orchestrator settings).Reachable C s)
    (h : (orchestrator settings).step s l = some s')
    (hl : ∀ call tx now, l ≠ .submission call tx now) {job' : Job}
    (hjob' : job' ∈ s'.db.jobs.rows) :
    ∃ job ∈ s.db.jobs.rows, job'.request = job.request ∧
      (job.status.isTerminal → job'.status.isTerminal) := by
  have hstep := jobStep_of_reachable hreach h job'.id
  have hrow' : (s'.db.record job'.id).row = some job' := Table.get?_of_mem hjob'
  cases hrow : (s.db.record job'.id).row with
  | none =>
      obtain ⟨⟨call, tx, now, hlabel⟩, -⟩ := created_of_jobStep hstep hrow hrow'
      exact absurd hlabel (hl call tx now)
  | some job =>
      refine ⟨job, (Table.get?_eq_some.mp hrow).1, ?_, fun hterminal => ?_⟩
      · obtain ⟨job₁, hrow₁, hrequest⟩ := request_of_jobStep hstep hrow
        obtain rfl := Option.some.inj (hrow'.symm.trans hrow₁)
        exact hrequest
      · have hsame : (s'.db.record job'.id).row = some job := row_of_terminal hstep hrow hterminal
        obtain rfl := Option.some.inj (hrow'.symm.trans hsame)
        exact hterminal

/-- A step rewrites the rows in place, or it is the insert of a call and adds the row of its
job, after it found no other job of the user with the key. -/
theorem rows_of_step
    {C : System settings.workerConcurrency → Label settings.workerConcurrency → Prop}
    (hreach : (orchestrator settings).Reachable C s)
    (h : (orchestrator settings).step s l = some s') :
    (∃ args job, s.inserts settings l = some args ∧ findExisting s.db args = none ∧
      job.userId = args.userId ∧ job.idempotencyKey = args.idempotencyKey ∧
      job.status = .pending ∧ s'.db.jobs.rows = s.db.jobs.rows ++ [job]) ∨
    (s.inserts settings l = none ∧ ∀ job' ∈ s'.db.jobs.rows, ∃ job ∈ s.db.jobs.rows,
      job'.request = job.request ∧ (job.status.isTerminal → job'.status.isTerminal)) := by
  cases callStep_of_step h with
  | other hl hcalls =>
      refine Or.inr ⟨?_, fun job' => rows_of_other hreach h hl⟩
      cases l with
      | submission call tx now => exact absurd rfl (hl call tx now)
      | tick | submit | cancel | sweep | publish | publishFails | redis | worker | crash => rfl
  | called call args =>
      exact Or.inr ⟨rfl, fun job' => rows_of_other hreach h (by simp)⟩
  | advanced call tx now args phase phase' hcall hadvances hcalls =>
      have hkept : s'.db = s.db → s.inserts settings (.submission call tx now) = none →
          s.inserts settings (.submission call tx now) = none ∧
            ∀ job' ∈ s'.db.jobs.rows, ∃ job ∈ s.db.jobs.rows, job'.request = job.request ∧
              (job.status.isTerminal → job'.status.isTerminal) := by
        intro hdb hnone
        refine ⟨hnone, fun job' hjob' => ⟨job', ?_, rfl, id⟩⟩
        rwa [← hdb]
      have hiff : ∀ now' began, (create settings s.db { tx with began } args now').isSome ↔
          accepts settings s.db tx args := fun _ _ => create_isSome
      generalize hdb : s'.db = db' at hadvances
      cases hadvances with
      | found phase hphase job hfound =>
          refine Or.inr (hdb ▸ hkept hdb ?_)
          rcases hphase with rfl | rfl <;> simp [System.inserts, hcall]
      | missed | rejected | admitted | lost =>
          refine Or.inr (hdb ▸ hkept hdb ?_)
          simp [System.inserts, hcall]
      | inserted now' began job _ hcreate =>
          obtain ⟨hmissed, hrows⟩ := rows_of_create hcreate
          obtain ⟨hlimit, rfl, -, -⟩ := create_eq_some hcreate
          have haccepts : accepts settings s.db tx args :=
            (hiff now' began).mp (Option.isSome_iff_exists.mpr ⟨_, hcreate⟩)
          refine Or.inl ⟨args, _, ?_, hmissed, rfl, rfl, rfl, hrows⟩
          simp [System.inserts, hcall, haccepts]
      | refused now' began phase hrefused hphase =>
          have hrefused : ¬ accepts settings s.db tx args := by
            rw [← hiff now' began, hrefused]
            simp
          refine Or.inr (hdb ▸ hkept hdb ?_)
          simp [System.inserts, hcall, hrefused]

end Step

end JobOrchestrator
