import JobOrchestrator.Properties.Idempotency

/-!
# Admission control

`_create` counts the active jobs of a user and inserts one more when the count is below the
quota.  Nothing keeps another call from inserting between the two statements, so the quota
holds exactly as long as every insert finds the user still below it.
-/

namespace JobOrchestrator

open ExecutionService SubmissionService CancellationService TransitionSystem

variable {settings : Settings}

namespace Scenario

/-- Two calls without a key count the active jobs of their user, and then both insert. -/
def quotaRace : List (Label 4) :=
  let args : SubmitArgs := { keyedArgs with idempotencyKey := none }
  [.submit 0 args, .submit 1 args, .submission 0 (ownTx 1) 0, .submission 1 (ownTx 2) 0,
    .submission 0 (ownTx 1) 0, .submission 1 (ownTx 2) 0]

end Scenario

/-- No user has more active jobs than the quota. -/
def QuotaKept (settings : Settings) {concurrency : ℕ} (s : System concurrency) : Prop :=
  ∀ userId, JobRepository.countActiveForUser s.db userId ≤ settings.maxInFlightJobsPerUser

/-- If the step is the insert of a call, its user is still below the quota. -/
def System.insertsWithinQuota (settings : Settings) {concurrency : ℕ} (s : System concurrency)
    (l : Label concurrency) : Bool :=
  (s.inserts settings l).all fun args =>
    JobRepository.countActiveForUser s.db args.userId < settings.maxInFlightJobsPerUser

section Count

variable {db db' : Database} {userId : String}

lemma countActiveForUser_le (h : ∀ job' ∈ db'.jobs.rows, ∃ job ∈ db.jobs.rows,
    job'.request = job.request ∧ (job.status.isTerminal → job'.status.isTerminal)) :
    JobRepository.countActiveForUser db' userId ≤ JobRepository.countActiveForUser db userId := by
  refine Table.countP_le fun job' hjob' hactive' => ?_
  obtain ⟨job, hjob, hrequest, hterminal⟩ := h job' hjob'
  have hid : job.id = job'.id := congrArg JobRequest.id hrequest.symm
  have huser : job.userId = job'.userId := congrArg JobRequest.userId hrequest.symm
  refine ⟨job, hjob, hid, ?_⟩
  simp only [Bool.and_eq_true, decide_eq_true_eq] at hactive' ⊢
  exact ⟨huser.trans hactive'.1, fun h => hactive'.2 (hterminal h)⟩

lemma countActiveForUser_append {job : Job} (hrows : db'.jobs.rows = db.jobs.rows ++ [job])
    (hstatus : job.status = .pending) :
    JobRepository.countActiveForUser db' userId =
      JobRepository.countActiveForUser db userId + if job.userId = userId then 1 else 0 := by
  rw [JobRepository.countActiveForUser, hrows, List.countP_append, JobRepository.countActiveForUser]
  by_cases huser : job.userId = userId <;> simp [huser, hstatus]

end Count

section Step

variable {s s' : System settings.workerConcurrency} {l : Label settings.workerConcurrency}
  {C : System settings.workerConcurrency → Label settings.workerConcurrency → Prop}

/-- A step that starts within the quota ends within it exactly when it inserts no job of a
user who has used it up. -/
lemma quotaKept_of_step (hreach : (orchestrator settings).Reachable C s)
    (h : (orchestrator settings).step s l = some s') (hkept : QuotaKept settings s) :
    QuotaKept settings s' ↔ s.insertsWithinQuota settings l := by
  rcases rows_of_step hreach h with
    ⟨args, job, hinserts, -, huser, -, hstatus, hrows⟩ | ⟨hnone, hold⟩
  · have hcount : ∀ userId, JobRepository.countActiveForUser s'.db userId =
        JobRepository.countActiveForUser s.db userId + if job.userId = userId then 1 else 0 :=
      fun userId => countActiveForUser_append hrows hstatus
    have hwithin : s.insertsWithinQuota settings l ↔
        JobRepository.countActiveForUser s.db job.userId < settings.maxInFlightJobsPerUser := by
      simp [System.insertsWithinQuota, hinserts, huser]
    rw [hwithin]
    constructor
    · intro hkept'
      have hafter := hkept' job.userId
      rw [hcount, if_pos rfl] at hafter
      omega
    · intro hroom userId
      rw [hcount]
      by_cases hother : job.userId = userId
      · subst hother
        rw [if_pos rfl]
        omega
      · rw [if_neg hother]
        exact hkept userId
  · have hwithin : s.insertsWithinQuota settings l := by
      simp [System.insertsWithinQuota, hnone]
    simp only [hwithin, iff_true]
    intro userId
    exact (countActiveForUser_le hold).trans (hkept userId)

/-- The call has passed its quota count for a job of the user, and its insert is next. -/
def System.admitted {concurrency : ℕ} (s : System concurrency) (call : ℕ) (userId : String) :
    Prop :=
  ∃ args now began, s.submissions call = some ⟨args, .insert now began⟩ ∧ args.userId = userId

/-- If the step is the insert of a call, no other call of its user stands between its count
and its insert. -/
def insertsAlone (settings : Settings) {concurrency : ℕ} (s : System concurrency)
    (l : Label concurrency) : Prop :=
  ∀ call tx now args, l = .submission call tx now → s.inserts settings l = some args →
    ∀ other, other ≠ call → ¬ s.admitted other args.userId

omit settings in
lemma submission_of_inserts {settings : Settings} {concurrency : ℕ} {s : System concurrency}
    {l : Label concurrency} {args : SubmitArgs} (h : s.inserts settings l = some args) :
    ∃ call tx now, l = .submission call tx now := by
  cases l with
  | submission call tx now => exact ⟨call, tx, now, rfl⟩
  | tick | submit | cancel | sweep | publish | publishFails | redis | worker | crash => cases h

lemma admitted_of_inserts {call : ℕ} {tx : Tx} {now : Time} {args : SubmitArgs}
    (h : s.inserts settings (.submission call tx now) = some args) :
    s.admitted call args.userId := by
  obtain ⟨⟨args₁, phase⟩, hcall, hinsert⟩ := Option.bind_eq_some_iff.mp h
  cases phase with
  | insert now' began =>
      dsimp only at hinsert
      split at hinsert
      · obtain rfl := Option.some.inj hinsert
        exact ⟨args₁, now', began, hcall, rfl⟩
      · cases hinsert
  | lookup | count | fallback | returned | tooManyActiveJobs | integrityError => cases hinsert

/-- A call whose insert is next still has room, unless another call of its user inserts. -/
lemma room_of_step (hreach : (orchestrator settings).Reachable C s)
    (h : (orchestrator settings).step s l = some s') (halone : insertsAlone settings s l)
    (hroom : ∀ call userId, s.admitted call userId →
      JobRepository.countActiveForUser s.db userId < settings.maxInFlightJobsPerUser)
    {call : ℕ} {userId : String} (hadmitted' : s'.admitted call userId) :
    JobRepository.countActiveForUser s'.db userId < settings.maxInFlightJobsPerUser := by
  -- a step that is no statement of this call
  have hkept : (∀ tx now, l ≠ .submission call tx now) → s.admitted call userId →
      JobRepository.countActiveForUser s'.db userId < settings.maxInFlightJobsPerUser := by
    intro hother hadmitted
    have hbefore := hroom call userId hadmitted
    rcases rows_of_step hreach h with ⟨args, job, hinserts, -, huser, -, hstatus, hrows⟩ | ⟨-, hold⟩
    · obtain ⟨call₁, tx, now, rfl⟩ := submission_of_inserts hinserts
      have hne : call ≠ call₁ := by
        rintro rfl
        exact hother tx now rfl
      have hmine : job.userId ≠ userId := by
        rintro rfl
        rw [huser] at hadmitted
        exact halone call₁ tx now args rfl hinserts call hne hadmitted
      rw [countActiveForUser_append hrows hstatus, if_neg hmine]
      exact hbefore
    · exact (countActiveForUser_le hold).trans_lt hbefore
  obtain ⟨args, began, readAt, hcall', huser⟩ := hadmitted'
  rcases call_of_step h hcall' with
    ⟨hcall, hother⟩ | ⟨-, hphase⟩ | ⟨tx, now, phase, -, -, hadvances⟩
  · exact hkept hother ⟨args, began, readAt, hcall, huser⟩
  · rcases submit_phase args with hsubmit | ⟨hsubmit, -⟩ <;> cases hphase.trans hsubmit
  · generalize hphase' : Phase.insert began readAt = phase', hdb : s'.db = db' at hadvances
    cases hadvances with
    | admitted hcount =>
        rw [← huser]
        exact hcount
    | refused now' began phase hrefused hphase =>
        rcases hphase with rfl | rfl <;> cases hphase'
    | found | missed | rejected | inserted | lost => cases hphase'

/-- Calls whose counts and inserts do not overlap keep the quota. -/
theorem quota_kept_of_alone
    (h : (orchestrator settings).Reachable (insertsAlone settings) s) :
    QuotaKept settings s := by
  have hboth : QuotaKept settings s ∧ ∀ call userId, s.admitted call userId →
      JobRepository.countActiveForUser s.db userId < settings.maxInFlightJobsPerUser := by
    refine h.invariant (I := fun s => QuotaKept settings s ∧ ∀ call userId,
      s.admitted call userId →
        JobRepository.countActiveForUser s.db userId < settings.maxInFlightJobsPerUser) ?_ ?_
    · rintro s ⟨clock, rfl⟩
      refine ⟨fun userId => Nat.zero_le _, ?_⟩
      rintro call userId ⟨args, now, began, hcall, -⟩
      cases hcall
    · rintro s l s' hreach halone hstep ⟨hkept, hroom⟩
      refine ⟨(quotaKept_of_step hreach hstep hkept).mpr ?_, fun call userId hadmitted' =>
        room_of_step hreach hstep halone hroom hadmitted'⟩
      rw [System.insertsWithinQuota, Option.all_eq_true]
      intro args hinserts
      obtain ⟨call, tx, now, rfl⟩ := submission_of_inserts hinserts
      exact decide_eq_true (hroom call args.userId (admitted_of_inserts hinserts))
  exact hboth.1

end Step

end JobOrchestrator
