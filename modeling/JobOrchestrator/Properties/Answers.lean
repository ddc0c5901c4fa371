import JobOrchestrator.Api.Jobs
import JobOrchestrator.Properties.Idempotency
import JobOrchestrator.Properties.Ledger
import JobOrchestrator.Properties.TimelineWalk

/-!
# What the clients see

The answers of the API over a whole run, whatever happens between two requests.  Two reads of one
job tell one story: the job is the same, it has moved along its edges, and once it has ended the
answer stays the same for ever (`reads_continue`).  And a job that was answered with `202` can be
read from then on, by its user and by nobody else (`accepted_job_readable`).
-/

namespace JobOrchestrator

open Api SubmissionService TransitionSystem Relation

variable {settings : Settings}

/-! ## Reading a job twice -/

/-- What a later read of a job tells of it. -/
structure JobRead.Continues (read read' : JobRead) : Prop where
  request : (read'.jobId, read'.type, read'.priority, read'.payload, read'.maxAttempts,
    read'.createdAt) = (read.jobId, read.type, read.priority, read.payload, read.maxAttempts,
      read.createdAt)
  status : ReflTransGen JobStatus.Moves read.status read'.status
  attempts : read.attempts ≤ read'.attempts
  startedAt : ∀ t, read.startedAt = some t → read'.startedAt = some t
  asked : read.cancellationRequestedAt.isSome → read'.cancellationRequestedAt.isSome
  ended : read.status.isTerminal → read' = read

section Step

variable {s s' : System settings.workerConcurrency} {j jobId : UUID}
  {l : Label settings.workerConcurrency} {userId : String} {job : Job} {read : JobRead}

/-- What a run does to the row of a job that exists, beside the entry in the ledger. -/
lemma row_of_steps (hreach : (orchestrator settings).Reachable Always s)
    (hsteps : (orchestrator settings).Steps Always s s') (hrow : s.db.jobs.get? j = some job) :
    ∃ job', s'.db.jobs.get? j = some job' ∧ ReflTransGen JobStatus.Moves job.status job'.status ∧
      (∀ t, job.startedAt = some t → job'.startedAt = some t) ∧
      (job.status.isTerminal → job' = job) := by
  refine hreach.preserves (I := fun s' => ∃ job', (s'.db.record j).row = some job' ∧
    ReflTransGen JobStatus.Moves job.status job'.status ∧
    (∀ t, job.startedAt = some t → job'.startedAt = some t) ∧
    (job.status.isTerminal → job' = job)) (fun _ _ _ => trivial) ?_ hsteps
    ⟨job, hrow, .refl, fun _ h => h, fun _ => rfl⟩
  rintro s l s' hreach - hstep ⟨job', hrow', hmoves, hstarted, hended⟩
  rcases row_of_jobStep_of_row (jobStep_of_reachable hreach hstep j) hrow' with
    hsame | ⟨u, hu, hguard, hvalues⟩
  · exact ⟨job', hsame, hmoves, hstarted, hended⟩
  · refine ⟨u.values job', hvalues, ?_, fun t ht => ?_, fun hterminal => ?_⟩
    · by_cases hstatus : job'.status = (u.values job').status
      · rw [← hstatus]
        exact hmoves
      · exact hmoves.tail
          (moves_of_issues hu hrow' hguard (flagSound_of_reachable hreach j) hstatus)
    · have hbefore := hstarted t ht
      cases hu with
      | claimForExecution =>
          show some (job'.startedAt.getD _) = some t
          rw [hbefore, Option.getD_some]
      | finalize e outcome => cases outcome <;> exact hbefore
      | requestRunningCancellation | cancelInactive | heartbeat | updateProgress | markQueued
      | moveRetryToQueued | failExpiredLease | requeueExpiredLease | markRedispatched | expire =>
          exact hbefore
    · obtain rfl := hended hterminal
      exact absurd hterminal (not_isTerminal_of_issues hu hguard)

lemma getJob_of_row (hrow : s.db.jobs.get? jobId = some job) (huser : job.userId = userId) :
    getJob s.db userId jobId = ⟨200, .job (.validate job)⟩ := by
  simp [getJob, JobReadService.get, JobRepository.getForUser, Option.filter_some, hrow, huser]

lemma getJob_of_other (hrow : s.db.jobs.get? jobId = some job) (huser : job.userId ≠ userId) :
    getJob s.db userId jobId = httpException 404 "job not found" := by
  simp [getJob, JobReadService.get, JobRepository.getForUser, Option.filter_some, hrow, huser]

lemma row_of_getJob (h : getJob s.db userId jobId = ⟨200, .job read⟩) :
    ∃ job, s.db.jobs.get? jobId = some job ∧ job.userId = userId ∧ read = .validate job := by
  unfold getJob JobReadService.get at h
  cases hfound : JobRepository.getForUser s.db jobId userId with
  | none => simp [hfound, httpException] at h
  | some job =>
      obtain ⟨hrow, huser⟩ := Option.filter_eq_some_iff.mp hfound
      refine ⟨job, hrow, of_decide_eq_true huser, ?_⟩
      simpa [hfound, eq_comm] using h

/-- The reads of a row and of the row it has become. -/
lemma continues_of_steps (hreach : (orchestrator settings).Reachable Always s)
    (hsteps : (orchestrator settings).Steps Always s s') (hrow : s.db.jobs.get? j = some job) :
    ∃ job', s'.db.jobs.get? j = some job' ∧ job'.request = job.request ∧
      (JobRead.validate job).Continues (.validate job') := by
  obtain ⟨job', hrow', hextends⟩ := ledger_extends hreach hsteps hrow
  obtain ⟨job'', hrow'', hmoves, hstarted, hended⟩ := row_of_steps hreach hsteps hrow
  obtain rfl := Option.some.inj (hrow'.symm.trans hrow'')
  have hrequest : job'.request = job.request := hextends.request
  have hsame := hrequest
  simp only [Job.request, JobRequest.mk.injEq] at hsame
  obtain ⟨hid, -, htype, hpriority, hpayload, hlimit, -, hcreated⟩ := hsame
  refine ⟨job', hrow', hrequest, ?_, hmoves, hextends.attempts, hstarted, hextends.asked,
    fun hterminal => ?_⟩
  · simp [JobRead.validate, JobSummary.validate, hid, htype, hpriority, hpayload, hlimit, hcreated]
  · obtain rfl := hended hterminal
    rfl

/-- **Two reads of a job tell one story.**  Whatever happens between two requests of a user for a
job, the second finds the job again, with what was submitted, further along the edges of its
statuses, with no fewer attempts and with the same start; a request to stop it is never forgotten,
and the answer for a job that has ended never changes.  Every other user is told that there is no
such job. -/
theorem reads_continue (h : (orchestrator settings).Reachable Always s)
    (hsteps : (orchestrator settings).Steps Always s s')
    (hread : getJob s.db userId jobId = ⟨200, .job read⟩) :
    (∃ read', getJob s'.db userId jobId = ⟨200, .job read'⟩ ∧ read.Continues read') ∧
      ∀ other, other ≠ userId →
        getJob s'.db other jobId = httpException 404 "job not found" := by
  obtain ⟨job, hrow, rfl, rfl⟩ := row_of_getJob hread
  obtain ⟨job', hrow', hrequest, hcontinues⟩ := continues_of_steps h hsteps hrow
  have huser : job'.userId = job.userId := congrArg JobRequest.userId hrequest
  refine ⟨⟨_, getJob_of_row hrow' huser, hcontinues⟩, fun other hother => ?_⟩
  exact getJob_of_other hrow' fun heq => hother (heq.symm.trans huser)

/-- A job is read before its dispatch, and again while it runs. -/
theorem reads_continue_claimed : ∃ (s s' : System 4) (read : JobRead),
    getJob s.db "user" Scenario.jobId = ⟨200, .job read⟩ ∧ read.status = .pending ∧
      s'.status Scenario.jobId = some .running ∧
      (∃ read', getJob s'.db "user" Scenario.jobId = ⟨200, .job read'⟩ ∧ read.Continues read') ∧
      ∀ other, other ≠ "user" →
        getJob s'.db other Scenario.jobId = httpException 404 "job not found" := by
  obtain ⟨s, hbefore, hs⟩ := exists_of_run (T := orchestrator {}) (System.start 4 0)
    (Scenario.submitted 3)
    (fun s => (s.db.jobs.get? Scenario.jobId).any fun job =>
      (job.userId = "user" && job.status = .pending) && ((orchestrator {}).run s
        (Scenario.dispatched ++ Scenario.claim Scenario.first 3 0)).any fun s' =>
          s'.status Scenario.jobId = some .running) (by decide +kernel)
  obtain ⟨job, hrow, hboth⟩ := (Option.any_eq_true ..).mp hs
  obtain ⟨hjob, hrun⟩ := Bool.and_eq_true_iff.mp hboth
  obtain ⟨huser, hstatus⟩ := Bool.and_eq_true_iff.mp hjob
  obtain ⟨s', hsteps, hs'⟩ := exists_of_run _ _ _ hrun
  have hread := getJob_of_row hrow (of_decide_eq_true huser)
  exact ⟨s, s', _, hread, of_decide_eq_true hstatus, of_decide_eq_true hs',
    reads_continue ⟨_, ⟨0, rfl⟩, hbefore⟩ hsteps hread⟩

end Step

/-! ## Accepted jobs -/

/-- The job is the one that the arguments ask for. -/
def SubmissionService.SubmitArgs.Asks (settings : Settings) (args : SubmitArgs) (job : Job) : Prop :=
  job.type = args.type ∧ job.priority = args.priority ∧ job.payload = args.payload ∧
    job.maxAttempts = args.attemptsLimit settings

section Accepted

variable {s s' : System settings.workerConcurrency} {call : ℕ} {submission : Submission}
  {accepted : JobAccepted}

lemma asks_of_advances {db db' : Database} {tx : Tx} {now : Time} {args : SubmitArgs}
    {phase : Phase} {job : Job} (h : Advances settings db tx now args phase db' (.returned job))
    (hkey : args.idempotencyKey = none) : args.Asks settings job := by
  generalize hphase' : Phase.returned job = phase' at h
  cases h with
  | found phase hlookup found hfound => simp [findExisting, hkey] at hfound
  | inserted now' began job₁ _ hcreate =>
      obtain rfl : job = job₁ := Phase.returned.inj hphase'
      obtain ⟨hlimit, rfl, -, -⟩ := create_eq_some hcreate
      exact ⟨rfl, rfl, rfl, rfl⟩
  | refused now' began phase hrefused hlost => rcases hlost with rfl | rfl <;> cases hphase'
  | missed | rejected | admitted | lost => cases hphase'

/-- A call without a key returns the job that it has inserted. -/
lemma asks_of_reachable (h : (orchestrator settings).Reachable Always s) {args : SubmitArgs}
    {job : Job} (hcall : s.submissions call = some ⟨args, .returned job⟩)
    (hkey : args.idempotencyKey = none) : args.Asks settings job := by
  refine h.invariant (I := fun s => ∀ job, s.submissions call = some ⟨args, .returned job⟩ →
    args.Asks settings job) ?_ ?_ job hcall
  · rintro s ⟨clock, rfl⟩ job hcall
    cases hcall
  · intro s l s' _ _ hstep hbefore job hcall'
    rcases call_of_step hstep hcall' with
      ⟨hcall, -⟩ | ⟨-, hphase⟩ | ⟨tx, now, phase, -, hcall, hadvances⟩
    · exact hbefore job hcall
    · rcases submit_phase args with hsubmit | ⟨hsubmit, -⟩ <;> cases hphase.trans hsubmit
    · exact asks_of_advances hadvances hkey

/-- The only end of a call that is answered with `202`. -/
lemma returned_of_accepted {phase : Phase}
    (h : submitted settings phase = ⟨202, .jobAccepted accepted⟩) :
    ∃ job, phase = .returned job ∧ accepted.jobId = job.id := by
  cases phase with
  | returned job =>
      refine ⟨job, rfl, ?_⟩
      simp only [submitted, Response.mk.injEq, Body.jobAccepted.injEq] at h
      rw [← h.2]
  | lookup | count | insert | fallback | tooManyActiveJobs | integrityError =>
      simp [submitted, httpException, internalServerError] at h

/-- **An accepted job is never lost.**  From the moment at which a submission is answered with
`202`, however many others run beside it and whatever happens afterwards, its user can read the job
that the answer names and nobody else can.  It is the job that was asked for, unless the submission
had an idempotency key and the job was submitted by the same user under the same key. -/
theorem accepted_job_readable (h : (orchestrator settings).Reachable Always s)
    (hcall : s.submissions call = some submission)
    (haccepted : submitted settings submission.phase = ⟨202, .jobAccepted accepted⟩)
    (hsteps : (orchestrator settings).Steps Always s s') :
    ∃ job, s'.db.jobs.get? accepted.jobId = some job ∧
      getJob s'.db submission.args.userId accepted.jobId = ⟨200, .job (.validate job)⟩ ∧
      job.idempotencyKey = submission.args.idempotencyKey ∧
      (submission.args.idempotencyKey = none → submission.args.Asks settings job) ∧
      ∀ other, other ≠ submission.args.userId →
        getJob s'.db other accepted.jobId = httpException 404 "job not found" := by
  obtain ⟨args, phase⟩ := submission
  obtain ⟨returned, rfl, hid⟩ := returned_of_accepted haccepted
  obtain ⟨huser, hkey, row, hmem, hrequest⟩ := returnsJobs_of_reachable h call args returned hcall
  obtain ⟨job, hmem', hsame⟩ := request_of_steps h hsteps hmem
  have hfields := hsame.trans hrequest
  simp only [Job.request, JobRequest.mk.injEq] at hfields
  obtain ⟨hid', huser', htype, hpriority, hpayload, hlimit, hkey', -⟩ := hfields
  have hrow : s'.db.jobs.get? accepted.jobId = some job :=
    Table.get?_eq_some.mpr ⟨hmem', hid'.trans hid.symm⟩
  refine ⟨job, hrow, getJob_of_row hrow (huser'.trans huser), hkey'.trans hkey, fun hnone => ?_,
    fun other hother => getJob_of_other hrow ?_⟩
  · obtain ⟨h₁, h₂, h₃, h₄⟩ := asks_of_reachable h hcall hnone
    exact ⟨htype.trans h₁, hpriority.trans h₂, hpayload.trans h₃, hlimit.trans h₄⟩
  · rw [huser', huser]
    exact hother.symm

namespace Scenario

/-- The submission has returned the job. -/
def returnedJob (submission : Submission) : Bool :=
  match submission.phase with
  | .returned job => job.id = jobId
  | _ => false

lemma returnedJob_iff {submission : Submission} :
    returnedJob submission ↔
      ∃ args job, submission = ⟨args, .returned job⟩ ∧ job.id = jobId := by
  obtain ⟨args, phase⟩ := submission
  cases phase <;> simp [returnedJob]

end Scenario

/-- A submission is answered, and its job is read while it runs. -/
theorem accepted_job_readable_claimed : ∃ (s s' : System 4) (submission : Submission)
    (accepted : JobAccepted), s.submissions 0 = some submission ∧
      submitted {} submission.phase = ⟨202, .jobAccepted accepted⟩ ∧
      s'.status accepted.jobId = some .running ∧
      ∃ job, s'.db.jobs.get? accepted.jobId = some job ∧
        getJob s'.db submission.args.userId accepted.jobId = ⟨200, .job (.validate job)⟩ ∧
        job.idempotencyKey = submission.args.idempotencyKey ∧
        (submission.args.idempotencyKey = none → submission.args.Asks {} job) ∧
        ∀ other, other ≠ submission.args.userId →
          getJob s'.db other accepted.jobId = httpException 404 "job not found" := by
  obtain ⟨s, hbefore, hs⟩ := exists_of_run (T := orchestrator {}) (System.start 4 0)
    (Scenario.submitted 3) (fun s => (s.submissions 0).any Scenario.returnedJob &&
      ((orchestrator {}).run s (Scenario.dispatched ++ Scenario.claim Scenario.first 3 0)).any
        fun s' => s'.status Scenario.jobId = some .running) (by decide +kernel)
  simp only [Bool.and_eq_true] at hs
  obtain ⟨submission, hcall, hreturned⟩ := (Option.any_eq_true ..).mp hs.1
  obtain ⟨args, job, rfl, hid⟩ := Scenario.returnedJob_iff.mp hreturned
  obtain ⟨s', hsteps, hrunning⟩ := exists_of_run _ _ _ hs.2
  have hstatus : s'.status job.id = some .running := by
    rw [hid]
    exact of_decide_eq_true hrunning
  exact ⟨s, s', ⟨args, .returned job⟩, _, hcall, rfl, hstatus,
    accepted_job_readable ⟨_, ⟨0, rfl⟩, hbefore⟩ hcall rfl hsteps⟩

end Accepted

/-! ## The summary -/

/-- The number that a summary gives for a status. -/
def JobSummaryCounts.count (counts : JobSummaryCounts) (status : JobStatus) : ℕ :=
  (counts.counts.lookup status).getD 0

section Summary

variable {db : Database} {userId : String} {limit : ℕ}

/-- A group without a row has no entry, and counts as zero. -/
lemma lookup_groups {f : JobStatus → ℕ} {status : JobStatus} {statuses : List JobStatus}
    (hmem : status ∈ statuses) :
    ((statuses.filterMap fun status => if f status = 0 then none else
      some (status, f status)).lookup status).getD 0 = f status := by
  induction statuses with
  | nil => cases hmem
  | cons first statuses ih =>
      rw [List.filterMap_cons]
      by_cases hstatus : status = first
      · subst hstatus
        by_cases hzero : f status = 0
        · have hnone : ∀ rest : List JobStatus, (rest.filterMap fun status =>
              if f status = 0 then none else some (status, f status)).lookup status = none := by
            intro rest
            rw [List.lookup_eq_none_iff]
            rintro ⟨other, n⟩ hother
            obtain ⟨other', -, heq⟩ := List.mem_filterMap.mp hother
            split at heq
            · cases heq
            · rename_i hne
              obtain ⟨rfl, rfl⟩ := Prod.mk.inj (Option.some.inj heq)
              simpa using fun heq : status = other' => hne (heq ▸ hzero)
          simp [hzero, hnone]
        · simp [hzero]
      · have hrest := ih ((List.mem_cons.mp hmem).resolve_left hstatus)
        by_cases hzero : f first = 0
        · simpa [hzero] using hrest
        · have hne : (status == first) = false := by simpa using hstatus
          simpa [hzero, List.lookup_cons, hne] using hrest

lemma sum_groups {f : JobStatus → ℕ} {statuses : List JobStatus} :
    ((statuses.filterMap fun status => if f status = 0 then none else
      some (status, f status)).map Prod.snd).sum = (statuses.map f).sum := by
  induction statuses with
  | nil => rfl
  | cons status statuses ih =>
      by_cases hzero : f status = 0
      · simp [hzero, ih]
      · simp [hzero, ih]

/-- Every row falls into exactly one group. -/
lemma sum_countP_status (rows : List Job) : (JobStatus.all.map fun status =>
    rows.countP fun job => job.userId = userId && job.status = status).sum =
      rows.countP fun job => job.userId = userId := by
  induction rows with
  | nil => rfl
  | cons job rows ih =>
      by_cases huser : job.userId = userId
      · simp only [JobStatus.all, List.map_cons, List.map_nil, List.sum_cons, List.sum_nil,
          List.countP_cons, huser] at ih ⊢
        cases job.status <;> simp <;> simp at ih <;> omega
      · simpa [List.countP_cons, huser] using ih

lemma count_summary (status : JobStatus) : (JobReadService.summary db userId).count status =
    db.jobs.rows.countP fun job => job.userId = userId && job.status = status := by
  have hmem : status ∈ JobStatus.all := by cases status <;> decide
  exact lookup_groups hmem

lemma total_summary : (JobReadService.summary db userId).total =
    db.jobs.rows.countP fun job => job.userId = userId :=
  sum_groups.trans (sum_countP_status db.jobs.rows)

/-- A listing with room for all rows leaves none out. -/
lemma length_listForUser {status : Option JobStatus} (hlimit : db.jobs.rows.length ≤ limit) :
    (JobRepository.listForUser db userId status none none limit).length =
      db.jobs.rows.countP fun job => job.userId = userId &&
        status.all fun status => job.status = status := by
  have hroom : ∀ p : Job → Bool, (db.jobs.rows.filter p).length ≤ limit := fun p =>
    (List.length_filter_le p _).trans hlimit
  rw [JobRepository.listForUser, List.length_take, descending_perm.length_eq,
    min_eq_right (hroom _), List.countP_eq_length_filter]
  simp

end Summary

section Counts

variable {s s' : System settings.workerConcurrency}

/-- **The summary tells what the listing shows.**  In every state the number for each status is the
number of jobs that the listing of the user shows with that status, zero for a status it leaves out,
and the total is the number of all of them.  Along a run the total never goes down, and neither does
the number for a status that ends a job. -/
theorem summary_tells_listing (h : (orchestrator settings).Reachable Always s)
    (hsteps : (orchestrator settings).Steps Always s s') (userId : String) {limit : ℕ}
    (hlimit : s.db.jobs.rows.length ≤ limit) :
    let before := JobReadService.summary s.db userId
    let after := JobReadService.summary s'.db userId
    (∀ status, before.count status =
        (JobRepository.listForUser s.db userId (some status) none none limit).length) ∧
      before.total = (JobRepository.listForUser s.db userId none none none limit).length ∧
      before.total ≤ after.total ∧
      ∀ status, status.isTerminal → before.count status ≤ after.count status := by
  refine ⟨fun status => ?_, ?_, ?_, fun status hterminal => ?_⟩
  · rw [count_summary, length_listForUser hlimit]
    rfl
  · rw [total_summary, length_listForUser hlimit]
    simp
  · rw [total_summary, total_summary]
    refine Table.countP_le fun job hjob huser => ?_
    obtain ⟨job', hjob', hrequest⟩ := request_of_steps h hsteps hjob
    have hid : job'.id = job.id := congrArg JobRequest.id hrequest
    have huser' : job'.userId = job.userId := congrArg JobRequest.userId hrequest
    exact ⟨job', hjob', hid, by rwa [huser']⟩
  · rw [count_summary, count_summary]
    refine Table.countP_le fun job hjob hmatch => ?_
    have hstatus : job.status = status := by
      simp only [Bool.and_eq_true, decide_eq_true_eq] at hmatch
      exact hmatch.2
    obtain ⟨job', hrow', -, -, hended⟩ := row_of_steps h hsteps (Table.get?_of_mem hjob)
    obtain rfl := hended (hstatus ▸ hterminal)
    exact ⟨job', (Table.get?_eq_some.mp hrow').1, rfl, hmatch⟩

/-- A job that has ended beside one that is submitted afterwards. -/
theorem summary_tells_listing_two : ∃ s s' : System 4,
    (JobReadService.summary s.db "user").count .cancelled = 1 ∧
      (JobReadService.summary s'.db "user").count .pending = 1 ∧
      let before := JobReadService.summary s.db "user"
      let after := JobReadService.summary s'.db "user"
      (∀ status, before.count status =
          (JobRepository.listForUser s.db "user" (some status) none none 1).length) ∧
        before.total = (JobRepository.listForUser s.db "user" none none none 1).length ∧
        before.total ≤ after.total ∧
        ∀ status, status.isTerminal → before.count status ≤ after.count status := by
  obtain ⟨s, hbefore, hs⟩ := exists_of_run (T := orchestrator {}) (System.start 4 0)
    (Scenario.submitted 3 ++ [Scenario.cancel 0])
    (fun s => (s.db.jobs.rows.length ≤ 1 &&
      (JobReadService.summary s.db "user").count .cancelled = 1) &&
        ((orchestrator {}).run s Scenario.submittedToo).any fun s' =>
          (JobReadService.summary s'.db "user").count .pending = 1) (by decide +kernel)
  obtain ⟨hfirst, hrun⟩ := Bool.and_eq_true_iff.mp hs
  obtain ⟨hroom, hcancelled⟩ := Bool.and_eq_true_iff.mp hfirst
  obtain ⟨s', hsteps, hs'⟩ := exists_of_run _ _ _ hrun
  exact ⟨s, s', of_decide_eq_true hcancelled, of_decide_eq_true hs',
    summary_tells_listing ⟨_, ⟨0, rfl⟩, hbefore⟩ hsteps "user" (of_decide_eq_true hroom)⟩

end Counts

end JobOrchestrator
