import JobOrchestrator.Properties.Submissions

/-!
# Idempotent submission

The first lookup of `submit` only saves work: whatever it missed, the insert fails on
`uq_jobs_user_idempotency_key` when the key was taken meanwhile, and the call reads the winner.
Nothing of the kind protects the quota check in between.
-/

namespace JobOrchestrator

open ExecutionService SubmissionService CancellationService TransitionSystem

variable {settings : Settings}

/-- The job was submitted by the user under the idempotency key. -/
def Job.keyed (userId key : String) (job : Job) : Prop :=
  job.userId = userId ∧ job.idempotencyKey = some key

instance (userId key : String) (job : Job) : Decidable (job.keyed userId key) :=
  inferInstanceAs (Decidable (_ ∧ _))

lemma Job.keyed_congr {job job' : Job} {userId key : String} (h : job'.request = job.request) :
    job'.keyed userId key ↔ job.keyed userId key := by
  have huser : job'.userId = job.userId := congrArg JobRequest.userId h
  have hkey : job'.idempotencyKey = job.idempotencyKey := congrArg JobRequest.idempotencyKey h
  rw [Job.keyed, Job.keyed, huser, hkey]

section Lookup

variable {db : Database} {args : SubmitArgs} {key : String}

lemma findExisting_eq_none (hkey : args.idempotencyKey = some key) :
    findExisting db args = none ↔ ∀ job ∈ db.jobs.rows, ¬ job.keyed args.userId key := by
  simp [findExisting, hkey, JobRepository.getByIdempotencyKey, Job.keyed]

lemma findExisting_eq_some {job : Job} (h : findExisting db args = some job) :
    job ∈ db.jobs.rows ∧ job.userId = args.userId ∧ job.idempotencyKey = args.idempotencyKey := by
  obtain ⟨key, hkey, hfound⟩ := Option.bind_eq_some_iff.mp h
  have hmatches := List.find?_some hfound
  simp only [Bool.and_eq_true, decide_eq_true_eq] at hmatches
  exact ⟨List.mem_of_find?_eq_some hfound, hmatches.1, hmatches.2.trans hkey.symm⟩

end Lookup

section Step

variable {s s' : System settings.workerConcurrency} {l : Label settings.workerConcurrency}
  {C : System settings.workerConcurrency → Label settings.workerConcurrency → Prop}
  {userId key : String}

/-! ## One row for each key -/

/-- No two jobs of one user have the same key. -/
def KeysUnique {concurrency : ℕ} (s : System concurrency) : Prop :=
  ∀ userId key, ∀ job ∈ s.db.jobs.rows, ∀ job' ∈ s.db.jobs.rows,
    job.keyed userId key → job'.keyed userId key → job = job'

lemma keysUnique_of_step (hreach : (orchestrator settings).Reachable C s)
    (h : (orchestrator settings).step s l = some s') (hunique : KeysUnique s) :
    KeysUnique s' := by
  intro userId key job₁ hjob₁ job₂ hjob₂ hkeyed₁ hkeyed₂
  rcases rows_of_step hreach h with
    ⟨args, new, -, hmissed, huser, hkey, -, hrows⟩ | ⟨-, hold⟩
  · -- the inserted job has no twin among the old ones
    have hnew : ∀ job ∈ s.db.jobs.rows, job.keyed userId key → ¬ new.keyed userId key := by
      rintro job hjob hkeyed ⟨huser', hkey'⟩
      have hnone := (findExisting_eq_none (hkey.symm.trans hkey')).mp hmissed job hjob
      rw [← huser, huser'] at hnone
      exact hnone hkeyed
    rw [hrows, List.mem_append, List.mem_singleton] at hjob₁ hjob₂
    rcases hjob₁ with hjob₁ | rfl
    · rcases hjob₂ with hjob₂ | rfl
      · exact hunique userId key job₁ hjob₁ job₂ hjob₂ hkeyed₁ hkeyed₂
      · exact absurd hkeyed₂ (hnew job₁ hjob₁ hkeyed₁)
    · rcases hjob₂ with hjob₂ | rfl
      · exact absurd hkeyed₁ (hnew job₂ hjob₂ hkeyed₂)
      · rfl
  · obtain ⟨old₁, hold₁, hrequest₁, -⟩ := hold job₁ hjob₁
    obtain ⟨old₂, hold₂, hrequest₂, -⟩ := hold job₂ hjob₂
    have hsame : old₁ = old₂ := hunique userId key old₁ hold₁ old₂ hold₂
      ((Job.keyed_congr hrequest₁).mp hkeyed₁) ((Job.keyed_congr hrequest₂).mp hkeyed₂)
    have hid : job₁.id = job₂.id := by
      have hid₁ : job₁.id = old₁.id := congrArg JobRequest.id hrequest₁
      have hid₂ : job₂.id = old₂.id := congrArg JobRequest.id hrequest₂
      rw [hid₁, hid₂, hsame]
    exact Table.eq_of_key_eq hjob₁ hjob₂ hid

theorem keysUnique_of_reachable (h : (orchestrator settings).Reachable C s) : KeysUnique s := by
  refine h.invariant (I := KeysUnique) ?_ fun s l s' hreach _ hstep hunique =>
    keysUnique_of_step hreach hstep hunique
  rintro s ⟨clock, rfl⟩ userId key job hjob
  cases hjob

/-- Jobs stay, with what was submitted. -/
lemma request_of_step (hreach : (orchestrator settings).Reachable C s)
    (h : (orchestrator settings).step s l = some s') {job : Job} (hjob : job ∈ s.db.jobs.rows) :
    ∃ job' ∈ s'.db.jobs.rows, job'.request = job.request := by
  have hrow : (s.db.record job.id).row = some job := Table.get?_of_mem hjob
  obtain ⟨job', hrow', hrequest⟩ := request_of_jobStep (jobStep_of_reachable hreach h job.id) hrow
  exact ⟨job', (Table.get?_eq_some.mp hrow').1, hrequest⟩

lemma request_of_steps {t : System settings.workerConcurrency}
    (hreach : (orchestrator settings).Reachable Always s)
    (hsteps : (orchestrator settings).Steps Always s t) {job : Job}
    (hjob : job ∈ s.db.jobs.rows) : ∃ job' ∈ t.db.jobs.rows, job'.request = job.request := by
  refine hreach.preserves (I := fun s => ∃ job' ∈ s.db.jobs.rows, job'.request = job.request)
    (fun _ _ _ => trivial) ?_ hsteps ⟨job, hjob, rfl⟩
  rintro s l s' hreach - hstep ⟨job', hjob', hrequest⟩
  obtain ⟨job'', hjob'', hrequest'⟩ := request_of_step hreach hstep hjob'
  exact ⟨job'', hjob'', hrequest'.trans hrequest⟩

/-! ## What the calls return -/

/-- A call that returned a job returned one that exists, and that was submitted by its user
under its key. -/
def ReturnsJobs {concurrency : ℕ} (s : System concurrency) : Prop :=
  ∀ call args job, s.submissions call = some ⟨args, .returned job⟩ →
    job.userId = args.userId ∧ job.idempotencyKey = args.idempotencyKey ∧
      ∃ row ∈ s.db.jobs.rows, row.request = job.request

lemma returned_of_advances {db db' : Database} {tx : Tx} {now : Time} {args : SubmitArgs}
    {phase : Phase} {job : Job} (h : Advances settings db tx now args phase db' (.returned job)) :
    job ∈ db'.jobs.rows ∧ job.userId = args.userId ∧ job.idempotencyKey = args.idempotencyKey := by
  generalize hphase' : Phase.returned job = phase' at h
  cases h with
  | found phase hphase job₁ hfound =>
      obtain rfl : job = job₁ := Phase.returned.inj hphase'
      exact findExisting_eq_some hfound
  | inserted now' began job₁ _ hcreate =>
      obtain rfl : job = job₁ := Phase.returned.inj hphase'
      obtain ⟨-, hrows⟩ := rows_of_create hcreate
      obtain ⟨hlimit, rfl, -, -⟩ := create_eq_some hcreate
      rw [hrows]
      exact ⟨List.mem_append_right _ (List.mem_singleton.mpr rfl), rfl, rfl⟩
  | refused now' began phase hrefused hphase =>
      rcases hphase with rfl | rfl <;> cases hphase'
  | missed | rejected | admitted | lost => cases hphase'

lemma returnsJobs_of_step (hreach : (orchestrator settings).Reachable C s)
    (h : (orchestrator settings).step s l = some s') (hreturns : ReturnsJobs s) :
    ReturnsJobs s' := by
  intro call args job hcall'
  have hkept : s.submissions call = some ⟨args, .returned job⟩ →
      job.userId = args.userId ∧ job.idempotencyKey = args.idempotencyKey ∧
        ∃ row ∈ s'.db.jobs.rows, row.request = job.request := by
    intro hcall
    obtain ⟨huser, hkey, row, hrow, hrequest⟩ := hreturns call args job hcall
    obtain ⟨row', hrow', hrequest'⟩ := request_of_step hreach h hrow
    exact ⟨huser, hkey, row', hrow', hrequest'.trans hrequest⟩
  rcases call_of_step h hcall' with ⟨hcall, -⟩ | ⟨-, hphase⟩ | ⟨tx, now, phase, -, -, hadvances⟩
  · exact hkept hcall
  · rcases submit_phase args with hsubmit | ⟨hsubmit, -⟩ <;> cases hphase.trans hsubmit
  · obtain ⟨hjob, huser, hkey⟩ := returned_of_advances hadvances
    exact ⟨huser, hkey, job, hjob, rfl⟩

lemma returnsJobs_of_reachable (h : (orchestrator settings).Reachable C s) : ReturnsJobs s := by
  refine h.invariant (I := ReturnsJobs) ?_ fun s l s' hreach _ hstep hreturns =>
    returnsJobs_of_step hreach hstep hreturns
  rintro s ⟨clock, rfl⟩ call args job hcall
  cases hcall

end Step

/-! ## What a submission leaves behind -/

namespace Scenario

/-- The transaction of a call that draws `n` for the id of its job as well. -/
def ownTx (n : Fin (2 ^ 128)) : Tx := { tx n with jobId := ⟨n⟩ }

def keyedArgs : SubmitArgs := ⟨"user", .flaky, [], .normal, none, some "key"⟩

/-- Two calls with one key that both look it up and count before the first one inserts. -/
def keyRace : List (Label 4) :=
  [.submit 0 keyedArgs, .submit 1 keyedArgs, .submission 0 (ownTx 1) 0,
    .submission 1 (ownTx 2) 0, .submission 0 (ownTx 1) 0, .submission 1 (ownTx 2) 0,
    .submission 0 (ownTx 1) 0, .submission 1 (ownTx 2) 0, .submission 1 (ownTx 2) 0]

/-- Settings that admit one active job for each user. -/
abbrev quotaOne : Settings := { maxInFlightJobsPerUser := 1 }

/-- A job is submitted, and then a call looks up another key. -/
def rejectedFresh : List (Label 4) :=
  [.submit 0 keyedArgs, .submission 0 (ownTx 1) 0, .submission 0 (ownTx 1) 0,
    .submission 0 (ownTx 1) 0,
    .submit 1 { keyedArgs with idempotencyKey := some "fresh" }, .submission 1 (ownTx 2) 0]

/-- Two calls with one key look it up, and the first one inserts its job. -/
def rejectedDuplicate : List (Label 4) :=
  [.submit 0 keyedArgs, .submit 1 keyedArgs, .submission 0 (ownTx 1) 0,
    .submission 1 (ownTx 2) 0, .submission 0 (ownTx 1) 0, .submission 0 (ownTx 1) 0]

def rejected (userId key : String) (call : Submission) : Bool :=
  match call.phase with
  | .tooManyActiveJobs =>
      call.args.userId = userId && call.args.idempotencyKey = some key
  | _ => false

lemma rejected_iff {userId key : String} {call : Submission} : rejected userId key call ↔
    ∃ args, call = ⟨args, .tooManyActiveJobs⟩ ∧ args.userId = userId ∧
      args.idempotencyKey = some key := by
  obtain ⟨args, phase⟩ := call
  cases phase <;> simp [rejected]

def returnedKeyed (call : Submission) : Bool :=
  match call.phase with
  | .returned _ => call.args.userId = "user" && call.args.idempotencyKey = some "key"
  | _ => false

lemma returnedKeyed_iff {call : Submission} : returnedKeyed call ↔
    ∃ args job, call = ⟨args, .returned job⟩ ∧ args.userId = "user" ∧
      args.idempotencyKey = some "key" := by
  obtain ⟨args, phase⟩ := call
  cases phase <;> simp [returnedKeyed]

end Scenario

/-- The `SUBMITTED` events of a job. -/
def JobRecord.submittedEvents (r : JobRecord) : List JobEvent :=
  r.events.filter fun e => e.eventType = .submitted

/-- A job was submitted once: it has one `SUBMITTED` event and one outbox row. -/
def SubmittedOnce {concurrency : ℕ} (life : Life concurrency) : Prop :=
  ∀ job, life.record.row = some job →
    life.record.submittedEvents.length = 1 ∧ life.record.outbox.length = 1

section Step

variable {s : System settings.workerConcurrency} {j : UUID}
  {l : Label settings.workerConcurrency} {life' : Life settings.workerConcurrency}
  {C : System settings.workerConcurrency → Label settings.workerConcurrency → Prop}

/-- An event of another type leaves the `SUBMITTED` events alone. -/
lemma submittedEvents_append {r r' : JobRecord} {event : JobEvent}
    (hevents : r'.events = r.events ++ [event]) (htype : event.eventType ≠ .submitted) :
    r'.submittedEvents = r.submittedEvents := by
  rw [JobRecord.submittedEvents, hevents, List.filter_append]
  simp [htype, JobRecord.submittedEvents]

/-- Only the submission records a `SUBMITTED` event. -/
lemma submittedEvents_of_jobStep (h : JobStep s j l life') :
    life'.record.submittedEvents = (s.db.record j).submittedEvents ∨
      (s.db.record j).row = none ∧ life'.record.submittedEvents.length =
        (s.db.record j).submittedEvents.length + 1 := by
  cases h with
  | created tx' args now' hlimit hrow =>
      refine Or.inr ⟨hrow, ?_⟩
      simp [JobRecord.submittedEvents, created, JobEventRepository.event]
  | cancelled | leaseFailed | expired =>
      refine Or.inl (submittedEvents_append JobRecord.enqueue_events ?_)
      intro heq
      cases heq
  | finalized e outcome job he hstage hrow hguard =>
      refine Or.inl (submittedEvents_append finalized_events ?_)
      intro heq
      cases outcome <;> cases heq
  | cancelRequested | claimed | dispatched | promoted | requeued =>
      refine Or.inl (submittedEvents_append rfl ?_)
      intro heq
      cases heq
  | notified r hsame =>
      rw [hsame.1]
      exact Or.inl rfl
  | idle | tick | heartbeat | progressed | heartbeatFailed | decided | superseded | left
  | redelivered => exact Or.inl rfl

lemma submittedOnce_of_jobStep (hlinked : Linked (s.life j)) (honce : SubmittedOnce (s.life j))
    (h : JobStep s j l life') : SubmittedOnce life' := by
  intro job' hrow'
  cases hrow : (s.db.record j).row with
  | none =>
      have hempty : s.db.record j = JobRecord.empty := hlinked.fresh hrow
      obtain ⟨-, tx, job, hcreated⟩ := created_of_jobStep h hrow hrow'
      rw [hcreated, hempty]
      exact ⟨rfl, rfl⟩
  | some job =>
      obtain ⟨hevents, houtbox⟩ := honce job hrow
      constructor
      · rcases submittedEvents_of_jobStep h with hsame | ⟨hnone, -⟩
        · rw [hsame]
          exact hevents
        · cases hrow.symm.trans hnone
      · rcases outbox_length_of_jobStep h with hsame | ⟨hnone, -⟩
        · rw [hsame]
          exact houtbox
        · cases hrow.symm.trans hnone

lemma submittedOnce_of_reachable (h : (orchestrator settings).Reachable C s) (j : UUID) :
    SubmittedOnce (s.life j) :=
  life_invariant (I := SubmittedOnce) (fun _ _ _ hrow => by cases hrow)
    (fun _ _ _ j hreach _ hstep honce =>
      submittedOnce_of_jobStep (linked_of_reachable hreach j) honce hstep) h j

/-- **Idempotent submission.**  Whatever calls of `submit` for one user and key have run or are
running, there is one job with that key, now and in every continuation; every call that has
returned a job has returned that one; and it was submitted once. -/
theorem submission_idempotent {userId key : String}
    (h : (orchestrator settings).Reachable Always s) :
    (∀ job ∈ s.db.jobs.rows, job.keyed userId key →
      (∀ t, (orchestrator settings).Steps Always s t → ∀ job' ∈ t.db.jobs.rows,
        job'.keyed userId key → job'.id = job.id) ∧
      (s.db.record job.id).submittedEvents.length = 1 ∧
      (s.db.record job.id).outbox.length = 1) ∧
    ∀ call args job, s.submissions call = some ⟨args, .returned job⟩ → args.userId = userId →
      args.idempotencyKey = some key → job.keyed userId key ∧
        ∃ row ∈ s.db.jobs.rows, row.keyed userId key ∧ row.id = job.id := by
  constructor
  · intro job hjob hkeyed
    refine ⟨fun t hsteps job' hjob' hkeyed' => ?_, ?_⟩
    · obtain ⟨kept, hkept, hrequest⟩ := request_of_steps h hsteps hjob
      have hsame : job' = kept := keysUnique_of_reachable (h.steps hsteps) userId key job' hjob'
        kept hkept hkeyed' ((Job.keyed_congr hrequest).mpr hkeyed)
      rw [hsame]
      exact congrArg JobRequest.id hrequest
    · have hrow : (s.db.record job.id).row = some job := Table.get?_of_mem hjob
      exact submittedOnce_of_reachable h job.id job hrow
  · rintro call args job hcall rfl hkey
    obtain ⟨huser, hkey', row, hrow, hrequest⟩ := returnsJobs_of_reachable h call args job hcall
    have hkeyed : job.keyed args.userId key := ⟨huser, hkey'.trans hkey⟩
    exact ⟨hkeyed, row, hrow, (Job.keyed_congr hrequest).mpr hkeyed,
      congrArg JobRequest.id hrequest⟩

/-- Two calls with one key, the second of which loses the race for the insert. -/
theorem submission_idempotent_race :
    ∃ (s : System 4) (args args' : SubmitArgs) (job job' : Job),
      s.submissions 0 = some ⟨args, .returned job⟩ ∧
      s.submissions 1 = some ⟨args', .returned job'⟩ ∧
      ∃ row ∈ s.db.jobs.rows, row.keyed "user" "key" ∧ row.id = job.id ∧ row.id = job'.id ∧
        (s.db.record row.id).submittedEvents.length = 1 ∧
        (s.db.record row.id).outbox.length = 1 := by
  obtain ⟨s, hsteps, hs⟩ := exists_of_run (T := orchestrator {}) (System.start 4 0)
    Scenario.keyRace (fun s => (s.submissions 0).any Scenario.returnedKeyed &&
      (s.submissions 1).any Scenario.returnedKeyed) (by decide +kernel)
  simp only [Bool.and_eq_true] at hs
  obtain ⟨call, hcall, hreturned⟩ := (Option.any_eq_true ..).mp hs.1
  obtain ⟨call', hcall', hreturned'⟩ := (Option.any_eq_true ..).mp hs.2
  obtain ⟨args, job, rfl, huser, hkey⟩ := Scenario.returnedKeyed_iff.mp hreturned
  obtain ⟨args', job', rfl, huser', hkey'⟩ := Scenario.returnedKeyed_iff.mp hreturned'
  have hreach : (orchestrator {}).Reachable Always s := ⟨_, ⟨0, rfl⟩, hsteps⟩
  obtain ⟨hrows, hcalls⟩ := @submission_idempotent {} s "user" "key" hreach
  obtain ⟨-, row, hrow, hkeyed, hid⟩ := hcalls 0 args job hcall huser hkey
  obtain ⟨-, row', hrow', hkeyed', hid'⟩ := hcalls 1 args' job' hcall' huser' hkey'
  obtain ⟨hunique, hevents, houtbox⟩ := hrows row hrow hkeyed
  have hsame : row'.id = row.id := hunique s (Steps.refl s) row' hrow' hkeyed'
  exact ⟨s, args, args', job, job', hcall, hcall', row, hrow, hkeyed, hid, hsame ▸ hid', hevents,
    houtbox⟩

end Step

/-! ## The quota and the key -/

/-- The call has not found its key, and its quota count is next. -/
def System.counting {concurrency : ℕ} (s : System concurrency) (call : ℕ) : Bool :=
  (s.submissions call).any fun submission =>
    match submission.phase with
    | .count => true
    | _ => false

/-- The step inserts a job of the user under the key. -/
def System.insertsKeyed (settings : Settings) (userId key : String) {concurrency : ℕ}
    (s : System concurrency) (l : Label concurrency) : Bool :=
  (s.inserts settings l).any fun args =>
    args.userId = userId && args.idempotencyKey = some key

section Quota

variable {s s' : System settings.workerConcurrency} {l : Label settings.workerConcurrency}
  {C : System settings.workerConcurrency → Label settings.workerConcurrency → Prop}
  {userId key : String}

/-- No job of the user has the key. -/
def KeyFree {concurrency : ℕ} (userId key : String) (s : System concurrency) : Prop :=
  ∀ job ∈ s.db.jobs.rows, ¬ job.keyed userId key

/-- A free key is taken by the insert of a job under it, and by nothing else. -/
lemma keyFree_of_step (hreach : (orchestrator settings).Reachable C s)
    (h : (orchestrator settings).step s l = some s') (hfree : KeyFree userId key s) :
    KeyFree userId key s' ↔ ¬ s.insertsKeyed settings userId key l := by
  rcases rows_of_step hreach h with
    ⟨args, new, hinserts, -, huser, hkey, -, hrows⟩ | ⟨hnone, hold⟩
  · have hnew : s.insertsKeyed settings userId key l ↔ new.keyed userId key := by
      simp [System.insertsKeyed, hinserts, Job.keyed, huser, hkey]
    rw [hnew]
    constructor
    · intro hfree'
      exact hfree' new (hrows ▸ List.mem_append_right _ (List.mem_singleton.mpr rfl))
    · intro hother job hjob
      rw [hrows, List.mem_append, List.mem_singleton] at hjob
      rcases hjob with hjob | rfl
      · exact hfree job hjob
      · exact hother
  · have hquiet : ¬ s.insertsKeyed settings userId key l := by
      simp [System.insertsKeyed, hnone]
    simp only [hquiet, not_false_eq_true, iff_true, Bool.false_eq_true]
    intro job' hjob' hkeyed'
    obtain ⟨job, hjob, hrequest, -⟩ := hold job' hjob'
    exact hfree job hjob ((Job.keyed_congr hrequest).mp hkeyed')

/-- A key that is free at the end of a run was free all along. -/
lemma keyFree_of_steps {t : System settings.workerConcurrency}
    (hreach : (orchestrator settings).Reachable Always s)
    (hsteps : (orchestrator settings).Steps Always s t) (hfree : KeyFree userId key t) :
    KeyFree userId key s := by
  intro job hjob hkeyed
  obtain ⟨job', hjob', hrequest⟩ := request_of_steps hreach hsteps hjob
  exact hfree job' hjob' ((Job.keyed_congr hrequest).mpr hkeyed)

/-- Between the lookup of a call that missed and its quota count, only the insert of another
call takes its key. -/
lemma keyFree_of_counting {call : ℕ} {args : SubmitArgs}
    (hreach : (orchestrator settings).Reachable C s)
    (h : (orchestrator settings).step s l = some s') (hkey : args.idempotencyKey = some key)
    (hquiet : s.counting call → ¬ s.insertsKeyed settings args.userId key l)
    (hfree : s.submissions call = some ⟨args, .count⟩ → KeyFree args.userId key s)
    (hcount' : s'.submissions call = some ⟨args, .count⟩) : KeyFree args.userId key s' := by
  have hkept : s.submissions call = some ⟨args, .count⟩ → KeyFree args.userId key s' := by
    intro hcount
    have hcounting : s.counting call := by simp [System.counting, hcount]
    exact (keyFree_of_step hreach h (hfree hcount)).mpr (hquiet hcounting)
  rcases call_of_step h hcount' with ⟨hcount, -⟩ | ⟨-, hphase⟩ | ⟨tx, now, phase, -, -, hadvances⟩
  · exact hkept hcount
  · rcases submit_phase args with hsubmit | ⟨-, hnone⟩
    · cases hphase.trans hsubmit
    · cases hkey.symm.trans hnone
  · generalize hphase' : Phase.count = phase', hdb : s'.db = db' at hadvances
    cases hadvances with
    | missed hmissed =>
        rw [KeyFree, hdb]
        exact (findExisting_eq_none hkey).mp hmissed
    | refused now' began phase hrefused hphase =>
        rcases hphase with rfl | rfl <;> cases hphase'
    | found | rejected | admitted | inserted | lost => cases hphase'

/-- The call raises `TooManyActiveJobsError` at its quota count, which changes no row. -/
lemma counting_of_raised {call : ℕ} {tx : Tx} {now : Time} {args : SubmitArgs}
    (h : (orchestrator settings).step s (.submission call tx now) = some s')
    (hraised : s'.submissions call = some ⟨args, .tooManyActiveJobs⟩) :
    s.submissions call = some ⟨args, .count⟩ ∧ s'.db = s.db := by
  have h : s.step settings (.submission call tx now) = some s' := h
  rcases call_of_step h hraised with ⟨-, hother⟩ | ⟨hl, -⟩ | ⟨_, _, phase, -, hcall, hadvances⟩
  · exact absurd rfl (hother tx now)
  · cases hl
  · generalize hphase' : Phase.tooManyActiveJobs = phase', hdb : s'.db = db' at hadvances
    cases hadvances with
    | rejected hfull => exact ⟨hcall, rfl⟩
    | refused now' began phase hrefused hphase =>
        rcases hphase with rfl | rfl <;> cases hphase'
    | found | missed | admitted | inserted | lost => cases hphase'

/-- While nothing takes a key that is free at the end of the run, no step inserts it. -/
lemma along_of_keyFree {ls : List (Label settings.workerConcurrency)} {call : ℕ}
    {t : System settings.workerConcurrency} (hreach : (orchestrator settings).Reachable Always s)
    (hrun : (orchestrator settings).run s ls = some t) (hfree : KeyFree userId key t) :
    (orchestrator settings).Along (fun s l _ => s.counting call →
      ¬ s.insertsKeyed settings userId key l) s ls := by
  induction ls generalizing s with
  | nil => trivial
  | cons l ls ih =>
      rw [run, List.foldlM_cons] at hrun
      obtain ⟨s', hs', hrest⟩ := Option.bind_eq_some_iff.mp hrun
      have hreach' : (orchestrator settings).Reachable Always s' :=
        hreach.steps (Steps.single trivial hs')
      have hfree' : KeyFree userId key s' := keyFree_of_steps hreach' (steps_of_run hrest) hfree
      have hfree₀ : KeyFree userId key s :=
        keyFree_of_steps hreach (Steps.single trivial hs') hfree'
      rw [Along, hs']
      exact ⟨fun _ => (keyFree_of_step hreach hs' hfree₀).mp hfree', ih hreach' hrest⟩

/-- **The quota and duplicates.**  Take any run at whose end a call with an idempotency key
raises `TooManyActiveJobsError`.  No job of its user with that key is committed then, exactly
when no other call inserted one between the lookup of the call and its quota count. -/
theorem quota_spares_duplicate_iff {clock : Time} {t t' : System settings.workerConcurrency}
    {ls : List (Label settings.workerConcurrency)} {call : ℕ} {tx : Tx} {now : Time}
    {args : SubmitArgs}
    (hrun : (orchestrator settings).run (.start settings.workerConcurrency clock) ls = some t)
    (hraises : (orchestrator settings).step t (.submission call tx now) = some t')
    (hraised : t'.submissions call = some ⟨args, .tooManyActiveJobs⟩)
    (hkey : args.idempotencyKey = some key) :
    (∀ job ∈ t'.db.jobs.rows, ¬ job.keyed args.userId key) ↔
      (orchestrator settings).Along (fun s l _ => s.counting call →
        ¬ s.insertsKeyed settings args.userId key l) (.start settings.workerConcurrency clock)
          ls := by
  obtain ⟨hcount, hdb⟩ := counting_of_raised hraises hraised
  rw [hdb]
  constructor
  · exact along_of_keyFree (Reachable.start ⟨clock, rfl⟩) hrun
  · intro halong
    -- the runs every step of which leaves the key alone while the call is counting
    have hreach : (orchestrator settings).Reachable (fun s l => s.counting call →
        ¬ s.insertsKeyed settings args.userId key l) t := ⟨_, ⟨clock, rfl⟩, halong.steps hrun⟩
    refine hreach.invariant (I := fun s => s.submissions call = some ⟨args, .count⟩ →
      KeyFree args.userId key s) ?_ ?_ hcount
    · rintro s ⟨clock, rfl⟩ hstart
      cases hstart
    · intro s l s' hreach hquiet hstep hfree
      exact keyFree_of_counting hreach hstep hkey hquiet hfree

/-- A user with one job, whose second submission under another key is rejected. -/
theorem quota_spares_duplicate_iff_fresh :
    ∃ (t t' : System 4) (args : SubmitArgs),
      (orchestrator Scenario.quotaOne).run (.start 4 0) Scenario.rejectedFresh = some t ∧
      (orchestrator Scenario.quotaOne).step t (.submission 1 (Scenario.ownTx 2) 0) = some t' ∧
      t'.submissions 1 = some ⟨args, .tooManyActiveJobs⟩ ∧
      ∀ job ∈ t'.db.jobs.rows, ¬ job.keyed args.userId "fresh" := by
  have hlast : ((orchestrator Scenario.quotaOne).run (.start 4 0) Scenario.rejectedFresh).any
      fun t => ((orchestrator Scenario.quotaOne).step t (.submission 1 (Scenario.ownTx 2) 0)).any
        fun t' => (t'.submissions 1).any (Scenario.rejected "user" "fresh") := by decide +kernel
  obtain ⟨t, hrun, hraises⟩ := (Option.any_eq_true ..).mp hlast
  obtain ⟨t', hraises, hcall⟩ := (Option.any_eq_true ..).mp hraises
  obtain ⟨call, hcall, hrejected⟩ := (Option.any_eq_true ..).mp hcall
  obtain ⟨args, rfl, huser, hkey⟩ := Scenario.rejected_iff.mp hrejected
  have halong : (orchestrator Scenario.quotaOne).Along (fun s l _ => s.counting 1 →
      ¬ s.insertsKeyed Scenario.quotaOne "user" "fresh" l) (.start 4 0)
        Scenario.rejectedFresh := by decide +kernel
  exact ⟨t, t', args, hrun, hraises, hcall,
    (quota_spares_duplicate_iff hrun hraises hcall hkey).mpr (huser ▸ halong)⟩

/-- Two submissions of one job race, and the quota rejects the second one. -/
theorem duplicate_rejected :
    ∃ (t t' : System 4) (args : SubmitArgs),
      (orchestrator Scenario.quotaOne).Reachable Always t ∧
      (orchestrator Scenario.quotaOne).step t (.submission 1 (Scenario.ownTx 2) 0) = some t' ∧
      t'.submissions 1 = some ⟨args, .tooManyActiveJobs⟩ ∧ args.idempotencyKey = some "key" ∧
      ∃ job ∈ t'.db.jobs.rows, job.keyed args.userId "key" := by
  obtain ⟨t, hsteps, ht⟩ := exists_of_run (T := orchestrator Scenario.quotaOne)
    (System.start 4 0) Scenario.rejectedDuplicate
    (fun t => (t.step Scenario.quotaOne (.submission 1 (Scenario.ownTx 2) 0)).any fun t' =>
      (t'.submissions 1).any (Scenario.rejected "user" "key") &&
        t'.db.jobs.rows.any fun job => job.keyed "user" "key") (by decide +kernel)
  obtain ⟨t', hraises, ht'⟩ := (Option.any_eq_true ..).mp ht
  simp only [Bool.and_eq_true] at ht'
  obtain ⟨call, hcall, hrejected⟩ := (Option.any_eq_true ..).mp ht'.1
  obtain ⟨args, rfl, huser, hkey⟩ := Scenario.rejected_iff.mp hrejected
  obtain ⟨job, hjob, hkeyed⟩ := List.any_eq_true.mp ht'.2
  exact ⟨t, t', args, ⟨_, ⟨0, rfl⟩, hsteps⟩, hraises, hcall, hkey, job, hjob,
    huser ▸ of_decide_eq_true hkeyed⟩

end Quota

end JobOrchestrator
