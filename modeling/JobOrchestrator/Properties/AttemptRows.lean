import JobOrchestrator.Properties.Attempts
import JobOrchestrator.Properties.Results

/-!
# The attempt rows

A claim inserts the row of its attempt, and the transaction that ends the execution closes it.  The
lease of an attempt may be lost to another worker in between, and then the attempt still closes its
own row, as superseded.  No row is closed twice, and no execution writes the row of another.
-/

namespace JobOrchestrator

open ExecutionService TransitionSystem

variable {settings : Settings}

/-- The columns that a claim fills in. -/
def JobAttempt.opening (a : JobAttempt) : UUID × UUID × ℕ × String × Time :=
  (a.id, a.jobId, a.attemptNumber, a.workerId, a.startedAt)

/-- The columns that close an attempt agree with each other. -/
structure JobAttempt.Coherent (a : JobAttempt) : Prop where
  status : a.status ∈ [JobStatus.running, .succeeded, .failed, .cancelled]
  completedAt : a.completedAt.isSome ↔ a.status ≠ .running
  errorCode : a.errorCode.isSome ↔ a.status = .failed
  errorMessage : a.errorMessage.isSome ↔ a.status = .failed

/-- The attempt that a `STARTED` event tells of. -/
def JobEvent.claim (e : JobEvent) : Option (ℕ × String) :=
  match e.detail with
  | .claimed attempt workerId => some (attempt, workerId)
  | .none | .submitted .. | .failed .. | .retryScheduled .. | .cancel _ | .leaseExpired
  | .promoted _ => none

section Step

variable {s s' : System settings.workerConcurrency} {j : UUID}
  {l : Label settings.workerConcurrency} {life' : Life settings.workerConcurrency}
  {a a' : JobAttempt}

/-- Where an attempt row found after a step comes from. -/
inductive AttemptRow (s : System settings.workerConcurrency) (j : UUID)
    (life' : Life settings.workerConcurrency) (a' : JobAttempt) : Prop
  | kept (ha : a' ∈ (s.db.record j).attempts)
  | started (hstatus : a'.status = .running) (hcoherent : a'.Coherent)
  | closed (c e e₁) (he : (s.life j).executions c = some e)
      (he₁ : life'.executions c = some e₁) (hid : e₁.attemptId = a'.id)
      (hclosed : e₁.stage.isOpen = false) (hcoherent : a'.Coherent)

/-- What closes an attempt leaves a coherent row. -/
lemma coherent_finished {outcome : Outcome} {now : Time} :
    (JobAttemptRepository.finished outcome.finalizer.attemptStatus now
      outcome.finalizer.errorCode outcome.finalizer.errorMessage a).Coherent := by
  cases outcome <;> constructor <;>
    simp [JobAttemptRepository.finished, Outcome.finalizer, finalizeSucceeded, finalizeFailed,
      scheduleRetry, finalizeCancelled]

lemma coherent_superseded {now : Time} : (superseded now a).Coherent := by
  constructor <;> simp [superseded, JobAttemptRepository.finished]

lemma attemptRow_of_jobStep (h : JobStep s j l life') (ha' : a' ∈ life'.record.attempts) :
    AttemptRow s j life' a' := by
  cases h with
  | idle | tick | created | cancelRequested | heartbeat | progressed | heartbeatFailed | decided
  | left | dispatched | promoted | requeued | redelivered => exact .kept ha'
  | cancelled | leaseFailed | expired =>
      refine .kept ?_
      simpa only [CancellationService.cancelled, LeaseService.failed, ExpiryService.expired,
        JobRecord.enqueue_attempts] using ha'
  | notified r hsame =>
      have hkept : r.attempts = (s.db.record j).attempts := by rw [hsame.1]
      exact .kept (hkept ▸ ha')
  | claimed job =>
      rcases List.mem_append.mp ha' with hbefore | hnew
      · exact .kept hbefore
      · rw [List.mem_singleton.mp hnew]
        exact .started rfl (by constructor <;> simp [JobAttemptRepository.started])
  | superseded e outcome he hstage =>
      obtain ⟨a, ha, rfl⟩ := List.mem_map.mp ha'
      split
      · rename_i hid
        exact .closed _ e _ he (Function.update_self ..) hid.symm (afterFinalize_isOpen ..)
          coherent_superseded
      · exact .kept ha
  | finalized e outcome job he hstage =>
      obtain ⟨a, ha, rfl⟩ := List.mem_map.mp ((congrArg (a' ∈ ·) finalized_attempts).mp ha')
      split
      · rename_i hid
        exact .closed _ e _ he (Function.update_self ..) hid.symm (afterFinalize_isOpen ..)
          coherent_finished
      · exact .kept ha

/-- Every row is coherent, and the row of an attempt that has not committed yet is open. -/
structure AttemptRowsSound (s : System settings.workerConcurrency) (j : UUID) : Prop where
  coherent : ∀ a ∈ (s.db.record j).attempts, a.Coherent
  running : ∀ c e, (s.life j).executions c = some e → e.stage.isOpen →
    ∀ a ∈ (s.db.record j).attempts, a.id = e.attemptId → a.status = .running

lemma attemptRowsSound_of_step (hlinked : ∀ i, Linked (s.life i)) (hapart' : AttemptsApart s')
    (hsound : AttemptRowsSound s j) (hstep : s.step settings l = some s') :
    AttemptRowsSound s' j := by
  have hjob : JobStep s j l (s'.life j) := jobStep_of_step hlinked j hstep
  refine ⟨fun a' ha' => ?_, fun c e' he' hopen' a' ha' hid => ?_⟩
  · cases attemptRow_of_jobStep hjob ha' with
    | kept ha => exact hsound.coherent a' ha
    | started _ hcoherent => exact hcoherent
    | closed _ _ _ _ _ _ _ hcoherent => exact hcoherent
  · cases attemptRow_of_jobStep hjob ha' with
    | started hstatus => exact hstatus
    | kept ha =>
        rcases open_of_step hstep he' hopen' with ⟨e, he, hsame, hopen⟩ | hfresh
        · exact hsound.running c e he hopen a' ha (hid.trans hsame.symm)
        · rw [← hid, Table.get?_of_mem (Table.mem_children.mp ha).1] at hfresh
          cases hfresh
    | closed d e e₁ he he₁ hid₁ hclosed =>
        -- the attempt is executed by one coroutine, and there it is closed
        obtain ⟨hworker, -⟩ := (s'.life_executions j).mp he'
        obtain ⟨hworker₁, -⟩ := (s'.life_executions j).mp he₁
        obtain rfl := hapart' c d e' e₁ hworker hworker₁ (hid.symm.trans hid₁.symm)
        obtain rfl := Option.some.inj (he'.symm.trans he₁)
        rw [hclosed] at hopen'
        cases hopen'

lemma attemptRowsSound_of_reachable (h : (orchestrator settings).Reachable Always s) (j : UUID) :
    AttemptRowsSound s j := by
  refine h.invariant (I := fun s => ∀ j, AttemptRowsSound s j) ?_ ?_ j
  · rintro s ⟨clock, rfl⟩ j
    exact ⟨fun _ ha => (by cases ha), fun _ _ he => (by cases he)⟩
  · intro s l s' hreach _ hstep hsound j
    exact attemptRowsSound_of_step (linked_of_reachable hreach)
      (attemptsApart_of_reachable (hreach.steps (Steps.single trivial hstep))) (hsound j) hstep

lemma opening_finished {status : JobStatus} {now : Time} {code message : Option String} :
    (JobAttemptRepository.finished status now code message a).opening = a.opening := rfl

/-- The columns that a claim has filled in stay. -/
lemma opening_of_jobStep (h : JobStep s j l life') (ha : a ∈ (s.db.record j).attempts) :
    ∃ a' ∈ life'.record.attempts, a'.opening = a.opening := by
  have hmapped : ∀ {id : UUID} {f : JobAttempt → JobAttempt}, (∀ b, (f b).opening = b.opening) →
      (if a.id = id then f a else a).opening = a.opening := by
    intro id f hf
    split
    · exact hf a
    · rfl
  cases attemptsStep_of_jobStep h with
  | same hrows => exact ⟨a, hrows ▸ ha, rfl⟩
  | started a₁ _ hrows => exact ⟨a, hrows ▸ List.mem_append_left _ ha, rfl⟩
  | superseded c e outcome now he hstage hrows =>
      exact ⟨_, hrows ▸ List.mem_map_of_mem ha, hmapped fun _ => opening_finished⟩
  | finalized c e outcome tx now job _ he hstage _ _ _ _ hrows =>
      exact ⟨_, hrows ▸ List.mem_map_of_mem ha, hmapped fun _ => opening_finished⟩

/-- **An attempt is closed once.**  Every attempt row that was ever inserted is there in every later
state, with the columns that its claim filled in, and from the moment it is closed it is never
written again, whatever becomes of the lease of its job.  Its other columns always agree: it has an
end if and only if it is not running, and an error if and only if it failed. -/
theorem attempt_closed_once (h : (orchestrator settings).Reachable Always s)
    (hsteps : (orchestrator settings).Steps Always s s') (ha : a ∈ s.db.jobAttempts.rows) :
    a.Coherent ∧ ∃ a' ∈ s'.db.jobAttempts.rows, a'.opening = a.opening ∧
      (a.status ≠ .running → a' = a) := by
  have hmem : a ∈ (s.db.record a.jobId).attempts := Table.mem_children.mpr ⟨ha, rfl⟩
  have hkept : ∃ a' ∈ (s'.db.record a.jobId).attempts, a'.opening = a.opening ∧
      (a.status ≠ .running → a' = a) := by
    refine h.preserves (I := fun s' => ∃ a' ∈ (s'.db.record a.jobId).attempts,
      a'.opening = a.opening ∧ (a.status ≠ .running → a' = a)) (fun _ _ _ => trivial) ?_ hsteps
      ⟨a, hmem, rfl, fun _ => rfl⟩
    rintro s l s' hreach - hstep ⟨a₁, ha₁, hopening, hfinal⟩
    have hjob := jobStep_of_reachable hreach hstep a.jobId
    by_cases hrunning : a.status = .running
    · obtain ⟨a', ha', hsame⟩ := opening_of_jobStep hjob ha₁
      exact ⟨a', ha', hsame.trans hopening, fun hne => absurd hrunning hne⟩
    · obtain rfl := hfinal hrunning
      -- no execution that could still commit has this attempt
      refine ⟨a₁, attempt_of_jobStep hjob ha₁ fun c e he hopen hid => ?_, rfl, fun _ => rfl⟩
      exact hrunning ((attemptRowsSound_of_reachable hreach a₁.jobId).running c e he hopen a₁ ha₁
        hid.symm)
  obtain ⟨a', ha', hrest⟩ := hkept
  exact ⟨(attemptRowsSound_of_reachable h a.jobId).coherent a hmem, a',
    (Table.mem_children.mp ha').1, hrest⟩

/-- An attempt that lost its lease has closed its row, and then another attempt succeeds. -/
theorem attempt_closed_once_superseded : ∃ (s s' : System 4) (a : JobAttempt),
    a ∈ s.db.jobAttempts.rows ∧ a.status = .failed ∧
      s'.status Scenario.jobId = some .succeeded ∧ a.Coherent ∧ a ∈ s'.db.jobAttempts.rows := by
  obtain ⟨s, hbefore, hs⟩ := exists_of_run (T := orchestrator {}) (System.start 4 0)
    (Scenario.submitted 3 ++ Scenario.dispatched ++ Scenario.claim Scenario.elsewhere 3 0 ++
      Scenario.reaped ++ Scenario.claim Scenario.first 4 61000000 ++
      [.worker Scenario.elsewhere (.handlerReturns []),
        Scenario.finalize Scenario.elsewhere 5 61000000])
    (fun s => s.db.jobAttempts.rows.any fun a => a.status = .failed &&
      ((orchestrator {}).run s [.worker Scenario.first (.handlerReturns []),
        Scenario.finalize Scenario.first 6 61000000]).any fun s' =>
          s'.status Scenario.jobId = some .succeeded) (by decide +kernel)
  obtain ⟨a, ha, hboth⟩ := List.any_eq_true.mp hs
  obtain ⟨hstatus, hrun⟩ := Bool.and_eq_true_iff.mp hboth
  obtain ⟨s', hsteps, hs'⟩ := exists_of_run _ _ _ hrun
  have hstatus : a.status = .failed := of_decide_eq_true hstatus
  obtain ⟨hcoherent, a', ha', -, hsame⟩ := attempt_closed_once ⟨_, ⟨0, rfl⟩, hbefore⟩ hsteps ha
  obtain rfl := hsame (by rw [hstatus]; decide)
  exact ⟨s, s', a', ha, hstatus, of_decide_eq_true hs', hcoherent, ha'⟩

/-! ## The events of the claims -/

/-- The `STARTED` events of a job tell of its attempts, one by one. -/
def ClaimsTold (r : JobRecord) : Prop :=
  r.events.filterMap JobEvent.claim = r.attempts.map fun a => (a.attemptNumber, a.workerId)

lemma ClaimsTold.of_quiet {r r' : JobRecord} (h : ClaimsTold r) {e : JobEvent}
    (hevents : r'.events = r.events ++ [e]) (hquiet : e.claim = none)
    (hattempts : (r'.attempts.map fun a => (a.attemptNumber, a.workerId)) =
      r.attempts.map fun a => (a.attemptNumber, a.workerId)) : ClaimsTold r' := by
  rw [ClaimsTold, hattempts, hevents, List.filterMap_append, List.filterMap_cons_none hquiet,
    List.filterMap_nil, List.append_nil]
  exact h

lemma ClaimsTold.of_same {r r' : JobRecord} (h : ClaimsTold r) (hevents : r'.events = r.events)
    (hattempts : (r'.attempts.map fun a => (a.attemptNumber, a.workerId)) =
      r.attempts.map fun a => (a.attemptNumber, a.workerId)) : ClaimsTold r' := by
  rw [ClaimsTold, hattempts, hevents]
  exact h

/-- Closing an attempt changes neither its number nor its worker. -/
lemma claims_mapAttempt {attempts : List JobAttempt} {id : UUID} {status : JobStatus} {now : Time}
    {code message : Option String} :
    ((attempts.map fun a => if a.id = id then
        JobAttemptRepository.finished status now code message a else a).map
      fun a => (a.attemptNumber, a.workerId)) =
        attempts.map fun a => (a.attemptNumber, a.workerId) := by
  rw [List.map_map]
  refine List.map_congr_left fun a _ => ?_
  simp only [Function.comp_apply]
  split <;> rfl

lemma claimsTold_of_jobStep (h : JobStep s j l life') (htold : ClaimsTold (s.db.record j)) :
    ClaimsTold life'.record := by
  cases h with
  | idle | tick | heartbeat | progressed | heartbeatFailed | decided | left | redelivered =>
      exact htold
  | superseded => exact htold.of_same rfl claims_mapAttempt
  | notified r hsame =>
      refine htold.of_same ?_ ?_
      · show r.events = (s.db.record j).events
        rw [hsame.1]
      · show r.attempts.map _ = (s.db.record j).attempts.map _
        rw [hsame.1]
  | created | cancelRequested | dispatched | promoted | requeued =>
      exact htold.of_quiet rfl rfl rfl
  | cancelled | leaseFailed | expired =>
      exact htold.of_quiet JobRecord.enqueue_events rfl
        (congrArg (List.map _) JobRecord.enqueue_attempts)
  | finalized e outcome =>
      refine htold.of_quiet finalized_events ?_
        ((congrArg (List.map _) finalized_attempts).trans claims_mapAttempt)
      cases outcome <;> rfl
  | claimed job =>
      show List.filterMap _ (_ ++ _) = List.map _ (_ ++ _)
      rw [List.filterMap_append, List.map_append]
      exact congrArg₂ (· ++ ·) htold rfl

/-- **The timeline tells the attempts.**  In every reachable state the `STARTED` events of a job, in
the order of their commits, name its attempts from the first to the last that the job counts, each
with the worker that its row names. -/
theorem started_events_tell_attempts (h : (orchestrator settings).Reachable Always s) {job : Job}
    (hrow : s.db.jobs.get? j = some job) :
    (s.db.record j).events.filterMap JobEvent.claim =
        (s.db.record j).attempts.map (fun a => (a.attemptNumber, a.workerId)) ∧
      ((s.db.record j).events.filterMap JobEvent.claim).map Prod.fst =
        List.range' 1 job.attempts := by
  have htold : ClaimsTold (s.db.record j) :=
    life_invariant (I := fun life => ClaimsTold life.record) (fun _ _ => rfl)
      (fun _ _ _ _ _ _ hstep => claimsTold_of_jobStep hstep) h j
  refine ⟨htold, ?_⟩
  rw [htold, List.map_map, ← numbered_of_reachable h j job hrow]
  rfl

/-- Two workers have claimed the job, the second after a reap. -/
theorem started_events_tell_attempts_two : ∃ (s : System 4) (job : Job),
    s.db.jobs.get? Scenario.jobId = some job ∧ job.attempts = 2 ∧
      (s.db.record Scenario.jobId).events.filterMap JobEvent.claim =
        (s.db.record Scenario.jobId).attempts.map (fun a => (a.attemptNumber, a.workerId)) ∧
      ((s.db.record Scenario.jobId).events.filterMap JobEvent.claim).map Prod.fst =
        List.range' 1 job.attempts := by
  obtain ⟨s, hsteps, hs⟩ := exists_of_run (T := orchestrator {}) (System.start 4 0)
    (Scenario.submitted 3 ++ Scenario.dispatched ++ Scenario.claim Scenario.elsewhere 3 0 ++
      Scenario.reaped ++ Scenario.claim Scenario.first 4 61000000)
    (fun s => (s.db.jobs.get? Scenario.jobId).any fun job => job.attempts = 2)
    (by decide +kernel)
  obtain ⟨job, hrow, hattempts⟩ := (Option.any_eq_true ..).mp hs
  exact ⟨s, job, hrow, of_decide_eq_true hattempts,
    started_events_tell_attempts ⟨_, ⟨0, rfl⟩, hsteps⟩ hrow⟩

end Step

end JobOrchestrator
