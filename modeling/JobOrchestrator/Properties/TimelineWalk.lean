import JobOrchestrator.Properties.Outbox
import Mathlib.Data.List.Chain

/-!
# The timeline as a walk

What `job_events` holds about a job, in the order of the commits, is the way the job has taken
through its statuses, from `PENDING` to the status it has.  One event can stand behind the end of
the way: a job that was cancelled or expired before its dispatch gets a `QUEUED` event when
`dispatch_pending` comes to its outbox row.
-/

namespace JobOrchestrator

open ExecutionService SubmissionService TransitionSystem

variable {settings : Settings}

/-- The edges that jobs take: those of the transition table, and the claim of a job that waits for
its retry. -/
def JobStatus.Moves (source target : JobStatus) : Prop :=
  source.canTransition target ∨ (source = .retrying ∧ target = .running)

/-- The statuses that the events of a job name. -/
def JobRecord.trail (r : JobRecord) : List (Option JobStatus) := r.events.map JobEvent.toStatus

/-- The way of a job through its statuses, and what the timeline tells of it. -/
structure Told (r : JobRecord) (job : Job) (walk : List JobStatus) : Prop where
  start : walk.head? = some .pending
  last : walk.getLast? = some job.status
  moves : walk.IsChain JobStatus.Moves
  trail : r.trail = walk.map some ∨ (walk = [.pending, job.status] ∧
    (job.status = .cancelled ∨ job.status = .expired) ∧
    r.trail = (walk ++ [JobStatus.queued]).map some)
  /-- Before its dispatch the job has made one step at most, to its end. -/
  undispatched : ∀ o ∈ r.outbox, o.status = .pending → r.trail = walk.map some ∧
    (walk = [.pending] ∨ (walk = [.pending, job.status] ∧ job.status.isTerminal))

section Step

variable {s s' : System settings.workerConcurrency} {j : UUID}
  {l : Label settings.workerConcurrency} {life' : Life settings.workerConcurrency}

/-- A statement that changes the status takes an edge. -/
lemma moves_of_issues {u : JobUpdate} (h : Issues s j l u) {job : Job}
    (hrow : (s.db.record j).row = some job) (hguard : u.guard job) (hsound : FlagSound (s.life j))
    (hne : job.status ≠ (u.values job).status) : job.status.Moves (u.values job).status := by
  have hlegal : claimsNoRetrying s l → job.status.Moves (u.values job).status := fun hclaims =>
    Or.inl (canTransition_of_issues h hrow hguard hsound hclaims hne)
  cases h with
  | claimForExecution =>
      show job.status.Moves .running
      rcases (JobRepository.claimForExecution_guard.mp hguard).1 with hstatus | hstatus
      · rw [hstatus]
        exact Or.inl (by decide)
      · exact Or.inr ⟨hstatus, rfl⟩
  | requestRunningCancellation | cancelInactive | heartbeat | updateProgress | finalize
  | markQueued | moveRetryToQueued | failExpiredLease | requeueExpiredLease | markRedispatched
  | expire => exact hlegal rfl

section Told

variable {r r' : JobRecord} {job job' : Job} {walk : List JobStatus}

/-- A step that moves neither the status nor the timeline. -/
lemma Told.of_same (h : Told r job walk) (hstatus : job'.status = job.status)
    (hevents : r'.events = r.events) (houtbox : r'.outbox = r.outbox) : Told r' job' walk := by
  have htrail : r'.trail = r.trail := by rw [JobRecord.trail, hevents, JobRecord.trail]
  refine ⟨h.start, ?_, h.moves, ?_, ?_⟩
  · rw [hstatus, h.last]
  · rw [hstatus, htrail]
    exact h.trail
  · rw [hstatus, htrail, houtbox]
    exact h.undispatched

/-- The timeline tells of a job that has not ended everything. -/
lemma Told.trail_of_active (h : Told r job walk) (hactive : ¬ job.status.isTerminal) :
    r.trail = walk.map some := by
  rcases h.trail with htrail | ⟨-, hended | hended, -⟩
  · exact htrail
  · exact absurd (by rw [hended]; decide) hactive
  · exact absurd (by rw [hended]; decide) hactive

/-- A step along an edge, with the event for it. -/
lemma Told.moved (h : Told r job walk) (hactive : ¬ job.status.isTerminal)
    (hmoves : job.status.Moves job'.status) {event : JobEvent}
    (hevents : r'.events = r.events ++ [event]) (hto : event.toStatus = some job'.status)
    (hundispatched : ∀ o ∈ r'.outbox, o.status = .pending → job'.status.isTerminal ∧
      ∃ o ∈ r.outbox, o.status = .pending) : Told r' job' (walk ++ [job'.status]) := by
  have hne : walk ≠ [] := by
    intro hnil
    have hstart := h.start
    rw [hnil] at hstart
    cases hstart
  have htrail : r'.trail = (walk ++ [job'.status]).map some := by
    rw [JobRecord.trail, hevents, List.map_append, List.map_append,
      show r.events.map JobEvent.toStatus = _ from h.trail_of_active hactive, List.map_singleton,
      hto, List.map_singleton]
  refine ⟨?_, List.getLast?_concat, ?_, Or.inl htrail, ?_⟩
  · rw [List.head?_append_of_ne_nil _ hne, h.start]
  · refine h.moves.append (List.isChain_singleton _) ?_
    intro x hx y hy
    rw [h.last] at hx
    obtain rfl := Option.some.inj hx
    obtain rfl := Option.some.inj hy
    exact hmoves
  · intro o ho hwaits
    obtain ⟨hterminal, o', ho', hwaits'⟩ := hundispatched o ho hwaits
    refine ⟨htrail, Or.inr ⟨?_, hterminal⟩⟩
    rcases (h.undispatched o' ho' hwaits').2 with hwalk | ⟨-, hended⟩
    · rw [hwalk]
      rfl
    · exact absurd hended hactive

end Told

/-- The dispatch of a job tells of its step to `QUEUED`, or comes behind its end. -/
lemma told_of_dispatched {tx : Tx} {locked : List UUID} {batchSize : ℕ} {now : Time}
    {row : DispatchOutbox} {job : Job} {walk : List JobStatus} (hlinked : Linked (s.life j))
    (hundispatched : Undispatched (s.db.record j)) (hrow : (s.db.record j).row = some job)
    (hclaimed : row ∈ DispatchOutboxRepository.claimPending s.db locked batchSize)
    (hjob : row.jobId = j) (h : Told (s.db.record j) job walk) :
    ∃ walk', Told (DispatchService.dispatched tx now row job (s.db.record j))
      ((JobRepository.markQueued now).apply job) walk' := by
  obtain ⟨hmem, hwaits⟩ := Table.mem_of_mem_select hclaimed
  have hmem : row ∈ (s.db.record j).outbox := Table.mem_children.mpr ⟨hmem, hjob⟩
  have hwaits : row.status = .pending := by
    simp only [Bool.and_eq_true, decide_eq_true_eq] at hwaits
    exact hwaits.2
  have hpublished : ∀ o ∈ (DispatchService.dispatched tx now row job (s.db.record j)).outbox,
      o.status ≠ .pending := by
    intro o ho
    have hone : (s.db.record j).outbox = [row] := outbox_eq_singleton hlinked.outbox_le hmem
    rw [DispatchService.dispatched, hone] at ho
    obtain rfl := List.mem_singleton.mp ho
    simp [DispatchOutboxRepository.published]
  obtain ⟨htrail, hshort⟩ := h.undispatched row hmem hwaits
  by_cases hpending : job.status = .pending
  · have hguard : (JobRepository.markQueued now).guard job :=
      JobRepository.markQueued_guard.mpr hpending
    rw [JobUpdate.apply_of_guard hguard]
    refine ⟨_, h.moved (by rw [hpending]; decide) ?_ rfl rfl ?_⟩
    · rw [hpending]
      exact Or.inl (show JobStatus.pending.canTransition .queued by decide)
    · exact fun o ho hwaits' => absurd hwaits' (hpublished o ho)
  · have hended : job.status = .cancelled ∨ job.status = .expired :=
      (hundispatched row hmem hwaits job hrow).resolve_left hpending
    have hwalk : walk = [.pending, job.status] := by
      rcases hshort with hone | ⟨htwo, -⟩
      · have hlast := h.last
        rw [hone] at hlast
        exact absurd (Option.some.inj hlast).symm hpending
      · exact htwo
    have hmissed : ¬ (JobRepository.markQueued now).guard job := fun hguard =>
      hpending (JobRepository.markQueued_guard.mp hguard)
    rw [JobUpdate.apply_of_not_guard hmissed]
    refine ⟨walk, h.start, h.last, h.moves, Or.inr ⟨hwalk, hended, ?_⟩, ?_⟩
    · rw [JobRecord.trail, DispatchService.dispatched, List.map_append, List.map_append]
      exact congrArg (· ++ _) htrail
    · exact fun o ho hwaits' => absurd hwaits' (hpublished o ho)

/-- The way of every job is told. -/
def Timeline (r : JobRecord) : Prop := ∀ job, r.row = some job → ∃ walk, Told r job walk

lemma timeline_of_jobStep (hlinked : Linked (s.life j)) (hflag : FlagSound (s.life j))
    (hundispatched : Undispatched (s.db.record j)) (hbefore : Timeline (s.db.record j))
    (h : JobStep s j l life') : Timeline life'.record := by
  intro job' hrow'
  by_cases hl : ∃ tx locked batchSize now, l = .sweep .dispatchPending tx locked batchSize now
  · obtain ⟨tx, locked, batchSize, now, rfl⟩ := hl
    cases h with
    | idle | left => exact hbefore job' hrow'
    | dispatched row job hclaimed hjob hrow =>
        obtain ⟨walk, htold⟩ := hbefore job hrow
        obtain rfl := Option.some.inj hrow'
        exact told_of_dispatched hlinked hundispatched hrow hclaimed hjob htold
  · have hother : ∀ tx locked batchSize now,
        l ≠ .sweep .dispatchPending tx locked batchSize now :=
      fun tx locked batchSize now heq => hl ⟨tx, locked, batchSize, now, heq⟩
    have hdispatches : dispatchesPending s l := by
      unfold dispatchesPending
      split
      · exact absurd rfl (hother _ _ _ _)
      · rfl
    have hrecords := records_of_jobStep h hdispatches
    cases hrow : (s.db.record j).row with
    | none =>
        have hempty : s.db.record j = JobRecord.empty := hlinked.fresh hrow
        rcases row_of_jobStep h with hsame | ⟨args, now, hlimit, -, hnew⟩ | ⟨_, _, _, hsome, -⟩
        · cases (hsame.trans hrow).symm.trans hrow'
        · obtain rfl := Option.some.inj (hnew.symm.trans hrow')
          rcases hrecords with ⟨hsame, -⟩ | ⟨event, hevents, hto, -⟩
          · rw [status_of_row hrow', JobRecord.status, hrow] at hsame
            cases hsame
          · have htrail : life'.record.trail = [some .pending] := by
              rw [JobRecord.trail, hevents, hempty, List.map_append, List.map_singleton, hto,
                status_of_row hrow']
              rfl
            exact ⟨[.pending], rfl, rfl, List.isChain_singleton _, Or.inl htrail,
              fun _ _ _ => ⟨htrail, Or.inl rfl⟩⟩
        · cases hrow.symm.trans hsome
    | some job =>
        obtain ⟨walk, htold⟩ := hbefore job hrow
        have houtbox : life'.record.outbox = (s.db.record j).outbox := by
          rcases outbox_of_jobStep h hrow with hsame | ⟨_, _, _, _, _, rfl, -⟩
          · exact hsame
          · exact absurd rfl (hother _ _ _ _)
        rcases hrecords with ⟨hsame, hevents⟩ | ⟨event, hevents, hto, hne⟩
        · rw [status_of_row hrow', status_of_row hrow] at hsame
          exact ⟨walk, htold.of_same (Option.some.inj hsame) hevents houtbox⟩
        · rw [status_of_row hrow', status_of_row hrow] at hne
          rw [status_of_row hrow'] at hto
          rcases row_of_jobStep_of_row h hrow with hsame | ⟨u, hu, hguard, hvalues⟩
          · obtain rfl := Option.some.inj (hsame.symm.trans hrow')
            exact absurd rfl hne
          · obtain rfl := Option.some.inj (hvalues.symm.trans hrow')
            have hactive := not_isTerminal_of_issues hu hguard
            have hmoves := moves_of_issues hu hrow hguard hflag fun heq => hne (by rw [heq])
            refine ⟨_, htold.moved hactive hmoves hevents hto fun o ho hwaits => ?_⟩
            rw [houtbox] at ho
            refine ⟨?_, o, ho, hwaits⟩
            -- only its end can come before the dispatch of a job
            have hpending : job.status = .pending := by
              rcases hundispatched o ho hwaits job hrow with hpending | hended | hended
              · exact hpending
              · exact absurd (by rw [hended]; decide) hactive
              · exact absurd (by rw [hended]; decide) hactive
            rcases undispatched_of_issues hu hother hguard hpending with hended | hended
            · rw [hended]
              decide
            · rw [hended]
              decide

/-- **The timeline is the way of the job.**  In every reachable state the events of a job name, in
the order of their commits, a walk from `PENDING` to the status of the job along the edges of the
transition table and the claim of a `RETRYING` job; the one event that can come behind the walk is
the late `QUEUED` of a job that was cancelled or expired while it was `PENDING`. -/
theorem timeline_is_walk (h : (orchestrator settings).Reachable Always s) {job : Job}
    (hrow : s.db.jobs.get? j = some job) :
    ∃ walk : List JobStatus, walk.head? = some .pending ∧ walk.getLast? = some job.status ∧
      walk.IsChain JobStatus.Moves ∧
      ((s.db.record j).trail = walk.map some ∨ (walk = [.pending, job.status] ∧
        (job.status = .cancelled ∨ job.status = .expired) ∧
        (s.db.record j).trail = (walk ++ [JobStatus.queued]).map some)) := by
  have htimeline : Timeline (s.db.record j) :=
    life_invariant (I := fun life => Timeline life.record) (fun _ _ _ hnone => by cases hnone)
      (fun _ _ _ j hreach _ hstep hbefore => timeline_of_jobStep (linked_of_reachable hreach j)
        (flagSound_of_reachable hreach j) (undispatched_of_reachable hreach j) hbefore hstep) h j
  obtain ⟨walk, htold⟩ := htimeline job hrow
  exact ⟨walk, htold.start, htold.last, htold.moves, htold.trail⟩

/-- A job that was claimed again by a duplicate message while it waited for its retry. -/
theorem timeline_is_walk_retrying : ∃ (s : System 4) (job : Job),
    s.db.jobs.get? Scenario.jobId = some job ∧
      (s.db.record Scenario.jobId).trail = [some .pending, some .queued, some .running,
        some .retrying, some .running] ∧
      ∃ walk : List JobStatus, walk.head? = some .pending ∧ walk.getLast? = some job.status ∧
        walk.IsChain JobStatus.Moves ∧
        ((s.db.record Scenario.jobId).trail = walk.map some ∨ (walk = [.pending, job.status] ∧
          (job.status = .cancelled ∨ job.status = .expired) ∧
          (s.db.record Scenario.jobId).trail = (walk ++ [JobStatus.queued]).map some)) := by
  obtain ⟨s, hsteps, hs⟩ := exists_of_run (T := orchestrator {}) (System.start 4 0)
    (Scenario.submitted 5 ++ Scenario.dispatched ++ Scenario.redelivered ++
      Scenario.claim Scenario.first 4 31000000 ++ Scenario.backOff Scenario.first 31000000 ++
      [Scenario.finalize Scenario.first 5 31000000] ++ Scenario.claim Scenario.second 7 31000000)
    (fun s => (s.db.jobs.get? Scenario.jobId).isSome &&
      (s.db.record Scenario.jobId).trail = [some .pending, some .queued, some .running,
        some .retrying, some .running]) (by decide +kernel)
  rw [Bool.and_eq_true, decide_eq_true_eq] at hs
  obtain ⟨job, hrow⟩ := Option.isSome_iff_exists.mp hs.1
  exact ⟨s, job, hrow, hs.2, timeline_is_walk ⟨_, ⟨0, rfl⟩, hsteps⟩ hrow⟩

end Step

end JobOrchestrator
