import JobOrchestrator.Properties.Transitions

/-!
# Terminal notifications

A transaction that makes a job terminal announces it, and no other transaction inserts a
notification.  A job becomes terminal once, so the insert never meets an earlier row of the
job, and in every reachable state the outbox holds exactly the announcement of the terminal
status the job has, and the timeline the event of it.
-/

namespace JobOrchestrator

open ExecutionService SubmissionService CancellationService NotificationService TransitionSystem

variable {settings : Settings}

/-- The event type under which the status of the job is announced, if it is terminal. -/
def JobRecord.terminalEvent (r : JobRecord) : Option JobEventType :=
  r.row.bind fun job => job.status.terminalEventType

/-- The notifications of a job are the one that its terminal status calls for. -/
def Announced (r : JobRecord) : Prop :=
  r.notifications.map NotificationOutbox.eventType = r.terminalEvent.toList

/-- The event ends a timeline. -/
def JobEventType.ends : JobEventType → Bool
  | .succeeded | .failed | .cancelled | .expired => true
  | _ => false

/-- The ending events of a job are the one that its terminal status calls for. -/
def Recorded (r : JobRecord) : Prop :=
  (r.events.map JobEvent.eventType).filter JobEventType.ends = r.terminalEvent.toList

lemma JobStatus.terminalEventType_eq_none {status : JobStatus} :
    status.terminalEventType = none ↔ ¬ status.isTerminal := by
  rw [JobStatus.isTerminal_iff]
  cases status <;> simp [terminalEventType]

section Record

variable {r : JobRecord} {job : Job}

lemma terminalEvent_of_row (hrow : r.row = some job) :
    r.terminalEvent = job.status.terminalEventType := by
  rw [JobRecord.terminalEvent, hrow, Option.bind_some]

lemma terminalEvent_congr {r₁ : JobRecord} (h : r₁.row = r.row) :
    r₁.terminalEvent = r.terminalEvent := by
  rw [JobRecord.terminalEvent, h, JobRecord.terminalEvent]

/-- A statement that makes no job terminal keeps what is due. -/
lemma terminalEvent_updateRow {u : JobUpdate}
    (hkeeps : ∀ job, u.guard job →
      (u.values job).status.terminalEventType = job.status.terminalEventType) :
    (r.updateRow u).terminalEvent = r.terminalEvent := by
  rcases updateRow_cases (r := r) u with hsame | ⟨job, hrow, hguard, hvalues⟩
  · exact terminalEvent_congr hsame
  · rw [terminalEvent_of_row hvalues, hkeeps job hguard, terminalEvent_of_row hrow]

/-- A job that was not terminal has no notification yet, so the first one is inserted. -/
lemma announced_enqueue {r₁ : JobRecord} {n : NotificationOutbox} (h : Announced r)
    (hactive : r.terminalEvent = none) (hnotifications : r₁.notifications = r.notifications)
    (hevent : r₁.terminalEvent = some n.eventType) : Announced (r₁.enqueue n) := by
  have hnone : r₁.notifications = [] := by
    rw [Announced, hactive, Option.toList_none, List.map_eq_nil_iff] at h
    rw [hnotifications, h]
  have hsame : (r₁.enqueue n).terminalEvent = r₁.terminalEvent :=
    terminalEvent_congr JobRecord.enqueue_row
  rw [Announced, JobRecord.enqueue_notifications hnone, hsame, hevent]
  rfl

lemma recorded_append {event : JobEvent} (h : Recorded r) (hactive : r.terminalEvent = none)
    {r₁ : JobRecord} (hevents : r₁.events = r.events ++ [event]) (hending : event.eventType.ends)
    (hevent : r₁.terminalEvent = some event.eventType) : Recorded r₁ := by
  rw [Recorded, hevents, hevent, List.map_append, List.filter_append, h, hactive]
  simp [hending]

end Record

/-- What a step does about the end of a job: it announces nothing and nothing new is due, whether
it records an event or not, or the job ends and its announcement is offered to the outbox. -/
inductive AnnounceStep (r r' : JobRecord) : Prop
  | kept (hnotifications : r'.notifications.map announcement = r.notifications.map announcement)
      (hevents : r'.events = r.events) (hterminal : r'.terminalEvent = r.terminalEvent)
  | recorded (event)
      (hnotifications : r'.notifications.map announcement = r.notifications.map announcement)
      (hevents : r'.events = r.events ++ [event]) (hquiet : event.eventType.ends = false)
      (hterminal : r'.terminalEvent = r.terminalEvent)
  | ended (r₁ n event) (hrecord : r' = JobRecord.enqueue r₁ n) (hactive : r.terminalEvent = none)
      (hnotifications : r₁.notifications = r.notifications)
      (hevents : r₁.events = r.events ++ [event]) (htype : event.eventType = n.eventType)
      (hending : event.eventType.ends) (hterminal : r₁.terminalEvent = some n.eventType)

section Step

variable {s : System settings.workerConcurrency} {j : UUID}
  {l : Label settings.workerConcurrency} {life' : Life settings.workerConcurrency}

/-- **Inversion.** -/
lemma announceStep_of_jobStep (h : JobStep s j l life') :
    AnnounceStep (s.db.record j) life'.record := by
  have hnone : ∀ {job}, (s.db.record j).row = some job → ¬ job.status.isTerminal →
      (s.db.record j).terminalEvent = none := by
    intro job hrow hactive
    rw [terminalEvent_of_row hrow]
    exact JobStatus.terminalEventType_eq_none.mpr hactive
  cases h with
  | idle | tick | heartbeatFailed | decided | superseded | left => exact .kept rfl rfl rfl
  | notified r hsame =>
      refine .kept hsame.2 ?_ ?_
      · rw [hsame.1]
      · rw [hsame.1]
        rfl
  | heartbeat | progressed | redelivered =>
      exact .kept rfl rfl (terminalEvent_updateRow fun _ _ => rfl)
  | created tx' args now' hlimit hrow =>
      refine .recorded _ rfl rfl rfl ?_
      rw [JobRecord.terminalEvent, JobRecord.terminalEvent, hrow]
      rfl
  | cancelRequested job hlock hrow hstatus =>
      refine .recorded _ rfl rfl rfl ?_
      rw [hnone hrow (by rw [hstatus]; decide)]
      rfl
  | claimed job hworker hrow hguard =>
      have hactive : ∀ status ∈ JobRepository.claimable, ¬ status.isTerminal := by decide
      have hclaimable : job.status ∈ JobRepository.claimable := by
        simpa [JobRepository.claimable] using (JobRepository.claimForExecution_guard.mp hguard).1
      refine .recorded _ rfl rfl rfl ?_
      rw [hnone hrow (hactive _ hclaimable)]
      rfl
  | @dispatched _ _ _ now row job hclaimed hjob hrow =>
      refine .recorded _ rfl rfl rfl ?_
      have hkeeps : ((s.db.record j).updateRow (JobRepository.markQueued now)).terminalEvent =
          (s.db.record j).terminalEvent := by
        refine terminalEvent_updateRow fun job hguard => ?_
        rw [JobRepository.markQueued_guard.mp hguard]
        rfl
      rw [← hkeeps]
      refine terminalEvent_congr ?_
      rw [JobRecord.updateRow, hrow]
      rfl
  | promoted job hrow hstatus | requeued job hrow hstatus =>
      refine .recorded _ rfl rfl rfl ?_
      rw [hnone hrow (by rw [hstatus]; decide)]
      rfl
  | cancelled job hrow hstatus =>
      have hactive : ∀ status ∈ JobRepository.inactiveCancellable, ¬ status.isTerminal := by
        decide
      exact .ended _ _ _ rfl (hnone hrow (hactive _ hstatus)) rfl rfl rfl rfl rfl
  | leaseFailed job hrow hstatus =>
      exact .ended _ _ _ rfl (hnone hrow (by rw [hstatus]; decide)) rfl rfl rfl rfl rfl
  | expired job hrow hstatus =>
      have hactive : ∀ status ∈ JobRepository.expirable, ¬ status.isTerminal := by decide
      exact .ended _ _ _ rfl (hnone hrow (hactive _ hstatus)) rfl rfl rfl rfl rfl
  | @finalized c tx now e outcome job he hstage hrow hguard =>
      have hissues : Issues s j (.worker c (.finalize tx now))
          (outcome.finalizer.update c.workerId now) := .finalize e outcome he hstage
      have hactive := hnone hrow (not_isTerminal_of_issues hissues hguard)
      cases outcome with
      | retry =>
          refine .recorded _ rfl finalized_events rfl ?_
          rw [hactive]
          rfl
      | succeeded | failed | cancelled => exact .ended _ _ _ rfl hactive rfl rfl rfl rfl rfl

lemma announced_of_jobStep (h : JobStep s j l life') (hannounced : Announced (s.db.record j)) :
    Announced life'.record := by
  have hkept : ∀ {r : JobRecord},
      r.notifications.map announcement = (s.db.record j).notifications.map announcement →
      r.terminalEvent = (s.db.record j).terminalEvent → Announced r := by
    intro r hsame hevent
    have hevents := congrArg (List.map Announcement.eventType) hsame
    rw [List.map_map, List.map_map] at hevents
    rw [Announced, hevent, ← hannounced]
    exact hevents
  cases announceStep_of_jobStep h with
  | kept hnotifications _ hterminal => exact hkept hnotifications hterminal
  | recorded _ hnotifications _ _ hterminal => exact hkept hnotifications hterminal
  | ended r₁ n _ hrecord hactive hnotifications _ _ _ hterminal =>
      rw [hrecord]
      exact announced_enqueue hannounced hactive hnotifications hterminal

lemma recorded_of_jobStep (h : JobStep s j l life') (hrecorded : Recorded (s.db.record j)) :
    Recorded life'.record := by
  cases announceStep_of_jobStep h with
  | kept _ hevents hterminal =>
      rw [Recorded, hevents, hterminal]
      exact hrecorded
  | recorded event _ hevents hquiet hterminal =>
      rw [Recorded, hevents, hterminal, List.map_append, List.filter_append, hrecorded]
      simp [hquiet]
  | ended r₁ n event hrecord hactive _ hevents htype hending hterminal =>
      rw [hrecord]
      have hevents' : (JobRecord.enqueue r₁ n).events = (s.db.record j).events ++ [event] :=
        JobRecord.enqueue_events.trans hevents
      have hterminal' : (JobRecord.enqueue r₁ n).terminalEvent = some event.eventType := by
        rw [terminalEvent_congr JobRecord.enqueue_row, hterminal, htype]
      exact recorded_append hrecorded hactive hevents' hending hterminal'

lemma announced_of_reachable
    {C : System settings.workerConcurrency → Label settings.workerConcurrency → Prop}
    (h : (orchestrator settings).Reachable C s) (j : UUID) : Announced (s.db.record j) :=
  life_invariant (I := fun life => Announced life.record) (fun _ _ => rfl)
    (fun _ _ _ _ _ _ hstep => announced_of_jobStep hstep) h j

lemma recorded_of_reachable
    {C : System settings.workerConcurrency → Label settings.workerConcurrency → Prop}
    (h : (orchestrator settings).Reachable C s) (j : UUID) : Recorded (s.db.record j) :=
  life_invariant (I := fun life => Recorded life.record) (fun _ _ => rfl)
    (fun _ _ _ _ _ _ hstep => recorded_of_jobStep hstep) h j

/-- **Exactly one notification for a terminal job, and none before.**  In every reachable
state the outbox holds one row for each terminal job, under the event type of the status the
job has, and no row for a job that is not terminal. -/
theorem one_terminal_notification {job : Job} (h : (orchestrator settings).Reachable Always s)
    (hrow : s.db.jobs.get? j = some job) :
    (job.status.isTerminal → ∃ n,
      s.db.notificationOutbox.children NotificationOutbox.jobId j = [n] ∧
        job.status.terminalEventType = some n.eventType) ∧
    (¬ job.status.isTerminal →
      s.db.notificationOutbox.children NotificationOutbox.jobId j = []) := by
  have hannounced : Announced (s.db.record j) := announced_of_reachable h j
  rw [Announced, terminalEvent_of_row hrow] at hannounced
  constructor
  · intro hterminal
    obtain ⟨eventType, hevent⟩ := Option.ne_none_iff_exists'.mp
      (fun hnone => JobStatus.terminalEventType_eq_none.mp hnone hterminal)
    rw [hevent, Option.toList_some, List.map_eq_singleton_iff] at hannounced
    obtain ⟨n, hnotifications, hn⟩ := hannounced
    exact ⟨n, hnotifications, hevent.trans (congrArg some hn.symm)⟩
  · intro hactive
    rw [JobStatus.terminalEventType_eq_none.mpr hactive, Option.toList_none,
      List.map_eq_nil_iff] at hannounced
    exact hannounced

/-- A job whose lease expired on its last attempt while its worker was still busy: the reaper
announces the failure, and the late finalize announces nothing. -/
theorem one_terminal_notification_reaped :
    ∃ (s : System 4) (job : Job) (n : NotificationOutbox),
      s.db.jobs.get? Scenario.jobId = some job ∧ job.status = .failed ∧
      s.db.notificationOutbox.children NotificationOutbox.jobId Scenario.jobId = [n] ∧
      n.eventType = .failed := by
  obtain ⟨s, hsteps, hs⟩ := exists_of_run (T := orchestrator {}) (System.start 4 0)
    (Scenario.submitted 1 ++ Scenario.dispatched ++ Scenario.claim Scenario.first 3 0 ++
      [.tick 61000000, .sweep .reapExpired (Scenario.tx 8) [] 1 61000000,
        .worker Scenario.first (.handlerReturns []), Scenario.finalize Scenario.first 4 61000000])
    (fun s => s.status Scenario.jobId = some .failed) (by decide +kernel)
  obtain ⟨job, hrow, hstatus⟩ := Option.map_eq_some_iff.mp (of_decide_eq_true hs)
  obtain ⟨n, hnotifications, hevent⟩ :=
    (one_terminal_notification ⟨_, ⟨0, rfl⟩, hsteps⟩ hrow).1 (by rw [hstatus]; decide)
  rw [hstatus] at hevent
  exact ⟨s, job, n, hrow, hstatus, hnotifications, (Option.some.inj hevent).symm⟩

end Step

end JobOrchestrator
