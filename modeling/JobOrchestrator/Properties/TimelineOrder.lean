import JobOrchestrator.Lifecycle.Effects
import JobOrchestrator.Properties.Transitions

/-!
# The order of the timeline

`created_at` of an event defaults to `now()`, the start of the transaction that records it, while
the order of the transitions of a job is the order in which their transactions commit.
`list_for_job` sorts by the former.  It lists the events in the reverse of the latter exactly when
the transactions of each job began in the order in which they committed.
-/

namespace JobOrchestrator

open ExecutionService SubmissionService CancellationService TransitionSystem

variable {settings : Settings}

/-- `list_for_job` returns the events of every job, up to any limit, latest commit first. -/
def ListsLatestFirst (db : Database) : Prop :=
  ∀ jobId limit, JobEventRepository.listForJob db jobId limit =
    (db.record jobId).events.reverse.take limit

/-- The events of every job are recorded by transactions that began one after the other. -/
def RecordedInOrder (db : Database) : Prop :=
  ∀ jobId, (db.record jobId).events.Pairwise fun e f =>
    JobEventRepository.orderKey e < JobEventRepository.orderKey f

/-- An event that the step records of a job comes from a transaction that began after those of the
earlier events of the job; of two that began at one instant the generated ids decide. -/
def BeginsLater {concurrency : ℕ} (s s' : System concurrency) : Prop :=
  ∀ jobId event, (s'.db.record jobId).events = (s.db.record jobId).events ++ [event] →
    ∀ earlier ∈ (s.db.record jobId).events,
      JobEventRepository.orderKey earlier < JobEventRepository.orderKey event

/-- The primary key of `job_events`. -/
def EventIdsUnique (db : Database) : Prop := (db.jobEvents.map JobEvent.id).Nodup

instance (db : Database) : Decidable (EventIdsUnique db) := List.nodupDecidable _

section Order

variable {db : Database}

lemma nodup_orderKey (hunique : EventIdsUnique db) (jobId : UUID) :
    ((db.record jobId).events.map JobEventRepository.orderKey).Nodup := by
  have hids : ((db.record jobId).events.map JobEvent.id).Nodup :=
    (List.filter_sublist.map JobEvent.id).nodup hunique
  refine List.Nodup.of_map (fun k : ℤ ×ₗ Fin (2 ^ 128) => (⟨(ofLex k).2⟩ : UUID)) ?_
  rw [List.map_map]
  exact hids

/-- Sorted by their start times, the events come in the reverse of their commits exactly when the
start times increase. -/
lemma listsLatestFirst_iff (hunique : EventIdsUnique db) :
    ListsLatestFirst db ↔ RecordedInOrder db := by
  refine forall_congr' fun jobId => ?_
  rw [← descending_eq_reverse_iff (nodup_orderKey hunique jobId)]
  constructor
  · intro hlists
    have hall := hlists (db.record jobId).events.length
    rw [List.take_of_length_le List.length_reverse.le] at hall
    have hlisted : (descending JobEventRepository.orderKey (db.record jobId).events).take
        (db.record jobId).events.length = (db.record jobId).events.reverse := hall
    rwa [List.take_of_length_le descending_perm.length_eq.le] at hlisted
  · intro heq limit
    rw [← heq]
    rfl

end Order

section Step

variable {s s' : System settings.workerConcurrency} {j : UUID}
  {l : Label settings.workerConcurrency} {life' : Life settings.workerConcurrency}

/-- The transaction of a step that is more than one statement. -/
def Label.tx {concurrency : ℕ} : Label concurrency → Option Tx
  | .cancel tx .. | .sweep _ tx .. | .worker _ (.claim tx _) | .worker _ (.finalize tx _) => some tx
  | _ => none

/-- A step records at most one event of a job, with the start of its transaction. -/
lemma events_of_jobStep (h : JobStep s j l life') :
    life'.record.events = (s.db.record j).events ∨ ∃ event,
      life'.record.events = (s.db.record j).events ++ [event] ∧
      ∀ tx, l.tx = some tx → event.createdAt = tx.began ∧ event.id = tx.eventId j := by
  have hid : ∀ {job : Job}, (s.db.record j).row = some job → job.id = j :=
    fun hrow => s.db.id_of_row j hrow
  cases h with
  | idle | tick | heartbeat | progressed | heartbeatFailed | decided | superseded | left
  | redelivered => exact Or.inl rfl
  | notified r hsame =>
      refine Or.inl ?_
      change r.events = (s.db.record j).events
      rw [hsame.1]
  | created => exact Or.inr ⟨_, rfl, nofun⟩
  | cancelRequested job hlock hrow | claimed job hworker hrow | promoted job hrow
  | requeued job hrow =>
      refine Or.inr ⟨_, rfl, ?_⟩
      rintro tx ⟨⟩
      rw [← hid hrow]
      exact ⟨rfl, rfl⟩
  | dispatched row job hclaimed hjob hrow =>
      refine Or.inr ⟨_, rfl, ?_⟩
      rintro tx ⟨⟩
      rw [← hjob]
      exact ⟨rfl, rfl⟩
  | cancelled job hrow | leaseFailed job hrow | expired job hrow =>
      refine Or.inr ⟨_, JobRecord.enqueue_events, ?_⟩
      rintro tx ⟨⟩
      rw [← hid hrow]
      exact ⟨rfl, rfl⟩
  | finalized e outcome job he hstage hrow =>
      refine Or.inr ⟨_, finalized_events, ?_⟩
      rintro tx ⟨⟩
      rw [← hid hrow]
      exact ⟨rfl, rfl⟩

/-- From a timeline in order a step leads to one in order exactly when its transaction began after
those before it. -/
lemma recordedInOrder_iff (hreach : (orchestrator settings).Reachable Always s)
    (hstep : (orchestrator settings).step s l = some s') (hordered : RecordedInOrder s.db) :
    RecordedInOrder s'.db ↔ BeginsLater s s' := by
  constructor
  · intro hordered' j event hevents earlier hearlier
    have hpairs := hordered' j
    rw [hevents, List.pairwise_append] at hpairs
    exact hpairs.2.2 earlier hearlier event (List.mem_singleton_self event)
  · intro hlater j
    rcases events_of_jobStep (jobStep_of_reachable hreach hstep j) with
      hsame | ⟨event, hevents, -⟩
    · have hsame : (s'.db.record j).events = (s.db.record j).events := hsame
      rw [hsame]
      exact hordered j
    · have hevents : (s'.db.record j).events = (s.db.record j).events ++ [event] := hevents
      rw [hevents]
      refine List.pairwise_append.mpr ⟨hordered j, List.pairwise_singleton .., ?_⟩
      intro earlier hearlier event' hevent'
      rw [List.mem_singleton.mp hevent']
      exact hlater j event hevents earlier hearlier

/-- **The timeline is in the order of the commits exactly while transactions commit in the order
in which they begin.**  Along a run, `list_for_job` always returns the events of every job in the
reverse of the order of their commits if and only if every transaction that records an event of a
job began after the transactions of the earlier events of the job. -/
theorem timeline_order_iff {s₀ : System settings.workerConcurrency}
    {ls : List (Label settings.workerConcurrency)} (h₀ : (orchestrator settings).init s₀)
    (hunique : (orchestrator settings).Along (fun _ _ s' => EventIdsUnique s'.db) s₀ ls) :
    (orchestrator settings).Along (fun _ _ s' => ListsLatestFirst s'.db) s₀ ls ↔
      (orchestrator settings).Along (fun s _ s' => BeginsLater s s') s₀ ls := by
  have hordered : RecordedInOrder s₀.db := by
    obtain ⟨clock, rfl⟩ := h₀
    exact fun _ => List.Pairwise.nil
  rw [← along_iff_of_invariant (I := fun s => RecordedInOrder s.db) (Reachable.start h₀) hordered
    fun _ _ _ hreach hstep hI => recordedInOrder_iff hreach hstep hI]
  exact along_iff_of_along hunique fun _ _ _ hunique => listsLatestFirst_iff hunique

/-- A job that is dispatched and claimed. -/
theorem timeline_order_iff_claimed :
    (orchestrator {}).Along (fun _ _ s' => ListsLatestFirst s'.db) (System.start 4 0)
        (Scenario.submitted 5 ++ Scenario.dispatched ++ Scenario.claim Scenario.first 3 0) ↔
      (orchestrator {}).Along (fun s _ s' => BeginsLater s s') (System.start 4 0)
        (Scenario.submitted 5 ++ Scenario.dispatched ++ Scenario.claim Scenario.first 3 0) :=
  timeline_order_iff ⟨0, rfl⟩ (by decide +kernel)

/-- The finalizing transaction of a job begins before a cancellation and commits after it: the job
has succeeded, and its timeline ends with the request to cancel it. -/
theorem late_commit_listed_earlier :
    ∃ s : System 4, (orchestrator {}).Reachable Always s ∧ EventIdsUnique s.db ∧
      s.status Scenario.jobId = some .succeeded ∧
      ((s.db.record Scenario.jobId).events.getLast?.bind JobEvent.toStatus) = some .succeeded ∧
      ((JobEventRepository.listForJob s.db Scenario.jobId 1).map JobEvent.toStatus) =
        [some .cancelling] ∧ ¬ ListsLatestFirst s.db := by
  obtain ⟨s, hsteps, hs⟩ := exists_of_run (T := orchestrator {}) (System.start 4 0)
    (Scenario.submitted 5 ++ Scenario.dispatched ++ Scenario.claim Scenario.first 3 0 ++
      [.worker Scenario.first (.handlerReturns []), .tick 10,
        .cancel { Scenario.tx 5 with began := 5 } Scenario.jobId "user" none 6,
        .worker Scenario.first (.finalize { Scenario.tx 4 with began := 4 } 4)])
    (fun s => EventIdsUnique s.db && s.status Scenario.jobId = some .succeeded &&
      (s.db.record Scenario.jobId).events.getLast?.bind JobEvent.toStatus = some .succeeded &&
      ((s.db.record Scenario.jobId).events.reverse.take 1).map JobEvent.toStatus =
        [some .succeeded] &&
      (JobEventRepository.listForJob s.db Scenario.jobId 1).map JobEvent.toStatus =
        [some .cancelling]) (by decide +kernel)
  simp only [Bool.and_eq_true, decide_eq_true_eq] at hs
  obtain ⟨⟨⟨⟨hunique, hstatus⟩, hlast⟩, hcommitted⟩, hlisted⟩ := hs
  refine ⟨s, ⟨_, ⟨0, rfl⟩, hsteps⟩, hunique, hstatus, hlast, hlisted, fun hlists => ?_⟩
  rw [hlists Scenario.jobId 1, hcommitted] at hlisted
  cases hlisted

end Step

end JobOrchestrator
