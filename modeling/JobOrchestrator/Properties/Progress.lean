import JobOrchestrator.Properties.Coherence
import JobOrchestrator.Properties.Notifications
import JobOrchestrator.Properties.Submissions
import JobOrchestrator.Workers.Scheduler
import Mathlib.Data.Fintype.Sum

/-!
# Progress

Whatever has been lost, the rows alone decide which sweep finds a job next: its outbox row or its
age finds a `PENDING` one, its age a `QUEUED` one, its due time a `RETRYING` one and its lease a
`RUNNING` one.  So once enough time has passed a single tick of the scheduler ends the job.
-/

namespace JobOrchestrator

open ExecutionService SubmissionService CancellationService TransitionSystem

variable {settings : Settings}

/-! ## Pending jobs -/

/-- A `PENDING` job has an outbox row that waits for its dispatch. -/
def Dispatchable (r : JobRecord) : Prop :=
  ∀ job, r.row = some job → job.status = .pending → ∃ o ∈ r.outbox, o.status = .pending

section Dispatchable

variable {s : System settings.workerConcurrency} {j : UUID}
  {l : Label settings.workerConcurrency} {life' : Life settings.workerConcurrency}

/-- A job that a statement writes is not left `PENDING`. -/
lemma not_pending_of_issues {u : JobUpdate} (h : Issues s j l u) {job : Job}
    (hguard : u.guard job) : (u.values job).status ≠ .pending := by
  cases h with
  | heartbeat =>
      have hrunning : job.status = .running := (JobRepository.heartbeat_guard.mp hguard).2
      exact fun hpending => by cases hrunning.symm.trans hpending
  | updateProgress =>
      have hactive := (JobRepository.updateProgress_guard.mp hguard).2
      intro hpending
      rcases hactive with hactive | hactive <;> cases hactive.symm.trans hpending
  | markRedispatched =>
      have hqueued : job.status = .queued := JobRepository.markRedispatched_guard.mp hguard
      exact fun hpending => by cases hqueued.symm.trans hpending
  | finalize e outcome => cases outcome <;> exact nofun
  | requestRunningCancellation | cancelInactive | claimForExecution | markQueued
  | moveRetryToQueued | failExpiredLease | requeueExpiredLease | expire => exact nofun

lemma dispatchable_of_jobStep (hbefore : Dispatchable (s.db.record j)) (h : JobStep s j l life') :
    Dispatchable life'.record := by
  intro job' hrow' hpending
  cases hrow : (s.db.record j).row with
  | none =>
      obtain ⟨-, tx, job, hcreated⟩ := created_of_jobStep h hrow hrow'
      rw [hcreated]
      exact ⟨_, List.mem_append_right _ (List.mem_singleton_self _), rfl⟩
  | some job =>
      rcases row_of_jobStep_of_row h hrow with hsame | ⟨u, hu, hguard, hvalues⟩
      · obtain rfl := Option.some.inj (hsame.symm.trans hrow')
        rcases outbox_of_jobStep h hrow with houtbox | ⟨_, _, _, now, _, -, -, -, hdispatched⟩
        · rw [houtbox]
          exact hbefore job hrow hpending
        · -- the dispatch of a `PENDING` job queues it
          have hguard : (JobRepository.markQueued now).guard job :=
            JobRepository.markQueued_guard.mpr hpending
          have hqueued : life'.record.row = some ((JobRepository.markQueued now).apply job) :=
            congrArg JobRecord.row hdispatched
          rw [JobUpdate.apply_of_guard hguard, hrow'] at hqueued
          have hstatus : job.status = .queued := congrArg Job.status (Option.some.inj hqueued)
          cases hstatus.symm.trans hpending
      · obtain rfl := Option.some.inj (hvalues.symm.trans hrow')
        exact absurd hpending (not_pending_of_issues hu hguard)

lemma dispatchable_of_reachable
    {C : System settings.workerConcurrency → Label settings.workerConcurrency → Prop}
    (h : (orchestrator settings).Reachable C s) (j : UUID) : Dispatchable (s.db.record j) :=
  life_invariant (I := fun life => Dispatchable life.record) (fun _ _ _ hrow => by cases hrow)
    (fun _ _ _ _ _ _ hstep hbefore => dispatchable_of_jobStep hbefore hstep) h j

end Dispatchable

/-! ## Inserting notifications -/

instance : Finite UUID :=
  Finite.of_equiv (Fin (2 ^ 128)) ⟨UUID.mk, UUID.int, fun _ => rfl, fun _ => rfl⟩

/-- Only a terminal job has notifications, and their id is the one that `name` gives the job. -/
def Named (name : UUID → UUID) (j : UUID) (r : JobRecord) : Prop :=
  ∀ n ∈ r.notifications, n.id = name j ∧ ∃ job, r.row = some job ∧ job.status.isTerminal

section Named

variable {s : System settings.workerConcurrency}

/-- A job has at most one notification, and only once it is terminal. -/
lemma notification_of_reachable (h : (orchestrator settings).Reachable Always s) {j : UUID}
    {n : NotificationOutbox} (hn : n ∈ (s.db.record j).notifications) :
    (s.db.record j).notifications = [n] ∧
      ∃ job, (s.db.record j).row = some job ∧ job.status.isTerminal := by
  have hannounced : Announced (s.db.record j) := announced_of_reachable h j
  rw [Announced] at hannounced
  cases hevent : (s.db.record j).terminalEvent with
  | none =>
      rw [hevent, Option.toList_none, List.map_eq_nil_iff] at hannounced
      rw [hannounced] at hn
      cases hn
  | some eventType =>
      rw [hevent, Option.toList_some, List.map_eq_singleton_iff] at hannounced
      obtain ⟨m, hm, -⟩ := hannounced
      rw [hm, List.mem_singleton] at hn
      subst hn
      refine ⟨hm, ?_⟩
      obtain ⟨job, hrow, htype⟩ := Option.bind_eq_some_iff.mp hevent
      refine ⟨job, hrow, ?_⟩
      by_contra hactive
      rw [JobStatus.terminalEventType_eq_none.mpr hactive] at htype
      cases htype

/-- Every job can be given an id for its notification that no other job uses. -/
lemma exists_name (h : (orchestrator settings).Reachable Always s) :
    ∃ name : UUID → UUID, Function.Injective name ∧ ∀ j, Named name j (s.db.record j) := by
  -- the ids in use name their jobs, and this naming extends to all jobs
  have := Fintype.ofFinite UUID
  let used : Set UUID := {j | (s.db.record j).notifications ≠ []}
  let id : UUID → UUID := fun j =>
    ((s.db.record j).notifications.head?.map NotificationOutbox.id).getD j
  have hid : ∀ {j n}, n ∈ (s.db.record j).notifications → id j = n.id := by
    intro j n hn
    simp [id, (notification_of_reachable h hn).1]
  have hinj : Set.InjOn id used := by
    intro i hi j hj heq
    obtain ⟨n, hn⟩ := List.exists_mem_of_ne_nil _ hi
    obtain ⟨m, hm⟩ := List.exists_mem_of_ne_nil _ hj
    rw [hid hn, hid hm] at heq
    obtain ⟨hn, hni⟩ := Table.mem_children.mp hn
    obtain ⟨hm, hmj⟩ := Table.mem_children.mp hm
    rw [← hni, ← hmj, Table.eq_of_key_eq hn hm heq]
  have hmaps : used.MapsTo id (Finset.univ : Finset UUID) := fun j _ => Finset.mem_univ (id j)
  obtain ⟨g, hg⟩ := hmaps.exists_equiv_extend_of_card_eq rfl hinj
  refine ⟨fun j => g j, Subtype.val_injective.comp g.injective, fun j n hn => ⟨?_, ?_⟩⟩
  · exact (hid hn).symm.trans (hg j (List.ne_nil_of_mem hn)).symm
  · exact (notification_of_reachable h hn).2

end Named

section Inserts

variable {name : UUID → UUID} {db : Database} {j : UUID} {job : Job} {r : JobRecord} {tx : Tx}

/-- The id of a job that is not terminal is free. -/
lemma free_of_named (hname : Function.Injective name) (hnamed : ∀ i, Named name i (db.record i))
    (hrow : (db.record j).row = some job) (hactive : ¬ job.status.isTerminal) :
    db.notificationOutbox.get? (name j) = none := by
  rw [Table.get?_eq_none]
  intro n hn hid
  obtain ⟨hown, job', hrow', hterminal⟩ := hnamed n.jobId n (Table.mem_children.mpr ⟨hn, rfl⟩)
  obtain rfl : n.jobId = j := hname (hown.symm.trans hid)
  obtain rfl := Option.some.inj (hrow.symm.trans hrow')
  exact hactive hterminal

lemma enqueue_isSome {eventType : JobEventType} {status : JobStatus} {result : Option Dict}
    {errorCode errorMessage : Option String} {now : Time}
    (hfree : db.notificationOutbox.get? (tx.notificationId job.id) = none) :
    (NotificationService.enqueueTerminalNotification db tx job eventType status result errorCode
      errorMessage now).isSome := by
  unfold NotificationService.enqueueTerminalNotification NotificationOutboxRepository.enqueue
  rw [Option.isSome_map]
  split
  · rfl
  · rw [Option.isSome_map, Table.insert?_isSome]
    exact hfree

/-- A job that a guarded statement finds active has no notification yet. -/
lemma named_guarded {u : JobUpdate} {g : JobRecord → JobRecord} (hnamed : Named name j r)
    (hactive : ∀ job, u.guard job → ¬ job.status.isTerminal)
    (hg : ∀ job r', r'.row = some (u.values job) → r'.notifications = [] → Named name j (g r')) :
    Named name j (r.guarded u g) := by
  cases hrow : r.row with
  | none =>
      rw [JobRecord.guarded, hrow, Option.any_none, if_neg Bool.false_ne_true]
      exact hnamed
  | some job =>
      by_cases hguard : u.guard job
      · rw [JobRecord.guarded_of_row hrow hguard]
        refine hg job _ rfl (List.eq_nil_iff_forall_not_mem.mpr fun n hn => ?_)
        obtain ⟨-, job', hrow', hterminal⟩ := hnamed n hn
        obtain rfl := Option.some.inj (hrow.symm.trans hrow')
        exact hactive job hguard hterminal
      · rw [JobRecord.guarded, hrow, Option.any_some, if_neg hguard]
        exact hnamed

/-- The announcement of a status that ends a job. -/
lemma named_enqueue {n : NotificationOutbox} (hnone : r.notifications = []) (hid : n.id = name j)
    (hrow : r.row = some job) (hterminal : job.status.isTerminal) : Named name j (r.enqueue n) := by
  intro m hm
  rw [JobRecord.enqueue_notifications hnone, List.mem_singleton] at hm
  exact ⟨hm ▸ hid, job, JobRecord.enqueue_row.trans hrow, hterminal⟩

lemma free_of_matched (hname : Function.Injective name)
    (hnamed : ∀ i, Named name i (db.record i)) {u : JobUpdate}
    (hactive : ∀ job, u.guard job → ¬ job.status.isTerminal) (hmatched : (db.updateJob j u).2) :
    db.notificationOutbox.get? (name j) = none := by
  rw [Database.updateJob_matched] at hmatched
  obtain ⟨job, hrow, hguard⟩ := (Option.any_eq_true ..).mp hmatched
  exact free_of_named hname hnamed hrow (hactive job hguard)

lemma named_update {db' : Database} (hnamed : ∀ i, Named name i (db.record i))
    (hrecord : db'.record = Function.update db.record j r) (hr : Named name j r) (i : UUID) :
    Named name i (db'.record i) := by
  rw [hrecord]
  by_cases hi : i = j
  · rw [hi, Function.update_self]
    exact hr
  · rw [Function.update_of_ne hi]
    exact hnamed i

end Inserts

/-! ## The sweeps commit -/

section Commits

variable {name : UUID → UUID} {tx : Tx} {now : Time} {locked : List UUID} {batchSize : ℕ}
  {db : Database}

lemma dispatchPending_isSome :
    (DispatchService.dispatchPending db tx locked batchSize now).isSome := by
  have hrow : ∀ s row, (DispatchService.dispatchRow tx now s row).isSome ↔ True := by
    intro s row
    unfold DispatchService.dispatchRow
    cases JobRepository.get s.db row.jobId <;> simp
  exact (Table.foldlM_isSome_iff hrow).mpr fun _ _ => trivial

lemma promoteDue_isSome : (RetryService.promoteDue db tx locked batchSize now).isSome := by
  have hrow : ∀ s job, (RetryService.promoteRow tx now s job).isSome ↔ True := by
    intro s job
    unfold RetryService.promoteRow
    dsimp only
    split <;> simp
  exact (Table.foldlM_isSome_iff hrow).mpr fun _ _ => trivial

lemma redeliverStuck_isSome {stamp : UUID → Time} :
    (DispatchService.redeliverStuck settings db locked batchSize now stamp).isSome := by
  have hrow : ∀ s job, (DispatchService.redeliverRow stamp s job).isSome ↔ True := by
    intro s job
    exact iff_of_true rfl trivial
  exact (Table.foldlM_isSome_iff hrow).mpr fun _ _ => trivial

lemma active_of_running {job : Job} (h : job.status = .running) : ¬ job.status.isTerminal := by
  rw [h]
  decide

lemma reapRow_isSome (hname : Function.Injective name) (htx : tx.notificationId = name)
    {s : Swept} (hnamed : ∀ i, Named name i (s.db.record i)) (job : Job) :
    (LeaseService.reapRow tx now s job).isSome := by
  unfold LeaseService.reapRow
  split
  · unfold LeaseService.failRow
    dsimp only
    split
    · rename_i hmatched
      have hfree := free_of_matched hname hnamed
        (fun _ hguard => active_of_running (JobRepository.failExpiredLease_guard.mp hguard))
        hmatched
      rw [Option.isSome_map]
      refine enqueue_isSome ?_
      rw [htx]
      exact hfree
    · rfl
  · unfold LeaseService.requeueRow
    dsimp only
    split <;> rfl

/-- A reap gives its own notification to each job that it ends. -/
lemma named_reapRecord (htx : tx.notificationId = name) {job : Job} {r : JobRecord}
    (hnamed : Named name job.id r) : Named name job.id (LeaseService.reapRecord tx now job r) := by
  unfold LeaseService.reapRecord
  split
  · refine named_guarded hnamed
      (fun _ hguard => active_of_running (JobRepository.failExpiredLease_guard.mp hguard)) ?_
    intro job' r' hrow hnone
    have hterminal : JobStatus.failed.isTerminal := by decide
    exact named_enqueue hnone (congrFun htx job.id) hrow hterminal
  · refine named_guarded hnamed
      (fun _ hguard => active_of_running (JobRepository.requeueExpiredLease_guard.mp hguard)) ?_
    intro job' r' hrow hnone n hn
    rw [JobRecord.addEvent, hnone] at hn
    cases hn

lemma reapExpired_isSome (hname : Function.Injective name) (htx : tx.notificationId = name)
    (hnamed : ∀ i, Named name i (db.record i)) :
    (LeaseService.reapExpired db tx locked batchSize now).isSome := by
  have hbody : ∀ s : Swept, (∀ i, Named name i (s.db.record i)) →
      ∀ job ∈ JobRepository.findExpiredLeases db locked now batchSize,
        ∃ s', LeaseService.reapRow tx now s job = some s' ∧ ∀ i, Named name i (s'.db.record i) := by
    intro s hs job _
    obtain ⟨s', hs'⟩ := Option.isSome_iff_exists.mp (reapRow_isSome hname htx hs job)
    exact ⟨s', hs', named_update hs (LeaseService.record_reapRow hs')
      (named_reapRecord htx (hs job.id))⟩
  have hstart : ∀ i, Named name i ((Swept.start db).db.record i) := hnamed
  obtain ⟨s', hs', -⟩ := Table.exists_foldlM hbody hstart
  exact Option.isSome_iff_exists.mpr ⟨s', hs'⟩

lemma active_of_expirable {job : Job} (h : job.status = .pending ∨ job.status = .queued) :
    ¬ job.status.isTerminal := by
  rcases h with h | h <;> rw [h] <;> decide

lemma expireRow_isSome (hname : Function.Injective name) (htx : tx.notificationId = name)
    {s : Swept} (hnamed : ∀ i, Named name i (s.db.record i)) (job : Job) :
    (ExpiryService.expireRow tx now s job).isSome := by
  have hid : ((JobRepository.expire now).apply job).id = job.id := JobUpdate.apply_id ..
  unfold ExpiryService.expireRow
  dsimp only
  split
  · rename_i hmatched
    have hfree := free_of_matched hname hnamed
      (fun _ hguard => active_of_expirable (JobRepository.expire_guard.mp hguard)) hmatched
    rw [Option.isSome_map]
    refine enqueue_isSome ?_
    rw [htx, hid]
    exact hfree
  · rfl

/-- An expiry sweep gives its own notification to each job that it ends. -/
lemma named_expireRecord (htx : tx.notificationId = name) {job : Job} {r : JobRecord}
    (hnamed : Named name job.id r) :
    Named name job.id (ExpiryService.expireRecord tx now job r) := by
  have hid : ((JobRepository.expire now).apply job).id = job.id := JobUpdate.apply_id ..
  refine named_guarded hnamed
    (fun _ hguard => active_of_expirable (JobRepository.expire_guard.mp hguard)) ?_
  intro job' r' hrow hnone
  have hterminal : JobStatus.expired.isTerminal := by decide
  refine named_enqueue hnone ?_ hrow hterminal
  exact (congrFun htx _).trans (congrArg name hid)

lemma expireStale_isSome (hname : Function.Injective name) (htx : tx.notificationId = name)
    (hnamed : ∀ i, Named name i (db.record i)) :
    (ExpiryService.expireStale settings db tx locked batchSize now).isSome := by
  have hbody : ∀ s : Swept, (∀ i, Named name i (s.db.record i)) →
      ∀ job ∈ JobRepository.findExpirable db locked
        (now - seconds settings.jobQueueMaxAgeSeconds) batchSize,
        ∃ s', ExpiryService.expireRow tx now s job = some s' ∧
          ∀ i, Named name i (s'.db.record i) := by
    intro s hs job _
    obtain ⟨s', hs'⟩ := Option.isSome_iff_exists.mp (expireRow_isSome hname htx hs job)
    exact ⟨s', hs', named_update hs (ExpiryService.record_expireRow hs')
      (named_expireRecord htx (hs job.id))⟩
  have hstart : ∀ i, Named name i ((Swept.start db).db.record i) := hnamed
  obtain ⟨s', hs', -⟩ := Table.exists_foldlM hbody hstart
  exact Option.isSome_iff_exists.mpr ⟨s', hs'⟩

end Commits

/-! ## One sweep after the other -/

/-- By the clock value `now` the job has waited long enough for every sweep. -/
structure Overdue (settings : Settings) (now : Time) (job : Job) : Prop where
  aged : job.createdAt < now - seconds settings.jobQueueMaxAgeSeconds
  due : ∀ t, job.nextAttemptAt = some t → t ≤ now
  lapsed : ∀ t, job.lockExpiresAt = some t → t < now

/-- The job has ended, or it is overdue and has one of the given statuses. -/
def Remains (settings : Settings) (now : Time) (statuses : List JobStatus) (r : JobRecord) : Prop :=
  ∃ job, r.row = some job ∧
    (job.status.isTerminal ∨ job.status ∈ statuses ∧ Overdue settings now job)

section Sweeps

variable {s s' : System settings.workerConcurrency} {j : UUID} {tx : Tx} {batchSize : ℕ}
  {now : Time}

/-- With room for all jobs, a sweep selects every job that it looks for. -/
lemma mem_select_of_row {κ : Type} [LinearOrder κ] {p : Job → Bool} {orderBy : Job → κ}
    {job : Job} (hroom : s.db.jobs.rows.length ≤ batchSize)
    (hrow : (s.db.record j).row = some job) (hp : p job) :
    job ∈ s.db.jobs.select p orderBy batchSize :=
  Table.mem_select_of_le (Table.get?_eq_some.mp hrow).1 hp
    ((List.length_filter_le ..).trans hroom)

/-- Once a job has ended it stays so; what a step does to the others decides what remains. -/
lemma Remains.of_step {statuses statuses' : List JobStatus}
    {l : Label settings.workerConcurrency}
    (hremains : Remains settings now statuses (s.db.record j)) (h : JobStep s j l (s'.life j))
    (hactive : ∀ job, (s.db.record j).row = some job → job.status ∈ statuses →
      Overdue settings now job → Remains settings now statuses' (s'.db.record j)) :
    Remains settings now statuses' (s'.db.record j) := by
  obtain ⟨job, hrow, hterminal | ⟨hstatus, hoverdue⟩⟩ := hremains
  · exact ⟨job, row_of_terminal h hrow hterminal, Or.inl hterminal⟩
  · exact hactive job hrow hstatus hoverdue

lemma remains_of_dispatch
    (h : JobStep s j (.sweep .dispatchPending tx [] batchSize now) (s'.life j))
    (hremains : Remains settings now [.pending, .queued, .retrying, .running] (s.db.record j)) :
    Remains settings now [.pending, .queued, .retrying, .running] (s'.db.record j) := by
  refine hremains.of_step h fun job hrow hstatus hoverdue => ?_
  rcases row_of_jobStep_of_row h hrow with hsame | ⟨u, hu, -, hvalues⟩
  · exact ⟨job, hsame, Or.inr ⟨hstatus, hoverdue⟩⟩
  · cases hu with
    | markQueued =>
        exact ⟨_, hvalues, Or.inr ⟨by simp [JobRepository.markQueued],
          hoverdue.aged, hoverdue.due, hoverdue.lapsed⟩⟩

lemma remains_of_redeliver {stamp : UUID → Time}
    (h : JobStep s j (.sweep (.redeliverStuck stamp) tx [] batchSize now) (s'.life j))
    (hremains : Remains settings now [.pending, .queued] (s.db.record j)) :
    Remains settings now [.pending, .queued] (s'.db.record j) := by
  refine hremains.of_step h fun job hrow hstatus hoverdue => ?_
  rcases row_of_jobStep_of_row h hrow with hsame | ⟨u, hu, -, hvalues⟩
  · exact ⟨job, hsame, Or.inr ⟨hstatus, hoverdue⟩⟩
  · cases hu with
    | markRedispatched t =>
        exact ⟨_, hvalues, Or.inr ⟨hstatus, hoverdue.aged, hoverdue.due, hoverdue.lapsed⟩⟩

/-- A promotion queues every `RETRYING` job. -/
lemma remains_of_promote (hcolumns : ∀ job, (s.db.record j).row = some job → ColumnsFollow job)
    (hroom : s.db.jobs.rows.length ≤ batchSize)
    (hstep : s.step settings (.sweep .promoteDue tx [] batchSize now) = some s')
    (h : JobStep s j (.sweep .promoteDue tx [] batchSize now) (s'.life j))
    (hremains : Remains settings now [.pending, .queued, .retrying, .running] (s.db.record j)) :
    Remains settings now [.pending, .queued, .running] (s'.db.record j) := by
  refine hremains.of_step h fun job hrow hstatus hoverdue => ?_
  by_cases hretrying : job.status = .retrying
  · obtain ⟨t, ht⟩ := Option.isSome_iff_exists.mp ((hcolumns job hrow).scheduled.mpr hretrying)
    have hselected : job ∈ JobRepository.findDueRetries s.db [] now batchSize :=
      mem_select_of_row hroom hrow (by simp [hretrying, ht, hoverdue.due t ht])
    obtain ⟨-, -, pushes, hrun⟩ := step_sweep hstep
    obtain ⟨swept, hswept, heq⟩ := Option.map_eq_some_iff.mp hrun
    obtain ⟨hdb, -⟩ := Prod.mk.inj heq
    have hrecord := (RetryService.record_promoteDue hswept).2 job hselected
    rw [hdb, Database.id_of_row s.db j hrow, RetryService.promoteRecord_of_row hrow hretrying]
      at hrecord
    rw [hrecord]
    exact ⟨_, rfl, Or.inr ⟨by simp [JobRepository.moveRetryToQueued], hoverdue.aged,
      (fun _ h => by cases h), hoverdue.lapsed⟩⟩
  · rcases row_of_jobStep_of_row h hrow with hsame | ⟨u, hu, hguard, -⟩
    · refine ⟨job, hsame, Or.inr ⟨?_, hoverdue⟩⟩
      simpa [hretrying] using hstatus
    · cases hu with
      | moveRetryToQueued =>
          exact absurd (JobRepository.moveRetryToQueued_guard.mp hguard) hretrying

/-- A reap queues or ends every `RUNNING` job. -/
lemma remains_of_reap (hcolumns : ∀ job, (s.db.record j).row = some job → ColumnsFollow job)
    (hroom : s.db.jobs.rows.length ≤ batchSize)
    (hstep : s.step settings (.sweep .reapExpired tx [] batchSize now) = some s')
    (h : JobStep s j (.sweep .reapExpired tx [] batchSize now) (s'.life j))
    (hremains : Remains settings now [.pending, .queued, .running] (s.db.record j)) :
    Remains settings now [.pending, .queued] (s'.db.record j) := by
  refine hremains.of_step h fun job hrow hstatus hoverdue => ?_
  by_cases hrunning : job.status = .running
  · obtain ⟨t, ht⟩ := Option.isSome_iff_exists.mp
      ((hcolumns job hrow).leased.mpr (Or.inl hrunning))
    have hselected : job ∈ JobRepository.findExpiredLeases s.db [] now batchSize :=
      mem_select_of_row hroom hrow (by simp [hrunning, ht, hoverdue.lapsed t ht])
    obtain ⟨-, -, pushes, hrun⟩ := step_sweep hstep
    obtain ⟨swept, hswept, heq⟩ := Option.map_eq_some_iff.mp hrun
    obtain ⟨hdb, -⟩ := Prod.mk.inj heq
    have hrecord := (LeaseService.record_reapExpired hswept).2 job hselected
    rw [hdb, Database.id_of_row s.db j hrow] at hrecord
    rw [hrecord]
    unfold LeaseService.reapRecord
    split
    · rw [LeaseService.failRecord_of_row hrow hrunning]
      have hterminal : JobStatus.failed.isTerminal := by decide
      exact ⟨_, JobRecord.enqueue_row, Or.inl hterminal⟩
    · rw [LeaseService.requeueRecord_of_row hrow hrunning]
      exact ⟨_, rfl, Or.inr ⟨by simp [JobRepository.requeueExpiredLease], hoverdue.aged,
        hoverdue.due, fun _ h => by cases h⟩⟩
  · rcases row_of_jobStep_of_row h hrow with hsame | ⟨u, hu, hguard, -⟩
    · refine ⟨job, hsame, Or.inr ⟨?_, hoverdue⟩⟩
      simpa [hrunning] using hstatus
    · cases hu with
      | failExpiredLease => exact absurd (JobRepository.failExpiredLease_guard.mp hguard) hrunning
      | requeueExpiredLease =>
          exact absurd (JobRepository.requeueExpiredLease_guard.mp hguard) hrunning

/-- An expiry sweep ends every `PENDING` and `QUEUED` job. -/
lemma remains_of_expire (hroom : s.db.jobs.rows.length ≤ batchSize)
    (hstep : s.step settings (.sweep .expireStale tx [] batchSize now) = some s')
    (h : JobStep s j (.sweep .expireStale tx [] batchSize now) (s'.life j))
    (hremains : Remains settings now [.pending, .queued] (s.db.record j)) :
    Remains settings now [] (s'.db.record j) := by
  refine hremains.of_step h fun job hrow hstatus hoverdue => ?_
  have hexpirable : job.status ∈ JobRepository.expirable := hstatus
  have hselected : job ∈ JobRepository.findExpirable s.db []
      (now - seconds settings.jobQueueMaxAgeSeconds) batchSize :=
    mem_select_of_row hroom hrow (by simp [hexpirable, hoverdue.aged])
  obtain ⟨-, -, pushes, hrun⟩ := step_sweep hstep
  obtain ⟨swept, hswept, heq⟩ := Option.map_eq_some_iff.mp hrun
  obtain ⟨hdb, -⟩ := Prod.mk.inj heq
  have hrecord := (ExpiryService.record_expireStale hswept).2 job hselected
  rw [hdb, Database.id_of_row s.db j hrow, ExpiryService.expireRecord_of_row hrow hexpirable]
    at hrecord
  rw [hrecord]
  have hterminal : JobStatus.expired.isTerminal := by decide
  exact ⟨_, JobRecord.enqueue_row, Or.inl hterminal⟩

end Sweeps

/-! ## A tick -/

/-- A state between two sweeps of a tick that reads the clock as `now`. -/
structure Between (settings : Settings) (batchSize : ℕ) (now : Time)
    (s : System settings.workerConcurrency) : Prop where
  reachable : (orchestrator settings).Reachable Always s
  clock : s.clock = now
  room : s.db.jobs.rows.length ≤ batchSize

section Tick

variable {s : System settings.workerConcurrency} {j : UUID} {batchSize : ℕ} {now : Time}

/-- A sweep that can commit goes through, and its transaction decides what remains. -/
lemma Between.exists_sweep (h : Between settings batchSize now s) (kind : Sweep) (tx : Tx)
    {P : JobRecord → Prop} (htx : tx.began ≤ now)
    (htimely : kind.timely settings s.db [] batchSize now now)
    (hrun : (kind.run settings s.db tx [] batchSize now).isSome)
    (hP : ∀ u, s.step settings (.sweep kind tx [] batchSize now) = some u →
      JobStep s j (.sweep kind tx [] batchSize now) (u.life j) → P (u.db.record j)) :
    ∃ t, Scheduler.sweep settings batchSize s kind ⟨tx, now⟩ = some t ∧
      Between settings batchSize now t ∧ P (t.db.record j) := by
  obtain ⟨⟨db, pushes⟩, hrun⟩ := Option.isSome_iff_exists.mp hrun
  have hstep : s.step settings (.sweep kind tx [] batchSize now) =
      some { s with db, unpublished := s.unpublished ++ pushes } := by
    have hallowed : s.timely tx now && kind.timely settings s.db [] batchSize now s.clock := by
      simp [System.timely, h.clock, htx, htimely]
    simp only [System.step, if_pos hallowed, hrun, Option.map_some]
  obtain ⟨t, ht, hdb, hclock, hsteps⟩ := Scheduler.sweep_of_step ⟨tx, now⟩ hstep
  refine ⟨t, ht, ⟨h.reachable.steps hsteps, hclock.trans h.clock, ?_⟩, ?_⟩
  · have hstep' : (orchestrator settings).step s (.sweep kind tx [] batchSize now) = some _ := hstep
    have hcount : t.db.jobs.rows.countP (fun _ => true) ≤ s.db.jobs.rows.countP fun _ => true := by
      rw [hdb]
      refine Table.countP_le fun job' hjob' _ => ?_
      obtain ⟨job, hjob, hrequest, -⟩ := rows_of_other h.reachable hstep' (by simp) hjob'
      exact ⟨job, hjob, (congrArg JobRequest.id hrequest).symm, rfl⟩
    rw [List.countP_true] at hcount
    exact hcount.trans h.room
  · rw [hdb]
    exact hP _ hstep (jobStep_of_step (linked_of_reachable h.reachable) j hstep)

/-- Enough time makes a job overdue. -/
lemma exists_overdue (job : Job) (clock : Time) :
    ∃ elapsed : ℕ, Overdue settings (clock + elapsed) job := by
  let bound : Time := max (job.createdAt + seconds settings.jobQueueMaxAgeSeconds)
    (max (job.nextAttemptAt.getD clock) (job.lockExpiresAt.getD clock))
  refine ⟨(bound - clock).toNat + 1, ?_⟩
  have hlate : bound < clock + ((bound - clock).toNat + 1 : ℕ) := by
    have hle : bound - clock ≤ ((bound - clock).toNat : ℤ) := Int.self_le_toNat _
    push_cast
    linarith
  have haged : job.createdAt + seconds settings.jobQueueMaxAgeSeconds ≤ bound := le_max_left ..
  have hdue : job.nextAttemptAt.getD clock ≤ bound := (le_max_left ..).trans (le_max_right ..)
  have hlapsed : job.lockExpiresAt.getD clock ≤ bound := (le_max_right ..).trans (le_max_right ..)
  constructor
  · linarith
  · intro t ht
    rw [ht, Option.getD_some] at hdue
    linarith
  · intro t ht
    rw [ht, Option.getD_some] at hlapsed
    linarith

/-- The transaction of a sweep that begins now and names its notifications by `name`. -/
def sweepTx (now : Time) (name : UUID → UUID) : Tx := ⟨now, ⟨0⟩, ⟨0⟩, ⟨0⟩, id, name⟩

/-- **A tick ends an overdue job.** -/
lemma exists_tick (h : Between settings batchSize now s)
    (hremains : Remains settings now [.pending, .queued, .retrying, .running] (s.db.record j)) :
    ∃ inputs t, Scheduler.tick settings batchSize inputs s = some t ∧
      Remains settings now [] (t.db.record j) := by
  obtain ⟨s₁, hs₁, h₁, hremains₁⟩ := h.exists_sweep .dispatchPending (sweepTx now id) le_rfl rfl
    ((Option.isSome_map ..).trans dispatchPending_isSome) fun u _ hstep =>
      remains_of_dispatch hstep hremains
  obtain ⟨s₂, hs₂, h₂, hremains₂⟩ := h₁.exists_sweep .promoteDue (sweepTx now id) le_rfl rfl
    ((Option.isSome_map ..).trans promoteDue_isSome) fun u hu hstep =>
      remains_of_promote (columnsFollow_of_reachable h₁.reachable j) h₁.room hu hstep hremains₁
  obtain ⟨name, hname, hnamed⟩ := exists_name h₂.reachable
  obtain ⟨s₃, hs₃, h₃, hremains₃⟩ := h₂.exists_sweep .reapExpired (sweepTx now name) le_rfl rfl
    ((Option.isSome_map ..).trans (reapExpired_isSome hname rfl hnamed)) fun u hu hstep =>
      remains_of_reap (columnsFollow_of_reachable h₂.reachable j) h₂.room hu hstep hremains₂
  obtain ⟨s₄, hs₄, h₄, hremains₄⟩ := h₃.exists_sweep (.redeliverStuck fun _ => now)
    (sweepTx now id) le_rfl (by simp [Sweep.timely])
    ((Option.isSome_map ..).trans redeliverStuck_isSome) fun u _ hstep =>
      remains_of_redeliver hstep hremains₃
  obtain ⟨name', hname', hnamed'⟩ := exists_name h₄.reachable
  obtain ⟨s₅, hs₅, h₅, hremains₅⟩ := h₄.exists_sweep .expireStale (sweepTx now name') le_rfl rfl
    ((Option.isSome_map ..).trans (expireStale_isSome hname' rfl hnamed')) fun u hu hstep =>
      remains_of_expire h₄.room hu hstep hremains₄
  let io : NotificationService.DeliveryInputs := ⟨fun _ => .delivered, fun _ => now, fun _ => 0⟩
  have hdelivers : (NotificationService.dispatchDue settings io s₅.db [] batchSize now).isSome :=
    NotificationService.dispatchDue_isSome.mpr fun _ _ => nofun
  obtain ⟨t, ht, -, hremains'⟩ := h₅.exists_sweep (.deliverNotifications io) (sweepTx now id) le_rfl
    (by simp [Sweep.timely, io]) ((Option.isSome_map ..).trans hdelivers) fun u _ hstep =>
      hremains₅.of_step hstep fun _ _ hstatus => by cases hstatus
  let inputs : Scheduler.TickInputs :=
    { dispatchPending := ⟨sweepTx now id, now⟩
      promoteDue := ⟨sweepTx now id, now⟩
      reapExpired := ⟨sweepTx now name, now⟩
      redeliverStuck := ⟨sweepTx now id, now⟩
      stamp := fun _ => now
      expireStale := ⟨sweepTx now name', now⟩
      dispatchDue := ⟨sweepTx now id, now⟩
      io }
  refine ⟨inputs, t, ?_, hremains'⟩
  simp only [Scheduler.tick, inputs, hs₁, hs₂, hs₃, hs₄, hs₅, Option.bind_eq_bind, Option.bind_some]
  exact ht

/-- **No stranded work.**  In every reachable state a `PENDING` job has an outbox row that waits
for its dispatch, and every `PENDING`, `QUEUED`, `RETRYING` or `RUNNING` job ends by the passage of
time and one tick of the scheduler, whatever the queue holds. -/
theorem no_stranded_work {job : Job} (h : (orchestrator settings).Reachable Always s)
    (hrow : s.db.jobs.get? j = some job)
    (hactive : job.status ∈ [JobStatus.pending, .queued, .retrying, .running])
    (hroom : s.db.jobs.rows.length ≤ batchSize) :
    (job.status = .pending →
      ∃ o ∈ s.db.dispatchOutbox.children DispatchOutbox.jobId j, o.status = .pending) ∧
    ∃ (elapsed : ℕ) (late t : System settings.workerConcurrency) (inputs : Scheduler.TickInputs)
      (job' : Job), s.step settings (.tick elapsed) = some late ∧
      Scheduler.tick settings batchSize inputs late = some t ∧
      t.db.jobs.get? j = some job' ∧ job'.status.isTerminal := by
  refine ⟨dispatchable_of_reachable h j job hrow, ?_⟩
  obtain ⟨elapsed, hoverdue⟩ := @exists_overdue settings job s.clock
  let late : System settings.workerConcurrency := { s with clock := s.clock + elapsed }
  have hpassed : (orchestrator settings).step s (.tick elapsed) = some late := rfl
  have hbetween : Between settings batchSize (s.clock + elapsed) late :=
    ⟨h.steps (Steps.single trivial hpassed), rfl, hroom⟩
  obtain ⟨inputs, t, ht, job', hrow', hended⟩ :=
    exists_tick (j := j) hbetween ⟨job, hrow, Or.inr ⟨hactive, hoverdue⟩⟩
  refine ⟨elapsed, late, t, inputs, job', hpassed, ht, hrow', ?_⟩
  exact hended.resolve_right fun hnone => by cases hnone.1

/-- The worker of a running job dies and Redis loses everything. -/
theorem no_stranded_work_crashed :
    ∃ (s : System 4) (job : Job), s.db.jobs.get? Scenario.jobId = some job ∧
      job.status = .running ∧ s.queue.normal = [] ∧
      ∃ (elapsed : ℕ) (late t : System 4) (inputs : Scheduler.TickInputs) (job' : Job),
        s.step {} (.tick elapsed) = some late ∧ Scheduler.tick {} 1 inputs late = some t ∧
        t.db.jobs.get? Scenario.jobId = some job' ∧ job'.status.isTerminal := by
  obtain ⟨s, hsteps, hs⟩ := exists_of_run (T := orchestrator {}) (System.start 4 0)
    (Scenario.submitted 3 ++ Scenario.dispatched ++ Scenario.claim Scenario.first 3 0 ++
      [.crash "worker", .redis .empty])
    (fun s => s.status Scenario.jobId = some .running && s.queue.normal = [] &&
      s.db.jobs.rows.length ≤ 1) (by decide +kernel)
  simp only [Bool.and_eq_true, decide_eq_true_eq] at hs
  obtain ⟨⟨hstatus, hlost⟩, hroom⟩ := hs
  obtain ⟨job, hrow, hrunning⟩ := Option.map_eq_some_iff.mp hstatus
  have hactive : job.status ∈ [JobStatus.pending, .queued, .retrying, .running] := by
    simp [hrunning]
  exact ⟨s, job, hrow, hrunning, hlost,
    (@no_stranded_work {} s _ 1 job ⟨_, ⟨0, rfl⟩, hsteps⟩ hrow hactive hroom).2⟩

end Tick

end JobOrchestrator
