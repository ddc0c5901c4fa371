import JobOrchestrator.Properties.Outbox
import JobOrchestrator.Properties.QueueOrder
import Mathlib.Data.Set.Card

/-!
# Messages underway

A message of a job is underway from the commit of the sweep that collects it to the claim of the
task that has taken it from a list.  Counted over all the places it can be in, the number of
messages of a job changes in three ways only: the sweeps that put the job on a list add one, a claim
uses one up, and what goes wrong between Redis and the processes loses or repeats some.

So as long as nothing is lost, a `QUEUED` job has a message (`queued_underway`), and as long as
nothing is repeated either, it has exactly one, and a job that is not `QUEUED` has none that can
start it (`delivered_exactly_once`).  `redeliver_stuck` is there for the other runs, and the
behaviour that needs a duplicate does not occur in these.
-/

namespace JobOrchestrator

open ExecutionService TransitionSystem

variable {settings : Settings}

/-! ## Counting -/

/-- The job on whose list the message goes. -/
def Push.target : Push → Option UUID
  | publish jobId _ => some jobId
  | deadLetter _ => none

/-- The job whose message a consumer task has taken from a list and not claimed yet. -/
def Consumer.awaits : Consumer → Option UUID
  | .delivered jobId => some jobId
  | .idle | .executing _ | .ended => none

namespace JobQueue

variable {q q' : JobQueue} {jobId j : UUID} {p : JobPriority}

/-- How often a job is on the lists. -/
def listed (q : JobQueue) (j : UUID) : ℕ := (priorityOrder.map fun p => (q.list p).count j).sum

lemma listed_eq (q : JobQueue) (j : UUID) :
    q.listed j = q.high.count j + (q.normal.count j + q.low.count j) := by
  simp [listed, priorityOrder, list]

lemma listed_publish : (q.publish jobId p).listed j = q.listed j + if jobId = j then 1 else 0 := by
  cases p <;> simp only [listed_eq, publish, List.count_cons, beq_iff_eq] <;> omega

lemma listed_deadLetter : (q.deadLetter jobId).listed j = q.listed j := by
  simp only [listed_eq, deadLetter]

lemma listed_consume (h : q.consume = some (jobId, q')) :
    q.listed j = q'.listed j + if jobId = j then 1 else 0 := by
  obtain ⟨p, hlist, hothers, -⟩ := consume_spec h
  have hcount : ∀ r, (q.list r).count j =
      (q'.list r).count j + if r = p ∧ jobId = j then 1 else 0 := by
    intro r
    by_cases hr : r = p
    · subst hr
      simp [hlist, List.count_append, List.count_singleton]
    · simp [hothers r hr, hr]
  simp only [listed, priorityOrder, List.map_cons, List.map_nil, List.sum_cons, List.sum_nil,
    hcount]
  cases p <;> simp <;> omega

/-- The lists of a queue that lost nothing still hold a job that they held. -/
lemma listed_ne_zero (hkept : ∀ p, q.list p ⊆ q'.list p) (h : q.listed j ≠ 0) :
    q'.listed j ≠ 0 := by
  have hpos : ∀ r, (q.list r).count j ≠ 0 → (q'.list r).count j ≠ 0 := by
    intro r hr
    have hmem := List.count_pos_iff.mp (Nat.pos_of_ne_zero hr)
    exact (List.count_pos_iff.mpr (hkept r hmem)).ne'
  have hhigh := hpos .high
  have hnormal := hpos .normal
  have hlow := hpos .low
  simp only [list] at hhigh hnormal hlow
  rw [listed_eq] at h ⊢
  omega

lemma listed_le (hless : ∀ p, (q'.list p).count j ≤ (q.list p).count j) :
    q'.listed j ≤ q.listed j := by
  have hhigh := hless .high
  have hnormal := hless .normal
  have hlow := hless .low
  simp only [list] at hhigh hnormal hlow
  rw [listed_eq, listed_eq]
  omega

end JobQueue

namespace System

variable {concurrency : ℕ} (s : System concurrency) (j : UUID)

/-- The messages of a job that wait to be published or are listed. -/
def waiting : ℕ := (s.unpublished.filterMap Push.target).count j + s.queue.listed j

/-- The tasks that hold a message of the job. -/
def holders : Set (Coroutine concurrency) := {c | s.workers c = .delivered j}

/-- The messages of a job, wherever they are. -/
noncomputable def underway : ℕ∞ := s.waiting j + (s.holders j).encard

/-- The step loses no message that is meant for a list. -/
def lossless : Label concurrency → Bool
  | .publishFails push => push.target.isNone
  | .redis queue => priorityOrder.all fun p => (s.queue.list p).all fun k => k ∈ queue.list p
  | .worker c .fails | .worker c .stop => (s.workers c).awaits.isNone
  | .crash workerId =>
      (List.finRange concurrency).all fun slot => (s.workers ⟨workerId, slot⟩).awaits.isNone
  | _ => true

/-- The step repeats no message that is meant for a list. -/
def unrepeated (settings : Settings) : Label concurrency → Bool
  | .sweep (.redeliverStuck _) _ locked batchSize now =>
      (JobRepository.findStuckQueued s.db locked (now - seconds settings.queueStuckSeconds)
        batchSize).isEmpty
  | .redis queue => priorityOrder.all fun p =>
      (queue.list p).all fun k => (queue.list p).count k ≤ (s.queue.list p).count k
  | _ => true

variable {s j} {c : Coroutine concurrency} {consumer : Consumer}

lemma holders_become (hconsumer : consumer ≠ .delivered j) :
    (s.become c consumer).holders j = s.holders j \ {c} := by
  ext d
  by_cases hd : d = c
  · subst hd
    simp [holders, become, hconsumer]
  · simp [holders, become, hd]

/-- A task that held no message of the job and takes none. -/
lemma holders_become_of_ne (hbefore : s.workers c ≠ .delivered j)
    (hconsumer : consumer ≠ .delivered j) : (s.become c consumer).holders j = s.holders j := by
  rw [holders_become hconsumer]
  exact Set.sdiff_singleton_eq_self hbefore

lemma holders_become_delivered :
    (s.become c (.delivered j)).holders j = insert c (s.holders j) := by
  ext d
  by_cases hd : d = c
  · subst hd
    simp [holders, become]
  · simp [holders, become, hd]

/-- A task that held a message of the job has it no more. -/
lemma encard_holders_of_left (hbefore : s.workers c = .delivered j)
    (hconsumer : consumer ≠ .delivered j) :
    (s.holders j).encard = ((s.become c consumer).holders j).encard + 1 := by
  have hmem : c ∈ s.holders j := hbefore
  rw [holders_become hconsumer]
  exact (Set.encard_sdiff_singleton_add_one hmem).symm

/-- A task that held none has taken one. -/
lemma encard_holders_of_taken (hbefore : s.workers c ≠ .delivered j) :
    ((s.become c (.delivered j)).holders j).encard = (s.holders j).encard + 1 := by
  have hmem : c ∉ s.holders j := hbefore
  rw [holders_become_delivered]
  exact Set.encard_insert_of_notMem hmem

end System

/-! ## Where messages come from and go to -/

section Flow

variable {s s' : System settings.workerConcurrency} {l : Label settings.workerConcurrency}
  {j : UUID} {c : Coroutine settings.workerConcurrency} {action : WorkerAction}

/-- What a step does to the messages of a job. -/
inductive Flow (s : System settings.workerConcurrency) (j : UUID)
    (l : Label settings.workerConcurrency) (s' : System settings.workerConcurrency) : Prop
  | sent {kind tx locked batchSize now pushes}
      (hl : l = .sweep kind tx locked batchSize now)
      (hrun : kind.run settings s.db tx locked batchSize now = some (s'.db, pushes))
      (h : s'.underway j = s.underway j + ((pushes.filterMap Push.target).count j : ℕ))
  | claimed {c tx now} (hl : l = .worker c (.claim tx now)) (hholds : s.workers c = .delivered j)
      (h : s.underway j = s'.underway j + 1)
  /-- The step collects no message, and claims no job with one. -/
  | other (hsweep : ∀ kind tx locked batchSize now, l ≠ .sweep kind tx locked batchSize now)
      (hclaim : ∀ c tx now, l = .worker c (.claim tx now) → s.workers c ≠ .delivered j)
      (hkept : s.lossless l → s.underway j ≠ 0 → s'.underway j ≠ 0)
      (hless : s.unrepeated settings l → s'.underway j ≤ s.underway j)

/-- A step that keeps the number of messages. -/
lemma Flow.of_eq (hsweep : ∀ kind tx locked batchSize now, l ≠ .sweep kind tx locked batchSize now)
    (hclaim : ∀ c tx now, l = .worker c (.claim tx now) → s.workers c ≠ .delivered j)
    (h : s'.underway j = s.underway j) : Flow s j l s' :=
  .other hsweep hclaim (fun _ hne => h.trans_ne hne) fun _ => h.le

/-- The messages of a job in a state with the same tasks. -/
lemma underway_of_holders (hholders : s'.holders j = s.holders j)
    (hwaiting : s'.waiting j = s.waiting j) : s'.underway j = s.underway j := by
  rw [System.underway, System.underway, hholders, hwaiting]

lemma count_erase {push : Push} (hmem : push ∈ s.unpublished) :
    (s.unpublished.filterMap Push.target).count j =
      ((s.unpublished.erase push).filterMap Push.target).count j +
        if push.target = some j then 1 else 0 := by
  rw [((List.perm_cons_erase hmem).filterMap Push.target).count_eq]
  cases push with
  | publish jobId p => simp [Push.target, List.count_cons]
  | deadLetter jobId =>
      rw [List.filterMap_cons_none rfl]
      simp [Push.target]

/-- A message that is published goes on its list. -/
lemma waiting_published {push : Push} (hmem : push ∈ s.unpublished) :
    ({ s with queue := s.queue.push push, unpublished := s.unpublished.erase push } :
      System settings.workerConcurrency).waiting j = s.waiting j := by
  simp only [System.waiting, count_erase hmem]
  cases push with
  | publish jobId p =>
      simp only [JobQueue.push, JobQueue.listed_publish, Push.target, Option.some.injEq]
      omega
  | deadLetter jobId => simp [JobQueue.push, JobQueue.listed_deadLetter, Push.target]

lemma flow_publishFailed {push : Push} (hmem : push ∈ s.unpublished) :
    Flow s j (.publishFails push) { s with unpublished := s.unpublished.erase push } := by
  have hcount := @count_erase settings s j push hmem
  refine .other (fun _ _ _ _ _ h => by cases h) (fun _ _ _ h => by cases h)
    (fun hlossless hne => ?_) fun _ => ?_
  · have htarget : push.target = none := Option.isNone_iff_eq_none.mp hlossless
    rw [if_neg (by simp [htarget]), Nat.add_zero] at hcount
    rw [System.underway, System.waiting, hcount] at hne
    exact hne
  · refine add_le_add_left (Nat.cast_le.mpr ?_) _
    simp only [System.waiting, hcount]
    omega

lemma flow_redis {queue : JobQueue} : Flow s j (.redis queue) { s with queue } := by
  refine .other (fun _ _ _ _ _ h => by cases h) (fun _ _ _ h => by cases h)
    (fun hlossless hne => ?_) fun hunrepeated => ?_
  · simp only [System.lossless, List.all_eq_true, decide_eq_true_eq] at hlossless
    have hkept : ∀ p, s.queue.list p ⊆ queue.list p := fun p k hk =>
      hlossless p (by cases p <;> decide) k hk
    intro hzero
    apply hne
    simp only [System.underway, System.waiting, add_eq_zero, Nat.cast_eq_zero] at hzero ⊢
    obtain ⟨⟨hunpublished, hlisted⟩, hholders⟩ := hzero
    refine ⟨⟨hunpublished, ?_⟩, hholders⟩
    by_contra hsome
    exact JobQueue.listed_ne_zero hkept hsome hlisted
  · simp only [System.unrepeated, List.all_eq_true, decide_eq_true_eq] at hunrepeated
    have hless : ∀ p, (queue.list p).count j ≤ (s.queue.list p).count j := by
      intro p
      by_cases hj : j ∈ queue.list p
      · exact hunrepeated p (by cases p <;> decide) j hj
      · rw [List.count_eq_zero_of_not_mem hj]
        exact Nat.zero_le _
    refine add_le_add_left (Nat.cast_le.mpr ?_) _
    exact Nat.add_le_add_left (JobQueue.listed_le hless) _

/-- A task that gives up may lose the message it holds. -/
lemma flow_left {consumer : Consumer}
    (hlossless : s.lossless (.worker c action) → (s.workers c).awaits = none)
    (hclaim : ∀ tx now, action ≠ .claim tx now) (hconsumer : consumer ≠ .delivered j) :
    Flow s j (.worker c action) (s.become c consumer) := by
  refine .other (fun _ _ _ _ _ h => by cases h) (fun d tx now h => ?_) (fun hkeeps hne => ?_)
    fun _ => ?_
  · cases h
    exact absurd rfl (hclaim tx now)
  · have hbefore : s.workers c ≠ .delivered j := by
      intro hdelivered
      have hnone := hlossless hkeeps
      rw [hdelivered] at hnone
      cases hnone
    have hsame := underway_of_holders (System.holders_become_of_ne hbefore hconsumer)
      (rfl : (s.become c consumer).waiting j = s.waiting j)
    exact hsame.trans_ne hne
  · refine add_le_add_right (Set.encard_le_encard ?_) _
    rw [System.holders_become hconsumer]
    exact Set.sdiff_subset

lemma flow_worker (h : WorkerStep s c action s') : Flow s j (.worker c action) s' := by
  have hsweep : ∀ {action : WorkerAction}, ∀ kind tx locked batchSize now,
      Label.worker c action ≠ .sweep kind tx locked batchSize now :=
    fun _ _ _ _ _ h => by cases h
  have hkept : ∀ {consumer : Consumer} {queue : JobQueue}, s.workers c ≠ .delivered j →
      consumer ≠ .delivered j → queue.listed j = s.queue.listed j → ∀ db,
      (({ s with db, queue } : System settings.workerConcurrency).become c consumer).underway j =
        s.underway j := by
    intro consumer queue hbefore hconsumer hlisted db
    refine underway_of_holders ?_ (congrArg (_ + ·) hlisted)
    exact System.holders_become_of_ne hbefore hconsumer
  -- an execution holds no message, and its steps take none
  have hexecuting : ∀ {e : Execution}, s.workers c = .executing e → s.workers c ≠ .delivered j := by
    intro e he hdelivered
    cases he.symm.trans hdelivered
  have hclaim : ∀ {action : WorkerAction}, s.workers c ≠ .delivered j → ∀ d tx now,
      Label.worker c action = .worker d (.claim tx now) → s.workers d ≠ .delivered j := by
    rintro action hbefore d tx now h
    cases h
    exact hbefore
  cases h with
  | consumed jobId queue hidle hconsume =>
      have hbefore : s.workers c ≠ .delivered j := by
        intro hdelivered
        cases hidle.symm.trans hdelivered
      refine .of_eq hsweep (hclaim hbefore) ?_
      have hlisted := @JobQueue.listed_consume s.queue queue jobId j hconsume
      by_cases hj : jobId = j
      · subst hj
        rw [if_pos rfl] at hlisted
        have htaken := @System.encard_holders_of_taken _ { s with queue } jobId c hbefore
        rw [System.underway, htaken, System.underway, System.waiting, System.waiting, hlisted]
        show (((s.unpublished.filterMap Push.target).count jobId + queue.listed jobId : ℕ) : ℕ∞) +
          ((s.holders jobId).encard + 1) = _
        push_cast
        ring
      · rw [if_neg hj, Nat.add_zero] at hlisted
        exact hkept hbefore (fun h => hj (Consumer.delivered.inj h)) hlisted.symm s.db
  | claimed tx now jobId db result hdelivered htimely hclaimed =>
      have hleft : ∀ k, result.elim Consumer.idle
          (fun claim => .executing (.start jobId claim)) ≠ .delivered k := by
        intro k h
        cases result <;> cases h
      by_cases hj : jobId = j
      · subst hj
        refine .claimed rfl hdelivered ?_
        have hencard := @System.encard_holders_of_left _ { s with db } jobId c _ hdelivered
          (hleft jobId)
        show (s.waiting jobId : ℕ∞) + (s.holders jobId).encard = _
        rw [show (s.holders jobId).encard = _ from hencard, ← add_assoc]
        rfl
      · have hbefore : s.workers c ≠ .delivered j := by
          rw [hdelivered]
          exact fun h => hj (Consumer.delivered.inj h)
        exact .of_eq hsweep (hclaim hbefore) (hkept hbefore (hleft j) rfl db)
  | claimFailed jobId hdelivered =>
      exact flow_left Option.isNone_iff_eq_none.mp (fun _ _ h => by cases h) fun h => by cases h
  | stopped hactive =>
      exact flow_left Option.isNone_iff_eq_none.mp (fun _ _ h => by cases h) fun h => by cases h
  | heartbeat e now he | passed e he | progressed e progress now he =>
      exact .of_eq hsweep (hclaim (hexecuting he)) (underway_of_holders rfl rfl)
  | heartbeatFailed e he | resumed e action stage he | returned e raised he =>
      refine .of_eq hsweep (hclaim (hexecuting he)) ?_
      exact hkept (hexecuting he) (fun h => by cases h) rfl s.db
  | finalized e outcome tx now db hit he =>
      refine .of_eq hsweep (hclaim (hexecuting he)) ?_
      exact hkept (hexecuting he) (fun h => by cases h) rfl db
  | deadLettered e he =>
      refine .of_eq hsweep (hclaim (hexecuting he)) ?_
      exact hkept (hexecuting he) (fun h => by cases h) JobQueue.listed_deadLetter s.db

lemma flow_crashed {workerId : String}
    (hworkers : ∀ c, s'.workers c = if c.workerId = workerId then .ended else s.workers c)
    (hwaiting : s'.waiting j = s.waiting j) : Flow s j (.crash workerId) s' := by
  have hsub : s'.holders j ⊆ s.holders j := by
    intro c hc
    have hc : s'.workers c = .delivered j := hc
    show s.workers c = .delivered j
    rw [hworkers c] at hc
    split at hc
    · cases hc
    · exact hc
  refine .other (fun _ _ _ _ _ h => by cases h) (fun _ _ _ h => by cases h)
    (fun hlossless hne => ?_) fun _ => ?_
  · simp only [System.lossless, List.all_eq_true, Option.isNone_iff_eq_none] at hlossless
    refine (underway_of_holders (hsub.antisymm fun c hc => ?_) hwaiting).trans_ne hne
    have hc : s.workers c = .delivered j := hc
    show s'.workers c = .delivered j
    rw [hworkers c, if_neg]
    · exact hc
    · rintro rfl
      have hnone := hlossless c.slot (List.mem_finRange _)
      rw [hc] at hnone
      cases hnone
  · rw [System.underway, System.underway, hwaiting]
    exact add_le_add_right (Set.encard_le_encard hsub) _

/-- Every step is one of the three. -/
theorem flow_of_step (h : s.step settings l = some s') (j : UUID) : Flow s j l s' := by
  cases systemStep_of_step h with
  | ticked | submitted | submission | cancel =>
      exact .of_eq (fun _ _ _ _ _ h => by cases h) (fun _ _ _ h => by cases h)
        (underway_of_holders rfl rfl)
  | sweep kind tx locked batchSize now db pushes htimely hkind hrun =>
      refine .sent rfl hrun ?_
      rw [System.underway, System.underway, System.waiting, System.waiting]
      simp only [List.filterMap_append, List.count_append]
      push_cast
      show _ + (s.holders j).encard = _
      ring
  | published push hpush =>
      exact .of_eq (fun _ _ _ _ _ h => by cases h) (fun _ _ _ h => by cases h)
        (underway_of_holders rfl (waiting_published hpush))
  | publishFailed push hpush => exact flow_publishFailed hpush
  | redis queue hfaulty => exact flow_redis
  | worker c action hworker => exact flow_worker hworker
  | crashed workerId => exact flow_crashed (fun c => rfl) rfl

end Flow

/-! ## What the sweeps send -/

/-- The jobs that a sweep puts on a list. -/
def Sweep.feeds (settings : Settings) (db : Database) (locked : List UUID) (batchSize : ℕ)
    (now : Time) : Sweep → List UUID
  | dispatchPending =>
      (DispatchOutboxRepository.claimPending db locked batchSize).map DispatchOutbox.jobId
  | promoteDue => (JobRepository.findDueRetries db locked now batchSize).map Job.id
  | reapExpired =>
      ((JobRepository.findExpiredLeases db locked now batchSize).filter
        fun job => job.attempts < job.maxAttempts).map Job.id
  | redeliverStuck _ =>
      (JobRepository.findStuckQueued db locked (now - seconds settings.queueStuckSeconds)
        batchSize).map Job.id
  | expireStale | deliverNotifications _ => []

section Feeds

variable {s s' : System settings.workerConcurrency} {kind : Sweep} {tx : Tx} {locked : List UUID}
  {batchSize : ℕ} {now : Time} {pushes : List Push} {j : UUID}
  {C : System settings.workerConcurrency → Label settings.workerConcurrency → Prop}

/-- A loop that sends one message for each job it is given. -/
lemma target_publishes {α : Type} (rows : List α) (jobId : α → UUID) (priority : α → JobPriority) :
    (rows.map fun row => Push.publish (jobId row) (priority row)).filterMap Push.target =
      rows.map jobId := by
  rw [List.filterMap_map, ← List.filterMap_eq_map]
  rfl

lemma target_deadLetters {α : Type} (rows : List α) (jobId : α → UUID) :
    (rows.map fun row => Push.deadLetter (jobId row)).filterMap Push.target = [] := by
  rw [List.filterMap_map]
  exact List.filterMap_eq_nil_iff.mpr fun _ _ => rfl

lemma target_pushes (hreach : (orchestrator settings).Reachable C s)
    (hrun : kind.run settings s.db tx locked batchSize now = some (s'.db, pushes)) :
    pushes.filterMap Push.target = kind.feeds settings s.db locked batchSize now := by
  cases kind with
  | dispatchPending =>
      obtain ⟨swept, hswept, heq⟩ := Option.map_eq_some_iff.mp hrun
      obtain ⟨-, rfl⟩ := Prod.mk.inj heq
      rw [DispatchService.pushes_dispatchPending hswept
        fun i => (linked_of_reachable hreach i).outbox_le, List.filterMap_filterMap,
        Sweep.feeds, ← List.filterMap_eq_map]
      refine List.filterMap_congr fun row hrow => ?_
      -- an outbox row belongs to a job
      have hmem : row ∈ (s.db.record row.jobId).outbox :=
        Table.mem_children.mpr ⟨(Table.mem_of_mem_select hrow).1, rfl⟩
      cases hjob : (s.db.record row.jobId).row with
      | none =>
          have hempty : s.db.record row.jobId = JobRecord.empty :=
            (linked_of_reachable hreach row.jobId).fresh hjob
          rw [hempty] at hmem
          cases hmem
      | some job => rfl
  | promoteDue =>
      obtain ⟨swept, hswept, heq⟩ := Option.map_eq_some_iff.mp hrun
      obtain ⟨-, rfl⟩ := Prod.mk.inj heq
      rw [RetryService.pushes_promoteDue hswept]
      exact target_publishes _ Job.id Job.priority
  | reapExpired =>
      obtain ⟨swept, hswept, heq⟩ := Option.map_eq_some_iff.mp hrun
      obtain ⟨-, rfl⟩ := Prod.mk.inj heq
      rw [Swept.pushes, List.filterMap_append, target_deadLetters, List.nil_append,
        LeaseService.published_reapExpired hswept, List.map_map]
      exact target_publishes _ Job.id Job.priority
  | redeliverStuck stamp =>
      obtain ⟨swept, hswept, heq⟩ := Option.map_eq_some_iff.mp hrun
      obtain ⟨-, rfl⟩ := Prod.mk.inj heq
      rw [DispatchService.pushes_redeliverStuck hswept]
      exact target_publishes _ Job.id Job.priority
  | expireStale =>
      obtain ⟨swept, hswept, heq⟩ := Option.map_eq_some_iff.mp hrun
      obtain ⟨-, rfl⟩ := Prod.mk.inj heq
      rw [ExpiryService.pushes_expireStale hswept]
      rfl
  | deliverNotifications io =>
      obtain ⟨db, -, heq⟩ := Option.map_eq_some_iff.mp hrun
      obtain ⟨-, rfl⟩ := Prod.mk.inj heq
      rfl

/-- No sweep puts a job on a list twice. -/
lemma nodup_feeds (hreach : (orchestrator settings).Reachable C s) :
    (kind.feeds settings s.db locked batchSize now).Nodup := by
  cases kind with
  | dispatchPending =>
      exact DispatchService.nodup_jobId_claimPending fun i =>
        (linked_of_reachable hreach i).outbox_le
  | promoteDue | redeliverStuck stamp => exact Table.nodup_select
  | reapExpired => exact (List.filter_sublist.map Job.id).nodup Table.nodup_select
  | expireStale | deliverNotifications io => exact List.nodup_nil

/-- The sweeps other than the redelivery put jobs on a list that are on none. -/
lemma waits_of_mem_feeds (hmem : j ∈ kind.feeds settings s.db locked batchSize now) :
    (∃ stamp, kind = .redeliverStuck stamp) ∨ (∃ o ∈ (s.db.record j).outbox, o.waiting) ∨
      ∃ job, (s.db.record j).row = some job ∧ (job.status = .retrying ∨ job.status = .running) := by
  cases kind with
  | dispatchPending =>
      obtain ⟨row, hrow, rfl⟩ := List.mem_map.mp hmem
      obtain ⟨ho, hwaits⟩ := Table.mem_of_mem_select hrow
      simp only [Bool.and_eq_true, decide_eq_true_eq] at hwaits
      exact Or.inr (Or.inl ⟨row, Table.mem_children.mpr ⟨ho, rfl⟩, decide_eq_true hwaits.2⟩)
  | promoteDue =>
      obtain ⟨job, hjob, rfl⟩ := List.mem_map.mp hmem
      have hdue := (Table.mem_of_mem_select hjob).2
      simp only [Bool.and_eq_true, decide_eq_true_eq] at hdue
      exact Or.inr (Or.inr ⟨job, Table.get?_of_mem_select hjob, Or.inl hdue.1.2⟩)
  | reapExpired =>
      obtain ⟨job, hjob, rfl⟩ := List.mem_map.mp hmem
      have hselected := (List.mem_filter.mp hjob).1
      have hlapsed := (Table.mem_of_mem_select hselected).2
      simp only [Bool.and_eq_true, decide_eq_true_eq] at hlapsed
      exact Or.inr (Or.inr ⟨job, Table.get?_of_mem_select hselected, Or.inr hlapsed.1.2⟩)
  | redeliverStuck stamp => exact Or.inl ⟨stamp, rfl⟩
  | expireStale | deliverNotifications io => cases hmem

/-- A job is `QUEUED` anew only by a sweep that puts it on a list. -/
lemma mem_feeds_of_queued {l : Label settings.workerConcurrency}
    (hreach : (orchestrator settings).Reachable C s)
    (hstep : (orchestrator settings).step s l = some s') (hbefore : s.status j ≠ some .queued)
    (hqueued : s'.status j = some .queued) :
    ∃ kind tx locked batchSize now, l = .sweep kind tx locked batchSize now ∧
      j ∈ kind.feeds settings s.db locked batchSize now := by
  have hchanged : (s'.db.record j).row ≠ (s.db.record j).row := by
    intro hsame
    apply hbefore
    rw [← hqueued]
    exact (congrArg (Option.map Job.status) hsame).symm
  rcases row_of_jobStep (jobStep_of_reachable hreach hstep j) with
    hsame | ⟨args, now, hlimit, -, hrow'⟩ | ⟨u, job, hu, hrow, hguard, hrow'⟩
  · exact absurd hsame hchanged
  · have hnew : s'.status j = some .pending := congrArg (Option.map Job.status) hrow'
    cases hnew.symm.trans hqueued
  · have hstatus : (u.values job).status = .queued :=
      Option.some.inj ((congrArg (Option.map Job.status) hrow').symm.trans hqueued)
    have hwas : job.status ≠ .queued := by
      intro hwas
      exact hbefore ((congrArg (Option.map Job.status) hrow).trans (congrArg some hwas))
    cases hu with
    | @markQueued tx locked batchSize now =>
        refine ⟨_, _, _, _, _, rfl, ?_⟩
        obtain ⟨-, -, pushes, hrun⟩ := step_sweep hstep
        obtain ⟨swept, hswept, heq⟩ := Option.map_eq_some_iff.mp hrun
        obtain ⟨hdb, -⟩ := Prod.mk.inj heq
        by_contra hout
        apply hchanged
        rw [← hdb, (DispatchService.record_dispatchPending hswept
          fun i => (linked_of_reachable hreach i).outbox_le).1 j hout]
    | moveRetryToQueued =>
        refine ⟨_, _, _, _, _, rfl, ?_⟩
        obtain ⟨-, -, pushes, hrun⟩ := step_sweep hstep
        obtain ⟨swept, hswept, heq⟩ := Option.map_eq_some_iff.mp hrun
        obtain ⟨hdb, -⟩ := Prod.mk.inj heq
        by_contra hout
        apply hchanged
        rw [← hdb, (RetryService.record_promoteDue hswept).1 j hout]
    | @requeueExpiredLease tx locked batchSize now hleft =>
        refine ⟨_, _, _, _, _, rfl, ?_⟩
        have hselected : j ∈ (JobRepository.findExpiredLeases s.db locked now batchSize).map
            Job.id := by
          by_contra hout
          exact hchanged (congrArg JobRecord.row (record_of_not_reaped hstep hout))
        obtain ⟨job', hjob', rfl⟩ := List.mem_map.mp hselected
        have hleft' := hleft job' (Table.get?_of_mem_select hjob')
        exact List.mem_map_of_mem (List.mem_filter.mpr ⟨hjob', decide_eq_true hleft'⟩)
    | finalize e outcome => cases outcome <;> cases hstatus
    | heartbeat | updateProgress => exact absurd hstatus hwas
    | markRedispatched t => exact absurd (JobRepository.markRedispatched_guard.mp hguard) hwas
    | requestRunningCancellation | cancelInactive | claimForExecution | failExpiredLease
    | expire => cases hstatus

end Feeds

/-! ## Nothing is lost, nothing is repeated -/

section Invariants

variable {s s' : System settings.workerConcurrency} {l : Label settings.workerConcurrency}
  {j : UUID} {C : System settings.workerConcurrency → Label settings.workerConcurrency → Prop}

/-- A claim of a `QUEUED` job starts it. -/
lemma running_of_claim {c : Coroutine settings.workerConcurrency} {tx : Tx} {now : Time}
    (hreach : (orchestrator settings).Reachable C s)
    (hstep : (orchestrator settings).step s (.worker c (.claim tx now)) = some s')
    (hholds : s.workers c = .delivered j) (hqueued : s.status j = some .queued) :
    s'.status j = some .running := by
  obtain ⟨job, hrow, hstatus⟩ := Option.map_eq_some_iff.mp hqueued
  have hunasked : job.cancellationRequestedAt = none := by
    by_contra hasked
    have hsettling := (flagSound_of_reachable hreach j).settling job hrow
      (Option.isSome_iff_ne_none.mpr hasked)
    rw [hstatus] at hsettling
    exact absurd hsettling (by decide)
  have hguard : (JobRepository.claimForExecution c.workerId settings.workerLeaseSeconds now).guard
      job := by
    simp [JobRepository.claimForExecution, JobRepository.claimable, hstatus, hunasked]
  obtain ⟨-, hrecord⟩ := step_claim hholds hrow hguard hstep
  show (s'.db.record j).row.map Job.status = _
  rw [hrecord, Function.update_self]
  rfl

lemma underway_of_queued
    (h : (orchestrator settings).Reachable (fun s l => s.lossless l) s)
    (hqueued : s.status j = some .queued) : s.underway j ≠ 0 := by
  revert hqueued
  refine h.invariant (I := fun s => s.status j = some .queued → s.underway j ≠ 0) ?_ ?_
  · rintro s ⟨clock, rfl⟩ hqueued
    cases hqueued
  · intro s l s' hreach hlossless hstep hbefore hqueued
    have hflow : Flow s j l s' := flow_of_step hstep j
    by_cases hwas : s.status j = some .queued
    · cases hflow with
      | sent hl hrun hsent =>
          rw [hsent]
          exact fun hzero => hbefore hwas (add_eq_zero.mp hzero).1
      | claimed hl hholds hused =>
          subst hl
          cases (running_of_claim hreach hstep hholds hwas).symm.trans hqueued
      | other hsweep hclaim hkept hless => exact hkept hlossless (hbefore hwas)
    · obtain ⟨kind, tx, locked, batchSize, now, rfl, hmem⟩ :=
        mem_feeds_of_queued hreach hstep hwas hqueued
      cases hflow with
      | sent hl hrun hsent =>
          cases hl
          rw [hsent, target_pushes hreach hrun]
          have hpositive := List.count_pos_iff.mpr hmem
          intro hzero
          have hnone := Nat.cast_eq_zero.mp (add_eq_zero.mp hzero).2
          omega
      | claimed hl => cases hl
      | other hsweep => exact absurd rfl (hsweep _ _ _ _ _)

/-- **No `QUEUED` job is forgotten.**  In every run that loses no message, a job that is `QUEUED`
has a message that is about to be published, listed, or in the hands of a task that will claim
it. -/
theorem queued_underway
    (h : (orchestrator settings).Reachable (fun s l => s.lossless l) s)
    (hqueued : s.status j = some .queued) : s.underway j ≠ 0 :=
  underway_of_queued h hqueued

/-- Redis repeats the message, one worker claims the job with it and crashes, and the lease
expires. -/
theorem queued_underway_repeated :
    ∃ s : System 4, s.status Scenario.jobId = some .queued ∧
      s.underway Scenario.jobId ≠ 0 := by
  obtain ⟨s, hsteps, hs⟩ := exists_of_runUnder (T := orchestrator {})
    (C := fun s l => s.lossless l) (System.start 4 0)
    (Scenario.submitted 3 ++ Scenario.dispatched ++
      [.redis ⟨[], [Scenario.jobId, Scenario.jobId], [], []⟩] ++
      Scenario.claim Scenario.elsewhere 3 0 ++ [.crash "other"] ++ Scenario.reaped)
    (fun s => s.status Scenario.jobId = some .queued) (by decide +kernel)
  have hqueued := of_decide_eq_true hs
  exact ⟨s, hqueued, queued_underway ⟨_, ⟨0, rfl⟩, hsteps⟩ hqueued⟩

/-- The job is on no list and is not meant to be on one. -/
def Unsent (r : JobRecord) : Prop :=
  r.row = none ∨ (∃ o ∈ r.outbox, o.waiting) ∨
    ∃ job, r.row = some job ∧ ¬ job.status.isTerminal ∧ job.status ≠ .queued

/-- A job has one message at most, and none before it is sent. -/
structure Sparse (s : System settings.workerConcurrency) (j : UUID) : Prop where
  le_one : s.underway j ≤ 1
  unsent : Unsent (s.db.record j) → s.underway j = 0

/-- Of the statements on a `QUEUED` job only the claim makes it one that is on no list. -/
lemma ne_queued_of_issues {u : JobUpdate} {job : Job} (hu : Issues s j l u) (hguard : u.guard job)
    (hclaim : ∀ c tx now, l = .worker c (.claim tx now) → s.workers c ≠ .delivered j)
    (hactive : ¬ (u.values job).status.isTerminal) (hne : (u.values job).status ≠ .queued) :
    job.status ≠ .queued := by
  intro hqueued
  cases hu with
  | requestRunningCancellation =>
      simp [JobRepository.requestRunningCancellation, hqueued] at hguard
  | claimForExecution hworker => exact hclaim _ _ _ rfl hworker
  | finalize e outcome =>
      rcases (held_of_finalizer hguard).2 with hheld | hheld <;> cases hqueued.symm.trans hheld
  | cancelInactive => exact hactive (show JobStatus.cancelled.isTerminal by decide)
  | failExpiredLease => exact hactive (show JobStatus.failed.isTerminal by decide)
  | expire => exact hactive (show JobStatus.expired.isTerminal by decide)
  | heartbeat | updateProgress | markRedispatched => exact hne hqueued
  | markQueued | moveRetryToQueued | requeueExpiredLease => exact hne rfl

lemma unsent_before {life' : Life settings.workerConcurrency} (h : JobStep s j l life')
    (hclaim : ∀ c tx now, l = .worker c (.claim tx now) → s.workers c ≠ .delivered j)
    (hunsent : Unsent life'.record) : Unsent (s.db.record j) := by
  cases hrow : (s.db.record j).row with
  | none => exact Or.inl hrow
  | some job =>
      right
      rcases hunsent with hnone | ⟨o, ho, hwaits⟩ | ⟨job', hrow', hactive, hne⟩
      · rcases row_of_jobStep_of_row h hrow with hsame | ⟨u, -, -, hvalues⟩
        · cases hsame.symm.trans hnone
        · cases hvalues.symm.trans hnone
      · rcases outbox_of_jobStep h hrow with hsame | ⟨_, _, _, _, row, -, hclaimed, hjob, -⟩
        · exact Or.inl ⟨o, hsame ▸ ho, hwaits⟩
        · obtain ⟨hmem, hwaits'⟩ := Table.mem_of_mem_select hclaimed
          simp only [Bool.and_eq_true, decide_eq_true_eq] at hwaits'
          exact Or.inl ⟨row, Table.mem_children.mpr ⟨hmem, hjob⟩, decide_eq_true hwaits'.2⟩
      · rcases row_of_jobStep_of_row h hrow with hsame | ⟨u, hu, hguard, hvalues⟩
        · obtain rfl := Option.some.inj (hsame.symm.trans hrow')
          exact Or.inr ⟨job, hrow, hactive, hne⟩
        · obtain rfl := Option.some.inj (hvalues.symm.trans hrow')
          exact Or.inr ⟨job, hrow, not_isTerminal_of_issues hu hguard,
            ne_queued_of_issues hu hguard hclaim hactive hne⟩

/-- A `QUEUED` job is meant to be on a list. -/
lemma not_unsent_of_queued (hreach : (orchestrator settings).Reachable C s)
    (hqueued : s.status j = some .queued) : ¬ Unsent (s.db.record j) := by
  obtain ⟨job, hrow, hstatus⟩ := Option.map_eq_some_iff.mp hqueued
  have hrow : (s.db.record j).row = some job := hrow
  rintro (hnone | ⟨o, ho, hwaits⟩ | ⟨job', hrow', -, hne⟩)
  · cases hrow.symm.trans hnone
  · cases outboxed_of_reachable hreach j with
    | absent hnone => cases hrow.symm.trans hnone
    | waiting job' o' hrow' _ _ _ _ huntouched =>
        obtain rfl := Option.some.inj (hrow.symm.trans hrow')
        rcases huntouched.status with h | h | h <;> cases hstatus.symm.trans h
    | published job' o' t hrow' houtbox hpublished =>
        rw [houtbox, List.mem_singleton] at ho
        subst ho
        cases hpublished.symm.trans (of_decide_eq_true hwaits)
  · obtain rfl := Option.some.inj (hrow.symm.trans hrow')
    exact hne hstatus

/-- A dispatch leaves a job `QUEUED`, or it had ended before; its outbox row waits no more. -/
lemma not_unsent_of_dispatched {tx : Tx} {locked : List UUID} {batchSize : ℕ} {now : Time}
    {row : DispatchOutbox} {job : Job} (hreach : (orchestrator settings).Reachable C s)
    (hreach' : (orchestrator settings).Reachable C s')
    (hclaimed : row ∈ DispatchOutboxRepository.claimPending s.db locked batchSize)
    (hrow : (s.db.record row.jobId).row = some job)
    (hrecord : s'.db.record row.jobId =
      DispatchService.dispatched tx now row job (s.db.record row.jobId)) :
    ¬ Unsent (s'.db.record row.jobId) := by
  have hrow' : (s'.db.record row.jobId).row =
      some ((JobRepository.markQueued now).apply job) := by
    rw [hrecord]
    rfl
  by_cases hpending : job.status = .pending
  · have hguard : (JobRepository.markQueued now).guard job :=
      JobRepository.markQueued_guard.mpr hpending
    rw [JobUpdate.apply_of_guard hguard] at hrow'
    exact not_unsent_of_queued hreach' (congrArg (Option.map Job.status) hrow')
  · rw [JobUpdate.apply_of_not_guard fun h => hpending (JobRepository.markQueued_guard.mp h)]
      at hrow'
    obtain ⟨hmem, hwaits⟩ := Table.mem_of_mem_select hclaimed
    simp only [Bool.and_eq_true, decide_eq_true_eq] at hwaits
    have hmem : row ∈ (s.db.record row.jobId).outbox := Table.mem_children.mpr ⟨hmem, rfl⟩
    cases outboxed_of_reachable hreach row.jobId with
    | absent hnone => cases hrow.symm.trans hnone
    | published job' o t _ houtbox hpublished =>
        rw [houtbox, List.mem_singleton] at hmem
        rw [hmem] at hwaits
        cases hwaits.2.symm.trans hpublished
    | waiting job' o hrow'' houtbox _ _ _ huntouched =>
        obtain rfl := Option.some.inj (hrow.symm.trans hrow'')
        rw [houtbox, List.mem_singleton] at hmem
        subst hmem
        rintro (hnone | ⟨o', ho', hwaits'⟩ | ⟨job', hjob', hactive, -⟩)
        · cases hrow'.symm.trans hnone
        · have houtbox' : (s'.db.record row.jobId).outbox =
              [DispatchOutboxRepository.published now row] := by
            rw [hrecord]
            simp [DispatchService.dispatched, houtbox]
          rw [houtbox', List.mem_singleton] at ho'
          subst ho'
          cases of_decide_eq_true hwaits'
        · obtain rfl := Option.some.inj (hrow'.symm.trans hjob')
          apply hactive
          rcases huntouched.status with h | h | h
          · exact absurd h hpending
          · rw [h]
            decide
          · rw [h]
            decide

/-- A job that a sweep has put on a list is meant to be there. -/
lemma not_unsent_of_fed {kind : Sweep} {tx : Tx} {locked : List UUID} {batchSize : ℕ} {now : Time}
    {pushes : List Push} (hreach : (orchestrator settings).Reachable Always s)
    (hstep : (orchestrator settings).step s (.sweep kind tx locked batchSize now) = some s')
    (hrun : kind.run settings s.db tx locked batchSize now = some (s'.db, pushes))
    (hmem : j ∈ kind.feeds settings s.db locked batchSize now) : ¬ Unsent (s'.db.record j) := by
  have hreach' : (orchestrator settings).Reachable Always s' :=
    hreach.steps (Steps.single trivial hstep)
  have hpush : ∃ priority, Push.publish j priority ∈ pushes := by
    rw [← target_pushes hreach hrun] at hmem
    obtain ⟨push, hpush, htarget⟩ := List.mem_filterMap.mp hmem
    cases push with
    | publish jobId priority =>
        obtain rfl := Option.some.inj htarget
        exact ⟨priority, hpush⟩
    | deadLetter jobId => cases htarget
  obtain ⟨priority, hpush⟩ := hpush
  have hstatus : ∀ {t : Time}, (∃ job, (s'.db.record j).row = some job ∧ job.status = .queued ∧
      job.lastDispatchedAt = some t) → ¬ Unsent (s'.db.record j) := by
    rintro t ⟨job, hrow, hqueued, -⟩
    refine not_unsent_of_queued hreach' ?_
    exact (congrArg (Option.map Job.status) hrow).trans (congrArg some hqueued)
  cases kind with
  | promoteDue => exact hstatus (queued_of_promoteDue hrun hpush)
  | reapExpired => exact hstatus (queued_of_reapExpired hrun hpush)
  | redeliverStuck stamp => exact hstatus (queued_of_redeliverStuck hrun hpush)
  | dispatchPending =>
      obtain ⟨row, hclaimed, rfl⟩ := List.mem_map.mp hmem
      obtain ⟨job, hrow, hrecord⟩ := step_dispatch hreach hstep hclaimed
      exact not_unsent_of_dispatched hreach hreach' hclaimed hrow hrecord
  | expireStale | deliverNotifications io => cases hmem

lemma sparse_of_step (hreach : (orchestrator settings).Reachable Always s)
    (hstep : (orchestrator settings).step s l = some s') (hunrepeated : s.unrepeated settings l)
    (h : Sparse s j) : Sparse s' j := by
  have hjob := jobStep_of_reachable hreach hstep j
  have hflow : Flow s j l s' := flow_of_step hstep j
  cases hflow with
  | @sent kind tx locked batchSize now pushes hl hrun hsent =>
      subst hl
      rw [target_pushes hreach hrun] at hsent
      by_cases hmem : j ∈ kind.feeds settings s.db locked batchSize now
      · have hnone : s.underway j = 0 := by
          rcases waits_of_mem_feeds hmem with ⟨stamp, rfl⟩ | hwaits | ⟨job, hrow, hstatus⟩
          · have hnone := List.isEmpty_iff.mp hunrepeated
            rw [Sweep.feeds, hnone] at hmem
            cases hmem
          · exact h.unsent (Or.inr (Or.inl hwaits))
          · refine h.unsent (Or.inr (Or.inr ⟨job, hrow, ?_⟩))
            rcases hstatus with hstatus | hstatus <;> rw [hstatus] <;> decide
        rw [List.count_eq_one_of_mem (nodup_feeds hreach) hmem, hnone] at hsent
        exact ⟨hsent.le, fun hunsent => absurd hunsent (not_unsent_of_fed hreach hstep hrun hmem)⟩
      · rw [List.count_eq_zero_of_not_mem hmem, Nat.cast_zero, add_zero] at hsent
        refine ⟨hsent.trans_le h.le_one, fun hunsent => hsent.trans (h.unsent ?_)⟩
        exact unsent_before hjob (fun _ _ _ h => by cases h) hunsent
  | claimed hl hholds hused =>
      have hnone : s'.underway j = 0 := by
        have hle := h.le_one
        rw [hused, ENat.add_one_le_iff' ENat.one_ne_top] at hle
        exact Order.lt_one_iff.mp hle
      exact ⟨hnone.le.trans zero_le_one, fun _ => hnone⟩
  | other hsweep hclaim hkept hless =>
      have hle := hless hunrepeated
      refine ⟨hle.trans h.le_one, fun hunsent => ?_⟩
      exact nonpos_iff_eq_zero.mp (hle.trans (h.unsent (unsent_before hjob hclaim hunsent)).le)

lemma sparse_of_reachable
    (h : (orchestrator settings).Reachable (fun s l => s.unrepeated settings l) s)
    (j : UUID) : Sparse s j := by
  refine h.invariant (I := fun s => Sparse s j) ?_ fun s l s' hreach hunrepeated hstep hsparse =>
    sparse_of_step (hreach.mono fun _ _ _ => trivial) hstep hunrepeated hsparse
  rintro s ⟨clock, rfl⟩
  have hnone : (System.start settings.workerConcurrency clock).underway j = 0 := by
    have hholders : (System.start settings.workerConcurrency clock).holders j = ∅ :=
      Set.eq_empty_of_forall_notMem fun c hc => by cases hc
    rw [System.underway, hholders, Set.encard_empty, add_zero, Nat.cast_eq_zero]
    rfl
  exact ⟨hnone.le.trans zero_le_one, fun _ => hnone⟩

/-- **Without faults each job has one message.**  In every run that neither loses nor repeats a
message, and in which nothing is delivered again, a `QUEUED` job has exactly one message, no job has
more, and a job that is `PENDING`, `RUNNING`, `RETRYING` or `CANCELLING` has none.  So a task that
takes a message finds its job `QUEUED` or ended. -/
theorem delivered_exactly_once
    (h : (orchestrator settings).Reachable (fun s l => s.lossless l && s.unrepeated settings l) s)
    (j : UUID) :
    s.underway j ≤ 1 ∧ (s.status j = some .queued → s.underway j = 1) ∧
      (∀ status, s.status j = some status → ¬ status.isTerminal → status ≠ .queued →
        s.underway j = 0) ∧
      ∀ c, s.workers c = .delivered j → s.status j = some .queued ∨
        ∃ status, s.status j = some status ∧ status.isTerminal := by
  have hsparse : Sparse s j := sparse_of_reachable (h.mono fun s l hkeeps =>
    (Bool.and_eq_true_iff.mp hkeeps).2) j
  have hidle : ∀ status, s.status j = some status → ¬ status.isTerminal → status ≠ .queued →
      s.underway j = 0 := by
    intro status hstatus hactive hne
    obtain ⟨job, hrow, rfl⟩ := Option.map_eq_some_iff.mp hstatus
    exact hsparse.unsent (Or.inr (Or.inr ⟨job, hrow, hactive, hne⟩))
  refine ⟨hsparse.le_one, fun hqueued => ?_, hidle, fun c hholds => ?_⟩
  · have hsome : s.underway j ≠ 0 := underway_of_queued (h.mono fun s l hkeeps =>
      (Bool.and_eq_true_iff.mp hkeeps).1) hqueued
    exact hsparse.le_one.antisymm (Order.one_le_iff_ne_zero.mpr hsome)
  · have hsome : s.underway j ≠ 0 := by
      intro hzero
      have hnone := Set.encard_eq_zero.mp (add_eq_zero.mp hzero).2
      have hmem : c ∈ s.holders j := hholds
      rw [hnone] at hmem
      exact hmem
    cases hstatus : s.status j with
    | none =>
        refine absurd (hsparse.unsent (Or.inl ?_)) hsome
        exact Option.map_eq_none_iff.mp hstatus
    | some status =>
        by_cases hqueued : status = .queued
        · exact Or.inl (congrArg some hqueued)
        · by_cases hterminal : status.isTerminal
          · exact Or.inr ⟨status, rfl, hterminal⟩
          · exact absurd (hidle status hstatus hterminal hqueued) hsome

/-- The job is `QUEUED` a second time, with the message of the sweep that reaped it. -/
theorem delivered_exactly_once_reaped :
    ∃ s : System 4, s.status Scenario.jobId = some .queued ∧
      s.underway Scenario.jobId ≤ 1 ∧
      (s.status Scenario.jobId = some .queued → s.underway Scenario.jobId = 1) := by
  obtain ⟨s, hsteps, hs⟩ := exists_of_runUnder (T := orchestrator {})
    (C := fun s l => s.lossless l && s.unrepeated {} l) (System.start 4 0)
    (Scenario.submitted 3 ++ Scenario.dispatched ++ Scenario.claim Scenario.elsewhere 3 0 ++
      [.crash "other"] ++ Scenario.reaped)
    (fun s => s.status Scenario.jobId = some .queued) (by decide +kernel)
  have hone := @delivered_exactly_once {} s ⟨_, ⟨0, rfl⟩, hsteps⟩ Scenario.jobId
  exact ⟨s, of_decide_eq_true hs, hone.1, hone.2.1⟩

end Invariants

end JobOrchestrator
