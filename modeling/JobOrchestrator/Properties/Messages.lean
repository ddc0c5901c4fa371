import JobOrchestrator.Properties.DeadLetters
import JobOrchestrator.Properties.Progress
import JobOrchestrator.Properties.Publication

/-!
# Messages

Redis and the tables are written one after the other, and the lists may lose and repeat what they
hold.  What a message says of its job is never wrong all the same: no statement takes it back, so
the message may arrive late and more than once.
-/

namespace JobOrchestrator

open ExecutionService TransitionSystem

variable {settings : Settings}

/-- What a message says of the job it names: on a priority list, that the job was dispatched and has
the priority of the list; a dead letter, that the job failed for good. -/
def Push.Sound (db : Database) : Push → Prop
  | publish jobId priority => ∃ job, db.jobs.get? jobId = some job ∧ job.priority = priority ∧
      job.status ≠ .pending
  | deadLetter jobId => db.deadLettered jobId

/-- The job that a consumer task has taken from a list. -/
def Consumer.holds : Consumer → Option UUID
  | .delivered jobId => some jobId
  | .executing e => some e.jobId
  | .idle | .ended => none

/-- Every message of the state is sound in `db`, wherever it is. -/
structure MessagesSound {concurrency : ℕ} (s : System concurrency) (db : Database) : Prop where
  unpublished : ∀ push ∈ s.unpublished, push.Sound db
  listed : ∀ priority, ∀ jobId ∈ s.queue.list priority, (Push.publish jobId priority).Sound db
  held : ∀ c jobId, (s.workers c).holds = some jobId →
    ∃ priority, (Push.publish jobId priority).Sound db
  deadLetters : ∀ jobId ∈ s.queue.deadLetters, (Push.deadLetter jobId).Sound db
  carried : ∀ c jobId, (s.workers c).carries jobId → (Push.deadLetter jobId).Sound db

lemma MessagesSound.later {concurrency : ℕ} {s : System concurrency} {db db' : Database}
    (h : MessagesSound s db) (hkeeps : ∀ push : Push, push.Sound db → push.Sound db') :
    MessagesSound s db' where
  unpublished push hmem := hkeeps _ (h.unpublished push hmem)
  listed priority jobId hmem := hkeeps _ (h.listed priority jobId hmem)
  held c jobId hholds := by
    obtain ⟨priority, hsound⟩ := h.held c jobId hholds
    exact ⟨priority, hkeeps _ hsound⟩
  deadLetters jobId hmem := hkeeps _ (h.deadLetters jobId hmem)
  carried c jobId hcarries := hkeeps _ (h.carried c jobId hcarries)

namespace JobQueue

variable {q q' : JobQueue} {jobId k : UUID} {priority : JobPriority}

lemma mem_list_publish {p : JobPriority} (h : k ∈ (q.publish jobId p).list priority) :
    (k = jobId ∧ priority = p) ∨ k ∈ q.list priority := by
  cases p <;> cases priority <;> simpa [publish, list] using h

lemma list_deadLetter : (q.deadLetter jobId).list priority = q.list priority := by
  cases priority <;> rfl

lemma deadLetters_publish {p : JobPriority} : (q.publish jobId p).deadLetters = q.deadLetters := by
  cases p <;> rfl

lemma Faulty.list_subset (h : q.Faulty q') : q'.list priority ⊆ q.list priority := by
  obtain ⟨hhigh, hnormal, hlow, -⟩ := h
  cases priority <;> assumption

/-- `BRPOP` takes the last element of the first list that has one. -/
lemma consume_spec (h : q.consume = some (jobId, q')) :
    ∃ p, q.list p = q'.list p ++ [jobId] ∧ (∀ r, r ≠ p → q'.list r = q.list r) ∧
      ∀ r, priorityOrder.idxOf r < priorityOrder.idxOf p → q.list r = [] := by
  have hlast : ∀ {ids : List UUID}, ids.getLast? = some jobId → ids = ids.dropLast ++ [jobId] :=
    fun hids => (List.dropLast_append_getLast? _ hids).symm
  unfold consume at h
  split at h
  · rename_i hhigh
    obtain ⟨rfl, rfl⟩ := Prod.mk.inj (Option.some.inj h)
    refine ⟨.high, hlast hhigh, fun r hr => ?_, fun r hr => ?_⟩
    · cases r <;> first | rfl | exact absurd rfl hr
    · exact absurd hr (Nat.not_lt_zero _)
  · rename_i hhigh hnormal
    obtain ⟨rfl, rfl⟩ := Prod.mk.inj (Option.some.inj h)
    refine ⟨.normal, hlast hnormal, fun r hr => ?_, fun r hr => ?_⟩
    · cases r <;> first | rfl | exact absurd rfl hr
    · cases r with
      | high => exact List.getLast?_eq_none_iff.mp hhigh
      | normal | low => exact absurd hr (by decide)
  · rename_i hhigh hnormal hlow
    obtain ⟨rfl, rfl⟩ := Prod.mk.inj (Option.some.inj h)
    refine ⟨.low, hlast hlow, fun r hr => ?_, fun r hr => ?_⟩
    · cases r <;> first | rfl | exact absurd rfl hr
    · cases r with
      | high => exact List.getLast?_eq_none_iff.mp hhigh
      | normal => exact List.getLast?_eq_none_iff.mp hnormal
      | low => exact absurd hr (by decide)
  · cases h

end JobQueue

section Step

variable {s s' : System settings.workerConcurrency} {l : Label settings.workerConcurrency}
  {j jobId : UUID} {tx : Tx} {locked : List UUID} {batchSize : ℕ} {now : Time}
  {c : Coroutine settings.workerConcurrency}

/-- The job of a row has the same priority after every step. -/
lemma row_of_step (hreach : (orchestrator settings).Reachable Always s)
    (hstep : (orchestrator settings).step s l = some s') {job : Job}
    (hrow : (s.db.record j).row = some job) :
    ∃ job', (s'.db.record j).row = some job' ∧ job'.priority = job.priority ∧
      (job.status ≠ .pending → job'.status ≠ .pending) ∧
      (job.deadLetteredAt.isSome → job' = job) := by
  rcases row_of_jobStep_of_row (jobStep_of_reachable hreach hstep j) hrow with
    hsame | ⟨u, hu, hguard, hvalues⟩
  · exact ⟨job, hsame, rfl, id, fun _ => rfl⟩
  · have hrequest : (u.values job).request = job.request := u.keeps_request job
    refine ⟨u.values job, hvalues, congrArg JobRequest.priority hrequest,
      fun _ => not_pending_of_issues hu hguard, fun hdead => ?_⟩
    -- a dead-lettered row is terminal, so no statement matches it
    have hfailed := ((deadLetterSound_of_reachable hreach j).exhausted job hrow hdead).1
    refine absurd ?_ (not_isTerminal_of_issues hu hguard)
    rw [hfailed]
    decide

/-- No step makes a message wrong. -/
lemma Push.Sound.of_step {push : Push} (h : push.Sound s.db)
    (hreach : (orchestrator settings).Reachable Always s)
    (hstep : (orchestrator settings).step s l = some s') : push.Sound s'.db := by
  cases push with
  | publish jobId priority =>
      obtain ⟨job, hrow, rfl, hstatus⟩ := h
      obtain ⟨job', hrow', hpriority, hleft, -⟩ := row_of_step hreach hstep hrow
      exact ⟨job', hrow', hpriority, hleft hstatus⟩
  | deadLetter jobId =>
      obtain ⟨job, hrow, hdead⟩ := deadLettered_eq_true.mp h
      obtain ⟨job', hrow', -, -, hkept⟩ := row_of_step hreach hstep hrow
      obtain rfl := hkept hdead
      exact deadLettered_eq_true.mpr ⟨job', hrow', hdead⟩

/-- A sweep collects a job together with its priority. -/
lemma priority_of_pushes {kind : Sweep} {db : Database} {pushes : List Push}
    {priority : JobPriority} (hreach : (orchestrator settings).Reachable Always s)
    (hrun : kind.run settings s.db tx locked batchSize now = some (db, pushes))
    (hpush : .publish jobId priority ∈ pushes) :
    ∃ job, (s.db.record jobId).row = some job ∧ job.priority = priority := by
  cases kind with
  | dispatchPending =>
      obtain ⟨swept, hswept, heq⟩ := Option.map_eq_some_iff.mp hrun
      obtain ⟨-, rfl⟩ := Prod.mk.inj heq
      rw [DispatchService.pushes_dispatchPending hswept
        fun i => (linked_of_reachable hreach i).outbox_le, List.mem_filterMap] at hpush
      obtain ⟨row, -, hjob⟩ := hpush
      obtain ⟨job, hrow, heq⟩ := Option.map_eq_some_iff.mp hjob
      obtain ⟨rfl, rfl⟩ := Push.publish.inj heq
      exact ⟨job, hrow, rfl⟩
  | promoteDue =>
      obtain ⟨swept, hswept, heq⟩ := Option.map_eq_some_iff.mp hrun
      obtain ⟨-, rfl⟩ := Prod.mk.inj heq
      rw [RetryService.pushes_promoteDue hswept] at hpush
      obtain ⟨job, hjob, heq⟩ := List.mem_map.mp hpush
      obtain ⟨rfl, rfl⟩ := Push.publish.inj heq
      exact ⟨job, Table.get?_of_mem_select hjob, rfl⟩
  | reapExpired =>
      obtain ⟨swept, hswept, heq⟩ := Option.map_eq_some_iff.mp hrun
      obtain ⟨-, rfl⟩ := Prod.mk.inj heq
      rw [Swept.pushes, LeaseService.published_reapExpired hswept, List.mem_append, List.map_map,
        List.mem_map, List.mem_map] at hpush
      rcases hpush with ⟨_, -, heq⟩ | ⟨job, hjob, heq⟩
      · cases heq
      · obtain ⟨rfl, rfl⟩ := Push.publish.inj heq
        exact ⟨job, Table.get?_of_mem_select (List.mem_filter.mp hjob).1, rfl⟩
  | redeliverStuck stamp =>
      obtain ⟨swept, hswept, heq⟩ := Option.map_eq_some_iff.mp hrun
      obtain ⟨-, rfl⟩ := Prod.mk.inj heq
      rw [DispatchService.pushes_redeliverStuck hswept] at hpush
      obtain ⟨job, hjob, heq⟩ := List.mem_map.mp hpush
      obtain ⟨rfl, rfl⟩ := Push.publish.inj heq
      exact ⟨job, Table.get?_of_mem_select hjob, rfl⟩
  | expireStale =>
      obtain ⟨swept, hswept, heq⟩ := Option.map_eq_some_iff.mp hrun
      obtain ⟨-, rfl⟩ := Prod.mk.inj heq
      rw [ExpiryService.pushes_expireStale hswept] at hpush
      cases hpush
  | deliverNotifications io =>
      obtain ⟨db, -, heq⟩ := Option.map_eq_some_iff.mp hrun
      obtain ⟨-, rfl⟩ := Prod.mk.inj heq
      cases hpush

/-- A job that a sweep sends to a list is not `PENDING` any more. -/
lemma not_pending_of_pushes {kind : Sweep} {pushes : List Push} {priority : JobPriority}
    (hreach : (orchestrator settings).Reachable Always s)
    (hstep : (orchestrator settings).step s (.sweep kind tx locked batchSize now) = some s')
    (hrun : kind.run settings s.db tx locked batchSize now = some (s'.db, pushes))
    (hpush : .publish jobId priority ∈ pushes) {job' : Job}
    (hrow' : (s'.db.record jobId).row = some job') : job'.status ≠ .pending := by
  have hqueued : (∃ job t, (s'.db.record jobId).row = some job ∧ job.status = .queued ∧
      job.lastDispatchedAt = some t) → job'.status ≠ .pending := by
    rintro ⟨job, t, hrow, hstatus, -⟩ hpending
    obtain rfl := Option.some.inj (hrow.symm.trans hrow')
    cases hstatus.symm.trans hpending
  cases kind with
  | dispatchPending =>
      obtain ⟨row, hclaimed, rfl, -⟩ := (mem_pushes_dispatchPending hreach hrun).mp hpush
      obtain ⟨job, hrow, hdispatched⟩ := step_dispatch hreach hstep hclaimed
      rw [hdispatched] at hrow'
      obtain rfl := Option.some.inj hrow'
      by_cases hguard : (JobRepository.markQueued now).guard job
      · rw [JobUpdate.apply_of_guard hguard]
        exact fun h => by cases h
      · rw [JobUpdate.apply_of_not_guard hguard]
        exact fun hpending => hguard (JobRepository.markQueued_guard.mpr hpending)
  | promoteDue =>
      obtain ⟨job, hrow⟩ := queued_of_promoteDue hrun hpush
      exact hqueued ⟨job, _, hrow⟩
  | reapExpired =>
      obtain ⟨job, hrow⟩ := queued_of_reapExpired hrun hpush
      exact hqueued ⟨job, _, hrow⟩
  | redeliverStuck stamp =>
      obtain ⟨job, hrow⟩ := queued_of_redeliverStuck hrun hpush
      exact hqueued ⟨job, _, hrow⟩
  | expireStale =>
      obtain ⟨swept, hswept, heq⟩ := Option.map_eq_some_iff.mp hrun
      obtain ⟨-, rfl⟩ := Prod.mk.inj heq
      rw [ExpiryService.pushes_expireStale hswept] at hpush
      cases hpush
  | deliverNotifications io =>
      obtain ⟨db, -, heq⟩ := Option.map_eq_some_iff.mp hrun
      obtain ⟨-, rfl⟩ := Prod.mk.inj heq
      cases hpush

/-- What a sweep sends is sound after its commit. -/
lemma sound_of_pushes {kind : Sweep} {pushes : List Push} {push : Push}
    (hreach : (orchestrator settings).Reachable Always s)
    (hstep : (orchestrator settings).step s (.sweep kind tx locked batchSize now) = some s')
    (hrun : kind.run settings s.db tx locked batchSize now = some (s'.db, pushes))
    (hpush : push ∈ pushes) : push.Sound s'.db := by
  cases push with
  | publish jobId priority =>
      obtain ⟨job, hrow, rfl⟩ := priority_of_pushes hreach hrun hpush
      obtain ⟨job', hrow', hpriority, -⟩ := row_of_step hreach hstep hrow
      exact ⟨job', hrow', hpriority, not_pending_of_pushes hreach hstep hrun hpush hrow'⟩
  | deadLetter jobId =>
      have hpositive : 0 < pushes.count (.deadLetter jobId) := List.count_pos_iff.mpr hpush
      by_cases hkind : kind = .reapExpired
      · subst hkind
        rw [count_reap hrun] at hpositive
        have hfailed := List.count_pos_iff.mp hpositive
        show s'.db.deadLettered jobId
        rw [deadLettered_of_reap hstep, decide_eq_true hfailed, Bool.true_or]
      · rw [count_pushes (fun i => (linked_of_reachable hreach i).outbox_le) hkind hrun]
          at hpositive
        exact absurd hpositive (Nat.lt_irrefl 0)

/-- No decision takes up a dead letter. -/
lemma Decides.ne_deadLettering {r : JobRecord} {e : Execution} {stage : Stage}
    (h : Decides r e stage) : stage ≠ .deadLettering := by
  intro heq
  cases h with
  | checkpoint | returned | backoff | deadLetter | failed => cases heq
  | raised hstage error => cases error <;> cases heq
  | @read code message hstage =>
      rcases afterRead_cases e code message r.cancellationRequested with h | h | h <;>
        cases h.symm.trans heq

/-- A task that is about to push a dead letter has failed the job for good. -/
lemma sound_of_carries (hreach : (orchestrator settings).Reachable Always s)
    (hstep : (orchestrator settings).step s l = some s')
    (hbefore : ∀ c jobId, (s.workers c).carries jobId → (Push.deadLetter jobId).Sound s.db)
    (hcarries : (s'.workers c).carries j) : (Push.deadLetter j).Sound s'.db := by
  obtain ⟨e', he', hjob, hstage'⟩ := Consumer.carries_iff.mp hcarries
  have hkept : ∀ e : Execution, (s.life j).executions c = some e →
      e.stage = .deadLettering → (Push.deadLetter j).Sound s'.db := by
    intro e he hstage
    obtain ⟨hworker, hown⟩ := (s.life_executions _).mp he
    exact (hbefore c j (Consumer.carries_iff.mpr ⟨e, hworker, hown, hstage⟩)).of_step hreach hstep
  have hexec : (s'.life j).executions c = some e' := (s'.life_executions _).mpr ⟨he', hjob⟩
  cases execution_of_jobStep (jobStep_of_reachable hreach hstep j) hexec with
  | kept e he => exact hkept _ he hstage'
  | started => cases hstage'
  | heartbeatFailed e he => exact hkept e he hstage'
  | decided e stage he hdecides => exact absurd hstage' hdecides.ne_deadLettering
  | finalized e outcome tx now job he hstage hrow hguard hrecord =>
      obtain ⟨-, code, message, rfl⟩ := afterFinalize_eq_deadLettering.mp hstage'
      refine deadLettered_eq_true.mpr ⟨((Outcome.failed code message true).finalizer.update
        c.workerId now).values job, ?_, rfl⟩
      show (s'.life j).record.row = _
      rw [hrecord]
      exact finalized_row ..
  | superseded e outcome now =>
      obtain ⟨hhit, -⟩ := afterFinalize_eq_deadLettering.mp hstage'
      cases hhit

/-- What a task holds it held before, or it has just taken it from a list. -/
lemma holds_of_step (hstep : s.step settings l = some s')
    (hholds : (s'.workers c).holds = some jobId) :
    (s.workers c).holds = some jobId ∨ ∃ priority, jobId ∈ s.queue.list priority := by
  rcases consumer_of_step hstep c with hsame | ⟨-, hended⟩ | ⟨action, -, hworker⟩
  · rw [hsame] at hholds
    exact Or.inl hholds
  · rw [hended] at hholds
    cases hholds
  · cases hworker with
    | consumed jobId' queue hidle hconsume =>
        rw [System.become_self] at hholds
        obtain rfl := Option.some.inj hholds
        obtain ⟨priority, hlist, -⟩ := JobQueue.consume_spec hconsume
        exact Or.inr ⟨priority, hlist ▸ List.mem_append_right _ (List.mem_singleton_self _)⟩
    | claimed tx now jobId' db result hdelivered =>
        rw [System.become_self] at hholds
        cases result with
        | none => cases hholds
        | some claim =>
            rw [hdelivered]
            exact Or.inl hholds
    | claimFailed | stopped | returned =>
        rw [System.become_self] at hholds
        cases hholds
    | heartbeat e now he | passed e he | progressed e progress now he => exact Or.inl hholds
    | heartbeatFailed e he =>
        rw [System.become_self] at hholds
        rw [he]
        exact Or.inl hholds
    | resumed e action stage he | finalized e outcome tx now db hit he | deadLettered e he =>
        rw [System.resume_self] at hholds
        rw [he]
        exact Or.inl hholds

/-- The lists after a step hold what they held, and what a committed sweep or a task sent. -/
lemma listed_of_step (hstep : s.step settings l = some s') {priority : JobPriority}
    (hmem : jobId ∈ s'.queue.list priority) :
    jobId ∈ s.queue.list priority ∨ .publish jobId priority ∈ s.unpublished := by
  cases systemStep_of_step hstep with
  | published push hpush =>
      cases push with
      | publish k p =>
          rcases JobQueue.mem_list_publish hmem with ⟨rfl, rfl⟩ | hbefore
          · exact Or.inr hpush
          · exact Or.inl hbefore
      | deadLetter k => exact Or.inl (JobQueue.list_deadLetter (q := s.queue) ▸ hmem)
  | redis queue hfaulty => exact Or.inl (hfaulty.list_subset hmem)
  | worker c action hworker =>
      cases hworker with
      | consumed jobId' queue hidle hconsume =>
          obtain ⟨p, hlist, hothers, -⟩ := JobQueue.consume_spec hconsume
          have hmem : jobId ∈ queue.list priority := hmem
          by_cases hp : priority = p
          · subst hp
            exact Or.inl (hlist ▸ List.mem_append_left _ hmem)
          · exact Or.inl (hothers priority hp ▸ hmem)
      | deadLettered e he => exact Or.inl (JobQueue.list_deadLetter (q := s.queue) ▸ hmem)
      | claimed | claimFailed | stopped | heartbeat | heartbeatFailed | passed | progressed
      | resumed | finalized | returned => exact Or.inl hmem
  | ticked | submitted | submission | cancel | sweep | publishFailed | crashed =>
      exact Or.inl hmem

lemma deadLetters_of_step (hstep : s.step settings l = some s')
    (hmem : jobId ∈ s'.queue.deadLetters) :
    jobId ∈ s.queue.deadLetters ∨ .deadLetter jobId ∈ s.unpublished ∨
      ∃ c, (s.workers c).carries jobId := by
  cases systemStep_of_step hstep with
  | published push hpush =>
      cases push with
      | publish k p => exact Or.inl (JobQueue.deadLetters_publish (q := s.queue) ▸ hmem)
      | deadLetter k =>
          rcases List.mem_cons.mp hmem with rfl | hbefore
          · exact Or.inr (Or.inl hpush)
          · exact Or.inl hbefore
  | redis queue hfaulty => exact Or.inl (hfaulty.2.2.2 hmem)
  | worker c action hworker =>
      cases hworker with
      | consumed jobId' queue hidle hconsume =>
          exact Or.inl (deadLetters_of_consume hconsume ▸ hmem)
      | deadLettered e he hstage =>
          rcases List.mem_cons.mp hmem with rfl | hbefore
          · exact Or.inr (Or.inr ⟨c, Consumer.carries_iff.mpr ⟨e, he, rfl, hstage⟩⟩)
          · exact Or.inl hbefore
      | claimed | claimFailed | stopped | heartbeat | heartbeatFailed | passed | progressed
      | resumed | finalized | returned => exact Or.inl hmem
  | ticked | submitted | submission | cancel | sweep | publishFailed | crashed =>
      exact Or.inl hmem

/-- What is unpublished after a step was unpublished before, or is sound. -/
lemma unpublished_of_step (hreach : (orchestrator settings).Reachable Always s)
    (hstep : (orchestrator settings).step s l = some s') {push : Push}
    (hmem : push ∈ s'.unpublished) : push ∈ s.unpublished ∨ push.Sound s'.db := by
  have hsystem := systemStep_of_step hstep
  cases hsystem with
  | sweep kind tx locked batchSize now db pushes htimely hkind hrun =>
      rcases List.mem_append.mp hmem with hbefore | hpush
      · exact Or.inl hbefore
      · exact Or.inr (sound_of_pushes hreach hstep hrun hpush)
  | published | publishFailed => exact Or.inl (List.mem_of_mem_erase hmem)
  | worker c action hworker => cases hworker <;> exact Or.inl hmem
  | ticked | submitted | submission | cancel | redis | crashed => exact Or.inl hmem

lemma messagesSound_of_step (hreach : (orchestrator settings).Reachable Always s)
    (hstep : (orchestrator settings).step s l = some s') (hbefore : MessagesSound s s.db) :
    MessagesSound s' s'.db := by
  have h : MessagesSound s s'.db := hbefore.later fun _ hsound => hsound.of_step hreach hstep
  refine ⟨fun push hmem => ?_, fun priority jobId hmem => ?_, fun c jobId hholds => ?_,
    fun jobId hmem => ?_, fun c jobId => sound_of_carries hreach hstep hbefore.carried⟩
  · rcases unpublished_of_step hreach hstep hmem with hkept | hsound
    · exact h.unpublished push hkept
    · exact hsound
  · rcases listed_of_step hstep hmem with hkept | hpush
    · exact h.listed priority jobId hkept
    · exact h.unpublished _ hpush
  · rcases holds_of_step hstep hholds with hkept | ⟨priority, hlisted⟩
    · exact h.held c jobId hkept
    · exact ⟨priority, h.listed priority jobId hlisted⟩
  · rcases deadLetters_of_step hstep hmem with hkept | hpush | ⟨c, hcarries⟩
    · exact h.deadLetters jobId hkept
    · exact h.unpublished _ hpush
    · exact h.carried c jobId hcarries

lemma messagesSound_of_reachable (h : (orchestrator settings).Reachable Always s) :
    MessagesSound s s.db := by
  refine h.invariant (I := fun s => MessagesSound s s.db) ?_ (fun s l s' hreach _ hstep hsound =>
    messagesSound_of_step hreach hstep hsound)
  rintro s ⟨clock, rfl⟩
  refine ⟨fun _ hmem => ?_, fun priority _ hmem => ?_, fun _ _ hholds => ?_, fun _ hmem => ?_,
    fun _ _ hcarries => ?_⟩
  · cases hmem
  · cases priority <;> cases hmem
  · cases hholds
  · cases hmem
  · cases hcarries

/-- **Messages are sound.**  Whatever Redis has lost or repeated, and however late a message is
read: the ids on a priority list, on their way to it or in the hands of a worker are those of
dispatched jobs of that priority, and the dead letters are those of jobs that failed for good. -/
theorem messages_sound (h : (orchestrator settings).Reachable Always s)
    (hsteps : (orchestrator settings).Steps Always s s') : MessagesSound s s'.db := by
  refine h.preserves (I := fun t => MessagesSound s t.db) (fun _ _ _ => trivial) ?_ hsteps
    (messagesSound_of_reachable h)
  intro t l t' hreach _ hstep hbefore
  exact hbefore.later fun _ hsound => hsound.of_step hreach hstep

/-- A message that Redis has repeated and the worker that holds its copy, read again after another
worker has claimed the job. -/
theorem messages_sound_repeated : ∃ s s' : System 4,
    s.queue.normal = [Scenario.jobId] ∧ (s.workers Scenario.first).holds = some Scenario.jobId ∧
      s'.status Scenario.jobId = some .running ∧ MessagesSound s s'.db := by
  obtain ⟨s, hbefore, hs⟩ := exists_of_run (T := orchestrator {}) (System.start 4 0)
    (Scenario.submitted 3 ++ Scenario.dispatched ++
      [.redis ⟨[], [Scenario.jobId, Scenario.jobId], [], []⟩, .worker Scenario.first .consume])
    (fun s => s.queue.normal = [Scenario.jobId] &&
      ((s.workers Scenario.first).holds = some Scenario.jobId &&
        ((orchestrator {}).run s (Scenario.claim Scenario.second 3 0)).any fun s' =>
          s'.status Scenario.jobId = some .running)) (by decide +kernel)
  obtain ⟨hlisted, hrest⟩ := Bool.and_eq_true_iff.mp hs
  obtain ⟨hholds, hrun⟩ := Bool.and_eq_true_iff.mp hrest
  obtain ⟨s', hsteps, hs'⟩ := exists_of_run _ _ _ hrun
  exact ⟨s, s', of_decide_eq_true hlisted, of_decide_eq_true hholds, of_decide_eq_true hs',
    messages_sound ⟨_, ⟨0, rfl⟩, hbefore⟩ hsteps⟩

end Step

end JobOrchestrator
