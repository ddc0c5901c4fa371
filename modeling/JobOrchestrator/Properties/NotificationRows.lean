import JobOrchestrator.Properties.Delivery

/-!
# The notification rows

A row of the notification outbox waits, is tried again after a failure, and is settled once: it was
sent, or its attempts are exhausted.  The columns that the deliveries write agree with each other in
every reachable state, and with the number of deliveries that the settings allow.
-/

namespace JobOrchestrator

open NotificationService NotificationOutboxRepository TransitionSystem

variable {settings : Settings}

/-- The columns that a delivery writes agree with each other.  The number of attempts is only
compared after one, so there is always a first. -/
structure NotificationOutbox.Coherent (settings : Settings) (n : NotificationOutbox) : Prop where
  sentAt : n.sentAt.isSome ↔ n.status = .sent
  lastError : n.lastError.isSome ↔ n.status = .failed ∨ n.status = .pending ∧ 1 ≤ n.attempts
  pending : n.status = .pending → n.attempts < max 1 settings.notificationMaxAttempts
  sent : n.status = .sent → 1 ≤ n.attempts ∧ n.attempts ≤ max 1 settings.notificationMaxAttempts
  failed : n.status = .failed → n.attempts = max 1 settings.notificationMaxAttempts

section Row

variable {io : DeliveryInputs} {n : NotificationOutbox}

/-- A row that no delivery has tried yet. -/
lemma coherent_of_fresh (hstatus : n.status = .pending) (hattempts : n.attempts = 0)
    (herror : n.lastError = none) (hsent : n.sentAt = none) : n.Coherent settings := by
  constructor <;> simp [hstatus, hattempts, herror, hsent]

lemma written_cases :
    (∃ now, written settings io n n = sent now n) ∨
    (∃ message, settings.notificationMaxAttempts ≤ n.attempts + 1 ∧
      written settings io n n = failed message n) ∨
    (∃ t message, n.attempts + 1 < settings.notificationMaxAttempts ∧
      written settings io n n = rescheduled t message n) ∨
    written settings io n n = n := by
  cases houtcome : io.outcome n.id with
  | delivered => exact Or.inl ⟨_, by rw [written, houtcome]⟩
  | httpError message =>
      by_cases hexhausted : settings.notificationMaxAttempts ≤ n.attempts + 1
      · exact Or.inr (Or.inl ⟨message, hexhausted, by simp [written, houtcome, hexhausted]⟩)
      · refine Or.inr (Or.inr (Or.inl ⟨io.now n.id + io.backoff n.id, message,
          not_le.mp hexhausted, ?_⟩))
        simp [written, houtcome, hexhausted]
  | raised => exact Or.inr (Or.inr (Or.inr (written_eq_self.mpr houtcome)))

/-- What a delivery writes into a coherent row that waits is coherent. -/
lemma coherent_written (h : n.Coherent settings) (hpending : n.status = .pending) :
    (written settings io n n).Coherent settings := by
  have hbound := h.pending hpending
  have hunsent : n.sentAt.isSome = false := by
    rw [← Bool.not_eq_true, h.sentAt, hpending]
    decide
  rcases @written_cases settings io n with
    ⟨now, hwritten⟩ | ⟨message, hexhausted, hwritten⟩ | ⟨t, message, hleft, hwritten⟩ | hwritten
  · rw [hwritten]
    constructor <;> simp [NotificationOutboxRepository.sent]
    omega
  · rw [hwritten]
    constructor <;> simp [NotificationOutboxRepository.failed, hunsent]
    omega
  · rw [hwritten]
    constructor <;> simp [rescheduled, hpending, hunsent]
    omega
  · rw [hwritten]
    exact h

end Row

section Step

variable {s s' : System settings.workerConcurrency} {j : UUID}
  {l : Label settings.workerConcurrency} {life' : Life settings.workerConcurrency}
  {n n' : NotificationOutbox}

/-- Whatever an enqueue leaves was there, or is what it was asked to insert. -/
lemma mem_of_mem_enqueue {r : JobRecord} (h : n' ∈ (r.enqueue n).notifications) :
    n' ∈ r.notifications ∨ n' = n := by
  unfold JobRecord.enqueue at h
  split at h
  · exact Or.inl h
  · exact (List.mem_append.mp h).imp_right List.mem_singleton.mp

lemma coherent_terminalNotification {tx : Tx} {job : Job} {event : JobEventType}
    {status : JobStatus} {result : Option Dict} {code message : Option String} {now : Time} :
    (terminalNotification tx job event status result code message now).Coherent settings :=
  coherent_of_fresh rfl rfl rfl rfl

/-- A row found after a step that delivers nothing was there before, or no delivery has tried it
yet. -/
lemma notificationRow_of_jobStep (h : JobStep s j l life')
    (hother : ∀ io tx locked batchSize now,
      l ≠ .sweep (.deliverNotifications io) tx locked batchSize now)
    (hn' : n' ∈ life'.record.notifications) :
    n' ∈ (s.db.record j).notifications ∨ n'.Coherent settings := by
  have hoffered : ∀ {r n}, life'.record = JobRecord.enqueue r n →
      r.notifications = (s.db.record j).notifications → n.Coherent settings →
      n' ∈ (s.db.record j).notifications ∨ n'.Coherent settings := by
    intro r n hrecord hsame hcoherent
    rw [hrecord] at hn'
    rcases mem_of_mem_enqueue hn' with hbefore | rfl
    · exact Or.inl (hsame ▸ hbefore)
    · exact Or.inr hcoherent
  cases h with
  | cancelled | leaseFailed | expired => exact hoffered rfl rfl coherent_terminalNotification
  | finalized e outcome job =>
      cases outcome with
      | retry => exact Or.inl hn'
      | succeeded | failed | cancelled => exact hoffered rfl rfl coherent_terminalNotification
  | notified => exact absurd rfl (hother _ _ _ _ _)
  | idle | tick | created | cancelRequested | claimed | heartbeat | progressed | heartbeatFailed
  | decided | superseded | left | dispatched | promoted | requeued | redelivered =>
      exact Or.inl hn'

/-- What a step does to the notifications. -/
inductive NotificationRow (s : System settings.workerConcurrency) (id : UUID)
    (row' : Option NotificationOutbox) : Prop
  | kept (hsame : row' = s.db.notificationOutbox.get? id)
  | inserted (m : NotificationOutbox) (hnone : s.db.notificationOutbox.get? id = none)
      (hrow : row' = some m) (hcoherent : m.Coherent settings)
  | delivered (m : NotificationOutbox) (io : DeliveryInputs)
      (hrow : s.db.notificationOutbox.get? id = some m) (hpending : m.status = .pending)
      (hwritten : row' = some (written settings io m m))

lemma notificationRow_of_step (hlinked : ∀ i, Linked (s.life i))
    (hstep : s.step settings l = some s') (id : UUID) :
    NotificationRow s id (s'.db.notificationOutbox.get? id) := by
  by_cases hdelivers : ∃ io tx locked batchSize now,
      l = .sweep (.deliverNotifications io) tx locked batchSize now
  · obtain ⟨io, tx, locked, batchSize, now, rfl⟩ := hdelivers
    obtain ⟨-, -, pushes, hrun⟩ := step_sweep hstep
    obtain ⟨db, hdispatch, heq⟩ := Option.map_eq_some_iff.mp hrun
    obtain ⟨rfl, -⟩ := Prod.mk.inj heq
    obtain ⟨hothers, hclaimed⟩ := rows_of_dispatchDue hdispatch
    by_cases hmem : id ∈ (claimDue s.db locked now batchSize).map NotificationOutbox.id
    · obtain ⟨n, hn, rfl⟩ := List.mem_map.mp hmem
      exact .delivered n io (Table.get?_of_mem_select hn) (pending_of_claimDue hn) (hclaimed n hn)
    · exact .kept (hothers id hmem)
  · have hother : ∀ io tx locked batchSize now,
        l ≠ .sweep (.deliverNotifications io) tx locked batchSize now := by
      intro io tx locked batchSize now heq
      exact hdelivers ⟨io, tx, locked, batchSize, now, heq⟩
    cases hrow : s.db.notificationOutbox.get? id with
    | some n => exact .kept ((notification_of_step hlinked hstep hother hrow).trans hrow.symm)
    | none =>
        cases hrow' : s'.db.notificationOutbox.get? id with
        | none => exact .kept hrow.symm
        | some n' =>
            obtain ⟨hmem', rfl⟩ := Table.get?_eq_some.mp hrow'
            have hrecord : n' ∈ (s'.db.record n'.jobId).notifications :=
              Table.mem_children.mpr ⟨hmem', rfl⟩
            rcases notificationRow_of_jobStep (jobStep_of_step hlinked n'.jobId hstep) hother
              hrecord with hbefore | hcoherent
            · have hsome := Table.get?_of_mem (Table.mem_children.mp hbefore).1
              cases hrow.symm.trans hsome
            · exact .inserted n' hrow rfl hcoherent

lemma coherent_of_reachable (h : (orchestrator settings).Reachable Always s) (id : UUID) :
    ∀ n, s.db.notificationOutbox.get? id = some n → n.Coherent settings := by
  refine h.invariant (I := fun s => ∀ n, s.db.notificationOutbox.get? id = some n →
    n.Coherent settings) ?_ ?_
  · rintro s ⟨clock, rfl⟩ n hn
    cases hn
  · intro s l s' hreach _ hstep hbefore n' hn'
    cases notificationRow_of_step (linked_of_reachable hreach) hstep id with
    | kept hsame => exact hbefore n' (hsame.symm.trans hn')
    | inserted n'' _ hrow hcoherent =>
        obtain rfl := Option.some.inj (hrow.symm.trans hn')
        exact hcoherent
    | delivered n io hrow hpending hwritten =>
        obtain rfl := Option.some.inj (hwritten.symm.trans hn')
        exact coherent_written (hbefore n hrow) hpending

/-- What a later state still says of a notification: the same message for the same destination, no
fewer attempts, and the same row once it is settled. -/
structure NotificationOutbox.Continues (n n' : NotificationOutbox) : Prop where
  announcement : announcement n' = announcement n
  attempts : n.attempts ≤ n'.attempts
  settled : n.status ≠ .pending → n' = n

lemma continues_written {io : DeliveryInputs} (hpending : n.status = .pending) :
    n.Continues (written settings io n n) := by
  have hopen : ∀ n' : NotificationOutbox, n.status ≠ .pending → n' = n :=
    fun _ hne => absurd hpending hne
  rcases @written_cases settings io n with
    ⟨now, hwritten⟩ | ⟨message, -, hwritten⟩ | ⟨t, message, -, hwritten⟩ | hwritten
  · exact hwritten ▸ ⟨rfl, Nat.le_succ _, hopen _⟩
  · exact hwritten ▸ ⟨rfl, Nat.le_succ _, hopen _⟩
  · exact hwritten ▸ ⟨rfl, Nat.le_succ _, hopen _⟩
  · exact hwritten.symm ▸ ⟨rfl, le_rfl, fun _ => rfl⟩

lemma notification_continues (h : (orchestrator settings).Reachable Always s)
    (hsteps : (orchestrator settings).Steps Always s s') {id : UUID}
    (hrow : s.db.notificationOutbox.get? id = some n) :
    ∃ n', s'.db.notificationOutbox.get? id = some n' ∧ n.Continues n' := by
  refine h.preserves (I := fun t => ∃ n', t.db.notificationOutbox.get? id = some n' ∧
    n.Continues n') (fun _ _ _ => trivial) ?_ hsteps ⟨n, hrow, rfl, le_rfl, fun _ => rfl⟩
  rintro t l t' hreach - hstep ⟨n₁, hrow₁, hbefore⟩
  cases notificationRow_of_step (linked_of_reachable hreach) hstep id with
  | kept hsame => exact ⟨n₁, hsame.trans hrow₁, hbefore⟩
  | inserted _ hnone => cases hnone.symm.trans hrow₁
  | delivered n₂ io hrow₂ hpending hwritten =>
      obtain rfl := Option.some.inj (hrow₁.symm.trans hrow₂)
      have hnext : n₁.Continues (written settings io n₁ n₁) := continues_written hpending
      refine ⟨_, hwritten, hnext.announcement.trans hbefore.announcement,
        hbefore.attempts.trans hnext.attempts, fun hsettled => ?_⟩
      obtain rfl := hbefore.settled hsettled
      exact hnext.settled hsettled

/-- **A notification is settled once.**  In every reachable state the columns of every notification
agree: it has a time of delivery if and only if it was sent, an error if and only if its last
delivery failed, and it has failed exactly when its attempts are used up.  Its row is there in every
later state with the same message for the same destination, its attempts are only counted up, and
once it is sent or has failed it is never written again. -/
theorem notification_settled_once (h : (orchestrator settings).Reachable Always s)
    (hsteps : (orchestrator settings).Steps Always s s') (hn : n ∈ s.db.notificationOutbox.rows) :
    n.Coherent settings ∧ ∃ n' ∈ s'.db.notificationOutbox.rows, n.Continues n' := by
  have hrow : s.db.notificationOutbox.get? n.id = some n := Table.get?_of_mem hn
  obtain ⟨n', hrow', hcontinues⟩ := notification_continues h hsteps hrow
  exact ⟨coherent_of_reachable h n.id n hrow, n', (Table.get?_eq_some.mp hrow').1, hcontinues⟩

/-- A notification that fails once and is delivered by the next sweep. -/
theorem notification_settled_once_retried : ∃ (s s' : System 4) (n n' : NotificationOutbox),
    n ∈ s.db.notificationOutbox.rows ∧ n.status = .pending ∧ n.attempts = 1 ∧
      n.Coherent {} ∧ n' ∈ s'.db.notificationOutbox.rows ∧ n.Continues n' := by
  obtain ⟨s, hbefore, hs⟩ := exists_of_run (T := orchestrator {}) (System.start 4 0)
    (Scenario.notifying 0 1 "https://example.com/hook" ++
      [.sweep (.deliverNotifications ⟨fun _ => .httpError "refused", fun _ => 0,
        fun _ => 2000000⟩) (Scenario.tx 9) [] 10 0])
    (fun s => s.db.notificationOutbox.rows.any fun n => (n.status = .pending && n.attempts = 1) &&
      ((orchestrator {}).run s [.tick 2000000, .sweep (.deliverNotifications
        ⟨fun _ => .delivered, fun _ => 2000000, fun _ => 0⟩) (Scenario.tx 10) [] 10 2000000]).any
          fun s' => s'.db.notificationOutbox.rows.any fun n => n.status = .sent) (by decide +kernel)
  obtain ⟨n, hn, hboth⟩ := List.any_eq_true.mp hs
  obtain ⟨hpending, hrun⟩ := Bool.and_eq_true_iff.mp hboth
  obtain ⟨hstatus, hattempts⟩ := Bool.and_eq_true_iff.mp hpending
  obtain ⟨s', hsteps, -⟩ := exists_of_run _ _ _ hrun
  obtain ⟨hcoherent, n', hn', hcontinues⟩ := notification_settled_once ⟨_, ⟨0, rfl⟩, hbefore⟩
    hsteps hn
  exact ⟨s, s', n, n', hn, of_decide_eq_true hstatus, of_decide_eq_true hattempts, hcoherent, hn',
    hcontinues⟩

end Step

end JobOrchestrator
