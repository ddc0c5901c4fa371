import JobOrchestrator.Properties.Transitions

/-!
# What is delivered

A delivery cannot be rolled back.  `Delivering` adds to the state of the system the deliveries
that succeeded, in their order, and a delivery sweep adds its own to them whether its
transaction commits or is aborted by a delivery that raises.

Each notification is delivered at most once, and its row tells the outcome of its own delivery,
in every run in which no batch mixes deliveries that raise with deliveries that do not.
-/

namespace JobOrchestrator

open NotificationService NotificationOutboxRepository TransitionSystem

variable {settings : Settings}

/-- The system, and the notifications whose delivery succeeded. -/
structure Delivering (concurrency : ℕ) where
  system : System concurrency
  delivered : List UUID

namespace Delivering

variable {concurrency : ℕ}

/-- A step of the system; an aborted delivery sweep is a step that leaves the database alone. -/
def step (settings : Settings) (w : Delivering concurrency) :
    Label concurrency → Option (Delivering concurrency)
  | .sweep (.deliverNotifications io) tx locked batchSize now =>
      if w.system.timely tx now && Sweep.timely settings w.system.db locked batchSize now
          w.system.clock (.deliverNotifications io) then
        some {
          system := (w.system.step settings
            (.sweep (.deliverNotifications io) tx locked batchSize now)).getD w.system
          delivered :=
            w.delivered ++ deliveries io (claimDue w.system.db locked now batchSize) }
      else none
  | l => (w.system.step settings l).map fun system => { w with system }

end Delivering

/-- The system with its deliveries, from any database whose rows hang together. -/
def delivering (settings : Settings) : TransitionSystem (Delivering settings.workerConcurrency)
    (Label settings.workerConcurrency) where
  init w := (∀ j, Linked (w.system.life j)) ∧ w.delivered = []
  step w l := w.step settings l

/-- The row of every notification of a batch tells the outcome of its own delivery. -/
def RecordsOutcomes (w : Delivering settings.workerConcurrency)
    (l : Label settings.workerConcurrency) (w' : Delivering settings.workerConcurrency) : Prop :=
  match l with
  | .sweep (.deliverNotifications io) _ locked batchSize now =>
      ∀ n ∈ claimDue w.system.db locked now batchSize,
        w'.system.db.notificationOutbox.get? n.id = some (written settings io n n)
  | _ => True

/-- Of the deliveries of a batch none raises, or all do. -/
def Delivering.unmixed {concurrency : ℕ} (w : Delivering concurrency) : Label concurrency → Bool
  | .sweep (.deliverNotifications io) _ locked batchSize now =>
      (claimDue w.system.db locked now batchSize).all (fun n => io.outcome n.id ≠ .raised) ||
        (claimDue w.system.db locked now batchSize).all fun n => io.outcome n.id = .raised
  | _ => true

/-! ## Batches -/

section Batch

variable {concurrency : ℕ} {w : Delivering concurrency} {io : DeliveryInputs} {tx : Tx}
  {locked : List UUID} {batchSize : ℕ} {now : Time}

lemma unmixed_of_committed {db : Database}
    (h : dispatchDue settings io w.system.db locked batchSize now = some db) :
    w.unmixed (.sweep (.deliverNotifications io) tx locked batchSize now) := by
  have hquiet : ∀ n ∈ claimDue w.system.db locked now batchSize, io.outcome n.id ≠ .raised := by
    rw [← dispatchDue_isSome, h]
    rfl
  simp only [Delivering.unmixed, Bool.or_eq_true, List.all_eq_true, decide_eq_true_eq]
  exact Or.inl hquiet

lemma unmixed_of_aborted (h : dispatchDue settings io w.system.db locked batchSize now = none) :
    w.unmixed (.sweep (.deliverNotifications io) tx locked batchSize now) ↔
      ∀ n ∈ claimDue w.system.db locked now batchSize, io.outcome n.id = .raised := by
  have hraises : ¬ ∀ n ∈ claimDue w.system.db locked now batchSize, io.outcome n.id ≠ .raised := by
    rw [← dispatchDue_isSome, h]
    exact Bool.false_ne_true
  simp only [Delivering.unmixed, Bool.or_eq_true, List.all_eq_true, decide_eq_true_eq]
  exact or_iff_right hraises

end Batch

/-! ## Steps -/

section Step

variable {w w' : Delivering settings.workerConcurrency} {l : Label settings.workerConcurrency}

/-- The steps of the system with its deliveries. -/
inductive DeliveringStep (w : Delivering settings.workerConcurrency) :
    Label settings.workerConcurrency → Delivering settings.workerConcurrency → Prop
  | committed (io tx locked batchSize now) (s' : System settings.workerConcurrency)
      (hstep : w.system.step settings (.sweep (.deliverNotifications io) tx locked batchSize now) =
        some s')
      (hdispatch : dispatchDue settings io w.system.db locked batchSize now = some s'.db) :
      DeliveringStep w (.sweep (.deliverNotifications io) tx locked batchSize now)
        ⟨s', w.delivered ++ deliveries io (claimDue w.system.db locked now batchSize)⟩
  | aborted (io tx locked batchSize now)
      (hdispatch : dispatchDue settings io w.system.db locked batchSize now = none) :
      DeliveringStep w (.sweep (.deliverNotifications io) tx locked batchSize now)
        ⟨w.system, w.delivered ++ deliveries io (claimDue w.system.db locked now batchSize)⟩
  | other (l : Label settings.workerConcurrency) (s' : System settings.workerConcurrency)
      (hstep : w.system.step settings l = some s')
      (hother : ∀ io tx locked batchSize now,
        l ≠ .sweep (.deliverNotifications io) tx locked batchSize now) :
      DeliveringStep w l ⟨s', w.delivered⟩

lemma deliveringStep_of_step (h : (delivering settings).step w l = some w') :
    DeliveringStep w l w' := by
  change w.step settings l = some w' at h
  unfold Delivering.step at h
  split at h
  · rename_i io tx locked batchSize now
    split at h
    · rename_i htimely
      obtain rfl := Option.some.inj h
      have hstep : w.system.step settings
          (.sweep (.deliverNotifications io) tx locked batchSize now) =
          (dispatchDue settings io w.system.db locked batchSize now).map
            fun db => { w.system with db, unpublished := w.system.unpublished ++ [] } := by
        refine (if_pos htimely).trans ?_
        rw [Sweep.run, Option.map_map]
        rfl
      cases hdispatch : dispatchDue settings io w.system.db locked batchSize now with
      | none =>
          rw [hstep, hdispatch]
          exact .aborted io tx locked batchSize now hdispatch
      | some db =>
          rw [hdispatch] at hstep
          rw [hstep]
          exact .committed io tx locked batchSize now _ hstep hdispatch
    · cases h
  · rename_i hother
    obtain ⟨s', hstep, rfl⟩ := Option.map_eq_some_iff.mp h
    exact .other l s' hstep hother

/-- Only a delivery sweep writes notifications that exist. -/
lemma mem_notifications_of_jobStep {s : System settings.workerConcurrency} {j : UUID}
    {life' : Life settings.workerConcurrency} (h : JobStep s j l life')
    (hother : ∀ io tx locked batchSize now,
      l ≠ .sweep (.deliverNotifications io) tx locked batchSize now)
    {n : NotificationOutbox} (hn : n ∈ (s.db.record j).notifications) :
    n ∈ life'.record.notifications := by
  cases h with
  | cancelled | leaseFailed | expired => exact JobRecord.mem_enqueue hn
  | finalized => exact ExecutionService.mem_finalized hn
  | notified => exact absurd rfl (hother _ _ _ _ _)
  | idle | tick | created | cancelRequested | claimed | heartbeat | progressed | heartbeatFailed
  | decided | superseded | left | dispatched | promoted | requeued | redelivered => exact hn

lemma notification_of_step {s s' : System settings.workerConcurrency}
    (hlinked : ∀ i, Linked (s.life i)) (h : s.step settings l = some s')
    (hother : ∀ io tx locked batchSize now,
      l ≠ .sweep (.deliverNotifications io) tx locked batchSize now)
    {id : UUID} {n : NotificationOutbox} (hn : s.db.notificationOutbox.get? id = some n) :
    s'.db.notificationOutbox.get? id = some n := by
  obtain ⟨hmem, rfl⟩ := Table.get?_eq_some.mp hn
  have hrecord : n ∈ (s.db.record n.jobId).notifications := Table.mem_children.mpr ⟨hmem, rfl⟩
  have hstep : JobStep s n.jobId l (s'.life n.jobId) := jobStep_of_step hlinked n.jobId h
  have hkept : n ∈ (s'.db.record n.jobId).notifications :=
    mem_notifications_of_jobStep hstep hother hrecord
  exact Table.get?_of_mem (Table.mem_children.mp hkept).1

/-- A database that the system can start from stays one. -/
lemma linked_of_deliveringStep (h : DeliveringStep w l w')
    (hlinked : ∀ j, Linked (w.system.life j)) (j : UUID) : Linked (w'.system.life j) := by
  have hstep : ∀ l s', w.system.step settings l = some s' → Linked (s'.life j) := by
    intro l s' hs'
    exact linked_of_jobStep (hlinked j) (jobStep_of_step hlinked j hs')
  cases h with
  | committed _ _ _ _ _ s' hs' => exact hstep _ s' hs'
  | aborted => exact hlinked j
  | other _ s' hs' => exact hstep _ s' hs'

end Step

/-! ## Delivered once -/

/-- The deliveries so far concern different notifications, and none of them is pending. -/
structure DeliveredOnce (w : Delivering settings.workerConcurrency) : Prop where
  linked : ∀ j, Linked (w.system.life j)
  nodup : w.delivered.Nodup
  settled : ∀ id ∈ w.delivered, ∃ n,
    w.system.db.notificationOutbox.get? id = some n ∧ n.status ≠ .pending

section Once

variable {w w' : Delivering settings.workerConcurrency} {l : Label settings.workerConcurrency}

/-- A batch is claimed among the pending notifications, so nothing in it was delivered before. -/
lemma nodup_append_deliveries (hw : DeliveredOnce w) (io : DeliveryInputs) (locked : List UUID)
    (batchSize : ℕ) (now : Time) :
    (w.delivered ++ deliveries io (claimDue w.system.db locked now batchSize)).Nodup := by
  have hnew : (deliveries io (claimDue w.system.db locked now batchSize)).Nodup :=
    deliveries_sublist.nodup Table.nodup_select
  refine hw.nodup.append hnew ?_
  intro id hold hdelivered
  obtain ⟨n, hn, rfl⟩ := List.mem_map.mp (deliveries_sublist.subset hdelivered)
  obtain ⟨m, hm, hsettled⟩ := hw.settled n.id hold
  have hrow : w.system.db.notificationOutbox.get? n.id = some n := Table.get?_of_mem_select hn
  obtain rfl := Option.some.inj (hm.symm.trans hrow)
  exact hsettled (pending_of_claimDue hn)

/-- Under the condition, a step leaves nothing that was delivered pending. -/
lemma deliveredOnce_of_deliveringStep (h : DeliveringStep w l w') (hw : DeliveredOnce w)
    (hunmixed : w.unmixed l) : DeliveredOnce w' := by
  have hlinked := linked_of_deliveringStep h hw.linked
  cases h with
  | committed io tx locked batchSize now s' hstep hdispatch =>
      obtain ⟨hother, hclaimed⟩ := rows_of_dispatchDue hdispatch
      refine ⟨hlinked, nodup_append_deliveries hw io locked batchSize now, ?_⟩
      intro id hid
      rcases List.mem_append.mp hid with hold | hnew
      · obtain ⟨n, hn, hsettled⟩ := hw.settled id hold
        refine ⟨n, ?_, hsettled⟩
        rw [hother id, hn]
        -- a batch is claimed among the pending rows
        intro hbatch
        obtain ⟨m, hm, rfl⟩ := List.mem_map.mp hbatch
        obtain rfl := Option.some.inj (hn.symm.trans (Table.get?_of_mem_select hm))
        exact hsettled (pending_of_claimDue hm)
      · have hdelivered := delivered_of_mem_deliveries hnew
        obtain ⟨n, hn, rfl⟩ := List.mem_map.mp (deliveries_sublist.subset hnew)
        refine ⟨_, hclaimed n hn, ?_⟩
        rw [written, hdelivered]
        exact NotificationStatus.noConfusion
  | aborted io tx locked batchSize now hdispatch =>
      rw [deliveries_of_raised ((unmixed_of_aborted hdispatch).mp hunmixed), List.append_nil]
      exact hw
  | other l s' hstep hother =>
      refine ⟨hlinked, hw.nodup, ?_⟩
      intro id hid
      obtain ⟨n, hn, hsettled⟩ := hw.settled id hid
      exact ⟨n, notification_of_step hw.linked hstep hother hn, hsettled⟩

/-- The rows of a batch tell the outcomes of their own deliveries exactly when none of these
raises or all do: a raise takes back what was written for the others. -/
lemma recordsOutcomes_iff (h : DeliveringStep w l w') : RecordsOutcomes w l w' ↔ w.unmixed l := by
  cases h with
  | committed io tx locked batchSize now s' hstep hdispatch =>
      exact ⟨fun _ => unmixed_of_committed hdispatch, fun _ => (rows_of_dispatchDue hdispatch).2⟩
  | aborted io tx locked batchSize now hdispatch =>
      have hrow : ∀ n ∈ claimDue w.system.db locked now batchSize,
          w.system.db.notificationOutbox.get? n.id = some n := fun n hn =>
        Table.get?_of_mem_select hn
      rw [unmixed_of_aborted hdispatch]
      constructor
      · intro hrecords n hn
        exact written_eq_self.mp (Option.some.inj ((hrecords n hn).symm.trans (hrow n hn)))
      · intro hraised n hn
        rw [written_eq_self.mpr (hraised n hn)]
        exact hrow n hn
  | other l s' hstep hother =>
      unfold RecordsOutcomes Delivering.unmixed
      split
      · exact absurd rfl (hother _ _ _ _ _)
      · simp

end Once

/-! ## Two notifications -/

namespace Scenario

def notifying (call : ℕ) (n : Fin (2 ^ 128)) (webhook : String) : List (Label 4) :=
  [.submit call ⟨"user", .flaky, [("notify_webhook", .str webhook)], .normal, some 1, none⟩,
    .submission call ⟨0, ⟨n⟩, ⟨n⟩, ⟨n⟩, fun _ => ⟨n⟩, fun _ => ⟨n⟩⟩ 0,
    .submission call ⟨0, ⟨n⟩, ⟨n⟩, ⟨n⟩, fun _ => ⟨n⟩, fun _ => ⟨n⟩⟩ 0,
    .cancel (tx n) ⟨n⟩ "user" none 0]

/-- A delivery sweep in which the delivery of the second notification ends as given. -/
def deliver (second : NotificationService.Delivery) : Label 4 :=
  .sweep (.deliverNotifications
    ⟨fun id => if id = ⟨1⟩ then .delivered else second, fun _ => 0, fun _ => 2000000⟩) (tx 9) [] 10 0

def deployed : Delivering 4 := ⟨.start 4 0, []⟩

/-- Two jobs whose webhooks wait, the second of them an address that `httpx` cannot parse. -/
def twoNotifications : List (Label 4) :=
  notifying 0 1 "https://example.com/hook" ++ notifying 1 2 "http://["

lemma init_deployed : (delivering {}).init deployed := ⟨fun _ => linked_start 0, rfl⟩

end Scenario

end JobOrchestrator
