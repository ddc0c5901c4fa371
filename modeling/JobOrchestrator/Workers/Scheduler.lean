import JobOrchestrator.Lifecycle.WorkerStep

/-!
# The scheduler

`app/workers/scheduler.py`.  A tick runs the six sweeps one after the other; each of them
publishes what it has collected before the next one begins.  `tick` composes steps of the system
and is `none` when one of them is not possible: an exception leaves the tick, and what it has
committed so far stays.
-/

namespace JobOrchestrator

open TransitionSystem

namespace Scheduler

variable (settings : Settings) (batchSize : ℕ)

/-- The loop behind the transaction of a sweep. -/
def publishAll (s : System settings.workerConcurrency) (pushes : List Push) :
    Option (System settings.workerConcurrency) :=
  pushes.foldlM (fun s push => s.step settings (.publish push)) s

/-- What a sweep draws from outside: its transaction, and the clock as it reads it. -/
structure SweepInputs where
  tx : Tx
  now : Time

/-- One sweep while no other transaction holds rows of its tables: its transaction, and then the
pushes it has collected. -/
def sweep (s : System settings.workerConcurrency) (kind : Sweep) (inputs : SweepInputs) :
    Option (System settings.workerConcurrency) :=
  (s.step settings (.sweep kind inputs.tx [] batchSize inputs.now)).bind fun t =>
    publishAll settings t (t.unpublished.drop s.unpublished.length)

/-- What the sweeps of a tick draw from outside. -/
structure TickInputs where
  dispatchPending : SweepInputs
  promoteDue : SweepInputs
  reapExpired : SweepInputs
  redeliverStuck : SweepInputs
  stamp : UUID → Time
  expireStale : SweepInputs
  dispatchDue : SweepInputs
  io : NotificationService.DeliveryInputs

/-- `tick` -/
def tick (inputs : TickInputs) (s : System settings.workerConcurrency) :
    Option (System settings.workerConcurrency) := do
  let s ← sweep settings batchSize s .dispatchPending inputs.dispatchPending
  let s ← sweep settings batchSize s .promoteDue inputs.promoteDue
  let s ← sweep settings batchSize s .reapExpired inputs.reapExpired
  let s ← sweep settings batchSize s (.redeliverStuck inputs.stamp) inputs.redeliverStuck
  let s ← sweep settings batchSize s .expireStale inputs.expireStale
  sweep settings batchSize s (.deliverNotifications inputs.io) inputs.dispatchDue

/-! ## A sweep and its pushes -/

section Sweep

variable {settings} {batchSize} {s t : System settings.workerConcurrency} {kind : Sweep}
  {pushes : List Push}

/-- The loop succeeds while its pushes are waiting, and changes only the queue and what waits. -/
lemma publishAll_eq_some {rest : List Push} (h : s.unpublished.Perm (rest ++ pushes)) :
    ∃ t, publishAll settings s pushes = some t ∧ t.db = s.db ∧ t.clock = s.clock := by
  induction pushes generalizing s with
  | nil => exact ⟨s, rfl, rfl, rfl⟩
  | cons push pushes ih =>
      have hperm : (rest ++ push :: pushes).Perm (push :: (rest ++ pushes)) := List.perm_middle
      have hmem : push ∈ s.unpublished := (h.trans hperm).mem_iff.mpr List.mem_cons_self
      let t : System settings.workerConcurrency :=
        { s with queue := s.queue.push push, unpublished := s.unpublished.erase push }
      have hstep : s.step settings (.publish push) = some t := if_pos hmem
      have hrest : t.unpublished.Perm (rest ++ pushes) := by
        have herase := (h.trans hperm).erase push
        rwa [List.erase_cons_head] at herase
      obtain ⟨u, hu, hdb, hclock⟩ := ih hrest
      refine ⟨u, ?_, hdb, hclock⟩
      rw [publishAll, List.foldlM_cons, hstep]
      exact hu

lemma steps_of_publishAll (h : publishAll settings s pushes = some t) :
    (orchestrator settings).Steps Always s t := by
  have hrun : (orchestrator settings).run s (pushes.map Label.publish) = some t := by
    rw [run, List.foldlM_map]
    exact h
  exact steps_of_run hrun

/-- A sweep whose transaction commits also publishes what it has collected. -/
lemma sweep_of_step (inputs : SweepInputs) {u : System settings.workerConcurrency}
    (h : s.step settings (.sweep kind inputs.tx [] batchSize inputs.now) = some u) :
    ∃ t, sweep settings batchSize s kind inputs = some t ∧ t.db = u.db ∧ t.clock = s.clock ∧
      (orchestrator settings).Steps Always s t := by
  have hcollected : ∃ pushes, u.unpublished = s.unpublished ++ pushes ∧ u.clock = s.clock := by
    cases systemStep_of_step h with
    | sweep _ _ _ _ _ _ pushes => exact ⟨pushes, rfl, rfl⟩
  obtain ⟨pushes, hunpublished, hclock⟩ := hcollected
  have hdrop : u.unpublished.drop s.unpublished.length = pushes := by
    rw [hunpublished, List.drop_left]
  obtain ⟨t, ht, hdb, hclock'⟩ := publishAll_eq_some (List.Perm.of_eq hunpublished)
  refine ⟨t, ?_, hdb, hclock'.trans hclock, ?_⟩
  · rw [sweep, h, Option.bind_some, hdrop]
    exact ht
  · have hstep : (orchestrator settings).Steps Always s u :=
      Steps.single (l := .sweep kind inputs.tx [] batchSize inputs.now) trivial h
    exact hstep.trans (steps_of_publishAll ht)

end Sweep

end Scheduler

end JobOrchestrator
