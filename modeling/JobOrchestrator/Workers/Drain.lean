import JobOrchestrator.Workers.Scheduler

/-!
# One job, attempt after attempt

The sequential driver that `_drain` of the retry tests stands for: execute the job, and when it is
left `RETRYING` or its worker has died wait and run the sweep that puts it back, until it has ended.
Every action of the driver is a step of the system.
-/

namespace JobOrchestrator

open ExecutionService TransitionSystem

/-- How a handler ends, when its job is not cancelled. -/
inductive HandlerExit
  | returned (result : Dict)
  | raised (error : HandlerError)

def HandlerExit.action : HandlerExit → WorkerAction
  | .returned result => .handlerReturns result
  | .raised error => .handlerRaises error

/-- How an attempt ends. -/
inductive Ending
  | ended (exit : HandlerExit)
  /-- The worker dies before its finalizing transaction: while the handler runs, or some steps
  after the handler has ended. -/
  | crashed (exit : Option HandlerExit) (steps : ℕ)

/-- The attempt decides the job, whatever its number is. -/
def Ending.decides : Ending → Bool
  | .ended (.returned _) | .ended (.raised (.nonRetryable ..)) => true
  | _ => false

def Ending.crashes : Ending → Bool
  | .crashed .. => true
  | .ended _ => false

/-- What the attempts draw from outside; the `n`-th attempt is the one with number `n + 1`. -/
structure Attempts (concurrency : ℕ) where
  ending : ℕ → Ending
  coroutine : ℕ → Coroutine concurrency
  claimTx : ℕ → Tx
  finalizeTx : ℕ → Tx
  sweepTx : ℕ → Tx
  /-- How long the handler runs, in microseconds. -/
  duration : ℕ → ℕ
  /-- `compute_backoff_seconds`, in microseconds. -/
  backoff : ℕ → ℕ
  /-- How much longer than necessary the driver waits. -/
  spare : ℕ → ℕ
  batchSize : ℕ → ℕ
  batchSize_pos : ∀ n, 1 ≤ batchSize n
  /-- A worker process that has died takes no other attempt. -/
  alive : ∀ n k, (ending n).crashes → n < k → (coroutine k).workerId ≠ (coroutine n).workerId

namespace Attempts

variable (settings : Settings) (a : Attempts settings.workerConcurrency) (n : ℕ)

/-- The transaction begins at once. -/
def begun (tx : Tx) (clock : Time) : Tx := { tx with began := clock }

/-- What the execution of the `n`-th attempt does next after its handler. -/
def nextAction (clock : Time) : Stage → Option WorkerAction
  | .handler => none
  | .deciding .. => some .readCancellation
  | .backingOff .. => some (.computeBackoff clock (a.backoff n))
  | .finalizing _ => some (.finalize (begun (a.finalizeTx n) clock) clock)
  | .deadLettering => some .pushDeadLetter
  | .returning _ => some .returns

/-- What it does next before its finalizing transaction. -/
def nextActionBefore (clock : Time) : Stage → Option WorkerAction
  | .finalizing _ => none
  | stage => a.nextAction settings n clock stage

/-- Take the actions that `next` names, at most so many. -/
def proceed (next : Time → Stage → Option WorkerAction) :
    ℕ → System settings.workerConcurrency → Option (System settings.workerConcurrency)
  | 0, s => some s
  | k + 1, s =>
      match s.workers (a.coroutine n) with
      | .executing e =>
          match next s.clock e.stage with
          | none => some s
          | some action =>
              (s.step settings (.worker (a.coroutine n) action)).bind (proceed next k)
      | _ => some s

/-- The end of the `n`-th attempt.  After its handler a call takes at most five steps. -/
def finish (s : System settings.workerConcurrency) : Option (System settings.workerConcurrency) :=
  match a.ending n with
  | .ended exit =>
      (s.step settings (.worker (a.coroutine n) exit.action)).bind
        (a.proceed settings n (a.nextAction settings n) 5)
  | .crashed exit steps => do
      let s ← exit.elim (some s) fun exit =>
        s.step settings (.worker (a.coroutine n) exit.action)
      let s ← a.proceed settings n (a.nextActionBefore settings n) steps s
      s.step settings (.crash (a.coroutine n).workerId)

/-- The call of `execute` up to the end of its attempt. -/
def execute (s : System settings.workerConcurrency) :
    Option (System settings.workerConcurrency) := do
  let s ← s.step settings (.worker (a.coroutine n) .consume)
  let s ← s.step settings (.worker (a.coroutine n) (.claim (begun (a.claimTx n) s.clock) s.clock))
  let s ← s.step settings (.tick (a.duration n))
  a.finish settings n s

/-- After an attempt that has not ended the job: wait until the retry is due and promote it, or
wait until the lease has expired and reap it. -/
def putBack (j : UUID) (s : System settings.workerConcurrency) :
    Option (System settings.workerConcurrency) :=
  match (s.db.jobs.get? j).map Job.status with
  | some .retrying => do
      let s ← s.step settings (.tick (a.backoff n + a.spare n))
      Scheduler.sweep settings (a.batchSize n) s .promoteDue ⟨begun (a.sweepTx n) s.clock, s.clock⟩
  | some .running => do
      let s ← s.step settings
        (.tick ((seconds settings.workerLeaseSeconds).toNat + 1 + a.spare n))
      Scheduler.sweep settings (a.batchSize n) s .reapExpired
        ⟨begun (a.sweepTx n) s.clock, s.clock⟩
  | _ => some s

/-- `_drain`: at most so many attempts, from the `n`-th one on. -/
def drain (j : UUID) : ℕ → ℕ → System settings.workerConcurrency →
    Option (System settings.workerConcurrency)
  | 0, _, s => some s
  | k + 1, n, s =>
      if (s.db.jobs.get? j).any fun job => job.status.isTerminal then some s
      else do
        let s ← a.execute settings n s
        let s ← a.putBack settings n j s
        drain j k (n + 1) s

/-! ## The driver takes steps of the system -/

section Steps

variable {settings} {a} {n} {s s' : System settings.workerConcurrency}

lemma steps_of_step {l : Label settings.workerConcurrency} (h : s.step settings l = some s') :
    (orchestrator settings).Steps Always s s' := Steps.single (l := l) trivial h

lemma steps_of_proceed {next : Time → Stage → Option WorkerAction} {k : ℕ}
    (h : a.proceed settings n next k s = some s') :
    (orchestrator settings).Steps Always s s' := by
  induction k generalizing s with
  | zero =>
      obtain rfl := Option.some.inj h
      exact Steps.refl s
  | succ k ih =>
      unfold proceed at h
      split at h
      · split at h
        · obtain rfl := Option.some.inj h
          exact Steps.refl s
        · obtain ⟨t, ht, hrest⟩ := Option.bind_eq_some_iff.mp h
          exact (steps_of_step ht).trans (ih hrest)
      · obtain rfl := Option.some.inj h
        exact Steps.refl s

lemma steps_of_finish (h : a.finish settings n s = some s') :
    (orchestrator settings).Steps Always s s' := by
  unfold finish at h
  split at h
  · obtain ⟨t, ht, hrest⟩ := Option.bind_eq_some_iff.mp h
    exact (steps_of_step ht).trans (steps_of_proceed hrest)
  · rename_i exit steps _
    obtain ⟨t, ht, hrest⟩ := Option.bind_eq_some_iff.mp h
    obtain ⟨u, hu, hcrash⟩ := Option.bind_eq_some_iff.mp hrest
    have hlast : (orchestrator settings).Steps Always t s' :=
      (steps_of_proceed hu).trans (steps_of_step hcrash)
    cases exit with
    | none =>
        obtain rfl := Option.some.inj ht
        exact hlast
    | some exit =>
        have hexit : s.step settings (.worker (a.coroutine n) exit.action) = some t := ht
        exact (steps_of_step hexit).trans hlast

lemma steps_of_execute (h : a.execute settings n s = some s') :
    (orchestrator settings).Steps Always s s' := by
  obtain ⟨t, ht, h⟩ := Option.bind_eq_some_iff.mp h
  obtain ⟨u, hu, h⟩ := Option.bind_eq_some_iff.mp h
  obtain ⟨v, hv, h⟩ := Option.bind_eq_some_iff.mp h
  exact (steps_of_step ht).trans
    ((steps_of_step hu).trans ((steps_of_step hv).trans (steps_of_finish h)))

lemma steps_of_sweep {kind : Sweep} {batchSize : ℕ} {inputs : Scheduler.SweepInputs}
    (h : Scheduler.sweep settings batchSize s kind inputs = some s') :
    (orchestrator settings).Steps Always s s' := by
  obtain ⟨t, ht, hrest⟩ := Option.bind_eq_some_iff.mp h
  exact (steps_of_step ht).trans (Scheduler.steps_of_publishAll hrest)

lemma steps_of_putBack {j : UUID} (h : a.putBack settings n j s = some s') :
    (orchestrator settings).Steps Always s s' := by
  unfold putBack at h
  split at h
  · obtain ⟨t, ht, hsweep⟩ := Option.bind_eq_some_iff.mp h
    exact (steps_of_step ht).trans (steps_of_sweep hsweep)
  · obtain ⟨t, ht, hsweep⟩ := Option.bind_eq_some_iff.mp h
    exact (steps_of_step ht).trans (steps_of_sweep hsweep)
  · obtain rfl := Option.some.inj h
    exact Steps.refl s

/-- A run of the driver is a run of the system. -/
theorem steps_of_drain {j : UUID} {k : ℕ} (h : a.drain settings j k n s = some s') :
    (orchestrator settings).Steps Always s s' := by
  induction k generalizing n s with
  | zero =>
      obtain rfl := Option.some.inj h
      exact Steps.refl s
  | succ k ih =>
      unfold drain at h
      split at h
      · obtain rfl := Option.some.inj h
        exact Steps.refl s
      · obtain ⟨t, ht, h⟩ := Option.bind_eq_some_iff.mp h
        obtain ⟨u, hu, h⟩ := Option.bind_eq_some_iff.mp h
        exact (steps_of_execute ht).trans ((steps_of_putBack hu).trans (ih h))

end Steps

end Attempts

end JobOrchestrator
