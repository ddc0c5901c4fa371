import JobOrchestrator.Db.Columns
import JobOrchestrator.Properties.Alone
import JobOrchestrator.Properties.Exclusion
import JobOrchestrator.Properties.Handlers
import JobOrchestrator.Workers.Handled

/-!
# Cooperative cancellation

A running job that is asked to stop does so at the next checkpoint of its handler.  While its lease
is not lost the execution of a job is its only open one, so nothing but its own finalizing
transaction can end the job, and what it finalizes was decided by the first checkpoint after the
request, or by the handler if no checkpoint was left.
-/

namespace JobOrchestrator

open ExecutionService CancellationService TransitionSystem

variable {settings : Settings}

/-! ## The events of a terminal status -/

/-- A job that has ended has one event and one notification of that kind. -/
lemma announced_once {s : System settings.workerConcurrency} {j : UUID} {job : Job}
    {eventType : JobEventType}
    {C : System settings.workerConcurrency → Label settings.workerConcurrency → Prop}
    (h : (orchestrator settings).Reachable C s) (hrow : (s.db.record j).row = some job)
    (hevent : job.status.terminalEventType = some eventType)
    (hending : eventType.ends) :
    (s.db.record j).events.countP (fun e => e.eventType = eventType) = 1 ∧
      (s.db.record j).notifications.map NotificationOutbox.eventType = [eventType] := by
  have hrecorded : Recorded (s.db.record j) := recorded_of_reachable h j
  have hannounced : Announced (s.db.record j) := announced_of_reachable h j
  rw [Recorded, terminalEvent_of_row hrow, hevent, Option.toList_some] at hrecorded
  rw [Announced, terminalEvent_of_row hrow, hevent, Option.toList_some] at hannounced
  refine ⟨?_, hannounced⟩
  have hone : ((s.db.record j).events.map JobEvent.eventType).countP (· = eventType) = 1 := by
    have hcount := congrArg (List.countP (· = eventType)) hrecorded
    rw [List.countP_filter] at hcount
    refine (List.countP_congr fun t _ => ?_).trans (hcount.trans (by simp))
    simp only [Bool.and_eq_true, decide_eq_true_eq]
    exact ⟨fun ht => ⟨ht, ht ▸ hending⟩, And.left⟩
  rw [← hone, List.countP_map]
  rfl

/-! ## The steps of an execution -/

/-- The job keeps its lease, and the task neither dies nor loses a call of its finalizing
transaction. -/
def Undisturbed (j : UUID) (c : Coroutine settings.workerConcurrency)
    (h : Handled settings.workerConcurrency) : HandledLabel settings.workerConcurrency → Prop
  | .handler _ => True
  | .other l => KeepsLease j h.system l ∧ l ≠ .crash c.workerId ∧ l ≠ .worker c .stop ∧
      l ≠ .worker c .fails

/-- The task executes the job and is at the stage. -/
def System.at (s : System settings.workerConcurrency) (c : Coroutine settings.workerConcurrency)
    (j : UUID) (stage : Stage) : Prop :=
  ∃ e, s.workers c = .executing e ∧ e.jobId = j ∧ e.stage = stage

section Execution

variable {s s' : System settings.workerConcurrency} {c : Coroutine settings.workerConcurrency}
  {l : Label settings.workerConcurrency} {j : UUID} {stage : Stage}

/-- What the rest of the system leaves of an execution: its stage, unless it finalizes. -/
lemma at_of_other (hstep : s.step settings l = some s') (hat : s.at c j stage)
    (hstage : stage = .handler ∧ ¬ l.ofHandler c ∨ ∃ outcome, stage = .finalizing outcome)
    (hcrash : l ≠ .crash c.workerId) (hstop : l ≠ .worker c .stop) (hfails : l ≠ .worker c .fails) :
    s'.at c j stage ∨ ∃ tx now, l = .worker c (.finalize tx now) := by
  obtain ⟨e, he, hjob, rfl⟩ := hat
  rcases consumer_of_step hstep c with hsame | ⟨rfl, -⟩ | ⟨action, rfl, hworker⟩
  · exact Or.inl ⟨e, hsame.trans he, hjob, rfl⟩
  · exact absurd rfl hcrash
  · cases hworker with
    | consumed _ _ hidle => cases he.symm.trans hidle
    | claimed _ _ _ _ _ hdelivered => cases he.symm.trans hdelivered
    | claimFailed => exact absurd rfl hfails
    | stopped => exact absurd rfl hstop
    | heartbeat => exact Or.inl ⟨e, he, hjob, rfl⟩
    | heartbeatFailed e' he' =>
        obtain rfl := Consumer.executing.inj (he.symm.trans he')
        exact Or.inl ⟨_, System.become_self .., hjob, rfl⟩
    | passed => exact Or.inl ⟨e, he, hjob, rfl⟩
    | progressed => exact Or.inl ⟨e, he, hjob, rfl⟩
    | resumed e' _ _ he' hresumes =>
        obtain rfl := Consumer.executing.inj (he.symm.trans he')
        rcases hstage with ⟨hhandler, hfree⟩ | ⟨outcome, hfinalizing⟩
        · cases hresumes with
          | cancelled | returned | raised => simp [Label.ofHandler, WorkerAction.ofHandler] at hfree
          | read _ _ hdeciding => cases hhandler.symm.trans hdeciding
          | backedOff _ _ _ _ hbackingOff => cases hhandler.symm.trans hbackingOff
          | failed => exact absurd rfl hfails
        · cases hresumes with
          | cancelled hhandler | returned _ hhandler | raised _ hhandler =>
              cases hfinalizing.symm.trans hhandler
          | read _ _ hdeciding => cases hfinalizing.symm.trans hdeciding
          | backedOff _ _ _ _ hbackingOff => cases hfinalizing.symm.trans hbackingOff
          | failed => exact absurd rfl hfails
    | finalized _ _ tx now => exact Or.inr ⟨tx, now, rfl⟩
    | deadLettered e' he' hlettering =>
        obtain rfl := Consumer.executing.inj (he.symm.trans he')
        rcases hstage with ⟨hhandler, -⟩ | ⟨outcome, hfinalizing⟩
        · cases hhandler.symm.trans hlettering
        · cases hfinalizing.symm.trans hlettering
    | returned e' _ he' hreturning =>
        obtain rfl := Consumer.executing.inj (he.symm.trans he')
        rcases hstage with ⟨hhandler, -⟩ | ⟨outcome, hfinalizing⟩
        · cases hhandler.symm.trans hreturning
        · cases hfinalizing.symm.trans hreturning

lemma handling_of_at (hat : s.at c j .handler) : s.handling c := by
  obtain ⟨e, he, -, hstage⟩ := hat
  exact handling_iff.mpr ⟨e, he, hstage⟩

lemma not_handling_of_at {outcome : Outcome} (hat : s.at c j (.finalizing outcome)) :
    ¬ s.handling c := by
  obtain ⟨e, he, -, hfinalizing⟩ := hat
  intro hhandling
  obtain ⟨e', he', hhandler⟩ := handling_iff.mp hhandling
  obtain rfl := Consumer.executing.inj (he.symm.trans he')
  cases hfinalizing.symm.trans hhandler

/-- A checkpoint raises exactly when the job is cancelled. -/
lemma step_checkCancelled (hat : s.at c j .handler)
    (hstep : s.step settings (.worker c .checkCancelled) = some s') :
    cancellationRequested s.db j ∧ s'.at c j (.finalizing .cancelled) ∨
      ¬ cancellationRequested s.db j ∧ s' = s := by
  obtain ⟨e, he, rfl, hstage⟩ := hat
  simp only [step_executing he, System.executionStep, hstage] at hstep
  split at hstep
  · rename_i hrequested
    obtain rfl := Option.some.inj hstep
    exact Or.inl ⟨hrequested, _, System.resume_self .., rfl, rfl⟩
  · rename_i hnone
    exact Or.inr ⟨hnone, (Option.some.inj hstep).symm⟩

lemma step_reportProgress {progress : Fin 101} {now : Time} (hat : s.at c j .handler)
    (hstep : s.step settings (.worker c (.reportProgress progress now)) = some s') :
    s'.at c j .handler := by
  obtain ⟨e, he, hjob, hstage⟩ := hat
  simp only [step_executing he, System.executionStep, hstage] at hstep
  split at hstep
  · cases hstep
  · obtain rfl := Option.some.inj hstep
    exact ⟨e, he, hjob, hstage⟩

lemma step_handlerReturns {result : Dict} (hat : s.at c j .handler)
    (hstep : s.step settings (.worker c (.handlerReturns result)) = some s') :
    s'.at c j (.finalizing (.succeeded result)) := by
  obtain ⟨e, he, hjob, hstage⟩ := hat
  simp only [step_executing he, System.executionStep, hstage] at hstep
  obtain rfl := Option.some.inj hstep
  exact ⟨_, System.resume_self .., hjob, rfl⟩

end Execution

/-! ## The steps of a handler -/

/-- How a running handler that has the calls `rest` to make goes on. -/
inductive HandlerMove (result : Dict) (c : Coroutine settings.workerConcurrency) (j : UUID)
    (h : Handled settings.workerConcurrency) (rest : List ContextCall)
    (h' : Handled settings.workerConcurrency) : Prop
  | waited (hat : h'.system.at c j .handler) (hmade : h'.made = h.made)
      (hremaining : h'.remaining = some rest)
  | called (call rest') (hrest : rest = call :: rest') (hat : h'.system.at c j .handler)
      (hmade : h'.made = h.made ++ [call]) (hremaining : h'.remaining = some rest')
      (hpassed : call = .checkCancelled → ¬ cancellationRequested h.system.db j)
  | raised (rest') (hrest : rest = .checkCancelled :: rest')
      (hat : h'.system.at c j (.finalizing .cancelled))
      (hmade : h'.made = h.made ++ [.checkCancelled]) (hremaining : h'.remaining = none)
  | returned (hrest : rest = []) (hat : h'.system.at c j (.finalizing (.succeeded result)))
      (hmade : h'.made = h.made) (hremaining : h'.remaining = none)

section Handler

variable {h h' : Handled settings.workerConcurrency} {c : Coroutine settings.workerConcurrency}
  {l : HandledLabel settings.workerConcurrency} {j : UUID} {result : Dict}
  {rest : List ContextCall}

lemma handlerMove_of_step (hat : h.system.at c j .handler) (hremaining : h.remaining = some rest)
    (hstep : (handled settings c (.returned result)).step h l = some h')
    (hundisturbed : Undisturbed j c h l) : HandlerMove result c j h rest h' := by
  cases handledStep_of_step hstep with
  | other l system hfree hsystem =>
      obtain ⟨-, hcrash, hstop, hfails⟩ := hundisturbed
      have hfree : ¬ l.ofHandler c := hfree (by rw [hremaining]; rfl)
      rcases at_of_other hsystem hat (Or.inl ⟨rfl, hfree⟩) hcrash hstop hfails with
        hat' | ⟨tx, now, rfl⟩
      · rw [after_of_handling (handling_of_at hat')]
        exact .waited hat' rfl hremaining
      · obtain ⟨e, he, -, hstage⟩ := hat
        simp [step_executing he, System.executionStep, hstage] at hsystem
  | left now system hempty hexit =>
      obtain rfl := Option.some.inj (hremaining.symm.trans hempty)
      have hat' := step_handlerReturns hat hexit
      rw [after_of_not_handling (not_handling_of_at hat')]
      exact .returned rfl hat' rfl rfl
  | called now call rest' system hrest hcall =>
      obtain rfl := Option.some.inj (hremaining.symm.trans hrest)
      cases call with
      | checkCancelled =>
          rcases step_checkCancelled hat hcall with ⟨hrequested, hat'⟩ | ⟨hnone, rfl⟩
          · rw [after_of_not_handling (not_handling_of_at hat')]
            exact .raised rest' rfl hat' rfl rfl
          · rw [after_of_handling (handling_of_at hat)]
            exact .called _ rest' rfl hat rfl rfl fun _ => hnone
      | sleep seconds =>
          obtain rfl := Option.some.inj hcall
          rw [after_of_handling (handling_of_at hat)]
          exact .called _ rest' rfl hat rfl rfl fun heq => by cases heq
      | reportProgress progress =>
          simp only [Handled.call] at hcall
          split at hcall
          · have hat' := step_reportProgress hat hcall
            rw [after_of_handling (handling_of_at hat')]
            exact .called _ rest' rfl hat' rfl rfl fun heq => by cases heq
          · cases hcall

/-- Once its handler has ended an execution waits for its finalizing transaction. -/
lemma finalizing_of_step {outcome : Outcome} (hat : h.system.at c j (.finalizing outcome))
    (hremaining : h.remaining = none)
    (hstep : (handled settings c (.returned result)).step h l = some h')
    (hundisturbed : Undisturbed j c h l) :
    h'.made = h.made ∧ h'.remaining = none ∧ (h'.system.at c j (.finalizing outcome) ∨
      ∃ tx now, h.system.step settings (.worker c (.finalize tx now)) = some h'.system) := by
  cases handledStep_of_step hstep with
  | other l system hfree hsystem =>
      obtain ⟨-, hcrash, hstop, hfails⟩ := hundisturbed
      have hnone : (Handled.after settings c system h.made h.remaining).remaining = none := by
        rw [hremaining, Handled.after, ite_self]
      refine ⟨rfl, hnone, ?_⟩
      rcases at_of_other hsystem hat (Or.inr ⟨outcome, rfl⟩) hcrash hstop hfails with
        hat' | ⟨tx, now, rfl⟩
      · exact Or.inl hat'
      · exact Or.inr ⟨tx, now, hsystem⟩
  | left _ _ hempty => cases hremaining.symm.trans hempty
  | called _ _ _ _ hrest => cases hremaining.symm.trans hrest

/-- The system takes a step, or the handler sleeps. -/
lemma system_of_step (hstep : (handled settings c (.returned result)).step h l = some h')
    (hundisturbed : Undisturbed j c h l) :
    h'.system = h.system ∨
      ∃ k, KeepsLease j h.system k ∧ h.system.step settings k = some h'.system := by
  cases handledStep_of_step hstep with
  | other l system hfree hsystem => exact Or.inr ⟨l, hundisturbed.1, hsystem⟩
  | left now system hempty hexit =>
      exact Or.inr ⟨.worker c (.handlerReturns result), trivial, hexit⟩
  | called now call rest' system hrest hcall =>
      cases call with
      | checkCancelled => exact Or.inr ⟨.worker c .checkCancelled, trivial, hcall⟩
      | sleep seconds =>
          obtain rfl := Option.some.inj hcall
          exact Or.inl rfl
      | reportProgress progress =>
          simp only [Handled.call] at hcall
          split at hcall
          · exact Or.inr ⟨.worker c (.reportProgress _ now), trivial, hcall⟩
          · cases hcall

lemma reachable_of_step (hreach : (orchestrator settings).Reachable (KeepsLease j) h.system)
    (hstep : (handled settings c (.returned result)).step h l = some h')
    (hundisturbed : Undisturbed j c h l) :
    (orchestrator settings).Reachable (KeepsLease j) h'.system := by
  rcases system_of_step hstep hundisturbed with hsame | ⟨k, hkeeps, hsystem⟩
  · rw [hsame]
    exact hreach
  · exact hreach.steps (Steps.single hkeeps hsystem)

end Handler

/-! ## Before and after the request -/

/-- An execution that keeps its lease ends its job when it commits a result or a cancellation. -/
lemma row_of_finalize {s s' : System settings.workerConcurrency}
    {c : Coroutine settings.workerConcurrency} {j : UUID} {outcome : Outcome} {tx : Tx} {now : Time}
    (hreach : (orchestrator settings).Reachable (KeepsLease j) s)
    (hat : s.at c j (.finalizing outcome))
    (houtcome : outcome = .cancelled ∨ ∃ result, outcome = .succeeded result)
    (hstep : s.step settings (.worker c (.finalize tx now)) = some s') :
    ∃ job, (s'.db.record j).row = some ((outcome.finalizer.update c.workerId now).values job) := by
  obtain ⟨e, he, rfl, hstage⟩ := hat
  have hlife := (s.life_executions e.jobId).mpr ⟨he, rfl⟩
  obtain ⟨job, hrow, hlocked, hactive⟩ :=
    (heldOnce_of_reachable hreach).held c e hlife (by rw [hstage]; rfl)
  have hguard : (outcome.finalizer.update c.workerId now).guard job := by
    rcases houtcome with rfl | ⟨result, rfl⟩
    · exact JobRepository.finalizeCancelledByWorker_guard.mpr ⟨hlocked, hactive⟩
    · exact JobRepository.markSucceeded_guard.mpr ⟨hlocked, hactive⟩
  obtain ⟨outcome', hstage', hcases⟩ := step_finalize (linked_of_reachable hreach e.jobId) he hstep
  obtain rfl := Stage.finalizing.inj (hstage.symm.trans hstage')
  rcases hcases with ⟨job', hrow', -, hrecord⟩ | ⟨hmissed, -⟩
  · refine ⟨job', ?_⟩
    rw [hrecord, Function.update_self]
    exact finalized_row
  · exact absurd hguard (hmissed job hrow)

/-- An execution that has not been asked to stop, or has ended. -/
inductive Underway (calls : List ContextCall) (result : Dict)
    (c : Coroutine settings.workerConcurrency) (j : UUID)
    (h : Handled settings.workerConcurrency) : Prop
  | handling (rest) (hat : h.system.at c j .handler) (hremaining : h.remaining = some rest)
      (hcalls : h.made ++ rest = calls)
  | returned (hat : h.system.at c j (.finalizing (.succeeded result)))
      (hremaining : h.remaining = none) (hcalls : h.made = calls)
  | stopped (hat : h.system.at c j (.finalizing .cancelled)) (hremaining : h.remaining = none)
  | ended (job) (hremaining : h.remaining = none) (hrow : (h.system.db.record j).row = some job)
      (hterminal : job.status.isTerminal)

/-- What an execution finalizes that was asked to stop after the calls `made₁`, with `rest₁` ahead
of it, and the calls that it has made by then. -/
inductive Settles (result : Dict) (made₁ rest₁ made : List ContextCall) : Outcome → Prop
  | stopped (hleft : .checkCancelled ∈ rest₁)
      (hmade : made = made₁ ++ rest₁.takeWhile (· ≠ .checkCancelled) ++ [.checkCancelled]) :
      Settles result made₁ rest₁ made .cancelled
  | finished (hleft : .checkCancelled ∉ rest₁) (hmade : made = made₁ ++ rest₁) :
      Settles result made₁ rest₁ made (.succeeded result)

/-- An execution that was asked to stop. -/
inductive Stopping (result : Dict) (made₁ rest₁ : List ContextCall)
    (c : Coroutine settings.workerConcurrency) (j : UUID)
    (h : Handled settings.workerConcurrency) : Prop
  | handling (done rest) (hat : h.system.at c j .handler) (hremaining : h.remaining = some rest)
      (hmade : h.made = made₁ ++ done) (hsplit : rest₁ = done ++ rest)
      (hdone : .checkCancelled ∉ done)
  | finalizing (outcome) (hat : h.system.at c j (.finalizing outcome))
      (hremaining : h.remaining = none) (hsettles : Settles result made₁ rest₁ h.made outcome)
  | ended (outcome now job) (hremaining : h.remaining = none)
      (hrow : (h.system.db.record j).row =
        some ((outcome.finalizer.update c.workerId now).values job))
      (hsettles : Settles result made₁ rest₁ h.made outcome)

section Request

variable {h h' : Handled settings.workerConcurrency} {c : Coroutine settings.workerConcurrency}
  {l : HandledLabel settings.workerConcurrency} {j : UUID} {result : Dict}
  {calls made₁ rest₁ : List ContextCall}

lemma Settles.outcome_eq {made : List ContextCall} {outcome : Outcome}
    (h : Settles result made₁ rest₁ made outcome) :
    outcome = .cancelled ∨ ∃ result, outcome = .succeeded result := by
  cases h with
  | stopped => exact Or.inl rfl
  | finished => exact Or.inr ⟨result, rfl⟩

lemma terminal_of_outcome {outcome : Outcome} {workerId : String} {now : Time} {job : Job}
    (h : outcome = .cancelled ∨ ∃ result, outcome = .succeeded result) :
    ((outcome.finalizer.update workerId now).values job).status.isTerminal := by
  rcases h with rfl | ⟨result, rfl⟩
  · exact (by decide : JobStatus.cancelled.isTerminal)
  · exact (by decide : JobStatus.succeeded.isTerminal)

/-- A job that has ended stays as it is. -/
lemma row_of_handled_terminal {job : Job}
    (hreach : (orchestrator settings).Reachable (KeepsLease j) h.system)
    (hrow : (h.system.db.record j).row = some job) (hterminal : job.status.isTerminal)
    (hstep : (handled settings c (.returned result)).step h l = some h')
    (hundisturbed : Undisturbed j c h l) : (h'.system.db.record j).row = some job := by
  rcases system_of_step hstep hundisturbed with hsame | ⟨k, -, hsystem⟩
  · rw [hsame]
    exact hrow
  · exact row_of_terminal (jobStep_of_step (linked_of_reachable hreach) j hsystem) hrow hterminal

/-- A handler that has ended makes no call. -/
lemma ended_of_step (hremaining : h.remaining = none)
    (hstep : (handled settings c (.returned result)).step h l = some h') :
    h'.made = h.made ∧ h'.remaining = none := by
  cases handledStep_of_step hstep with
  | other l system hfree hsystem =>
      refine ⟨rfl, ?_⟩
      rw [hremaining, Handled.after, ite_self]
  | left _ _ hempty => cases hremaining.symm.trans hempty
  | called _ _ _ _ hrest => cases hremaining.symm.trans hrest

/-- **Step lemma before the request.** -/
lemma underway_of_step (hreach : (orchestrator settings).Reachable (KeepsLease j) h.system)
    (hstep : (handled settings c (.returned result)).step h l = some h')
    (hundisturbed : Undisturbed j c h l) (hunderway : Underway calls result c j h) :
    Underway calls result c j h' := by
  cases hunderway with
  | handling rest hat hremaining hcalls =>
      cases handlerMove_of_step hat hremaining hstep hundisturbed with
      | waited hat' hmade hremaining' =>
          exact .handling rest hat' hremaining' (by rw [hmade]; exact hcalls)
      | called call rest' hrest hat' hmade hremaining' =>
          refine .handling rest' hat' hremaining' ?_
          rw [hmade, ← hcalls, hrest, List.append_assoc]
          rfl
      | raised rest' hrest hat' hmade hremaining' => exact .stopped hat' hremaining'
      | returned hrest hat' hmade hremaining' =>
          refine .returned hat' hremaining' ?_
          rw [hmade, ← hcalls, hrest, List.append_nil]
  | returned hat hremaining hcalls =>
      obtain ⟨hmade, hremaining', hat' | ⟨tx, now, hfinalize⟩⟩ :=
        finalizing_of_step hat hremaining hstep hundisturbed
      · exact .returned hat' hremaining' (hmade.trans hcalls)
      · have houtcome : Outcome.succeeded result = .cancelled ∨
            ∃ value, Outcome.succeeded result = .succeeded value := Or.inr ⟨result, rfl⟩
        obtain ⟨job, hrow⟩ := row_of_finalize hreach hat houtcome hfinalize
        exact .ended _ hremaining' hrow (terminal_of_outcome houtcome)
  | stopped hat hremaining =>
      obtain ⟨-, hremaining', hat' | ⟨tx, now, hfinalize⟩⟩ :=
        finalizing_of_step hat hremaining hstep hundisturbed
      · exact .stopped hat' hremaining'
      · have houtcome : Outcome.cancelled = .cancelled ∨
            ∃ value, Outcome.cancelled = .succeeded value := Or.inl rfl
        obtain ⟨job, hrow⟩ := row_of_finalize hreach hat houtcome hfinalize
        exact .ended _ hremaining' hrow (terminal_of_outcome houtcome)
  | ended job hremaining hrow hterminal =>
      exact .ended job (ended_of_step hremaining hstep).2
        (row_of_handled_terminal hreach hrow hterminal hstep hundisturbed) hterminal

/-- **Step lemma after the request.** -/
lemma stopping_of_step (hreach : (orchestrator settings).Reachable (KeepsLease j) h.system)
    (hrequested : cancellationRequested h.system.db j)
    (hstep : (handled settings c (.returned result)).step h l = some h')
    (hundisturbed : Undisturbed j c h l) (hstopping : Stopping result made₁ rest₁ c j h) :
    Stopping result made₁ rest₁ c j h' := by
  cases hstopping with
  | handling done rest hat hremaining hmade hsplit hdone =>
      cases handlerMove_of_step hat hremaining hstep hundisturbed with
      | waited hat' hmade' hremaining' =>
          exact .handling done rest hat' hremaining' (hmade'.trans hmade) hsplit hdone
      | called call rest' hrest hat' hmade' hremaining' hpassed =>
          refine .handling (done ++ [call]) rest' hat' hremaining' ?_ ?_ ?_
          · rw [hmade', hmade, List.append_assoc]
          · rw [hsplit, hrest, List.append_assoc]
            rfl
          · rw [List.mem_append, List.mem_singleton, not_or]
            exact ⟨hdone, fun hcheck => hpassed hcheck.symm hrequested⟩
      | raised rest' hrest hat' hmade' hremaining' =>
          refine .finalizing _ hat' hremaining' (.stopped ?_ ?_)
          · rw [hsplit, hrest]
            exact List.mem_append_right done List.mem_cons_self
          · have hpassed : ∀ call ∈ done, decide (call ≠ .checkCancelled) = true :=
              fun call hcall => decide_eq_true (ne_of_mem_of_not_mem hcall hdone)
            have hbefore : (done ++ .checkCancelled :: rest').takeWhile (· ≠ .checkCancelled) =
                done := by
              rw [List.takeWhile_append_of_pos hpassed]
              simp
            rw [hmade', hmade, hsplit, hrest, hbefore]
      | returned hrest hat' hmade' hremaining' =>
          rw [hrest, List.append_nil] at hsplit
          refine .finalizing _ hat' hremaining' (.finished ?_ ?_)
          · rw [hsplit]
            exact hdone
          · rw [hmade', hmade, hsplit]
  | finalizing outcome hat hremaining hsettles =>
      obtain ⟨hmade, hremaining', hat' | ⟨tx, now, hfinalize⟩⟩ :=
        finalizing_of_step hat hremaining hstep hundisturbed
      · exact .finalizing outcome hat' hremaining' (hmade ▸ hsettles)
      · obtain ⟨job, hrow⟩ := row_of_finalize hreach hat hsettles.outcome_eq hfinalize
        exact .ended outcome now job hremaining' hrow (hmade ▸ hsettles)
  | ended outcome now job hremaining hrow hsettles =>
      obtain ⟨hmade, hremaining'⟩ := ended_of_step hremaining hstep
      exact .ended outcome now job hremaining' (row_of_handled_terminal hreach hrow
        (terminal_of_outcome hsettles.outcome_eq) hstep hundisturbed) (hmade ▸ hsettles)

end Request

/-! ## The execution can always end -/

/-- The finalizing transaction of the task for the job is ahead. -/
def System.executes (s : System settings.workerConcurrency)
    (c : Coroutine settings.workerConcurrency) (j : UUID) : Prop :=
  ∃ e, s.workers c = .executing e ∧ e.jobId = j ∧ e.stage.isOpen

section Ending

variable {s s' : System settings.workerConcurrency} {h : Handled settings.workerConcurrency}
  {c : Coroutine settings.workerConcurrency} {j : UUID} {result : Dict} {outcome : Outcome}

/-- With a fresh id for its notification the finalizing transaction commits. -/
lemma exists_finalize (hreach : (orchestrator settings).Reachable (KeepsLease j) s)
    (hat : s.at c j (.finalizing outcome))
    (houtcome : outcome = .cancelled ∨ ∃ result, outcome = .succeeded result) :
    ∃ tx now s', s.step settings (.worker c (.finalize tx now)) = some s' ∧
      ¬ s'.executes c j := by
  obtain ⟨e, he, rfl, hstage⟩ := hat
  have hlife := (s.life_executions e.jobId).mpr ⟨he, rfl⟩
  obtain ⟨job, hrow, hlocked, hactive⟩ :=
    (heldOnce_of_reachable hreach).held c e hlife (by rw [hstage]; rfl)
  have hguard : (outcome.finalizer.update c.workerId s.clock).guard job := by
    rcases houtcome with rfl | ⟨result, rfl⟩
    · exact JobRepository.finalizeCancelledByWorker_guard.mpr ⟨hlocked, hactive⟩
    · exact JobRepository.markSucceeded_guard.mpr ⟨hlocked, hactive⟩
  have hterminal : ¬ job.status.isTerminal := by
    rcases hactive with hstatus | hstatus <;> rw [hstatus] <;> decide
  obtain ⟨s₀, hinit, hsteps⟩ := hreach
  have hreach' : (orchestrator settings).Reachable Always s :=
    ⟨s₀, hinit, hsteps.mono fun _ _ _ => trivial⟩
  obtain ⟨name, hinj, hnamed⟩ := exists_name hreach'
  let tx : Tx := ⟨s.clock, e.jobId, e.jobId, e.jobId, id, name⟩
  have hfree : s.db.notificationOutbox.get? (name e.jobId) = none :=
    free_of_named hinj hnamed hrow hterminal
  have hfresh : ∀ i, ∀ n ∈ (s.db.record i).notifications, n.id ≠ tx.notificationId e.jobId :=
    fun i n hn => Table.get?_eq_none.mp hfree n (Table.mem_children.mp hn).1
  obtain ⟨db, hstep, -⟩ := step_finalize_hit he hstage
    ((linked_of_reachable hreach' e.jobId).attempt_mem c e hlife) hrow hguard hfresh
  refine ⟨_, _, _, hstep, ?_⟩
  rintro ⟨e', he', -, hopen⟩
  rw [closed_of_finalize hstep he'] at hopen
  cases hopen

lemma exists_end_of_finalizing
    (hreach : (orchestrator settings).Reachable (KeepsLease j) h.system)
    (hat : h.system.at c j (.finalizing outcome)) (hremaining : h.remaining = none)
    (houtcome : outcome = .cancelled ∨ ∃ result, outcome = .succeeded result) :
    ∃ h', (handled settings c (.returned result)).Steps (Undisturbed j c) h h' ∧
      ¬ h'.system.executes c j := by
  obtain ⟨tx, now, s', hfinalize, hended⟩ := exists_finalize hreach hat houtcome
  have hstep : (handled settings c (.returned result)).step h
      (.other (.worker c (.finalize tx now))) =
        some (Handled.after settings c s' h.made h.remaining) := by
    refine handled_other (fun hsome => ?_) hfinalize
    rw [hremaining] at hsome
    cases hsome
  have hundisturbed : Undisturbed j c h (.other (.worker c (.finalize tx now))) :=
    ⟨trivial, nofun, nofun, nofun⟩
  exact ⟨_, Steps.single hundisturbed hstep, hended⟩

/-- A call of the handler returns, or it is the checkpoint that raises. -/
lemma exists_call (hat : h.system.at c j .handler) (call : ContextCall)
    (hrange : ∀ progress, call = .reportProgress progress → 0 ≤ progress ∧ progress ≤ 100) :
    ∃ s', h.call settings c h.system.clock call = some s' ∧
      (s'.at c j .handler ∨ s'.at c j (.finalizing .cancelled)) := by
  obtain ⟨e, he, hjob, hstage⟩ := hat
  cases call with
  | checkCancelled =>
      simp only [Handled.call, step_executing he, System.executionStep, hstage]
      split
      · exact ⟨_, rfl, Or.inr ⟨_, System.resume_self .., hjob, rfl⟩⟩
      · exact ⟨_, rfl, Or.inl ⟨e, he, hjob, hstage⟩⟩
  | sleep seconds => exact ⟨_, rfl, Or.inl ⟨e, he, hjob, hstage⟩⟩
  | reportProgress progress =>
      simp only [Handled.call, dif_pos (hrange progress rfl), step_executing he,
        System.executionStep, hstage, lt_irrefl, if_false]
      exact ⟨_, rfl, Or.inl ⟨e, he, hjob, hstage⟩⟩

lemma exists_end_of_handling {rest : List ContextCall}
    (hreach : (orchestrator settings).Reachable (KeepsLease j) h.system)
    (hat : h.system.at c j .handler) (hremaining : h.remaining = some rest)
    (hrange : ∀ progress, .reportProgress progress ∈ rest → 0 ≤ progress ∧ progress ≤ 100) :
    ∃ h', (handled settings c (.returned result)).Steps (Undisturbed j c) h h' ∧
      ¬ h'.system.executes c j := by
  induction rest generalizing h with
  | nil =>
      obtain ⟨e, he, hjob, hstage⟩ := hat
      have hstep : (handled settings c (.returned result)).step h (.handler h.system.clock) =
          some (Handled.after settings c
            (h.system.resume c e (.finalizing (.succeeded result))) h.made none) := by
        simp only [handled_step, Handled.step, hremaining, HandlerExit.action, step_executing he,
          System.executionStep, hstage, Option.map_some]
      have hat' : (h.system.resume c e (.finalizing (.succeeded result))).at c j
          (.finalizing (.succeeded result)) := ⟨_, System.resume_self .., hjob, rfl⟩
      have hafter : ∃ h', (handled settings c (.returned result)).Steps (Undisturbed j c)
          (Handled.after settings c (h.system.resume c e (.finalizing (.succeeded result))) h.made
            none) h' ∧ ¬ h'.system.executes c j :=
        exists_end_of_finalizing (reachable_of_step hreach hstep trivial) hat' (ite_self _)
          (Or.inr ⟨result, rfl⟩)
      obtain ⟨h', hsteps, hended⟩ := hafter
      exact ⟨h', (Steps.single trivial hstep).trans hsteps, hended⟩
  | cons call rest ih =>
      obtain ⟨s', hcall, hnext⟩ := exists_call hat call fun progress hprogress =>
        hrange progress (hprogress ▸ List.mem_cons_self)
      have hstep : (handled settings c (.returned result)).step h (.handler h.system.clock) =
          some (Handled.after settings c s' (h.made ++ [call]) (some rest)) := by
        simp only [handled_step, Handled.step, hremaining, hcall, Option.map_some]
      have hreach' := reachable_of_step hreach hstep trivial
      have hrest : ∃ h', (handled settings c (.returned result)).Steps (Undisturbed j c)
          (Handled.after settings c s' (h.made ++ [call]) (some rest)) h' ∧
            ¬ h'.system.executes c j := by
        rcases hnext with hat' | hat'
        · rw [after_of_handling (handling_of_at hat')] at hreach' ⊢
          exact ih hreach' hat' rfl fun progress hprogress =>
            hrange progress (List.mem_cons_of_mem call hprogress)
        · rw [after_of_not_handling (not_handling_of_at hat')] at hreach' ⊢
          exact exists_end_of_finalizing hreach' hat' rfl (Or.inl rfl)
      obtain ⟨h', hsteps, hended⟩ := hrest
      exact ⟨h', (Steps.single trivial hstep).trans hsteps, hended⟩

end Ending

/-! ## The scripts of the two handlers -/

section Scripts

open Script JobCatalog PyNumber

lemma ok_of_call {α β : Type} {x : Except HandlerException α} {f : α → Script β}
    {c : ContextCall} (h : c ∈ (ofExcept x >>= f).calls) : ∃ a, x = .ok a := by
  cases x with
  | ok a => exact ⟨a, rfl⟩
  | error e => cases h

/-- A sleep or report that reaches a checkpoint runs its steps and returns. -/
lemma handler_of_checkpoint {payload : Dict} {context : ExecutionContext} {type : JobType}
    (htype : type = .sleep ∨ type = .report)
    (h : .checkCancelled ∈ (handler payload context type).calls) :
    ∃ steps stepSeconds result, handler payload context type =
      ⟨(List.range steps.toNat).flatMap (stepCalls steps stepSeconds), .ok result⟩ := by
  rcases htype with rfl | rfl
  · rw [handler, handleSleep] at h
    obtain ⟨duration, hduration⟩ := ok_of_call h
    rw [ofExcept_bind hduration] at h
    obtain ⟨steps, hsteps⟩ := ok_of_call h
    rw [ofExcept_bind hsteps] at h
    obtain ⟨stepSeconds, hdivide⟩ := ok_of_call h
    exact ⟨steps, stepSeconds, _, handleSleep_of_ok hduration hsteps hdivide⟩
  · rw [handler, handleReport] at h
    obtain ⟨pages, hpages⟩ := ok_of_call h
    exact ⟨pages, context.settings.handlerStepSeconds, _, handleReport_of_ok hpages⟩

/-- A loop reports percentages. -/
lemma range_of_stepCalls {steps progress : ℤ} {stepSeconds : PyFloat}
    (h : .reportProgress progress ∈ (List.range steps.toNat).flatMap
      (stepCalls steps stepSeconds)) : 0 ≤ progress ∧ progress ≤ 100 := by
  obtain ⟨index, hindex, hcall⟩ := List.mem_flatMap.mp h
  have hlt : (index : ℤ) < steps := by
    have := List.mem_range.mp hindex
    omega
  obtain ⟨-, hrange⟩ := progressAt_of_lt hlt
  simp only [stepCalls, List.mem_cons, List.not_mem_nil, reduceCtorEq, or_false, false_or,
    ContextCall.reportProgress.injEq] at hcall
  rw [hcall]
  exact hrange

end Scripts

/-! ## Cooperative cancellation -/

section Phases

variable {s₀ s : System settings.workerConcurrency} {h h' : Handled settings.workerConcurrency}
  {c : Coroutine settings.workerConcurrency} {j : UUID} {result : Dict}
  {calls made₁ rest₁ : List ContextCall}

lemma at_of_claim {tx : Tx} {now : Time} {e : Execution} (hdelivered : s₀.workers c = .delivered j)
    (hclaim : s₀.step settings (.worker c (.claim tx now)) = some s)
    (he : s.workers c = .executing e) : s.at c j .handler := by
  have hstep : WorkerStep s₀ c (.claim tx now) s := workerStep_of_step hclaim
  cases hstep with
  | claimed _ _ jobId db won hdelivered' =>
      obtain rfl := Consumer.delivered.inj (hdelivered.symm.trans hdelivered')
      rw [System.become_self] at he
      cases won with
      | none => cases he
      | some claim => exact ⟨_, System.become_self .., rfl, rfl⟩
  | resumed _ _ _ _ hresumes => cases hresumes

lemma executes_of_at {stage : Stage} (hat : s.at c j stage) (hopen : stage.isOpen) :
    s.executes c j := by
  obtain ⟨e, he, hjob, rfl⟩ := hat
  exact ⟨e, he, hjob, hopen⟩

/-- Nobody executes a job that has ended. -/
lemma not_executes_of_terminal {job : Job}
    (hreach : (orchestrator settings).Reachable (KeepsLease j) s)
    (hrow : (s.db.record j).row = some job) (hterminal : job.status.isTerminal) :
    ¬ s.executes c j := by
  rintro ⟨e, he, hjob, hopen⟩
  obtain ⟨job', hrow', -, hactive⟩ :=
    (heldOnce_of_reachable hreach).held c e ((s.life_executions j).mpr ⟨he, hjob⟩) hopen
  obtain rfl := Option.some.inj (hrow.symm.trans hrow')
  rcases hactive with hstatus | hstatus <;> rw [hstatus] at hterminal <;>
    exact absurd hterminal (by decide)

lemma underway_of_steps (hreach : (orchestrator settings).Reachable (KeepsLease j) h.system)
    (hunderway : Underway calls result c j h)
    (hsteps : (handled settings c (.returned result)).Steps (Undisturbed j c) h h') :
    (orchestrator settings).Reachable (KeepsLease j) h'.system ∧ Underway calls result c j h' := by
  refine Steps.preserves (I := fun h => (orchestrator settings).Reachable (KeepsLease j) h.system ∧
    Underway calls result c j h) ?_ hsteps ⟨hreach, hunderway⟩
  rintro h l h' hundisturbed hstep ⟨hreach, hunderway⟩
  exact ⟨reachable_of_step hreach hstep hundisturbed,
    underway_of_step hreach hstep hundisturbed hunderway⟩

lemma stopping_of_steps (hreach : (orchestrator settings).Reachable (KeepsLease j) h.system)
    (hrequested : cancellationRequested h.system.db j)
    (hstopping : Stopping result made₁ rest₁ c j h)
    (hsteps : (handled settings c (.returned result)).Steps (Undisturbed j c) h h') :
    (orchestrator settings).Reachable (KeepsLease j) h'.system ∧
      Stopping result made₁ rest₁ c j h' := by
  have hall : (orchestrator settings).Reachable (KeepsLease j) h'.system ∧
      cancellationRequested h'.system.db j ∧ Stopping result made₁ rest₁ c j h' := by
    refine Steps.preserves (I := fun h =>
      (orchestrator settings).Reachable (KeepsLease j) h.system ∧
        cancellationRequested h.system.db j ∧ Stopping result made₁ rest₁ c j h) ?_ hsteps
      ⟨hreach, hrequested, hstopping⟩
    rintro h l h' hundisturbed hstep ⟨hreach, hrequested, hstopping⟩
    refine ⟨reachable_of_step hreach hstep hundisturbed, ?_,
      stopping_of_step hreach hrequested hstep hundisturbed hstopping⟩
    rcases system_of_step hstep hundisturbed with hsame | ⟨k, -, hsystem⟩
    · rw [hsame]
      exact hrequested
    · exact cancellationRequested_mono
        (jobStep_of_step (linked_of_reachable hreach) j hsystem) hrequested
  exact ⟨hall.1, hall.2.2⟩

/-- A request that commits finds the handler running, or its result on the way. -/
lemma stopping_of_cancel {tx : Tx} {userId : String} {reason : Option String} {now : Time}
    (hreach : (orchestrator settings).Reachable (KeepsLease j) h.system)
    (hunderway : Underway calls result c j h) (hrunning : h.system.status j = some .running)
    (hcancel : (handled settings c (.returned result)).step h
      (.other (.cancel tx j userId reason now)) = some h') :
    h.made ++ h.remaining.getD [] = calls ∧
      Stopping result h.made (h.remaining.getD []) c j h' := by
  obtain ⟨job, hrow, hstatus⟩ := Option.map_eq_some_iff.mp hrunning
  have hflag : FlagSound (h.system.life j) := flagSound_of_reachable hreach j
  cases handledStep_of_step hcancel with
  | other l system hfree hsystem =>
      have hkept : ∀ {stage : Stage}, h.system.at c j stage →
          (stage = .handler ∨ ∃ outcome, stage = .finalizing outcome) → system.at c j stage := by
        intro stage hat hstage
        have hstage' := hstage.imp_left fun hhandler => And.intro hhandler Bool.false_ne_true
        exact (at_of_other hsystem hat hstage' nofun nofun nofun).resolve_right nofun
      cases hunderway with
      | handling rest hat hremaining hcalls =>
          have hat' := hkept hat (Or.inl rfl)
          rw [after_of_handling (handling_of_at hat'), hremaining]
          exact ⟨hcalls, .handling [] rest hat' rfl (List.append_nil _).symm rfl
            List.not_mem_nil⟩
      | returned hat hremaining hcalls =>
          have hat' := hkept hat (Or.inr ⟨_, rfl⟩)
          rw [after_of_not_handling (not_handling_of_at hat'), hremaining]
          refine ⟨(List.append_nil _).trans hcalls, .finalizing _ hat' rfl ?_⟩
          exact .finished List.not_mem_nil (List.append_nil _).symm
      | stopped hat =>
          -- it would have seen an earlier request
          obtain ⟨e, he, hjob, hstage⟩ := hat
          have hrequested := hflag.observed c e ((h.system.life_executions j).mpr ⟨he, hjob⟩) hstage
          obtain ⟨job', hrow', hsome⟩ := (Option.any_eq_true ..).mp hrequested
          obtain rfl := Option.some.inj (hrow.symm.trans hrow')
          have hsettling := hflag.settling job hrow hsome
          rw [hstatus] at hsettling
          exact absurd hsettling (by decide)
      | ended job' _ hrow' hterminal =>
          obtain rfl := Option.some.inj (hrow.symm.trans hrow')
          rw [hstatus] at hterminal
          exact absurd hterminal (by decide)

end Phases

/-- **Cooperative cancellation.**  A task claims a sleep or report job that has a step, its handler
obeys its script, the job keeps its lease, the task does not die, and a cancel request commits while
the job is `RUNNING`.  Then the script returns a result, the execution can always end, and when it
has ended:

* if a checkpoint was left, the handler made the calls before it and raised there, the job is
  `CANCELLED`, with one event and one notification that say so;
* if none was left, the handler made all its calls, and the job is `SUCCEEDED` with its result, with
  one notification that says so. -/
theorem cooperative_cancellation {s₀ s : System settings.workerConcurrency}
    {c : Coroutine settings.workerConcurrency} {j : UUID} {tx : Tx} {now : Time} {e : Execution}
    {script : Script Dict} {exit : HandlerExit} {w₁ w₂ w₃ : Handled settings.workerConcurrency}
    {tx' : Tx} {userId : String} {reason : Option String} {now' : Time}
    (hreach : (orchestrator settings).Reachable (KeepsLease j) s₀)
    (hdelivered : s₀.workers c = .delivered j)
    (hclaim : s₀.step settings (.worker c (.claim tx now)) = some s)
    (he : s.workers c = .executing e)
    (htype : e.snapshot.type = .sleep ∨ e.snapshot.type = .report)
    (hscript : script = JobCatalog.handler e.snapshot.payload ⟨j.str, e.attemptNumber, settings⟩
      e.snapshot.type)
    (hsteps : .checkCancelled ∈ script.calls)
    (hexit : ∀ result, script.ending = .ok result → exit = .returned result)
    (hbefore : (handled settings c exit).Steps (Undisturbed j c) ⟨s, [], some script.calls⟩ w₁)
    (hrunning : w₁.system.status j = some .running)
    (hcancel : (handled settings c exit).step w₁
      (.other (.cancel tx' j userId reason now')) = some w₂)
    (hcancelling : w₂.system.status j = some .cancelling)
    (hafter : (handled settings c exit).Steps (Undisturbed j c) w₂ w₃) :
    ∃ result, script.ending = .ok result ∧
      w₁.made ++ w₁.remaining.getD [] = script.calls ∧
      (∃ w₄, (handled settings c exit).Steps (Undisturbed j c) w₃ w₄ ∧
        ¬ w₄.system.executes c j) ∧
      (¬ w₃.system.executes c j →
        ∃ job, w₃.system.db.jobs.get? j = some job ∧
        (.checkCancelled ∈ w₁.remaining.getD [] →
          w₃.made = w₁.made ++ (w₁.remaining.getD []).takeWhile (· ≠ .checkCancelled) ++
            [.checkCancelled] ∧
          job.status = .cancelled ∧
          (w₃.system.db.record j).events.countP (fun e => e.eventType = .cancelled) = 1 ∧
          (w₃.system.db.record j).notifications.map NotificationOutbox.eventType = [.cancelled]) ∧
        (.checkCancelled ∉ w₁.remaining.getD [] →
          w₃.made = script.calls ∧ job.status = .succeeded ∧ job.result = some result ∧
          (w₃.system.db.record j).notifications.map NotificationOutbox.eventType =
            [.succeeded])) := by
  obtain ⟨steps, stepSeconds, result, hloop⟩ := handler_of_checkpoint htype (hscript ▸ hsteps)
  rw [← hscript] at hloop
  obtain rfl : exit = .returned result := hexit result (congrArg Script.ending hloop)
  -- the request finds the execution at one of its calls, or past the last of them
  have hkeeps : KeepsLease j s₀ (.worker c (.claim tx now)) := trivial
  have hclaimed : (orchestrator settings).Reachable (KeepsLease j) s :=
    hreach.steps (Steps.single hkeeps hclaim)
  obtain ⟨hreach₁, hunderway⟩ := underway_of_steps (h := ⟨s, [], some script.calls⟩) hclaimed
    (.handling script.calls (at_of_claim hdelivered hclaim he) rfl (List.nil_append _)) hbefore
  obtain ⟨hcalls, hstopping⟩ := stopping_of_cancel hreach₁ hunderway hrunning hcancel
  have hreach₂ : (orchestrator settings).Reachable (KeepsLease j) w₂.system :=
    reachable_of_step hreach₁ hcancel ⟨trivial, nofun, nofun, nofun⟩
  have hrequested : cancellationRequested w₂.system.db j := by
    obtain ⟨job, hrow, hstatus⟩ := Option.map_eq_some_iff.mp hcancelling
    have hflag := (flagSound_of_reachable hreach₂ j).requested job hrow hstatus
    exact (Option.any_eq_true ..).mpr ⟨job, hrow, hflag⟩
  obtain ⟨hreach₃, hstopping₃⟩ := stopping_of_steps hreach₂ hrequested hstopping hafter
  refine ⟨result, congrArg Script.ending hloop, hcalls, ?_, fun hleft => ?_⟩
  · cases hstopping₃ with
    | handling done rest hat hremaining hmade hsplit hdone =>
        refine exists_end_of_handling hreach₃ hat hremaining fun progress hprogress => ?_
        have hcall : .reportProgress progress ∈ script.calls := by
          rw [← hcalls, hsplit]
          exact List.mem_append_right _ (List.mem_append_right done hprogress)
        rw [hloop] at hcall
        exact range_of_stepCalls hcall
    | finalizing outcome hat hremaining hsettles =>
        exact exists_end_of_finalizing hreach₃ hat hremaining hsettles.outcome_eq
    | ended outcome now job hremaining hrow hsettles =>
        exact ⟨w₃, Steps.refl _, not_executes_of_terminal hreach₃ hrow
          (terminal_of_outcome hsettles.outcome_eq)⟩
  · cases hstopping₃ with
    | handling done rest hat => exact absurd (executes_of_at hat rfl) hleft
    | finalizing outcome hat => exact absurd (executes_of_at hat rfl) hleft
    | ended outcome now job hremaining hrow hsettles =>
        refine ⟨_, hrow, ?_⟩
        cases hsettles with
        | stopped hcheckpoint hmade =>
            refine ⟨fun _ => ⟨hmade, rfl, announced_once hreach₃ hrow rfl rfl⟩, ?_⟩
            exact fun hnone => absurd hcheckpoint hnone
        | finished hnone hmade =>
            refine ⟨fun hcheckpoint => absurd hcheckpoint hnone, fun _ => ?_⟩
            exact ⟨hmade.trans hcalls, rfl, rfl, (announced_once hreach₃ hrow rfl rfl).2⟩

namespace Scenario

def reportPayload : Dict := [("pages", .int 2)]

/-- A report of two pages, up to its message. -/
def reportDelivered : List (Label 4) :=
  [.submit 0 ⟨"user", .report, reportPayload, .normal, some 3, none⟩, .submission 0 (tx 1) 0,
    .submission 0 (tx 1) 0] ++ dispatched ++ [.worker first .consume]

def unreaped : Label 4 → Bool
  | .sweep .reapExpired .. => false
  | _ => true

lemma keepsLease_of_unreaped {s : System 4} {l : Label 4} (h : unreaped l) :
    KeepsLease jobId s l := by
  unfold KeepsLease
  split
  · cases h
  · trivial

def isDelivered : Consumer → Bool
  | .delivered i => i = jobId
  | _ => false

lemma isDelivered_iff {consumer : Consumer} :
    isDelivered consumer ↔ consumer = .delivered jobId := by
  cases consumer with
  | delivered i => simp [isDelivered]
  | idle | executing | ended => simp [isDelivered]

def twoPages (payload : Dict) : Bool :=
  match payload.get "pages" with
  | some (.int 2) => true
  | _ => false

lemma item_of_twoPages {payload : Dict} (h : twoPages payload) :
    (payload.item "pages").bind (PyNumber.converted ·.pyInt) = .ok 2 := by
  unfold twoPages at h
  split at h
  · rename_i hpages
    rw [Dict.item, hpages]
    rfl
  · cases h

/-- The claim runs a report of two pages, and a cancel request right after it commits. -/
def claimsReport (s₀ : System 4) : Bool :=
  (s₀.step {} (.worker first (.claim (tx 3) 0))).any fun s =>
    ((s.workers first).on jobId).any (fun e =>
      e.snapshot.type = .report && twoPages e.snapshot.payload) &&
    s.status jobId = some .running &&
    (s.step {} (cancel 0)).any fun s' => s'.status jobId = some .cancelling

end Scenario

/-- A report of two pages that is asked to stop before its first checkpoint. -/
theorem cooperative_cancellation_report :
    ∃ (exit : HandlerExit) (calls : List ContextCall) (s : System 4) (w₂ w₃ : Handled 4),
      .checkCancelled ∈ calls ∧ s.status Scenario.jobId = some .running ∧
      (handled {} Scenario.first exit).step ⟨s, [], some calls⟩ (.other (Scenario.cancel 0)) =
        some w₂ ∧
      (handled {} Scenario.first exit).Steps (Undisturbed Scenario.jobId Scenario.first) w₂ w₃ ∧
      w₃.made = [.checkCancelled] ∧ w₃.system.status Scenario.jobId = some .cancelled := by
  obtain ⟨s₀, hsteps, hs₀⟩ := exists_of_runUnder (T := orchestrator {})
    (C := fun _ l => Scenario.unreaped l) (System.start 4 0) Scenario.reportDelivered
    (fun s => Scenario.isDelivered (s.workers Scenario.first) && Scenario.claimsReport s)
    (by decide +kernel)
  simp only [Bool.and_eq_true, Scenario.claimsReport] at hs₀
  obtain ⟨hdelivered, hclaims⟩ := hs₀
  obtain ⟨s, hclaim, hs⟩ := (Option.any_eq_true ..).mp hclaims
  simp only [Bool.and_eq_true, decide_eq_true_eq] at hs
  obtain ⟨⟨hexecution, hrunning⟩, hcancels⟩ := hs
  obtain ⟨e, he, hreport⟩ := (Option.any_eq_true ..).mp hexecution
  obtain ⟨he, -⟩ := Consumer.on_eq_some.mp he
  simp only [Bool.and_eq_true, decide_eq_true_eq] at hreport
  obtain ⟨s', hcancel, hcancelling⟩ := (Option.any_eq_true ..).mp hcancels
  have hcancelling := of_decide_eq_true hcancelling
  -- the script of the report
  let script := JobCatalog.handler e.snapshot.payload
    ⟨Scenario.jobId.str, e.attemptNumber, {}⟩ e.snapshot.type
  have hscript : script = _ :=
    (congrArg (JobCatalog.handler e.snapshot.payload _) hreport.1).trans
      (JobCatalog.handleReport_of_ok (Scenario.item_of_twoPages hreport.2))
  have hcheckpoint : script.calls.takeWhile (· ≠ .checkCancelled) = [] ∧
      .checkCancelled ∈ script.calls := by
    rw [hscript]
    exact ⟨rfl, List.mem_cons_self⟩
  obtain ⟨result, hending⟩ : ∃ result, script.ending = .ok result :=
    ⟨_, congrArg Script.ending hscript⟩
  have hexit : ∀ r, script.ending = .ok r → HandlerExit.returned result = .returned r :=
    fun r hr => congrArg HandlerExit.returned (Except.ok.inj (hending.symm.trans hr))
  -- the request right after the claim
  have hstep : (handled {} Scenario.first (.returned result)).step ⟨s, [], some script.calls⟩
      (.other (Scenario.cancel 0)) =
        some (.after {} Scenario.first s' [] (some script.calls)) :=
    handled_other (fun _ => Bool.false_ne_true) hcancel
  have hreach : (orchestrator {}).Reachable (KeepsLease Scenario.jobId) s₀ :=
    ⟨_, ⟨0, rfl⟩, hsteps.mono fun _ _ => Scenario.keepsLease_of_unreaped⟩
  have hdelivered := Scenario.isDelivered_iff.mp hdelivered
  obtain ⟨_, -, -, ⟨w₃, hafter, hended⟩, -⟩ := cooperative_cancellation hreach hdelivered hclaim he
    (Or.inr hreport.1) rfl hcheckpoint.2 hexit (Steps.refl _) hrunning hstep hcancelling
    (Steps.refl _)
  obtain ⟨_, -, -, -, hleft⟩ := cooperative_cancellation hreach hdelivered hclaim he
    (Or.inr hreport.1) rfl hcheckpoint.2 hexit (Steps.refl _) hrunning hstep hcancelling hafter
  obtain ⟨job, hrow, hstopped, -⟩ := hleft hended
  obtain ⟨hmade, hstatus, -⟩ := hstopped hcheckpoint.2
  refine ⟨_, script.calls, s, _, w₃, hcheckpoint.2, hrunning, hstep, hafter, ?_, ?_⟩
  · rw [hmade]
    exact congrArg (· ++ [ContextCall.checkCancelled]) hcheckpoint.1
  · rw [System.status, hrow, Option.map_some, hstatus]

end JobOrchestrator
