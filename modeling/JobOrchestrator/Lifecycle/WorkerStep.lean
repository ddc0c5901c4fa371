import JobOrchestrator.Workers.System

/-!
# The steps of a consumer task and of the system

`WorkerStep` lists what a consumer task can do, each step with its action, what it requires of
the task and the state it leads to, and `SystemStep` does so for the whole system.  The steps of
a job's view (`JobStep`) and everything that depends on which step was taken are proved by cases
on them.
-/

namespace JobOrchestrator

open ExecutionService

variable {settings : Settings}

/-- The attempt has not committed its finalizing transaction yet. -/
def Stage.isOpen : Stage → Bool
  | .handler | .deciding .. | .backingOff .. | .finalizing _ => true
  | .deadLettering | .returning _ => false

lemma afterFinalize_isOpen (hit : Bool) (outcome : Outcome) :
    (Stage.afterFinalize hit outcome).isOpen = false := by
  unfold Stage.afterFinalize
  split
  · cases hit <;> rfl
  · rfl

/-- How an execution goes on at another stage without a write. -/
inductive Resumes (db : Database) (e : Execution) : WorkerAction → Stage → Prop
  | cancelled (hstage : e.stage = .handler) (hrequested : cancellationRequested db e.jobId) :
      Resumes db e .checkCancelled (.finalizing .cancelled)
  | returned (result) (hstage : e.stage = .handler) :
      Resumes db e (.handlerReturns result) (.finalizing (.succeeded result))
  | raised (error) (hstage : e.stage = .handler) : Resumes db e (.handlerRaises error) error.stage
  | read (code message) (hstage : e.stage = .deciding code message) :
      Resumes db e .readCancellation
        (e.afterRead code message (cancellationRequested db e.jobId))
  | backedOff (code message now backoff) (hstage : e.stage = .backingOff code message) :
      Resumes db e (.computeBackoff now backoff)
        (.finalizing (.retry code message (now + backoff)))
  | failed (hstage : e.stage ≠ .handler) : Resumes db e .fails (.returning true)

section Resumes

variable {db : Database} {e : Execution} {action : WorkerAction} {stage : Stage}

lemma afterRead_cases (e : Execution) (code message : String) (cancelled : Bool) :
    e.afterRead code message cancelled = .finalizing .cancelled ∨
      e.afterRead code message cancelled = .finalizing (.failed code message true) ∨
      e.afterRead code message cancelled = .backingOff code message := by
  unfold Execution.afterRead
  split
  · exact Or.inl rfl
  · split
    · exact Or.inr (Or.inl rfl)
    · exact Or.inr (Or.inr rfl)

/-- Nothing goes back to its handler. -/
lemma Resumes.ne_handler (h : Resumes db e action stage) : stage ≠ .handler := by
  cases h with
  | cancelled | returned | backedOff | failed => exact nofun
  | raised error => cases error <;> exact nofun
  | read code message =>
      rcases afterRead_cases e code message (cancellationRequested db e.jobId) with h | h | h <;>
        simp [h]

/-- A result to commit comes from the handler. -/
lemma Resumes.returned_of_succeeded {result : Dict}
    (h : Resumes db e action (.finalizing (.succeeded result))) :
    e.stage = .handler ∧ action = .handlerReturns result := by
  generalize hstage : Stage.finalizing (.succeeded result) = stage at h
  cases h with
  | cancelled | backedOff | failed => cases hstage
  | returned value hhandler =>
      obtain rfl := Outcome.succeeded.inj (Stage.finalizing.inj hstage)
      exact ⟨hhandler, rfl⟩
  | raised error => cases error <;> cases hstage
  | read code message =>
      rcases afterRead_cases e code message (cancellationRequested db e.jobId) with h | h | h <;>
        simp [h] at hstage

end Resumes

/-- What a consumer task can do. -/
inductive WorkerStep (s : System settings.workerConcurrency)
    (c : Coroutine settings.workerConcurrency) :
    WorkerAction → System settings.workerConcurrency → Prop
  | consumed (jobId queue) (hidle : s.workers c = .idle)
      (hqueue : s.queue.consume = some (jobId, queue)) :
      WorkerStep s c .consume ({ s with queue }.become c (.delivered jobId))
  | claimed (tx now jobId db result) (hdelivered : s.workers c = .delivered jobId)
      (htimely : s.timely tx now)
      (hclaim : claim settings s.db tx c.workerId jobId now = some (db, result)) :
      WorkerStep s c (.claim tx now) ({ s with db }.become c
        (result.elim .idle fun claim => .executing (.start jobId claim)))
  | claimFailed (jobId) (hdelivered : s.workers c = .delivered jobId) :
      WorkerStep s c .fails (s.become c .idle)
  | stopped (hactive : s.workers c ≠ .ended) : WorkerStep s c .stop (s.become c .ended)
  | heartbeat (e now) (he : s.workers c = .executing e) (halive : e.heartbeatFailed = false)
      (hnow : now ≤ s.clock) :
      WorkerStep s c (.heartbeat now)
        { s with db := heartbeat settings s.db c.workerId e.jobId now }
  | heartbeatFailed (e) (he : s.workers c = .executing e) :
      WorkerStep s c .heartbeatFails
        (s.become c (.executing { e with heartbeatFailed := true }))
  | passed (e) (he : s.workers c = .executing e) (hstage : e.stage = .handler) :
      WorkerStep s c .checkCancelled s
  | progressed (e progress now) (he : s.workers c = .executing e) (hstage : e.stage = .handler)
      (hnow : now ≤ s.clock) :
      WorkerStep s c (.reportProgress progress now)
        { s with db := reportProgress settings s.db c.workerId e.jobId progress now }
  | resumed (e action stage) (he : s.workers c = .executing e)
      (hresumes : Resumes s.db e action stage) : WorkerStep s c action (s.resume c e stage)
  | finalized (e outcome tx now db hit) (he : s.workers c = .executing e)
      (hstage : e.stage = .finalizing outcome) (htimely : s.timely tx now)
      (hfinalize : finalize s.db tx c.workerId e.jobId e.attemptId now outcome.finalizer =
        some (db, hit)) :
      WorkerStep s c (.finalize tx now)
        ({ s with db }.resume c e (Stage.afterFinalize hit outcome))
  | deadLettered (e) (he : s.workers c = .executing e) (hstage : e.stage = .deadLettering) :
      WorkerStep s c .pushDeadLetter
        ({ s with queue := s.queue.deadLetter e.jobId }.resume c e (.returning false))
  | returned (e raised) (he : s.workers c = .executing e) (hstage : e.stage = .returning raised) :
      WorkerStep s c .returns (s.become c .idle)

section Step

variable {s s' : System settings.workerConcurrency} {c : Coroutine settings.workerConcurrency}
  {action : WorkerAction}

lemma workerStep_of_executionStep {e : Execution} (he : s.workers c = .executing e)
    (h : s.executionStep c settings e action = some s') : WorkerStep s c action s' := by
  unfold System.executionStep at h
  split at h
  case h_1 now =>
    split at h
    · cases h
    · rename_i hallowed
      obtain rfl := Option.some.inj h
      simp only [Bool.or_eq_true, decide_eq_true_eq, not_or, not_lt] at hallowed
      exact .heartbeat e now he (by simpa using hallowed.1) hallowed.2
  case h_2 =>
    obtain rfl := Option.some.inj h
    exact .heartbeatFailed e he
  case h_3 =>
    obtain rfl := Option.some.inj h
    exact .stopped (by simp [he])
  case h_4 action _ _ _ =>
    split at h
    case h_1 hstage _ _ _ =>
      split at h
      · rename_i hrequested
        obtain rfl := Option.some.inj h
        exact .resumed e _ _ he (.cancelled hstage hrequested)
      · obtain rfl := Option.some.inj h
        exact .passed e he hstage
    case h_2 progress now hstage _ _ _ =>
      split at h
      · cases h
      · rename_i hnow
        obtain rfl := Option.some.inj h
        exact .progressed e progress now he hstage (not_lt.mp hnow)
    case h_3 result hstage _ _ _ =>
      obtain rfl := Option.some.inj h
      exact .resumed e _ _ he (.returned result hstage)
    case h_4 error hstage _ _ _ =>
      obtain rfl := Option.some.inj h
      exact .resumed e _ _ he (.raised error hstage)
    case h_5 code message hstage _ _ _ =>
      obtain rfl := Option.some.inj h
      exact .resumed e _ _ he (.read code message hstage)
    case h_6 code message now backoff hstage _ _ _ =>
      split at h
      · obtain rfl := Option.some.inj h
        exact .resumed e _ _ he (.backedOff code message now backoff hstage)
      · cases h
    case h_7 outcome tx now hstage _ _ _ =>
      split at h
      · rename_i htimely
        obtain ⟨⟨db, hit⟩, hfinalize, rfl⟩ := Option.map_eq_some_iff.mp h
        exact .finalized e outcome tx now db hit he hstage htimely hfinalize
      · cases h
    case h_8 hstage _ _ _ =>
      obtain rfl := Option.some.inj h
      exact .deadLettered e he hstage
    case h_9 => cases h
    case h_10 hstage _ _ _ =>
      obtain rfl := Option.some.inj h
      exact .resumed e _ _ he (.failed hstage)
    case h_11 raised hstage _ _ _ =>
      obtain rfl := Option.some.inj h
      exact .returned e raised he hstage
    case h_12 => cases h

/-- **Inversion.**  Every step of a consumer task is one of the listed ones. -/
lemma workerStep_of_step (h : s.workerStep c settings action = some s') :
    WorkerStep s c action s' := by
  unfold System.workerStep at h
  split at h
  case h_1 hidle =>
    obtain ⟨⟨jobId, queue⟩, hqueue, rfl⟩ := Option.map_eq_some_iff.mp h
    exact .consumed jobId queue hidle hqueue
  case h_2 jobId tx now hdelivered =>
    split at h
    · rename_i htimely
      obtain ⟨⟨db, result⟩, hclaim, rfl⟩ := Option.map_eq_some_iff.mp h
      exact .claimed tx now jobId db result hdelivered htimely hclaim
    · cases h
  case h_3 jobId hdelivered =>
    obtain rfl := Option.some.inj h
    exact .claimFailed jobId hdelivered
  case h_4 e action he => exact workerStep_of_executionStep he h
  case h_5 hidle =>
    obtain rfl := Option.some.inj h
    exact .stopped (by simp [hidle])
  case h_6 jobId hdelivered =>
    obtain rfl := Option.some.inj h
    exact .stopped (by simp [hdelivered])
  case h_7 => cases h

lemma workers_of_workerStep (h : WorkerStep s c action s')
    {d : Coroutine settings.workerConcurrency} (hd : d ≠ c) : s'.workers d = s.workers d := by
  cases h with
  | heartbeat | passed | progressed => rfl
  | consumed | claimed | claimFailed | stopped | heartbeatFailed | resumed | finalized
  | deadLettered | returned => exact Function.update_of_ne hd ..

end Step

/-! ## The whole system -/

/-- What the system can do. -/
inductive SystemStep (s : System settings.workerConcurrency) :
    Label settings.workerConcurrency → System settings.workerConcurrency → Prop
  | ticked (elapsed) : SystemStep s (.tick elapsed) { s with clock := s.clock + elapsed }
  | submitted (call args) (hfree : s.submissions call = none) :
      SystemStep s (.submit call args)
        { s with
          submissions := Function.update s.submissions call (some (SubmissionService.submit args)) }
  | submission (call tx now submission db submission')
      (hcall : s.submissions call = some submission) (htimely : s.timely tx now)
      (hnext : submission.next settings s.db tx now = some (db, submission')) :
      SystemStep s (.submission call tx now)
        { s with db, submissions := Function.update s.submissions call (some submission') }
  | cancel (tx jobId userId reason now db outcome) (htimely : s.timely tx now)
      (hcancel : CancellationService.cancel s.db tx jobId userId reason now = some (db, outcome)) :
      SystemStep s (.cancel tx jobId userId reason now) { s with db }
  | sweep (kind tx locked batchSize now db pushes) (htimely : s.timely tx now)
      (hkind : kind.timely settings s.db locked batchSize now s.clock)
      (hrun : kind.run settings s.db tx locked batchSize now = some (db, pushes)) :
      SystemStep s (.sweep kind tx locked batchSize now)
        { s with db, unpublished := s.unpublished ++ pushes }
  | published (push) (hmem : push ∈ s.unpublished) :
      SystemStep s (.publish push)
        { s with queue := s.queue.push push, unpublished := s.unpublished.erase push }
  | publishFailed (push) (hmem : push ∈ s.unpublished) :
      SystemStep s (.publishFails push) { s with unpublished := s.unpublished.erase push }
  | redis (queue) (hfaulty : s.queue.Faulty queue) : SystemStep s (.redis queue) { s with queue }
  | worker (c action) {s'} (hstep : WorkerStep s c action s') : SystemStep s (.worker c action) s'
  | crashed (workerId) :
      SystemStep s (.crash workerId)
        { s with workers := fun c => if c.workerId = workerId then .ended else s.workers c }

section SystemStep

variable {s s' : System settings.workerConcurrency} {l : Label settings.workerConcurrency}

/-- **Inversion.**  Every step of the system is one of the listed ones. -/
lemma systemStep_of_step (h : s.step settings l = some s') : SystemStep s l s' := by
  unfold System.step at h
  split at h
  case h_1 elapsed =>
    obtain rfl := Option.some.inj h
    exact .ticked elapsed
  case h_2 call args =>
    split at h
    · rename_i hfree
      obtain rfl := Option.some.inj h
      exact .submitted call args (Option.isNone_iff_eq_none.mp hfree)
    · cases h
  case h_3 call tx now =>
    split at h
    · rename_i htimely
      obtain ⟨submission, hcall, hmap⟩ := Option.bind_eq_some_iff.mp h
      obtain ⟨⟨db, submission'⟩, hnext, rfl⟩ := Option.map_eq_some_iff.mp hmap
      exact .submission call tx now submission db submission' hcall htimely hnext
    · cases h
  case h_4 tx jobId userId reason now =>
    split at h
    · rename_i htimely
      obtain ⟨⟨db, outcome⟩, hcancel, rfl⟩ := Option.map_eq_some_iff.mp h
      exact .cancel tx jobId userId reason now db outcome htimely hcancel
    · cases h
  case h_5 kind tx locked batchSize now =>
    split at h
    · rename_i htimely
      obtain ⟨⟨db, pushes⟩, hrun, rfl⟩ := Option.map_eq_some_iff.mp h
      obtain ⟨htimely, hkind⟩ := Bool.and_eq_true_iff.mp htimely
      exact .sweep kind tx locked batchSize now db pushes htimely hkind hrun
    · cases h
  case h_6 push =>
    split at h
    · rename_i hmem
      obtain rfl := Option.some.inj h
      exact .published push hmem
    · cases h
  case h_7 push =>
    split at h
    · rename_i hmem
      obtain rfl := Option.some.inj h
      exact .publishFailed push hmem
    · cases h
  case h_8 queue =>
    split at h
    · rename_i hfaulty
      obtain rfl := Option.some.inj h
      exact .redis queue hfaulty
    · cases h
  case h_9 c action => exact .worker c action (workerStep_of_step h)
  case h_10 workerId =>
    obtain rfl := Option.some.inj h
    exact .crashed workerId

/-- What a step of the system does to a consumer task: nothing, it kills its process, or it is
a step of the task. -/
lemma consumer_of_step (h : s.step settings l = some s')
    (c : Coroutine settings.workerConcurrency) :
    s'.workers c = s.workers c ∨ (l = .crash c.workerId ∧ s'.workers c = .ended) ∨
      ∃ action, l = .worker c action ∧ WorkerStep s c action s' := by
  cases systemStep_of_step h with
  | worker d action hstep =>
      by_cases hd : c = d
      · subst hd
        exact Or.inr (Or.inr ⟨action, rfl, hstep⟩)
      · exact Or.inl (workers_of_workerStep hstep hd)
  | crashed workerId =>
      by_cases hc : c.workerId = workerId
      · exact Or.inr (Or.inl ⟨by rw [hc], if_pos hc⟩)
      · exact Or.inl (if_neg hc)
  | ticked | submitted | submission | cancel | sweep | published | publishFailed | redis =>
      exact Or.inl rfl

end SystemStep

end JobOrchestrator
