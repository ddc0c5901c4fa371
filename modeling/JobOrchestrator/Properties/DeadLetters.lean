import JobOrchestrator.Properties.Coherence

/-!
# The dead-letter list

A job is dead-lettered by a transaction, and its id is sent to Redis afterwards: by the worker
that finalized the last attempt, or by the sweep that reaped it.  The id is in one place at a
time.  Unlike the priority lists nothing fills the dead-letter list again, so an id whose push
raises is in the list no more.
-/

namespace JobOrchestrator

open ExecutionService SubmissionService CancellationService TransitionSystem

variable {settings : Settings}

/-- `dead_lettered_at` is set. -/
def Database.deadLettered (db : Database) (jobId : UUID) : Bool :=
  (db.jobs.get? jobId).any fun job => job.deadLetteredAt.isSome

section Places

variable {concurrency : ℕ} (s : System concurrency)

/-- The execution has committed the dead letter of the job and has not pushed it yet. -/
def Consumer.carries (jobId : UUID) : Consumer → Bool
  | .executing e =>
      e.jobId = jobId &&
        match e.stage with
        | .deadLettering => true
        | _ => false
  | _ => false

/-- The step loses the dead letter of the job between its commit and the list. -/
def System.loses (jobId : UUID) : Label concurrency → Bool
  | .publishFails push => push = .deadLetter jobId
  | .worker c .fails | .worker c .stop => (s.workers c).carries jobId
  | .crash workerId => ∃ slot, (s.workers ⟨workerId, slot⟩).carries jobId
  | _ => false

/-- The system, with the jobs whose dead letter was lost. -/
def ledger (settings : Settings) :
    TransitionSystem (System settings.workerConcurrency × (UUID → Bool))
      (Label settings.workerConcurrency) :=
  (orchestrator settings).observing (fun _ => false) fun lost s l _ jobId =>
    lost jobId || s.loses jobId l

/-- Redis keeps its dead-letter list. -/
def KeepsDeadLetters (p : System concurrency × (UUID → Bool)) : Label concurrency → Prop
  | .redis queue => queue.deadLetters = p.1.queue.deadLetters
  | _ => True

instance (p : System concurrency × (UUID → Bool)) : ∀ l, Decidable (KeepsDeadLetters p l)
  | .redis queue => inferInstanceAs (Decidable (queue.deadLetters = p.1.queue.deadLetters))
  | .tick _ | .submit .. | .submission .. | .cancel .. | .sweep .. | .publish _ | .publishFails _
  | .worker .. | .crash _ => isTrue trivial

/-- No sweep and no execution is in progress. -/
structure System.Quiescent : Prop where
  published : s.unpublished = []
  idle : ∀ c e, s.workers c ≠ .executing e

/-- The dead-letter list has the id of every dead-lettered job once, and no other. -/
def System.DeadLettersAgree : Prop :=
  ∀ jobId, s.queue.deadLetters.count jobId = if s.db.deadLettered jobId then 1 else 0

/-- Where the dead letter of a job is. -/
inductive Whereabouts (concurrency : ℕ)
  | nowhere
  | unpublished
  | carried (c : Coroutine concurrency)
  | listed
  | lost
  deriving DecidableEq

/-- The dead letter of the job is there, and in no other place. -/
structure Located (lost : UUID → Bool) (jobId : UUID) (place : Whereabouts concurrency) : Prop where
  deadLettered : s.db.deadLettered jobId = true ↔ place ≠ .nowhere
  unpublished : s.unpublished.count (.deadLetter jobId) = if place = .unpublished then 1 else 0
  carried : ∀ c, (s.workers c).carries jobId = true ↔ place = .carried c
  listed : s.queue.deadLetters.count jobId = if place = .listed then 1 else 0
  lost : lost jobId = true ↔ place = .lost

end Places

/-! ## What a step does to the parts -/

section Parts

variable {s s' : System settings.workerConcurrency} {j : UUID}
  {l : Label settings.workerConcurrency} {life' : Life settings.workerConcurrency}
  {lost lost' : UUID → Bool} {place : Whereabouts settings.workerConcurrency}

lemma Consumer.carries_iff {consumer : Consumer} :
    consumer.carries j = true ↔
      ∃ e, consumer = .executing e ∧ e.jobId = j ∧ e.stage = .deadLettering := by
  unfold Consumer.carries
  split
  · rename_i e
    rw [Bool.and_eq_true, decide_eq_true_eq]
    constructor
    · rintro ⟨hjob, hstage⟩
      refine ⟨e, rfl, hjob, ?_⟩
      split at hstage
      · assumption
      · cases hstage
    · rintro ⟨e', he', hjob, hstage⟩
      obtain rfl := Consumer.executing.inj he'
      rw [hstage]
      exact ⟨hjob, rfl⟩
  · rename_i hnot
    constructor
    · intro hfalse
      cases hfalse
    · rintro ⟨e, he, -⟩
      exact absurd he (hnot e)

lemma deadLettered_eq_true {db : Database} :
    db.deadLettered j = true ↔ ∃ job, (db.record j).row = some job ∧ job.deadLetteredAt.isSome :=
  Option.any_eq_true ..

lemma deadLettered_congr {db db' : Database} (h : (db'.record j).row = (db.record j).row) :
    db'.deadLettered j = db.deadLettered j :=
  congrArg (Option.any fun job : Job => job.deadLetteredAt.isSome) h

/-- A step that moves the dead letter of the job from no place to no other. -/
lemma Located.of_same (h : Located s lost j place)
    (hdead : s'.db.deadLettered j = s.db.deadLettered j)
    (hunpublished : s'.unpublished.count (.deadLetter j) = s.unpublished.count (.deadLetter j))
    (hcarried : ∀ c, (s'.workers c).carries j = (s.workers c).carries j)
    (hlisted : s'.queue.deadLetters.count j = s.queue.deadLetters.count j)
    (hlost : lost' j = lost j) : Located s' lost' j place where
  deadLettered := by rw [hdead, h.deadLettered]
  unpublished := by rw [hunpublished, h.unpublished]
  carried c := by rw [hcarried, h.carried]
  listed := by rw [hlisted, h.listed]
  lost := by rw [hlost, h.lost]

/-- No statement but the two that fail a job for good touches `dead_lettered_at`. -/
lemma deadLettered_of_issues {u : JobUpdate} (hu : Issues s j l u) {job : Job}
    (hguard : u.guard job) (hbefore : ¬ job.deadLetteredAt.isSome) :
    ¬ (u.values job).deadLetteredAt.isSome ∨
    (∃ tx locked batchSize now, l = .sweep .reapExpired tx locked batchSize now) ∨
    ∃ c tx now e code message, l = .worker c (.finalize tx now) ∧
      (s.life j).executions c = some e ∧ e.stage = .finalizing (.failed code message true) := by
  cases hu with
  | failExpiredLease => exact Or.inr (Or.inl ⟨_, _, _, _, rfl⟩)
  | finalize e outcome he hstage =>
      cases outcome with
      | failed code message deadLettered =>
          cases deadLettered with
          | false => exact Or.inl nofun
          | true => exact Or.inr (Or.inr ⟨_, _, _, e, code, message, rfl, he, hstage⟩)
      | succeeded | retry | cancelled => exact Or.inl hbefore
  | requestRunningCancellation | cancelInactive | claimForExecution | heartbeat | updateProgress
  | markQueued | moveRetryToQueued | requeueExpiredLease | markRedispatched | expire =>
      exact Or.inl hbefore

/-- The column changes only in a reap and in a finalizing transaction that dead-letters. -/
lemma deadLettered_of_jobStep (hsound : DeadLetterSound (s.life j)) (h : JobStep s j l (s'.life j))
    (hreap : ∀ tx locked batchSize now, l ≠ .sweep .reapExpired tx locked batchSize now)
    (hfinalize : ∀ c tx now e code message, l = .worker c (.finalize tx now) →
      (s.life j).executions c = some e → e.stage ≠ .finalizing (.failed code message true)) :
    s'.db.deadLettered j = s.db.deadLettered j := by
  rw [Bool.eq_iff_iff, deadLettered_eq_true, deadLettered_eq_true]
  rcases row_of_jobStep h with hsame | ⟨_, _, _, hnone, hnew⟩ | ⟨u, job, hu, hrow, hguard, hvalues⟩
  · have hsame : (s'.db.record j).row = (s.db.record j).row := hsame
    rw [hsame]
  · have hnew : (s'.db.record j).row = _ := hnew
    rw [hnew, hnone]
    constructor
    · rintro ⟨job, hjob, hdead⟩
      obtain rfl := Option.some.inj hjob
      cases hdead
    · rintro ⟨job, hjob, -⟩
      cases hjob
  · have hvalues : (s'.db.record j).row = some (u.values job) := hvalues
    -- a dead-lettered row is terminal, so no statement matches it
    have hbefore : ¬ job.deadLetteredAt.isSome := by
      intro hset
      refine not_isTerminal_of_issues hu hguard ?_
      rw [(hsound.exhausted job hrow hset).1]
      decide
    rw [hvalues, hrow]
    have hafter : ¬ (u.values job).deadLetteredAt.isSome := by
      rcases deadLettered_of_issues hu hguard hbefore with
        hafter | ⟨_, _, _, _, hl⟩ | ⟨_, _, _, e, _, _, hl, he, hstage⟩
      · exact hafter
      · exact absurd hl (hreap _ _ _ _)
      · exact absurd hstage (hfinalize _ _ _ e _ _ hl he)
    refine iff_of_false ?_ ?_
    · rintro ⟨job', hjob', hdead⟩
      rw [← Option.some.inj hjob'] at hdead
      exact hafter hdead
    · rintro ⟨job', hjob', hdead⟩
      rw [← Option.some.inj hjob'] at hdead
      exact hbefore hdead

/-- Nothing of a job that is not dead-lettered is anywhere. -/
lemma Located.nowhere_of_not (h : Located s lost j place) (hdead : ¬ s.db.deadLettered j) :
    place = .nowhere := by
  by_contra hplace
  exact hdead (h.deadLettered.mpr hplace)

/-- A job that has not failed has no dead letter. -/
lemma Located.nowhere_of_row {job : Job} (h : Located s lost j place)
    (hsound : DeadLetterSound (s.life j)) (hrow : (s.db.record j).row = some job)
    (hstatus : job.status ≠ .failed) : place = .nowhere := by
  refine h.nowhere_of_not fun hset => ?_
  obtain ⟨job', hrow', hdead⟩ := deadLettered_eq_true.mp hset
  obtain rfl := Option.some.inj (hrow.symm.trans hrow')
  exact hstatus (hsound.exhausted job hrow hdead).1

/-- The dead letter leaves the consumer task that carried it without a push. -/
lemma Located.lose {c : Coroutine settings.workerConcurrency} (h : Located s lost j place)
    (hcarried : (s.workers c).carries j) (hothers : ∀ d, d ≠ c →
      (s'.workers d).carries j → (s.workers d).carries j)
    (hgone : (s'.workers c).carries j = false) (hdb : s'.db = s.db)
    (hunpublished : s'.unpublished = s.unpublished) (hqueue : s'.queue = s.queue)
    (hlost : lost' j = true) : Located s' lost' j .lost := by
  obtain rfl : place = .carried c := (h.carried c).mp hcarried
  refine ⟨?_, ?_, fun d => ?_, ?_, ?_⟩
  · rw [hdb, h.deadLettered]
    exact iff_of_true nofun nofun
  · rw [hunpublished, h.unpublished]
    rfl
  · refine iff_of_false (fun hd => ?_) nofun
    by_cases hdc : d = c
    · subst hdc
      rw [hgone] at hd
      cases hd
    · have hsame := (h.carried d).mp (hothers d hdc hd)
      exact hdc (Whereabouts.carried.inj hsame).symm
  · rw [hqueue, h.listed]
    rfl
  · exact iff_of_true hlost rfl

section Worker

variable {c : Coroutine settings.workerConcurrency} {action : WorkerAction}

lemma deadLetters_of_consume {q q' : JobQueue} {jobId : UUID} (h : q.consume = some (jobId, q')) :
    q'.deadLetters = q.deadLetters := by
  unfold JobQueue.consume at h
  split at h <;> cases h <;> rfl

/-- Only what a step does to its own task matters. -/
lemma carries_of_workerStep (h : WorkerStep s c action s')
    (hown : (s'.workers c).carries j = (s.workers c).carries j)
    (d : Coroutine settings.workerConcurrency) :
    (s'.workers d).carries j = (s.workers d).carries j := by
  by_cases hd : d = c
  · subst hd
    exact hown
  · rw [workers_of_workerStep h hd]

lemma not_carries_of_stage {e : Execution} (hstage : e.stage ≠ .deadLettering) :
    (Consumer.executing e).carries j = false := by
  rw [Bool.eq_false_iff]
  intro hcarries
  obtain ⟨e', he', -, hstage'⟩ := Consumer.carries_iff.mp hcarries
  obtain rfl := Consumer.executing.inj he'
  exact hstage hstage'

lemma afterFinalize_eq_deadLettering {hit : Bool} {outcome : Outcome} :
    Stage.afterFinalize hit outcome = .deadLettering ↔
      hit = true ∧ ∃ code message, outcome = .failed code message true := by
  unfold Stage.afterFinalize
  split
  · cases hit <;> simp
  · rename_i hother
    refine iff_of_false nofun ?_
    rintro ⟨-, code, message, rfl⟩
    exact hother code message rfl

/-- A finalizing transaction that fails its job for good takes up the dead letter of the job. -/
lemma located_of_failed {e : Execution} {code message : String} {tx : Tx} {now : Time}
    {db : Database} (hreach : (orchestrator settings).Reachable Always s)
    (h : Located s lost e.jobId place) (he : s.workers c = .executing e)
    (hfinalize : finalize s.db tx c.workerId e.jobId e.attemptId now
      (Outcome.failed code message true).finalizer = some (db, true))
    (hstep : WorkerStep s c (.finalize tx now) ({ s with db }.resume c e .deadLettering)) :
    Located ({ s with db }.resume c e .deadLettering) lost e.jobId (.carried c) := by
  have hexec : (s.life e.jobId).executions c = some e := (s.life_executions e.jobId).mpr ⟨he, rfl⟩
  have hown := (linked_of_reachable hreach e.jobId).attempt_mem c e hexec
  rcases finalize_cases hfinalize hown with ⟨hmissed, -⟩ | ⟨job, hrow, hguard, -, hrecord⟩
  · cases hmissed
  · -- the job was held, so it had no dead letter before
    obtain rfl : place = .nowhere := by
      refine h.nowhere_of_row (deadLetterSound_of_reachable hreach e.jobId) hrow fun hfailed => ?_
      rcases (held_of_finalizer hguard).2 with hheld | hheld <;> cases hfailed.symm.trans hheld
    refine ⟨?_, h.unpublished, fun d => ?_, h.listed, ?_⟩
    · refine iff_of_true (deadLettered_eq_true.mpr ⟨((Outcome.failed code message
        true).finalizer.update c.workerId now).values job, ?_, rfl⟩) nofun
      change (db.record e.jobId).row = _
      rw [hrecord, Function.update_self, finalized_row]
    · by_cases hd : d = c
      · subst hd
        rw [System.resume, System.become_self]
        exact iff_of_true (Consumer.carries_iff.mpr ⟨_, rfl, rfl, rfl⟩) rfl
      · rw [workers_of_workerStep hstep hd, h.carried d]
        exact iff_of_false nofun fun heq => hd (Whereabouts.carried.inj heq).symm
    · rw [h.lost]
      exact iff_of_false nofun nofun

/-- A finalizing transaction leaves `dead_lettered_at` of a job alone that it does not fail for
good. -/
lemma deadLettered_of_finalize {e : Execution} {outcome : Outcome} {tx : Tx} {now : Time}
    {db : Database} {hit : Bool} (hreach : (orchestrator settings).Reachable Always s)
    (he : s.workers c = .executing e) (hstage : e.stage = .finalizing outcome)
    (hfinalize : finalize s.db tx c.workerId e.jobId e.attemptId now outcome.finalizer =
      some (db, hit))
    (hstep : (orchestrator settings).step s (.worker c (.finalize tx now)) =
      some ({ s with db }.resume c e (Stage.afterFinalize hit outcome)))
    (hother : ¬ (hit = true ∧ (∃ code message, outcome = .failed code message true) ∧
      e.jobId = j)) : db.deadLettered j = s.db.deadLettered j := by
  have hexec : (s.life e.jobId).executions c = some e := (s.life_executions e.jobId).mpr ⟨he, rfl⟩
  have hown := (linked_of_reachable hreach e.jobId).attempt_mem c e hexec
  by_cases hj : j = e.jobId
  · subst hj
    rcases finalize_cases hfinalize hown with ⟨-, -, hrecord⟩ | ⟨job, hrow, hguard, hhit, hrecord⟩
    · refine deadLettered_congr ?_
      rw [hrecord, Function.update_self]
      rfl
    · refine deadLettered_of_jobStep (deadLetterSound_of_reachable hreach e.jobId)
        (jobStep_of_reachable hreach hstep e.jobId) (fun _ _ _ _ => nofun) ?_
      rintro c' tx' now' e' code message hl he' hstage'
      obtain ⟨rfl, -⟩ := Label.worker.inj hl
      obtain rfl := Option.some.inj (hexec.symm.trans he')
      obtain rfl := Stage.finalizing.inj (hstage.symm.trans hstage')
      exact hother ⟨hhit, ⟨code, message, rfl⟩, rfl⟩
  · refine deadLettered_congr ?_
    rcases finalize_cases hfinalize hown with ⟨-, -, hrecord⟩ | ⟨job, -, -, -, hrecord⟩
    · rw [hrecord, Function.update_of_ne hj]
    · rw [hrecord, Function.update_of_ne hj]

/-- A finalizing transaction takes up the dead letter of its job, or no dead letter at all. -/
lemma located_of_finalized {e : Execution} {outcome : Outcome} {tx : Tx} {now : Time}
    {db : Database} {hit : Bool} (hreach : (orchestrator settings).Reachable Always s)
    (h : Located s lost j place) (he : s.workers c = .executing e)
    (hstage : e.stage = .finalizing outcome)
    (hfinalize : finalize s.db tx c.workerId e.jobId e.attemptId now outcome.finalizer =
      some (db, hit))
    (hstep : (orchestrator settings).step s (.worker c (.finalize tx now)) =
      some ({ s with db }.resume c e (Stage.afterFinalize hit outcome))) :
    ∃ place', Located ({ s with db }.resume c e (Stage.afterFinalize hit outcome)) lost j
      place' := by
  by_cases hdead : hit = true ∧ (∃ code message, outcome = .failed code message true) ∧ e.jobId = j
  · obtain ⟨rfl, ⟨code, message, rfl⟩, rfl⟩ := hdead
    exact ⟨.carried c, located_of_failed hreach h he hfinalize (workerStep_of_step hstep)⟩
  · have hsame := deadLettered_of_finalize hreach he hstage hfinalize hstep hdead
    refine ⟨place, h.of_same hsame rfl (carries_of_workerStep (workerStep_of_step hstep) ?_) rfl
      rfl⟩
    have hquiet : (s.workers c).carries j = false := by
      rw [he]
      exact not_carries_of_stage (by rw [hstage]; exact nofun)
    rw [hquiet, System.resume, System.become_self, Bool.eq_false_iff]
    intro hcarries
    obtain ⟨e', he', hjob, hstage'⟩ := Consumer.carries_iff.mp hcarries
    obtain rfl := Consumer.executing.inj he'
    obtain ⟨hhit, houtcome⟩ := afterFinalize_eq_deadLettering.mp hstage'
    exact hdead ⟨hhit, houtcome, hjob⟩

/-- The push of a dead letter. -/
lemma located_of_pushed {e : Execution} (h : Located s lost j place)
    (he : s.workers c = .executing e) (hstage : e.stage = .deadLettering) :
    ∃ place', Located ({ s with queue := s.queue.deadLetter e.jobId }.resume c e (.returning false))
      lost j place' := by
  have hstep : WorkerStep s c .pushDeadLetter
      ({ s with queue := s.queue.deadLetter e.jobId }.resume c e (.returning false)) :=
    .deadLettered e he hstage
  have hnew : (({ s with queue := s.queue.deadLetter e.jobId }.resume c e
      (.returning false)).workers c).carries j = false := by
    rw [System.resume, System.become_self]
    exact not_carries_of_stage nofun
  by_cases hj : e.jobId = j
  · subst hj
    have hcarried : (s.workers c).carries e.jobId :=
      Consumer.carries_iff.mpr ⟨e, he, rfl, hstage⟩
    obtain rfl : place = .carried c := (h.carried c).mp hcarried
    refine ⟨.listed, ?_, h.unpublished, fun d => ?_, ?_, ?_⟩
    · exact h.deadLettered.trans (iff_of_true nofun nofun)
    · refine iff_of_false (fun hd => ?_) nofun
      by_cases hdc : d = c
      · subst hdc
        rw [hnew] at hd
        cases hd
      · rw [workers_of_workerStep hstep hdc] at hd
        exact hdc (Whereabouts.carried.inj ((h.carried d).mp hd)).symm
    · change (e.jobId :: s.queue.deadLetters).count e.jobId = 1
      rw [List.count_cons_self, h.listed]
      rfl
    · exact h.lost.trans (iff_of_false nofun nofun)
  · have hquiet : (s.workers c).carries j = false := by
      rw [Bool.eq_false_iff]
      intro hcarries
      obtain ⟨e', he', hjob, -⟩ := Consumer.carries_iff.mp hcarries
      obtain rfl := Consumer.executing.inj (he.symm.trans he')
      exact hj hjob
    refine ⟨place, h.of_same rfl rfl (carries_of_workerStep hstep (hnew.trans hquiet.symm)) ?_ rfl⟩
    exact List.count_cons_of_ne hj

/-- A task that stops, or meets an exception, loses the dead letter that it carries. -/
lemma located_of_dropped {consumer : Consumer} (h : Located s lost j place)
    (hworker : WorkerStep s c action (s.become c consumer))
    (hloses : s.loses j (.worker c action) = (s.workers c).carries j)
    (hgone : consumer.carries j = false) :
    ∃ place', Located (s.become c consumer) (fun i => lost i || s.loses i (.worker c action)) j
      place' := by
  have hown : ((s.become c consumer).workers c).carries j = false := by
    rw [System.become_self]
    exact hgone
  cases hcarries : (s.workers c).carries j with
  | true =>
      refine ⟨.lost, h.lose hcarries (fun d hd => ?_) hown rfl rfl rfl ?_⟩
      · rw [workers_of_workerStep hworker hd]
        exact id
      · rw [hloses, hcarries, Bool.or_true]
  | false =>
      refine ⟨place, h.of_same rfl rfl (carries_of_workerStep hworker ?_) rfl ?_⟩
      · rw [hown, hcarries]
      · rw [hloses, hcarries, Bool.or_false]

/-- A task that has no dead letter before and after its step. -/
lemma located_of_uncarried (h : Located s lost j place) (hworker : WorkerStep s c action s')
    (hdead : s'.db.deadLettered j = s.db.deadLettered j)
    (hloses : s.loses j (.worker c action) = false) (hbefore : (s.workers c).carries j = false)
    (hafter : (s'.workers c).carries j = false) (hunpublished : s'.unpublished = s.unpublished)
    (hqueue : s'.queue.deadLetters = s.queue.deadLetters) :
    ∃ place', Located s' (fun i => lost i || s.loses i (.worker c action)) j place' := by
  refine ⟨place, h.of_same hdead (by rw [hunpublished])
    (carries_of_workerStep hworker (hafter.trans hbefore.symm)) (by rw [hqueue]) ?_⟩
  rw [hloses, Bool.or_false]

/-- Between the statements of an execution no dead letter is taken up. -/
lemma ne_deadLettering_of_resumes {db : Database} {e : Execution} {stage : Stage}
    (h : Resumes db e action stage) :
    stage ≠ .deadLettering ∧ (action ≠ .fails → e.stage ≠ .deadLettering) := by
  cases h with
  | cancelled hstage | returned _ hstage | backedOff _ _ _ _ hstage =>
      exact ⟨nofun, fun _ => by rw [hstage]; exact nofun⟩
  | raised error hstage =>
      refine ⟨?_, fun _ => by rw [hstage]; exact nofun⟩
      cases error <;> exact nofun
  | read code message hstage =>
      refine ⟨?_, fun _ => by rw [hstage]; exact nofun⟩
      rcases afterRead_cases e code message (cancellationRequested db e.jobId) with h | h | h
      all_goals
        rw [h]
        exact nofun
  | failed => exact ⟨nofun, fun hne => absurd rfl hne⟩

/-- A step of a consumer task takes the dead letter of a job up, pushes it, loses it or leaves it
where it is. -/
lemma located_of_worker (hreach : (orchestrator settings).Reachable Always s)
    (h : Located s lost j place)
    (hstep : (orchestrator settings).step s (.worker c action) = some s') :
    ∃ place', Located s' (fun i => lost i || s.loses i (.worker c action)) j place' := by
  have hjob : JobStep s j (.worker c action) (s'.life j) := jobStep_of_reachable hreach hstep j
  have hdead : (∀ tx now, action ≠ .finalize tx now) →
      s'.db.deadLettered j = s.db.deadLettered j := by
    intro haction
    refine deadLettered_of_jobStep (deadLetterSound_of_reachable hreach j) hjob
      (fun _ _ _ _ => nofun) fun c' tx now e code message hl => ?_
    exact absurd (Label.worker.inj hl).2 (haction tx now)
  have hworker : WorkerStep s c action s' := workerStep_of_step hstep
  cases hworker with
  | consumed jobId queue hidle hconsume =>
      refine located_of_uncarried h (workerStep_of_step hstep) rfl rfl (by rw [hidle]; rfl)
        (by rw [System.become_self]; rfl) rfl ?_
      exact deadLetters_of_consume hconsume
  | claimed tx now jobId db result hdelivered =>
      refine located_of_uncarried h (workerStep_of_step hstep) (hdead fun _ _ => nofun) rfl
        (by rw [hdelivered]; rfl) ?_ rfl rfl
      rw [System.become_self]
      cases result with
      | none => rfl
      | some claim => exact not_carries_of_stage nofun
  | claimFailed jobId hdelivered =>
      exact located_of_dropped h (workerStep_of_step hstep) rfl rfl
  | stopped => exact located_of_dropped h (workerStep_of_step hstep) rfl rfl
  | heartbeat | progressed =>
      refine ⟨place, h.of_same (hdead fun _ _ => nofun) rfl (fun _ => rfl) rfl ?_⟩
      exact Bool.or_false _
  | passed => exact ⟨place, h.of_same rfl rfl (fun _ => rfl) rfl (Bool.or_false _)⟩
  | heartbeatFailed e he =>
      refine ⟨place, h.of_same rfl rfl (carries_of_workerStep (.heartbeatFailed e he) ?_) rfl
        (Bool.or_false _)⟩
      rw [System.become_self, he]
      rfl
  | resumed e action stage he hresumes =>
      obtain ⟨hafter, hbefore⟩ := ne_deadLettering_of_resumes hresumes
      by_cases hfails : action = .fails
      · subst hfails
        exact located_of_dropped h (workerStep_of_step hstep) rfl (not_carries_of_stage hafter)
      · refine located_of_uncarried h (workerStep_of_step hstep) rfl ?_ ?_ ?_ rfl rfl
        · cases hresumes <;> first | rfl | exact absurd rfl hfails
        · rw [he]
          exact not_carries_of_stage (hbefore hfails)
        · rw [System.resume, System.become_self]
          exact not_carries_of_stage hafter
  | finalized e outcome tx now db hit he hstage htimely hfinalize =>
      obtain ⟨place', hplace⟩ := located_of_finalized hreach h he hstage hfinalize hstep
      exact ⟨place', hplace.of_same rfl rfl (fun _ => rfl) rfl (Bool.or_false _)⟩
  | deadLettered e he hstage =>
      obtain ⟨place', hplace⟩ := located_of_pushed h he hstage
      exact ⟨place', hplace.of_same rfl rfl (fun _ => rfl) rfl (Bool.or_false _)⟩
  | returned e raised he hstage =>
      refine located_of_uncarried h (workerStep_of_step hstep) rfl rfl ?_
        (by rw [System.become_self]; rfl) rfl rfl
      rw [he]
      exact not_carries_of_stage (by rw [hstage]; exact nofun)

end Worker

/-! ## Sweeps and publications -/

section Sweeps

variable {tx : Tx} {locked : List UUID} {batchSize : ℕ} {now : Time}

lemma count_publishes {pushes : List Push}
    (h : ∀ push ∈ pushes, ∃ i priority, push = .publish i priority) :
    pushes.count (.deadLetter j) = 0 := by
  refine List.count_eq_zero.mpr fun hmem => ?_
  obtain ⟨i, priority, hpush⟩ := h _ hmem
  cases hpush

/-- Only the reaper sends dead letters. -/
lemma count_pushes {kind : Sweep} {db : Database} {pushes : List Push}
    (hone : ∀ i, (s.db.record i).outbox.length ≤ 1) (hkind : kind ≠ .reapExpired)
    (hrun : kind.run settings s.db tx locked batchSize now = some (db, pushes)) :
    pushes.count (.deadLetter j) = 0 := by
  refine count_publishes fun push hpush => ?_
  cases kind with
  | reapExpired => exact absurd rfl hkind
  | dispatchPending =>
      obtain ⟨swept, hswept, heq⟩ := Option.map_eq_some_iff.mp hrun
      obtain ⟨-, rfl⟩ := Prod.mk.inj heq
      rw [DispatchService.pushes_dispatchPending hswept hone] at hpush
      obtain ⟨row, -, hpush⟩ := List.mem_filterMap.mp hpush
      obtain ⟨job, -, rfl⟩ := Option.map_eq_some_iff.mp hpush
      exact ⟨_, _, rfl⟩
  | promoteDue =>
      obtain ⟨swept, hswept, heq⟩ := Option.map_eq_some_iff.mp hrun
      obtain ⟨-, rfl⟩ := Prod.mk.inj heq
      rw [RetryService.pushes_promoteDue hswept] at hpush
      obtain ⟨job, -, rfl⟩ := List.mem_map.mp hpush
      exact ⟨_, _, rfl⟩
  | redeliverStuck stamp =>
      obtain ⟨swept, hswept, heq⟩ := Option.map_eq_some_iff.mp hrun
      obtain ⟨-, rfl⟩ := Prod.mk.inj heq
      rw [DispatchService.pushes_redeliverStuck hswept] at hpush
      obtain ⟨job, -, rfl⟩ := List.mem_map.mp hpush
      exact ⟨_, _, rfl⟩
  | expireStale =>
      obtain ⟨swept, hswept, heq⟩ := Option.map_eq_some_iff.mp hrun
      obtain ⟨-, rfl⟩ := Prod.mk.inj heq
      rw [ExpiryService.pushes_expireStale hswept] at hpush
      cases hpush
  | deliverNotifications io =>
      obtain ⟨db, -, heq⟩ := Option.map_eq_some_iff.mp hrun
      obtain ⟨-, rfl⟩ := Prod.mk.inj heq
      cases hpush

/-- The jobs that a reap fails. -/
def failedByReap (db : Database) (locked : List UUID) (now : Time) (batchSize : ℕ) : List UUID :=
  ((JobRepository.findExpiredLeases db locked now batchSize).filter
    fun job => job.maxAttempts ≤ job.attempts).map Job.id

lemma mem_failedByReap {db : Database} : j ∈ failedByReap db locked now batchSize ↔
    ∃ job ∈ JobRepository.findExpiredLeases db locked now batchSize,
      job.id = j ∧ job.maxAttempts ≤ job.attempts := by
  constructor
  · intro hmem
    obtain ⟨job, hjob, rfl⟩ := List.mem_map.mp hmem
    obtain ⟨hjob, hexhausted⟩ := List.mem_filter.mp hjob
    exact ⟨job, hjob, rfl, of_decide_eq_true hexhausted⟩
  · rintro ⟨job, hjob, rfl, hexhausted⟩
    exact List.mem_map_of_mem (List.mem_filter.mpr ⟨hjob, decide_eq_true hexhausted⟩)

/-- It sends the dead letter of each of them once. -/
lemma count_reap {db : Database} {pushes : List Push}
    (hrun : Sweep.reapExpired.run settings s.db tx locked batchSize now = some (db, pushes)) :
    pushes.count (.deadLetter j) = (failedByReap s.db locked now batchSize).count j := by
  obtain ⟨swept, hswept, heq⟩ := Option.map_eq_some_iff.mp hrun
  obtain ⟨-, rfl⟩ := Prod.mk.inj heq
  have hpublished : (swept.published.map fun p => Push.publish p.1 p.2).count
      (.deadLetter j) = 0 := by
    refine count_publishes fun push hpush => ?_
    obtain ⟨p, -, rfl⟩ := List.mem_map.mp hpush
    exact ⟨_, _, rfl⟩
  rw [Swept.pushes, List.count_append, hpublished,
    List.count_map_of_injective _ _ fun _ _ => Push.deadLetter.inj,
    LeaseService.deadLettered_reapExpired hswept]
  exact Nat.add_zero _

/-- What a reap makes of `dead_lettered_at`. -/
lemma deadLettered_of_reap
    (hstep : s.step settings (.sweep .reapExpired tx locked batchSize now) = some s') :
    s'.db.deadLettered j =
      (decide (j ∈ failedByReap s.db locked now batchSize) || s.db.deadLettered j) := by
  obtain ⟨pushes, hrun, -⟩ := pushes_of_step hstep
  obtain ⟨swept, hswept, heq⟩ := Option.map_eq_some_iff.mp hrun
  obtain ⟨hdb, -⟩ := Prod.mk.inj heq
  by_cases hj : j ∈ (JobRepository.findExpiredLeases s.db locked now batchSize).map Job.id
  · obtain ⟨job, hjob, rfl⟩ := List.mem_map.mp hj
    obtain ⟨hrow, hstatus, -⟩ := LeaseService.row_of_findExpiredLeases hjob
    have hrecord := (LeaseService.record_reapExpired hswept).2 job hjob
    rw [LeaseService.reapRecord] at hrecord
    by_cases hexhausted : job.maxAttempts ≤ job.attempts
    · rw [if_pos hexhausted, LeaseService.failRecord_of_row hrow hstatus] at hrecord
      rw [decide_eq_true (mem_failedByReap.mpr ⟨job, hjob, rfl, hexhausted⟩), Bool.true_or]
      refine deadLettered_eq_true.mpr ⟨(JobRepository.failExpiredLease
        LeaseService.leaseExpiredCode LeaseService.leaseExpiredMessage now true).values job,
        ?_, rfl⟩
      rw [← hdb, hrecord, LeaseService.failed, JobRecord.enqueue_row]
    · rw [if_neg hexhausted, LeaseService.requeueRecord_of_row hrow hstatus] at hrecord
      have hspared : job.id ∉ failedByReap s.db locked now batchSize := by
        intro hmem
        obtain ⟨job', hjob', hid, hexhausted'⟩ := mem_failedByReap.mp hmem
        have hsame := (LeaseService.row_of_findExpiredLeases hjob').1
        rw [hid] at hsame
        obtain rfl := Option.some.inj (hrow.symm.trans hsame)
        exact hexhausted hexhausted'
      have hrow' : (s'.db.record job.id).row =
          some ((JobRepository.requeueExpiredLease now).values job) := by
        rw [← hdb, hrecord]
        rfl
      rw [decide_eq_false hspared, Bool.false_or, Bool.eq_iff_iff, deadLettered_eq_true,
        deadLettered_eq_true, hrow, hrow']
      simp [JobRepository.requeueExpiredLease]
  · have hspared : j ∉ failedByReap s.db locked now batchSize := fun hmem => by
      obtain ⟨job, hjob, rfl, -⟩ := mem_failedByReap.mp hmem
      exact hj (List.mem_map_of_mem hjob)
    rw [decide_eq_false hspared, Bool.false_or]
    exact deadLettered_congr (congrArg JobRecord.row (record_of_not_reaped hstep hj))

/-- A reap takes up the dead letters of the jobs that it fails. -/
lemma located_of_reap (hreach : (orchestrator settings).Reachable Always s)
    (h : Located s lost j place)
    (hstep : s.step settings (.sweep .reapExpired tx locked batchSize now) = some s') :
    ∃ place', Located s' lost j place' := by
  obtain ⟨pushes, hrun, hunpublished⟩ := pushes_of_step hstep
  obtain ⟨-, hworkers, -⟩ := step_sweep hstep
  have hqueue : s'.queue = s.queue := by
    cases systemStep_of_step hstep
    rfl
  have hcount : s'.unpublished.count (.deadLetter j) = s.unpublished.count (.deadLetter j) +
      (failedByReap s.db locked now batchSize).count j := by
    rw [hunpublished, List.count_append, count_reap hrun]
  have hcarried : ∀ c, (s'.workers c).carries j = (s.workers c).carries j := fun c => by
    rw [hworkers]
  have hdead := deadLettered_of_reap (j := j) hstep
  by_cases hfailed : j ∈ failedByReap s.db locked now batchSize
  · obtain ⟨job, hjob, rfl, hexhausted⟩ := mem_failedByReap.mp hfailed
    obtain ⟨hrow, hstatus, -⟩ := LeaseService.row_of_findExpiredLeases hjob
    obtain rfl : place = .nowhere := by
      refine h.nowhere_of_row (deadLetterSound_of_reachable hreach job.id) hrow fun hset => ?_
      cases hset.symm.trans hstatus
    have hone : (failedByReap s.db locked now batchSize).count job.id = 1 :=
      List.count_eq_one_of_mem ((List.filter_sublist.map Job.id).nodup Table.nodup_select) hfailed
    refine ⟨.unpublished, ?_, ?_, fun c => ?_, ?_, ?_⟩
    · rw [hdead, decide_eq_true hfailed, Bool.true_or]
      exact iff_of_true rfl nofun
    · rw [hcount, hone, h.unpublished]
      rfl
    · rw [hcarried, h.carried]
      exact iff_of_false nofun nofun
    · rw [hqueue, h.listed]
      rfl
    · exact h.lost.trans (iff_of_false nofun nofun)
  · rw [decide_eq_false hfailed, Bool.false_or] at hdead
    have hnone := List.count_eq_zero.mpr hfailed
    exact ⟨place, h.of_same hdead (by rw [hcount, hnone, Nat.add_zero]) hcarried (by rw [hqueue])
      rfl⟩

end Sweeps

/-- A dead letter that waits to be sent is in no other place. -/
lemma Located.eq_unpublished (h : Located s lost j place) (hmem : .deadLetter j ∈ s.unpublished) :
    place = .unpublished := by
  by_contra hplace
  have hcount := h.unpublished
  rw [if_neg hplace, List.count_eq_zero] at hcount
  exact hcount hmem

/-- A push that reaches Redis. -/
lemma located_of_published {push : Push} (h : Located s lost j place)
    (hmem : push ∈ s.unpublished) :
    ∃ place', Located { s with
      queue := s.queue.push push
      unpublished := s.unpublished.erase push } lost j place' := by
  by_cases hpush : push = .deadLetter j
  · subst hpush
    obtain rfl := h.eq_unpublished hmem
    refine ⟨.listed, h.deadLettered.trans (iff_of_true nofun nofun), ?_,
      fun c => (h.carried c).trans (iff_of_false nofun nofun), ?_,
      h.lost.trans (iff_of_false nofun nofun)⟩
    · change (s.unpublished.erase (.deadLetter j)).count (.deadLetter j) = 0
      rw [List.count_erase_self, h.unpublished]
      rfl
    · change (j :: s.queue.deadLetters).count j = 1
      rw [List.count_cons_self, h.listed]
      rfl
  · refine ⟨place, h.of_same rfl (List.count_erase_of_ne (Ne.symm hpush)) (fun _ => rfl) ?_ rfl⟩
    cases push with
    | publish i priority => cases priority <;> rfl
    | deadLetter i => exact List.count_cons_of_ne fun hi => hpush (congrArg Push.deadLetter hi)

/-- A push that raises. -/
lemma located_of_publishFailed {push : Push} (h : Located s lost j place)
    (hmem : push ∈ s.unpublished) :
    ∃ place', Located { s with unpublished := s.unpublished.erase push }
      (fun i => lost i || s.loses i (.publishFails push)) j place' := by
  by_cases hpush : push = .deadLetter j
  · subst hpush
    obtain rfl := h.eq_unpublished hmem
    refine ⟨.lost, h.deadLettered.trans (iff_of_true nofun nofun), ?_,
      fun c => (h.carried c).trans (iff_of_false nofun nofun), h.listed, iff_of_true ?_ rfl⟩
    · change (s.unpublished.erase (.deadLetter j)).count (.deadLetter j) = 0
      rw [List.count_erase_self, h.unpublished]
      rfl
    · simp [System.loses]
  · refine ⟨place, h.of_same rfl (List.count_erase_of_ne (Ne.symm hpush)) (fun _ => rfl) rfl ?_⟩
    simp [System.loses, hpush]

/-- A worker process that dies takes the dead letters with it that its tasks carried. -/
lemma located_of_crashed {workerId : String} (h : Located s lost j place) :
    ∃ place', Located { s with
      workers := fun c => if c.workerId = workerId then .ended else s.workers c }
      (fun i => lost i || s.loses i (.crash workerId)) j place' := by
  have hgone : ∀ c : Coroutine settings.workerConcurrency, c.workerId = workerId →
      (if c.workerId = workerId then Consumer.ended else s.workers c).carries j = false :=
    fun c hc => by rw [if_pos hc]; rfl
  have hkept : ∀ c : Coroutine settings.workerConcurrency,
      (if c.workerId = workerId then Consumer.ended else s.workers c).carries j = true →
      (s.workers c).carries j = true := by
    intro c hc
    by_cases hworker : c.workerId = workerId
    · rw [hgone c hworker] at hc
      cases hc
    · rwa [if_neg hworker] at hc
  by_cases hslot : ∃ slot, (s.workers ⟨workerId, slot⟩).carries j
  · obtain ⟨slot, hcarries⟩ := hslot
    refine ⟨.lost, h.lose hcarries (fun d _ hd => hkept d hd) (hgone _ rfl) rfl rfl rfl ?_⟩
    rw [Bool.or_eq_true]
    exact Or.inr (decide_eq_true ⟨slot, hcarries⟩)
  · refine ⟨place, h.of_same rfl rfl (fun c => ?_) rfl ?_⟩
    · rw [Bool.eq_iff_iff]
      refine ⟨hkept c, fun hcarries => ?_⟩
      have hworker : c.workerId ≠ workerId := by
        rintro rfl
        exact hslot ⟨c.slot, hcarries⟩
      change (if c.workerId = workerId then Consumer.ended else s.workers c).carries j = true
      rwa [if_neg hworker]
    · have hnone : s.loses j (.crash workerId) = false := decide_eq_false hslot
      rw [hnone, Bool.or_false]

/-- **One step.**  The dead letter of a job stays in one place. -/
lemma located_of_step (hreach : (orchestrator settings).Reachable Always s)
    (h : Located s lost j place) (hkeeps : KeepsDeadLetters (s, lost) l)
    (hstep : (orchestrator settings).step s l = some s') :
    ∃ place', Located s' (fun i => lost i || s.loses i l) j place' := by
  have hlost : s.loses j l = false → (lost j || s.loses j l) = lost j := fun hnone => by
    rw [hnone, Bool.or_false]
  have hdead : (∀ tx locked batchSize now, l ≠ .sweep .reapExpired tx locked batchSize now) →
      (∀ c action, l ≠ .worker c action) → s'.db.deadLettered j = s.db.deadLettered j :=
    fun hreap hworker => deadLettered_of_jobStep (deadLetterSound_of_reachable hreach j)
      (jobStep_of_reachable hreach hstep j) hreap fun c _ _ _ _ _ hl => absurd hl (hworker c _)
  have hsystem : SystemStep s l s' := systemStep_of_step hstep
  cases hsystem with
  | ticked | submitted => exact ⟨place, h.of_same rfl rfl (fun _ => rfl) rfl (hlost rfl)⟩
  | submission | cancel =>
      refine ⟨place, h.of_same (hdead ?_ ?_) rfl (fun _ => rfl) rfl (hlost rfl)⟩
      · exact fun _ _ _ _ => nofun
      · exact fun _ _ => nofun
  | sweep kind tx locked batchSize now db pushes htimely hkind hrun =>
      by_cases hreap : kind = .reapExpired
      · subst hreap
        obtain ⟨place', hplace⟩ := located_of_reap hreach h hstep
        exact ⟨place', hplace.of_same rfl rfl (fun _ => rfl) rfl (hlost rfl)⟩
      · refine ⟨place, h.of_same (hdead ?_ ?_) ?_ (fun _ => rfl) rfl (hlost rfl)⟩
        · exact fun _ _ _ _ heq => hreap (Label.sweep.inj heq).1
        · exact fun _ _ => nofun
        · have hone : ∀ i, (s.db.record i).outbox.length ≤ 1 := fun i =>
            (linked_of_reachable hreach i).outbox_le
          rw [List.count_append, count_pushes hone hreap hrun, Nat.add_zero]
  | published push hmem =>
      obtain ⟨place', hplace⟩ := located_of_published h hmem
      exact ⟨place', hplace.of_same rfl rfl (fun _ => rfl) rfl (hlost rfl)⟩
  | publishFailed push hmem => exact located_of_publishFailed h hmem
  | redis queue hfaulty =>
      refine ⟨place, h.of_same rfl rfl (fun _ => rfl) ?_ (hlost rfl)⟩
      exact congrArg (List.count j) hkeeps
  | worker c action => exact located_of_worker hreach h hstep
  | crashed workerId => exact located_of_crashed h

/-- **One run.**  In every reachable state the dead letter of every job is in one place. -/
theorem located_of_reachable {p : System settings.workerConcurrency × (UUID → Bool)}
    (h : (ledger settings).Reachable KeepsDeadLetters p) (j : UUID) :
    ∃ place, Located p.1 p.2 j place := by
  refine Reachable.invariant (I := fun p : System settings.workerConcurrency × (UUID → Bool) =>
    ∀ j, ∃ place, Located p.1 p.2 j place) ?_ ?_ h j
  · rintro ⟨s, lost⟩ ⟨⟨clock, rfl⟩, rfl⟩ j
    exact ⟨.nowhere, iff_of_false nofun (fun h => h rfl), rfl, fun _ => iff_of_false nofun nofun,
      rfl, iff_of_false nofun nofun⟩
  · rintro ⟨s, lost⟩ l ⟨s', lost'⟩ hreach hkeeps hstep hbefore j
    obtain ⟨hstep, hwatch⟩ := observing_step.mp hstep
    obtain rfl : lost' = fun i => lost i || s.loses i l := hwatch
    obtain ⟨place, hplace⟩ := hbefore j
    exact located_of_step (hreach.of_observing fun _ _ _ => trivial) hplace hkeeps hstep

end Parts

/-- **The list agrees with the database exactly when no dead letter was lost.**  In a run in which
Redis keeps its list, whenever no sweep and no execution is in progress the dead-letter list has
the id of every dead-lettered job exactly once and no other id, if and only if no step of the run
has lost the push of a dead letter: by an exception of Redis in the sweep or in the worker that
had committed it, or because that worker ended. -/
theorem dead_letters_agree_iff {p : System settings.workerConcurrency × (UUID → Bool)}
    (h : (ledger settings).Reachable KeepsDeadLetters p) (hquiescent : p.1.Quiescent) :
    p.1.DeadLettersAgree ↔ ∀ jobId, p.2 jobId = false := by
  refine forall_congr' fun jobId => ?_
  obtain ⟨place, hplace⟩ := located_of_reachable h jobId
  rw [hplace.listed]
  cases place with
  | nowhere =>
      have hdead : ¬ p.1.db.deadLettered jobId := fun hset => hplace.deadLettered.mp hset rfl
      rw [if_neg hdead]
      exact iff_of_true rfl (Bool.eq_false_iff.mpr fun hset => nomatch hplace.lost.mp hset)
  | unpublished =>
      have hcount := hplace.unpublished
      rw [hquiescent.published] at hcount
      cases hcount
  | carried c =>
      obtain ⟨e, he, -⟩ := Consumer.carries_iff.mp ((hplace.carried c).mpr rfl)
      exact absurd he (hquiescent.idle c e)
  | listed =>
      rw [if_pos (hplace.deadLettered.mpr nofun)]
      exact iff_of_true rfl (Bool.eq_false_iff.mpr fun hset => nomatch hplace.lost.mp hset)
  | lost =>
      rw [if_pos (hplace.deadLettered.mpr nofun), hplace.lost.mpr rfl]
      exact iff_of_false nofun nofun

namespace Scenario

def isIdle : Consumer → Bool
  | .idle => true
  | _ => false

/-- The only attempt of a job fails, and its failure is committed as a dead letter. -/
def deadLettered : List (Label 4) :=
  submitted 1 ++ dispatched ++ claim first 3 0 ++
    [.worker first (.handlerRaises (.retryable "TRANSIENT_FAILURE" "failed")),
      .worker first .readCancellation, finalize first 4 0]

/-- A run of the first coroutine that ends with nothing in progress. -/
lemma quiescent_of_run (ls : List (Label 4)) (q : System 4 × (UUID → Bool) → Bool)
    (h : ((ledger {}).runUnder (fun p l => KeepsDeadLetters p l ∧ ofTwo l)
      (System.start 4 0, fun _ => false) ls).any fun p =>
        p.1.unpublished.isEmpty && isIdle (p.1.workers first) &&
          isIdle (p.1.workers elsewhere) && q p) :
    ∃ p, (ledger {}).Reachable KeepsDeadLetters p ∧ p.1.Quiescent ∧ q p := by
  obtain ⟨p, hsteps, hp⟩ := exists_of_runUnder _ _ _ h
  simp only [Bool.and_eq_true, List.isEmpty_iff] at hp
  obtain ⟨⟨⟨hunpublished, hfirst⟩, helsewhere⟩, hq⟩ := hp
  refine ⟨p, ⟨_, ⟨⟨0, rfl⟩, rfl⟩, hsteps.mono fun _ _ hC => hC.1⟩, ⟨hunpublished, ?_⟩, hq⟩
  intro c e he
  by_cases hc : c = first
  · rw [← hc, he] at hfirst
    cases hfirst
  · by_cases hc' : c = elsewhere
    · rw [← hc', he] at helsewhere
      cases helsewhere
    · have hidle : p.1.workers c = .idle := by
        refine Steps.preserves (I := fun p => p.1.workers c = .idle) ?_ hsteps rfl
        intro p l p' hl hstep hbefore
        exact (idle_of_ofTwo (observing_step.mp hstep).1 hl.2 hc hc').trans hbefore
      rw [he] at hidle
      cases hidle

end Scenario

/-- The worker pushes the dead letter. -/
theorem dead_letters_agree_iff_pushed :
    ∃ p : System 4 × (UUID → Bool), (ledger {}).Reachable KeepsDeadLetters p ∧ p.1.Quiescent ∧
      p.1.queue.deadLetters = [Scenario.jobId] ∧
      (p.1.DeadLettersAgree ↔ ∀ jobId, p.2 jobId = false) := by
  obtain ⟨p, hreach, hquiescent, hlisted⟩ := Scenario.quiescent_of_run
    (Scenario.deadLettered ++
      [.worker Scenario.first .pushDeadLetter, .worker Scenario.first .returns])
    (fun p => p.1.queue.deadLetters = [Scenario.jobId]) (by decide +kernel)
  exact ⟨p, hreach, hquiescent, of_decide_eq_true hlisted, dead_letters_agree_iff hreach hquiescent⟩

/-- The push of the dead letter raises a `RedisError`, and no step of the system makes up for it. -/
theorem dead_letter_lost :
    ∃ p : System 4 × (UUID → Bool), (ledger {}).Reachable KeepsDeadLetters p ∧ p.1.Quiescent ∧
      p.1.db.deadLettered Scenario.jobId = true ∧ p.1.queue.deadLetters = [] ∧
      ¬ p.1.DeadLettersAgree := by
  obtain ⟨p, hreach, hquiescent, hp⟩ := Scenario.quiescent_of_run
    (Scenario.deadLettered ++ [.worker Scenario.first .fails, .worker Scenario.first .returns])
    (fun p => p.1.db.deadLettered Scenario.jobId && p.1.queue.deadLetters.isEmpty)
    (by decide +kernel)
  obtain ⟨hdead, hlist⟩ := Bool.and_eq_true_iff.mp hp
  have hnil : p.1.queue.deadLetters = [] := List.isEmpty_iff.mp hlist
  refine ⟨p, hreach, hquiescent, hdead, hnil, fun hagree => ?_⟩
  have hcount := hagree Scenario.jobId
  rw [hnil, if_pos hdead] at hcount
  cases hcount

end JobOrchestrator
