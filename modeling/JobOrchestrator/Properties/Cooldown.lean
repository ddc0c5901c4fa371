import JobOrchestrator.Properties.Coherence
import JobOrchestrator.Properties.Publication

/-!
# The cooldown of redelivery

`redeliver_stuck` selects the `QUEUED` jobs whose `last_dispatched_at` is older than
`queue_stuck_seconds`, and stamps what it selects.  The cutoff and the stamps are read from the
clock at different moments, the cutoff first.
-/

namespace JobOrchestrator

open ExecutionService SubmissionService CancellationService TransitionSystem

variable {settings : Settings}

/-- The instant at which a sweep puts a job on the queue. -/
def Label.dispatchedAt {concurrency : ℕ} (j : UUID) : Label concurrency → Option Time
  | .sweep kind _ _ _ now => some (kind.dispatchedAt now j)
  | _ => none

/-- Whether a step selects a job for redelivery. -/
def redelivers (settings : Settings) {concurrency : ℕ} (s : System concurrency) (j : UUID) :
    Label concurrency → Bool
  | .sweep (.redeliverStuck _) _ locked batchSize now =>
      (JobRepository.findStuckQueued s.db locked (now - seconds settings.queueStuckSeconds)
        batchSize).any fun job => job.id = j
  | _ => false

/-- The dispatch stamps of a job since it entered `QUEUED`, none while it has another status. -/
def dispatchStamps (settings : Settings) {concurrency : ℕ} (j : UUID) (stamps : List Time)
    (s : System concurrency) (l : Label concurrency) (s' : System concurrency) : List Time :=
  if s'.status j ≠ some .queued then []
  else if s.status j ≠ some .queued then (l.dispatchedAt j).toList
  else if redelivers settings s j l then stamps ++ (l.dispatchedAt j).toList
  else stamps

/-! ## What a step does to the stamp of a queued job -/

section Stamp

variable {s s' : System settings.workerConcurrency} {j : UUID}
  {l : Label settings.workerConcurrency} {job job' : Job}

/-- A statement that makes a job `QUEUED` stamps it with the clock of its sweep. -/
lemma stamp_of_entry {u : JobUpdate} (hu : Issues s j l u) (hguard : u.guard job)
    (hbefore : job.status ≠ .queued) (hafter : (u.values job).status = .queued) :
    (u.values job).lastDispatchedAt = l.dispatchedAt j := by
  cases hu with
  | markQueued | moveRetryToQueued | requeueExpiredLease => rfl
  | heartbeat | updateProgress => exact absurd hafter hbefore
  | markRedispatched => exact absurd hafter hbefore
  | finalize e outcome => cases outcome <;> cases hafter
  | requestRunningCancellation | cancelInactive | claimForExecution => cases hafter
  | failExpiredLease | expire => cases hafter

/-- Every statement but that of a redelivery takes a `QUEUED` job out of this status. -/
lemma not_queued_of_issues {u : JobUpdate} (hu : Issues s j l u) (hguard : u.guard job)
    (hl : ∀ stamp tx locked batchSize now, l ≠ .sweep (.redeliverStuck stamp) tx locked batchSize
      now) (hbefore : job.status = .queued) : (u.values job).status ≠ .queued := by
  intro hafter
  cases hu with
  | markQueued => cases hbefore.symm.trans (JobRepository.markQueued_guard.mp hguard)
  | moveRetryToQueued =>
      cases hbefore.symm.trans (JobRepository.moveRetryToQueued_guard.mp hguard)
  | requeueExpiredLease =>
      cases hbefore.symm.trans (JobRepository.requeueExpiredLease_guard.mp hguard)
  | heartbeat => cases hbefore.symm.trans (JobRepository.heartbeat_guard.mp hguard).2
  | updateProgress =>
      rcases (JobRepository.updateProgress_guard.mp hguard).2 with h | h <;>
        cases hbefore.symm.trans h
  | markRedispatched => exact absurd rfl (hl _ _ _ _ _)
  | finalize e outcome => cases outcome <;> cases hafter
  | requestRunningCancellation | cancelInactive | claimForExecution => cases hafter
  | failExpiredLease | expire => cases hafter

/-- A redelivery stamps the jobs that it selects and leaves the others alone. -/
lemma row_of_redelivery {stamp : UUID → Time} {tx : Tx} {locked : List UUID} {batchSize : ℕ}
    {now : Time}
    (hstep : (orchestrator settings).step s (.sweep (.redeliverStuck stamp) tx locked batchSize now)
      = some s') (hrow : (s.db.record j).row = some job) :
    if redelivers settings s j (.sweep (.redeliverStuck stamp) tx locked batchSize now) then
      (∀ t, job.lastDispatchedAt = some t → t + seconds settings.queueStuckSeconds < stamp j) ∧
        (s'.db.record j).row = some ((JobRepository.markRedispatched (stamp j)).values job)
    else (s'.db.record j).row = some job := by
  obtain ⟨pushes, hrun, -⟩ := pushes_of_step hstep
  obtain ⟨swept, hswept, heq⟩ := Option.map_eq_some_iff.mp hrun
  obtain ⟨hdb, -⟩ := Prod.mk.inj heq
  obtain ⟨hother, hselected⟩ := DispatchService.record_redeliverStuck hswept
  split
  · rename_i hredelivers
    obtain ⟨job', hjob', hid⟩ := List.any_eq_true.mp hredelivers
    obtain rfl := of_decide_eq_true hid
    have hrow' : (s.db.record job'.id).row = some job' := Table.get?_of_mem_select hjob'
    obtain rfl := Option.some.inj (hrow'.symm.trans hrow)
    have hstuck := (Table.mem_of_mem_select hjob').2
    simp only [Bool.and_eq_true, decide_eq_true_eq] at hstuck
    obtain ⟨⟨-, hstatus⟩, hcutoff⟩ := hstuck
    constructor
    · intro t ht
      -- the cutoff was computed from an instant before the stamp
      have hlate : t < now - seconds settings.queueStuckSeconds := by
        rw [ht] at hcutoff
        exact of_decide_eq_true hcutoff
      have hstamp : now ≤ stamp job'.id := by
        have hstep' : s.step settings (.sweep (.redeliverStuck stamp) tx locked batchSize now) =
            some s' := hstep
        cases systemStep_of_step hstep' with
        | sweep _ _ _ _ _ _ _ _ htimely _ =>
            have hboth := List.all_eq_true.mp htimely job' hjob'
            exact of_decide_eq_true (Bool.and_eq_true_iff.mp hboth).1
      linarith
    · have hguard : (JobRepository.markRedispatched (stamp job'.id)).guard job' :=
        JobRepository.markRedispatched_guard.mpr hstatus
      rw [← hdb, hselected job' hjob', JobRecord.updateRow, hrow, Option.map_some,
        JobUpdate.apply_of_guard hguard]
  · rename_i hredelivers
    have hunselected : j ∉ (JobRepository.findStuckQueued s.db locked
        (now - seconds settings.queueStuckSeconds) batchSize).map Job.id := by
      intro hmem
      obtain ⟨job', hjob', hid⟩ := List.mem_map.mp hmem
      exact hredelivers (List.any_eq_true.mpr ⟨job', hjob', decide_eq_true hid⟩)
    rw [← hdb, hother j hunselected, hrow]

end Stamp

/-! ## The stamps of a run -/

/-- The last stamp of a queued job is the one that its row carries, and each stamp is more than the
cooldown after the ones before it. -/
structure Spaced {concurrency : ℕ} (settings : Settings) (j : UUID)
    (p : System concurrency × List Time) : Prop where
  last : ∀ job, (p.1.db.record j).row = some job → job.status = .queued →
    p.2.getLast? = job.lastDispatchedAt
  apart : 0 ≤ settings.queueStuckSeconds →
    p.2.Pairwise fun earlier later => earlier + seconds settings.queueStuckSeconds < later

/-- A stamp that is more than the cooldown after the last one is so after every one. -/
lemma pairwise_append_stamp {stamps : List Time} {window stamp : Time} (hwindow : 0 ≤ window)
    (h : stamps.Pairwise fun earlier later => earlier + window < later)
    (hlast : ∀ t, stamps.getLast? = some t → t + window < stamp) :
    (stamps ++ [stamp]).Pairwise fun earlier later => earlier + window < later := by
  refine List.pairwise_append.mpr ⟨h, List.pairwise_singleton .., fun t ht u hu => ?_⟩
  obtain rfl := List.mem_singleton.mp hu
  rcases List.eq_nil_or_concat stamps with rfl | ⟨before, t', hstamps⟩
  · cases ht
  · rw [List.concat_eq_append] at hstamps
    subst hstamps
    have hnext : t' + window < u := hlast t' List.getLast?_concat
    rcases List.mem_append.mp ht with hbefore | hmem
    · have hspaced : t + window < t' :=
        (List.pairwise_append.mp h).2.2 t hbefore t' (List.mem_singleton_self t')
      linarith
    · obtain rfl := List.mem_singleton.mp hmem
      exact hnext

/-- A list of which no two members are related has at most one. -/
lemma length_le_one_of_pairwise {α : Type*} {R : α → α → Prop} {xs : List α} (h : xs.Pairwise R)
    (hR : ∀ x ∈ xs, ∀ y ∈ xs, ¬ R x y) : xs.length ≤ 1 := by
  match xs with
  | [] => exact Nat.zero_le 1
  | [x] => exact le_rfl
  | x :: y :: rest =>
      have hxy : R x y := (List.pairwise_cons.mp h).1 y List.mem_cons_self
      exact absurd hxy (hR x List.mem_cons_self y (List.mem_cons_of_mem x List.mem_cons_self))

section Run

variable {s s' : System settings.workerConcurrency} {j : UUID}
  {l : Label settings.workerConcurrency} {stamps : List Time}

lemma exists_of_status {status : JobStatus} (h : s.status j = some status) :
    ∃ job, (s.db.record j).row = some job ∧ job.status = status :=
  Option.map_eq_some_iff.mp h

/-- The stamps of a job that a step leaves `QUEUED`. -/
lemma spaced_of_queued {job : Job} (hstep : (orchestrator settings).step s l = some s')
    (hreach : (orchestrator settings).Reachable Always s) (h : Spaced settings j (s, stamps))
    (hrow : (s.db.record j).row = some job) (hbefore : job.status = .queued)
    (hafter : s'.status j = some .queued) :
    Spaced settings j (s', if redelivers settings s j l then stamps ++ (l.dispatchedAt j).toList
      else stamps) := by
  have hlast : stamps.getLast? = job.lastDispatchedAt := h.last job hrow hbefore
  by_cases hl : ∃ stamp tx locked batchSize now,
      l = .sweep (.redeliverStuck stamp) tx locked batchSize now
  · obtain ⟨stamp, tx, locked, batchSize, now, rfl⟩ := hl
    have heffect := row_of_redelivery hstep hrow
    split at heffect
    · rename_i hredelivers
      obtain ⟨hlate, hrow'⟩ := heffect
      rw [if_pos hredelivers]
      constructor
      · intro job' hjob' _
        obtain rfl := Option.some.inj (hrow'.symm.trans hjob')
        exact List.getLast?_concat
      · intro hwindow
        have hnonneg : 0 ≤ seconds settings.queueStuckSeconds :=
          mul_nonneg hwindow (by decide)
        exact pairwise_append_stamp hnonneg (h.apart hwindow)
          fun t ht => hlate t (hlast.symm.trans ht)
    · rename_i hredelivers
      rw [if_neg hredelivers]
      exact ⟨fun job' hjob' _ => Option.some.inj (heffect.symm.trans hjob') ▸ hlast, h.apart⟩
  · have hother : ∀ stamp tx locked batchSize now,
        l ≠ .sweep (.redeliverStuck stamp) tx locked batchSize now :=
      fun stamp tx locked batchSize now heq => hl ⟨stamp, tx, locked, batchSize, now, heq⟩
    have hredelivers : redelivers settings s j l = false := by
      unfold redelivers
      split
      · exact absurd rfl (hother _ _ _ _ _)
      · rfl
    rw [hredelivers, if_neg Bool.false_ne_true]
    have hlife : JobStep s j l (s'.life j) := jobStep_of_step (linked_of_reachable hreach) j hstep
    rcases row_of_jobStep_of_row hlife hrow with hsame | ⟨u, hu, hguard, hvalues⟩
    · exact ⟨fun job' hjob' _ => Option.some.inj (hsame.symm.trans hjob') ▸ hlast, h.apart⟩
    · obtain ⟨job', hrow', hstatus⟩ := exists_of_status hafter
      obtain rfl := Option.some.inj (hvalues.symm.trans hrow')
      exact absurd hstatus (not_queued_of_issues hu hguard hother hbefore)

lemma spaced_of_step (hstep : (orchestrator settings).step s l = some s')
    (hreach : (orchestrator settings).Reachable Always s) (h : Spaced settings j (s, stamps)) :
    Spaced settings j (s', dispatchStamps settings j stamps s l s') := by
  unfold dispatchStamps
  by_cases hafter : s'.status j = some .queued
  · rw [if_neg (not_not.mpr hafter)]
    by_cases hbefore : s.status j = some .queued
    · rw [if_neg (not_not.mpr hbefore)]
      obtain ⟨job, hrow, hstatus⟩ := exists_of_status hbefore
      exact spaced_of_queued hstep hreach h hrow hstatus hafter
    · rw [if_pos hbefore]
      refine ⟨fun job' hjob' hqueued => ?_, fun _ => ?_⟩
      · have hlinked := linked_of_reachable hreach
        have hlife : JobStep s j l (s'.life j) := jobStep_of_step hlinked j hstep
        have hstamp : job'.lastDispatchedAt = l.dispatchedAt j := by
          rcases row_of_jobStep hlife with
            hsame | ⟨_, _, _, -, hcreated⟩ | ⟨u, job, hu, hrow, hguard, hvalues⟩
          · have hstatus : s.status j = some job'.status :=
              congrArg (Option.map Job.status) (hsame.symm.trans hjob')
            exact absurd (hqueued ▸ hstatus) hbefore
          · obtain rfl := Option.some.inj (hcreated.symm.trans hjob')
            cases hqueued
          · obtain rfl := Option.some.inj (hvalues.symm.trans hjob')
            refine stamp_of_entry hu hguard (fun hstatus => hbefore ?_) hqueued
            exact (congrArg (Option.map Job.status) hrow).trans (congrArg some hstatus)
        rw [hstamp]
        cases l.dispatchedAt j <;> rfl
      · cases l.dispatchedAt j <;> simp
  · rw [if_pos hafter]
    refine ⟨fun job' hjob' hqueued => absurd ?_ hafter, fun _ => List.Pairwise.nil⟩
    exact (congrArg (Option.map Job.status) hjob').trans (congrArg some hqueued)

lemma spaced_of_reachable {p : System settings.workerConcurrency × List Time}
    (h : ((orchestrator settings).observing [] (dispatchStamps settings j)).Reachable Always p) :
    Spaced settings j p := by
  refine Reachable.invariant (fun p hinit => ?_) (fun p l p' hreach _ hstep hspaced => ?_) h
  · obtain ⟨⟨clock, hstart⟩, hstamps⟩ := hinit
    constructor
    · intro job hjob
      rw [hstart] at hjob
      cases hjob
    · intro _
      rw [hstamps]
      exact List.Pairwise.nil
  · obtain ⟨hstep', hwatch⟩ := observing_step.mp hstep
    have hkept := spaced_of_step hstep' (hreach.of_observing fun _ _ _ => trivial) hspaced
    rwa [← hwatch] at hkept

end Run

/-- **The cooldown of redelivery.**  In every run, the stamps that have put a job on the queue
since it entered `QUEUED` are more than `queue_stuck_seconds` apart from one another, so at most one
of them lies in any window of this length. -/
theorem redelivery_cooldown {j : UUID} {p : System settings.workerConcurrency × List Time}
    (h : ((orchestrator settings).observing [] (dispatchStamps settings j)).Reachable Always p) :
    (p.2.Pairwise fun stamp stamp' => seconds settings.queueStuckSeconds < |stamp' - stamp|) ∧
      ∀ t, p.2.countP (fun stamp => t ≤ stamp ∧ stamp ≤ t + seconds settings.queueStuckSeconds)
        ≤ 1 := by
  have hapart : p.2.Pairwise fun stamp stamp' =>
      seconds settings.queueStuckSeconds < |stamp' - stamp| := by
    by_cases hwindow : 0 ≤ settings.queueStuckSeconds
    · refine ((spaced_of_reachable h).apart hwindow).imp fun hlater => ?_
      exact lt_of_lt_of_le (lt_sub_iff_add_lt'.mpr hlater) (le_abs_self _)
    · -- a negative cooldown asks for nothing
      have hneg : seconds settings.queueStuckSeconds < 0 :=
        mul_neg_of_neg_of_pos (not_le.mp hwindow) (by decide)
      exact List.pairwise_of_forall fun _ _ => hneg.trans_le (abs_nonneg _)
  refine ⟨hapart, fun t => ?_⟩
  rw [List.countP_eq_length_filter]
  refine length_le_one_of_pairwise (hapart.filter _) fun stamp hstamp stamp' hstamp' => ?_
  have hin := of_decide_eq_true (List.mem_filter.mp hstamp).2
  have hin' := of_decide_eq_true (List.mem_filter.mp hstamp').2
  refine not_lt.mpr (abs_le.mpr ⟨?_, ?_⟩)
  · linarith
  · linarith

/-- A job that no worker takes: the second redelivery at the same time selects nothing. -/
theorem redelivery_cooldown_stuck :
    ∃ p : System 4 × List Time,
      ((orchestrator {}).observing [] (dispatchStamps {} Scenario.jobId)).Reachable Always p ∧
        p.2 = [0, 31000000] ∧
        (p.2.Pairwise fun stamp stamp' => seconds 30 < |stamp' - stamp|) ∧
        ∀ t, p.2.countP (fun stamp => t ≤ stamp ∧ stamp ≤ t + seconds 30) ≤ 1 := by
  obtain ⟨p, hsteps, hp⟩ := exists_of_run
    (T := (orchestrator {}).observing [] (dispatchStamps {} Scenario.jobId)) (System.start 4 0, [])
    (Scenario.submitted 5 ++ Scenario.dispatched ++ Scenario.redelivered ++
      [.sweep (.redeliverStuck fun _ => 31000000) (Scenario.tx 3) [] 1 31000000])
    (fun p => p.2 = [0, 31000000]) (by decide +kernel)
  have hreach : ((orchestrator {}).observing [] (dispatchStamps {} Scenario.jobId)).Reachable
      Always p := ⟨(System.start 4 0, []), ⟨⟨0, rfl⟩, rfl⟩, hsteps⟩
  exact ⟨p, hreach, of_decide_eq_true hp, redelivery_cooldown hreach⟩

end JobOrchestrator
