import JobOrchestrator.Properties.Ledger
import JobOrchestrator.Properties.Liveness
import JobOrchestrator.Properties.NotificationRows

/-!
# Every owner is told

A transaction that ends a job leaves a notification behind, and `dispatch_due` tries it until it is
sent or its attempts are used up.  In a run without an end in which `dispatch_due` commits again and
again, at times without a bound and with room for what is due, the owner of every job that has ended
is told so, unless every attempt to tell him has failed (`owner_told`).

A delivery that raises anything but an `httpx.HTTPError` aborts the whole sweep.  A notification of
that kind keeps all others from being sent, so it is the commits that have to come again and again.
-/

namespace JobOrchestrator

open NotificationService NotificationOutboxRepository TransitionSystem

variable {settings : Settings}

/-- `claim_due` -/
def NotificationOutbox.due (now : Time) (n : NotificationOutbox) : Bool :=
  n.status = .pending && n.nextAttemptAt ≤ now

/-- Along the run `dispatch_due` commits again and again, at times without a bound, and each time
with room for all the notifications that are due. -/
def Delivers (settings : Settings) (p : ℕ → System settings.workerConcurrency) : Prop :=
  ∀ (n : ℕ) (t : Time), ∃ m io tx batchSize now, n ≤ m ∧ t ≤ now ∧
    (p m).db.notificationOutbox.rows.countP (NotificationOutbox.due now) ≤ batchSize ∧
    (orchestrator settings).step (p m) (.sweep (.deliverNotifications io) tx [] batchSize now) =
      some (p (m + 1))

section Rows

variable {n : NotificationOutbox} {db : Database} {now : Time} {batchSize : ℕ}

lemma mem_claimDue (hn : n ∈ db.notificationOutbox.rows) (hdue : n.due now)
    (hroom : db.notificationOutbox.rows.countP (NotificationOutbox.due now) ≤ batchSize) :
    n ∈ claimDue db [] now batchSize := by
  rw [List.countP_eq_length_filter] at hroom
  have hsame : ∀ m : NotificationOutbox,
      (!([] : List UUID).contains m.id && decide (m.status = .pending) &&
        decide (m.nextAttemptAt ≤ now)) = m.due now := by
    intro m
    simp [NotificationOutbox.due]
  unfold claimDue
  simp only [hsame]
  exact Table.mem_select_of_le hn hdue hroom

lemma NotificationOutbox.Coherent.attempts_le (h : n.Coherent settings) :
    n.attempts ≤ max 1 settings.notificationMaxAttempts := by
  cases hstatus : n.status with
  | pending => exact (h.pending hstatus).le
  | sent => exact (h.sent hstatus).2
  | failed => exact (h.failed hstatus).le

end Rows

section Path

variable {p : ℕ → System settings.workerConcurrency} {k : ℕ} {j id : UUID} {job : Job}
  {n : NotificationOutbox} {s : System settings.workerConcurrency}

/-- Every delivery counts, so the row of a notification settles. -/
lemma notification_of_path (h : (orchestrator settings).Path p) (id : UUID) :
    ∃ N, ∀ m, N ≤ m → (p m).db.notificationOutbox.get? id = (p N).db.notificationOutbox.get? id := by
  let count (s : System settings.workerConcurrency) : ℕ :=
    (s.db.notificationOutbox.get? id).elim 0 fun n => n.attempts + 1
  have hbound : ∀ m, count (p m) ≤ max 1 settings.notificationMaxAttempts + 1 := by
    intro m
    cases hrow : (p m).db.notificationOutbox.get? id with
    | none => simp [count, hrow]
    | some n =>
        have hle := (coherent_of_reachable (h.reachable m) id n hrow).attempts_le
        simp only [count, hrow, Option.elim_some]
        omega
  refine h.settles (g := fun s => s.db.notificationOutbox.get? id) hbound ?_
  intro s l s' hreach hstep
  cases notificationRow_of_step (linked_of_reachable hreach) hstep id with
  | kept hsame => exact Or.inr ⟨by simp only [count, hsame], hsame⟩
  | inserted n hnone hrow => exact Or.inl (by simp [count, hnone, hrow])
  | delivered n io hrow hpending hwritten =>
      rcases @written_cases settings io n with
        ⟨now, heq⟩ | ⟨message, -, heq⟩ | ⟨t, message, -, heq⟩ | heq
      · exact Or.inl (by simp [count, hrow, hwritten, heq, sent])
      · exact Or.inl (by simp [count, hrow, hwritten, heq, failed])
      · exact Or.inl (by simp [count, hrow, hwritten, heq, rescheduled])
      · rw [heq] at hwritten
        exact Or.inr ⟨by simp only [count, hrow, hwritten], hwritten.trans hrow.symm⟩

/-- A notification whose row does not change is not `PENDING`: its next attempt becomes due. -/
lemma not_pending_of_path (hdelivers : Delivers settings p) {N : ℕ}
    (hkept : ∀ m, N ≤ m → (p m).db.notificationOutbox.get? id = some n) : n.status ≠ .pending := by
  intro hpending
  obtain ⟨m, io, tx, batchSize, now, hm, hnow, hroom, hstep⟩ := hdelivers N n.nextAttemptAt
  obtain ⟨hn, rfl⟩ := Table.get?_eq_some.mp (hkept m hm)
  have hclaimed : n ∈ claimDue (p m).db [] now batchSize :=
    mem_claimDue hn (by simp [NotificationOutbox.due, hpending, hnow]) hroom
  obtain ⟨-, -, pushes, hrun⟩ := step_sweep hstep
  obtain ⟨db, hdispatch, heq⟩ := Option.map_eq_some_iff.mp hrun
  obtain ⟨rfl, -⟩ := Prod.mk.inj heq
  have hwritten := (rows_of_dispatchDue hdispatch).2 n hclaimed
  rw [hkept (m + 1) (hm.trans m.le_succ)] at hwritten
  have hraised := written_eq_self.mp (Option.some.inj hwritten).symm
  exact dispatchDue_isSome.mp (by rw [hdispatch]; rfl) n hclaimed hraised

/-- A job that has ended has a notification. -/
lemma exists_notice (h : (orchestrator settings).Reachable Always s)
    (hrow : (s.db.record j).row = some job) (hterminal : job.status.isTerminal) :
    ∃ n, s.db.notificationOutbox.get? n.id = some n ∧ n.jobId = j ∧ n.notice ∈ job.notices := by
  have hnoticed : Noticed (s.db.record j) := noticed_of_reachable h j
  rw [Noticed, hrow, Option.map_some, Option.getD_some] at hnoticed
  obtain ⟨verdict, hverdict⟩ := Option.ne_none_iff_exists'.mp
    (fun hnone => verdict_eq_none.mp hnone hterminal)
  have hdue : job.notice verdict ∈ job.notices := by simp [Job.notices, hverdict]
  obtain ⟨n, hn, hnotice⟩ := List.mem_map.mp (hnoticed ▸ hdue)
  obtain ⟨hmem, hjob⟩ := Table.mem_children.mp hn
  exact ⟨n, Table.get?_of_mem hmem, hjob, hnotice ▸ hdue⟩

/-- **Every owner is told.**  In a run without an end that is served by `dispatch_due`, a job that
has ended has a notification that says what the job ended with, and that is sent in the end, or has
failed as often as the settings allow; from then on it is never written again. -/
theorem owner_told (h : (orchestrator settings).Path p) (hdelivers : Delivers settings p)
    (hrow : (p k).db.jobs.get? j = some job) (hterminal : job.status.isTerminal) :
    ∃ N n, (∀ m, N ≤ m → (p m).db.notificationOutbox.get? n.id = some n) ∧ n.jobId = j ∧
      n.notice ∈ job.notices ∧ (n.status = .sent ∨
        n.status = .failed ∧ n.attempts = max 1 settings.notificationMaxAttempts) := by
  obtain ⟨n₀, hrow₀, hjob, hnotice⟩ := exists_notice (h.reachable k) hrow hterminal
  obtain ⟨N, hN⟩ := notification_of_path h n₀.id
  obtain ⟨n, hn, hcontinues⟩ :=
    notification_continues (h.reachable k) (h.steps (le_max_right N k)) hrow₀
  have hlast : ∀ m, max N k ≤ m → (p m).db.notificationOutbox.get? n₀.id = some n := by
    intro m hm
    rw [hN m ((le_max_left N k).trans hm), ← hN _ (le_max_left N k), hn]
  have hid : n.id = n₀.id := (Table.get?_eq_some.mp hn).2
  have hcoherent := coherent_of_reachable (h.reachable (max N k)) n₀.id n hn
  have hsame := hcontinues.announcement
  refine ⟨max N k, n, hid.symm ▸ hlast, (congrArg Announcement.jobId hsame).trans hjob, ?_, ?_⟩
  · have hsaid : n.notice = n₀.notice := congrArg (fun a : Announcement =>
      (⟨a.userId, a.channel, a.destination, a.eventType, a.payload⟩ : Notice)) hsame
    rwa [hsaid]
  · cases hstatus : n.status with
    | pending => exact absurd hstatus (not_pending_of_path hdelivers hlast)
    | sent => exact Or.inl rfl
    | failed => exact Or.inr ⟨rfl, hcoherent.failed hstatus⟩

end Path

namespace Scenario

variable {s : System 4} {p : ℕ → System 4} {N : ℕ}

/-- The owner of the job hears of its end at the second attempt. -/
def told : List (Label 4) :=
  overspent ++ [.sweep (.deliverNotifications ⟨fun _ => .httpError "refused", fun _ => 63000000,
      fun _ => 2000000⟩) (tx 14) [] 10 63000000, .tick 2000000,
    .sweep (.deliverNotifications ⟨fun _ => .delivered, fun _ => 65000000, fun _ => 0⟩) (tx 15) []
      10 65000000]

/-- No delivery waits for a notification that is settled. -/
lemma delivers_idling (hlast : ∀ n, N ≤ n → p n = idling s (n - N))
    (hsettled : ∀ n ∈ s.db.notificationOutbox.rows, n.status ≠ .pending) (hclock : 0 ≤ s.clock) :
    Delivers {} p := by
  intro n t
  obtain ⟨m, k, hm, hlate, hbefore, hafter⟩ := exists_idling hlast hclock n t
  refine ⟨m, ⟨fun _ => .delivered, fun _ => 0, fun _ => 0⟩, tx 20, _, s.clock + (k : ℕ), hm, hlate,
    le_rfl, ?_⟩
  rw [hbefore, hafter]
  have hnone : ∀ batchSize, claimDue s.db [] (s.clock + k) batchSize = [] := by
    intro batchSize
    refine Table.select_eq_nil.mpr (Or.inr fun n hn => ?_)
    simp [hsettled n hn]
  apply step_of_idle (timely_idling hclock k)
  · simp only [Sweep.timely, idling, hnone, List.all_nil]
  · simp [Sweep.run, dispatchDue, idling, hnone]

end Scenario

/-- The run in which the first delivery is refused. -/
theorem owner_told_retried : ∃ (p : ℕ → System 4) (k : ℕ) (job : Job), (orchestrator {}).Path p ∧
    Delivers {} p ∧ (p k).db.jobs.get? Scenario.jobId = some job ∧ job.status = .cancelled ∧
    ∃ N n, (∀ m, N ≤ m → (p m).db.notificationOutbox.get? n.id = some n) ∧
      n.jobId = Scenario.jobId ∧ n.notice ∈ job.notices ∧ (n.status = .sent ∨
        n.status = .failed ∧ n.attempts = max 1 ({} : Settings).notificationMaxAttempts) := by
  obtain ⟨s, hsteps, hs⟩ := exists_of_run (T := orchestrator {}) (System.start 4 0) Scenario.told
    (fun s => s.status Scenario.jobId = some .cancelled && 0 ≤ s.clock &&
      s.db.notificationOutbox.rows.all fun n => n.status ≠ .pending && n.attempts = 2)
    (by decide +kernel)
  simp only [Bool.and_eq_true, decide_eq_true_eq, List.all_eq_true] at hs
  obtain ⟨⟨hcancelled, hclock⟩, hsettled⟩ := hs
  obtain ⟨p, N, hfirst, hnext, hlast⟩ :=
    exists_path_of_steps hsteps (Scenario.idling_zero s) Scenario.idling_next
  have hpath : (orchestrator {}).Path p := ⟨⟨0, hfirst⟩, hnext⟩
  have hdelivers := Scenario.delivers_idling hlast (fun n hn => (hsettled n hn).1) hclock
  obtain ⟨job, hjob, hstatus⟩ := Option.map_eq_some_iff.mp hcancelled
  have hrow : (p N).db.jobs.get? Scenario.jobId = some job := by
    rw [hlast N le_rfl, Nat.sub_self, Scenario.idling_zero]
    exact hjob
  exact ⟨p, N, job, hpath, hdelivers, hrow, hstatus,
    owner_told hpath hdelivers hrow (by rw [hstatus]; decide)⟩

end JobOrchestrator
