import JobOrchestrator.Library.PriorityQueue
import JobOrchestrator.Properties.Batching
import JobOrchestrator.Properties.Messages

/-!
# The order of deliveries

`publish` and `consume` make the three lists one priority queue: while Redis keeps its lists, what
the workers receive is what was published, oldest first in each priority, and never a job while a
more urgent one waits.
-/

namespace JobOrchestrator

open ExecutionService TransitionSystem

variable {settings : Settings}

namespace JobQueue

/-- `BRPOP` looks at the list of `p` before it looks at that of `q`. -/
def Before (p q : JobPriority) : Prop := priorityOrder.idxOf p < priorityOrder.idxOf q

lemma list_publish (q : JobQueue) (jobId : UUID) (p r : JobPriority) :
    (q.publish jobId p).list r = if p = r then jobId :: q.list r else q.list r := by
  cases p <;> cases r <;> rfl

/-- The priority of the list that has become shorter. -/
def taken (q q' : JobQueue) : Option JobPriority :=
  priorityOrder.find? fun p => (q'.list p).length < (q.list p).length

lemma taken_eq {q q' : JobQueue} {jobId : UUID} {p : JobPriority}
    (hlist : q.list p = q'.list p ++ [jobId]) (hothers : ∀ r, r ≠ p → q'.list r = q.list r) :
    q.taken q' = some p := by
  have hp : (q'.list p).length < (q.list p).length := by simp [hlist]
  have hr : ∀ r, r ≠ p → ¬ (q'.list r).length < (q.list r).length := by
    intro r hr
    rw [hothers r hr]
    exact Nat.lt_irrefl _
  cases p <;> simp [taken, priorityOrder, hp, hr]

end JobQueue

/-! ## What the clients of Redis see -/

section Traffic

variable {concurrency : ℕ}

/-- The message that a step puts on a priority list or takes from one. -/
def System.traffic (s : System concurrency) :
    Label concurrency → System concurrency → Option (Traffic JobPriority UUID)
  | .publish (.publish jobId priority), _ => some (.sent priority jobId)
  | .worker c .consume, s' =>
      match s'.workers c, s.queue.taken s'.queue with
      | .delivered jobId, some priority => some (.received priority jobId)
      | _, _ => none
  | _, _ => none

/-- The system, with everything its clients have seen of the priority lists. -/
def trafficLog (settings : Settings) :
    TransitionSystem (System settings.workerConcurrency × List (Traffic JobPriority UUID))
      (Label settings.workerConcurrency) :=
  (orchestrator settings).observing [] fun log s l s' => log ++ (s.traffic l s').toList

/-- Redis keeps its lists. -/
def RedisKeeps (_ : System concurrency × List (Traffic JobPriority UUID)) :
    Label concurrency → Prop
  | .redis _ => False
  | _ => True

instance (p : System concurrency × List (Traffic JobPriority UUID)) :
    ∀ l, Decidable (RedisKeeps p l)
  | .redis _ => isFalse id
  | .tick _ | .submit .. | .submission .. | .cancel .. | .sweep .. | .publish _ | .publishFails _
  | .worker .. | .crash _ => isTrue trivial

end Traffic

section Order

variable {s s' : System settings.workerConcurrency} {l : Label settings.workerConcurrency}
  {log : List (Traffic JobPriority UUID)}

/-- The lists hold what waits according to the log, the newest first. -/
structure Logged (s : System settings.workerConcurrency)
    (log : List (Traffic JobPriority UUID)) : Prop where
  ordered : Traffic.Ordered JobQueue.Before log
  listed : ∀ p, s.queue.list p = (Traffic.waiting p log).reverse

/-- A step that sends and receives nothing. -/
lemma Logged.of_lists (h : Logged s log) (hlists : ∀ p, s'.queue.list p = s.queue.list p)
    (htraffic : s.traffic l s' = none) : Logged s' (log ++ (s.traffic l s').toList) := by
  rw [htraffic, Option.toList_none, List.append_nil]
  exact ⟨h.ordered, fun p => (hlists p).trans (h.listed p)⟩

lemma Logged.publish (h : Logged s log) {jobId : UUID} {p : JobPriority}
    (hqueue : s'.queue = s.queue.publish jobId p) : Logged s' (log ++ [.sent p jobId]) := by
  refine ⟨.sent p jobId h.ordered, fun q => ?_⟩
  rw [hqueue, JobQueue.list_publish, h.ordered.waiting_sent, h.listed q]
  by_cases hq : p = q
  · rw [if_pos hq, if_pos hq, List.reverse_append]
    rfl
  · rw [if_neg hq, if_neg hq, List.append_nil]

/-- What is handed out waited longest in the first list that is not empty. -/
lemma Logged.consume (h : Logged s log) {jobId : UUID} {p : JobPriority}
    (hlist : s.queue.list p = s'.queue.list p ++ [jobId])
    (hothers : ∀ r, r ≠ p → s'.queue.list r = s.queue.list r)
    (hurgent : ∀ r, JobQueue.Before r p → s.queue.list r = []) :
    Logged s' (log ++ [.received p jobId]) := by
  have hfirst : Traffic.waiting p log = jobId :: (s'.queue.list p).reverse := by
    have hreversed := congrArg List.reverse (hlist.symm.trans (h.listed p))
    simpa using hreversed.symm
  have hempty : ∀ r, JobQueue.Before r p → Traffic.waiting r log = [] := by
    intro r hr
    have hlisted := h.listed r
    rw [hurgent r hr] at hlisted
    exact List.reverse_eq_nil_iff.mp hlisted.symm
  refine ⟨.received p jobId _ h.ordered hfirst hempty, fun q => ?_⟩
  rw [h.ordered.waiting_received hfirst hempty]
  by_cases hq : p = q
  · subst hq
    rw [if_pos rfl, List.reverse_reverse]
  · rw [if_neg hq, hothers q (Ne.symm hq), h.listed q]

lemma logged_of_step (hstep : s.step settings l = some s') (hkeeps : RedisKeeps (s, log) l)
    (h : Logged s log) : Logged s' (log ++ (s.traffic l s').toList) := by
  cases systemStep_of_step hstep with
  | published push =>
      cases push with
      | publish jobId priority => exact h.publish rfl
      | deadLetter jobId => exact h.of_lists (fun p => JobQueue.list_deadLetter) rfl
  | redis => exact hkeeps.elim
  | worker c action hworker =>
      cases hworker with
      | consumed jobId queue hidle hconsume =>
          obtain ⟨p, hlist, hothers, hurgent⟩ := JobQueue.consume_spec hconsume
          have htraffic : s.traffic (.worker c .consume)
              ({ s with queue }.become c (.delivered jobId)) = some (.received p jobId) := by
            have htaken := JobQueue.taken_eq hlist hothers
            unfold System.traffic
            simp only [System.become_self]
            simp only [System.become, htaken]
          rw [htraffic]
          exact h.consume hlist hothers hurgent
      | deadLettered => exact h.of_lists (fun p => JobQueue.list_deadLetter) rfl
      | resumed e action stage he hresumes =>
          refine h.of_lists (fun p => rfl) ?_
          cases hresumes <;> rfl
      | claimed | claimFailed | stopped | heartbeat | heartbeatFailed | passed | progressed
      | finalized | returned => exact h.of_lists (fun p => rfl) rfl
  | ticked | submitted | submission | cancel | sweep | publishFailed | crashed =>
      exact h.of_lists (fun p => rfl) rfl

/-- **Deliveries come in order.**  In every run in which Redis keeps its lists, every id that a
worker receives is the one that was published first of those that wait with its priority, and no
id of a more urgent priority waits; and in each priority, what was published is what was received,
followed by what is listed. -/
theorem deliveries_in_order (h : (trafficLog settings).Reachable RedisKeeps (s, log)) :
    Traffic.Ordered JobQueue.Before log ∧ ∀ p,
      Traffic.sentTo p log = Traffic.receivedFrom p log ++ (s.queue.list p).reverse := by
  have hlogged : Logged s log := by
    refine h.invariant (I := fun p => Logged p.1 p.2) ?_ ?_
    · rintro ⟨s, log⟩ ⟨⟨clock, rfl⟩, rfl⟩
      exact ⟨.nil, fun p => by cases p <;> rfl⟩
    · rintro ⟨s, log⟩ l ⟨s', log'⟩ - hkeeps hstep hlogged
      obtain ⟨hstep, hlog⟩ := observing_step.mp hstep
      have hafter := logged_of_step hstep hkeeps hlogged
      exact hlog ▸ hafter
  refine ⟨hlogged.ordered, fun p => ?_⟩
  rw [hlogged.listed p, List.reverse_reverse]
  exact hlogged.ordered.sentTo_eq p

/-- Two jobs are published, and a worker receives the first of them. -/
theorem deliveries_in_order_two : ∃ (s : System 4) (log : List (Traffic JobPriority UUID)),
    log = [.sent .normal ⟨1⟩, .sent .normal ⟨2⟩, .received .normal ⟨1⟩] ∧
      Traffic.Ordered JobQueue.Before log ∧
      ∀ p, Traffic.sentTo p log = Traffic.receivedFrom p log ++ (s.queue.list p).reverse := by
  obtain ⟨⟨s, log⟩, hsteps, hs⟩ := exists_of_runUnder (T := trafficLog {}) (C := RedisKeeps)
    (System.start 4 0, []) (Scenario.submitted 3 ++ Scenario.submittedToo ++
      [.sweep .dispatchPending (Scenario.tx 5) [] 2 0, .publish (.publish ⟨1⟩ .normal),
        .publish (.publish ⟨2⟩ .normal), .worker Scenario.first .consume])
    (fun p => p.2 = [.sent .normal ⟨1⟩, .sent .normal ⟨2⟩, .received .normal ⟨1⟩])
    (by decide +kernel)
  obtain ⟨hordered, hcounted⟩ := deliveries_in_order ⟨_, ⟨⟨0, rfl⟩, rfl⟩, hsteps⟩
  exact ⟨s, log, of_decide_eq_true hs, hordered, hcounted⟩

end Order

end JobOrchestrator
