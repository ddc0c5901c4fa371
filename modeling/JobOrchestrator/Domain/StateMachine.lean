import Mathlib.Data.Finset.Insert

/-!
# Statuses and the transition table

The enumerations of `app/domain/enums.py` and the transition table of
`app/domain/state_machine.py`.  The table is never consulted by the services: each of them
writes a guarded `UPDATE`, and the guards together have to stay inside it.
-/

namespace JobOrchestrator

inductive JobStatus
  | pending | queued | running | retrying | succeeded | failed | cancelling | cancelled | expired
  deriving DecidableEq, Repr

inductive JobPriority
  | low | normal | high
  deriving DecidableEq, Repr

inductive JobType
  | sleep | report | flaky | alwaysFail | llmSummary
  deriving DecidableEq, Repr

inductive JobEventType
  | submitted | queued | started | succeeded | failed | retryScheduled | cancelRequested
  | cancelled | requeued | expired
  deriving DecidableEq, Repr

inductive NotificationChannel
  | email | webhook | log
  deriving DecidableEq, Repr

inductive NotificationStatus
  | pending | sent | failed
  deriving DecidableEq, Repr

inductive OutboxStatus
  | pending | published
  deriving DecidableEq, Repr

namespace JobStatus

def all : List JobStatus :=
  [pending, queued, running, retrying, succeeded, failed, cancelling, cancelled, expired]

def terminalStatuses : Finset JobStatus := {succeeded, failed, cancelled, expired}

def validTransitions : JobStatus → Finset JobStatus
  | pending => {queued, cancelled, expired}
  | queued => {running, cancelled, expired}
  | running => {succeeded, failed, retrying, cancelling, queued}
  | retrying => {queued, cancelled}
  | cancelling => {cancelled, succeeded, failed}
  | succeeded => ∅
  | failed => ∅
  | cancelled => ∅
  | expired => ∅

def canTransition (source target : JobStatus) : Prop := target ∈ source.validTransitions

instance (source target : JobStatus) : Decidable (canTransition source target) :=
  inferInstanceAs (Decidable (target ∈ source.validTransitions))

def isTerminal (status : JobStatus) : Prop := status ∈ terminalStatuses

instance (status : JobStatus) : Decidable status.isTerminal :=
  inferInstanceAs (Decidable (status ∈ terminalStatuses))

@[simp] lemma isTerminal_iff {status : JobStatus} :
    status.isTerminal ↔
      status = succeeded ∨ status = failed ∨ status = cancelled ∨ status = expired := by
  simp [isTerminal, terminalStatuses]

/-- The terminal statuses are the ones without an outgoing transition. -/
lemma isTerminal_iff_forall_not_canTransition {status : JobStatus} :
    status.isTerminal ↔ ∀ target, ¬ status.canTransition target := by
  constructor
  · intro h target
    rcases isTerminal_iff.mp h with rfl | rfl | rfl | rfl <;> simp [canTransition, validTransitions]
  · intro h
    cases status with
    | pending => exact absurd (by decide) (h queued)
    | queued => exact absurd (by decide) (h running)
    | running => exact absurd (by decide) (h queued)
    | retrying => exact absurd (by decide) (h queued)
    | cancelling => exact absurd (by decide) (h cancelled)
    | succeeded | failed | cancelled | expired => decide

/-- The event type under which a terminal status is announced. -/
def terminalEventType : JobStatus → Option JobEventType
  | succeeded => some .succeeded
  | failed => some .failed
  | cancelled => some .cancelled
  | expired => some .expired
  | _ => none

end JobStatus

end JobOrchestrator
