import JobOrchestrator.Workers.System

/-!
# The call of `execute`

The control flow of `execute` as a function of what the calls it awaits do.  `Workers/System.lean`
takes the same flow apart into steps, which the other parties interleave with; here it is one piece
again, with the heartbeat task beside it and the two joined in the `finally` block.

An exception is its text.
-/

namespace JobOrchestrator

open ExecutionService

namespace ExecutionService

/-! ## The heartbeat task -/

/-- How the transaction of one renewal ends. -/
inductive Renewal
  | committed
  | raised (error : String)
  deriving DecidableEq

/-- `_heartbeat_loop`, given how its transaction ends after each interval that passes before the
stop event is set: the renewals it attempts, and the exception that leaves it. -/
def heartbeatLoop : List Renewal → List Renewal × Option String
  | [] => ([], none)
  | .committed :: renewals =>
      let (attempted, error) := heartbeatLoop renewals
      (.committed :: attempted, error)
  -- nothing catches the exception, so the task ends with it
  | .raised error :: _ => ([.raised error], some error)

section HeartbeatLoop

variable {renewals : List Renewal}

lemma heartbeatLoop_committed :
    heartbeatLoop (.committed :: renewals) =
      (.committed :: (heartbeatLoop renewals).1, (heartbeatLoop renewals).2) := rfl

/-- An exception leaves the loop exactly when a renewal raises. -/
lemma heartbeatLoop_error : (heartbeatLoop renewals).2 = none ↔ ∀ r ∈ renewals, r = .committed := by
  induction renewals with
  | nil => simp [heartbeatLoop]
  | cons r renewals ih =>
      cases r with
      | committed =>
          rw [heartbeatLoop_committed, List.forall_mem_cons, ih]
          exact (and_iff_right rfl).symm
      | raised error => simp [heartbeatLoop]

/-- All renewals are attempted exactly when none but the last one raises. -/
lemma heartbeatLoop_attempted :
    (heartbeatLoop renewals).1 = renewals ↔ ∀ r ∈ renewals.dropLast, r = .committed := by
  induction renewals with
  | nil => simp [heartbeatLoop]
  | cons r renewals ih =>
      cases renewals with
      | nil => cases r <;> simp [heartbeatLoop]
      | cons next renewals =>
          rw [List.dropLast_cons_cons, List.forall_mem_cons]
          cases r with
          | committed =>
              rw [heartbeatLoop_committed, List.cons_inj_right, ih]
              exact (and_iff_right rfl).symm
          | raised error => simp [heartbeatLoop]

end HeartbeatLoop

/-! ## The `try` statement -/

/-- How the call of a handler ends. -/
inductive HandlerEnding
  | returned (result : Dict)
  /-- `JobCancelledError`, raised by a checkpoint. -/
  | cancelled
  | raised (error : HandlerError)

/-- What the calls that `execute` awaits after its claim do. -/
structure Calls where
  handler : HandlerEnding
  /-- `_cancellation_requested` in `_handle_retryable` -/
  readCancellation : Except String Bool
  /-- The time of the next attempt: the clock and `compute_backoff_seconds`. -/
  nextAttemptAt : Except String Time
  /-- The finalizing transaction; when it commits, whether its `UPDATE` matched. -/
  finalize : Except String Bool
  deadLetter : Except String Unit
  renewals : List Renewal

/-- What the `try` statement has done before its `finally` block. -/
structure Finished where
  /-- A finalizing transaction has committed. -/
  committed : Bool
  error : Option String

namespace Calls

variable (calls : Calls) (claim : Claim)

/-- After the finalizing transaction that commits a dead letter, in `_handle_retryable`. -/
def bury : Finished :=
  match calls.deadLetter with
  | .error error => ⟨true, some error⟩
  | .ok () => ⟨true, none⟩

/-- The finalizing transaction with an outcome, and what follows it. -/
def finish (outcome : Outcome) : Finished :=
  match calls.finalize with
  | .error error => ⟨false, some error⟩
  | .ok hit =>
      match outcome with
      | .failed _ _ true => if hit then calls.bury else ⟨true, none⟩
      | _ => ⟨true, none⟩

/-- `_handle_retryable`, from `compute_backoff_seconds` on. -/
def backOff (code message : String) : Finished :=
  match calls.nextAttemptAt with
  | .error error => ⟨false, some error⟩
  | .ok nextAttemptAt => calls.finish (.retry code message nextAttemptAt)

/-- `_handle_retryable` -/
def handleRetryable (code message : String) : Finished :=
  match calls.readCancellation with
  | .error error => ⟨false, some error⟩
  | .ok true => calls.finish .cancelled
  | .ok false =>
      if claim.snapshot.maxAttempts ≤ claim.attemptNumber then
        calls.finish (.failed code message true)
      else calls.backOff code message

/-- The handler with the clauses of the `try` statement of `execute`. -/
def attempt : Finished :=
  match calls.handler with
  | .cancelled => calls.finish .cancelled
  | .raised (.nonRetryable code message) => calls.finish (.failed code message false)
  | .raised (.retryable code message) => calls.handleRetryable claim code message
  | .raised (.unexpected message) => calls.handleRetryable claim "UNEXPECTED_ERROR" message
  | .returned result => calls.finish (.succeeded result)

end Calls

/-- `execute`, given how its claim ends. -/
def execute (claim : Except String (Option Claim)) (calls : Calls) : Except String Bool :=
  match claim with
  | .error error => .error error
  | .ok none => .ok false
  | .ok (some claim) =>
      -- awaiting the heartbeat task raises its exception in place of a pending one
      match (heartbeatLoop calls.renewals).2, (calls.attempt claim).error with
      | some error, _ => .error error
      | none, some error => .error error
      | none, none => .ok true

/-- A call that won its claim returns `True` exactly when neither the heartbeat task nor the `try`
statement raises. -/
lemma execute_eq_true {claim : Claim} {calls : Calls} :
    execute (.ok (some claim)) calls = .ok true ↔
      (heartbeatLoop calls.renewals).2 = none ∧ (calls.attempt claim).error = none := by
  unfold execute
  dsimp only
  split <;> simp_all

end ExecutionService

end JobOrchestrator
