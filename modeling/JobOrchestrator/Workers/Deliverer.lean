import JobOrchestrator.Domain.Backoff
import JobOrchestrator.Services.Notification

/-!
# Repeated delivery sweeps

One `dispatch_due` after the other, on a clock that only goes forward, with nothing else writing
notifications.  The outside world assigns an outcome to each delivery of each notification, a
success or an `httpx.HTTPError`; the waits are those that `_on_failure` computes.  A sweep that an
exception ends is rolled back, its deliveries are not.
-/

namespace JobOrchestrator

namespace NotificationService

/-- The message of the `httpx.HTTPError` that the deliveries of a notification end with, in their
order; `none` is a success. -/
abbrev Outcomes := UUID → ℕ → Option String

/-- A call of `dispatch_due`, with what it reads outside: the clock when it claims, when it
delivers a notification, after that delivery and at its end, and the jitter. -/
structure Call where
  batchSize : ℕ
  now : Time
  deliveredAt : UUID → Time
  readAt : UUID → Time
  ended : Time
  draw : UUID → Fin (2 ^ 53)

/-- The database, the deliveries made so far and the clock. -/
structure Deliverer where
  db : Database
  made : List (UUID × Time)
  clock : Time

/-- The notifications that the loop of `dispatch_due` delivers or tries to, before it ends or
raises. -/
def attempted (io : DeliveryInputs) : List NotificationOutbox → List UUID
  | [] => []
  | n :: due => n.id :: if io.outcome n.id = .raised then [] else attempted io due

namespace Deliverer

variable (settings : Settings) (outcomes : Outcomes) (w : Deliverer)

def row (id : UUID) : Option NotificationOutbox := w.db.notificationOutbox.get? id

/-- How often a notification was delivered. -/
def count (id : UUID) : ℕ := (w.made.map Prod.fst).count id

/-- What a call finds for each notification.  An exception of `compute_backoff_seconds` or of
`timedelta` leaves `_attempt`, unless the attempts are exhausted and there is nothing to
compute. -/
def inputs (call : Call) : DeliveryInputs where
  now := call.readAt
  outcome id :=
    match outcomes id (w.count id) with
    | none => .delivered
    | some message =>
        let attempts := (w.row id).elim 0 NotificationOutbox.attempts + 1
        match retryWait attempts settings (call.draw id) with
        | .ok _ => .httpError message
        | .error _ =>
            if settings.notificationMaxAttempts ≤ attempts then .httpError message else .raised
  backoff id :=
    match retryWait ((w.row id).elim 0 NotificationOutbox.attempts + 1) settings (call.draw id) with
    | .ok wait => wait
    | .error _ => 0

def due (call : Call) : List NotificationOutbox :=
  NotificationOutboxRepository.claimDue w.db [] call.now call.batchSize

/-- The clock goes forward through a call. -/
def timely (call : Call) : Bool :=
  w.clock ≤ call.now && call.now ≤ call.ended && (w.due call).all fun n =>
    call.now ≤ call.deliveredAt n.id && call.deliveredAt n.id ≤ call.readAt n.id &&
      call.readAt n.id ≤ call.ended

/-- A call of `dispatch_due`; a call that an exception ends is rolled back. -/
def step (call : Call) : Option Deliverer :=
  if w.timely call then
    let io := w.inputs settings outcomes call
    some {
      db := (dispatchDue settings io w.db [] call.batchSize call.now).getD w.db
      made := w.made ++ (attempted io (w.due call)).map fun id => (id, call.deliveredAt id)
      clock := call.ended }
  else none

end Deliverer

end NotificationService

end JobOrchestrator
