import JobOrchestrator.Core
import JobOrchestrator.Domain.StateMachine

/-!
# The Redis lists

`app/queue/redis_queue.py`: one list for each priority and one for the dead letters.  `LPUSH`
adds at the head and `BRPOP` removes from the tail of the first list that is not empty.
-/

namespace JobOrchestrator

structure JobQueue where
  high : List UUID
  normal : List UUID
  low : List UUID
  deadLetters : List UUID

/-- `_PRIORITY_ORDER`, in which `BRPOP` goes through the lists. -/
def priorityOrder : List JobPriority := [.high, .normal, .low]

/-- A message that a service sends to Redis. -/
inductive Push
  | publish (jobId : UUID) (priority : JobPriority)
  | deadLetter (jobId : UUID)
  deriving DecidableEq

namespace JobQueue

def empty : JobQueue := ⟨[], [], [], []⟩

/-- The list of a priority, under its `_queue_key`. -/
def list (q : JobQueue) : JobPriority → List UUID
  | .high => q.high
  | .normal => q.normal
  | .low => q.low

def depth (q : JobQueue) : ℕ := (priorityOrder.map fun priority => (q.list priority).length).sum

def deadLetterDepth (q : JobQueue) : ℕ := q.deadLetters.length

def publish (q : JobQueue) (jobId : UUID) : JobPriority → JobQueue
  | .high => { q with high := jobId :: q.high }
  | .normal => { q with normal := jobId :: q.normal }
  | .low => { q with low := jobId :: q.low }

def deadLetter (q : JobQueue) (jobId : UUID) : JobQueue :=
  { q with deadLetters := jobId :: q.deadLetters }

def push (q : JobQueue) : Push → JobQueue
  | .publish jobId priority => q.publish jobId priority
  | .deadLetter jobId => q.deadLetter jobId

/-- `consume`; `none` is the timeout of the poll. -/
def consume (q : JobQueue) : Option (UUID × JobQueue) :=
  match q.high.getLast?, q.normal.getLast?, q.low.getLast? with
  | some jobId, _, _ => some (jobId, { q with high := q.high.dropLast })
  | none, some jobId, _ => some (jobId, { q with normal := q.normal.dropLast })
  | none, none, some jobId => some (jobId, { q with low := q.low.dropLast })
  | none, none, none => none

/-- The lists after Redis lost or repeated some of their messages. -/
def Faulty (q q' : JobQueue) : Prop :=
  q'.high ⊆ q.high ∧ q'.normal ⊆ q.normal ∧ q'.low ⊆ q.low ∧ q'.deadLetters ⊆ q.deadLetters

instance (q q' : JobQueue) : Decidable (q.Faulty q') :=
  inferInstanceAs (Decidable (_ ∧ _ ∧ _ ∧ _))

end JobQueue

end JobOrchestrator
