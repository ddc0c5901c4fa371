import JobOrchestrator.Domain.Json
import Mathlib.Data.Fin.Basic

/-!
# Identifiers, time and settings

`app/core`: the ids that `generate_uuid7` draws, the clock, and the settings that the
modelled services read, with their defaults.  Instants and durations are integers, in
microseconds, the resolution of a Python `datetime` and of `timestamptz`.
-/

namespace JobOrchestrator

/-- `uuid.UUID`, by its integer value. -/
structure UUID where
  int : Fin (2 ^ 128)
  deriving DecidableEq, Repr

/-- So that the integer of an id can be a numeral. -/
instance UUID.neZero : NeZero (2 ^ 128 : ℕ) := inferInstance

/-- An instant, or a duration, in microseconds. -/
abbrev Time := ℤ

/-- `timedelta(seconds=n)`. -/
def seconds (n : ℤ) : Time := n * 1000000

/-- `Settings`. -/
structure Settings where
  workerConcurrency : ℕ := 4
  workerLeaseSeconds : ℤ := 60
  queueStuckSeconds : ℤ := 30
  jobDefaultMaxAttempts : ℕ := 5
  jobQueueMaxAgeSeconds : ℤ := 3600
  maxInFlightJobsPerUser : ℕ := 200
  notificationMaxAttempts : ℕ := 8
  jobMaxPayloadBytes : ℕ := 65536
  handlerProgressSteps : ℤ := 10
  jobSleepDefaultSeconds : PyFloat := ⟨0x4024000000000000#64⟩
  jobReportDefaultPages : ℤ := 5
  jobLlmDefaultTokens : ℤ := 200
  handlerStepSeconds : PyFloat := ⟨0x3FF0000000000000#64⟩
  retryBaseSeconds : PyFloat := ⟨0x4000000000000000#64⟩
  retryMaxSeconds : PyFloat := ⟨0x409C200000000000#64⟩
  retryJitterRatio : PyFloat := ⟨0x3FD0000000000000#64⟩

end JobOrchestrator
