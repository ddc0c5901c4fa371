import JobOrchestrator.Db.Columns
import JobOrchestrator.Domain.JobCatalog
import JobOrchestrator.Services.Submission

/-!
# The checks of `submit`

`JobSubmissionService.submit` up to its first statement: the size of the payload, its
normalization, and the webhook that is carried over beside the normalized parameters.
-/

namespace JobOrchestrator

/-- `d[key] = value` -/
def Dict.set (d : Dict) (key : String) (value : Json) : Dict :=
  if d.any fun kv => kv.1 = key then d.map fun kv => if kv.1 = key then (key, value) else kv
  else d ++ [(key, value)]

lemma Dict.set_of_get {d : Dict} {key : String} {value : Json} (h : d.get key = none) :
    d.set key value = d ++ [(key, value)] := by
  have hfree : ∀ kv ∈ d, kv.1 ≠ key := by
    simpa [Dict.get] using h
  have hnone : (d.any fun kv => kv.1 = key) = false := by
    simpa using hfree
  rw [Dict.set, hnone]
  rfl

lemma Dict.get_set {d : Dict} {key : String} {value : Json} (h : d.get key = none) :
    (d.set key value).get key = some value := by
  have hfind : d.find? (fun kv => decide (kv.1 = key)) = none := by
    simpa [Dict.get] using h
  rw [Dict.set_of_get h, Dict.get]
  simp [hfind]

namespace SubmissionService

/-- What `submit` raises before its first statement. -/
inductive IntakeError
  | payloadTooLarge
  | payload (error : PayloadError)

def intake (settings : Settings) (userId : String) (type : JobType) (payload : Dict)
    (priority : JobPriority) (maxAttempts : Option ℕ) (idempotencyKey : Option String) :
    Except IntakeError SubmitArgs :=
  if settings.jobMaxPayloadBytes < (Json.obj payload).dumps.utf8ByteSize then
    .error .payloadTooLarge
  else
    match JobCatalog.normalizePayload payload settings type with
    | .error error => .error (.payload error)
    | .ok normalized =>
        let normalized := match payload.get "notify_webhook" with
          | some webhook => normalized.set "notify_webhook" (.str webhook.pyStr)
          | none => normalized
        .ok { userId, type, payload := normalized, priority, maxAttempts, idempotencyKey }

/-- How far a call of `submit` gets: to the row that it inserts, unless it ends before. -/
inductive Reached
  | raised (error : IntakeError)
  | existing (job : Job)
  | tooManyActiveJobs
  | checkViolation
  | inserts (row : Job)

/-- `submit` up to its insert.  The lookup by the key sees the first database, the count of the
active jobs the second; the row of a limit below one is refused by its check. -/
def reached (settings : Settings) (userId : String) (type : JobType) (payload : Dict)
    (priority : JobPriority) (maxAttempts : Option ℕ) (idempotencyKey : Option String)
    (byKey active : Database) (id : UUID) (now : Time) : Reached :=
  match intake settings userId type payload priority maxAttempts idempotencyKey with
  | .error error => .raised error
  | .ok args =>
      match findExisting byKey args with
      | some job => .existing job
      | none =>
          if settings.maxInFlightJobsPerUser ≤
              JobRepository.countActiveForUser active args.userId then .tooManyActiveJobs
          else if hlimit : 1 ≤ args.attemptsLimit settings then
            .inserts (newJob settings args id now hlimit)
          else .checkViolation

lemma ok_of_bind {ε α β : Type} {x : Except ε α} {f : α → Except ε β} {b : β}
    (h : x >>= f = .ok b) : ∃ a, x = .ok a ∧ f a = .ok b := by
  cases x with
  | error e => cases h
  | ok a => exact ⟨a, rfl, h⟩

/-- The normalizers keep their own parameters only. -/
lemma webhook_of_normalizePayload {payload normalized : Dict} {settings : Settings}
    {type : JobType} (h : JobCatalog.normalizePayload payload settings type = .ok normalized) :
    normalized.get "notify_webhook" = none := by
  cases type with
  | sleep =>
      obtain ⟨duration, -, h⟩ := ok_of_bind h
      obtain ⟨steps, -, h⟩ := ok_of_bind h
      obtain rfl := Except.ok.inj h
      simp [Dict.get]
  | report =>
      obtain ⟨pages, -, h⟩ := ok_of_bind h
      obtain rfl := Except.ok.inj h
      simp [Dict.get]
  | flaky =>
      obtain ⟨failTimes, -, h⟩ := ok_of_bind h
      obtain rfl := Except.ok.inj h
      simp [Dict.get]
  | alwaysFail =>
      obtain rfl := Except.ok.inj h
      rfl
  | llmSummary =>
      obtain ⟨tokens, -, h⟩ := ok_of_bind h
      obtain rfl := Except.ok.inj h
      simp [Dict.get]

/-- A submission is made for the user that sends it. -/
lemma userId_of_intake {settings : Settings} {userId : String} {type : JobType} {payload : Dict}
    {priority : JobPriority} {maxAttempts : Option ℕ} {key : Option String} {args : SubmitArgs}
    (h : intake settings userId type payload priority maxAttempts key = .ok args) :
    args.userId = userId := by
  unfold intake at h
  split at h
  · cases h
  · split at h
    · cases h
    · obtain rfl := Except.ok.inj h
      rfl

/-- The webhook of a submitted payload is kept as a string. -/
lemma webhook_of_intake {settings : Settings} {userId : String} {type : JobType} {payload : Dict}
    {priority : JobPriority} {maxAttempts : Option ℕ} {key : Option String} {args : SubmitArgs}
    (h : intake settings userId type payload priority maxAttempts key = .ok args) :
    args.payload.get "notify_webhook" =
      (payload.get "notify_webhook").map fun webhook => .str webhook.pyStr := by
  unfold intake at h
  split at h
  · cases h
  · split at h
    · cases h
    · rename_i normalized hnormalized
      obtain rfl := Except.ok.inj h
      have hnone := webhook_of_normalizePayload hnormalized
      cases hwebhook : payload.get "notify_webhook" with
      | none => exact hnone
      | some webhook => exact Dict.get_set hnone

end SubmissionService

end JobOrchestrator
