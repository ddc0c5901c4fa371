import JobOrchestrator.Domain.Floats
import JobOrchestrator.Services.Intake

/-!
# Accepted input and the columns of a job

`submit` answers a request with one of the errors that the route knows, or goes on to insert a
row.  Whether the row fits its columns is decided by the request alone: nothing but the size of
the payload and the minima of its parameters is checked before the insert.
-/

namespace JobOrchestrator

open SubmissionService

/-! ## Reading the parameters -/

namespace JobCatalog

/-- `int(v)` is an integer of at least the minimum. -/
def IntAtLeast (minimum : ℤ) (v : Json) : Prop := ∃ n, v.pyInt = .ok n ∧ minimum ≤ n

/-- `float(v)` is a number, and not below the minimum. -/
def FloatAtLeast (minimum : PyFloat) (v : Json) : Prop :=
  ∃ x, v.pyFloat = .ok x ∧ x.lt minimum = false

/-- The value is an infinity, of which there is no integer. -/
def IsInfinity (v : Json) : Prop := ∃ x : PyFloat, v = .float x ∧ x.isInf

/-- The value is an integer that rounds to beyond the largest float. -/
def IsHuge (v : Json) : Prop := ∃ n : ℤ, v = .int n ∧ 2 ^ 1024 - 2 ^ 970 ≤ |n|

section Parameters

variable (payload : Dict) (settings : Settings)

def duration : Json :=
  (payload.get "duration_seconds").getD (.float settings.jobSleepDefaultSeconds)

def steps : Json := (payload.get "steps").getD (.int settings.handlerProgressSteps)

def pages : Json := (payload.get "pages").getD (.int settings.jobReportDefaultPages)

def failTimes : Json := (payload.get "fail_times").getD (.int 1)

def tokens : Json := (payload.get "tokens").getD (.int settings.jobLlmDefaultTokens)

/-- The parameters of a job type are what its normalizer asks for. -/
def Accepted : JobType → Prop
  | .sleep => FloatAtLeast (.ofRat false 0) (duration payload settings) ∧
      IntAtLeast 1 (steps payload settings)
  | .report => IntAtLeast 1 (pages payload settings)
  | .flaky => IntAtLeast 0 (failTimes payload)
  | .alwaysFail => True
  | .llmSummary => IntAtLeast 1 (tokens payload settings)

/-- A parameter, read after those before it were accepted, has no counterpart among the numbers
of its kind. -/
def Overflows : JobType → Prop
  | .sleep => IsHuge (duration payload settings) ∨
      FloatAtLeast (.ofRat false 0) (duration payload settings) ∧
        IsInfinity (steps payload settings)
  | .report => IsInfinity (pages payload settings)
  | .flaky => IsInfinity (failTimes payload)
  | .alwaysFail => False
  | .llmSummary => IsInfinity (tokens payload settings)

end Parameters

section Normalized

variable {payload normalized : Dict} {settings : Settings} {type : JobType}

lemma exists_coerceInt {key : String} {fallback minimum : ℤ} :
    (∃ n, coerceInt payload key fallback minimum = .ok n) ↔
      IntAtLeast minimum ((payload.get key).getD (.int fallback)) := by
  simp only [coerceInt_eq_ok, IntAtLeast]

lemma coerceInt_eq_overflowError {key : String} {fallback minimum : ℤ} :
    coerceInt payload key fallback minimum = .error .overflowError ↔
      IsInfinity ((payload.get key).getD (.int fallback)) := by
  rw [coerceInt, coerced_eq_overflowError, Json.pyInt_eq_overflowError, IsInfinity]

lemma exists_coerceFloat {key : String} {fallback minimum : PyFloat} :
    (∃ x, coerceFloat payload key fallback minimum = .ok x) ↔
      FloatAtLeast minimum ((payload.get key).getD (.float fallback)) := by
  simp only [coerceFloat_eq_ok, FloatAtLeast]

lemma coerceFloat_eq_overflowError {key : String} {fallback minimum : PyFloat} :
    coerceFloat payload key fallback minimum = .error .overflowError ↔
      IsHuge ((payload.get key).getD (.float fallback)) := by
  rw [coerceFloat, coerced_eq_overflowError, Json.pyFloat_eq_overflowError, IsHuge]

lemma bind_eq_error {α β ε : Type} {x : Except ε α} {f : α → Except ε β} {e : ε} :
    x >>= f = .error e ↔ x = .error e ∨ ∃ a, x = .ok a ∧ f a = .error e := by
  cases x with
  | error e' => simp [bind, Except.bind]
  | ok a => simp [bind, Except.bind]

lemma bind_pure_eq_error {α β ε : Type} {x : Except ε α} {f : α → β} {e : ε} :
    (x >>= fun a => pure (f a)) = .error e ↔ x = .error e := by
  simp [bind_eq_error, pure, Except.pure]

/-- A normalizer raises an `OverflowError` exactly on the parameters that overflow. -/
theorem normalizePayload_eq_overflowError :
    normalizePayload payload settings type = .error .overflowError ↔
      Overflows payload settings type := by
  cases type with
  | sleep =>
      rw [normalizePayload, normalizeSleep, bind_eq_error, coerceFloat_eq_overflowError]
      simp only [bind_pure_eq_error, coerceInt_eq_overflowError]
      -- the steps are read once the duration is accepted
      rw [exists_and_right, exists_coerceFloat]
      rfl
  | report =>
      rw [normalizePayload, normalizeReport, bind_pure_eq_error, coerceInt_eq_overflowError]
      rfl
  | flaky =>
      rw [normalizePayload, normalizeFlaky, bind_pure_eq_error, coerceInt_eq_overflowError]
      rfl
  | alwaysFail => simp [normalizePayload, normalizeAlwaysFail, pure, Except.pure, Overflows]
  | llmSummary =>
      rw [normalizePayload, normalizeLlmSummary, bind_pure_eq_error, coerceInt_eq_overflowError]
      rfl

lemma valueError_iff :
    (∀ error, normalizePayload payload settings type = .error error →
      ∃ message, error = .valueError message) ↔ ¬ Overflows payload settings type := by
  rw [← normalizePayload_eq_overflowError]
  constructor
  · intro h hoverflow
    obtain ⟨message, hmessage⟩ := h _ hoverflow
    exact nomatch hmessage
  · intro h error herror
    cases error with
    | valueError message => exact ⟨message, rfl⟩
    | overflowError => exact absurd herror h

lemma accepted_iff :
    Accepted payload settings type ↔
      ∃ normalized, normalizePayload payload settings type = .ok normalized := by
  cases type with
  | sleep =>
      simp only [normalizePayload, normalizeSleep_eq_ok]
      constructor
      · rintro ⟨hduration, hsteps⟩
        obtain ⟨x, hx⟩ := exists_coerceFloat.mpr hduration
        obtain ⟨n, hn⟩ := exists_coerceInt.mpr hsteps
        exact ⟨_, x, n, hx, hn, rfl⟩
      · rintro ⟨_, x, n, hx, hn, -⟩
        exact ⟨exists_coerceFloat.mp ⟨x, hx⟩, exists_coerceInt.mp ⟨n, hn⟩⟩
  | report =>
      simp only [normalizePayload, normalizeReport_eq_ok]
      rw [Accepted, pages, ← exists_coerceInt]
      constructor
      · rintro ⟨n, hn⟩
        exact ⟨_, n, hn, rfl⟩
      · rintro ⟨_, n, hn, -⟩
        exact ⟨n, hn⟩
  | flaky =>
      simp only [normalizePayload, normalizeFlaky_eq_ok]
      rw [Accepted, failTimes, ← exists_coerceInt]
      constructor
      · rintro ⟨n, hn⟩
        exact ⟨_, n, hn, rfl⟩
      · rintro ⟨_, n, hn, -⟩
        exact ⟨n, hn⟩
  | alwaysFail => exact iff_of_true trivial ⟨_, rfl⟩
  | llmSummary =>
      simp only [normalizePayload, normalizeLlmSummary_eq_ok]
      rw [Accepted, tokens, ← exists_coerceInt]
      constructor
      · rintro ⟨n, hn⟩
        exact ⟨_, n, hn, rfl⟩
      · rintro ⟨_, n, hn, -⟩
        exact ⟨n, hn⟩

/-- What a normalizer keeps is fit for `JSONB`, but for a duration that is no finite number and a
prompt that holds a `U+0000`. -/
lemma jsonb_of_normalizePayload (h : normalizePayload payload settings type = .ok normalized) :
    Json.jsonbFields normalized ↔
      (type = .sleep → ∀ x, (duration payload settings).pyFloat = .ok x → x.Finite) ∧
      (type = .llmSummary → withoutNul ((payload.get "prompt").getD (.str "")).pyStr) := by
  have hkeys : ["duration_seconds", "steps", "pages", "fail_times", "prompt", "tokens",
    "simulate_rate_limit"].all withoutNul := by decide +kernel
  simp only [List.all_cons, List.all_nil, Bool.and_true, Bool.and_eq_true] at hkeys
  obtain ⟨hduration, hsteps, hpages, hfailTimes, hprompt, htokens, hsimulate⟩ := hkeys
  cases type with
  | sleep =>
      obtain ⟨x, n, hx, hn, rfl⟩ := normalizeSleep_eq_ok.mp h
      have hraw := (coerceFloat_eq_ok.mp hx).1
      simp [Json.jsonbFields, Json.jsonb, hduration, hsteps, duration, hraw, PyFloat.finite_iff]
  | report =>
      obtain ⟨n, -, rfl⟩ := normalizeReport_eq_ok.mp h
      simp [Json.jsonbFields, Json.jsonb, hpages]
  | flaky =>
      obtain ⟨n, -, rfl⟩ := normalizeFlaky_eq_ok.mp h
      simp [Json.jsonbFields, Json.jsonb, hfailTimes]
  | alwaysFail =>
      obtain rfl := Except.ok.inj h
      simp [Json.jsonbFields]
  | llmSummary =>
      obtain ⟨n, -, rfl⟩ := normalizeLlmSummary_eq_ok.mp h
      simp [Json.jsonbFields, Json.jsonb, hprompt, htokens, hsimulate]

end Normalized

end JobCatalog

/-! ## The row of an accepted request -/

namespace SubmissionService

/-- The call ends with an error that the route maps, returns a job, or inserts a row that its
columns hold. -/
def Reached.Safe : Reached → Prop
  | .raised (.payload .overflowError) | .checkViolation => False
  | .raised _ | .existing _ | .tooManyActiveJobs => True
  | .inserts row => row.WithinColumns

/-- A request that the columns of a job can hold. -/
structure Storable (settings : Settings) (userId : String) (type : JobType) (payload : Dict)
    (maxAttempts : Option ℕ) (idempotencyKey : Option String) : Prop where
  userId : userId.length ≤ 64
  idempotencyKey : ∀ key ∈ idempotencyKey, key.length ≤ 128
  maxAttempts : maxAttempts.getD settings.jobDefaultMaxAttempts ≤ 2 ^ 31 - 1
  duration : type = .sleep →
    ∀ x, (JobCatalog.duration payload settings).pyFloat = .ok x → x.Finite
  prompt : type = .llmSummary → withoutNul ((payload.get "prompt").getD (.str "")).pyStr
  webhook : ∀ webhook ∈ payload.get "notify_webhook", withoutNul webhook.pyStr

section Reached

variable {settings : Settings} {userId : String} {type : JobType} {payload normalized : Dict}
  {priority : JobPriority} {maxAttempts : Option ℕ} {idempotencyKey : Option String}
  {args : SubmitArgs} {byKey active : Database} {id : UUID} {now : Time}

/-- The payload of the row: what the normalizer keeps, and the text of the webhook. -/
lemma jsonb_with_webhook
    (h : JobCatalog.normalizePayload payload settings type = .ok normalized) :
    Json.jsonbFields (match payload.get "notify_webhook" with
        | some webhook => normalized.set "notify_webhook" (.str webhook.pyStr)
        | none => normalized) ↔
      Json.jsonbFields normalized ∧
        ∀ webhook ∈ payload.get "notify_webhook", withoutNul webhook.pyStr := by
  have hkey : withoutNul "notify_webhook" := by decide +kernel
  cases payload.get "notify_webhook" with
  | none => simp
  | some webhook =>
      simp [Dict.set_of_get (webhook_of_normalizePayload h), Json.jsonbFields_append,
        Json.jsonbFields, Json.jsonb, hkey]

/-- The row of an accepted payload fits its columns exactly when the request is storable. -/
lemma withinColumns_iff (h : JobCatalog.normalizePayload payload settings type = .ok normalized)
    (hsize : ¬ settings.jobMaxPayloadBytes < (Json.obj payload).dumps.utf8ByteSize)
    (hintake : intake settings userId type payload priority maxAttempts idempotencyKey = .ok args)
    (hlimit : 1 ≤ args.attemptsLimit settings) :
    (newJob settings args id now hlimit).WithinColumns ↔
      Storable settings userId type payload maxAttempts idempotencyKey := by
  rw [intake, if_neg hsize, h] at hintake
  obtain rfl := Except.ok.inj hintake
  have hpayload := (jsonb_with_webhook h).trans
    (and_congr_left' (JobCatalog.jsonb_of_normalizePayload h))
  constructor
  · intro hrow
    obtain ⟨⟨hduration, hprompt⟩, hwebhook⟩ := hpayload.mp hrow.payload
    exact ⟨hrow.userId, hrow.idempotencyKey, hrow.maxAttempts, hduration, hprompt, hwebhook⟩
  · rintro ⟨huser, hkey, hattempts, hduration, hprompt, hwebhook⟩
    exact ⟨huser, hkey, hattempts, hpayload.mpr ⟨⟨hduration, hprompt⟩, hwebhook⟩⟩

/-- A payload that is not too large and that the normalizer accepts is answered by the two
statements before the insert, or inserted. -/
lemma safe_of_normalizePayload
    (h : JobCatalog.normalizePayload payload settings type = .ok normalized)
    (hsize : ¬ settings.jobMaxPayloadBytes < (Json.obj payload).dumps.utf8ByteSize)
    (hlimit : 1 ≤ maxAttempts.getD settings.jobDefaultMaxAttempts) :
    (reached settings userId type payload priority maxAttempts idempotencyKey byKey active id
        now).Safe ↔
      (∃ key ∈ idempotencyKey, (JobRepository.getByIdempotencyKey byKey userId key).isSome) ∨
        settings.maxInFlightJobsPerUser ≤ JobRepository.countActiveForUser active userId ∨
        Storable settings userId type payload maxAttempts idempotencyKey := by
  obtain ⟨args, hintake, huser, hkey, hattempts⟩ : ∃ args,
      intake settings userId type payload priority maxAttempts idempotencyKey = .ok args ∧
        args.userId = userId ∧ args.idempotencyKey = idempotencyKey ∧
        args.maxAttempts = maxAttempts := by
    rw [intake, if_neg hsize, h]
    exact ⟨_, rfl, rfl, rfl, rfl⟩
  have hexisting : findExisting byKey args =
      idempotencyKey.bind (JobRepository.getByIdempotencyKey byKey userId) := by
    rw [findExisting, huser, hkey]
  have hlimit' : 1 ≤ args.attemptsLimit settings := by rwa [SubmitArgs.attemptsLimit, hattempts]
  rw [reached, hintake]
  dsimp only
  rw [hexisting, huser, dif_pos hlimit']
  cases hfound : idempotencyKey.bind (JobRepository.getByIdempotencyKey byKey userId) with
  | some job =>
      obtain ⟨key, hsent, hjob⟩ := Option.bind_eq_some_iff.mp hfound
      exact iff_of_true trivial (Or.inl ⟨key, hsent, by rw [hjob]; rfl⟩)
  | none =>
      have hnone : ¬ ∃ key ∈ idempotencyKey,
          (JobRepository.getByIdempotencyKey byKey userId key).isSome := by
        rintro ⟨key, rfl, hjob⟩
        rw [Option.bind_some] at hfound
        rw [hfound] at hjob
        exact Bool.false_ne_true hjob
      rw [or_iff_right hnone]
      by_cases hfull : settings.maxInFlightJobsPerUser ≤
          JobRepository.countActiveForUser active userId
      · rw [if_pos hfull]
        exact iff_of_true trivial (Or.inl hfull)
      · rw [if_neg hfull, or_iff_right hfull]
        exact withinColumns_iff h hsize hintake hlimit'

/-- The insert of a row then fails on the idempotency index only. -/
theorem create_eq_none_iff {db : Database} {tx : Tx} (hlimit : 1 ≤ args.attemptsLimit settings)
    (hjob : JobRepository.get db tx.jobId = none)
    (houtbox : db.dispatchOutbox.get? tx.outboxId = none) :
    create settings db tx args now = none ↔ (findExisting db args).isSome := by
  rw [← Option.not_isSome_iff_eq_none, create_isSome, accepts, hjob, houtbox]
  cases findExisting db args with
  | none => simp [hlimit]
  | some job => simp

end Reached

end SubmissionService

end JobOrchestrator
