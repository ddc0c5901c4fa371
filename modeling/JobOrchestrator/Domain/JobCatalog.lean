import JobOrchestrator.Core
import JobOrchestrator.Domain.Conversions
import JobOrchestrator.Domain.StateMachine

/-!
# Payload normalization

The normalizers of `app/domain/job_catalog.py`: what `submit` keeps of a payload, by job type.
`int` and `float` raise more than the two exceptions that the coercions catch.
-/

namespace JobOrchestrator

/-- What `normalize_payload` raises. -/
inductive PayloadError
  | valueError (message : String)
  | overflowError
  deriving DecidableEq

namespace JobCatalog

variable (payload : Dict) (settings : Settings)

/-- The `except` clause of a coercion, and its check of the minimum. -/
def coerced {α : Type*} (kind key minimum : String) (below : α → Bool) :
    Except ConversionError α → Except PayloadError α
  | .error .overflowError => .error .overflowError
  | .error _ => .error (.valueError (key ++ " must be " ++ kind))
  | .ok value =>
      if below value then .error (.valueError (key ++ " must be at least " ++ minimum))
      else .ok value

/-- `_coerce_int` -/
def coerceInt (key : String) (fallback minimum : ℤ) : Except PayloadError ℤ :=
  coerced "an integer" key (toString minimum) (fun value => value < minimum)
    ((payload.get key).getD (.int fallback)).pyInt

/-- `_coerce_float` -/
def coerceFloat (key : String) (fallback minimum : PyFloat) : Except PayloadError PyFloat :=
  coerced "a number" key minimum.pyRepr (fun value => value.lt minimum)
    ((payload.get key).getD (.float fallback)).pyFloat

def normalizeSleep : Except PayloadError Dict := do
  let durationSeconds ←
    coerceFloat payload "duration_seconds" settings.jobSleepDefaultSeconds (.ofRat false 0)
  let steps ← coerceInt payload "steps" settings.handlerProgressSteps 1
  return [("duration_seconds", .float durationSeconds), ("steps", .int steps)]

def normalizeReport : Except PayloadError Dict := do
  let pages ← coerceInt payload "pages" settings.jobReportDefaultPages 1
  return [("pages", .int pages)]

def normalizeFlaky : Except PayloadError Dict := do
  let failTimes ← coerceInt payload "fail_times" 1 0
  return [("fail_times", .int failTimes)]

def normalizeAlwaysFail : Except PayloadError Dict := return []

def normalizeLlmSummary : Except PayloadError Dict := do
  let tokens ← coerceInt payload "tokens" settings.jobLlmDefaultTokens 1
  return [("prompt", .str ((payload.get "prompt").getD (.str "")).pyStr), ("tokens", .int tokens),
    ("simulate_rate_limit", .bool ((payload.get "simulate_rate_limit").getD (.bool false)).truthy)]

/-- `normalize_payload`; every job type has a normalizer. -/
def normalizePayload : JobType → Except PayloadError Dict
  | .sleep => normalizeSleep payload settings
  | .report => normalizeReport payload settings
  | .flaky => normalizeFlaky payload
  | .alwaysFail => normalizeAlwaysFail
  | .llmSummary => normalizeLlmSummary payload settings

/-! ## What the normalizers accept -/

section Accepted

variable {payload settings} {α : Type*} {kind key minimum : String} {below : α → Bool}
  {raw : Except ConversionError α} {value : α} {normalized : Dict}

lemma coerced_eq_ok : coerced kind key minimum below raw = .ok value ↔
    raw = .ok value ∧ below value = false := by
  unfold coerced
  split
  · simp
  · simp
  · rename_i value'
    split
    · rename_i hbelow
      simp only [reduceCtorEq, Except.ok.injEq, false_iff, not_and]
      rintro rfl
      simp [hbelow]
    · rename_i hbelow
      simp only [Except.ok.injEq]
      constructor
      · rintro rfl
        exact ⟨rfl, Bool.eq_false_iff.mpr hbelow⟩
      · exact And.left

lemma coerced_eq_overflowError : coerced kind key minimum below raw = .error .overflowError ↔
    raw = .error .overflowError := by
  unfold coerced
  split
  · simp
  · rename_i hraw
    simpa using hraw
  · split <;> simp

lemma coerceInt_eq_ok {fallback minimum n : ℤ} : coerceInt payload key fallback minimum = .ok n ↔
    ((payload.get key).getD (.int fallback)).pyInt = .ok n ∧ minimum ≤ n := by
  rw [coerceInt, coerced_eq_ok, decide_eq_false_iff_not, not_lt]

lemma coerceFloat_eq_ok {fallback minimum x : PyFloat} :
    coerceFloat payload key fallback minimum = .ok x ↔
      ((payload.get key).getD (.float fallback)).pyFloat = .ok x ∧ x.lt minimum = false := by
  rw [coerceFloat, coerced_eq_ok]

lemma normalizeSleep_eq_ok : normalizeSleep payload settings = .ok normalized ↔
    ∃ duration steps,
      coerceFloat payload "duration_seconds" settings.jobSleepDefaultSeconds (.ofRat false 0) =
        .ok duration ∧
      coerceInt payload "steps" settings.handlerProgressSteps 1 = .ok steps ∧
      normalized = [("duration_seconds", .float duration), ("steps", .int steps)] := by
  unfold normalizeSleep
  cases coerceFloat payload "duration_seconds" settings.jobSleepDefaultSeconds (.ofRat false 0) with
  | error e => simp [bind, Except.bind]
  | ok duration =>
      cases coerceInt payload "steps" settings.handlerProgressSteps 1 with
      | error e => simp [bind, Except.bind]
      | ok steps => simp [bind, Except.bind, pure, Except.pure, eq_comm]

lemma normalizeReport_eq_ok : normalizeReport payload settings = .ok normalized ↔
    ∃ pages, coerceInt payload "pages" settings.jobReportDefaultPages 1 = .ok pages ∧
      normalized = [("pages", .int pages)] := by
  unfold normalizeReport
  cases coerceInt payload "pages" settings.jobReportDefaultPages 1 with
  | error e => simp [bind, Except.bind]
  | ok pages => simp [bind, Except.bind, pure, Except.pure, eq_comm]

lemma normalizeFlaky_eq_ok : normalizeFlaky payload = .ok normalized ↔
    ∃ failTimes, coerceInt payload "fail_times" 1 0 = .ok failTimes ∧
      normalized = [("fail_times", .int failTimes)] := by
  unfold normalizeFlaky
  cases coerceInt payload "fail_times" 1 0 with
  | error e => simp [bind, Except.bind]
  | ok failTimes => simp [bind, Except.bind, pure, Except.pure, eq_comm]

lemma normalizeLlmSummary_eq_ok : normalizeLlmSummary payload settings = .ok normalized ↔
    ∃ tokens, coerceInt payload "tokens" settings.jobLlmDefaultTokens 1 = .ok tokens ∧
      normalized = [("prompt", .str ((payload.get "prompt").getD (.str "")).pyStr),
        ("tokens", .int tokens), ("simulate_rate_limit",
          .bool ((payload.get "simulate_rate_limit").getD (.bool false)).truthy)] := by
  unfold normalizeLlmSummary
  cases coerceInt payload "tokens" settings.jobLlmDefaultTokens 1 with
  | error e => simp [bind, Except.bind]
  | ok tokens => simp [bind, Except.bind, pure, Except.pure, eq_comm]

end Accepted

end JobCatalog

end JobOrchestrator
