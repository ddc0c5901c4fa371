import JobOrchestrator.Core
import JobOrchestrator.Domain.Floats
import JobOrchestrator.Domain.StateMachine

/-!
# Handlers

The handlers of `app/domain/job_catalog.py`.  A handler awaits three callbacks of its context and
uses the results of none of them, so while no callback raises it is the list of its calls and the
way it ends.
-/

namespace JobOrchestrator

/-- What leaves a handler, apart from the exceptions of its callbacks. -/
inductive HandlerException
  | retryable (code message : String)
  | nonRetryable (code message : String)
  | keyError (key : String)
  | conversion (error : ConversionError)
  | zeroDivisionError
  deriving DecidableEq

/-- A callback of the context that a handler awaits. -/
inductive ContextCall
  | checkCancelled
  | sleep (seconds : PyFloat)
  | reportProgress (progress : ℤ)
  deriving DecidableEq

/-- The calls of a handler and its ending, while no callback raises. -/
structure Script (α : Type) where
  calls : List ContextCall
  ending : Except HandlerException α

namespace Script

def bind {α β : Type} (x : Script α) (f : α → Script β) : Script β :=
  match x.ending with
  | .ok a => ⟨x.calls ++ (f a).calls, (f a).ending⟩
  | .error e => ⟨x.calls, .error e⟩

instance : Monad Script where
  pure a := ⟨[], .ok a⟩
  bind := bind

/-- Await a callback. -/
def call (c : ContextCall) : Script Unit := ⟨[c], .ok ()⟩

/-- A part of a handler that awaits nothing. -/
def ofExcept {α : Type} (x : Except HandlerException α) : Script α := ⟨[], x⟩

def raise {α : Type} (e : HandlerException) : Script α := ⟨[], .error e⟩

section Laws

variable {α β : Type} {x : Script α} {f : α → Script β} {a : α}

lemma bind_of_ok (h : x.ending = .ok a) : x >>= f = ⟨x.calls ++ (f a).calls, (f a).ending⟩ := by
  change Script.bind x f = _
  rw [Script.bind, h]

lemma ofExcept_bind {y : Except HandlerException α} (h : y = .ok a) : ofExcept y >>= f = f a :=
  bind_of_ok h

lemma call_bind (c : ContextCall) (f : Unit → Script β) :
    call c >>= f = ⟨c :: (f ()).calls, (f ()).ending⟩ := rfl

/-- A loop whose body does not raise makes the calls of its rounds. -/
lemma forM_eq {xs : List α} {body : α → Script PUnit} {calls : α → List ContextCall}
    (h : ∀ a ∈ xs, body a = ⟨calls a, .ok ⟨⟩⟩) : xs.forM body = ⟨xs.flatMap calls, .ok ⟨⟩⟩ := by
  induction xs with
  | nil => rfl
  | cons a xs ih =>
      have hrest := ih fun b hb => h b (List.mem_cons_of_mem a hb)
      change body a >>= (fun _ => xs.forM body) = _
      rw [bind_of_ok (congrArg Script.ending (h a List.mem_cons_self)), hrest,
        h a List.mem_cons_self, List.flatMap_cons]

end Laws

end Script

/-! ## Expressions of the handlers -/

/-- `d[key]` -/
def Dict.item (d : Dict) (key : String) : Except HandlerException Json :=
  (d.get key).elim (.error (.keyError key)) .ok

namespace PyNumber

/-- A conversion inside a handler. -/
def converted {α : Type} : Except ConversionError α → Except HandlerException α :=
  Except.mapError .conversion

/-- `m / n` of integers: the quotient is rounded once. -/
def trueDivide (m n : ℤ) : Except HandlerException PyFloat :=
  if n = 0 then .error .zeroDivisionError
  else
    let quotient := PyFloat.ofRat (decide (m < 0) != decide (n < 0)) (m.natAbs / n.natAbs : ℚ)
    if quotient.isInf then .error (.conversion .overflowError) else .ok quotient

/-- `x / n` of a float and an integer, which is converted first. -/
def divideByInt (x : PyFloat) (n : ℤ) : Except HandlerException PyFloat :=
  (converted (PyFloat.ofInt n)).bind fun divisor =>
    if divisor.isZero then .error .zeroDivisionError else .ok (x.div divisor)

end PyNumber

/-- `len(v)` -/
def Json.len : Json → Except HandlerException ℕ
  | .str s => .ok s.length
  | .arr items => .ok items.length
  | .obj fields => .ok fields.length
  | _ => .error (.conversion .typeError)

namespace JobCatalog

open Script PyNumber

/-- `int((index + 1) / steps * 100)` -/
def progressAt (index : ℕ) (steps : ℤ) : Except HandlerException ℤ := do
  let ratio ← trueDivide (index + 1) steps
  let hundred ← converted (PyFloat.ofInt 100)
  converted (Json.float (ratio.mul hundred)).pyInt

/-- `_run_steps` -/
def runSteps (steps : ℤ) (stepSeconds : PyFloat) : Script PUnit :=
  (List.range steps.toNat).forM fun index => do
    call .checkCancelled
    call (.sleep stepSeconds)
    let progress ← ofExcept (progressAt index steps)
    call (.reportProgress progress)

/-- The progress that the round of an index reports. -/
def percent (index : ℕ) (steps : ℤ) : ℤ :=
  match progressAt index steps with
  | .ok progress => progress
  | .error _ => 0

/-- The calls of one round. -/
def stepCalls (steps : ℤ) (stepSeconds : PyFloat) (index : ℕ) : List ContextCall :=
  [.checkCancelled, .sleep stepSeconds, .reportProgress (percent index steps)]

section Steps

variable {index : ℕ} {steps : ℤ}

open PyFloat

/-- The share of the rounds that are over is a float between zero and one. -/
lemma trueDivide_of_lt (h : (index : ℤ) < steps) :
    ∃ ratio, trueDivide (index + 1) steps = .ok ratio ∧ ratio.Nonneg ∧
      ratio.number ≤ one.number := by
  have hsigns : (decide ((index : ℤ) + 1 < 0) != decide (steps < 0)) = false := by
    rw [decide_eq_false (by omega), decide_eq_false (by omega)]
    rfl
  have hnumerator : (((index : ℤ) + 1).natAbs : ℚ) ≤ steps.natAbs := by
    exact_mod_cast (by omega : ((index : ℤ) + 1).natAbs ≤ steps.natAbs)
  have hdenominator : (0 : ℚ) < steps.natAbs := by
    exact_mod_cast (by omega : 0 < steps.natAbs)
  have hshare : (((index : ℤ) + 1).natAbs : ℚ) / steps.natAbs ≤ 1 :=
    (div_le_one hdenominator).mpr hnumerator
  have hnumber : (PyFloat.ofRat false (((index : ℤ) + 1).natAbs / steps.natAbs : ℚ)).number ≤
      one.number := number_ofRat_mono (by positivity) hshare
  refine ⟨_, ?_, nonneg_ofRat fun h => absurd h Bool.false_ne_true, hnumber⟩
  have hfinite :
      (PyFloat.ofRat false (((index : ℤ) + 1).natAbs / steps.natAbs : ℚ)).isInf = false :=
    Finite.isInf (hnumber.trans_lt finite_one)
  rw [trueDivide, if_neg (by omega), hsigns]
  exact if_neg (Bool.eq_false_iff.mp hfinite)

lemma ofInt_hundred :
    ∃ x, PyFloat.ofInt 100 = .ok x ∧ x.Nonneg ∧ x.Finite ∧ x.magnitude = 100 :=
  ⟨⟨0x4059000000000000#64⟩, by decide +kernel, ⟨by decide +kernel, by decide +kernel⟩,
    by decide +kernel, by decide +kernel⟩

/-- **The progress is a percentage.** -/
theorem progressAt_of_lt (h : (index : ℤ) < steps) :
    progressAt index steps = .ok (percent index steps) ∧ 0 ≤ percent index steps ∧
      percent index steps ≤ 100 := by
  obtain ⟨ratio, hratio, hnonneg, hone⟩ := trueDivide_of_lt h
  obtain ⟨hundred, hconverted, hpositive, hfinite, hvalue⟩ := ofInt_hundred
  obtain ⟨hproduct, hnumber⟩ := nonneg_mul_of_le_one hpositive hfinite hnonneg hone
  rw [mul_comm_of_finite hfinite (hone.trans_lt finite_one)] at hproduct hnumber
  have hfloor := pyInt_of_nonneg hproduct (hnumber.trans_lt hfinite)
  have hprogress : progressAt index steps = .ok (ratio.mul hundred).magnitude.floor := by
    rw [progressAt, hratio, hconverted]
    change converted (Json.float (ratio.mul hundred)).pyInt = _
    rw [hfloor]
    rfl
  have hlower : 0 ≤ (ratio.mul hundred).magnitude := magnitude_nonneg _
  have hupper : (ratio.mul hundred).magnitude ≤ 100 := by
    rw [← hvalue]
    exact magnitude_le_iff.mpr hnumber
  rw [percent, hprogress]
  refine ⟨rfl, Int.floor_nonneg.mpr hlower, ?_⟩
  have hcast : ((ratio.mul hundred).magnitude.floor : ℚ) ≤ 100 :=
    (Int.floor_le (ratio.mul hundred).magnitude).trans hupper
  exact_mod_cast hcast

/-- The loop makes the calls of all its rounds and does not raise. -/
theorem runSteps_eq (steps : ℤ) (stepSeconds : PyFloat) : runSteps steps stepSeconds =
    ⟨(List.range steps.toNat).flatMap (stepCalls steps stepSeconds), .ok ⟨⟩⟩ := by
  refine forM_eq fun index hindex => ?_
  have hlt : (index : ℤ) < steps := by
    have := List.mem_range.mp hindex
    omega
  rw [call_bind, call_bind, ofExcept_bind (progressAt_of_lt hlt).1]
  rfl

end Steps

/-- What a handler reads of its context besides the callbacks. -/
structure ExecutionContext where
  jobId : String
  attempt : ℕ
  settings : Settings

variable (payload : Dict) (context : ExecutionContext)

def handleSleep : Script Dict := do
  let duration ← ofExcept ((payload.item "duration_seconds").bind (converted ·.pyFloat))
  let steps ← ofExcept ((payload.item "steps").bind (converted ·.pyInt))
  let stepSeconds ← ofExcept (divideByInt duration steps)
  runSteps steps stepSeconds
  return [("slept_seconds", .float duration), ("steps", .int steps)]

def handleReport : Script Dict := do
  let pages ← ofExcept ((payload.item "pages").bind (converted ·.pyInt))
  runSteps pages context.settings.handlerStepSeconds
  return [("report_ref", .str ("report://" ++ context.jobId)), ("pages", .int pages)]

def handleFlaky : Script Dict := do
  let failTimes ← ofExcept ((payload.item "fail_times").bind (converted ·.pyInt))
  call .checkCancelled
  if (context.attempt : ℤ) ≤ failTimes then
    raise (.retryable "TRANSIENT_FAILURE"
      ("flaky job failing on attempt " ++ toString context.attempt))
  else return [("succeeded_on_attempt", .int context.attempt)]

def handleAlwaysFail : Script Dict :=
  raise (.nonRetryable "INVALID_INPUT" "job type always_fail never succeeds by design")

def handleLlmSummary : Script Dict := do
  let tokens ← ofExcept ((payload.item "tokens").bind (converted ·.pyInt))
  let simulateRateLimit ← ofExcept (payload.item "simulate_rate_limit")
  if simulateRateLimit.truthy && context.attempt = 1 then
    raise (.retryable "PROVIDER_RATE_LIMIT"
      "language model provider rate limit, retry with backoff")
  else
    runSteps context.settings.handlerProgressSteps context.settings.handlerStepSeconds
    let prompt ← ofExcept (payload.item "prompt")
    let summary ←
      if prompt.truthy then do
        let length ← ofExcept prompt.len
        pure ("summary of " ++ toString length ++ " character prompt")
      else pure "summary of empty prompt"
    return [("summary", .str summary), ("tokens_used", .int tokens)]

/-- `get_handler`, applied; every job type has a handler. -/
def handler : JobType → Script Dict
  | .sleep => handleSleep payload
  | .report => handleReport payload context
  | .flaky => handleFlaky payload context
  | .alwaysFail => handleAlwaysFail
  | .llmSummary => handleLlmSummary payload context

end JobCatalog

end JobOrchestrator
