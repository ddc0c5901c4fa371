import JobOrchestrator.Domain.Handlers
import JobOrchestrator.Domain.JobCatalog

/-!
# The handlers on normalized payloads

A normalized payload has every key that the handler of its type reads, with a value of the type
and the range it needs.  One expression of one handler can still raise: the quotient of a float
and an integer, for an integer that is no float.
-/

namespace JobOrchestrator

open Script PyNumber

/-- The exceptions that `execute` has a clause for. -/
def HandlerException.expected : HandlerException → Bool
  | .retryable .. | .nonRetryable .. => true
  | _ => false

/-- The handler ends as its author meant it to. -/
def Script.Expected (script : Script Dict) : Prop :=
  ∀ e, script.ending = .error e → e.expected

lemma expected_of_ok {script : Script Dict} {result : Dict} (h : script.ending = .ok result) :
    script.Expected := fun _ herror => by cases h.symm.trans herror

namespace JobCatalog

section Division

variable {x : PyFloat} {n : ℤ}

/-- The bound of `float(n)`, as an integer. -/
lemma lt_overflowBound_iff (hn : 0 ≤ n) :
    (n.natAbs : ℚ) < PyFloat.overflowBound ↔ n < 2 ^ 1024 - 2 ^ 970 := by
  have hcast : (n.natAbs : ℚ) = n := by
    rw [Nat.cast_natAbs, abs_of_nonneg hn]
  rw [hcast, PyFloat.overflowBound_eq]
  exact_mod_cast Iff.rfl

/-- A positive integer that is a float can be divided by. -/
lemma divideByInt_of_lt (hn : 1 ≤ n) (h : n < 2 ^ 1024 - 2 ^ 970) :
    ∃ quotient, divideByInt x n = .ok quotient := by
  obtain ⟨hdivisor, -⟩ := PyFloat.ofInt_of_lt ((lt_overflowBound_iff (by omega)).mpr h)
  have hone : (1 : ℚ) ≤ n.natAbs := by
    exact_mod_cast (by omega : 1 ≤ n.natAbs)
  have hpositive : PyFloat.one.number ≤ (PyFloat.ofRat (n < 0) n.natAbs).number :=
    PyFloat.number_ofRat_mono zero_le_one hone
  have hnonzero : (PyFloat.ofRat (n < 0) n.natAbs).isZero = false := by
    rw [Bool.eq_false_iff, ne_eq, PyFloat.isZero_iff]
    have hne : PyFloat.one.number ≠ 0 := by decide +kernel
    omega
  refine ⟨x.div (.ofRat (n < 0) n.natAbs), ?_⟩
  rw [divideByInt, hdivisor]
  exact if_neg (Bool.eq_false_iff.mp hnonzero)

lemma divideByInt_of_le (hn : 0 ≤ n) (h : 2 ^ 1024 - 2 ^ 970 ≤ n) :
    divideByInt x n = .error (.conversion .overflowError) := by
  have hlarge : PyFloat.overflowBound ≤ n.natAbs :=
    not_lt.mp (mt (lt_overflowBound_iff hn).mp (not_lt.mpr h))
  rw [divideByInt, PyFloat.ofInt_of_le hlarge]
  rfl

end Division

/-! ## The five handlers -/

section Handlers

variable {payload normalized : Dict} {settings : Settings} {context : ExecutionContext}

/-- The parameters of a sleep, as its handler reads them. -/
lemma sleep_items (duration : PyFloat) (steps : ℤ) :
    (Dict.item [("duration_seconds", .float duration), ("steps", .int steps)]
        "duration_seconds").bind (converted ·.pyFloat) = .ok duration ∧
      (Dict.item [("duration_seconds", .float duration), ("steps", .int steps)]
        "steps").bind (converted ·.pyInt) = .ok steps := ⟨rfl, rfl⟩

/-- The sleep handler, once its step time is computed. -/
lemma handleSleep_of_ok {duration stepSeconds : PyFloat} {steps : ℤ}
    (hduration : (payload.item "duration_seconds").bind (converted ·.pyFloat) = .ok duration)
    (hsteps : (payload.item "steps").bind (converted ·.pyInt) = .ok steps)
    (hdivide : divideByInt duration steps = .ok stepSeconds) :
    handleSleep payload =
      ⟨(List.range steps.toNat).flatMap (stepCalls steps stepSeconds),
        .ok [("slept_seconds", .float duration), ("steps", .int steps)]⟩ := by
  rw [handleSleep, ofExcept_bind hduration, ofExcept_bind hsteps, ofExcept_bind hdivide,
    runSteps_eq, bind_of_ok rfl]
  exact congrArg (Script.mk · _) (List.append_nil _)

lemma handleSleep_of_error {duration : PyFloat} {steps : ℤ} {e : HandlerException}
    (h : divideByInt duration steps = .error e) :
    handleSleep [("duration_seconds", .float duration), ("steps", .int steps)] = raise e := by
  obtain ⟨hduration, hsteps⟩ := sleep_items duration steps
  rw [handleSleep, ofExcept_bind hduration, ofExcept_bind hsteps, h]
  rfl

lemma handleReport_of_ok {pages : ℤ}
    (hpages : (payload.item "pages").bind (converted ·.pyInt) = .ok pages) :
    handleReport payload context =
      ⟨(List.range pages.toNat).flatMap (stepCalls pages context.settings.handlerStepSeconds),
        .ok [("report_ref", .str ("report://" ++ context.jobId)), ("pages", .int pages)]⟩ := by
  rw [handleReport, ofExcept_bind hpages, runSteps_eq, bind_of_ok rfl]
  exact congrArg (Script.mk · _) (List.append_nil _)

lemma expected_handleFlaky (failTimes : ℤ) :
    (handleFlaky [("fail_times", .int failTimes)] context).Expected := by
  have hfail : (Dict.item [("fail_times", .int failTimes)] "fail_times").bind
      (converted ·.pyInt) = .ok failTimes := rfl
  rw [handleFlaky, ofExcept_bind hfail, call_bind]
  intro e he
  dsimp only at he
  split at he
  · obtain rfl := Except.error.inj he
    rfl
  · cases he

lemma expected_handleLlmSummary (prompt : String) (tokens : ℤ) (limited : Bool) :
    (handleLlmSummary [("prompt", .str prompt), ("tokens", .int tokens),
      ("simulate_rate_limit", .bool limited)] context).Expected := by
  let payload : Dict := [("prompt", .str prompt), ("tokens", .int tokens),
    ("simulate_rate_limit", .bool limited)]
  have htokens : (payload.item "tokens").bind (converted ·.pyInt) = .ok tokens := rfl
  have hlimited : payload.item "simulate_rate_limit" = .ok (.bool limited) := rfl
  have hprompt : payload.item "prompt" = .ok (.str prompt) := rfl
  change (handleLlmSummary payload context).Expected
  rw [handleLlmSummary, ofExcept_bind htokens, ofExcept_bind hlimited]
  intro e he
  split at he
  · obtain rfl := Except.error.inj he
    rfl
  · -- a prompt is a string, which has a length
    rw [runSteps_eq, bind_of_ok rfl, ofExcept_bind hprompt] at he
    by_cases htruthy : (Json.str prompt).truthy
    · rw [if_pos htruthy] at he
      cases he
    · rw [if_neg htruthy] at he
      cases he

end Handlers

/-- **A normalized payload is executable, but for a step count that is no float.**  The handler of
a type raises nothing but its own two exceptions on a payload that was accepted, on every attempt,
exactly when the type is not a sleep or the number of its steps can be converted to a float. -/
theorem normalized_executable_iff {settings : Settings} {type : JobType} {payload normalized : Dict}
    (h : normalizePayload payload settings type = .ok normalized) (context : ExecutionContext) :
    (handler normalized context type).Expected ↔
      (type = .sleep → ∀ steps,
        ((payload.get "steps").getD (.int settings.handlerProgressSteps)).pyInt = .ok steps →
          steps < 2 ^ 1024 - 2 ^ 970) := by
  cases type with
  | sleep =>
      obtain ⟨duration, steps, -, hsteps, rfl⟩ := normalizeSleep_eq_ok.mp h
      obtain ⟨hraw, hpositive⟩ := coerceInt_eq_ok.mp hsteps
      simp only [forall_const, hraw, Except.ok.injEq, forall_eq']
      constructor
      · intro hexpected
        by_contra hlarge
        have hdivide : divideByInt duration steps = .error (.conversion .overflowError) :=
          divideByInt_of_le (by omega) (not_lt.mp hlarge)
        rw [handler, handleSleep_of_error hdivide] at hexpected
        exact absurd (hexpected _ rfl) Bool.false_ne_true
      · intro hless
        obtain ⟨stepSeconds, hdivide⟩ := divideByInt_of_lt hpositive hless
        obtain ⟨hitem, hitem'⟩ := sleep_items duration steps
        rw [handler, handleSleep_of_ok hitem hitem' hdivide]
        exact expected_of_ok rfl
  | report =>
      obtain ⟨pages, -, rfl⟩ := normalizeReport_eq_ok.mp h
      rw [handler, handleReport_of_ok rfl]
      exact iff_of_true (expected_of_ok rfl) nofun
  | flaky =>
      obtain ⟨failTimes, -, rfl⟩ := normalizeFlaky_eq_ok.mp h
      exact iff_of_true (expected_handleFlaky failTimes) nofun
  | alwaysFail =>
      refine iff_of_true ?_ nofun
      intro e he
      obtain rfl := Except.error.inj he
      rfl
  | llmSummary =>
      obtain ⟨tokens, -, rfl⟩ := normalizeLlmSummary_eq_ok.mp h
      exact iff_of_true (expected_handleLlmSummary _ tokens _) nofun

/-- A sleep of the default duration. -/
lemma normalizeSleep_steps {steps : ℤ} (h : 1 ≤ steps) :
    normalizePayload [("steps", .int steps)] {} .sleep =
      .ok [("duration_seconds", .float ⟨0x4024000000000000#64⟩), ("steps", .int steps)] := by
  have hsteps : coerceInt [("steps", .int steps)] "steps" 10 1 = .ok steps :=
    coerceInt_eq_ok.mpr ⟨rfl, h⟩
  have hduration : coerceFloat [] "duration_seconds" ⟨0x4024000000000000#64⟩ (.ofRat false 0) =
      .ok ⟨0x4024000000000000#64⟩ := by decide +kernel
  exact normalizeSleep_eq_ok.mpr ⟨_, steps, hduration, hsteps, rfl⟩

/-- A sleep of three steps, and its handler on the second attempt. -/
theorem normalized_executable_iff_three :
    ∃ normalized, normalizePayload [("steps", .int 3)] {} .sleep = .ok normalized ∧
      (handler normalized ⟨"job", 2, {}⟩ .sleep).Expected := by
  have hnormalized := normalizeSleep_steps (by decide : (1 : ℤ) ≤ 3)
  refine ⟨_, hnormalized, (normalized_executable_iff hnormalized _).mpr fun _ steps hsteps => ?_⟩
  obtain rfl : 3 = steps := Except.ok.inj hsteps
  decide +kernel

/-- A sleep of `2 ^ 1024` steps is accepted, and its handler ends with an `OverflowError`. -/
theorem sleep_overflows :
    ∃ normalized, normalizePayload [("steps", .int (2 ^ 1024))] {} .sleep = .ok normalized ∧
      (handler normalized ⟨"job", 1, {}⟩ .sleep).ending = .error (.conversion .overflowError) ∧
      ¬ (handler normalized ⟨"job", 1, {}⟩ .sleep).Expected := by
  have hdivide : divideByInt ⟨0x4024000000000000#64⟩ (2 ^ 1024) =
      .error (.conversion .overflowError) :=
    divideByInt_of_le (by decide +kernel) (by decide +kernel)
  have hending := congrArg Script.ending (handleSleep_of_error hdivide)
  refine ⟨_, normalizeSleep_steps (by decide +kernel), hending, fun hexpected => ?_⟩
  exact absurd (hexpected _ hending) Bool.false_ne_true

end JobCatalog

end JobOrchestrator
