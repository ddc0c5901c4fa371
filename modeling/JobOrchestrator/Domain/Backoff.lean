import JobOrchestrator.Core
import JobOrchestrator.Domain.Floats

/-!
# The backoff schedule

`app/domain/backoff.py`.  The power of two is an integer; its product with a float converts it
first, and that raises an `OverflowError` when it is too large.
-/

namespace JobOrchestrator

/-- `random.random()`: a multiple of `2 ** -53` below one. -/
def random (draw : Fin (2 ^ 53)) : PyFloat := .ofRat false ((draw : ℕ) / 2 ^ 53)

/-- `random.uniform(a, b)` -/
def uniform (a b : PyFloat) (draw : Fin (2 ^ 53)) : PyFloat :=
  a.add ((b.sub a).mul (random draw))

/-- The wait before its jitter: `min(base * 2 ** max(0, n - 1), max)`. -/
def cappedSeconds (attemptCount : ℕ) (settings : Settings) : Except ConversionError PyFloat :=
  (PyFloat.ofInt (2 ^ (attemptCount - 1))).map fun factor =>
    (settings.retryBaseSeconds.mul factor).pyMin settings.retryMaxSeconds

/-- `compute_backoff_seconds` -/
def computeBackoffSeconds (attemptCount : ℕ) (settings : Settings) (draw : Fin (2 ^ 53)) :
    Except ConversionError PyFloat :=
  (cappedSeconds attemptCount settings).map fun capped =>
    let jitter := capped.mul settings.retryJitterRatio
    PyFloat.zero.pyMax (capped.add (uniform jitter.neg jitter draw))

/-- `timedelta(seconds=x)`, in microseconds: the whole seconds, and the rest of a second as a float
product that is rounded to the even of two. -/
def timedelta (x : PyFloat) : Except ConversionError Time :=
  if x.isNan then .error .valueError
  else if x.isInf then .error .overflowError
  else
    let whole := x.magnitude.floor
    let rest := (PyFloat.ofRat false 1000000).mul (.ofRat false (x.magnitude - whole))
    let length := seconds whole + PyFloat.roundHalfEven rest.magnitude
    let delta := if x.negative then -length else length
    if seconds (-999999999 * 86400) ≤ delta ∧ delta < seconds (1000000000 * 86400) then .ok delta
    else .error .overflowError

/-- The wait that `_on_failure` adds to the clock. -/
def retryWait (attemptCount : ℕ) (settings : Settings) (draw : Fin (2 ^ 53)) :
    Except ConversionError Time :=
  computeBackoffSeconds attemptCount settings draw >>= timedelta

/-! ## The power of two -/

namespace PyFloat

/-- The powers of two up to `2 ^ 1023` are floats. -/
lemma ofInt_power {k : ℕ} (h : k ≤ 1023) :
    ∃ x, ofInt (2 ^ k) = .ok x ∧ x.Nonneg ∧ x.Finite ∧ x.magnitude = 2 ^ k := by
  have hcast : (((2 : ℤ) ^ k).natAbs : ℚ) = 2 ^ k := by
    rw [Int.natAbs_pow]
    push_cast
    rfl
  have hnonneg : ¬ (2 : ℤ) ^ k < 0 := not_lt.mpr (by positivity)
  have hfinite : (PyFloat.ofRat false (2 ^ k)).Finite := by
    rw [finite_ofRat_iff, encode_power, infBits]
    omega
  refine ⟨.ofRat false (2 ^ k), ?_, nonneg_ofRat fun h => absurd h Bool.false_ne_true, hfinite, ?_⟩
  · rw [ofInt, hcast, decide_eq_false hnonneg, hfinite.isInf, if_neg Bool.false_ne_true]
  · rw [← decode_power] at hfinite ⊢
    exact magnitude_ofRat_decode hfinite

/-- Greater powers of two are not. -/
lemma ofInt_power_overflow {k : ℕ} (h : 1024 ≤ k) : ofInt (2 ^ k) = .error .overflowError := by
  have hcast : (((2 : ℤ) ^ k).natAbs : ℚ) = 2 ^ k := by
    rw [Int.natAbs_pow]
    push_cast
    rfl
  have hinf : ∀ negative, (PyFloat.ofRat negative (2 ^ k)).isInf := fun negative => by
    rw [isInf_iff, number_ofRat, encode_power, infBits]
    omega
  rw [ofInt, hcast, if_pos (hinf _)]

end PyFloat

end JobOrchestrator
