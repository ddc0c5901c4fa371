import JobOrchestrator.Domain.Backoff

/-!
# The range of the backoff

The wait before an attempt lies in the jitter interval around the capped wait, both ends as the
float operations give them.  The capped wait is computed after the power of two was converted to
a float, so the cap does not protect the conversion.
-/

namespace JobOrchestrator

open PyFloat

/-! ## The jitter -/

section Jitter

variable {c r : PyFloat} (draw : Fin (2 ^ 53))

lemma random_spec (draw : Fin (2 ^ 53)) :
    (random draw).Nonneg ∧ (random draw).number ≤ one.number := by
  have hle : ((draw : ℕ) : ℚ) / 2 ^ 53 ≤ 1 := by
    rw [div_le_one (by positivity)]
    exact_mod_cast draw.isLt.le
  exact ⟨nonneg_ofRat nofun, number_ofRat_mono (by positivity) hle⟩

/-- Only the least draw is zero. -/
lemma isZero_random (draw : Fin (2 ^ 53)) : (random draw).isZero ↔ draw = 0 := by
  rw [isZero_iff, random, number_ofRat]
  constructor
  · intro hzero
    by_contra hdraw
    have hpos : 1 ≤ (draw : ℕ) := Nat.one_le_iff_ne_zero.mpr fun h => hdraw (Fin.ext h)
    have hone : (1 : ℚ) / 2 ^ 53 ≤ (draw : ℕ) / 2 ^ 53 := by
      gcongr
      exact_mod_cast hpos
    have hleast : Rounding.decode 52 1074 1 ≤ (draw : ℕ) / 2 ^ 53 := by
      rw [Rounding.decode_of_lt (by decide), Nat.cast_one, one_mul]
      refine le_trans ?_ hone
      rw [one_div, ← zpow_natCast, ← zpow_neg]
      exact zpow_le_zpow_right₀ one_le_two (by decide)
    have hencode : 1 ≤ Rounding.encode 52 1074 ((draw : ℕ) / 2 ^ 53) := Rounding.le_encode hleast
    unfold infBits at hzero
    omega
  · rintro rfl
    rw [Fin.val_zero, Nat.cast_zero, zero_div, Rounding.encode_zero, Nat.zero_min]

section Draw

variable {j : PyFloat}

lemma uniform_eq (j : PyFloat) (draw : Fin (2 ^ 53)) :
    uniform j.neg j draw = j.neg.add ((j.add j).mul (random draw)) := by
  rw [uniform, sub, neg_neg]

/-- The draw lies between the two ends, if their distance is a float. -/
lemma uniform_bounds (hj : j.Nonneg) (hj' : j.Finite) (hdouble : (j.add j).Finite) :
    (uniform j.neg j draw).Finite ∧ |(uniform j.neg j draw).value| ≤ j.magnitude := by
  obtain ⟨hrandom, hone⟩ := random_spec draw
  have hsum : 0 ≤ j.value + j.value := by
    rw [hj.value]
    exact add_nonneg j.magnitude_nonneg j.magnitude_nonneg
  obtain ⟨hpart, hle⟩ :=
    nonneg_mul_of_le_one (nonneg_add hj' hj' hsum).1 hdouble hrandom hone
  have hpart' : ((j.add j).mul (random draw)).Finite := hle.trans_lt hdouble
  have hmagnitude : ((j.add j).mul (random draw)).magnitude ≤ 2 * j.magnitude := by
    rw [← magnitude_double hj hj' hdouble]
    exact magnitude_le_iff.mpr hle
  have hvalue : |j.neg.value + ((j.add j).mul (random draw)).value| ≤ j.magnitude := by
    rw [value_neg, hj.value, hpart.value, abs_le]
    have hpos := magnitude_nonneg ((j.add j).mul (random draw))
    constructor <;> linarith
  have hnumber : (uniform j.neg j draw).number ≤ j.number := by
    rw [uniform_eq, add_of_finite hj'.neg hpart']
    exact number_ofRat_le (abs_nonneg _) hvalue
  exact ⟨hnumber.trans_lt hj', by rw [abs_value]; exact magnitude_le_iff.mpr hnumber⟩

/-- Otherwise it is an infinity, or a NaN for the least draw. -/
lemma uniform_overflow (hj : j.Nonneg) (hj' : j.Finite) (hdouble : ¬ (j.add j).Finite) :
    if draw = 0 then (uniform j.neg j draw).isNan
    else (uniform j.neg j draw).isInf ∧ (uniform j.neg j draw).negative = false := by
  have hsum : 0 ≤ j.value + j.value := by
    rw [hj.value]
    exact add_nonneg j.magnitude_nonneg j.magnitude_nonneg
  have hnonneg := (nonneg_add hj' hj' hsum).1
  have hinf : (j.add j).isInf := (finite_or hnonneg.1).resolve_left hdouble
  have hpositive : (j.add j).negative = false := hnonneg.negative_of_isInf hinf
  rw [uniform_eq, mul_of_isInf hinf ((random_spec draw).2.trans_lt finite_one)]
  have hzero : (random draw).isZero ↔ draw = 0 := isZero_random draw
  split
  · rename_i hdraw
    rw [if_pos (hzero.mpr hdraw)]
    exact add_nan isNan_nan
  · rename_i hdraw
    rw [if_neg (mt hzero.mp hdraw), hpositive, random, negative_ofRat, add_of_isInf_right hj'.neg
      (isInf_inf _)]
    exact ⟨isInf_inf _, negative_inf _⟩

end Draw

/-! ### The wait around a capped wait -/

/-- The least and the greatest wait that the ratio allows around a capped wait. -/
def leastWait (c r : PyFloat) : PyFloat := c.sub (c.mul r)

def greatestWait (c r : PyFloat) : PyFloat := c.add (c.mul r)

/-- The wait with its jitter, as `compute_backoff_seconds` returns it. -/
def jittered (c r : PyFloat) (draw : Fin (2 ^ 53)) : PyFloat :=
  zero.pyMax (c.add (uniform (c.mul r).neg (c.mul r) draw))

/-- The jitter interval around a capped wait: both ends are floats, and so is its width, unless it
begins at zero. -/
def JitterFits (c r : PyFloat) : Prop :=
  c.Finite ∧ (((c.mul r).add (c.mul r)).Finite ∨ (leastWait c r).isZero)

section Wait

variable (hc : c.Nonneg) (hc' : c.Finite) (hr : r.Nonneg) (hone : r.number ≤ one.number)
include hc hc' hr hone

lemma nonneg_leastWait : (leastWait c r).Nonneg ∧ (leastWait c r).number =
    min (Rounding.encode 52 1074 (c.magnitude - (c.mul r).magnitude)) infBits := by
  obtain ⟨hj, hle⟩ := nonneg_mul_of_le_one hc hc' hr hone
  have hsum : c.value + (c.mul r).neg.value = c.magnitude - (c.mul r).magnitude := by
    rw [value_neg, hc.value, hj.value, sub_eq_add_neg]
  have hmagnitude : (c.mul r).magnitude ≤ c.magnitude := magnitude_le_iff.mpr hle
  have hnonneg : 0 ≤ c.value + (c.mul r).neg.value := by
    rw [hsum]
    exact sub_nonneg.mpr hmagnitude
  rw [leastWait, PyFloat.sub, ← hsum]
  exact nonneg_add hc' (Finite.neg (hle.trans_lt hc')) hnonneg

lemma nonneg_greatestWait : (greatestWait c r).Nonneg ∧ (greatestWait c r).number =
    min (Rounding.encode 52 1074 (c.magnitude + (c.mul r).magnitude)) infBits := by
  obtain ⟨hj, hle⟩ := nonneg_mul_of_le_one hc hc' hr hone
  have hsum : c.value + (c.mul r).value = c.magnitude + (c.mul r).magnitude := by
    rw [hc.value, hj.value]
  have hnonneg : 0 ≤ c.value + (c.mul r).value := by
    rw [hsum]
    exact add_nonneg c.magnitude_nonneg (c.mul r).magnitude_nonneg
  rw [greatestWait, ← hsum]
  exact nonneg_add hc' (hle.trans_lt hc') hnonneg

/-- A jitter whose interval has a width keeps the wait between its ends. -/
lemma jittered_bounds (hdouble : ((c.mul r).add (c.mul r)).Finite) :
    (jittered c r draw).Nonneg ∧ (leastWait c r).number ≤ (jittered c r draw).number ∧
      (jittered c r draw).number ≤ (greatestWait c r).number := by
  obtain ⟨hj, hle⟩ := nonneg_mul_of_le_one hc hc' hr hone
  have hj' : (c.mul r).Finite := hle.trans_lt hc'
  obtain ⟨hx, hvalue⟩ := uniform_bounds draw hj hj' hdouble
  obtain ⟨hlower, hupper⟩ := abs_le.mp hvalue
  have hmagnitude : (c.mul r).magnitude ≤ c.magnitude := magnitude_le_iff.mpr hle
  have hnonneg : 0 ≤ c.value + (uniform (c.mul r).neg (c.mul r) draw).value := by
    rw [hc.value]
    linarith
  obtain ⟨hsum, hnumber⟩ := nonneg_add hc' hx hnonneg
  obtain ⟨hwait, hwaitNumber⟩ := nonneg_pyMax_zero hsum
  rw [hc.value] at hnumber hnonneg
  refine ⟨hwait, ?_, ?_⟩
  · rw [jittered, hwaitNumber, hnumber, (nonneg_leastWait hc hc' hr hone).2]
    refine min_le_min_right _ (Rounding.encode_mono (sub_nonneg.mpr hmagnitude) ?_)
    linarith
  · rw [jittered, hwaitNumber, hnumber, (nonneg_greatestWait hc hc' hr hone).2]
    refine min_le_min_right _ (Rounding.encode_mono hnonneg ?_)
    linarith

/-- Otherwise the wait is zero for the least draw and an infinity for the others. -/
lemma jittered_overflow (hdouble : ¬ ((c.mul r).add (c.mul r)).Finite) :
    (jittered c r draw).Nonneg ∧
      (jittered c r draw).number = if draw = 0 then 0 else infBits := by
  obtain ⟨hj, hle⟩ := nonneg_mul_of_le_one hc hc' hr hone
  have hdraw := uniform_overflow draw hj (hle.trans_lt hc') hdouble
  unfold jittered
  split at hdraw
  · rename_i hzero
    have hnan := add_nan (x := c) hdraw
    rw [if_pos hzero, pyMax, lt, hnan, Bool.or_true, if_pos rfl, if_neg Bool.false_ne_true]
    exact ⟨nonneg_zero, number_zero⟩
  · rename_i hzero
    obtain ⟨hinf, hpositive⟩ := hdraw
    rw [if_neg hzero, add_of_isInf_right hc' hinf, ← isInf_iff.mp hinf]
    exact nonneg_pyMax_zero (nonneg_of_isInf hinf hpositive)

/-- Then the greatest wait is an infinity as well. -/
lemma greatestWait_overflow (hdouble : ¬ ((c.mul r).add (c.mul r)).Finite) :
    (greatestWait c r).number = infBits := by
  obtain ⟨hj, hle⟩ := nonneg_mul_of_le_one hc hc' hr hone
  have hj' : (c.mul r).Finite := hle.trans_lt hc'
  have hmagnitude : (c.mul r).magnitude ≤ c.magnitude := magnitude_le_iff.mpr hle
  have hpos := (c.mul r).magnitude_nonneg
  have hsum : 0 ≤ (c.mul r).value + (c.mul r).value := by
    rw [hj.value]
    linarith
  have hnumber := (nonneg_add hj' hj' hsum).2
  rw [PyFloat.Finite, hnumber, hj.value] at hdouble
  have hmono : Rounding.encode 52 1074 ((c.mul r).magnitude + (c.mul r).magnitude) ≤
      Rounding.encode 52 1074 (c.magnitude + (c.mul r).magnitude) := by
    refine Rounding.encode_mono ?_ ?_ <;> linarith
  rw [(nonneg_greatestWait hc hc' hr hone).2]
  omega

/-- An interval that begins at zero begins below the least positive float. -/
lemma lt_of_isZero_leastWait (hzero : (leastWait c r).isZero) :
    c.magnitude - (c.mul r).magnitude < 2 * (1 / 2 ^ 1075) := by
  have htwo : (2 : ℚ) * (1 / 2 ^ (1074 + 1)) = Rounding.decode 52 1074 1 := by
    rw [Rounding.decode_of_lt (by decide), Nat.cast_one, one_mul, zpow_neg, zpow_natCast,
      pow_succ]
    field_simp
  have hnumber := isZero_iff.mp hzero
  rw [htwo]
  by_contra hlarge
  have hpositive := Rounding.le_encode (not_lt.mp hlarge)
  rw [(nonneg_leastWait hc hc' hr hone).2] at hnumber
  unfold infBits at hnumber
  omega

/-- The rounding of the product and of the sums moves the wait by at most this much. -/
lemma jittered_value (hfits : ((c.mul r).add (c.mul r)).Finite ∨ (leastWait c r).isZero)
    (hv : (jittered c r draw).Finite) :
    (1 - r.magnitude) * c.magnitude - (c.magnitude / 2 ^ 51 + 1 / 2 ^ 1073) ≤
        (jittered c r draw).magnitude ∧
      (jittered c r draw).magnitude ≤
        (1 + r.magnitude) * c.magnitude + (c.magnitude / 2 ^ 51 + 1 / 2 ^ 1073) := by
  obtain ⟨hj, hle⟩ := nonneg_mul_of_le_one hc hc' hr hone
  have hj' : (c.mul r).Finite := hle.trans_lt hc'
  have hproduct : 0 ≤ c.magnitude * r.magnitude :=
    mul_nonneg c.magnitude_nonneg r.magnitude_nonneg
  have hfactor : c.magnitude * r.magnitude ≤ c.magnitude := by
    refine mul_le_of_le_one_right c.magnitude_nonneg ?_
    rw [← magnitude_one]
    exact magnitude_le_iff.mpr hone
  have hjitter := abs_le.mp
    (abs_magnitude_sub_le hproduct hj' (nonneg_mul hc hr hc' (hone.trans_lt finite_one)).2)
  have hmagnitude : (c.mul r).magnitude ≤ c.magnitude := magnitude_le_iff.mpr hle
  have htiny : (1 : ℚ) / 2 ^ 1073 = 4 * (1 / 2 ^ (1073 + 2)) := by
    rw [pow_add]
    field_simp
    norm_num
  have hpos := c.magnitude_nonneg
  have hlower : (1 - r.magnitude) * c.magnitude = c.magnitude - c.magnitude * r.magnitude := by ring
  have hupper : (1 + r.magnitude) * c.magnitude = c.magnitude + c.magnitude * r.magnitude := by ring
  have heps : (0 : ℚ) ≤ 1 / 2 ^ 1075 := by positivity
  rw [htiny, hlower, hupper]
  by_cases hdouble : ((c.mul r).add (c.mul r)).Finite
  · obtain ⟨hx, hvalue⟩ := uniform_bounds draw hj hj' hdouble
    have hinterval := abs_le.mp hvalue
    have hnonneg : 0 ≤ c.value + (uniform (c.mul r).neg (c.mul r) draw).value := by
      rw [hc.value]
      linarith
    obtain ⟨hsum, hnumber⟩ := nonneg_add hc' hx hnonneg
    have hwait := (nonneg_pyMax_zero hsum).2
    have herror := abs_le.mp (abs_magnitude_sub_le hnonneg hv (hwait.trans hnumber))
    rw [hc.value] at herror
    generalize (1 : ℚ) / 2 ^ 1075 = tiny at *
    constructor <;> linarith
  · -- the interval begins below the least float, and the only finite wait is zero
    have hleast := lt_of_isZero_leastWait hc hc' hr hone (hfits.resolve_left hdouble)
    have hvnumber := (jittered_overflow draw hc hc' hr hone hdouble).2
    have hvzero : (jittered c r draw).magnitude = 0 := by
      rw [magnitude_eq_zero_iff, hvnumber]
      rw [PyFloat.Finite, hvnumber] at hv
      split at hv
      · rename_i hdraw
        exact if_pos hdraw
      · exact absurd hv (lt_irrefl _)
    rw [hvzero]
    generalize (1 : ℚ) / 2 ^ 1075 = tiny at *
    constructor <;> linarith

end Wait

section Cap

variable {cap : PyFloat} (hc : c.Nonneg) (hcap : cap.Nonneg) (hcap' : cap.Finite) (hr : r.Nonneg)
  (hone : r.number ≤ one.number) (hle : c.number ≤ cap.number)
include hc hcap hcap' hr hone hle

lemma magnitude_jitter_mono : (c.mul r).magnitude ≤ (cap.mul r).magnitude := by
  have hr' : r.Finite := hone.trans_lt finite_one
  rw [magnitude_le_iff, (nonneg_mul hc hr (hle.trans_lt hcap') hr').2,
    (nonneg_mul hcap hr hcap' hr').2]
  refine min_le_min_right _ (Rounding.encode_mono ?_ ?_)
  · exact mul_nonneg c.magnitude_nonneg r.magnitude_nonneg
  · exact mul_le_mul_of_nonneg_right (magnitude_le_iff.mpr hle) r.magnitude_nonneg

/-- The greatest wait around a cap bounds those around what is capped. -/
lemma greatestWait_mono : (greatestWait c r).number ≤ (greatestWait cap r).number := by
  have hc' : c.Finite := hle.trans_lt hcap'
  have hmagnitude : c.magnitude ≤ cap.magnitude := magnitude_le_iff.mpr hle
  have hjitter := magnitude_jitter_mono hc hcap hcap' hr hone hle
  rw [(nonneg_greatestWait hc hc' hr hone).2, (nonneg_greatestWait hcap hcap' hr hone).2]
  refine min_le_min_right _ (Rounding.encode_mono ?_ ?_)
  · exact add_nonneg c.magnitude_nonneg (c.mul r).magnitude_nonneg
  · exact add_le_add hmagnitude hjitter

/-- An interval that fits around a cap fits around what is capped. -/
lemma fits_of_cap (hwidth : ((cap.mul r).add (cap.mul r)).Finite) : JitterFits c r := by
  have hc' : c.Finite := hle.trans_lt hcap'
  obtain ⟨hj, hjle⟩ := nonneg_mul_of_le_one hc hc' hr hone
  obtain ⟨hk, hkle⟩ := nonneg_mul_of_le_one hcap hcap' hr hone
  have hj' : (c.mul r).Finite := hjle.trans_lt hc'
  have hk' : (cap.mul r).Finite := hkle.trans_lt hcap'
  have hjitter := magnitude_jitter_mono hc hcap hcap' hr hone hle
  have hpos := (c.mul r).magnitude_nonneg
  have hsum : 0 ≤ (c.mul r).value + (c.mul r).value := by
    rw [hj.value]
    linarith
  have hsum' : (c.mul r).value + (c.mul r).value ≤ (cap.mul r).value + (cap.mul r).value := by
    rw [hj.value, hk.value]
    linarith
  refine ⟨hc', Or.inl (lt_of_le_of_lt ?_ hwidth)⟩
  rw [(nonneg_add hj' hj' hsum).2, (nonneg_add hk' hk' (hsum.trans hsum')).2]
  exact min_le_min_right _ (Rounding.encode_mono hsum hsum')

end Cap

/-- An infinite wait has no least one. -/
lemma isNan_leastWait (hinf : c.isInf) (hr : r.Nonneg) (hone : r.number ≤ one.number)
    (hc : c.Nonneg) : (leastWait c r).isNan := by
  have hr' : r.Finite := hone.trans_lt finite_one
  rw [leastWait, PyFloat.sub, mul_of_isInf hinf hr']
  split
  · refine add_nan ?_
    rw [isNan_iff, number_neg]
    exact isNan_iff.mp isNan_nan
  · rename_i hzero
    have hpositive : r.negative = false :=
      Bool.eq_false_iff.mpr fun hnegative => hzero (isZero_iff.mpr (hr.2 hnegative))
    have hinf' : (PyFloat.inf (c.negative != r.negative)).neg.isInf := by
      rw [isInf_iff, number_neg]
      exact isInf_iff.mp (isInf_inf _)
    rw [hc.negative_of_isInf hinf, hpositive] at hinf' ⊢
    rw [add, isNan_of_isInf hinf, isNan_of_isInf hinf', hinf, hinf', negative_neg, negative_inf,
      hc.negative_of_isInf hinf]
    exact isNan_nan

end Jitter

/-! ## The capped wait -/

section Capped

variable {settings : Settings} {n m : ℕ}

lemma computeBackoffSeconds_eq (n : ℕ) (settings : Settings) (draw : Fin (2 ^ 53)) :
    computeBackoffSeconds n settings draw =
      (cappedSeconds n settings).map fun c => jittered c settings.retryJitterRatio draw := rfl

/-- The number of the product of a base with a power of two. -/
def geometricNumber (base : PyFloat) (k : ℕ) : ℕ :=
  if base.Finite then min (Rounding.encode 52 1074 (base.magnitude * 2 ^ k)) infBits else infBits

lemma geometricNumber_mono (base : PyFloat) {k k' : ℕ} (h : k ≤ k') :
    geometricNumber base k ≤ geometricNumber base k' := by
  have hpower : (2 : ℚ) ^ k ≤ 2 ^ k' := pow_le_pow_right₀ one_le_two h
  unfold geometricNumber
  split
  · refine min_le_min_right _ (Rounding.encode_mono ?_ ?_)
    · exact mul_nonneg base.magnitude_nonneg (by positivity)
    · exact mul_le_mul_of_nonneg_left hpower base.magnitude_nonneg
  · exact le_rfl

/-- Between finite settings the capped wait is exact. -/
lemma magnitude_capped {base cap c : PyFloat} {k : ℕ} (hbase : base.Finite) (hcap : cap.Finite)
    (hnumber : c.number = min (geometricNumber base k) cap.number) :
    c.magnitude = min (base.magnitude * 2 ^ k) cap.magnitude := by
  obtain ⟨m, hm⟩ := @Rounding.exists_two_pow_mul_decode 52 1074 base.number k
  have hproduct : base.magnitude * 2 ^ k = Rounding.decode 52 1074 m := by
    rw [magnitude_eq, mul_comm, hm]
  have hmin : c.number = min m cap.number := by
    unfold PyFloat.Finite at hcap
    rw [hnumber, geometricNumber, if_pos hbase, hproduct, Rounding.encode_decode]
    omega
  rw [hproduct, magnitude_eq, hmin, Rounding.decode_min, ← magnitude_eq]

lemma nonneg_geometric {base factor : PyFloat} {k : ℕ} (hbase : base.Nonneg)
    (hfactor : factor.Nonneg) (hfactor' : factor.Finite) (hpower : factor.magnitude = 2 ^ k) :
    (base.mul factor).Nonneg ∧ (base.mul factor).number = geometricNumber base k := by
  unfold geometricNumber
  split
  · rename_i hfinite
    rw [← hpower]
    exact nonneg_mul hbase hfactor hfinite hfactor'
  · rename_i hfinite
    have hinf : base.isInf := (finite_or hbase.1).resolve_left hfinite
    have hnonzero : factor.number ≠ 0 := by
      rw [ne_eq, ← magnitude_eq_zero_iff, hpower]
      positivity
    have hpositive : factor.negative = false :=
      Bool.eq_false_iff.mpr fun hnegative => hnonzero (hfactor.2 hnegative)
    rw [mul_of_isInf hinf hfactor', if_neg (mt isZero_iff.mp hnonzero), hpositive,
      hbase.negative_of_isInf hinf]
    exact ⟨nonneg_of_isInf (isInf_inf _) (negative_inf _), isInf_iff.mp (isInf_inf _)⟩

/-- Up to the attempt 1024 there is a capped wait, at most the cap. -/
lemma cappedSeconds_of_le (hbase : settings.retryBaseSeconds.Nonneg)
    (hmax : settings.retryMaxSeconds.Nonneg) (h : n ≤ 1024) :
    ∃ c, cappedSeconds n settings = .ok c ∧ c.Nonneg ∧ c.number =
      min (geometricNumber settings.retryBaseSeconds (n - 1)) settings.retryMaxSeconds.number := by
  obtain ⟨factor, hfactor, hnonneg, hfinite, hpower⟩ := ofInt_power (k := n - 1) (by omega)
  obtain ⟨hgeometric, hnumber⟩ := nonneg_geometric hbase hnonneg hfinite hpower
  obtain ⟨hc, hcnumber⟩ := nonneg_pyMin hgeometric hmax
  refine ⟨_, ?_, hc, ?_⟩
  · rw [cappedSeconds, hfactor]
    rfl
  · rw [hcnumber, hnumber]

/-- Beyond it there is none. -/
lemma cappedSeconds_of_gt (h : 1024 < n) :
    cappedSeconds n settings = .error .overflowError := by
  rw [cappedSeconds, ofInt_power_overflow (by omega)]
  rfl

/-- What the schedule promises of a capped wait and the wait that is drawn around it. -/
structure Ranged (settings : Settings) (n : ℕ) (c v : PyFloat) : Prop where
  capped : settings.retryBaseSeconds.Finite → settings.retryMaxSeconds.Finite →
    c.value = min (settings.retryBaseSeconds.value * 2 ^ (n - 1)) settings.retryMaxSeconds.value
  monotone : ∀ m ≤ n, ∃ c', cappedSeconds m settings = .ok c' ∧ c'.le c
  lower : (leastWait c settings.retryJitterRatio).le v
  upper : v.le (greatestWait c settings.retryJitterRatio)
  nonneg : zero.le v
  below : settings.retryMaxSeconds.isInf ∨
    v.le (greatestWait settings.retryMaxSeconds settings.retryJitterRatio)
  exact_lower : v.Finite → (1 - settings.retryJitterRatio.value) * c.value -
    (c.value / 2 ^ 51 + 1 / 2 ^ 1073) ≤ v.value
  exact_upper : v.Finite → v.value ≤ (1 + settings.retryJitterRatio.value) * c.value +
    (c.value / 2 ^ 51 + 1 / 2 ^ 1073)

/-- The call returns a wait as promised. -/
def BackoffBounded (settings : Settings) (n : ℕ) (draw : Fin (2 ^ 53)) : Prop :=
  ∃ c v, cappedSeconds n settings = .ok c ∧ computeBackoffSeconds n settings draw = .ok v ∧
    Ranged settings n c v

variable (hbase : settings.retryBaseSeconds.Nonneg) (hmax : settings.retryMaxSeconds.Nonneg)
  (hr : settings.retryJitterRatio.Nonneg) (hone : settings.retryJitterRatio.number ≤ one.number)
include hbase hmax hr hone

lemma bounded_of_fits (h : n ≤ 1024)
    (hfits : ∀ c, cappedSeconds n settings = .ok c → JitterFits c settings.retryJitterRatio)
    (draw : Fin (2 ^ 53)) : BackoffBounded settings n draw := by
  obtain ⟨c, hcapped, hc, hnumber⟩ := cappedSeconds_of_le hbase hmax h
  obtain ⟨hc', hinterval⟩ := hfits c hcapped
  have hcap : c.number ≤ settings.retryMaxSeconds.number := by
    rw [hnumber]
    exact min_le_right ..
  obtain ⟨hleast, -⟩ := nonneg_leastWait hc hc' hr hone
  obtain ⟨hgreatest, -⟩ := nonneg_greatestWait hc hc' hr hone
  obtain ⟨hv, hlower, hupper⟩ : (jittered c settings.retryJitterRatio draw).Nonneg ∧
      (leastWait c settings.retryJitterRatio).number ≤
        (jittered c settings.retryJitterRatio draw).number ∧
      (jittered c settings.retryJitterRatio draw).number ≤
        (greatestWait c settings.retryJitterRatio).number := by
    by_cases hdouble : ((c.mul settings.retryJitterRatio).add
        (c.mul settings.retryJitterRatio)).Finite
    · exact jittered_bounds draw hc hc' hr hone hdouble
    · -- the interval begins at zero and has no upper end
      obtain ⟨hv, hvnumber⟩ := jittered_overflow draw hc hc' hr hone hdouble
      have hzero := isZero_iff.mp (hinterval.resolve_left hdouble)
      have htop := greatestWait_overflow hc hc' hr hone hdouble
      refine ⟨hv, by omega, ?_⟩
      rw [hvnumber, htop]
      split <;> omega
  refine ⟨c, _, hcapped, by rw [computeBackoffSeconds_eq, hcapped]; rfl, ?_⟩
  refine ⟨fun hbase' hmax' => ?_, fun m hm => ?_, (le_iff_number hleast hv).mpr hlower,
    (le_iff_number hv hgreatest).mpr hupper, zero_le_iff.mpr hv, ?_, fun hv' => ?_, fun hv' => ?_⟩
  · rw [hc.value, hbase.value, hmax.value]
    exact magnitude_capped hbase' hmax' hnumber
  · obtain ⟨c', hcapped', hc'', hnumber'⟩ := cappedSeconds_of_le hbase hmax (hm.trans h)
    refine ⟨c', hcapped', (le_iff_number hc'' hc).mpr ?_⟩
    rw [hnumber, hnumber']
    exact min_le_min_right _ (geometricNumber_mono _ (Nat.sub_le_sub_right hm 1))
  · rcases finite_or hmax.1 with hfinite | hinf
    · right
      have hmono := greatestWait_mono hc hmax hfinite hr hone hcap
      obtain ⟨hgreatest', -⟩ := nonneg_greatestWait hmax hfinite hr hone
      exact (le_iff_number hv hgreatest').mpr (hupper.trans hmono)
    · exact Or.inl hinf
  · rw [hc.value, hr.value, hv.value]
    exact (jittered_value draw hc hc' hr hone hinterval hv').1
  · rw [hc.value, hr.value, hv.value]
    exact (jittered_value draw hc hc' hr hone hinterval hv').2

lemma fits_of_bounded (h : ∀ draw, BackoffBounded settings n draw) :
    n ≤ 1024 ∧
      ∀ c, cappedSeconds n settings = .ok c → JitterFits c settings.retryJitterRatio := by
  obtain ⟨c₀, v, hcapped, hwait, hranged⟩ := h 0
  have hlower := hranged.lower
  have hn : n ≤ 1024 := by
    by_contra hgreater
    exact nomatch hcapped.symm.trans (cappedSeconds_of_gt (not_le.mp hgreater))
  refine ⟨hn, fun c hc => ?_⟩
  obtain rfl := Except.ok.inj (hcapped.symm.trans hc)
  obtain ⟨c', hcapped', hnonneg, -⟩ := cappedSeconds_of_le hbase hmax hn
  obtain rfl := Except.ok.inj (hcapped.symm.trans hcapped')
  rw [computeBackoffSeconds_eq, hcapped] at hwait
  obtain rfl := Except.ok.inj hwait
  rcases finite_or hnonneg.1 with hfinite | hinf
  · refine ⟨hfinite, ?_⟩
    by_cases hdouble : ((c₀.mul settings.retryJitterRatio).add
        (c₀.mul settings.retryJitterRatio)).Finite
    · exact Or.inl hdouble
    · right
      obtain ⟨hleast, -⟩ := nonneg_leastWait hnonneg hfinite hr hone
      obtain ⟨hv, hvnumber⟩ := jittered_overflow 0 hnonneg hfinite hr hone hdouble
      rw [le_iff_number hleast hv, hvnumber, if_pos rfl] at hlower
      exact isZero_iff.mpr (Nat.le_zero.mp hlower)
  · -- nothing is above a NaN
    have hnan := isNan_leastWait hinf hr hone hnonneg
    rw [le, hnan, Bool.true_or] at hlower
    exact absurd hlower Bool.false_ne_true

end Capped

/-- **The range of the backoff.**  For settings that are not negative and a ratio of at most one,
every draw gives a wait within the promised bounds exactly when the attempt count is at most 1024
and the jitter interval around the capped wait fits into the floats. -/
theorem backoff_bounded_iff {settings : Settings} (hbase : zero.le settings.retryBaseSeconds)
    (hmax : zero.le settings.retryMaxSeconds) (hratio : zero.le settings.retryJitterRatio)
    (hone : settings.retryJitterRatio.le one) (n : ℕ) :
    (∀ draw, BackoffBounded settings n draw) ↔
      n ≤ 1024 ∧
        ∀ c, cappedSeconds n settings = .ok c → JitterFits c settings.retryJitterRatio := by
  have hr : settings.retryJitterRatio.Nonneg := zero_le_iff.mp hratio
  have hone' : settings.retryJitterRatio.number ≤ one.number :=
    (le_iff_number hr nonneg_one).mp hone
  constructor
  · exact fits_of_bounded (zero_le_iff.mp hbase) (zero_le_iff.mp hmax) hr hone'
  · rintro ⟨h, hfits⟩
    exact bounded_of_fits (zero_le_iff.mp hbase) (zero_le_iff.mp hmax) hr hone' h hfits

/-- When the jitter interval around the cap fits, the attempt count alone decides. -/
theorem backoff_bounded_iff_le {settings : Settings} (hbase : zero.le settings.retryBaseSeconds)
    (hmax : zero.le settings.retryMaxSeconds) (hratio : zero.le settings.retryJitterRatio)
    (hone : settings.retryJitterRatio.le one) (hfinite : settings.retryMaxSeconds.Finite)
    (hwidth : ((settings.retryMaxSeconds.mul settings.retryJitterRatio).add
      (settings.retryMaxSeconds.mul settings.retryJitterRatio)).Finite) (n : ℕ) :
    (∀ draw, BackoffBounded settings n draw) ↔ n ≤ 1024 := by
  have hbase' := zero_le_iff.mp hbase
  have hmax' := zero_le_iff.mp hmax
  have hr : settings.retryJitterRatio.Nonneg := zero_le_iff.mp hratio
  have hone' : settings.retryJitterRatio.number ≤ one.number :=
    (le_iff_number hr nonneg_one).mp hone
  constructor
  · exact fun h => (fits_of_bounded hbase' hmax' hr hone' h).1
  · intro h
    refine bounded_of_fits hbase' hmax' hr hone' h fun c hcapped => ?_
    obtain ⟨c', hcapped', hc, hnumber⟩ := cappedSeconds_of_le hbase' hmax' h
    obtain rfl := Except.ok.inj (hcapped'.symm.trans hcapped)
    have hcap : c'.number ≤ settings.retryMaxSeconds.number := by
      rw [hnumber]
      exact min_le_right ..
    exact fits_of_cap hc hmax' hfinite hr hone' hcap hwidth

/-- The third attempt under the default settings: the jitter is around 8 seconds. -/
theorem backoff_bounded_iff_default : cappedSeconds 3 {} = .ok ⟨0x4020000000000000#64⟩ ∧
    ∀ draw, BackoffBounded {} 3 draw := by
  have height : cappedSeconds 3 {} = .ok ⟨0x4020000000000000#64⟩ := by decide +kernel
  refine ⟨height, (backoff_bounded_iff (by decide +kernel) (by decide +kernel) (by decide +kernel)
    (by decide +kernel) 3).mpr ⟨by decide, fun c hcapped => ?_⟩⟩
  obtain rfl := Except.ok.inj (height.symm.trans hcapped)
  exact ⟨by decide +kernel, Or.inl (by decide +kernel)⟩

/-- An attempt that a submission with `max_attempts` above 1025 can reach, under the default
settings. -/
theorem backoff_overflows : computeBackoffSeconds 1025 {} 0 = .error .overflowError ∧
    ¬ BackoffBounded {} 1025 0 := by
  have hcapped : cappedSeconds 1025 {} = .error .overflowError :=
    cappedSeconds_of_gt (by decide)
  refine ⟨by rw [computeBackoffSeconds_eq, hcapped]; rfl, ?_⟩
  rintro ⟨c, v, hc, -⟩
  exact nomatch hc.symm.trans hcapped

end JobOrchestrator
