import JobOrchestrator.Domain.Conversions
import JobOrchestrator.Library.Rounding

/-!
# Float arithmetic

The operations of Python on its floats: IEEE doubles, rounded to the nearest, with infinities and
NaN.  A float without its sign is a member of a binary format (`Rounding`), and for the floats
that are not negative the comparisons are those of the numbers of these members, an infinity
coming last.
-/

namespace JobOrchestrator

namespace PyFloat

/-! ## Operations -/

def zero : PyFloat := .ofRat false 0

def one : PyFloat := .ofRat false 1

/-- `x <= y` -/
def le (x y : PyFloat) : Bool := !(x.isNan || y.isNan) && !y.lt x

/-- `-x`: the sign bit is flipped. -/
def neg (x : PyFloat) : PyFloat := ⟨x.bits + BitVec.ofNat 64 (2 ^ 63)⟩

/-- `x + y`; an exact zero is negative when both terms are. -/
def add (x y : PyFloat) : PyFloat :=
  if x.isNan || y.isNan then nan
  else if x.isInf then if y.isInf && x.negative != y.negative then nan else x
  else if y.isInf then y
  else
    let sum := x.value + y.value
    .ofRat (if sum = 0 then x.negative && y.negative else sum < 0) |sum|

/-- `x - y` -/
def sub (x y : PyFloat) : PyFloat := x.add y.neg

/-- `x * y` -/
def mul (x y : PyFloat) : PyFloat :=
  if x.isNan || y.isNan then nan
  else if x.isInf || y.isInf then
    if x.isZero || y.isZero then nan else .inf (x.negative != y.negative)
  else .ofRat (x.negative != y.negative) (x.magnitude * y.magnitude)

/-- `x / y` for `y` other than zero. -/
def div (x y : PyFloat) : PyFloat :=
  if x.isNan || y.isNan then nan
  else if x.isInf then if y.isInf then nan else .inf (x.negative != y.negative)
  else if y.isInf then .ofRat (x.negative != y.negative) 0
  else .ofRat (x.negative != y.negative) (x.magnitude / y.magnitude)

/-- `min(x, y)` -/
def pyMin (x y : PyFloat) : PyFloat := if y.lt x then y else x

/-- `max(x, y)` -/
def pyMax (x y : PyFloat) : PyFloat := if x.lt y then y else x

/-- `float(n)` of an integer. -/
def ofInt (n : ℤ) : Except ConversionError PyFloat :=
  let x := PyFloat.ofRat (n < 0) n.natAbs
  if x.isInf then .error .overflowError else .ok x

/-! ## The number of a float -/

/-- The place of a float among the floats, without its sign. -/
def number (x : PyFloat) : ℕ := x.bits.toNat % 2 ^ 63

def Finite (x : PyFloat) : Prop := x.number < infBits

instance (x : PyFloat) : Decidable x.Finite := inferInstanceAs (Decidable (x.number < infBits))

section Number

variable {x y : PyFloat} {negative : Bool} {q q' : ℚ}

lemma biasedExponent_eq (x : PyFloat) : x.biasedExponent = x.number / 2 ^ 52 := by
  rw [biasedExponent, number]
  omega

lemma fraction_eq (x : PyFloat) : x.fraction = x.number % 2 ^ 52 := by
  rw [fraction, number]
  omega

lemma number_lt (x : PyFloat) : x.number < 2 ^ 63 := Nat.mod_lt _ (by decide)

lemma magnitude_eq (x : PyFloat) : x.magnitude = Rounding.decode 52 1074 x.number := by
  rw [magnitude, Rounding.decode, significand, Rounding.significand, scale, biasedExponent_eq,
    fraction_eq]
  congr 2
  push_cast
  ring

lemma isNan_iff : x.isNan ↔ infBits < x.number := by
  have h := x.number_lt
  simp only [isNan, biasedExponent_eq, fraction_eq, infBits, Bool.and_eq_true, decide_eq_true_eq]
  omega

lemma isInf_iff : x.isInf ↔ x.number = infBits := by
  have h := x.number_lt
  simp only [isInf, biasedExponent_eq, fraction_eq, infBits, Bool.and_eq_true, decide_eq_true_eq]
  omega

lemma isZero_iff : x.isZero ↔ x.number = 0 := by
  simp only [isZero, biasedExponent_eq, fraction_eq, Bool.and_eq_true, decide_eq_true_eq]
  omega

lemma negative_iff : x.negative ↔ 2 ^ 63 ≤ x.bits.toNat := by
  rw [negative, BitVec.msb_eq_decide, decide_eq_true_eq]

lemma Finite.isNan (h : x.Finite) : x.isNan = false :=
  Bool.eq_false_iff.mpr (mt isNan_iff.mp (not_lt.mpr (le_of_lt h)))

lemma Finite.isInf (h : x.Finite) : x.isInf = false :=
  Bool.eq_false_iff.mpr (mt isInf_iff.mp (ne_of_lt h))

lemma finite_or (hnan : x.isNan = false) : x.Finite ∨ x.isInf := by
  have hle : x.number ≤ infBits := not_lt.mp (mt isNan_iff.mpr (Bool.eq_false_iff.mp hnan))
  exact hle.lt_or_eq.imp id isInf_iff.mpr

/-! ## Rounding -/

lemma finite_iff : x.Finite ↔ x.isNan = false ∧ x.isInf = false := by
  constructor
  · exact fun h => ⟨h.isNan, h.isInf⟩
  · rintro ⟨hnan, hinf⟩
    exact (finite_or hnan).resolve_right fun h => Bool.false_ne_true (hinf.symm.trans h)

lemma ofRat_eq (negative : Bool) (q : ℚ) : ofRat negative q =
    ⟨BitVec.ofNat 64 (min (Rounding.encode 52 1074 q) infBits + if negative then 2 ^ 63 else 0)⟩ :=
  rfl

lemma bits_ofRat (negative : Bool) (q : ℚ) : (ofRat negative q).bits.toNat =
    min (Rounding.encode 52 1074 q) infBits + if negative then 2 ^ 63 else 0 := by
  have hle : min (Rounding.encode 52 1074 q) infBits ≤ infBits := min_le_right ..
  rw [ofRat_eq, BitVec.toNat_ofNat, Nat.mod_eq_of_lt]
  unfold infBits at hle ⊢
  split <;> omega

/-- The rounded number, or that of an infinity. -/
@[simp] lemma number_ofRat : (ofRat negative q).number =
    min (Rounding.encode 52 1074 q) infBits := by
  have hle : min (Rounding.encode 52 1074 q) infBits ≤ infBits := min_le_right ..
  rw [number, bits_ofRat]
  unfold infBits at hle ⊢
  split <;> omega

@[simp] lemma negative_ofRat : (ofRat negative q).negative = negative := by
  have hle : min (Rounding.encode 52 1074 q) infBits ≤ infBits := min_le_right ..
  rw [Bool.eq_iff_iff, negative_iff, bits_ofRat]
  unfold infBits at hle ⊢
  cases negative
  · simp only [Bool.false_eq_true, ↓reduceIte, iff_false]
    omega
  · simp

@[simp] lemma isNan_ofRat : (ofRat negative q).isNan = false := by
  rw [Bool.eq_false_iff, ne_eq, isNan_iff, number_ofRat]
  omega

lemma finite_ofRat_iff : (ofRat negative q).Finite ↔ Rounding.encode 52 1074 q < infBits := by
  rw [Finite, number_ofRat]
  omega

/-- What is at most a float is rounded to at most it. -/
lemma number_ofRat_le (hq : 0 ≤ q) (h : q ≤ x.magnitude) :
    (ofRat negative q).number ≤ x.number := by
  rw [magnitude_eq] at h
  rw [number_ofRat]
  exact (min_le_left ..).trans (Rounding.encode_le hq h)

lemma magnitude_le_iff : x.magnitude ≤ y.magnitude ↔ x.number ≤ y.number := by
  rw [magnitude_eq, magnitude_eq, Rounding.decode_le_decode]

lemma magnitude_nonneg (x : PyFloat) : 0 ≤ x.magnitude := by
  rw [magnitude_eq]
  exact Rounding.decode_nonneg _

lemma magnitude_eq_zero_iff : x.magnitude = 0 ↔ x.number = 0 := by
  have hzero : Rounding.decode 52 1074 0 = 0 := by
    rw [Rounding.decode_of_lt (by decide), Nat.cast_zero, zero_mul]
  have hle : x.magnitude ≤ 0 ↔ x.number ≤ 0 := by
    rw [magnitude_eq, ← hzero, Rounding.decode_le_decode]
  exact ⟨fun h => Nat.le_zero.mp (hle.mp h.le),
    fun h => le_antisymm (hle.mpr h.le) x.magnitude_nonneg⟩

lemma number_ofRat_mono {negative' : Bool} (hq : 0 ≤ q) (h : q ≤ q') :
    (ofRat negative q).number ≤ (ofRat negative' q').number := by
  rw [number_ofRat, number_ofRat]
  exact min_le_min_right _ (Rounding.encode_mono hq h)

/-- A float that is not an infinity is what it was rounded from, if that is a member. -/
lemma magnitude_ofRat_decode {n : ℕ} (h : (ofRat negative (Rounding.decode 52 1074 n)).Finite) :
    (ofRat negative (Rounding.decode 52 1074 n)).magnitude = Rounding.decode 52 1074 n := by
  rw [finite_ofRat_iff, Rounding.encode_decode] at h
  rw [magnitude_eq, number_ofRat, Rounding.encode_decode, min_eq_left h.le]

/-! ## Floats that are not negative -/

/-- `x >= 0`, which a NaN does not meet and a negative zero does. -/
def Nonneg (x : PyFloat) : Prop := x.isNan = false ∧ (x.negative → x.number = 0)

lemma Nonneg.value (h : x.Nonneg) : x.value = x.magnitude := by
  unfold PyFloat.value
  split
  · rename_i hnegative
    rw [magnitude_eq_zero_iff.mpr (h.2 hnegative), neg_zero]
  · rfl

/-- An infinity that is not negative. -/
lemma Nonneg.negative_of_isInf (h : x.Nonneg) (hinf : x.isInf) : x.negative = false := by
  refine Bool.eq_false_iff.mpr fun hnegative => ?_
  have hzero := h.2 hnegative
  rw [isInf_iff.mp hinf] at hzero
  cases hzero

lemma nonneg_ofRat (h : negative → q = 0) : (ofRat negative q).Nonneg := by
  refine ⟨isNan_ofRat, fun hnegative => ?_⟩
  rw [negative_ofRat] at hnegative
  rw [number_ofRat, h hnegative, Rounding.encode_zero, Nat.zero_min]

lemma lt_iff_number (hx : x.Nonneg) (hy : y.Nonneg) : x.lt y ↔ x.number < y.number := by
  have hnan : (x.isNan || y.isNan) = false := by rw [hx.1, hy.1, Bool.or_self]
  have hxle : x.number ≤ infBits := not_lt.mp (mt isNan_iff.mpr (Bool.eq_false_iff.mp hx.1))
  have hyle : y.number ≤ infBits := not_lt.mp (mt isNan_iff.mpr (Bool.eq_false_iff.mp hy.1))
  unfold lt
  rw [hnan, if_neg Bool.false_ne_true]
  split
  · rename_i hinf
    rw [hx.negative_of_isInf hinf, isInf_iff.mp hinf]
    simpa using hyle
  · rename_i hfinite
    have hxlt : x.number < infBits := lt_of_le_of_ne hxle (mt isInf_iff.mpr hfinite)
    split
    · rename_i hinf
      rw [hy.negative_of_isInf hinf, isInf_iff.mp hinf]
      simpa using hxlt
    · rw [decide_eq_true_eq, hx.value, hy.value, ← not_le, magnitude_le_iff, not_le]

lemma le_iff_number (hx : x.Nonneg) (hy : y.Nonneg) : x.le y ↔ x.number ≤ y.number := by
  rw [le, hx.1, hy.1, ← not_lt, ← lt_iff_number hy hx]
  simp

lemma nonneg_zero : zero.Nonneg := nonneg_ofRat fun h => absurd h Bool.false_ne_true

lemma nonneg_one : one.Nonneg := nonneg_ofRat fun h => absurd h Bool.false_ne_true

@[simp] lemma number_zero : zero.number = 0 := by
  rw [zero, number_ofRat, Rounding.encode_zero, Nat.zero_min]

lemma value_zero : zero.value = 0 := by
  rw [nonneg_zero.value, magnitude_eq_zero_iff, number_zero]

lemma zero_le_iff : zero.le x ↔ x.Nonneg := by
  have hfinite : zero.isInf = false := by
    rw [Bool.eq_false_iff, ne_eq, isInf_iff, number_zero]
    exact ne_of_lt (by decide)
  constructor
  · intro h
    simp only [le, nonneg_zero.1, Bool.false_or, Bool.and_eq_true, Bool.not_eq_true'] at h
    obtain ⟨hnan, hle⟩ := h
    refine ⟨hnan, fun hnegative => ?_⟩
    by_contra hnumber
    have hless : x.lt zero := by
      unfold lt
      rw [hnan, nonneg_zero.1, hfinite, hnegative, Bool.or_self, if_neg Bool.false_ne_true]
      split
      · rfl
      · rw [if_neg Bool.false_ne_true, decide_eq_true_eq, value_zero, value, if_pos hnegative,
          neg_lt_zero]
        exact lt_of_le_of_ne x.magnitude_nonneg fun h => hnumber (magnitude_eq_zero_iff.mp h.symm)
    rw [hless] at hle
    cases hle
  · intro h
    rw [le_iff_number nonneg_zero h, number_zero]
    exact Nat.zero_le _

/-! ## Operations -/

lemma isNan_nan : nan.isNan := by decide +kernel

lemma isInf_inf (negative : Bool) : (inf negative).isInf := by cases negative <;> decide +kernel

lemma negative_inf (negative : Bool) : (inf negative).negative = negative := by
  cases negative <;> decide +kernel

lemma isNan_of_isInf (h : x.isInf) : x.isNan = false := by
  rw [Bool.eq_false_iff, ne_eq, isNan_iff, isInf_iff.mp h]
  exact lt_irrefl _

lemma isZero_of_isInf (h : x.isInf) : x.isZero = false := by
  rw [Bool.eq_false_iff, ne_eq, isZero_iff, isInf_iff.mp h]
  exact ne_of_gt (by decide)

lemma nonneg_of_isInf (hinf : x.isInf) (hpositive : x.negative = false) : x.Nonneg :=
  ⟨isNan_of_isInf hinf, fun hnegative => by rw [hpositive] at hnegative; cases hnegative⟩

lemma add_nan (hnan : y.isNan) : (x.add y).isNan := by
  rw [add, hnan, Bool.or_true, if_pos rfl]
  exact isNan_nan

/-- An infinity absorbs the floats that are added to it. -/
lemma add_of_isInf_right (hx : x.Finite) (hy : y.isInf) : x.add y = y := by
  rw [add, hx.isNan, isNan_of_isInf hy, hx.isInf, hy]
  rfl

lemma mul_of_isInf (hx : x.isInf) (hy : y.Finite) :
    x.mul y = if y.isZero then nan else .inf (x.negative != y.negative) := by
  rw [mul, isNan_of_isInf hx, hy.isNan, hx, isZero_of_isInf hx, Bool.false_or]
  rfl

lemma bits_neg (x : PyFloat) : x.neg.bits.toNat = (x.bits.toNat + 2 ^ 63) % 2 ^ 64 := by
  rw [neg, BitVec.toNat_add, BitVec.toNat_ofNat, Nat.mod_eq_of_lt (a := 2 ^ 63) (by decide)]

@[simp] lemma number_neg : x.neg.number = x.number := by
  rw [number, number, bits_neg]
  omega

@[simp] lemma negative_neg : x.neg.negative = !x.negative := by
  have hlt : x.bits.toNat < 2 ^ 64 := x.bits.isLt
  rw [Bool.eq_iff_iff, Bool.not_eq_true', Bool.eq_false_iff, ne_eq, negative_iff, negative_iff,
    bits_neg]
  omega

lemma value_neg : x.neg.value = -x.value := by
  rw [value, value, negative_neg, magnitude_eq, magnitude_eq, number_neg]
  cases x.negative <;> simp

lemma abs_value (x : PyFloat) : |x.value| = x.magnitude := by
  rw [value]
  split
  · rw [abs_neg, abs_of_nonneg x.magnitude_nonneg]
  · exact abs_of_nonneg x.magnitude_nonneg

lemma Finite.neg (h : x.Finite) : x.neg.Finite := by
  rwa [Finite, number_neg]

lemma mul_of_finite (hx : x.Finite) (hy : y.Finite) :
    x.mul y = .ofRat (x.negative != y.negative) (x.magnitude * y.magnitude) := by
  rw [mul, hx.isNan, hy.isNan, hx.isInf, hy.isInf]
  rfl

lemma mul_comm_of_finite (hx : x.Finite) (hy : y.Finite) : x.mul y = y.mul x := by
  rw [mul_of_finite hx hy, mul_of_finite hy hx, bne_comm, mul_comm]

lemma add_of_finite (hx : x.Finite) (hy : y.Finite) : x.add y =
    .ofRat (if x.value + y.value = 0 then x.negative && y.negative else x.value + y.value < 0)
      |x.value + y.value| := by
  rw [add, hx.isNan, hy.isNan, hx.isInf, hy.isInf]
  rfl

/-- A sum that is not negative. -/
lemma nonneg_add (hx : x.Finite) (hy : y.Finite) (h : 0 ≤ x.value + y.value) :
    (x.add y).Nonneg ∧
      (x.add y).number = min (Rounding.encode 52 1074 (x.value + y.value)) infBits := by
  rw [add_of_finite hx hy, abs_of_nonneg h]
  refine ⟨nonneg_ofRat ?_, number_ofRat⟩
  split
  · rename_i hzero
    exact fun _ => hzero
  · exact fun hless => absurd (of_decide_eq_true hless) (not_lt.mpr h)

/-- A product of floats that are not negative. -/
lemma nonneg_mul (hx : x.Nonneg) (hy : y.Nonneg) (hx' : x.Finite) (hy' : y.Finite) :
    (x.mul y).Nonneg ∧
      (x.mul y).number = min (Rounding.encode 52 1074 (x.magnitude * y.magnitude)) infBits := by
  rw [mul_of_finite hx' hy']
  refine ⟨nonneg_ofRat fun hsigns => ?_, number_ofRat⟩
  by_cases hnegative : x.negative
  · rw [magnitude_eq_zero_iff.mpr (hx.2 hnegative), zero_mul]
  · have hy_negative : y.negative := by
      rw [Bool.not_eq_true] at hnegative
      simpa [hnegative] using hsigns
    rw [magnitude_eq_zero_iff.mpr (hy.2 hy_negative), mul_zero]

/-- The smaller of two floats that are not negative. -/
lemma nonneg_pyMin (hx : x.Nonneg) (hy : y.Nonneg) :
    (x.pyMin y).Nonneg ∧ (x.pyMin y).number = min x.number y.number := by
  unfold pyMin
  split
  · rename_i hlt
    have hlt' : y.number < x.number := (lt_iff_number hy hx).mp hlt
    exact ⟨hy, (min_eq_right hlt'.le).symm⟩
  · rename_i hlt
    have hle : x.number ≤ y.number := not_lt.mp (mt (lt_iff_number hy hx).mpr hlt)
    exact ⟨hx, (min_eq_left hle).symm⟩

/-- `max(0.0, x)` of a float that is not negative. -/
lemma nonneg_pyMax_zero (hx : x.Nonneg) :
    (zero.pyMax x).Nonneg ∧ (zero.pyMax x).number = x.number := by
  unfold pyMax
  split
  · exact ⟨hx, rfl⟩
  · rename_i hlt
    have hle : x.number ≤ 0 := by
      rw [← number_zero]
      exact not_lt.mp (mt (lt_iff_number nonneg_zero hx).mpr hlt)
    exact ⟨nonneg_zero, by rw [number_zero, Nat.le_zero.mp hle]⟩

/-- The error of a rounded result that is not an infinity. -/
lemma abs_magnitude_sub_le {q : ℚ} (hq : 0 ≤ q) (hx : x.Finite)
    (hnumber : x.number = min (Rounding.encode 52 1074 q) infBits) :
    |x.magnitude - q| ≤ q / 2 ^ 53 + 1 / 2 ^ 1075 := by
  have hencode : x.number = Rounding.encode 52 1074 q := by
    unfold Finite at hx
    omega
  rw [magnitude_eq, hencode]
  exact Rounding.abs_decode_encode_sub_le hq

lemma neg_neg (x : PyFloat) : x.neg.neg = x := by
  have hflip : BitVec.ofNat 64 (2 ^ 63) + BitVec.ofNat 64 (2 ^ 63) = 0#64 := by decide
  rw [neg, neg, BitVec.add_assoc, hflip, BitVec.add_zero]

/-- Twice a float, unless it overflows. -/
lemma magnitude_double (hx : x.Nonneg) (hx' : x.Finite) (hdouble : (x.add x).Finite) :
    (x.add x).magnitude = 2 * x.magnitude := by
  have hsum : x.value + x.value = 2 * x.magnitude := by
    rw [hx.value]
    ring
  have hnonneg : 0 ≤ x.value + x.value := by
    rw [hsum]
    exact mul_nonneg two_pos.le x.magnitude_nonneg
  have hnumber := (nonneg_add hx' hx' hnonneg).2
  rw [Finite, hnumber] at hdouble
  rw [magnitude_eq, hnumber, min_eq_left (by omega), hsum, magnitude_eq, Rounding.two_mul_decode,
    Rounding.encode_decode]

/-! ## Overflow -/

lemma decode_power (k : ℕ) : Rounding.decode 52 1074 ((k + 1023) * 2 ^ 52) = 2 ^ k := by
  have hmod : (k + 1023) * 2 ^ 52 % 2 ^ 52 = 0 := Nat.mul_mod_left ..
  have hdiv : (k + 1023) * 2 ^ 52 / 2 ^ 52 = k + 1023 := Nat.mul_div_cancel _ (by decide)
  have hscale : ((k + 1023 : ℕ) - 1 - (1074 : ℕ) : ℤ) = k - 52 := by omega
  rw [Rounding.decode_of_le (by omega), hmod, hdiv, hscale, zpow_sub₀ two_ne_zero, zpow_natCast]
  rw [add_zero, Nat.cast_pow, Nat.cast_ofNat]
  exact mul_div_cancel₀ _ (by norm_num)

lemma encode_power (k : ℕ) : Rounding.encode 52 1074 (2 ^ k) = (k + 1023) * 2 ^ 52 := by
  rw [← decode_power, Rounding.encode_decode]

/-- The exact results from here on are rounded to an infinity. -/
def overflowBound : ℚ := (2 ^ 53 - 1 / 2) * 2 ^ 971

lemma overflowBound_eq : overflowBound = 2 ^ 1024 - 2 ^ 970 := by
  have hhigh : (2 : ℚ) ^ 1024 = 2 ^ 970 * 2 ^ 54 := by rw [← pow_add]
  have hnext : (2 : ℚ) ^ 971 = 2 ^ 970 * 2 := pow_succ (2 : ℚ) 970
  rw [overflowBound, hhigh, hnext]
  generalize (2 : ℚ) ^ 970 = unit
  ring

lemma overflowBound_nonneg : 0 ≤ overflowBound :=
  mul_nonneg (by norm_num) (by positivity)

lemma encode_overflowBound : Rounding.encode 52 1074 overflowBound = infBits := by
  have hunit : (0 : ℚ) < 2 ^ 971 := by positivity
  have hpow : ∀ k : ℕ, (2 : ℚ) ^ ((k : ℤ) + (971 : ℕ)) = 2 ^ k * 2 ^ 971 := fun k => by
    rw [zpow_add₀ two_ne_zero, zpow_natCast, zpow_natCast]
  have hlower : (2 : ℚ) ^ (1023 : ℤ) ≤ overflowBound := by
    have h := hpow 52
    rw [overflowBound]
    refine (le_of_eq h).trans (mul_le_mul_of_nonneg_right ?_ hunit.le)
    norm_num
  have hupper : overflowBound < (2 : ℚ) ^ ((1023 : ℤ) + 1) := by
    have h := hpow 53
    rw [overflowBound]
    refine lt_of_lt_of_eq (mul_lt_mul_of_pos_right ?_ hunit) h.symm
    norm_num
  have hscale : Rounding.scale 52 1074 overflowBound = (971 : ℕ) := by
    rw [Rounding.scale, Rounding.exponent_eq hlower hupper]
    rfl
  have hpositive : overflowBound ≠ 0 := ((zpow_pos two_pos _).trans_le hlower).ne'
  have hnearest : Rounding.nearest (2 ^ 53 - 1 / 2) = 2 ^ 53 := by decide +kernel
  rw [Rounding.encode, if_neg hpositive, hscale, overflowBound, zpow_natCast,
    mul_div_cancel_right₀ _ hunit.ne', hnearest]
  rfl

lemma encode_lt_of_lt (hq : 0 ≤ q) (h : q < overflowBound) :
    Rounding.encode 52 1074 q < infBits := by
  have hunit : (0 : ℚ) < 2 ^ 971 := by positivity
  rcases lt_or_ge q (2 ^ 1023) with hsmall | hlarge
  · have hmono : Rounding.encode 52 1074 q ≤ Rounding.encode 52 1074 (2 ^ 1023) :=
      Rounding.encode_mono hq hsmall.le
    have hpower : Rounding.encode 52 1074 (2 ^ 1023) = (1023 + 1023) * 2 ^ 52 := encode_power 1023
    unfold infBits
    omega
  · have hlower : (2 : ℚ) ^ (1023 : ℤ) ≤ q := by exact_mod_cast hlarge
    have hupper : q < (2 : ℚ) ^ ((1023 : ℤ) + 1) := by
      refine h.trans_le ?_
      have hpow : (2 : ℚ) ^ ((1023 : ℤ) + 1) = 2 ^ 53 * 2 ^ 971 := by
        rw [← pow_add]
        rfl
      rw [hpow, overflowBound]
      refine mul_le_mul_of_nonneg_right ?_ hunit.le
      norm_num
    have hscale : Rounding.scale 52 1074 q = (971 : ℕ) := by
      rw [Rounding.scale, Rounding.exponent_eq hlower hupper]
      rfl
    have hscaled : q / 2 ^ 971 < 2 ^ 53 - 1 / 2 := (div_lt_iff₀ hunit).mpr h
    have hnearest := abs_le.mp (Rounding.abs_nearest_sub_le (div_nonneg hq hunit.le))
    have hless : Rounding.nearest (q / 2 ^ 971) < 2 ^ 53 := by
      generalize q / 2 ^ 971 = scaled at hscaled hnearest ⊢
      have hcast : (Rounding.nearest scaled : ℚ) < (2 ^ 53 : ℕ) := by
        push_cast
        linarith
      exact_mod_cast hcast
    have hpositive : q ≠ 0 := ((zpow_pos two_pos _).trans_le hlower).ne'
    rw [Rounding.encode, if_neg hpositive, hscale, zpow_natCast]
    unfold infBits
    omega

/-- **Overflow.**  Exactly the results from the bound on are infinities. -/
theorem infBits_le_encode_iff (hq : 0 ≤ q) :
    infBits ≤ Rounding.encode 52 1074 q ↔ overflowBound ≤ q := by
  constructor
  · exact fun h => not_lt.mp fun hless => not_le.mpr (encode_lt_of_lt hq hless) h
  · intro h
    rw [← encode_overflowBound]
    exact Rounding.encode_mono overflowBound_nonneg h

/-- `float(n)` succeeds exactly below the bound. -/
lemma ofInt_of_lt {n : ℤ} (h : (n.natAbs : ℚ) < overflowBound) :
    ofInt n = .ok (.ofRat (n < 0) n.natAbs) ∧ (PyFloat.ofRat (n < 0) n.natAbs).Finite := by
  have hfinite : (PyFloat.ofRat (n < 0) n.natAbs).Finite :=
    finite_ofRat_iff.mpr (encode_lt_of_lt (Nat.cast_nonneg _) h)
  refine ⟨?_, hfinite⟩
  rw [ofInt, hfinite.isInf, if_neg Bool.false_ne_true]

lemma ofInt_of_le {n : ℤ} (h : overflowBound ≤ n.natAbs) : ofInt n = .error .overflowError := by
  have hinf : (PyFloat.ofRat (n < 0) n.natAbs).isInf := by
    have hlarge := (infBits_le_encode_iff (Nat.cast_nonneg _)).mpr h
    rw [isInf_iff, number_ofRat, min_eq_right hlarge]
  rw [ofInt, if_pos hinf]

/-! ## Factors of at most one -/

lemma finite_one : one.Finite := by decide +kernel

lemma magnitude_one : one.magnitude = 1 := by
  have hdecode : Rounding.decode 52 1074 ((0 + 1023) * 2 ^ 52) = 1 := decode_power 0
  have hfinite : (PyFloat.ofRat false (Rounding.decode 52 1074 ((0 + 1023) * 2 ^ 52))).Finite := by
    rw [hdecode]
    exact finite_one
  have hmagnitude := magnitude_ofRat_decode hfinite
  rwa [hdecode] at hmagnitude

/-- A factor of at most one does not make a float larger. -/
lemma nonneg_mul_of_le_one (hx : x.Nonneg) (hx' : x.Finite) (hy : y.Nonneg)
    (hone : y.number ≤ one.number) : (x.mul y).Nonneg ∧ (x.mul y).number ≤ x.number := by
  have hy' : y.Finite := lt_of_le_of_lt hone finite_one
  obtain ⟨hnonneg, hnumber⟩ := nonneg_mul hx hy hx' hy'
  refine ⟨hnonneg, ?_⟩
  have hfactor : y.magnitude ≤ 1 := by
    rw [← magnitude_one]
    exact magnitude_le_iff.mpr hone
  have hproduct : x.magnitude * y.magnitude ≤ Rounding.decode 52 1074 x.number := by
    rw [← magnitude_eq]
    exact mul_le_of_le_one_right x.magnitude_nonneg hfactor
  rw [hnumber]
  exact (min_le_left ..).trans
    (Rounding.encode_le (mul_nonneg x.magnitude_nonneg y.magnitude_nonneg) hproduct)

/-- `int(x)` of a float that is neither negative nor an infinity. -/
lemma pyInt_of_nonneg (hx : x.Nonneg) (hx' : x.Finite) :
    (Json.float x).pyInt = .ok x.magnitude.floor := by
  have hsign : (if x.negative then -x.magnitude.floor else x.magnitude.floor) =
      x.magnitude.floor := by
    split
    · rename_i hnegative
      rw [magnitude_eq_zero_iff.mpr (hx.2 hnegative)]
      rfl
    · rfl
  rw [Json.pyInt, hx.1, hx'.isInf, hsign]
  rfl

end Number

end PyFloat

/-! ## Conversions that overflow -/

open PyFloat

lemma PyNumber.parseInt_ne_overflowError (s : String) :
    PyNumber.parseInt s ≠ .error .overflowError := by
  unfold PyNumber.parseInt
  dsimp only
  split
  · nofun
  · split <;> nofun
  · nofun

lemma PyNumber.parseFloat_ne_overflowError (s : String) :
    PyNumber.parseFloat s ≠ .error .overflowError := by
  unfold PyNumber.parseFloat
  dsimp only
  split
  · nofun
  · split
    · nofun
    · split <;> nofun

/-- `int(v)` overflows on the infinities. -/
lemma Json.pyInt_eq_overflowError {v : Json} :
    v.pyInt = .error .overflowError ↔ ∃ x : PyFloat, v = .float x ∧ x.isInf := by
  cases v with
  | float x =>
      simp only [Json.pyInt, Json.float.injEq, exists_eq_left']
      by_cases hinf : x.isInf
      · simp [isNan_of_isInf hinf, hinf]
      · by_cases hnan : x.isNan <;> simp [hnan, hinf]
  | str s => simp [Json.pyInt, PyNumber.parseInt_ne_overflowError]
  | null | bool b | int n | arr items | obj fields => simp [Json.pyInt]

lemma overflowBound_le_natAbs_iff (n : ℤ) :
    overflowBound ≤ n.natAbs ↔ 2 ^ 1024 - 2 ^ 970 ≤ |n| := by
  rw [overflowBound_eq, Int.abs_eq_natAbs]
  generalize n.natAbs = m
  constructor
  · intro h
    exact_mod_cast h
  · intro h
    exact_mod_cast h

/-- `float(v)` overflows on the integers that round to beyond the largest float. -/
lemma Json.pyFloat_eq_overflowError {v : Json} :
    v.pyFloat = .error .overflowError ↔ ∃ n : ℤ, v = .int n ∧ 2 ^ 1024 - 2 ^ 970 ≤ |n| := by
  simp only [← overflowBound_le_natAbs_iff]
  cases v with
  | int n =>
      simp only [Json.int.injEq, exists_eq_left']
      show ofInt n = .error .overflowError ↔ _
      constructor
      · intro h
        by_contra hless
        rw [(ofInt_of_lt (not_le.mp hless)).1] at h
        exact nomatch h
      · exact ofInt_of_le
  | str s => simp [Json.pyFloat, PyNumber.parseFloat_ne_overflowError]
  | null | bool b | float x | arr items | obj fields => simp [Json.pyFloat]

end JobOrchestrator
