import Mathlib.Algebra.Order.Floor.Ring
import Mathlib.Data.Rat.Floor
import Mathlib.Tactic.FieldSimp
import Mathlib.Tactic.Linarith
import Mathlib.Tactic.Positivity

/-!
# Rounding to a binary format

A binary format has significands of `p` bits beside a leading one that is not stored, and the
least scale `2 ^ (-depth)`.  Its nonnegative members are numbered upwards from zero, through the
subnormal ones: `decode` gives the member of a number, and `encode` the number of the member
nearest to a rational, the even one of two.

The main results are `encode_decode` and `encode_mono`; between them they order every rounded
result by the exact ones.
-/

namespace Rounding

/-! ## To an integer -/

/-- The nearest integer to a nonnegative rational, the even one of two. -/
def nearest (q : ℚ) : ℕ :=
  let below := q.floor.toNat
  let rest := q - below
  if rest < 1 / 2 ∨ rest = 1 / 2 ∧ below % 2 = 0 then below else below + 1

section Nearest

variable {q q' : ℚ}

lemma floor_toNat_spec (hq : 0 ≤ q) : (q.floor.toNat : ℚ) ≤ q ∧ q < q.floor.toNat + 1 := by
  have hfloor : (0 : ℤ) ≤ q.floor := Int.floor_nonneg.mpr hq
  have hcast : ((q.floor.toNat : ℕ) : ℚ) = (q.floor : ℤ) := by
    exact_mod_cast congrArg (Int.cast : ℤ → ℚ) (Int.toNat_of_nonneg hfloor)
  rw [hcast]
  exact ⟨Int.floor_le q, Int.lt_floor_add_one q⟩

lemma nearest_eq_or (q : ℚ) :
    nearest q = q.floor.toNat ∨ nearest q = q.floor.toNat + 1 := by
  unfold nearest
  dsimp only
  split
  · exact Or.inl rfl
  · exact Or.inr rfl

lemma nearest_mono (hq : 0 ≤ q) (h : q ≤ q') : nearest q ≤ nearest q' := by
  obtain ⟨hle, hlt⟩ := floor_toNat_spec hq
  obtain ⟨hle', hlt'⟩ := floor_toNat_spec (hq.trans h)
  have hfloor : q.floor.toNat ≤ q'.floor.toNat := by
    have hcast : (q.floor.toNat : ℚ) < q'.floor.toNat + 1 := by linarith
    exact Nat.lt_succ_iff.mp (by exact_mod_cast hcast)
  rcases hfloor.lt_or_eq with hless | hsame
  · rcases nearest_eq_or q with h₁ | h₁ <;> rcases nearest_eq_or q' with h₂ | h₂ <;> omega
  · -- the same integer below: the greater rest is rounded up when the smaller one is
    unfold nearest
    dsimp only
    rw [← hsame]
    split
    · split <;> omega
    · rename_i hup
      rw [if_neg]
      rw [not_or, not_and, not_lt] at hup ⊢
      refine ⟨by linarith, fun hhalf => hup.2 ?_⟩
      linarith

lemma nearest_natCast (n : ℕ) : nearest n = n := by
  have hfloor : ((n : ℚ).floor).toNat = n := by
    have h : ⌊(n : ℚ)⌋ = (n : ℤ) := Int.floor_natCast n
    exact (congrArg Int.toNat h).trans (Int.toNat_natCast n)
  unfold nearest
  dsimp only
  rw [hfloor, sub_self, if_pos (Or.inl (by norm_num))]

lemma abs_nearest_sub_le (hq : 0 ≤ q) : |(nearest q : ℚ) - q| ≤ 1 / 2 := by
  obtain ⟨hle, hlt⟩ := floor_toNat_spec hq
  unfold nearest
  dsimp only
  rw [abs_le]
  split
  · rename_i hdown
    have hrest : q - q.floor.toNat ≤ 1 / 2 := by
      rcases hdown with h | h
      · exact h.le
      · exact h.1.le
    constructor <;> linarith
  · rename_i hup
    have hrest : 1 / 2 ≤ q - q.floor.toNat := not_lt.mp fun h => hup (Or.inl h)
    push_cast
    constructor <;> linarith

end Nearest

/-! ## The exponent of a rational -/

/-- The exponent of the greatest power of two that a positive rational reaches. -/
def exponent (q : ℚ) : ℤ :=
  let guess : ℤ := (Nat.log2 q.num.toNat : ℤ) - Nat.log2 q.den
  if q < (2 : ℚ) ^ guess then guess - 1 else guess

section Exponent

variable {q q' : ℚ}

lemma exponent_spec (hq : 0 < q) : (2 : ℚ) ^ exponent q ≤ q ∧ q < (2 : ℚ) ^ (exponent q + 1) := by
  have hnum : 0 < q.num := Rat.num_pos.mpr hq
  have hden : (0 : ℚ) < q.den := by exact_mod_cast q.den_pos
  have hcast : ((q.num.toNat : ℕ) : ℚ) = (q.num : ℤ) := by
    exact_mod_cast congrArg (Int.cast : ℤ → ℚ) (Int.toNat_of_nonneg hnum.le)
  have hq' : q * q.den = q.num.toNat := by
    rw [hcast]
    exact Rat.mul_den_eq_num q
  have hbounds : ∀ n : ℕ, n ≠ 0 → ((2 : ℚ) ^ (Nat.log2 n : ℤ) ≤ n ∧
      (n : ℚ) < (2 : ℚ) ^ ((Nat.log2 n : ℤ) + 1)) := by
    intro n hn
    have hle : 2 ^ Nat.log2 n ≤ n := Nat.log2_self_le hn
    have hlt : n < 2 ^ (Nat.log2 n + 1) := Nat.lt_log2_self
    refine ⟨by exact_mod_cast hle, ?_⟩
    exact_mod_cast hlt
  obtain ⟨hnum_le, hnum_lt⟩ := hbounds q.num.toNat (by omega)
  obtain ⟨hden_le, hden_lt⟩ := hbounds q.den q.den_nz
  have htwo : (2 : ℚ) ≠ 0 := two_ne_zero
  generalize hA : (Nat.log2 q.num.toNat : ℤ) = a at hnum_le hnum_lt
  generalize hD : (Nat.log2 q.den : ℤ) = d at hden_le hden_lt
  have hlow : (2 : ℚ) ^ (a - d - 1) < q := by
    rw [← mul_lt_mul_iff_left₀ hden, hq']
    calc (2 : ℚ) ^ (a - d - 1) * q.den < (2 : ℚ) ^ (a - d - 1) * (2 : ℚ) ^ (d + 1) :=
          mul_lt_mul_of_pos_left hden_lt (zpow_pos two_pos _)
      _ = (2 : ℚ) ^ a := by rw [← zpow_add₀ htwo]; congr 1; omega
      _ ≤ q.num.toNat := hnum_le
  have hhigh : q < (2 : ℚ) ^ (a - d + 1) := by
    rw [← mul_lt_mul_iff_left₀ hden, hq']
    calc (q.num.toNat : ℚ) < (2 : ℚ) ^ (a + 1) := hnum_lt
      _ = (2 : ℚ) ^ (a - d + 1) * (2 : ℚ) ^ d := by rw [← zpow_add₀ htwo]; congr 1; omega
      _ ≤ (2 : ℚ) ^ (a - d + 1) * q.den :=
          mul_le_mul_of_nonneg_left hden_le (zpow_pos two_pos _).le
  unfold exponent
  dsimp only
  rw [hA, hD]
  split
  · rename_i hless
    exact ⟨hlow.le, by rwa [sub_add_cancel]⟩
  · rename_i hless
    exact ⟨not_lt.mp hless, hhigh⟩

lemma exponent_lt_iff {e : ℤ} (hq : 0 < q) : exponent q < e ↔ q < (2 : ℚ) ^ e := by
  obtain ⟨hle, hlt⟩ := exponent_spec hq
  constructor
  · intro h
    exact hlt.trans_le (zpow_le_zpow_right₀ one_le_two h)
  · intro h
    exact (zpow_lt_zpow_iff_right₀ one_lt_two).mp (hle.trans_lt h)

lemma exponent_eq {e : ℤ} (hle : (2 : ℚ) ^ e ≤ q) (hlt : q < (2 : ℚ) ^ (e + 1)) :
    exponent q = e := by
  have hq : 0 < q := (zpow_pos two_pos e).trans_le hle
  have hupper : exponent q < e + 1 := (exponent_lt_iff hq).mpr hlt
  have hlower : ¬ exponent q < e := mt (exponent_lt_iff hq).mp (not_lt.mpr hle)
  omega

lemma exponent_mono (hq : 0 < q) (h : q ≤ q') : exponent q ≤ exponent q' := by
  refine not_lt.mp fun hless => ?_
  have hreached : (2 : ℚ) ^ exponent q ≤ q := (exponent_spec hq).1
  exact absurd ((exponent_lt_iff (hq.trans_le h)).mp hless) (not_lt.mpr (hreached.trans h))

end Exponent

/-! ## The members of a format -/

section Format

variable (p depth : ℕ)

/-- The scale at which a rational is rounded. -/
def scale (q : ℚ) : ℤ := max (exponent q - p) (-depth)

/-- The number of the member nearest to a nonnegative rational. -/
def encode (q : ℚ) : ℕ :=
  if q = 0 then 0
  else (scale p depth q + depth).toNat * 2 ^ p + nearest (q / (2 : ℚ) ^ scale p depth q)

/-- The integer significand of a member. -/
def significand (n : ℕ) : ℕ := if n / 2 ^ p = 0 then n % 2 ^ p else 2 ^ p + n % 2 ^ p

/-- The member with a number. -/
def decode (n : ℕ) : ℚ :=
  significand p n * (2 : ℚ) ^ ((max (n / 2 ^ p) 1 : ℕ) - 1 - depth : ℤ)

variable {p depth} {q q' : ℚ} {m n : ℕ}

@[simp] lemma encode_zero : encode p depth 0 = 0 := if_pos rfl

lemma div_scale_nonneg (hq : 0 ≤ q) : 0 ≤ q / (2 : ℚ) ^ scale p depth q :=
  div_nonneg hq (zpow_pos two_pos _).le

/-- Scaled, a rational is less than a power of two. -/
lemma div_scale_lt (hq : 0 < q) : q / (2 : ℚ) ^ scale p depth q < 2 ^ (p + 1) := by
  have hscale : exponent q - p ≤ scale p depth q := le_max_left ..
  rw [div_lt_iff₀ (zpow_pos two_pos _)]
  calc q < (2 : ℚ) ^ (exponent q + 1) := (exponent_spec hq).2
    _ ≤ (2 : ℚ) ^ (((p + 1 : ℕ) : ℤ) + scale p depth q) :=
        zpow_le_zpow_right₀ one_le_two (by push_cast; omega)
    _ = 2 ^ (p + 1) * (2 : ℚ) ^ scale p depth q := by
        rw [zpow_add₀ two_ne_zero, zpow_natCast]

/-- Above the least scale, it also reaches the one before. -/
lemma le_div_scale (hq : 0 < q) (hscale : -(depth : ℤ) < scale p depth q) :
    2 ^ p ≤ q / (2 : ℚ) ^ scale p depth q := by
  have hexponent : scale p depth q = exponent q - p := by
    unfold scale at hscale ⊢
    omega
  rw [le_div_iff₀ (zpow_pos two_pos _)]
  calc 2 ^ p * (2 : ℚ) ^ scale p depth q = (2 : ℚ) ^ ((p : ℤ) + scale p depth q) := by
        rw [zpow_add₀ two_ne_zero, zpow_natCast]
    _ = (2 : ℚ) ^ exponent q := by rw [hexponent, add_sub_cancel]
    _ ≤ q := (exponent_spec hq).1

/-- **Rounding is monotone.** -/
theorem encode_mono (hq : 0 ≤ q) (h : q ≤ q') : encode p depth q ≤ encode p depth q' := by
  rcases hq.eq_or_lt with rfl | hpos
  · rw [encode_zero]
    exact Nat.zero_le _
  have hpos' : 0 < q' := hpos.trans_le h
  rw [encode, if_neg hpos.ne', encode, if_neg hpos'.ne']
  have hexponent : exponent q ≤ exponent q' := exponent_mono hpos h
  have hleast : -(depth : ℤ) ≤ scale p depth q := le_max_right ..
  have hscale : scale p depth q ≤ scale p depth q' := by
    unfold scale
    omega
  rcases hscale.eq_or_lt with hsame | hless
  · rw [← hsame]
    refine Nat.add_le_add_left (nearest_mono (div_scale_nonneg hpos.le) ?_) _
    exact (div_le_div_iff_of_pos_right (zpow_pos two_pos _)).mpr h
  · -- the smaller one is at most the first member of the next scale
    have hupper : nearest (q / (2 : ℚ) ^ scale p depth q) ≤ 2 ^ (p + 1) := by
      calc nearest (q / (2 : ℚ) ^ scale p depth q) ≤ nearest ((2 ^ (p + 1) : ℕ) : ℚ) :=
            nearest_mono (div_scale_nonneg hpos.le) (by exact_mod_cast (div_scale_lt hpos).le)
        _ = 2 ^ (p + 1) := nearest_natCast _
    have hlower : 2 ^ p ≤ nearest (q' / (2 : ℚ) ^ scale p depth q') := by
      calc 2 ^ p = nearest ((2 ^ p : ℕ) : ℚ) := (nearest_natCast _).symm
        _ ≤ nearest (q' / (2 : ℚ) ^ scale p depth q') := by
            refine nearest_mono (Nat.cast_nonneg _) ?_
            exact_mod_cast le_div_scale hpos' (hleast.trans_lt hless)
    have hnext : (scale p depth q + depth).toNat + 1 ≤ (scale p depth q' + depth).toNat := by
      omega
    calc (scale p depth q + depth).toNat * 2 ^ p + nearest (q / (2 : ℚ) ^ scale p depth q)
        ≤ (scale p depth q + depth).toNat * 2 ^ p + 2 ^ (p + 1) := Nat.add_le_add_left hupper _
      _ = ((scale p depth q + depth).toNat + 1) * 2 ^ p + 2 ^ p := by ring
      _ ≤ (scale p depth q' + depth).toNat * 2 ^ p + 2 ^ p :=
          Nat.add_le_add_right (Nat.mul_le_mul_right _ hnext) _
      _ ≤ (scale p depth q' + depth).toNat * 2 ^ p + nearest (q' / (2 : ℚ) ^ scale p depth q') :=
          Nat.add_le_add_left hlower _

lemma decode_nonneg (n : ℕ) : 0 ≤ decode p depth n :=
  mul_nonneg (Nat.cast_nonneg _) (zpow_pos two_pos _).le

/-- A subnormal member. -/
lemma decode_of_lt (h : n < 2 ^ p) : decode p depth n = n * (2 : ℚ) ^ (-depth : ℤ) := by
  rw [decode, significand, Nat.div_eq_of_lt h, if_pos rfl, Nat.mod_eq_of_lt h]
  simp

/-- A normal member. -/
lemma decode_of_le (h : 2 ^ p ≤ n) :
    decode p depth n = (2 ^ p + n % 2 ^ p : ℕ) * (2 : ℚ) ^ ((n / 2 ^ p : ℕ) - 1 - depth : ℤ) := by
  have hexponent : 1 ≤ n / 2 ^ p := (Nat.one_le_div_iff (by positivity)).mpr h
  rw [decode, significand, if_neg (by omega), max_eq_left hexponent]

/-- **A member is rounded to itself.** -/
theorem encode_decode (n : ℕ) : encode p depth (decode p depth n) = n := by
  have hpow : ∀ e : ℤ, (2 : ℚ) ^ e ≠ 0 := fun e => zpow_ne_zero e two_ne_zero
  rcases Nat.eq_zero_or_pos n with rfl | hpos
  · rw [decode_of_lt (by positivity), Nat.cast_zero, zero_mul, encode_zero]
  rcases lt_or_ge n (2 ^ p) with hsub | hnormal
  · rw [decode_of_lt hsub]
    have hq : 0 < (n : ℚ) * (2 : ℚ) ^ (-depth : ℤ) :=
      mul_pos (by exact_mod_cast hpos) (zpow_pos two_pos _)
    have hless : (n : ℚ) * (2 : ℚ) ^ (-depth : ℤ) < (2 : ℚ) ^ ((p : ℤ) + -depth) := by
      rw [zpow_add₀ two_ne_zero, zpow_natCast]
      exact mul_lt_mul_of_pos_right (by exact_mod_cast hsub) (zpow_pos two_pos _)
    have hexponent : exponent ((n : ℚ) * (2 : ℚ) ^ (-depth : ℤ)) < p + -depth :=
      (exponent_lt_iff hq).mpr hless
    have hscale : scale p depth ((n : ℚ) * (2 : ℚ) ^ (-depth : ℤ)) = -depth := by
      unfold scale
      omega
    rw [encode, if_neg hq.ne', hscale, mul_div_cancel_right₀ _ (hpow _), nearest_natCast]
    simp
  · rw [decode_of_le hnormal]
    have hexponent : 1 ≤ n / 2 ^ p := (Nat.one_le_div_iff (by positivity)).mpr hnormal
    have hfraction : n % 2 ^ p < 2 ^ p := Nat.mod_lt n (by positivity)
    generalize hq : ((2 ^ p + n % 2 ^ p : ℕ) : ℚ) *
      (2 : ℚ) ^ ((n / 2 ^ p : ℕ) - 1 - depth : ℤ) = q
    have hlower : (2 : ℚ) ^ ((p : ℤ) + ((n / 2 ^ p : ℕ) - 1 - depth)) ≤ q := by
      rw [zpow_add₀ two_ne_zero, zpow_natCast, ← hq]
      refine mul_le_mul_of_nonneg_right ?_ (zpow_pos two_pos _).le
      exact_mod_cast Nat.le_add_right ..
    have hupper : q < (2 : ℚ) ^ ((p : ℤ) + ((n / 2 ^ p : ℕ) - 1 - depth) + 1) := by
      have hsum : (p : ℤ) + ((n / 2 ^ p : ℕ) - 1 - depth) + 1 =
          ((p + 1 : ℕ) : ℤ) + ((n / 2 ^ p : ℕ) - 1 - depth) := by
        push_cast
        ring
      rw [hsum, zpow_add₀ two_ne_zero, zpow_natCast, ← hq]
      refine mul_lt_mul_of_pos_right ?_ (zpow_pos two_pos _)
      have hlt : 2 ^ p + n % 2 ^ p < 2 ^ (p + 1) := by omega
      exact_mod_cast hlt
    have hscale : scale p depth q = (n / 2 ^ p : ℕ) - 1 - depth := by
      rw [scale, exponent_eq hlower hupper]
      omega
    have hpositive : 0 < q := (zpow_pos two_pos _).trans_le hlower
    rw [encode, if_neg hpositive.ne', hscale, ← hq, mul_div_cancel_right₀ _ (hpow _),
      nearest_natCast]
    have htoNat : ((n / 2 ^ p : ℕ) - 1 - depth + depth : ℤ).toNat = n / 2 ^ p - 1 := by omega
    rw [htoNat, ← add_assoc, ← Nat.succ_mul, Nat.succ_eq_add_one, Nat.sub_add_cancel hexponent,
      Nat.div_add_mod']

/-- The members are in the order of their numbers. -/
lemma decode_le_decode : decode p depth m ≤ decode p depth n ↔ m ≤ n := by
  have hle : ∀ {m n : ℕ}, decode p depth m ≤ decode p depth n → m ≤ n := fun {m n} h => by
    have hencode : encode p depth (decode p depth m) ≤ encode p depth (decode p depth n) :=
      encode_mono (decode_nonneg m) h
    rwa [encode_decode, encode_decode] at hencode
  refine ⟨hle, fun h => ?_⟩
  by_contra hless
  obtain rfl : m = n := le_antisymm h (hle (not_le.mp hless).le)
  exact hless le_rfl

/-- A bound that is a member bounds the rounded result. -/
lemma encode_le (hq : 0 ≤ q) (h : q ≤ decode p depth n) : encode p depth q ≤ n := by
  have hmono : encode p depth q ≤ encode p depth (decode p depth n) := encode_mono hq h
  rwa [encode_decode] at hmono

lemma le_encode (h : decode p depth n ≤ q) : n ≤ encode p depth q := by
  have hmono : encode p depth (decode p depth n) ≤ encode p depth q :=
    encode_mono (decode_nonneg n) h
  rwa [encode_decode] at hmono

/-- The member of a scale with a significand that is not rounded out of it. -/
lemma decode_add {s : ℕ} (hlower : s = 0 ∨ 2 ^ p ≤ m) (hupper : m ≤ 2 ^ (p + 1)) :
    decode p depth (s * 2 ^ p + m) = m * (2 : ℚ) ^ (s - depth : ℤ) := by
  have hp : 0 < 2 ^ p := by positivity
  rcases lt_or_ge m (2 ^ p) with hsub | hnormal
  · obtain rfl := hlower.resolve_right (not_le.mpr hsub)
    rw [zero_mul, zero_add, decode_of_lt hsub]
    simp
  obtain ⟨f, rfl⟩ := Nat.exists_eq_add_of_le hnormal
  have hnumber : s * 2 ^ p + (2 ^ p + f) = f + (s + 1) * 2 ^ p := by ring
  rw [hnumber, decode_of_le (le_add_left (Nat.le_mul_of_pos_left _ (Nat.succ_pos s))),
    Nat.add_mul_div_right _ _ hp, Nat.add_mul_mod_self_right]
  rcases lt_or_ge f (2 ^ p) with hless | hcarry
  · rw [Nat.div_eq_of_lt hless, Nat.mod_eq_of_lt hless, zero_add]
    push_cast
    ring_nf
  · -- the significand is rounded up to the next scale
    obtain rfl : f = 2 ^ p := by omega
    have hscale : ((1 + (s + 1) : ℕ) - 1 - depth : ℤ) = 1 + (s - depth) := by
      push_cast
      ring
    rw [Nat.div_self hp, Nat.mod_self, hscale, zpow_add₀ two_ne_zero, zpow_one]
    push_cast
    ring

/-- **The error of rounding**, relative for a normal result and absolute for a subnormal one. -/
theorem abs_decode_encode_sub_le (hq : 0 ≤ q) :
    |decode p depth (encode p depth q) - q| ≤ q / 2 ^ (p + 1) + 1 / 2 ^ (depth + 1) := by
  rcases hq.eq_or_lt with rfl | hpos
  · rw [encode_zero, decode_of_lt (by positivity), Nat.cast_zero, zero_mul, sub_zero, abs_zero,
      zero_div, zero_add]
    positivity
  have hpow : 0 < (2 : ℚ) ^ scale p depth q := zpow_pos two_pos _
  have hleast : -(depth : ℤ) ≤ scale p depth q := le_max_right ..
  have hupper : nearest (q / (2 : ℚ) ^ scale p depth q) ≤ 2 ^ (p + 1) := by
    calc nearest (q / (2 : ℚ) ^ scale p depth q) ≤ nearest ((2 ^ (p + 1) : ℕ) : ℚ) :=
          nearest_mono (div_scale_nonneg hpos.le) (by exact_mod_cast (div_scale_lt hpos).le)
      _ = 2 ^ (p + 1) := nearest_natCast _
  have hlower : (scale p depth q + depth).toNat = 0 ∨
      2 ^ p ≤ nearest (q / (2 : ℚ) ^ scale p depth q) := by
    rcases hleast.eq_or_lt with hsame | hless
    · left
      omega
    · right
      calc 2 ^ p = nearest ((2 ^ p : ℕ) : ℚ) := (nearest_natCast _).symm
        _ ≤ nearest (q / (2 : ℚ) ^ scale p depth q) := by
            refine nearest_mono (Nat.cast_nonneg _) ?_
            exact_mod_cast le_div_scale hpos hless
  have hscale : ((scale p depth q + depth).toNat - depth : ℤ) = scale p depth q := by omega
  have hmember : decode p depth (encode p depth q) =
      nearest (q / (2 : ℚ) ^ scale p depth q) * (2 : ℚ) ^ scale p depth q := by
    rw [encode, if_neg hpos.ne', decode_add hlower hupper, hscale]
  have herror : |decode p depth (encode p depth q) - q| ≤ (2 : ℚ) ^ scale p depth q / 2 := by
    have hq' : q = q / (2 : ℚ) ^ scale p depth q * (2 : ℚ) ^ scale p depth q :=
      (div_mul_cancel₀ q hpow.ne').symm
    have hscaled : 0 ≤ q / (2 : ℚ) ^ scale p depth q := div_scale_nonneg hpos.le
    have hhalf := abs_nearest_sub_le hscaled
    calc |decode p depth (encode p depth q) - q|
        = |nearest (q / (2 : ℚ) ^ scale p depth q) - q / (2 : ℚ) ^ scale p depth q| *
            (2 : ℚ) ^ scale p depth q := by
          rw [hmember, ← abs_of_pos hpow, ← abs_mul, sub_mul, abs_of_pos hpow, ← hq']
      _ ≤ 1 / 2 * (2 : ℚ) ^ scale p depth q := mul_le_mul_of_nonneg_right hhalf hpow.le
      _ = (2 : ℚ) ^ scale p depth q / 2 := by ring
  have hunit : (2 : ℚ) ^ scale p depth q ≤ q / 2 ^ p + 1 / 2 ^ depth := by
    rcases hleast.eq_or_lt with hsame | hless
    · rw [← hsame, zpow_neg, zpow_natCast, ← one_div]
      exact le_add_of_nonneg_left (div_nonneg hq (by positivity))
    · have hreached := le_div_scale hpos hless
      rw [le_div_iff₀ hpow, ← le_div_iff₀' (by positivity)] at hreached
      exact hreached.trans (le_add_of_nonneg_right (by positivity))
  calc |decode p depth (encode p depth q) - q| ≤ (2 : ℚ) ^ scale p depth q / 2 := herror
    _ ≤ (q / 2 ^ p + 1 / 2 ^ depth) / 2 := by linarith
    _ = q / 2 ^ (p + 1) + 1 / 2 ^ (depth + 1) := by
        rw [pow_succ, pow_succ]
        field_simp

/-- Twice a member is a member. -/
lemma two_mul_decode (n : ℕ) :
    2 * decode p depth n = decode p depth (if n < 2 ^ p then 2 * n else n + 2 ^ p) := by
  split
  · rename_i hsub
    rw [decode_of_lt hsub]
    rcases lt_or_ge (2 * n) (2 ^ p) with hsub' | hnormal
    · rw [decode_of_lt hsub']
      push_cast
      ring
    · have hdiv : 2 * n / 2 ^ p = 1 := by
        rw [Nat.div_eq_iff (by positivity)]
        omega
      have hmod : 2 * n % 2 ^ p = 2 * n - 2 ^ p := by
        rw [Nat.mod_eq_sub_mod hnormal, Nat.mod_eq_of_lt (by omega)]
      have hsum : 2 ^ p + (2 * n - 2 ^ p) = 2 * n := by omega
      rw [decode_of_le hnormal, hdiv, hmod, hsum]
      push_cast
      ring_nf
  · rename_i hnormal
    have hdiv : (n + 2 ^ p) / 2 ^ p = n / 2 ^ p + 1 := Nat.add_div_right n (by positivity)
    have hscale : ((n / 2 ^ p + 1 : ℕ) - 1 - depth : ℤ) = 1 + ((n / 2 ^ p : ℕ) - 1 - depth) := by
      push_cast
      ring
    rw [decode_of_le (not_lt.mp hnormal), decode_of_le (by omega), hdiv, Nat.add_mod_right, hscale,
      zpow_add₀ two_ne_zero, zpow_one]
    ring

/-- A power of two times a member is a member. -/
lemma exists_two_pow_mul_decode (n k : ℕ) :
    ∃ m, 2 ^ k * decode p depth n = decode p depth m := by
  induction k with
  | zero => exact ⟨n, by rw [pow_zero, one_mul]⟩
  | succ k ih =>
      obtain ⟨m, hm⟩ := ih
      exact ⟨_, by rw [pow_succ', mul_assoc, hm, two_mul_decode]⟩

lemma decode_min (m n : ℕ) :
    decode p depth (min m n) = min (decode p depth m) (decode p depth n) := by
  rcases le_total m n with h | h
  · rw [min_eq_left h, min_eq_left (decode_le_decode.mpr h)]
  · rw [min_eq_right h, min_eq_right (decode_le_decode.mpr h)]

end Format

end Rounding
