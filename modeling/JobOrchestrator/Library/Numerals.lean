import Mathlib.Data.List.Basic
import Mathlib.Tactic.Ring

/-!
# Numerals of a fixed width

`zeroPad base w n` is `n` with exactly `w` digits, as `%0wd` and `%0wx` print it, and `readDigits`
reads a given number of digits back.  Bases up to 16 are supported.
-/

namespace Numerals

def digit (n : ℕ) : Char := "0123456789abcdef".toList.getD n '0'

/-- The value of a digit, in lower or upper case. -/
def value (base : ℕ) (c : Char) : Option ℕ :=
  (("0123456789abcdef".toList.idxOf? c).or ("0123456789ABCDEF".toList.idxOf? c)).filter (· < base)

def zeroPad (base : ℕ) : ℕ → ℕ → List Char
  | 0, _ => []
  | w + 1, n => digit (n / base ^ w % base) :: zeroPad base w n

/-- Exactly so many digits, on top of what has been read, and the rest. -/
def readDigits (base : ℕ) : ℕ → ℕ → List Char → Option (ℕ × List Char)
  | 0, read, cs => some (read, cs)
  | _ + 1, _, [] => none
  | w + 1, read, c :: cs =>
      (value base c).bind fun v => readDigits base w (read * base + v) cs

section Digits

variable {base n : ℕ}

lemma value_digit (hbase : base ≤ 16) (h : n < base) : value base (digit n) = some n := by
  have hall : ∀ i : Fin 16, ("0123456789abcdef".toList.idxOf? (digit i)).or
      ("0123456789ABCDEF".toList.idxOf? (digit i)) = some i.val := by decide +kernel
  rw [value, hall ⟨n, by omega⟩]
  simp [h]

@[simp] lemma length_zeroPad (w : ℕ) : (zeroPad base w n).length = w := by
  induction w with
  | zero => rfl
  | succ w ih => rw [zeroPad, List.length_cons, ih]

lemma exists_of_mem_zeroPad (hbase : 0 < base) {w : ℕ} {c : Char} (h : c ∈ zeroPad base w n) :
    ∃ i, i < base ∧ c = digit i := by
  induction w with
  | zero => cases h
  | succ w ih =>
      rcases List.mem_cons.mp h with rfl | htail
      · exact ⟨_, Nat.mod_lt _ hbase, rfl⟩
      · exact ih htail

lemma readDigits_mod (hbase : base ≤ 16) (hpos : 0 < base) (w read : ℕ) (cs : List Char) :
    readDigits base w read (zeroPad base w n ++ cs) =
      some (read * base ^ w + n % base ^ w, cs) := by
  induction w generalizing read with
  | zero => simp [readDigits, zeroPad, Nat.mod_one]
  | succ w ih =>
      have hsplit : (read * base + n / base ^ w % base) * base ^ w + n % base ^ w =
          read * base ^ (w + 1) + n % base ^ (w + 1) := by
        rw [Nat.mod_pow_succ]
        ring
      rw [zeroPad, List.cons_append, readDigits, value_digit hbase (Nat.mod_lt _ hpos),
        Option.bind_some, ih, hsplit]

/-- **A number that fits is read back.** -/
theorem readDigits_zeroPad (hbase : base ≤ 16) (hpos : 0 < base) {w : ℕ} (h : n < base ^ w)
    (cs : List Char) : readDigits base w 0 (zeroPad base w n ++ cs) = some (n, cs) := by
  rw [readDigits_mod hbase hpos, Nat.mod_eq_of_lt h, Nat.zero_mul, Nat.zero_add]

end Digits

end Numerals
