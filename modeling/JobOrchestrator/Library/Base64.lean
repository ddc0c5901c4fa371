import Mathlib.Data.List.Basic
import Mathlib.Tactic.Common

/-!
# URL-safe Base64

The encoding of bytes in the URL-safe alphabet, and a lenient decoder.  The decoder skips what is
no digit, stops at a complete padding and accepts the standard alphabet as well; it fails only when
the digits end in the middle of a group that no padding completes.

The main result is `decode_encode`.
-/

namespace Base64

/-- The digits of the URL-safe alphabet. -/
def alphabet : List Char :=
  "ABCDEFGHIJKLMNOPQRSTUVWXYZabcdefghijklmnopqrstuvwxyz0123456789-_".toList

def digit (n : ℕ) : Char := alphabet.getD n 'A'

/-- The value of a digit, in either alphabet. -/
def value (c : Char) : Option ℕ :=
  if c = '+' then some 62
  else if c = '/' then some 63
  else alphabet.idxOf? c

/-- Three bytes become four digits. -/
def encode : List UInt8 → List Char
  | [] => []
  | [a] => [digit (a.toNat / 4), digit (a.toNat % 4 * 16), '=', '=']
  | [a, b] =>
      [digit (a.toNat / 4), digit (a.toNat % 4 * 16 + b.toNat / 16), digit (b.toNat % 16 * 4), '=']
  | a :: b :: c :: rest =>
      digit (a.toNat / 4) :: digit (a.toNat % 4 * 16 + b.toNat / 16) ::
        digit (b.toNat % 16 * 4 + c.toNat / 64) :: digit (c.toNat % 64) :: encode rest

/-- Where the decoder stands in a group of four digits, with the bits it has not used yet. -/
inductive Quad
  | zero
  | one (left : ℕ)
  | two (left : ℕ)
  | three (left : ℕ)

namespace Quad

/-- One more digit, and the byte it completes. -/
def push (v : ℕ) : Quad → Option UInt8 × Quad
  | zero => (none, one v)
  | one left => (some (UInt8.ofNat (left * 4 + v / 16)), two (v % 16))
  | two left => (some (UInt8.ofNat (left * 16 + v / 4)), three (v % 4))
  | three left => (some (UInt8.ofNat (left * 64 + v)), zero)

/-- The group is complete after that many padding characters in a row. -/
def padding : Quad → Option ℕ
  | zero | one _ => none
  | two _ => some 2
  | three _ => some 1

end Quad

/-- The decoder; `pads` counts the padding characters in a row. -/
def decodeFrom (quad : Quad) (pads : ℕ) : List Char → Option (List UInt8)
  | [] =>
      match quad with
      | .zero => some []
      | _ => none
  | c :: cs =>
      if c = '=' then
        match quad.padding with
        | none => decodeFrom quad pads cs
        | some n => if n ≤ pads + 1 then some [] else decodeFrom quad (pads + 1) cs
      else
        match value c with
        | none => decodeFrom quad pads cs
        | some v => (decodeFrom (quad.push v).2 0 cs).map ((quad.push v).1.toList ++ ·)

def decode (cs : List Char) : Option (List UInt8) := decodeFrom .zero 0 cs

/-! ## Decoding what was encoded -/

lemma value_digit {n : ℕ} (h : n < 64) : value (digit n) = some n ∧ digit n ≠ '=' := by
  have hall : ∀ i : Fin 64, value (digit i) = some i.val ∧ digit i ≠ '=' := by decide +kernel
  exact hall ⟨n, h⟩

/-- The decoder takes a digit in. -/
lemma decodeFrom_digit {quad : Quad} {pads n : ℕ} {cs : List Char} (h : n < 64) :
    decodeFrom quad pads (digit n :: cs) =
      (decodeFrom (quad.push n).2 0 cs).map ((quad.push n).1.toList ++ ·) := by
  obtain ⟨hvalue, hpad⟩ := value_digit h
  rw [decodeFrom, if_neg hpad, hvalue]

section Group

variable {a b c : UInt8} {cs : List Char}

/-- The first two digits of a group give its first byte. -/
lemma decodeFrom_first {n : ℕ} (h : n < 16) :
    decodeFrom .zero 0 (digit (a.toNat / 4) :: digit (a.toNat % 4 * 16 + n) :: cs) =
      (decodeFrom (.two n) 0 cs).map (a :: ·) := by
  have ha := a.toNat_lt
  have hbyte : a.toNat / 4 * 4 + (a.toNat % 4 * 16 + n) / 16 = a.toNat := by omega
  have hleft : (a.toNat % 4 * 16 + n) % 16 = n := by omega
  rw [decodeFrom_digit (by omega), decodeFrom_digit (by omega)]
  simp [Quad.push, hbyte, hleft, Function.comp_def]

/-- The third digit gives the second byte. -/
lemma decodeFrom_second {n : ℕ} (h : n < 4) :
    decodeFrom (.two (b.toNat / 16)) 0 (digit (b.toNat % 16 * 4 + n) :: cs) =
      (decodeFrom (.three n) 0 cs).map (b :: ·) := by
  have hb := b.toNat_lt
  have hbyte : b.toNat / 16 * 16 + (b.toNat % 16 * 4 + n) / 4 = b.toNat := by omega
  have hleft : (b.toNat % 16 * 4 + n) % 4 = n := by omega
  rw [decodeFrom_digit (by omega)]
  simp [Quad.push, hbyte, hleft]

/-- The fourth digit gives the third byte. -/
lemma decodeFrom_third :
    decodeFrom (.three (c.toNat / 64)) 0 (digit (c.toNat % 64) :: cs) =
      (decodeFrom .zero 0 cs).map (c :: ·) := by
  have hbyte : c.toNat / 64 * 64 + c.toNat % 64 = c.toNat := by omega
  rw [decodeFrom_digit (by omega)]
  simp [Quad.push, hbyte]

end Group

/-- **Decoding is a left inverse of encoding.** -/
theorem decode_encode (bs : List UInt8) : decode (encode bs) = some bs := by
  induction bs using encode.induct with
  | case1 => rfl
  | case2 a =>
      have hfirst := @decodeFrom_first a ['=', '='] 0 (by decide)
      exact hfirst.trans rfl
  | case3 a b =>
      have hb := b.toNat_lt
      have hsecond := @decodeFrom_second b ['='] 0 (by decide)
      rw [encode, decode, decodeFrom_first (by omega)]
      exact (congrArg (Option.map (a :: ·)) hsecond).trans rfl
  | case4 a b c rest ih =>
      have hb := b.toNat_lt
      have hc := c.toNat_lt
      rw [encode, decode, decodeFrom_first (by omega), decodeFrom_second (by omega),
        decodeFrom_third]
      rw [decode] at ih
      rw [ih]
      rfl

end Base64
