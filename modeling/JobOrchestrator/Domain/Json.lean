import Mathlib.Data.Rat.Floor

/-!
# JSON values as the services see them

Job payloads, job results and notification bodies are Python dictionaries read from and
written to `JSONB` columns.  `Json` is their value space: integers are unbounded, a float
is an IEEE double given by its 64 bits, and an object keeps its keys in insertion order.

Two of Python's operations on these values decide where a notification goes: the truth
value of `payload.get("notify_webhook")` (`Json.truthy`) and its string form `str(...)`
(`Json.pyStr`, which renders nested values with `repr`).
-/

namespace JobOrchestrator

/-- A Python `float`: the bits of an IEEE 754 double. -/
structure PyFloat where
  bits : BitVec 64
  deriving DecidableEq, Repr

namespace PyFloat

/-- The sign bit. -/
def negative (x : PyFloat) : Bool := x.bits.msb

/-- The biased exponent, below `2 ^ 11`. -/
def biasedExponent (x : PyFloat) : ℕ := x.bits.toNat / 2 ^ 52 % 2 ^ 11

/-- The stored fraction, below `2 ^ 52`. -/
def fraction (x : PyFloat) : ℕ := x.bits.toNat % 2 ^ 52

def isNan (x : PyFloat) : Bool := x.biasedExponent = 2047 && x.fraction ≠ 0

def isInf (x : PyFloat) : Bool := x.biasedExponent = 2047 && x.fraction = 0

def isZero (x : PyFloat) : Bool := x.biasedExponent = 0 && x.fraction = 0

/-- The integer significand of a finite double. -/
def significand (x : PyFloat) : ℕ :=
  if x.biasedExponent = 0 then x.fraction else 2 ^ 52 + x.fraction

/-- The power of two that scales the significand of a finite double. -/
def scale (x : PyFloat) : ℤ := max x.biasedExponent 1 - 1075

/-- The absolute value of a finite double. -/
def magnitude (x : PyFloat) : ℚ := x.significand * (2 : ℚ) ^ x.scale

/-- The decimals that read back as the double: the interval of half a unit in the last
place around its absolute value, closed when the significand is even. -/
def readsBack (x : PyFloat) (v : ℚ) : Bool :=
  let below : ℚ := if x.significand = 2 ^ 52 ∧ 1 < x.biasedExponent then 1 / 4 else 1 / 2
  let lo := (x.significand - below) * (2 : ℚ) ^ x.scale
  let hi := (x.significand + 1 / 2) * (2 : ℚ) ^ x.scale
  if x.significand % 2 = 0 then decide (lo ≤ v ∧ v ≤ hi) else decide (lo < v ∧ v < hi)

/-- The position of the decimal point: the least `k` with `magnitude < 10 ^ k`. -/
def decimalPoint (x : PyFloat) : ℤ :=
  ((List.range 700).find? fun i => decide (x.magnitude < (10 : ℚ) ^ ((i : ℤ) - 330))).elim 0
    fun i => (i : ℤ) - 330

/-- The shortest digit string that reads back as the double, with its decimal point. -/
def shortestDigits (x : PyFloat) : String × ℤ :=
  let k := x.decimalPoint
  let candidate (n : ℕ) : ℕ × ℚ :=
    let d := (x.magnitude * (10 : ℚ) ^ ((n : ℤ) - k) + 1 / 2).floor.toNat
    (d, d * (10 : ℚ) ^ (k - n))
  match (List.range 17).find? fun i => x.readsBack (candidate (i + 1)).2 with
  | none => ("0", 1)
  | some i =>
      let digits := toString (candidate (i + 1)).1
      (digits, k + (digits.length - (i + 1)))

private def zeros (n : ℤ) : String := String.ofList (List.replicate n.toNat '0')

/-- `repr` of a float: shortest digits, positional between `1e-4` and `1e16`, scientific
outside. -/
def pyRepr (x : PyFloat) : String :=
  let sign := if x.negative then "-" else ""
  if x.isNan then "nan"
  else if x.isInf then sign ++ "inf"
  else if x.isZero then sign ++ "0.0"
  else
    let (digits, point) := x.shortestDigits
    let n : ℤ := digits.length
    if -4 < point ∧ point ≤ 16 then
      if point ≤ 0 then sign ++ "0." ++ zeros (-point) ++ digits
      else if n ≤ point then sign ++ digits ++ zeros (point - n) ++ ".0"
      else sign ++ (digits.take point.toNat).toString ++ "." ++ (digits.drop point.toNat).toString
    else
      let e := point - 1
      let mantissa :=
        if n = 1 then digits
        else (digits.take 1).toString ++ "." ++ (digits.drop 1).toString
      let exponent := toString e.natAbs
      sign ++ mantissa ++ "e" ++ (if e < 0 then "-" else "+") ++
        (if exponent.length < 2 then "0" ++ exponent else exponent)

end PyFloat

/-- A JSON value, as Python's `json` module and a `JSONB` column hold it. -/
inductive Json
  | null
  | bool (b : Bool)
  | int (n : ℤ)
  | float (x : PyFloat)
  | str (s : String)
  | arr (items : List Json)
  | obj (fields : List (String × Json))

/-- A Python dictionary with string keys. -/
abbrev Dict := List (String × Json)

/-- `d.get(key)`. -/
def Dict.get (d : Dict) (key : String) : Option Json := (d.find? fun kv => kv.1 = key).map (·.2)

namespace Json

/-- Python's truth value: `bool(v)`. -/
def truthy : Json → Bool
  | null => false
  | bool b => b
  | int n => n ≠ 0
  | float x => !x.isZero
  | str s => s ≠ ""
  | arr items => !items.isEmpty
  | obj fields => !fields.isEmpty

private def hexDigits (width n : ℕ) : String :=
  let digits := Nat.toDigits 16 n
  String.ofList (List.replicate (width - digits.length) '0' ++ digits)

private def apostrophe : Char := Char.ofNat 39

private def doubleQuote : Char := Char.ofNat 34

private def backslash : Char := Char.ofNat 92

/-- One character of `repr` of a string, under the given quote. -/
def escapeChar (quote c : Char) : String :=
  if c = quote ∨ c = backslash then String.ofList [backslash, c]
  else if c = '\n' then String.ofList [backslash, 'n']
  else if c = '\r' then String.ofList [backslash, 'r']
  else if c = '\t' then String.ofList [backslash, 't']
  else if c.toNat < 32 ∨ 127 ≤ c.toNat ∧ c.toNat ≤ 160 ∨ c.toNat = 173 then
    String.ofList [backslash, 'x'] ++ hexDigits 2 c.toNat
  else c.toString

/-- `repr` of a string: single quotes, unless it holds some and no double ones.  Of the
characters above `U+00AD` all count as printable. -/
def reprString (s : String) : String :=
  let quote :=
    if s.toList.contains apostrophe && !s.toList.contains doubleQuote then doubleQuote
    else apostrophe
  quote.toString ++ String.join (s.toList.map (escapeChar quote)) ++ quote.toString

mutual

/-- `repr(v)`. -/
def pyRepr : Json → String
  | null => "None"
  | bool b => if b then "True" else "False"
  | int n => toString n
  | float x => x.pyRepr
  | str s => reprString s
  | arr items => "[" ++ String.intercalate ", " (reprItems items) ++ "]"
  | obj fields => "\x7b" ++ String.intercalate ", " (reprFields fields) ++ "\x7d"

/-- The items of a list, each by `repr`. -/
def reprItems : List Json → List String
  | [] => []
  | v :: vs => v.pyRepr :: reprItems vs

/-- The entries of a dictionary, keys and values by `repr`. -/
def reprFields : List (String × Json) → List String
  | [] => []
  | (k, v) :: kvs => (reprString k ++ ": " ++ v.pyRepr) :: reprFields kvs

end

/-- `str(v)`: a string is itself, everything else is rendered by `repr`. -/
def pyStr : Json → String
  | str s => s
  | v => v.pyRepr

end Json

end JobOrchestrator
