import JobOrchestrator.Domain.Json

/-!
# `int`, `float` and `json.dumps`

The conversions of Python that read a job payload: `int(v)` and `float(v)` on a JSON value, with
the literals they accept in strings, and the text that `json.dumps(v)` writes.  Decimal digits
and white space are those of Unicode 15.
-/

namespace JobOrchestrator

/-- The exceptions that `int` and `float` raise. -/
inductive ConversionError
  | valueError
  | typeError
  | overflowError
  deriving DecidableEq

/-! ## Rounding to a double -/

namespace PyFloat

/-- The nearest integer to a nonnegative rational, the even one of two. -/
def roundHalfEven (q : ℚ) : ℕ :=
  let below := q.floor.toNat
  let rest := q - below
  if rest < 1 / 2 ∨ rest = 1 / 2 ∧ below % 2 = 0 then below else below + 1

/-- The least power of two that a positive rational reaches, as its exponent. -/
def binaryExponent (q : ℚ) : ℤ :=
  let guess : ℤ := (Nat.log2 q.num.toNat : ℤ) - Nat.log2 q.den
  if q < (2 : ℚ) ^ guess then guess - 1 else guess

/-- The bits of an infinity without its sign. -/
def infBits : ℕ := 2047 * 2 ^ 52

/-- The double nearest to a nonnegative rational, with the given sign; beyond the largest double
it is an infinity. -/
def ofRat (negative : Bool) (q : ℚ) : PyFloat :=
  let scale : ℤ := max (binaryExponent q - 52) (-1074)
  let bits := if q = 0 then 0
    else (scale + 1074).toNat * 2 ^ 52 + roundHalfEven (q / (2 : ℚ) ^ scale)
  ⟨BitVec.ofNat 64 (min bits infBits + if negative then 2 ^ 63 else 0)⟩

def nan : PyFloat := ⟨BitVec.ofNat 64 (infBits + 2 ^ 51)⟩

def inf (negative : Bool) : PyFloat := ⟨BitVec.ofNat 64 (infBits + if negative then 2 ^ 63 else 0)⟩

/-- The value of a finite double. -/
def value (x : PyFloat) : ℚ := if x.negative then -x.magnitude else x.magnitude

/-- `x < y` -/
def lt (x y : PyFloat) : Bool :=
  if x.isNan || y.isNan then false
  else if x.isInf then x.negative && !(y.isInf && y.negative)
  else if y.isInf then !y.negative
  else x.value < y.value

end PyFloat

/-! ## Literals -/

namespace PyNumber

/-- The first digit of each run of ten decimal digits. -/
def digitZeros : List ℕ :=
  [0x0030, 0x0660, 0x06F0, 0x07C0, 0x0966, 0x09E6, 0x0A66, 0x0AE6, 0x0B66, 0x0BE6, 0x0C66, 0x0CE6,
    0x0D66, 0x0DE6, 0x0E50, 0x0ED0, 0x0F20, 0x1040, 0x1090, 0x17E0, 0x1810, 0x1946, 0x19D0, 0x1A80,
    0x1A90, 0x1B50, 0x1BB0, 0x1C40, 0x1C50, 0xA620, 0xA8D0, 0xA900, 0xA9D0, 0xA9F0, 0xAA50, 0xABF0,
    0xFF10, 0x104A0, 0x10D30, 0x11066, 0x110F0, 0x11136, 0x111D0, 0x112F0, 0x11450, 0x114D0,
    0x11650, 0x116C0, 0x11730, 0x118E0, 0x11950, 0x11C50, 0x11D50, 0x11DA0, 0x11F50, 0x16A60,
    0x16AC0, 0x16B50, 0x1D7CE, 0x1D7D8, 0x1D7E2, 0x1D7EC, 0x1D7F6, 0x1E140, 0x1E2F0, 0x1E4F0,
    0x1E950, 0x1FBF0]

/-- The value of a decimal digit. -/
def digit? (c : Char) : Option ℕ :=
  (digitZeros.find? fun first => first ≤ c.toNat && c.toNat < first + 10).map fun first =>
    c.toNat - first

/-- The white space around a literal. -/
def isSpace (c : Char) : Bool :=
  let n := c.toNat
  9 ≤ n && n ≤ 13 || n = 0x20 || n = 0x85 || n = 0xA0 || n = 0x1680 ||
    0x2000 ≤ n && n ≤ 0x200A || n = 0x2028 || n = 0x2029 || n = 0x202F || n = 0x205F || n = 0x3000

def strip (cs : List Char) : List Char :=
  (((cs.dropWhile isSpace).reverse).dropWhile isSpace).reverse

/-- An optional sign: whether it is a minus, and the rest. -/
def sign : List Char → Bool × List Char
  | '-' :: cs => (true, cs)
  | '+' :: cs => (false, cs)
  | cs => (false, cs)

/-- The digits after a digit, each of them possibly after an underscore. -/
def moreDigits : List Char → List ℕ × List Char
  | '_' :: c :: cs =>
      match digit? c with
      | some d => (d :: (moreDigits cs).1, (moreDigits cs).2)
      | none => ([], '_' :: c :: cs)
  | c :: cs =>
      match digit? c with
      | some d => (d :: (moreDigits cs).1, (moreDigits cs).2)
      | none => ([], c :: cs)
  | [] => ([], [])

/-- Digits, with single underscores between them: their values, and the rest. -/
def digits : List Char → List ℕ × List Char
  | c :: cs =>
      match digit? c with
      | some d => (d :: (moreDigits cs).1, (moreDigits cs).2)
      | none => ([], c :: cs)
  | [] => ([], [])

def ofDigits (ds : List ℕ) : ℕ := ds.foldl (fun n d => 10 * n + d) 0

/-- The number of digits that `int` accepts in a string. -/
def maxStrDigits : ℕ := 4300

/-- `int(s)` -/
def parseInt (s : String) : Except ConversionError ℤ :=
  let (negative, cs) := sign (strip s.toList)
  match digits cs with
  | ([], _) => .error .valueError
  | (ds, []) =>
      if maxStrDigits < ds.length then .error .valueError
      else .ok (if negative then -(ofDigits ds : ℤ) else ofDigits ds)
  | _ => .error .valueError

/-- The exponent of a float literal, if what is left is one. -/
def exponent : List Char → Option ℤ
  | [] => some 0
  | c :: cs =>
      if c = 'e' || c = 'E' then
        let (negative, cs) := sign cs
        match digits cs with
        | ([], _) => none
        | (ds, []) => some (if negative then -(ofDigits ds : ℤ) else ofDigits ds)
        | _ => none
      else none

/-- An unsigned decimal literal: its digits, how many of them are decimal places, and its
exponent. -/
def decimal (cs : List Char) : Option (List ℕ × ℕ × ℤ) :=
  match digits cs with
  | (whole, '.' :: rest) =>
      let (places, rest) := digits rest
      if (whole ++ places).isEmpty then none
      else (exponent rest).map fun e => (whole ++ places, places.length, e)
  | ([], _) => none
  | (whole, rest) => (exponent rest).map fun e => (whole, 0, e)

/-- `float(s)` -/
def parseFloat (s : String) : Except ConversionError PyFloat :=
  let (negative, cs) := sign (strip s.toList)
  let lower := String.ofList (cs.map Char.toLower)
  if lower = "inf" || lower = "infinity" then .ok (.inf negative)
  else if lower = "nan" then .ok .nan
  else
    match decimal cs with
    | none => .error .valueError
    | some (ds, places, e) => .ok (.ofRat negative (ofDigits ds * (10 : ℚ) ^ (e - places)))

end PyNumber

namespace Json

/-- `int(v)` -/
def pyInt : Json → Except ConversionError ℤ
  | bool b => .ok (if b then 1 else 0)
  | int n => .ok n
  | float x =>
      if x.isNan then .error .valueError
      else if x.isInf then .error .overflowError
      else .ok (if x.negative then -x.magnitude.floor else x.magnitude.floor)
  | str s => PyNumber.parseInt s
  | null | arr _ | obj _ => .error .typeError

/-- `float(v)` -/
def pyFloat : Json → Except ConversionError PyFloat
  | bool b => .ok (.ofRat false (if b then 1 else 0))
  | int n =>
      let x := PyFloat.ofRat (n < 0) n.natAbs
      if x.isInf then .error .overflowError else .ok x
  | float x => .ok x
  | str s => PyNumber.parseFloat s
  | null | arr _ | obj _ => .error .typeError

/-! ## `json.dumps` -/

private def quotationMark : Char := Char.ofNat 34

/-- Characters after a backslash. -/
private def backslashed (cs : List Char) : List Char := Char.ofNat 92 :: cs

private def unicodeEscape (n : ℕ) : List Char :=
  let hex := Nat.toDigits 16 n
  backslashed ('u' :: List.replicate (4 - hex.length) '0' ++ hex)

/-- One character of a string that `json.dumps` writes; beyond `U+FFFF` it is a surrogate
pair. -/
def dumpChar (c : Char) : List Char :=
  if c = quotationMark ∨ c.toNat = 92 then backslashed [c]
  else if c = '\n' then backslashed ['n']
  else if c = '\r' then backslashed ['r']
  else if c = '\t' then backslashed ['t']
  else if c.toNat = 8 then backslashed ['b']
  else if c.toNat = 12 then backslashed ['f']
  else if 32 ≤ c.toNat ∧ c.toNat ≤ 126 then [c]
  else if c.toNat < 0x10000 then unicodeEscape c.toNat
  else unicodeEscape (0xD800 + (c.toNat - 0x10000) / 0x400) ++
    unicodeEscape (0xDC00 + (c.toNat - 0x10000) % 0x400)

def dumpString (s : String) : String :=
  String.ofList (quotationMark :: s.toList.flatMap dumpChar ++ [quotationMark])

/-- Only its quotation marks are added to a text that needs no escapes. -/
lemma size_dumpString {text : String} (h : ∀ c ∈ text.toList, dumpChar c = [c]) :
    (dumpString text).utf8ByteSize = text.utf8ByteSize + 2 := by
  have hsame : text.toList.flatMap dumpChar = text.toList := by
    rw [List.flatMap_congr h]
    simp
  have hquoted : dumpString text = "\"" ++ text ++ "\"" := by
    apply String.toList_injective
    simp [dumpString, hsame]
    rfl
  have hmark : ("\"" : String).utf8ByteSize = 1 := by decide +kernel
  rw [hquoted, String.utf8ByteSize_append, String.utf8ByteSize_append, hmark]
  omega

def dumpFloat (x : PyFloat) : String :=
  if x.isNan then "NaN"
  else if x.isInf then (if x.negative then "-Infinity" else "Infinity")
  else x.pyRepr

mutual

/-- `json.dumps(v)` -/
def dumps : Json → String
  | null => "null"
  | bool b => if b then "true" else "false"
  | int n => toString n
  | float x => dumpFloat x
  | str s => dumpString s
  | arr items => "[" ++ String.intercalate ", " (dumpItems items) ++ "]"
  | obj fields => "\x7b" ++ String.intercalate ", " (dumpFields fields) ++ "\x7d"

/-- The items of a list. -/
def dumpItems : List Json → List String
  | [] => []
  | v :: vs => v.dumps :: dumpItems vs

/-- The entries of a dictionary. -/
def dumpFields : List (String × Json) → List String
  | [] => []
  | (k, v) :: kvs => (dumpString k ++ ": " ++ v.dumps) :: dumpFields kvs

end

end Json

end JobOrchestrator
