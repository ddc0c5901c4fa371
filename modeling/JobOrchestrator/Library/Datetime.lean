import JobOrchestrator.Library.Calendar
import JobOrchestrator.Library.Numerals

/-!
# Date-times and their ISO 8601 text

A date-time has a date, a time of the day in microseconds, and the offset of its time zone from UTC,
if it has one.  `isoformat` prints it and `fromisoformat` reads most of ISO 8601: dates with and
without dashes, week dates, any character between date and time, times with and without colons,
fractions of a second, and offsets with seconds and fractions of a second.

The main results are `fromisoformat_isoformat` and `instant_of_utc`.
-/

namespace Datetime

open Calendar Numerals

/-- A time of the day, or the size of an offset. -/
@[ext] structure Clock where
  hour : ℕ
  minute : ℕ
  second : ℕ
  microsecond : ℕ
  deriving DecidableEq

namespace Clock

structure Proper (c : Clock) : Prop where
  hour : c.hour < 24
  minute : c.minute < 60
  second : c.second < 60
  microsecond : c.microsecond < 1000000

instance (c : Clock) : Decidable c.Proper :=
  decidable_of_iff (c.hour < 24 ∧ c.minute < 60 ∧ c.second < 60 ∧ c.microsecond < 1000000)
    ⟨fun h => ⟨h.1, h.2.1, h.2.2.1, h.2.2.2⟩, fun h => ⟨h.1, h.2, h.3, h.4⟩⟩

def toMicroseconds (c : Clock) : ℕ :=
  ((c.hour * 60 + c.minute) * 60 + c.second) * 1000000 + c.microsecond

def ofMicroseconds (n : ℕ) : Clock where
  hour := n / 3600000000
  minute := n / 60000000 % 60
  second := n / 1000000 % 60
  microsecond := n % 1000000

lemma toMicroseconds_ofMicroseconds (n : ℕ) : (ofMicroseconds n).toMicroseconds = n := by
  simp only [toMicroseconds, ofMicroseconds]
  omega

lemma proper_ofMicroseconds {n : ℕ} (h : n < 86400000000) : (ofMicroseconds n).Proper := by
  constructor <;> simp only [ofMicroseconds] <;> omega

end Clock

/-- The offset of a time zone, less than a day. -/
structure Offset where
  microseconds : ℤ
  range : -86400000000 < microseconds ∧ microseconds < 86400000000
  deriving DecidableEq

def Offset.of (microseconds : ℤ) : Option Offset :=
  if h : -86400000000 < microseconds ∧ microseconds < 86400000000 then some ⟨microseconds, h⟩
  else none

def Offset.utc : Offset := ⟨0, by decide⟩

end Datetime

open Datetime in
/-- A date-time; without an offset it is naive. -/
structure Datetime where
  date : Calendar.Date
  clock : Clock
  proper : clock.Proper
  utcoffset : Option Offset
  deriving DecidableEq

namespace Datetime

open Calendar Numerals

/-! ## Printing -/

def isoDate (d : Date) : List Char :=
  zeroPad 10 4 d.year ++ '-' :: (zeroPad 10 2 d.month ++ '-' :: zeroPad 10 2 d.day)

def isoFraction (microsecond : ℕ) : List Char :=
  if microsecond = 0 then [] else '.' :: zeroPad 10 6 microsecond

def isoClock (c : Clock) : List Char :=
  zeroPad 10 2 c.hour ++ ':' :: (zeroPad 10 2 c.minute ++ ':' :: (zeroPad 10 2 c.second ++
    isoFraction c.microsecond))

/-- An offset has its seconds only when they are not zero. -/
def isoOffset (o : Offset) : List Char :=
  let c := Clock.ofMicroseconds o.microseconds.natAbs
  (if o.microseconds < 0 then '-' else '+') ::
    if c.second = 0 && c.microsecond = 0 then
      zeroPad 10 2 c.hour ++ ':' :: zeroPad 10 2 c.minute
    else isoClock c

def isoformat (t : Datetime) : List Char :=
  isoDate t.date ++ 'T' :: (isoClock t.clock ++ t.utcoffset.elim [] isoOffset)

/-- The characters that `isoformat` prints. -/
def isPrinted (c : Char) : Bool := c.isDigit || "-T:.+".toList.contains c

lemma isPrinted_of_mem_zeroPad {w n : ℕ} : ∀ c ∈ zeroPad 10 w n, isPrinted c := by
  intro c hc
  obtain ⟨i, hi, rfl⟩ := exists_of_mem_zeroPad (by decide) hc
  have hall : ∀ i : Fin 10, isPrinted (digit i) := by decide +kernel
  exact hall ⟨i, hi⟩

lemma isPrinted_of_mem_isoClock {k : Clock} : ∀ c ∈ isoClock k, isPrinted c := by
  have hfraction : ∀ c ∈ isoFraction k.microsecond, isPrinted c := by
    unfold isoFraction
    split
    · exact fun _ hc => by cases hc
    · exact List.forall_mem_cons.mpr ⟨by decide, isPrinted_of_mem_zeroPad⟩
  refine List.forall_mem_append.mpr ⟨isPrinted_of_mem_zeroPad, ?_⟩
  refine List.forall_mem_cons.mpr ⟨by decide, ?_⟩
  refine List.forall_mem_append.mpr ⟨isPrinted_of_mem_zeroPad, ?_⟩
  refine List.forall_mem_cons.mpr ⟨by decide, ?_⟩
  exact List.forall_mem_append.mpr ⟨isPrinted_of_mem_zeroPad, hfraction⟩

lemma isPrinted_of_mem_isoOffset {o : Offset} : ∀ c ∈ isoOffset o, isPrinted c := by
  refine List.forall_mem_cons.mpr ⟨by split <;> decide, ?_⟩
  split
  · refine List.forall_mem_append.mpr ⟨isPrinted_of_mem_zeroPad, ?_⟩
    exact List.forall_mem_cons.mpr ⟨by decide, isPrinted_of_mem_zeroPad⟩
  · exact isPrinted_of_mem_isoClock

lemma isPrinted_of_mem_isoformat {t : Datetime} : ∀ c ∈ isoformat t, isPrinted c := by
  have hdate : ∀ c ∈ isoDate t.date, isPrinted c := by
    refine List.forall_mem_append.mpr ⟨isPrinted_of_mem_zeroPad, ?_⟩
    refine List.forall_mem_cons.mpr ⟨by decide, ?_⟩
    refine List.forall_mem_append.mpr ⟨isPrinted_of_mem_zeroPad, ?_⟩
    exact List.forall_mem_cons.mpr ⟨by decide, isPrinted_of_mem_zeroPad⟩
  have hoffset : ∀ c ∈ t.utcoffset.elim [] isoOffset, isPrinted c := by
    cases t.utcoffset with
    | none => exact fun _ hc => by cases hc
    | some o => exact isPrinted_of_mem_isoOffset
  refine List.forall_mem_append.mpr ⟨hdate, List.forall_mem_cons.mpr ⟨by decide, ?_⟩⟩
  exact List.forall_mem_append.mpr ⟨isPrinted_of_mem_isoClock, hoffset⟩

/-! ## Reading -/

def isDigit (c : Char) : Bool := (value 10 c).isSome

/-- Where the date ends and the character after it is skipped.  A dash after a week may be one of
either kind. -/
def separatorLocation (cs : List Char) : Option ℕ :=
  if cs.length = 7 then some 7
  else if cs[4]? = some '-' then
    if cs[5]? = some 'W' then
      if cs[8]? = some '-' then
        if cs.length = 9 then none
        else if cs[10]?.any isDigit then some 8
        else some 10
      else some 8
    else some 10
  else if cs[4]? = some 'W' then
    let digits := ((cs.drop 7).takeWhile isDigit).length
    if digits < 2 then some (7 + digits)
    else if digits % 2 = 1 then some 7
    else some 8
  else some 8

/-- The last number of a text. -/
def readLast (width : ℕ) (cs : List Char) : Option ℕ :=
  match readDigits 10 width 0 cs with
  | some (n, []) => some n
  | _ => none

/-- Skip the dash between two fields, in a text that uses dashes or in one that does not. -/
def skipDash (dashed : Bool) (cs : List Char) : Option (List Char) :=
  if (cs.head? = some '-') = dashed then some (if dashed then cs.tail else cs) else none

def parseDate (cs : List Char) : Option Date :=
  (readDigits 10 4 0 cs).bind fun (year, cs) =>
    let dashed := cs.head? = some '-'
    let cs := if dashed then cs.tail else cs
    if cs.head? = some 'W' then
      (readDigits 10 2 0 cs.tail).bind fun (week, cs) =>
        if cs = [] then Date.ofIsoWeek year week 1
        else (skipDash dashed cs).bind fun cs => (readLast 1 cs).bind (Date.ofIsoWeek year week)
    else
      (readDigits 10 2 0 cs).bind fun (month, cs) =>
        (skipDash dashed cs).bind fun cs => (readLast 2 cs).bind (Date.of year month)

/-- Digits beyond the sixth are read and dropped. -/
def parseFraction (cs : List Char) : Option ℕ :=
  if cs = [] then none
  else if cs.all isDigit then
    (readDigits 10 6 0 (cs ++ "00000".toList)).map Prod.fst
  else none

def parseSecond (hour minute : ℕ) (cs : List Char) : Option Clock :=
  (readDigits 10 2 0 cs).bind fun (second, cs) =>
    match cs with
    | [] => some ⟨hour, minute, second, 0⟩
    | c :: cs =>
        if c = '.' || c = ',' then (parseFraction cs).map fun f => ⟨hour, minute, second, f⟩
        else none

def parseClock (cs : List Char) : Option Clock :=
  (readDigits 10 2 0 cs).bind fun (hour, cs) =>
    if cs = [] then some ⟨hour, 0, 0, 0⟩
    else
      let separated := cs.head? = some ':'
      (readDigits 10 2 0 (if separated then cs.tail else cs)).bind fun (minute, cs) =>
        if cs = [] then some ⟨hour, minute, 0, 0⟩
        else if separated then
          if cs.head? = some ':' then parseSecond hour minute cs.tail else none
        else parseSecond hour minute cs

/-- The character does not begin an offset. -/
def beforeOffset (c : Char) : Bool := c ≠ '+' && c ≠ '-' && c ≠ 'Z'

def parseTime (cs : List Char) : Option (Clock × Option Offset) :=
  (parseClock (cs.takeWhile beforeOffset)).bind fun clock =>
    match cs.dropWhile beforeOffset with
    | [] => some (clock, none)
    | sign :: cs =>
        if sign = 'Z' then if cs = [] then some (clock, some .utc) else none
        else
          (parseClock cs).bind fun size =>
            (Offset.of (if sign = '-' then -size.toMicroseconds else size.toMicroseconds)).map
              fun offset => (clock, some offset)

def fromisoformat (cs : List Char) : Option Datetime :=
  if cs.length < 7 then none
  else
    (separatorLocation cs).bind fun location =>
      (parseDate (cs.take location)).bind fun date =>
        let time := cs.drop (location + 1)
        (if time = [] then some (⟨0, 0, 0, 0⟩, none) else parseTime time).bind
          fun (clock, utcoffset) =>
            if proper : clock.Proper then some ⟨date, clock, proper, utcoffset⟩ else none

/-! ## Reading what was printed -/

section RoundTrip

variable {n : ℕ} {cs : List Char}

lemma readDigits_two (h : n < 100) : readDigits 10 2 0 (zeroPad 10 2 n ++ cs) = some (n, cs) :=
  readDigits_zeroPad (by decide) (by decide) h cs

lemma readLast_zeroPad {w : ℕ} (h : n < 10 ^ w) : readLast w (zeroPad 10 w n) = some n := by
  have hread := readDigits_zeroPad (by decide) (by decide) h []
  rw [List.append_nil] at hread
  rw [readLast, hread]

lemma isDigit_of_mem_zeroPad {w : ℕ} {c : Char} (h : c ∈ zeroPad 10 w n) : isDigit c := by
  obtain ⟨i, hi, rfl⟩ := exists_of_mem_zeroPad (by decide) h
  rw [isDigit, value_digit (by decide) hi]
  rfl

lemma digit_ne {i : ℕ} (h : i < 10) {c : Char} (hc : ¬ c.isAlphanum ∨ c = 'W') :
    digit i ≠ c := by
  have hall : ∀ i : Fin 10, (digit i).isAlphanum ∧ digit i ≠ 'W' := by decide +kernel
  obtain ⟨halphanum, hweek⟩ := hall ⟨i, h⟩
  rintro rfl
  rcases hc with hc | hc
  · exact hc halphanum
  · exact hweek hc

lemma parseDate_isoDate (d : Date) : parseDate (isoDate d) = some d := by
  have hyear := d.year_range
  have hmonth := d.month_range
  have hday := d.day_le
  have hweek : (zeroPad 10 2 d.month ++ '-' :: zeroPad 10 2 d.day).head? ≠ some 'W' := by
    intro h
    exact digit_ne (Nat.mod_lt _ (by decide)) (Or.inr rfl) (Option.some.inj h)
  rw [parseDate, isoDate, readDigits_zeroPad (by decide) (by decide) (by omega), Option.bind_some]
  simp only [List.head?_cons, decide_true, if_true, List.tail_cons, if_neg hweek]
  rw [readDigits_two (by omega), Option.bind_some]
  simp [skipDash, readLast_zeroPad (w := 2) (by omega : d.day < 10 ^ 2), Date.of_self]

lemma parseFraction_zeroPad (h : n < 1000000) : parseFraction (zeroPad 10 6 n) = some n := by
  have hnil : zeroPad 10 6 n ≠ [] := List.ne_nil_of_length_pos (by simp)
  have hall : (zeroPad 10 6 n).all isDigit :=
    List.all_eq_true.mpr fun c hc => isDigit_of_mem_zeroPad hc
  rw [parseFraction, if_neg hnil, if_pos hall, readDigits_zeroPad (by decide) (by decide) h]
  rfl

lemma parseSecond_isoFraction {hour minute second microsecond : ℕ} (hsecond : second < 60)
    (hmicrosecond : microsecond < 1000000) :
    parseSecond hour minute (zeroPad 10 2 second ++ isoFraction microsecond) =
      some ⟨hour, minute, second, microsecond⟩ := by
  rw [parseSecond, readDigits_two (by omega), Option.bind_some, isoFraction]
  by_cases hzero : microsecond = 0
  · rw [if_pos hzero, hzero]
  · rw [if_neg hzero]
    simp [parseFraction_zeroPad hmicrosecond]

lemma parseClock_isoClock {c : Clock} (hhour : c.hour < 100) (hminute : c.minute < 60)
    (hsecond : c.second < 60) (hmicrosecond : c.microsecond < 1000000) :
    parseClock (isoClock c) = some c := by
  rw [parseClock, isoClock, readDigits_two hhour, Option.bind_some]
  simp only [reduceCtorEq, if_false, List.head?_cons, if_true, List.tail_cons]
  rw [readDigits_two (by omega), Option.bind_some]
  simp only [reduceCtorEq, if_false, List.head?_cons, if_true, List.tail_cons]
  exact parseSecond_isoFraction hsecond hmicrosecond

lemma beforeOffset_of_mem_isoClock {c : Clock} :
    ∀ x ∈ isoClock c, beforeOffset x = true := by
  have hdigits : ∀ {w n}, ∀ x ∈ zeroPad 10 w n, beforeOffset x = true := by
    intro w n x hx
    obtain ⟨i, hi, rfl⟩ := exists_of_mem_zeroPad (by decide) hx
    have hall : ∀ i : Fin 10, beforeOffset (digit i) = true := by decide +kernel
    exact hall ⟨i, hi⟩
  have hfraction : ∀ x ∈ isoFraction c.microsecond, beforeOffset x = true := by
    unfold isoFraction
    split
    · exact fun _ hx => by cases hx
    · exact List.forall_mem_cons.mpr ⟨by decide, hdigits⟩
  intro x hx
  simp only [isoClock, List.mem_append, List.mem_cons] at hx
  rcases hx with hx | rfl | hx | rfl | hx | hx
  · exact hdigits x hx
  · decide
  · exact hdigits x hx
  · decide
  · exact hdigits x hx
  · exact hfraction x hx

/-- The text of an offset is a sign and a size. -/
lemma isoOffset_eq (o : Offset) : ∃ size,
    isoOffset o = (if o.microseconds < 0 then '-' else '+') :: size ∧
      parseClock size = some (Clock.ofMicroseconds o.microseconds.natAbs) := by
  have hrange := o.range
  have hproper := Clock.proper_ofMicroseconds (n := o.microseconds.natAbs) (by omega)
  have hhour := hproper.hour
  have hminute := hproper.minute
  refine ⟨_, rfl, ?_⟩
  split
  · rename_i hzero
    simp only [Bool.and_eq_true, decide_eq_true_eq] at hzero
    have hread : readDigits 10 2 0
        (zeroPad 10 2 (Clock.ofMicroseconds o.microseconds.natAbs).minute ++ []) = _ :=
      readDigits_two (by omega)
    rw [List.append_nil] at hread
    rw [parseClock, readDigits_two (by omega), Option.bind_some]
    simp only [reduceCtorEq, if_false, List.head?_cons, if_true, List.tail_cons]
    rw [hread, Option.bind_some, if_pos rfl]
    exact congrArg some (Clock.ext rfl rfl hzero.1.symm hzero.2.symm)
  · exact parseClock_isoClock (by omega) hminute hproper.second hproper.microsecond

/-- The sign of an offset is read back. -/
lemma offset_of_sign (o : Offset) :
    Offset.of (if (if o.microseconds < 0 then '-' else '+') = '-' then
      -(o.microseconds.natAbs : ℤ) else o.microseconds.natAbs) = some o := by
  have hsigned : (if (if o.microseconds < 0 then '-' else '+') = '-' then
      -(o.microseconds.natAbs : ℤ) else o.microseconds.natAbs) = o.microseconds := by
    by_cases hneg : o.microseconds < 0
    · rw [if_pos hneg, if_pos rfl]
      omega
    · rw [if_neg hneg, if_neg (by decide)]
      omega
  rw [hsigned]
  exact dif_pos o.range

lemma parseTime_isoClock {c : Clock} (hc : c.Proper) (offset : Option Offset) :
    parseTime (isoClock c ++ offset.elim [] isoOffset) = some (c, offset) := by
  have hhour := hc.hour
  have hclock := parseClock_isoClock (by omega) hc.minute hc.second hc.microsecond
  rw [parseTime, List.takeWhile_append_of_pos beforeOffset_of_mem_isoClock,
    List.dropWhile_append_of_pos beforeOffset_of_mem_isoClock]
  cases offset with
  | none =>
      rw [Option.elim_none, List.takeWhile_nil, List.append_nil, hclock]
      rfl
  | some o =>
      obtain ⟨size, htext, hsize⟩ := isoOffset_eq o
      have hbegins : ¬ beforeOffset (if o.microseconds < 0 then '-' else '+') = true := by
        split <;> decide
      have hzulu : (if o.microseconds < 0 then '-' else '+') ≠ 'Z' := by
        split <;> decide
      rw [Option.elim_some, htext, List.takeWhile_cons_of_neg hbegins,
        List.dropWhile_cons_of_neg hbegins, List.append_nil, hclock, Option.bind_some]
      dsimp only
      rw [if_neg hzulu, hsize, Option.bind_some, Clock.toMicroseconds_ofMicroseconds,
        offset_of_sign]
      rfl

/-- **`fromisoformat` reads what `isoformat` prints.** -/
theorem fromisoformat_isoformat (t : Datetime) : fromisoformat (isoformat t) = some t := by
  let rest := isoClock t.clock ++ t.utcoffset.elim [] isoOffset
  have hlength : (isoDate t.date).length = 10 := by simp [isoDate]
  have htext : isoformat t = isoDate t.date ++ 'T' :: rest := rfl
  have hdash : (isoDate t.date)[4]? = some '-' := rfl
  have hweek : (isoDate t.date)[5]? ≠ some 'W' := fun h =>
    digit_ne (Nat.mod_lt _ (by decide)) (Or.inr rfl) (Option.some.inj h)
  have hlocation : separatorLocation (isoformat t) = some 10 := by
    have hdash' : (isoformat t)[4]? = some '-' := by
      rw [htext, List.getElem?_append_left (by omega), hdash]
    have hweek' : (isoformat t)[5]? ≠ some 'W' := by
      rwa [htext, List.getElem?_append_left (by omega)]
    have hlong : (isoformat t).length ≠ 7 := by
      rw [htext, List.length_append]
      omega
    rw [separatorLocation, if_neg hlong, if_pos hdash', if_neg hweek']
  have htime : rest ≠ [] := List.append_ne_nil_of_left_ne_nil (List.cons_ne_nil _ _) _
  have htake : (isoformat t).take 10 = isoDate t.date := by
    rw [htext]
    exact List.take_left' hlength
  have hdrop : (isoformat t).drop 11 = rest := by
    have hsplit : isoformat t = (isoDate t.date ++ ['T']) ++ rest := by simp [htext]
    rw [hsplit]
    exact List.drop_left' (by simp [hlength])
  have hlong : ¬ (isoformat t).length < 7 := by
    rw [htext, List.length_append]
    omega
  rw [fromisoformat, if_neg hlong, hlocation, Option.bind_some, htake, parseDate_isoDate,
    Option.bind_some, hdrop]
  dsimp only
  rw [if_neg htime, parseTime_isoClock t.proper, Option.bind_some]
  exact dif_pos t.proper

end RoundTrip

/-! ## Instants -/

/-- Microseconds since 1970, with a naive date-time in UTC. -/
def instant (t : Datetime) : ℤ :=
  (t.date.ordinal - 719163) * 86400000000 + t.clock.toMicroseconds -
    t.utcoffset.elim 0 Offset.microseconds

/-- The date-time of an instant in UTC, within the years 1 to 9999. -/
def utc (instant : ℤ) : Option Datetime :=
  (Date.ofOrdinal (instant / 86400000000 + 719163).toNat).map fun date =>
    ⟨date, Clock.ofMicroseconds (instant % 86400000000).toNat,
      Clock.proper_ofMicroseconds (by omega), some .utc⟩

/-- **The date-time of an instant denotes it.** -/
theorem instant_of_utc {i : ℤ} {t : Datetime} (h : utc i = some t) : t.instant = i := by
  obtain ⟨date, hdate, rfl⟩ := Option.map_eq_some_iff.mp h
  have hordinal := ordinal_of_ofOrdinal hdate
  have hpos : 0 < date.ordinal := by
    have hday := date.day_range.1
    unfold Date.ordinal
    omega
  have hmicroseconds := Clock.toMicroseconds_ofMicroseconds (i % 86400000000).toNat
  simp only [instant, Option.elim_some, hmicroseconds, Offset.utc]
  omega

end Datetime
