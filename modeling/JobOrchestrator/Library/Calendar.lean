import Mathlib.Data.List.Basic
import Mathlib.Tactic.Common

/-!
# The proleptic Gregorian calendar

Dates of the years 1 to 9999, their ordinals (1 January of year 1 is day 1), the date of an ordinal,
and the date of a day of an ISO week.

The main result is `ordinal_of_ofOrdinal`: the date of an ordinal has that ordinal.
-/

namespace Calendar

def isLeap (year : ℕ) : Bool := year % 4 = 0 && (year % 100 ≠ 0 || year % 400 = 0)

def daysInMonth (leap : Bool) (month : ℕ) : ℕ :=
  if month = 2 && leap then 29
  else [0, 31, 28, 31, 30, 31, 30, 31, 31, 30, 31, 30, 31].getD month 0

def daysBeforeMonth (leap : Bool) (month : ℕ) : ℕ :=
  [0, 0, 31, 59, 90, 120, 151, 181, 212, 243, 273, 304, 334].getD month 0 +
    if 2 < month && leap then 1 else 0

def daysBeforeYear (year : ℕ) : ℕ :=
  (year - 1) * 365 + (year - 1) / 4 - (year - 1) / 100 + (year - 1) / 400

/-- A date of the years 1 to 9999. -/
structure Date where
  year : ℕ
  month : ℕ
  day : ℕ
  year_range : 1 ≤ year ∧ year ≤ 9999
  month_range : 1 ≤ month ∧ month ≤ 12
  day_range : 1 ≤ day ∧ day ≤ daysInMonth (isLeap year) month
  deriving DecidableEq

/-- The date with the given fields, if there is one. -/
def Date.of (year month day : ℕ) : Option Date :=
  if h : (1 ≤ year ∧ year ≤ 9999) ∧ (1 ≤ month ∧ month ≤ 12) ∧
      1 ≤ day ∧ day ≤ daysInMonth (isLeap year) month then
    some ⟨year, month, day, h.1, h.2.1, h.2.2⟩
  else none

lemma Date.of_self (d : Date) : Date.of d.year d.month d.day = some d :=
  dif_pos ⟨d.year_range, d.month_range, d.day_range⟩

lemma Date.day_le (d : Date) : d.day ≤ 31 := by
  have hall : ∀ leap : Bool, ∀ month : Fin 13, daysInMonth leap month ≤ 31 := by decide
  have hmonth := d.month_range
  exact Nat.le_trans d.day_range.2 (hall _ ⟨d.month, by omega⟩)

def Date.ordinal (d : Date) : ℕ :=
  daysBeforeYear d.year + daysBeforeMonth (isLeap d.year) d.month + d.day

/-- The month and the day of the month, `n` days after the first day of a year. -/
def monthDay (leap : Bool) (n : ℕ) : ℕ × ℕ :=
  -- the estimate is exact or one too large
  let month := (n + 50) / 32
  let month := if n < daysBeforeMonth leap month then month - 1 else month
  (month, n - daysBeforeMonth leap month + 1)

/-- The fields of an ordinal. -/
def fields (ordinal : ℕ) : ℕ × ℕ × ℕ :=
  let n := ordinal - 1
  let n400 := n / 146097
  let n := n % 146097
  let n100 := n / 36524
  let n := n % 36524
  let n4 := n / 1461
  let n := n % 1461
  let n1 := n / 365
  let n := n % 365
  let year := n400 * 400 + n100 * 100 + n4 * 4 + n1 + 1
  -- the last day of a period of four or of four hundred years
  if n1 = 4 || n100 = 4 then (year - 1, 12, 31)
  else (year, monthDay (n1 = 3 && (n4 ≠ 24 || n100 = 3)) n)

def Date.ofOrdinal (ordinal : ℕ) : Option Date :=
  if ordinal = 0 then none
  else
    let (year, month, day) := fields ordinal
    Date.of year month day

/-- The ordinal of the Monday of the first ISO week of a year. -/
def isoWeek1Monday (year : ℕ) : ℕ :=
  let first := daysBeforeYear year + 1
  let weekday := (first + 6) % 7
  if 3 < weekday then first - weekday + 7 else first - weekday

/-- The date of a day of an ISO week.  A year has a week 53 when it begins on a Thursday, or on a
Wednesday and is a leap year. -/
def Date.ofIsoWeek (year week day : ℕ) : Option Date :=
  let weekday := (daysBeforeYear year + 1) % 7
  if (1 ≤ year ∧ year ≤ 9999) ∧ (1 ≤ day ∧ day ≤ 7) ∧ (1 ≤ week ∧ week ≤ 52 ∨
      week = 53 ∧ (weekday = 4 ∨ weekday = 3 ∧ isLeap year)) then
    Date.ofOrdinal (isoWeek1Monday year + (week - 1) * 7 + (day - 1))
  else none

/-! ## The date of an ordinal -/

/-- The fields are those of a day of a year, and of the given one. -/
structure Names (ordinal year month day : ℕ) : Prop where
  year_pos : 1 ≤ year
  month_range : 1 ≤ month ∧ month ≤ 12
  day_range : 1 ≤ day ∧ day ≤ daysInMonth (isLeap year) month
  total : daysBeforeYear year + daysBeforeMonth (isLeap year) month + day = ordinal

lemma monthDay_spec (leap : Bool) {n : ℕ} (h : n < 365) :
    (1 ≤ (monthDay leap n).1 ∧ (monthDay leap n).1 ≤ 12) ∧
      (1 ≤ (monthDay leap n).2 ∧ (monthDay leap n).2 ≤ daysInMonth leap (monthDay leap n).1) ∧
        daysBeforeMonth leap (monthDay leap n).1 + (monthDay leap n).2 = n + 1 := by
  have hall : ∀ leap : Bool, ∀ n : Fin 365,
      (1 ≤ (monthDay leap n).1 ∧ (monthDay leap n).1 ≤ 12) ∧
        (1 ≤ (monthDay leap n).2 ∧ (monthDay leap n).2 ≤ daysInMonth leap (monthDay leap n).1) ∧
          daysBeforeMonth leap (monthDay leap n).1 + (monthDay leap n).2 = n + 1 := by
    decide +kernel
  exact hall leap ⟨n, h⟩

/-- The days before a year that is given by its periods. -/
lemma daysBeforeYear_periods {n400 n100 n4 n1 : ℕ} (h100 : n100 < 4) (h4 : n4 < 25)
    (h1 : n1 < 4) :
    daysBeforeYear (n400 * 400 + n100 * 100 + n4 * 4 + n1 + 1) =
      n400 * 146097 + n100 * 36524 + n4 * 1461 + n1 * 365 := by
  have hq4 : (n400 * 400 + n100 * 100 + n4 * 4 + n1) / 4 = n400 * 100 + n100 * 25 + n4 := by omega
  have hq100 : (n400 * 400 + n100 * 100 + n4 * 4 + n1) / 100 = n400 * 4 + n100 := by omega
  have hq400 : (n400 * 400 + n100 * 100 + n4 * 4 + n1) / 400 = n400 := by omega
  rw [daysBeforeYear, Nat.add_sub_cancel, hq4, hq100, hq400]
  omega

lemma isLeap_periods {n400 n100 n4 n1 : ℕ} (h100 : n100 < 4) (h4 : n4 < 25) (h1 : n1 < 4) :
    isLeap (n400 * 400 + n100 * 100 + n4 * 4 + n1 + 1) =
      (n1 = 3 && (n4 ≠ 24 || n100 = 3) : Bool) := by
  rw [Bool.eq_iff_iff]
  simp only [isLeap, Bool.and_eq_true, Bool.or_eq_true, decide_eq_true_eq]
  omega

/-- The last day of a leap year that is given by its periods. -/
lemma names_last {n400 n100 n4 ordinal : ℕ} (h100 : n100 < 4) (h4 : n4 < 25)
    (hleap : n4 ≠ 24 ∨ n100 = 3)
    (h : n400 * 146097 + n100 * 36524 + n4 * 1461 + 1461 = ordinal) :
    Names ordinal (n400 * 400 + n100 * 100 + n4 * 4 + 4) 12 31 := by
  have hyear : isLeap (n400 * 400 + n100 * 100 + n4 * 4 + 3 + 1) = true := by
    rw [isLeap_periods h100 h4 (by decide)]
    simpa using hleap
  have hbefore := @daysBeforeYear_periods n400 _ _ 3 h100 h4 (by decide)
  refine ⟨by omega, by decide, ?_, ?_⟩
  · rw [hyear]
    decide
  · have hmonths : daysBeforeMonth true 12 = 335 := by decide
    rw [hyear, hbefore, hmonths]
    omega

lemma names_fields {ordinal : ℕ} (h : ordinal ≠ 0) :
    Names ordinal (fields ordinal).1 (fields ordinal).2.1 (fields ordinal).2.2 := by
  unfold fields
  extract_lets n n400 a n100 b n4 c n1 d year
  have h4 : n4 < 25 := by omega
  split
  · rename_i hlast
    simp only [Bool.or_eq_true, decide_eq_true_eq] at hlast
    rcases hlast with h1 | h100
    · have hyear : year - 1 = n400 * 400 + n100 * 100 + n4 * 4 + 4 := by omega
      rw [hyear]
      exact names_last (by omega) h4 (by omega) (by omega)
    · have hyear : year - 1 = n400 * 400 + 3 * 100 + 24 * 4 + 4 := by omega
      rw [hyear]
      exact @names_last n400 3 24 ordinal (by decide) (by decide) (Or.inr rfl) (by omega)
  · rename_i hinside
    simp only [Bool.or_eq_true, decide_eq_true_eq, not_or] at hinside
    have h100 : n100 < 4 := by omega
    have h1 : n1 < 4 := by omega
    have hleap : isLeap year = (n1 = 3 && (n4 ≠ 24 || n100 = 3) : Bool) := isLeap_periods h100 h4 h1
    have hbefore : daysBeforeYear year = _ := daysBeforeYear_periods h100 h4 h1
    obtain ⟨hmonth, hday, htotal⟩ := monthDay_spec (isLeap year) (n := d) (by omega)
    rw [← hleap]
    refine ⟨by omega, hmonth, hday, ?_⟩
    dsimp only
    rw [hbefore]
    omega

/-- **The date of an ordinal has that ordinal.** -/
theorem ordinal_of_ofOrdinal {ordinal : ℕ} {d : Date} (h : Date.ofOrdinal ordinal = some d) :
    d.ordinal = ordinal := by
  unfold Date.ofOrdinal at h
  split at h
  · cases h
  · rename_i hpos
    have htotal := (names_fields hpos).total
    unfold Date.of at h
    dsimp only at h
    split at h
    · obtain rfl := Option.some.inj h
      exact htotal
    · cases h

end Calendar
