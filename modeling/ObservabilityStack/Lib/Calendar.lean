import Mathlib.Data.Int.Notation
import Mathlib.Tactic.Common

/-!
# The calendar: day numbers and dates

Days are numbered from 1 January 1970, and a date is a year, a month and a day of the proleptic
Gregorian calendar. Both directions count from 1 March of a year divisible by 400, because then
the leap day, when there is one, is the last day of its year: of its four years, of its century,
of its four centuries. `ofDays` peels these periods off one after the other; the last of the four
parts of a period takes the odd day, which is what the `min … 3` are about.

`toDays_ofDays` is the round trip, and `ofDays_valid` says that what comes out is a date there is.

The arithmetic is that of integer division, and is checked by no table: a date is a day number that
has been divided four times. What makes it hard to trust is what makes it short, namely that the
parts of a period are not equally long. The two specifications `yearOfEra_spec` and
`monthOfYear_spec` say what each division finds, by bounds, and the round trip is put together from
them and from nothing else about the numbers.

There is no time of day, no zone and no week here. A module that needs them divides a number of
seconds first, and has a day number left.
-/

set_option autoImplicit false

namespace ObservabilityStack
namespace Calendar

/-- A day of the proleptic Gregorian calendar, as year, month and day of the month. -/
structure Date where
  year : ℤ
  month : ℤ
  day : ℤ
  deriving DecidableEq, Repr

def isLeap (year : ℤ) : Bool :=
  decide (year % 4 = 0) && (decide (year % 100 ≠ 0) || decide (year % 400 = 0))

def daysIn (year month : ℤ) : ℤ :=
  if month = 2 then (if isLeap year then 29 else 28)
  else if month = 4 ∨ month = 6 ∨ month = 9 ∨ month = 11 then 30
  else 31

/-- The day exists. -/
structure Date.Valid (d : Date) : Prop where
  month_pos : 1 ≤ d.month
  month_le : d.month ≤ 12
  day_pos : 1 ≤ d.day
  day_le : d.day ≤ daysIn d.year d.month

/-- Days from 1 March of the year 0 to 1 January 1970. -/
def epoch : ℤ := 719468

/-- The year of the four centuries that start with 1 March, and the day of that year. -/
def yearOfEra (day : ℤ) : ℤ × ℤ :=
  let century := min (day / 36524) 3
  let day := day - 36524 * century
  let quad := day / 1461
  let day := day - 1461 * quad
  let year := min (day / 365) 3
  (100 * century + 4 * quad + year, day - 365 * year)

/-- The number of the month, counted from March, of a day of the year. -/
def monthOfYear (day : ℤ) : ℤ := (5 * day + 2) / 153

/-- The day of the year a month starts with. -/
def startOfMonth (month : ℤ) : ℤ := (153 * month + 2) / 5

/-- The date of a day of a year that starts with 1 March. -/
def dateOf (year day : ℤ) : Date :=
  let m := monthOfYear day
  let month := if m < 10 then m + 3 else m - 9
  ⟨if month ≤ 2 then year + 1 else year, month, day - startOfMonth m + 1⟩

/-- The date of a number of days since 1 January 1970. -/
def ofDays (days : ℤ) : Date :=
  let y := yearOfEra ((days + epoch) % 146097)
  dateOf (400 * ((days + epoch) / 146097) + y.1) y.2

/-- The number of days since 1 January 1970 of a date. -/
def toDays (d : Date) : ℤ :=
  let year := if d.month ≤ 2 then d.year - 1 else d.year
  let era := year / 400
  let y := year % 400
  let m := if d.month ≤ 2 then d.month + 9 else d.month - 3
  146097 * era + (365 * y + y / 4 - y / 100) + (startOfMonth m + d.day - 1) - epoch

example : ofDays 19782 = ⟨2024, 2, 29⟩ := by decide

/-! ## The round trip

A day number goes to a year, a day of it and a month, and comes back. Only this direction is
needed, and only this one is unconditional: a date that is no date has a day number too. -/

/-- What the peeling gives: a year, a day of it, and the days they stand for. The year that has
    a 366th day is the one before a leap year of the calendar that starts in January. -/
theorem yearOfEra_spec {day : ℤ} (h₀ : 0 ≤ day) (h₁ : day < 146097) :
    0 ≤ (yearOfEra day).1 ∧ (yearOfEra day).1 < 400 ∧
    0 ≤ (yearOfEra day).2 ∧ (yearOfEra day).2 ≤ 365 ∧
    365 * (yearOfEra day).1 + (yearOfEra day).1 / 4 - (yearOfEra day).1 / 100 +
      (yearOfEra day).2 = day ∧
    ((yearOfEra day).2 = 365 → isLeap ((yearOfEra day).1 + 1) = true) := by
  unfold yearOfEra
  dsimp only
  -- Century, group of four years, year: each quotient with the range of its remainder. The last
  -- one of each is longer, hence the caps at 3.
  have hc : 0 ≤ min (day / 36524) 3 ∧ min (day / 36524) 3 ≤ 3 ∧
      0 ≤ day - 36524 * min (day / 36524) 3 ∧ day - 36524 * min (day / 36524) 3 ≤ 36524 ∧
      (min (day / 36524) 3 < 3 → day - 36524 * min (day / 36524) 3 < 36524) := by omega
  generalize min (day / 36524) 3 = c at hc ⊢
  obtain ⟨d, hd⟩ : ∃ d, day - 36524 * c = d := ⟨_, rfl⟩
  rw [hd] at hc ⊢
  have hq : 0 ≤ d / 1461 ∧ d / 1461 ≤ 24 ∧ 0 ≤ d - 1461 * (d / 1461) ∧
      d - 1461 * (d / 1461) ≤ 1460 ∧ (d - 1461 * (d / 1461) = 1460 → d / 1461 = 24 → c = 3) := by
    omega
  generalize d / 1461 = q at hq ⊢
  obtain ⟨e, he⟩ : ∃ e, d - 1461 * q = e := ⟨_, rfl⟩
  rw [he] at hq ⊢
  have hy : 0 ≤ min (e / 365) 3 ∧ min (e / 365) 3 ≤ 3 ∧ 0 ≤ e - 365 * min (e / 365) 3 ∧
      e - 365 * min (e / 365) 3 ≤ 365 ∧
      (e - 365 * min (e / 365) 3 = 365 → e = 1460 ∧ min (e / 365) 3 = 3) := by omega
  generalize min (e / 365) 3 = y at hy ⊢
  have hfour : (100 * c + 4 * q + y) / 4 = 25 * c + q := by omega
  have hhundred : (100 * c + 4 * q + y) / 100 = c := by omega
  refine ⟨by omega, by omega, by omega, by omega, by omega, ?_⟩
  -- The 366th day is that of a year which both caps touch, a leap year.
  intro hlast
  obtain ⟨he, rfl⟩ := hy.2.2.2.2 hlast
  simp only [isLeap, Bool.and_eq_true, Bool.or_eq_true, decide_eq_true_eq]
  omega

theorem monthOfYear_spec {day : ℤ} (h₀ : 0 ≤ day) (h₁ : day ≤ 365) :
    0 ≤ monthOfYear day ∧ monthOfYear day ≤ 11 ∧ startOfMonth (monthOfYear day) ≤ day ∧
      day < startOfMonth (monthOfYear day + 1) := by
  unfold monthOfYear startOfMonth
  omega

theorem toDays_dateOf {era y day : ℤ} (hy₀ : 0 ≤ y) (hy₁ : y < 400) (h₀ : 0 ≤ day)
    (h₁ : day ≤ 365) :
    toDays (dateOf (400 * era + y) day) =
      146097 * era + (365 * y + y / 4 - y / 100 + day) - epoch := by
  obtain ⟨hm₀, hm₁, _, _⟩ := monthOfYear_spec h₀ h₁
  unfold toDays dateOf
  dsimp only
  generalize monthOfYear day = m at *
  -- March to December are the months 0 to 9 of a year, January and February of the next are last.
  by_cases hm : m < 10
  · have hmonth : ¬ m + 3 ≤ 2 := by omega
    have hback : m + 3 - 3 = m := by omega
    simp only [hm, if_true, hmonth, if_false, hback]
    omega
  · have hmonth : m - 9 ≤ 2 := by omega
    have hback : m - 9 + 9 = m := by omega
    simp only [hm, if_false, hmonth, if_true, hback]
    omega

theorem dateOf_valid {year day : ℤ} (h₀ : 0 ≤ day) (h₁ : day ≤ 365)
    (hleap : day = 365 → isLeap (year + 1) = true) : (dateOf year day).Valid := by
  obtain ⟨hm₀, hm₁, hstart, hend⟩ := monthOfYear_spec h₀ h₁
  unfold dateOf
  dsimp only
  generalize monthOfYear day = m at *
  unfold startOfMonth at *
  constructor
  · show 1 ≤ if m < 10 then m + 3 else m - 9
    split <;> omega
  · show (if m < 10 then m + 3 else m - 9) ≤ 12
    split <;> omega
  · show 1 ≤ day - (153 * m + 2) / 5 + 1
    omega
  · unfold daysIn
    dsimp only
    by_cases hlast : day = 365
    · have hm : m = 11 := by omega
      subst hm
      simp [hlast, hleap hlast]
    · split
      · split <;> omega
      · split <;> omega

theorem toDays_ofDays (days : ℤ) : toDays (ofDays days) = days := by
  have h₀ : 0 ≤ (days + epoch) % 146097 := Int.emod_nonneg _ (by decide)
  have h₁ : (days + epoch) % 146097 < 146097 := Int.emod_lt_of_pos _ (by decide)
  obtain ⟨hy₀, hy₁, hd₀, hd₁, hday, _⟩ := yearOfEra_spec h₀ h₁
  unfold ofDays
  dsimp only
  rw [toDays_dateOf hy₀ hy₁ hd₀ hd₁, hday]
  omega

theorem ofDays_valid (days : ℤ) : (ofDays days).Valid := by
  have h₀ : 0 ≤ (days + epoch) % 146097 := Int.emod_nonneg _ (by decide)
  have h₁ : (days + epoch) % 146097 < 146097 := Int.emod_lt_of_pos _ (by decide)
  obtain ⟨_, _, hd₀, hd₁, _, hleap⟩ := yearOfEra_spec h₀ h₁
  apply dateOf_valid hd₀ hd₁
  intro hlast
  -- Adding whole eras does not change which years are leap years.
  have := hleap hlast
  simp only [isLeap, Bool.and_eq_true, Bool.or_eq_true, decide_eq_true_eq] at this ⊢
  omega

end Calendar
end ObservabilityStack
