import Mathlib.Data.Nat.Basic
import Mathlib.Tactic.Ring

/-!
# The Gregorian calendar

Dates of the proleptic Gregorian calendar from the year zero on, and the number of days before
each of them.  A year that starts in March ends with the day that leap years add, so counting
years from March makes every month start at the same day of its year.
-/

namespace Gregorian

def isLeap (year : Nat) : Bool :=
  year % 4 == 0 && (year % 100 != 0 || year % 400 == 0)

def daysInMonth (year : Nat) : Nat → Nat
  | 2 => if isLeap year then 29 else 28
  | 4 | 6 | 9 | 11 => 30
  | _ => 31

/-- The days of the years before this one. -/
def daysBeforeYear : Nat → Nat
  | 0 => 0
  | year + 1 => daysBeforeYear year + if isLeap year then 366 else 365

/-- The days of the months of a year before this one. -/
def daysBeforeMonth (year month : Nat) : Nat :=
  ((List.range' 1 (month - 1)).map (daysInMonth year)).sum

/-- A day of the calendar. -/
@[ext]
structure Date where
  year : Nat
  month : Nat
  day : Nat
  month_pos : 1 ≤ month
  month_le : month ≤ 12
  day_pos : 1 ≤ day
  day_le : day ≤ daysInMonth year month

/-- The days before a date. -/
def Date.days (date : Date) : Nat :=
  daysBeforeYear date.year + daysBeforeMonth date.year date.month + (date.day - 1)

/-- A second of a day. -/
@[ext]
structure TimeOfDay where
  hour : Nat
  minute : Nat
  second : Nat
  hour_lt : hour < 24
  minute_lt : minute < 60
  second_lt : second < 60

def TimeOfDay.seconds (time : TimeOfDay) : Nat :=
  time.hour * 3600 + time.minute * 60 + time.second

theorem daysInMonth_le (year month : Nat) : daysInMonth year month ≤ 31 := by
  unfold daysInMonth
  split
  · split <;> omega
  · omega
  · omega
  · omega
  · omega
  · omega

section Years

theorem daysBeforeYear_eq (year : Nat) :
    daysBeforeYear year = 365 * year + (year + 3) / 4 - (year + 99) / 100 + (year + 399) / 400 := by
  induction year with
  | zero => rfl
  | succ year ih =>
      have parts : (year + 99) / 100 ≤ (year + 3) / 4 := by omega
      rw [daysBeforeYear, ih]
      by_cases leap : isLeap year = true
      · have multiple : year % 4 = 0 ∧ (year % 100 ≠ 0 ∨ year % 400 = 0) := by
          simpa [isLeap] using leap
        rw [if_pos leap]
        omega
      · have common : ¬ (year % 4 = 0 ∧ (year % 100 ≠ 0 ∨ year % 400 = 0)) := by
          simpa [isLeap] using leap
        rw [if_neg leap]
        omega

theorem daysBeforeYear_succ (year : Nat) :
    daysBeforeYear (year + 1) = 365 * year + year / 4 - year / 100 + year / 400 + 366 := by
  rw [daysBeforeYear_eq]
  omega

theorem daysBeforeMonth_three (year : Nat) :
    daysBeforeMonth year 3 = if isLeap year then 60 else 59 := by
  simp only [daysBeforeMonth, daysInMonth, List.range', List.map_cons, List.map_nil, List.sum_cons,
    List.sum_nil]
  split <;> rfl

/-- The days before the first of March of a year. -/
def daysBeforeMarch (year : Nat) : Nat :=
  365 * year + year / 4 - year / 100 + year / 400 + 60

theorem daysBeforeMarch_eq (year : Nat) :
    daysBeforeYear year + daysBeforeMonth year 3 = daysBeforeMarch year := by
  have next := daysBeforeYear_succ year
  rw [daysBeforeYear] at next
  rw [daysBeforeMonth_three, daysBeforeMarch]
  split at next <;> rename_i leap <;> simp only [leap] at * <;> simp <;> omega

theorem daysBeforeYear_march (year : Nat) :
    daysBeforeYear (year + 1) = daysBeforeMarch year + 306 := by
  rw [daysBeforeYear_succ, daysBeforeMarch]

end Years

section Months

/-- The month that is this many months after March. -/
def monthFromMarch (index : Nat) : Nat :=
  if index < 10 then index + 3 else index - 9

/-- The year of that month, when the first of March is in this year. -/
def yearFromMarch (year index : Nat) : Nat :=
  if index < 10 then year else year + 1

/-- The days between the first of March and the start of the month that is this many months
after March. -/
def daysFromMarch (index : Nat) : Nat :=
  (153 * index + 2) / 5

theorem daysBeforeMonth_fromMarch (year index : Nat) (within : index < 12) :
    daysBeforeYear (yearFromMarch year index) +
        daysBeforeMonth (yearFromMarch year index) (monthFromMarch index) =
      daysBeforeMarch year + daysFromMarch index := by
  by_cases same : index < 10
  · rw [yearFromMarch, if_pos same, monthFromMarch, if_pos same, ← daysBeforeMarch_eq]
    have later : daysBeforeMonth year (index + 3) =
        daysBeforeMonth year 3 + daysFromMarch index := by
      have small : index = 0 ∨ index = 1 ∨ index = 2 ∨ index = 3 ∨ index = 4 ∨ index = 5 ∨
          index = 6 ∨ index = 7 ∨ index = 8 ∨ index = 9 := by omega
      rcases small with rfl | rfl | rfl | rfl | rfl | rfl | rfl | rfl | rfl | rfl <;>
        simp [daysBeforeMonth, daysInMonth, daysFromMarch, List.range'] <;> omega
    rw [later, Nat.add_assoc]
  · have last : index = 10 ∨ index = 11 := by omega
    rw [yearFromMarch, if_neg same, monthFromMarch, if_neg same, daysBeforeYear_march]
    rcases last with rfl | rfl <;> rfl

/-- A day of the year that starts in March lies in one of its months. -/
theorem day_fromMarch {year index dayOfYear : Nat} (within : dayOfYear ≤ 365)
    (leap : dayOfYear = 365 → isLeap (year + 1) = true) (found : index = (5 * dayOfYear + 2) / 153) :
    index < 12 ∧ daysFromMarch index ≤ dayOfYear ∧
      dayOfYear - daysFromMarch index + 1 ≤
        daysInMonth (yearFromMarch year index) (monthFromMarch index) := by
  have small : index < 12 := by omega
  refine ⟨small, by rw [daysFromMarch]; omega, ?_⟩
  have cases : index = 0 ∨ index = 1 ∨ index = 2 ∨ index = 3 ∨ index = 4 ∨ index = 5 ∨ index = 6 ∨
      index = 7 ∨ index = 8 ∨ index = 9 ∨ index = 10 ∨ index = 11 := by omega
  rcases cases with rfl | rfl | rfl | rfl | rfl | rfl | rfl | rfl | rfl | rfl | rfl | rfl <;>
    simp [daysFromMarch, monthFromMarch, yearFromMarch, daysInMonth] <;> try omega
  by_cases last : dayOfYear = 365
  · simp [leap last, last]
  · split <;> omega

end Months

section Eras

/-- A day of the four hundred years of an era splits into centuries, leap cycles, years and the
day of a year that starts in March. -/
theorem exists_cycles {dayOfEra : Nat} (within : dayOfEra < 146097) :
    ∃ century cycle year day, dayOfEra = 36524 * century + 1461 * cycle + 365 * year + day ∧
      century ≤ 3 ∧ cycle ≤ 24 ∧ year ≤ 3 ∧ day ≤ 365 ∧
        (day = 365 → year = 3 ∧ (cycle = 24 → century = 3)) := by
  by_cases top : dayOfEra = 146096
  · exact ⟨3, 24, 3, 365, by omega, by omega, by omega, by omega, by omega, by omega⟩
  · by_cases leap : dayOfEra % 36524 % 1461 = 1460
    · exact ⟨dayOfEra / 36524, dayOfEra % 36524 / 1461, 3, 365, by omega, by omega, by omega,
        by omega, by omega, by omega⟩
    · exact ⟨dayOfEra / 36524, dayOfEra % 36524 / 1461, dayOfEra % 36524 % 1461 / 365,
        dayOfEra % 36524 % 1461 % 365, by omega, by omega, by omega, by omega, by omega, by omega⟩

/-- The year of a day of an era. -/
def yearOfEra (dayOfEra : Nat) : Nat :=
  (dayOfEra - dayOfEra / 1460 + dayOfEra / 36524 - dayOfEra / 146096) / 365

theorem yearOfEra_eq {century cycle year day dayOfEra : Nat}
    (sum : dayOfEra = 36524 * century + 1461 * cycle + 365 * year + day) (centuries : century ≤ 3)
    (cycles : cycle ≤ 24) (years : year ≤ 3) (days : day ≤ 365)
    (leap : day = 365 → year = 3 ∧ (cycle = 24 → century = 3)) :
    yearOfEra dayOfEra = 100 * century + 4 * cycle + year := by
  rw [yearOfEra]
  by_cases top : dayOfEra = 146096
  · subst top
    omega
  · have small : 1461 * cycle + 365 * year + day < 36524 := by omega
    have byCentury : dayOfEra / 36524 = century := by omega
    have noEra : dayOfEra / 146096 = 0 := by omega
    rw [byCentury, noEra]
    by_cases passed : 1460 ≤ 24 * century + cycle + 365 * year + day
    · have byCycle : dayOfEra / 1460 = 25 * century + cycle + 1 := by omega
      rw [byCycle]
      omega
    · have byCycle : dayOfEra / 1460 = 25 * century + cycle := by omega
      rw [byCycle]
      omega

/-- The days of an era before the first of March of one of its years. -/
def daysBeforeYearOfEra (year : Nat) : Nat :=
  365 * year + year / 4 - year / 100

/-- The year of a day is the one that the day lies in, and the day of a leap year is its last
one. -/
theorem yearOfEra_spec {dayOfEra : Nat} (within : dayOfEra < 146097) (era : Nat) :
    yearOfEra dayOfEra < 400 ∧ daysBeforeYearOfEra (yearOfEra dayOfEra) ≤ dayOfEra ∧
      dayOfEra - daysBeforeYearOfEra (yearOfEra dayOfEra) ≤ 365 ∧
        (dayOfEra - daysBeforeYearOfEra (yearOfEra dayOfEra) = 365 →
          isLeap (yearOfEra dayOfEra + era * 400 + 1) = true) := by
  obtain ⟨century, cycle, year, day, sum, centuries, cycles, years, days, leap⟩ :=
    exists_cycles within
  have found := yearOfEra_eq sum centuries cycles years days leap
  have before : daysBeforeYearOfEra (yearOfEra dayOfEra) =
      36524 * century + 1461 * cycle + 365 * year := by
    have quarter : (100 * century + 4 * cycle + year) / 4 = 25 * century + cycle := by omega
    have hundredth : (100 * century + 4 * cycle + year) / 100 = century := by omega
    rw [found, daysBeforeYearOfEra, quarter, hundredth]
    omega
  refine ⟨by omega, by omega, by omega, ?_⟩
  intro last
  obtain ⟨lastYear, lastCycle⟩ := leap (by omega)
  rw [found]
  simp only [isLeap, Bool.and_eq_true, beq_iff_eq, Bool.or_eq_true, bne_iff_ne]
  omega

theorem daysBeforeMarch_era (year era : Nat) (within : year < 400) :
    daysBeforeMarch (year + era * 400) = daysBeforeYearOfEra year + era * 146097 + 60 := by
  rw [daysBeforeMarch, daysBeforeYearOfEra]
  omega

end Eras

end Gregorian
