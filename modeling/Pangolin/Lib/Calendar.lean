import Mathlib.Algebra.Ring.Nat

/-!
# The proleptic Gregorian calendar

Days are counted year by year and month by month from 0001-01-01.
-/

namespace Calendar

def isLeap (year : Nat) : Bool := year % 4 = 0 && (year % 100 ≠ 0 || year % 400 = 0)

def daysInYear (year : Nat) : Nat := if isLeap year then 366 else 365

def daysInMonth (year month : Nat) : Nat :=
  if month = 2 then (if isLeap year then 29 else 28)
  else if month = 4 ∨ month = 6 ∨ month = 9 ∨ month = 11 then 30
  else 31

/-- The days of the years 1 to `years`. -/
def yearsDays : (years : Nat) → Nat
  | 0 => 0
  | years + 1 => yearsDays years + daysInYear (years + 1)

/-- The days of the first months of a year. -/
def monthsDays (year : Nat) : (months : Nat) → Nat
  | 0 => 0
  | months + 1 => monthsDays year months + daysInMonth year (months + 1)

/-- A day of the years from 1 on. -/
structure Date where
  year : Nat
  month : Nat
  day : Nat
  yearPositive : 1 ≤ year
  monthInRange : 1 ≤ month ∧ month ≤ 12
  dayInRange : 1 ≤ day ∧ day ≤ daysInMonth year month

namespace Date

/-- The days from 0001-01-01 to the date. -/
def number (date : Date) : Nat :=
  yearsDays (date.year - 1) + monthsDays date.year (date.month - 1) + (date.day - 1)

/-- The earlier date: of an earlier year, or month of the year, or day of the month. -/
def Before (first second : Date) : Prop :=
  first.year < second.year ∨ first.year = second.year ∧
    (first.month < second.month ∨ first.month = second.month ∧ first.day < second.day)

end Date

theorem yearsDays_eq (years : Nat) :
    yearsDays years + years / 100 = 365 * years + years / 4 + years / 400 := by
  induction years with
  | zero => rfl
  | succ years ih =>
      have here : daysInYear (years + 1) + (if (years + 1) % 100 = 0 then 1 else 0) =
          365 + (if (years + 1) % 4 = 0 then 1 else 0) +
            (if (years + 1) % 400 = 0 then 1 else 0) := by
        unfold daysInYear isLeap
        by_cases four : (years + 1) % 4 = 0
        · by_cases hundred : (years + 1) % 100 = 0
          · by_cases cycle : (years + 1) % 400 = 0
            · simp [four, hundred, cycle]
            · simp [four, hundred, cycle]
          · have cycle : (years + 1) % 400 ≠ 0 := by omega
            simp [four, hundred, cycle]
        · have hundred : (years + 1) % 100 ≠ 0 := by omega
          have cycle : (years + 1) % 400 ≠ 0 := by omega
          simp [four, hundred, cycle]
      rw [yearsDays]
      split at here <;> split at here <;> split at here <;> omega

theorem yearsDays_mono {first second : Nat} (le : first ≤ second) :
    yearsDays first ≤ yearsDays second := by
  induction le with
  | refl => exact Nat.le_refl _
  | step _ ih => exact Nat.le_trans ih (Nat.le_add_right _ _)

theorem monthsDays_mono (year : Nat) {first second : Nat} (le : first ≤ second) :
    monthsDays year first ≤ monthsDays year second := by
  induction le with
  | refl => exact Nat.le_refl _
  | step _ ih => exact Nat.le_trans ih (Nat.le_add_right _ _)

theorem monthsDays_twelve (year : Nat) : monthsDays year 12 = daysInYear year := by
  simp only [monthsDays, daysInMonth, daysInYear]
  cases isLeap year <;> rfl

/-- From March on the months before a date take thirty and three fifths of a day each,
rounded. -/
theorem monthsDays_eq (year : Nat) {month : Nat} (low : 1 ≤ month) (high : month ≤ 12) :
    monthsDays year (month - 1) =
      if month ≤ 2 then 31 * (month - 1)
      else (153 * (month - 3) + 2) / 5 + 59 + (if isLeap year then 1 else 0) := by
  have months : month = 1 ∨ month = 2 ∨ month = 3 ∨ month = 4 ∨ month = 5 ∨ month = 6 ∨
      month = 7 ∨ month = 8 ∨ month = 9 ∨ month = 10 ∨ month = 11 ∨ month = 12 := by omega
  rcases months with rfl | rfl | rfl | rfl | rfl | rfl | rfl | rfl | rfl | rfl | rfl | rfl <;>
    cases leap : isLeap year <;> simp [monthsDays, daysInMonth, leap]

namespace Date

theorem dayOfYear_le (date : Date) :
    monthsDays date.year (date.month - 1) + date.day ≤ monthsDays date.year date.month := by
  obtain ⟨low, -⟩ := date.monthInRange
  obtain ⟨-, day⟩ := date.dayInRange
  obtain ⟨months, shape⟩ : ∃ months, date.month = months + 1 := ⟨date.month - 1, by omega⟩
  rw [shape] at day ⊢
  rw [Nat.add_sub_cancel, monthsDays]
  omega

/-- Later dates have larger numbers. -/
theorem number_lt {first second : Date} (before : first.Before second) :
    first.number < second.number := by
  have firstDay := first.dayInRange.1
  have secondDay := second.dayInRange.1
  have within := first.dayOfYear_le
  unfold number
  rcases before with year | ⟨sameYear, month | ⟨sameMonth, day⟩⟩
  · have wholeYear : monthsDays first.year first.month ≤ daysInYear first.year := by
      rw [← monthsDays_twelve]
      exact monthsDays_mono _ first.monthInRange.2
    have firstYear := first.yearPositive
    obtain ⟨years, shape⟩ : ∃ years, first.year = years + 1 := ⟨first.year - 1, by omega⟩
    have passed : yearsDays (first.year - 1) + daysInYear first.year = yearsDays first.year := by
      rw [shape]
      rfl
    have years := yearsDays_mono (Nat.le_sub_one_of_lt year)
    omega
  · have months := monthsDays_mono second.year (Nat.le_sub_one_of_lt month)
    rw [sameYear] at within ⊢
    omega
  · rw [sameYear, sameMonth]
    omega

end Date

end Calendar
