import Mathlib.Data.Nat.Init
import Mathlib.Order.Basic

/-!
# The Gregorian calendar

Days are counted from the first day of year 0, by the rule that every fourth year has 366
days, but for the hundredth ones that are not four hundredth. An `Instant` is a year, a day of
it and a time of the day, and `Instant.seconds` is the second it stands for. Instants have the
order of their seconds, field by field (`Instant.ordered_of_le`), so each second is that of
one instant.
-/

namespace CfsEds.Lib.Calendar

/-- A year with a day more. -/
def IsLeap (year : Nat) : Prop := 4 ∣ year ∧ (¬ 100 ∣ year ∨ 400 ∣ year)

instance (year : Nat) : Decidable (IsLeap year) :=
  inferInstanceAs (Decidable (4 ∣ year ∧ (¬ 100 ∣ year ∨ 400 ∣ year)))

def daysInYear (year : Nat) : Nat := if IsLeap year then 366 else 365

/-- The number of days before a year. -/
def daysBefore : Nat → Nat
  | 0 => 0
  | year + 1 => daysBefore year + daysInYear year

theorem daysInYear_pos (year : Nat) : 0 < daysInYear year := by
  unfold daysInYear
  split <;> omega

theorem daysBefore_mono {a b : Nat} (h : a ≤ b) : daysBefore a ≤ daysBefore b := by
  induction h with
  | refl => exact Nat.le_refl _
  | step _ ih => exact Nat.le_trans ih (Nat.le_add_right _ _)

/-- Every fourth year but not every hundredth, and every four hundredth. -/
theorem daysBefore_eq (year : Nat) :
    daysBefore year + (year + 99) / 100 = 365 * year + (year + 3) / 4 + (year + 399) / 400 := by
  induction year with
  | zero => rfl
  | succ year ih =>
    rw [daysBefore, daysInYear]
    split
    next h => rw [IsLeap] at h; omega
    next h => rw [IsLeap] at h; omega

/-- A second of the calendar. The first day of a year is day 1. -/
structure Instant where
  year : Nat
  day : Nat
  hour : Nat
  minute : Nat
  second : Nat
  day_pos : 1 ≤ day
  day_le : day ≤ daysInYear year
  hour_lt : hour < 24
  minute_lt : minute < 60
  second_lt : second < 60

namespace Instant

/-- The days before the one of an instant. -/
def days (c : Instant) : Nat := daysBefore c.year + (c.day - 1)

/-- The seconds before an instant. -/
def seconds (c : Instant) : Nat := ((c.days * 24 + c.hour) * 60 + c.minute) * 60 + c.second

/-- No field is greater unless one before it is less. -/
def Ordered (a b : Instant) : Prop :=
  a.year < b.year ∨ a.year = b.year ∧ (a.day < b.day ∨ a.day = b.day ∧
    (a.hour < b.hour ∨ a.hour = b.hour ∧ (a.minute < b.minute ∨ a.minute = b.minute ∧
      a.second ≤ b.second)))

theorem days_lt_of_year_lt {a b : Instant} (h : a.year < b.year) : a.days < b.days := by
  have hstep := daysBefore_mono h
  have hle := a.day_le
  have hpos := a.day_pos
  rw [daysBefore] at hstep
  unfold days
  omega

theorem ordered_of_le {a b : Instant} (h : a.seconds ≤ b.seconds) : Ordered a b := by
  have hb := b.hour_lt
  have hmb := b.minute_lt
  have hsb := b.second_lt
  have hda := a.day_pos
  have hdb := b.day_pos
  unfold seconds at h
  unfold Ordered
  rcases Nat.lt_trichotomy a.year b.year with hy | hy | hy
  · exact .inl hy
  · -- in one year the days are those of the year
    have hdays : a.days + b.day = b.days + a.day := by
      unfold days
      rw [hy]
      omega
    omega
  · have hdays := days_lt_of_year_lt hy
    omega

theorem year_lt_of_seconds_lt {c : Instant} {year : Nat}
    (h : c.seconds < daysBefore year * 86400) : c.year < year := by
  by_contra hge
  have hmono := daysBefore_mono (Nat.le_of_not_lt hge)
  unfold seconds days at h
  omega

end Instant

end CfsEds.Lib.Calendar
