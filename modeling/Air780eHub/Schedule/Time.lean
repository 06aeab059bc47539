/-
  Time arithmetic of the schedule code (`schedule.py`, over the language's `datetime`).

  An aware datetime is a wall clock in microseconds since 0001-01-01 and the offset of its zone; two
  of them compare by the instant, `wall - offset`.  Arithmetic moves the wall clock and raises
  OverflowError when it leaves the years 1 to 9999.

  1. **Datetimes** and their arithmetic.
  2. **The calendar**: month, day and weekday of a day number, by the cycle arithmetic the standard
     library uses.
-/
import Mathlib.Data.List.Basic

namespace Air780eHub.Schedule

/-! ## Datetimes -/

/-- What a computation raised. -/
inductive Failure
  | scheduleError | valueError | overflowError
deriving DecidableEq

/-- A minute and a day, in microseconds. -/
def MINUTE : Int := 60000000

def DAY : Int := 86400000000

/-- The number of days in the years 1 to 9999. -/
def MAX_DAYS : Int := 3652059

/-- An aware datetime. -/
structure DateTime where
  wall   : Int
  offset : Int
deriving DecidableEq

namespace DateTime

/-- The instant. -/
def utc (t : DateTime) : Int := t.wall - t.offset

/-- `t + timedelta(microseconds=d)`. -/
def add (t : DateTime) (d : Int) : Except Failure DateTime :=
  if 0 ≤ t.wall + d ∧ t.wall + d < MAX_DAYS * DAY then .ok ⟨t.wall + d, t.offset⟩
  else .error .overflowError

/-- `t.replace(second=0, microsecond=0)`. -/
def minute (t : DateTime) : DateTime := ⟨t.wall - t.wall % 60000000, t.offset⟩

/-- What `_iso(t)` stores and `_parse` reads back: whole seconds. -/
def stamp (t : DateTime) : DateTime := ⟨t.wall - t.wall % 1000000, t.offset⟩

/-- `t.date()`, as the number of days since 0001-01-01. -/
def date (t : DateTime) : Int := t.wall / DAY

theorem add_eq_ok {t u : DateTime} {d : Int} (h : t.add d = .ok u) :
    u.wall = t.wall + d ∧ u.offset = t.offset := by
  rw [add] at h
  split at h
  · have he := Except.ok.inj h
    rw [← he]
    exact ⟨rfl, rfl⟩
  · cases h

theorem add_eq_error {t : DateTime} {d : Int} {e : Failure} (h : t.add d = .error e) :
    e = .overflowError := by
  rw [add] at h
  split at h
  · cases h
  · exact (Except.error.inj h).symm

theorem add_overflows {t : DateTime} {d : Int} :
    t.add d = .error .overflowError ↔ t.wall + d < 0 ∨ MAX_DAYS * DAY ≤ t.wall + d := by
  by_cases hin : 0 ≤ t.wall + d ∧ t.wall + d < MAX_DAYS * DAY
  · rw [add, if_pos hin]
    exact ⟨fun h => by injection h, fun h => by omega⟩
  · rw [add, if_neg hin]
    exact ⟨fun _ => by omega, fun _ => rfl⟩

end DateTime

/-! ## The calendar -/

/-- `_DAYS_IN_MONTH`, of a common year. -/
def DAYS_IN_MONTH : List Nat := [0, 31, 28, 31, 30, 31, 30, 31, 31, 30, 31, 30, 31]

/-- `_DAYS_BEFORE_MONTH`, of a common year. -/
def DAYS_BEFORE_MONTH : List Nat := [0, 0, 31, 59, 90, 120, 151, 181, 212, 243, 273, 304, 334]

/-- The length of a month. -/
def monthDays (leap : Bool) (month : Nat) : Nat :=
  DAYS_IN_MONTH.getD month 0 + if month = 2 ∧ leap then 1 else 0

/-- The days of a year before a month. -/
def daysBefore (leap : Bool) (month : Nat) : Nat :=
  DAYS_BEFORE_MONTH.getD month 0 + if 2 < month ∧ leap then 1 else 0

/-- Month and day within a year, from the day of the year: the guess `(n + 50) >> 5` is the month
    or one too far. -/
def monthDay (leap : Bool) (n : Nat) : Nat × Nat :=
  if n < daysBefore leap ((n + 50) / 32) then
    ((n + 50) / 32 - 1,
      n - (daysBefore leap ((n + 50) / 32) - monthDays leap ((n + 50) / 32 - 1)) + 1)
  else ((n + 50) / 32, n - daysBefore leap ((n + 50) / 32) + 1)

/-- Month and day of the `n`-th day since 0001-01-01. -/
def civil (n : Nat) : Nat × Nat :=
  -- cycles of 400, 100, 4 years and single years
  if n % 146097 % 36524 % 1461 / 365 = 4 ∨ n % 146097 / 36524 = 4 then (12, 31)
  else
    monthDay
      (n % 146097 % 36524 % 1461 / 365 = 3
        ∧ (n % 146097 % 36524 / 1461 ≠ 24 ∨ n % 146097 / 36524 = 3) : Bool)
      (n % 146097 % 36524 % 1461 % 365)

/-- `day.month`. -/
def month (day : Int) : Nat := (civil day.toNat).1

/-- `day.day`. -/
def dayOfMonth (day : Int) : Nat := (civil day.toNat).2

/-- `(day.weekday() + 1) % 7`: Sunday is 0, and 0001-01-01 was a Monday. -/
def cronWeekday (day : Int) : Nat := (day.toNat % 7 + 1) % 7

-- 2024-02-29 was a Thursday
example : (month 738944, dayOfMonth 738944, cronWeekday 738944) = (2, 29, 4) := by decide

end Air780eHub.Schedule
