/-
  The Gregorian calendar.

  A date is a year, a month and a day that exist together; its ordinal counts the days since
  0001-01-01.  The rules are those of the calendar itself: every fourth year is a leap year, but of
  the hundredth ones only every fourth.

  1. **Lengths** of years and months, and the days before each of them.
  2. **Dates** (`exists_date`): every day number is the ordinal of a date.
  3. **What comes round** (`yearly`, `monthly_weekday`, `every_weekday`): every date but 29 February
     returns within 366 days, every month has every weekday within its first seven days, and every
     date falls on every weekday in some year.
-/
import Mathlib.Order.Basic
import Mathlib.Tactic.IntervalCases

namespace Air780eHub.Gregorian

/-! ## Lengths -/

def leap (year : Nat) : Bool := year % 4 = 0 ∧ (year % 100 ≠ 0 ∨ year % 400 = 0)

def yearLength (year : Nat) : Nat := if leap year then 366 else 365

/-- The days of a month in a common or a leap year. -/
def monthLength (leap : Bool) : Nat → Nat
  | 2              => if leap then 29 else 28
  | 4 | 6 | 9 | 11 => 30
  | _              => 31

/-- The days of the years 1 to `year`. -/
def daysThrough : Nat → Nat
  | 0     => 0
  | y + 1 => daysThrough y + yearLength (y + 1)

/-- The days of a year before the month `month + 1`. -/
def daysBefore (leap : Bool) : Nat → Nat
  | 0     => 0
  | m + 1 => daysBefore leap m + monthLength leap (m + 1)

theorem yearLength_ge (year : Nat) : 365 ≤ yearLength year := by
  rw [yearLength]
  split <;> omega

theorem yearLength_le (year : Nat) : yearLength year ≤ 366 := by
  rw [yearLength]
  split <;> omega

/-- The leap days among the years 1 to `y`, counted by the rule. -/
theorem daysThrough_eq (y : Nat) : daysThrough y + y / 100 = 365 * y + y / 4 + y / 400 := by
  induction y with
  | zero => rfl
  | succ y ih =>
    rw [daysThrough, yearLength, Nat.succ_div, Nat.succ_div, Nat.succ_div]
    have hcentury : 100 ∣ y + 1 → 4 ∣ y + 1 := Nat.dvd_trans (by decide)
    have hage : 400 ∣ y + 1 → 100 ∣ y + 1 := Nat.dvd_trans (by decide)
    have hleap : leap (y + 1) = true ↔ 4 ∣ y + 1 ∧ (¬ 100 ∣ y + 1 ∨ 400 ∣ y + 1) := by
      simp only [leap, decide_eq_true_eq, Nat.dvd_iff_mod_eq_zero, ne_eq]
    simp only [hleap]
    by_cases h4 : 4 ∣ y + 1
    · by_cases h100 : 100 ∣ y + 1
      · by_cases h400 : 400 ∣ y + 1
        · simp only [h4, h100, h400, if_true, not_true, false_or, and_self]
          omega
        · simp only [h4, h100, h400, if_true, if_false, not_true, or_self, and_false]
          omega
      · have h400 : ¬ 400 ∣ y + 1 := fun h => h100 (hage h)
        simp only [h4, h100, h400, if_true, if_false, not_false_eq_true, true_or, and_self]
        omega
    · have h100 : ¬ 100 ∣ y + 1 := fun h => h4 (hcentury h)
      have h400 : ¬ 400 ∣ y + 1 := fun h => h100 (hage h)
      simp only [h4, h100, h400, if_false, false_and]
      omega

/-- The twelve months make up the year. -/
theorem daysBefore_year (year : Nat) : daysBefore (leap year) 12 = yearLength year := by
  rw [yearLength]
  cases leap year <;> rfl

theorem monthLength_common_le (l : Bool) (m : Nat) : monthLength false m ≤ monthLength l m := by
  cases l with
  | false => exact le_rfl
  | true =>
    unfold monthLength
    split <;> simp

/-- Every month has its first four weeks. -/
theorem monthLength_ge (l : Bool) (m : Nat) : 28 ≤ monthLength l m := by
  refine le_trans ?_ (monthLength_common_le l m)
  unfold monthLength
  split <;> simp

theorem monthLength_le (l : Bool) (m : Nat) : monthLength l m ≤ 31 := by
  cases l <;> (unfold monthLength; split <;> simp)

theorem monthLength_le_leap (l : Bool) (m : Nat) : monthLength l m ≤ monthLength true m := by
  cases l with
  | true  => exact le_rfl
  | false => exact monthLength_common_le true m

/-- 29 February is the only date that not every year has. -/
theorem monthLength_common {l : Bool} {m d : Nat} (h : d ≤ monthLength l m) :
    d ≤ monthLength false m ∨ (m = 2 ∧ d = 29) := by
  by_cases hm : m = 2
  · subst hm
    cases l with
    | false => exact .inl h
    | true =>
      have h' : d ≤ 29 := h
      show d ≤ 28 ∨ _
      omega
  · left
    refine h.trans (Eq.le ?_)
    unfold monthLength
    split
    · exact absurd rfl hm
    all_goals rfl

theorem daysBefore_mono {l : Bool} {m m' : Nat} (h : m ≤ m') : daysBefore l m ≤ daysBefore l m' := by
  induction h with
  | refl => exact le_rfl
  | step _ ih => exact le_trans ih (Nat.le_add_right _ _)

/-- Before a month lies at most one leap day. -/
theorem daysBefore_leap (m : Nat) :
    daysBefore false m ≤ daysBefore true m ∧ daysBefore true m ≤ daysBefore false m + 1 := by
  have hfirst : daysBefore true 1 = daysBefore false 1 := rfl
  have hrest : ∀ k, daysBefore true (k + 2) = daysBefore false (k + 2) + 1 := by
    intro k
    induction k with
    | zero => rfl
    | succ k ih =>
      -- only February has two lengths
      have hsame : monthLength true (k + 3) = monthLength false (k + 3) := by
        unfold monthLength
        split <;> simp_all
      show daysBefore true (k + 2) + monthLength true (k + 3)
        = daysBefore false (k + 2) + monthLength false (k + 3) + 1
      omega
  match m with
  | 0     => decide
  | 1     => omega
  | k + 2 => have := hrest k; omega

/-! ## Dates -/

structure Date where
  year  : Nat
  month : Nat
  day   : Nat
  year_pos  : 1 ≤ year
  month_pos : 1 ≤ month
  month_le  : month ≤ 12
  day_pos   : 1 ≤ day
  day_le    : day ≤ monthLength (leap year) month

namespace Date

/-- The place of a date within its year, from 0 on. -/
def dayOfYear (d : Date) : Nat := daysBefore (leap d.year) (d.month - 1) + (d.day - 1)

/-- The days since 0001-01-01. -/
def ordinal (d : Date) : Nat := daysThrough (d.year - 1) + d.dayOfYear

/-- Sunday is 0, and 0001-01-01 was a Monday. -/
def weekday (d : Date) : Nat := (d.ordinal + 1) % 7

theorem dayOfYear_lt (d : Date) : d.dayOfYear < yearLength d.year := by
  have hm := d.month_pos
  have hd := d.day_pos
  have hle := d.day_le
  have hstep : daysBefore (leap d.year) (d.month - 1) + monthLength (leap d.year) d.month
      = daysBefore (leap d.year) d.month := by
    obtain ⟨m, hm'⟩ := Nat.exists_eq_add_of_le' hm
    rw [hm']
    rfl
  have hyear : daysBefore (leap d.year) d.month ≤ yearLength d.year := by
    rw [← daysBefore_year]
    exact daysBefore_mono d.month_le
  rw [dayOfYear]
  omega

theorem day_le_31 (d : Date) : d.day ≤ 31 := d.day_le.trans (monthLength_le _ _)

theorem weekday_lt (d : Date) : d.weekday < 7 := Nat.mod_lt _ (by decide)

/-- The dates of a year fill its days. -/
theorem ordinal_bounds (d : Date) :
    daysThrough (d.year - 1) ≤ d.ordinal ∧ d.ordinal < daysThrough d.year := by
  have hlt := d.dayOfYear_lt
  have hsucc : daysThrough d.year = daysThrough (d.year - 1) + yearLength d.year := by
    obtain ⟨y, hy⟩ := Nat.exists_eq_add_of_le' d.year_pos
    rw [hy]
    rfl
  rw [ordinal]
  omega

end Date

/-- A day number lies in one year. -/
theorem exists_year (n : Nat) : ∃ y, daysThrough y ≤ n ∧ n < daysThrough (y + 1) := by
  induction n with
  | zero => exact ⟨0, by decide, by decide⟩
  | succ n ih =>
    obtain ⟨y, hlo, hhi⟩ := ih
    have hnext : daysThrough (y + 2) = daysThrough (y + 1) + yearLength (y + 2) := rfl
    have hge := yearLength_ge (y + 2)
    by_cases h : n + 1 < daysThrough (y + 1)
    · exact ⟨y, by omega, h⟩
    · exact ⟨y + 1, by omega, by rw [hnext]; omega⟩

/-- A day of the year lies in one month. -/
theorem exists_month (l : Bool) {n : Nat} (m : Nat) (h : n < daysBefore l m) :
    ∃ k < m, daysBefore l k ≤ n ∧ n < daysBefore l (k + 1) := by
  induction m with
  | zero => exact absurd h (Nat.not_lt_zero _)
  | succ m ih =>
    by_cases hlt : n < daysBefore l m
    · obtain ⟨k, hk, hb⟩ := ih hlt
      exact ⟨k, by omega, hb⟩
    · exact ⟨m, Nat.lt_succ_self m, by omega, h⟩

/-- **Every day number is the ordinal of a date.** -/
theorem exists_date (n : Nat) : ∃ d : Date, d.ordinal = n := by
  obtain ⟨y, hlo, hhi⟩ := exists_year n
  have hlen : daysThrough (y + 1) = daysThrough y + yearLength (y + 1) := rfl
  rw [← daysBefore_year] at hlen
  obtain ⟨m, hm, hmlo, hmhi⟩ := exists_month (leap (y + 1)) (n := n - daysThrough y) 12 (by omega)
  have hmlen : daysBefore (leap (y + 1)) (m + 1)
      = daysBefore (leap (y + 1)) m + monthLength (leap (y + 1)) (m + 1) := rfl
  refine ⟨⟨y + 1, m + 1, n - daysThrough y - daysBefore (leap (y + 1)) m + 1,
    by omega, by omega, by omega, by omega, by omega⟩, ?_⟩
  show daysThrough y + (daysBefore (leap (y + 1)) m
    + (n - daysThrough y - daysBefore (leap (y + 1)) m + 1 - 1)) = n
  omega

/-! ## What comes round -/

/-- The date of a common year's month and day in any year. -/
def Date.inYear (year month day : Nat) (hy : 1 ≤ year) (hm : 1 ≤ month ∧ month ≤ 12)
    (hd : 1 ≤ day ∧ day ≤ monthLength false month) : Date :=
  ⟨year, month, day, hy, hm.1, hm.2, hd.1, hd.2.trans (monthLength_common_le _ _)⟩

/-- **Every date but 29 February returns within 366 days.** -/
theorem yearly (s : Nat) {month day : Nat} (hm : 1 ≤ month ∧ month ≤ 12)
    (hd : 1 ≤ day ∧ day ≤ monthLength false month) :
    ∃ d : Date, d.month = month ∧ d.day = day ∧ s ≤ d.ordinal ∧ d.ordinal < s + 366 := by
  obtain ⟨y, hlo, hhi⟩ := exists_year s
  -- this year's date, or next year's where this year's is past
  let d := Date.inYear (y + 1) month day (by omega) hm hd
  let e := Date.inYear (y + 2) month day (by omega) hm hd
  have hdb : daysThrough y ≤ d.ordinal ∧ d.ordinal < daysThrough (y + 1) := d.ordinal_bounds
  have hlen : daysThrough (y + 1) = daysThrough y + yearLength (y + 1) := rfl
  have hle := yearLength_le (y + 1)
  by_cases hpast : s ≤ d.ordinal
  · exact ⟨d, rfl, rfl, hpast, by omega⟩
  · have heb : daysThrough (y + 1) ≤ e.ordinal ∧ e.ordinal < daysThrough (y + 2) :=
      e.ordinal_bounds
    refine ⟨e, rfl, rfl, by omega, ?_⟩
    have hdo : d.ordinal = daysThrough y + (daysBefore (leap (y + 1)) (month - 1) + (day - 1)) := rfl
    have heo : e.ordinal
        = daysThrough (y + 1) + (daysBefore (leap (y + 2)) (month - 1) + (day - 1)) := rfl
    have hmonths : daysBefore (leap (y + 2)) (month - 1) + yearLength (y + 1)
        ≤ daysBefore (leap (y + 1)) (month - 1) + 366 := by
      have hgap := daysBefore_leap (month - 1)
      rw [yearLength]
      by_cases hl : leap (y + 1) = true
      · -- no two years in a row have a leap day
        have hn : leap (y + 2) = false := by
          simp only [leap, decide_eq_true_eq, decide_eq_false_iff_not] at hl ⊢
          omega
        rw [if_pos hl, hl, hn]
        omega
      · have hf : leap (y + 1) = false := Bool.eq_false_iff.mpr hl
        rw [if_neg hl, hf]
        cases leap (y + 2) <;> omega
    omega

/-- **Every month has every weekday among its first seven days.** -/
theorem monthly_weekday (s : Nat) {month weekday : Nat} (hm : 1 ≤ month ∧ month ≤ 12)
    (hk : weekday < 7) :
    ∃ d : Date, d.month = month ∧ d.weekday = weekday ∧ s ≤ d.ordinal ∧ d.ordinal < s + 372 := by
  have hlen := monthLength_ge false month
  have hfirst : 1 ≤ 1 ∧ 1 ≤ monthLength false month := ⟨le_rfl, by omega⟩
  obtain ⟨d, rfl, hday, hlo, hhi⟩ := yearly s hm hfirst
  -- the weekday comes `j` days after the first of the month
  let j := (weekday + 7 - d.weekday) % 7
  have hj : j < 7 := Nat.mod_lt _ (by decide)
  have hlen' := monthLength_ge (leap d.year) d.month
  let e : Date := ⟨d.year, d.month, 1 + j, d.year_pos, d.month_pos, d.month_le, by omega, by omega⟩
  have he : e.ordinal = d.ordinal + j := by
    show daysThrough (d.year - 1) + (daysBefore (leap d.year) (d.month - 1) + (1 + j - 1))
      = daysThrough (d.year - 1) + (daysBefore (leap d.year) (d.month - 1) + (d.day - 1)) + j
    omega
  refine ⟨e, rfl, ?_, by omega, by omega⟩
  have hd : d.weekday = (d.ordinal + 1) % 7 := rfl
  have hj' : j = (weekday + 7 - d.weekday) % 7 := rfl
  rw [Date.weekday, he]
  omega

/-- Four years without a missing leap day. -/
theorem daysThrough_leaps {i : Nat} (hi : i < 7) :
    daysThrough (2003 + 4 * i) = daysThrough 2003 + 1461 * i := by
  have h₀ := daysThrough_eq 2003
  have h := daysThrough_eq (2003 + 4 * i)
  omega

/-- **Every date falls on every weekday in some year.**  From one leap year to the next within a
    century the weekday advances by five. -/
theorem every_weekday {month day weekday : Nat} (hm : 1 ≤ month ∧ month ≤ 12)
    (hd : 1 ≤ day ∧ day ≤ monthLength true month) (hk : weekday < 7) :
    ∃ d : Date, d.month = month ∧ d.day = day ∧ d.weekday = weekday := by
  let n := daysBefore true (month - 1) + (day - 1)
  let i := 3 * (weekday + 7 - (daysThrough 2003 + n + 1) % 7) % 7
  have hi : i < 7 := Nat.mod_lt _ (by decide)
  have hl : leap (2004 + 4 * i) = true := by
    simp only [leap, decide_eq_true_eq]
    omega
  refine ⟨⟨2004 + 4 * i, month, day, by omega, hm.1, hm.2, hd.1, by rw [hl]; exact hd.2⟩,
    rfl, rfl, ?_⟩
  have hyears := daysThrough_leaps hi
  have hord : 2004 + 4 * i - 1 = 2003 + 4 * i := by omega
  -- three is the inverse of five modulo seven
  have hsolve : ∀ r < 7, ∀ w < 7, (r + 1461 * (3 * (w + 7 - r) % 7)) % 7 = w := by decide
  show (daysThrough (2004 + 4 * i - 1) + (daysBefore (leap (2004 + 4 * i)) (month - 1) + (day - 1))
    + 1) % 7 = weekday
  rw [hl, hord]
  show (daysThrough (2003 + 4 * i) + n + 1) % 7 = weekday
  have hsum : daysThrough 2003 + 1461 * i + n + 1 = daysThrough 2003 + n + 1 + 1461 * i := by omega
  rw [hyears, hsum, ← Nat.mod_add_mod]
  exact hsolve _ (Nat.mod_lt _ (by decide)) weekday hk

end Air780eHub.Gregorian
