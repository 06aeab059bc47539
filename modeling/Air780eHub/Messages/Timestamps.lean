/-
  Normalised timestamps (`to_utc_iso`): texts of one width that are in order as texts exactly when
  their moments are.

  A moment is a number of whole seconds since 0001-01-01T00:00:00 in UTC, within the years 1 to
  9999.  `isoformat` is `.astimezone(UTC).isoformat(timespec="seconds")`: every field has a fixed
  number of digits, the largest one first.
  1. **Fields** of digits, and how they compare.
  2. **Dates**: the year of a day number, and that dates are in the order of their day numbers.
  3. **`isoformat`** and its order (`isoformat_lt_iff`).
-/
import Mathlib.Data.String.Basic
import Mathlib.Data.List.Lex
import Air780eHub.Schedule.Calendar

namespace Air780eHub.Messages

open Gregorian (Date daysThrough daysBefore leap)

/-! ## Fields -/

/-- So many decimal digits of a number. -/
def digits : Nat → Nat → List Char
  | 0, _     => []
  | w + 1, n => digits w (n / 10) ++ [Nat.digitChar (n % 10)]

@[simp] theorem length_digits (w n : Nat) : (digits w n).length = w := by
  induction w generalizing n with
  | zero => rfl
  | succ w ih => rw [digits, List.length_append, ih, List.length_singleton]

theorem append_lt_append {a b c d : List Char} (hlen : a.length = b.length) (h : a < b) :
    a ++ c < b ++ d := by
  induction h with
  | nil => cases hlen
  | cons h ih => exact List.Lex.cons (ih (Nat.succ.inj hlen))
  | rel h => exact List.Lex.rel h

theorem digitChar_lt : ∀ m < 10, ∀ n < m, Nat.digitChar n < Nat.digitChar m := by decide

theorem digits_lt {w n m : Nat} (h : n < m) (hm : m < 10 ^ w) : digits w n < digits w m := by
  induction w generalizing n m with
  | zero =>
    rw [Nat.pow_zero] at hm
    omega
  | succ w ih =>
    rw [Nat.pow_succ] at hm
    rw [digits, digits]
    by_cases hlt : n / 10 < m / 10
    · exact append_lt_append (by rw [length_digits, length_digits]) (ih hlt (by omega))
    · rw [show n / 10 = m / 10 by omega]
      exact List.append_left_lt
        (List.Lex.rel (digitChar_lt (m % 10) (by omega) (n % 10) (by omega)))

/-- A field decides, or leaves it to what follows. -/
theorem field_lt {w n m : Nat} {rest rest' : List Char} (hm : m < 10 ^ w)
    (h : n < m ∨ n = m ∧ rest < rest') : digits w n ++ rest < digits w m ++ rest' := by
  rcases h with h | ⟨rfl, h⟩
  · exact append_lt_append (by rw [length_digits, length_digits]) (digits_lt h hm)
  · exact List.append_left_lt h

/-! ## Dates -/

/-- The year of a day number, by cycles of 400, 100 and 4 years. -/
def yearOf (n : Nat) : Nat :=
  let year := 400 * (n / 146097) + 100 * (n % 146097 / 36524) + 4 * (n % 146097 % 36524 / 1461) +
    n % 146097 % 36524 % 1461 / 365
  if n % 146097 % 36524 % 1461 / 365 = 4 ∨ n % 146097 / 36524 = 4 then year else year + 1

theorem yearOf_digits {a b c e k : Nat} (hb : b ≤ 3) (hc : c ≤ 24) (he : e ≤ 3) (hk : k < 365) :
    yearOf (146097 * a + 36524 * b + 1461 * c + 365 * e + k) =
      400 * a + 100 * b + 4 * c + e + 1 := by
  have h400 : (146097 * a + 36524 * b + 1461 * c + 365 * e + k) % 146097
      = 36524 * b + (1461 * c + (365 * e + k)) := by omega
  have hcycle : (146097 * a + 36524 * b + 1461 * c + 365 * e + k) / 146097 = a := by omega
  have h100 : (36524 * b + (1461 * c + (365 * e + k))) / 36524 = b := by omega
  have h100' : (36524 * b + (1461 * c + (365 * e + k))) % 36524 = 1461 * c + (365 * e + k) := by omega
  have h4 : (1461 * c + (365 * e + k)) / 1461 = c := by omega
  have h4' : (1461 * c + (365 * e + k)) % 1461 = 365 * e + k := by omega
  have h1 : (365 * e + k) / 365 = e := by omega
  unfold yearOf
  rw [h400, hcycle, h100', h100, h4', h4, h1, if_neg (by omega)]

/-- The last day of a leap year. -/
theorem yearOf_last {a b c : Nat} (hb : b ≤ 3) (hc : c ≤ 24) (h : c ≠ 24 ∨ b = 3) :
    yearOf (146097 * a + 36524 * b + 1461 * c + 365 * 3 + 365) =
      400 * a + 100 * b + 4 * c + 3 + 1 := by
  have h400 : (146097 * a + 36524 * b + 1461 * c + 365 * 3 + 365) % 146097
      = 36524 * b + (1461 * c + 1460) := by omega
  have hcycle : (146097 * a + 36524 * b + 1461 * c + 365 * 3 + 365) / 146097 = a := by omega
  by_cases hlast : c = 24
  · have hb3 : b = 3 := h.resolve_left fun hne => hne hlast
    subst hlast hb3
    unfold yearOf
    rw [h400, hcycle]
    rfl
  · have hlt : 1461 * c + 1460 < 36524 := by omega
    have h100 : (36524 * b + (1461 * c + 1460)) / 36524 = b := by
      rw [Nat.mul_add_div (by decide), Nat.div_eq_of_lt hlt, Nat.add_zero]
    have h100' : (36524 * b + (1461 * c + 1460)) % 36524 = 1461 * c + 1460 := by
      rw [Nat.mul_add_mod, Nat.mod_eq_of_lt hlt]
    have h4 : (1461 * c + 1460) / 1461 = c := by
      rw [Nat.mul_add_div (by decide)]
      rfl
    have h4' : (1461 * c + 1460) % 1461 = 1460 := by rw [Nat.mul_add_mod]
    have h1 : 1460 / 365 = 4 := by decide
    unfold yearOf
    rw [h400, hcycle, h100', h100, h4', h4, h1, if_pos (Or.inl rfl)]

theorem yearOf_eq (y k : Nat) (hk : k < Gregorian.yearLength (y + 1)) :
    yearOf (daysThrough y + k) = y + 1 := by
  obtain ⟨a, b, c, e, hb, hc, he, rfl⟩ : ∃ a b c e, b ≤ 3 ∧ c ≤ 24 ∧ e ≤ 3
      ∧ y = 400 * a + 100 * b + 4 * c + e :=
    ⟨y / 400, y % 400 / 100, y % 100 / 4, y % 4, by omega, by omega, by omega, by omega⟩
  have hdays : daysThrough (400 * a + 100 * b + 4 * c + e)
      = 146097 * a + 36524 * b + 1461 * c + 365 * e := by
    have hy := Gregorian.daysThrough_eq (400 * a + 100 * b + 4 * c + e)
    have h4 : (400 * a + 100 * b + 4 * c + e) / 4 = 100 * a + 25 * b + c := by omega
    have h100 : (400 * a + 100 * b + 4 * c + e) / 100 = 4 * a + b := by omega
    have h400 : (400 * a + 100 * b + 4 * c + e) / 400 = a := by omega
    omega
  rw [hdays]
  by_cases hlast : k = 365
  · have hleap : leap (400 * a + 100 * b + 4 * c + e + 1) = true := by
      by_contra hno
      rw [Gregorian.yearLength, if_neg hno] at hk
      omega
    rw [leap, decide_eq_true_eq] at hleap
    obtain rfl : e = 3 := by omega
    rw [hlast, yearOf_last hb hc (by omega)]
  · have hle := Gregorian.yearLength_le (400 * a + 100 * b + 4 * c + e + 1)
    rw [yearOf_digits hb hc he (by omega)]

theorem yearOf_ordinal (d : Date) : yearOf d.ordinal = d.year := by
  obtain ⟨y, hy⟩ := Nat.exists_eq_add_of_le' d.year_pos
  have hlt := d.dayOfYear_lt
  rw [hy] at hlt
  rw [Date.ordinal, hy, Nat.add_sub_cancel]
  exact yearOf_eq y d.dayOfYear hlt

theorem daysThrough_mono {y y' : Nat} (h : y ≤ y') : daysThrough y ≤ daysThrough y' := by
  induction h with
  | refl => exact Nat.le_refl _
  | step h ih => exact Nat.le_trans ih (Nat.le_add_right _ _)

/-- **Dates are in the order of their day numbers.** -/
theorem date_lt {d d' : Date} (h : d.ordinal < d'.ordinal) :
    d.year < d'.year ∨ d.year = d'.year ∧
      (d.month < d'.month ∨ d.month = d'.month ∧ d.day < d'.day) := by
  rcases Nat.lt_trichotomy d.year d'.year with hyear | hyear | hyear
  · exact Or.inl hyear
  · refine Or.inr ⟨hyear, ?_⟩
    have hdoy : d.dayOfYear < d'.dayOfYear := by
      rw [Date.ordinal, Date.ordinal, hyear] at h
      omega
    rw [Date.dayOfYear, Date.dayOfYear, hyear] at hdoy
    have hpos := d.day_pos
    have hpos' := d'.day_pos
    have hle' := d'.day_le
    rcases Nat.lt_trichotomy d.month d'.month with hmonth | hmonth | hmonth
    · exact Or.inl hmonth
    · rw [hmonth] at hdoy
      exact Or.inr ⟨hmonth, by omega⟩
    · -- the later month begins after the earlier one ends
      have hmono := Gregorian.daysBefore_mono (l := leap d'.year)
        (show d'.month ≤ d.month - 1 by omega)
      have hend : daysBefore (leap d'.year) d'.month = daysBefore (leap d'.year) (d'.month - 1) +
          Gregorian.monthLength (leap d'.year) d'.month := by
        obtain ⟨m, hm⟩ := Nat.exists_eq_add_of_le' d'.month_pos
        rw [hm]
        rfl
      omega
  · have hlo := d.ordinal_bounds.1
    have hhi := d'.ordinal_bounds.2
    have hmono := daysThrough_mono (show d'.year ≤ d.year - 1 by omega)
    omega

/-! ## isoformat -/

/-- The seconds of the years 1 to 9999. -/
def MAX_SECONDS : Nat := 3652059 * 86400

/-- The text of a day. -/
def isoDate (day : Nat) : List Char :=
  digits 4 (yearOf day) ++ '-' :: (digits 2 (Schedule.civil day).1 ++ '-' ::
    digits 2 (Schedule.civil day).2)

/-- The text of a moment in UTC. -/
def isoText (second : Nat) : List Char :=
  isoDate (second / 86400) ++ 'T' :: (digits 2 (second % 86400 / 3600) ++ ':' ::
    (digits 2 (second % 3600 / 60) ++ ':' :: (digits 2 (second % 60) ++ "+00:00".toList)))

/-- `.astimezone(UTC).isoformat(timespec="seconds")`. -/
def isoformat (second : Nat) : String := String.ofList (isoText second)

theorem length_isoDate (day : Nat) : (isoDate day).length = 10 := by simp [isoDate]

theorem length_isoText (second : Nat) : (isoText second).length = 25 := by
  simp [isoText, length_isoDate]

theorem isoDate_lt {n m : Nat} (h : n < m) (hm : m < 3652059) : isoDate n < isoDate m := by
  obtain ⟨d, hd⟩ := Gregorian.exists_date n
  obtain ⟨d', hd'⟩ := Gregorian.exists_date m
  unfold isoDate
  rw [← hd, ← hd', yearOf_ordinal, yearOf_ordinal, Schedule.civil_ordinal, Schedule.civil_ordinal]
  have hyear' : d'.year < 10000 := by
    by_contra hge
    have hlo := d'.ordinal_bounds.1
    have hmono := daysThrough_mono (show 9999 ≤ d'.year - 1 by omega)
    have hlast := Gregorian.daysThrough_eq 9999
    omega
  have hmonth := d'.month_le
  have hday := d'.day_le_31
  refine field_lt hyear' ?_
  rcases date_lt (show d.ordinal < d'.ordinal by omega) with hlt | ⟨heq, hrest⟩
  · exact Or.inl hlt
  · refine Or.inr ⟨heq, List.Lex.cons (field_lt (by omega) ?_)⟩
    rcases hrest with hlt | ⟨heq, hlt⟩
    · exact Or.inl hlt
    · exact Or.inr ⟨heq, List.Lex.cons (digits_lt hlt (by omega))⟩

theorem isoText_lt {s t : Nat} (h : s < t) (ht : t < MAX_SECONDS) : isoText s < isoText t := by
  have hmax : MAX_SECONDS = 3652059 * 86400 := rfl
  unfold isoText
  by_cases hday : s / 86400 < t / 86400
  · exact append_lt_append (by rw [length_isoDate, length_isoDate])
      (isoDate_lt hday (by omega))
  · have hsame : s / 86400 = t / 86400 := by omega
    rw [hsame]
    refine List.append_left_lt (List.Lex.cons (field_lt (by omega) ?_))
    by_cases hhour : s % 86400 / 3600 < t % 86400 / 3600
    · exact Or.inl hhour
    · refine Or.inr ⟨by omega, List.Lex.cons (field_lt (by omega) ?_)⟩
      by_cases hminute : s % 3600 / 60 < t % 3600 / 60
      · exact Or.inl hminute
      · exact Or.inr ⟨by omega, List.Lex.cons (field_lt (by omega) (Or.inl (by omega)))⟩

/-- **Normalised timestamps compare as their moments do.** -/
theorem isoformat_lt_iff {s t : Nat} (hs : s < MAX_SECONDS) (ht : t < MAX_SECONDS) :
    isoformat s < isoformat t ↔ s < t := by
  have hlt : ∀ {a b : Nat}, a < b → b < MAX_SECONDS → isoformat a < isoformat b := by
    intro a b hab hb
    rw [String.lt_iff_toList_lt]
    unfold isoformat
    rw [String.toList_ofList, String.toList_ofList]
    exact isoText_lt hab hb
  constructor
  · intro h
    rcases Nat.lt_trichotomy s t with h' | rfl | h'
    · exact h'
    · exact absurd h (lt_irrefl _)
    · exact absurd (lt_trans h (hlt h' hs)) (lt_irrefl _)
  · exact fun h => hlt h ht

example : isoformat 63902822399 = "2025-12-31T23:59:59+00:00" := by decide

end Air780eHub.Messages
