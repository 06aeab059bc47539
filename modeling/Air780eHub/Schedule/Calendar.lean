/-
  The days a cron search looks at, as dates.

  `Time` computes month and day of a day number by the cycle arithmetic of the standard library.
  1. **The bridge** (`civil_ordinal`): that arithmetic is the Gregorian calendar.
  2. **Vixie's rule** (`Cron.Names`): what a crontab line says about a date, an hour and a minute.
     `dayMatches_iff` shows that `Cron.day_matches` decides it for every parsed expression.
-/
import Air780eHub.Lib.Gregorian
import Air780eHub.Schedule.Cron

namespace Air780eHub.Schedule

open Gregorian (Date)

/-! ## The bridge -/

/-- The month guess hits, for every day of both kinds of year. -/
theorem monthDay_eq : ∀ l : Bool, ∀ m < 12, ∀ d < Gregorian.monthLength l (m + 1),
    monthDay l (Gregorian.daysBefore l m + d) = (m + 1, d + 1) := by
  decide +kernel

theorem monthDay_date (d : Date) : monthDay (Gregorian.leap d.year) d.dayOfYear = (d.month, d.day) := by
  have hm := d.month_pos
  have hm' := d.month_le
  have hd := d.day_pos
  have hd' := d.day_le
  have h := monthDay_eq (Gregorian.leap d.year) (d.month - 1) (by omega) (d.day - 1)
  rw [Nat.sub_add_cancel hm, Nat.sub_add_cancel hd] at h
  exact h (by omega)

/-- The digits of a day number: cycles of 400, 100 and 4 years, years, and the day of the year. -/
theorem civil_digits {a b c e k : Nat} (hb : b ≤ 3) (hc : c ≤ 24) (he : e ≤ 3) (hk : k < 365) :
    civil (146097 * a + 36524 * b + 1461 * c + 365 * e + k)
      = monthDay (e = 3 ∧ (c ≠ 24 ∨ b = 3) : Bool) k := by
  have h400 : (146097 * a + 36524 * b + 1461 * c + 365 * e + k) % 146097
      = 36524 * b + (1461 * c + (365 * e + k)) := by omega
  have h100 : (36524 * b + (1461 * c + (365 * e + k))) / 36524 = b := by omega
  have h100' : (36524 * b + (1461 * c + (365 * e + k))) % 36524 = 1461 * c + (365 * e + k) := by omega
  have h4 : (1461 * c + (365 * e + k)) / 1461 = c := by omega
  have h4' : (1461 * c + (365 * e + k)) % 1461 = 365 * e + k := by omega
  have h1 : (365 * e + k) / 365 = e := by omega
  have h1' : (365 * e + k) % 365 = k := by omega
  rw [civil, h400, h100', h100, h4', h4, h1, h1', if_neg (by omega)]

/-- The last day of a leap year ends a cycle of 4 or of 400 years. -/
theorem civil_last {a b c : Nat} (hb : b ≤ 3) (hc : c ≤ 24) (h : c ≠ 24 ∨ b = 3) :
    civil (146097 * a + 36524 * b + 1461 * c + 365 * 3 + 365) = (12, 31) := by
  rw [civil, if_pos]
  have h400 : (146097 * a + 36524 * b + 1461 * c + 365 * 3 + 365) % 146097
      = 36524 * b + (1461 * c + 1460) := by omega
  rw [h400]
  by_cases hcycle : c = 24
  · right
    omega
  · left
    have hlt : 1461 * c + 1460 < 36524 := by omega
    rw [Nat.mul_add_mod, Nat.mod_eq_of_lt hlt, Nat.mul_add_mod]

/-- The cycle arithmetic finds the year. -/
theorem civil_eq (y k : Nat) (hk : k < Gregorian.yearLength (y + 1)) :
    civil (Gregorian.daysThrough y + k) = monthDay (Gregorian.leap (y + 1)) k := by
  obtain ⟨a, b, c, e, hb, hc, he, rfl⟩ : ∃ a b c e, b ≤ 3 ∧ c ≤ 24 ∧ e ≤ 3
      ∧ y = 400 * a + 100 * b + 4 * c + e :=
    ⟨y / 400, y % 400 / 100, y % 100 / 4, y % 4, by omega, by omega, by omega, by omega⟩
  have hdays : Gregorian.daysThrough (400 * a + 100 * b + 4 * c + e)
      = 146097 * a + 36524 * b + 1461 * c + 365 * e := by
    have hy := Gregorian.daysThrough_eq (400 * a + 100 * b + 4 * c + e)
    have h4 : (400 * a + 100 * b + 4 * c + e) / 4 = 100 * a + 25 * b + c := by omega
    have h100 : (400 * a + 100 * b + 4 * c + e) / 100 = 4 * a + b := by omega
    have h400 : (400 * a + 100 * b + 4 * c + e) / 400 = a := by omega
    omega
  have hleap : Gregorian.leap (400 * a + 100 * b + 4 * c + e + 1)
      = (e = 3 ∧ (c ≠ 24 ∨ b = 3) : Bool) := by
    rw [Gregorian.leap, decide_eq_decide]
    omega
  rw [hdays]
  by_cases hlast : k = 365
  · rw [Gregorian.yearLength, hleap] at hk
    have hl : e = 3 ∧ (c ≠ 24 ∨ b = 3) := by
      by_contra hno
      rw [if_neg (by simpa using hno)] at hk
      omega
    obtain ⟨rfl, hl⟩ := hl
    rw [hlast, civil_last hb hc hl, hleap, decide_eq_true ⟨rfl, hl⟩]
    decide
  · have hle := Gregorian.yearLength_le (400 * a + 100 * b + 4 * c + e + 1)
    rw [civil_digits hb hc he (by omega), hleap]

/-- **The standard library's calendar is the Gregorian one.** -/
theorem civil_ordinal (d : Date) : civil d.ordinal = (d.month, d.day) := by
  obtain ⟨y, hy⟩ := Nat.exists_eq_add_of_le' d.year_pos
  have hlt := d.dayOfYear_lt
  rw [← monthDay_date, Date.ordinal, hy, Nat.add_sub_cancel]
  rw [hy] at hlt
  exact civil_eq y d.dayOfYear hlt

@[simp] theorem month_ordinal (d : Date) : month (d.ordinal : Int) = d.month :=
  congrArg Prod.fst (civil_ordinal d)

@[simp] theorem dayOfMonth_ordinal (d : Date) : dayOfMonth (d.ordinal : Int) = d.day :=
  congrArg Prod.snd (civil_ordinal d)

@[simp] theorem cronWeekday_ordinal (d : Date) : cronWeekday (d.ordinal : Int) = d.weekday := by
  show (d.ordinal % 7 + 1) % 7 = (d.ordinal + 1) % 7
  omega

/-! ## Vixie's rule -/

/-- How the two day fields combine: where one of them begins with a star both must agree, otherwise
    either one is enough. -/
def Combined (starred : Bool) (dom dow : Prop) : Prop :=
  (starred = true → dom ∧ dow) ∧ (starred = false → dom ∨ dow)

/-- An expression names a date. -/
def Cron.NamesDay (c : Cron) (d : Date) : Prop :=
  d.month ∈ c.months.values
    ∧ Combined (c.domAny || c.dowAny) (d.day ∈ c.doms.values) (d.weekday ∈ c.dows.values)

/-- An expression names a whole minute. -/
def Cron.Names (c : Cron) (d : Date) (hour minute : Nat) : Prop :=
  c.NamesDay d ∧ hour ∈ c.hours.values ∧ minute ∈ c.minutes.values

/-- What the parser promises: every field names something, and a `*` names every day. -/
structure Cron.Parsed (c : Cron) : Prop where
  minute : ∃ m, m ∈ c.minutes.values
  hour   : ∃ h, h ∈ c.hours.values
  month  : ∃ m, m ∈ c.months.values
  dow    : ∃ w, w ∈ c.dows.values
  domAny : c.domAny = true → ∀ v, 1 ≤ v → v ≤ 31 → v ∈ c.doms.values
  dowAny : c.dowAny = true → ∀ v, v ≤ 6 → v ∈ c.dows.values

theorem mem_sundays {f : Field 0 7} {v : Nat} :
    v ∈ (sundays f).values ↔ v ≤ 6 ∧ (v ∈ f.values ∨ (v = 0 ∧ 7 ∈ f.values)) := by
  simp only [sundays, Field.mem_ofPred, decide_eq_true_eq, Nat.zero_le, true_and]

theorem parseCron_parsed {expression : List Char} {c : Cron} (h : parseCron expression = .ok c) :
    c.Parsed := by
  obtain ⟨_, _, _, _, _, -, minutes, hours, doms, months, dows, h₁, h₂, h₃, h₄, h₅, rfl⟩ :=
    parseCron_eq_ok.mp h
  obtain ⟨w, hw⟩ := (parseField_values (by decide) h₅).1
  refine ⟨(parseField_values (by decide) h₁).1, (parseField_values (by decide) h₂).1,
    (parseField_values (by decide) h₄).1, ?_, (parseField_values (by decide) h₃).2, ?_⟩
  · -- 7 is folded to 0
    have hle := (dows.1.bounded w hw).2
    by_cases h7 : w = 7
    · exact ⟨0, mem_sundays.mpr ⟨by omega, .inr ⟨rfl, h7 ▸ hw⟩⟩⟩
    · exact ⟨w, mem_sundays.mpr ⟨by omega, .inl hw⟩⟩
  · intro hany v hv
    have hall := (parseField_values (by decide) h₅).2 hany v (by omega) (by omega)
    exact mem_sundays.mpr ⟨hv, .inl hall⟩

/-- **`Cron.day_matches` decides Vixie's rule.** -/
theorem dayMatches_iff {c : Cron} (hc : c.Parsed) (d : Date) :
    c.dayMatches (d.ordinal : Int) = true ↔ c.NamesDay d := by
  have hdom := fun h => hc.domAny h d.day d.day_pos d.day_le_31
  have hdow := fun h => hc.dowAny h d.weekday (Nat.le_of_lt_succ d.weekday_lt)
  rw [Cron.dayMatches, Cron.NamesDay, Combined, month_ordinal, dayOfMonth_ordinal,
    cronWeekday_ordinal]
  by_cases hm : d.month ∈ c.months.values
  · rw [if_neg (not_not_intro hm)]
    cases ha : c.domAny with
    | true =>
      cases hw : c.dowAny with
      | true => simp [hm, hdom ha, hdow hw]
      | false => simp [hm, hdom ha]
    | false =>
      cases hw : c.dowAny with
      | true => simp [hm, hdow hw]
      | false => simp [hm]
  · rw [if_pos hm]
    simp [hm]

/-- A wall clock from year 1 on is named by the expression when the search visits it. -/
theorem fires_iff {c : Cron} (hc : c.Parsed) {w : Int} (hw : 0 ≤ w) :
    c.Fires w ↔ ∃ d hour minute, w = atTime d.ordinal hour minute ∧ c.Names d hour minute := by
  constructor
  · rintro ⟨hday, hmem⟩
    obtain ⟨hour, hh, minute, hm, heq⟩ := Cron.mem_times.mp hmem
    obtain ⟨d, hd⟩ := Gregorian.exists_date (w / DAY).toNat
    have hd' : w / DAY = (d.ordinal : Int) := by
      have hnn := Int.ediv_nonneg hw (show (0 : Int) ≤ DAY by decide)
      omega
    rw [hd'] at hday heq
    exact ⟨d, hour, minute, heq, (dayMatches_iff hc d).mp hday, hh, hm⟩
  · rintro ⟨d, hour, minute, rfl, hday, hh, hm⟩
    have hmem : atTime d.ordinal hour minute ∈ c.times d.ordinal :=
      Cron.mem_times.mpr ⟨hour, hh, minute, hm, rfl⟩
    have hdiv := Cron.times_div hmem
    rw [Cron.Fires, hdiv]
    exact ⟨(dayMatches_iff hc d).mpr hday, hmem⟩

end Air780eHub.Schedule
