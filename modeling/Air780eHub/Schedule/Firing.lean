/-
  What `next_cron` answers, in terms of dates.

  1. **The answer** (`nextCron_first`): it is the first whole minute after the start that the
     expression names.
  2. **The silence** (`nextCron_silent_iff`): it reports that there is none when no day of the next
     400 has one.
  3. **What comes round in 400 days** (`named_soon`): a date the expression names returns within
     372 days, unless it is a 29 February.
  4. **When the report is right** (`nextCron_complete_iff`): unless the expression names nothing but
     29 February and the next one is too far away.  `nextCron_misses_leap_day` is such a start.
-/
import Air780eHub.Schedule.Calendar

namespace Air780eHub.Schedule

open Gregorian (Date)

/-! ## The answer -/

/-- The expression names the instant, in the zone of its wall clock. -/
def Cron.NamesAt (c : Cron) (t : DateTime) : Prop :=
  ∃ d hour minute, t.wall = atTime (Date.ordinal d) hour minute ∧ c.Names d hour minute

/-- `r` is the first instant after `after` that the expression names. -/
structure Cron.First (c : Cron) (after r : DateTime) : Prop where
  zone  : r.offset = after.offset
  later : after.utc < r.utc
  whole : r.minute = r
  names : c.NamesAt r
  least : ∀ t : DateTime, t.offset = after.offset → after.utc < t.utc → t.utc < r.utc
    → ¬ c.NamesAt t

theorem Cron.NamesAt.nonneg {c : Cron} {t : DateTime} (h : c.NamesAt t) : 0 ≤ t.wall := by
  obtain ⟨d, hour, minute, hw, -⟩ := h
  rw [hw, atTime, DAY, MINUTE]
  omega

theorem Cron.NamesAt.fires {c : Cron} (hc : c.Parsed) {t : DateTime} (h : c.NamesAt t) :
    c.Fires t.wall :=
  (fires_iff hc h.nonneg).mpr h

/-- **`next_cron` is sound and minimal.**  Whatever the expression and the start, an instant it
    returns is the first one after the start that the expression names. -/
theorem nextCron_first {expression : List Char} {c : Cron} {after r : DateTime}
    (hp : parseCron expression = .ok c) (h : nextCron expression after = .ok r) :
    c.First after r := by
  rcases nextCron_spec expression after with
    ⟨herr, -⟩ | ⟨c', hp', ⟨w, hok, hnext, hin⟩ | ⟨herr, -⟩⟩
  · rw [herr] at h; injection h
  · obtain rfl := Except.ok.inj (hp.symm.trans hp')
    obtain rfl := Except.ok.inj (hok.symm.trans h)
    have hc := parseCron_parsed hp
    have hlater := hnext.later
    -- the calendar has begun, or there would be no first minute
    have hnn : 0 ≤ w := by
      have hstart : ¬ after.wall + MINUTE < 0 := fun hlt => hin (.inl hlt)
      have hwhole := Cron.times_minute hnext.fires.2
      rw [MINUTE] at hstart
      omega
    refine ⟨rfl, ?_, ?_, (fires_iff hc hnn).mp hnext.fires, fun t hzone hlo hhi ht => ?_⟩
    · show after.wall - after.offset < w - after.offset
      omega
    · have hwhole := Cron.times_minute hnext.fires.2
      show (⟨w - w % 60000000, after.offset⟩ : DateTime) = ⟨w, after.offset⟩
      rw [hwhole, Int.sub_zero]
    · have hlo' : after.wall - after.offset < t.wall - t.offset := hlo
      have hhi' : t.wall - t.offset < w - after.offset := hhi
      have hle := hnext.first t.wall (ht.fires hc) (by omega)
      omega
  · rw [herr] at h; injection h

/-- `30 4 1,15 * 5`: half past four on Fridays and twice a month. -/
def fridays : List Char :=
  ['3', '0', ' ', '4', ' ', '1', ',', '1', '5', ' ', '*', ' ', '5']

def fridayCron : Cron where
  minutes := .ofPred 0 59 (· == 30)
  hours   := .ofPred 0 23 (· == 4)
  doms    := .ofPred 1 31 fun v => v == 1 || v == 15
  months  := .ofPred 1 12 fun _ => true
  dows    := .ofPred 0 6 (· == 5)
  domAny  := false
  dowAny  := false

/-- At noon on Monday 1 January 2024 it fires next on the morning of the 5th. -/
theorem nextCron_first_friday :
    fridayCron.First ⟨738885 * DAY + 720 * MINUTE, 0⟩ ⟨738889 * DAY + 270 * MINUTE, 0⟩ :=
  by
  have hp : parseCron fridays = .ok fridayCron := by rfl
  exact nextCron_first hp (by decide +kernel)

/-! ## The silence -/

/-- The first day the search looks at. -/
def firstDay (after : DateTime) : Int := (after.wall + MINUTE) / DAY

/-- **The report is made when the days searched have no firing.** -/
theorem nextCron_silent_iff {expression : List Char} {c : Cron} {after : DateTime}
    (hp : parseCron expression = .ok c) :
    nextCron expression after = .error .scheduleError ↔
      0 ≤ firstDay after ∧ firstDay after + SEARCH_LIMIT_DAYS < MAX_DAYS
        ∧ ∀ w, c.Fires w → after.wall < w → firstDay after + SEARCH_LIMIT_DAYS ≤ w / DAY := by
  rw [nextCron, hp]
  show (firstMinute after >>= fun moment =>
    search c after.offset SEARCH_LIMIT_DAYS (some moment.wall) moment.date) = _ ↔ _
  cases hm : firstMinute after with
  | error e =>
    obtain ⟨rfl, hout⟩ := firstMinute_error hm
    constructor
    · intro h
      injection h with h
      cases h
    · rintro ⟨hlo, hhi, -⟩
      simp only [firstDay, MAX_DAYS, DAY, SEARCH_LIMIT_DAYS] at hlo hhi hout
      omega
  | ok moment =>
    obtain ⟨hlo, hhi, -, hdate, -⟩ := firstMinute_ok hm
    have hday : moment.date < MAX_DAYS := by
      rw [hdate]
      simp only [MAX_DAYS, DAY] at hhi ⊢
      omega
    have hfloor : ∀ f ∈ some moment.wall, f < (moment.date + 1) * DAY := by
      intro f hf
      obtain rfl := Option.some.inj hf
      simp only [DateTime.date, DAY]
      omega
    have hfirst : moment.date = firstDay after := hdate
    have hstart : 0 ≤ firstDay after := Int.ediv_nonneg hlo (by decide)
    show search c after.offset SEARCH_LIMIT_DAYS (some moment.wall) moment.date = _ ↔ _
    rcases search_spec c after.offset SEARCH_LIMIT_DAYS (some moment.wall) moment.date hday hfloor
      with ⟨w, hok, hfires, hfrom, -, hwithin, -⟩ | ⟨herr, hmax, hnone⟩ | ⟨herr, hmax, -⟩
    · rw [hok]
      constructor
      · intro h
        injection h
      · rintro ⟨-, -, hnone⟩
        have hge := hnone w hfires ((c.from_firstMinute hm hfires).mp hfrom)
        omega
    · rw [herr]
      refine ⟨fun _ => ⟨hstart, by omega, fun w hw hlt => ?_⟩, fun _ => rfl⟩
      rw [← hfirst]
      exact hnone w hw ((c.from_firstMinute hm hw).mpr hlt)
    · rw [herr]
      constructor
      · intro h
        injection h with h
        cases h
      · rintro ⟨-, hlt, -⟩
        omega

/-! ## What comes round in 400 days -/

/-- **A named date returns within 372 days**, or it is a 29 February and the expression names every
    29 February. -/
theorem named_soon {c : Cron} (hc : c.Parsed) {d : Date} (hd : c.NamesDay d) :
    (∀ s, ∃ d', c.NamesDay d' ∧ s ≤ d'.ordinal ∧ d'.ordinal < s + 372)
      ∨ (d.month = 2 ∧ d.day = 29 ∧ ∀ d', d'.month = 2 → d'.day = 29 → c.NamesDay d') := by
  obtain ⟨hmonth, hboth, hone⟩ := hd
  have hm := And.intro d.month_pos d.month_le
  -- either field may name the date
  have hweekday : d.weekday ∈ c.dows.values → (c.domAny || c.dowAny) = false ∨ c.domAny = true →
      ∀ s, ∃ d', c.NamesDay d' ∧ s ≤ d'.ordinal ∧ d'.ordinal < s + 372 := by
    intro hw hflags s
    obtain ⟨e, hem, hew, hlo, hhi⟩ := Gregorian.monthly_weekday s hm d.weekday_lt
    refine ⟨e, ⟨hem ▸ hmonth, fun hany => ?_, fun _ => .inr (hew ▸ hw)⟩, hlo, hhi⟩
    rcases hflags with hnone | hdom
    · rw [hnone] at hany; cases hany
    · exact ⟨hc.domAny hdom _ e.day_pos e.day_le_31, hew ▸ hw⟩
  have hday : d.day ∈ c.doms.values → (c.domAny || c.dowAny) = false ∨ c.dowAny = true →
      ∀ e : Date, e.month = d.month → e.day = d.day → c.NamesDay e := by
    intro hw hflags e hem hed
    refine ⟨hem ▸ hmonth, fun hany => ?_, fun _ => .inl (hed ▸ hw)⟩
    rcases hflags with hnone | hdow
    · rw [hnone] at hany; cases hany
    · exact ⟨hed ▸ hw, hc.dowAny hdow _ (Nat.le_of_lt_succ e.weekday_lt)⟩
  have hreturn : (∀ e : Date, e.month = d.month → e.day = d.day → c.NamesDay e) →
      (∀ s, ∃ d', c.NamesDay d' ∧ s ≤ d'.ordinal ∧ d'.ordinal < s + 372)
        ∨ (d.month = 2 ∧ d.day = 29 ∧ ∀ d', d'.month = 2 → d'.day = 29 → c.NamesDay d') := by
    intro hall
    rcases Gregorian.monthLength_common d.day_le with hle | ⟨h2, h29⟩
    · left
      intro s
      obtain ⟨e, hem, hed, hlo, hhi⟩ := Gregorian.yearly s hm ⟨d.day_pos, hle⟩
      exact ⟨e, hall e hem hed, hlo, by omega⟩
    · right
      exact ⟨h2, h29, fun e hem hed => hall e (hem.trans h2.symm) (hed.trans h29.symm)⟩
  cases hstar : (c.domAny || c.dowAny) with
  | false =>
    rcases hone hstar with hdom | hdow
    · exact hreturn (hday hdom (.inl hstar))
    · exact .inl (hweekday hdow (.inl hstar))
  | true =>
    obtain ⟨hdom, hdow⟩ := hboth hstar
    cases hany : c.dowAny with
    | true => exact hreturn (hday hdom (.inr hany))
    | false =>
      rw [hany, Bool.or_false] at hstar
      exact .inl (hweekday hdow (.inr hstar))

/-! ## When the report is right -/

/-- The expression names nothing but 29 February. -/
def Cron.LeapDayOnly (c : Cron) : Prop :=
  (∃ d, c.NamesDay d) ∧ ∀ d, c.NamesDay d → d.month = 2 ∧ d.day = 29

/-- No day of the 400 searched is a 29 February with a time to come. -/
def Cron.NoLeapDay (c : Cron) (after : DateTime) : Prop :=
  ∀ d : Date, d.month = 2 → d.day = 29 → firstDay after ≤ d.ordinal →
    d.ordinal < firstDay after + SEARCH_LIMIT_DAYS →
    d.ordinal = firstDay after
      ∧ ∀ hour ∈ c.hours.values, ∀ minute ∈ c.minutes.values,
        atTime d.ordinal hour minute ≤ after.wall

/-- The search stays within the calendar. -/
def WithinCalendar (after : DateTime) : Prop :=
  0 ≤ firstDay after ∧ firstDay after + SEARCH_LIMIT_DAYS < MAX_DAYS

/-- What the expression names, the search would visit, on its date. -/
theorem Cron.Names.fires {c : Cron} (hc : c.Parsed) {d : Date} {hour minute : Nat}
    (h : c.Names d hour minute) :
    c.Fires (atTime d.ordinal hour minute)
      ∧ atTime (d.ordinal : Int) hour minute / DAY = d.ordinal := by
  refine ⟨Cron.NamesAt.fires hc (t := ⟨_, 0⟩) ⟨d, hour, minute, rfl, h⟩, ?_⟩
  have hh := (c.hours.bounded _ h.2.1).2
  have hm := (c.minutes.bounded _ h.2.2).2
  rw [atTime, DAY, MINUTE]
  omega

/-- A whole minute after `after` lies on a day of the search or later. -/
theorem firstDay_le {after : DateTime} {w : Int} (hw : w % 60000000 = 0) (hlt : after.wall < w) :
    firstDay after ≤ w / DAY := by
  rw [firstDay, DAY, MINUTE]
  omega

/-- A firing within the days searched is a date in them with a time to come. -/
theorem fires_near {c : Cron} (hc : c.Parsed) {after : DateTime} {w : Int} (hw : c.Fires w)
    (hlt : after.wall < w) (hstart : 0 ≤ firstDay after) :
    ∃ d hour minute, c.Names d hour minute ∧ w = atTime (Date.ordinal d) hour minute
      ∧ firstDay after ≤ d.ordinal ∧ w / DAY = d.ordinal := by
  have hle := firstDay_le (Cron.times_minute hw.2) hlt
  have hnn : 0 ≤ w := by
    have hday : 0 ≤ w / DAY := hstart.trans hle
    rw [DAY] at hday
    omega
  obtain ⟨d, hour, minute, rfl, hnames⟩ := (fires_iff hc hnn).mp hw
  have hdiv := (hnames.fires hc).2
  exact ⟨d, hour, minute, hnames, rfl, hdiv ▸ hle, hdiv⟩

/-- **When `next_cron` is complete.**  A ScheduleError means that no date of the calendar satisfies
    the expression, unless it names nothing but 29 February and the search of 400 days reaches
    none. -/
theorem nextCron_complete_iff {expression : List Char} {c : Cron} (after : DateTime)
    (hp : parseCron expression = .ok c) :
    (nextCron expression after = .error .scheduleError → ∀ d, ¬ c.NamesDay d)
      ↔ ¬ (c.LeapDayOnly ∧ c.NoLeapDay after ∧ WithinCalendar after) := by
  have hc := parseCron_parsed hp
  obtain ⟨minute, hminute⟩ := hc.minute
  obtain ⟨hour, hhour⟩ := hc.hour
  rw [nextCron_silent_iff hp]
  constructor
  · rintro hclaim ⟨⟨⟨d, hd⟩, honly⟩, hleap, hlo, hhi⟩
    refine hclaim ⟨hlo, hhi, fun w hw hlt => ?_⟩ d hd
    by_contra hfar
    -- a firing within the days searched is on a 29 February that is still to come
    obtain ⟨e, h, m, hnames, rfl, hfrom, hdiv⟩ := fires_near hc hw hlt hlo
    obtain ⟨h2, h29⟩ := honly e hnames.1
    have hpast := (hleap e h2 h29 hfrom (by omega)).2 h hnames.2.1 m hnames.2.2
    omega
  · intro hbad ⟨hlo, hhi, hnone⟩ d hd
    -- a date that is named soon contradicts the search
    have hsoon : ¬ ∀ s, ∃ d', c.NamesDay d' ∧ s ≤ d'.ordinal ∧ d'.ordinal < s + 372 := by
      intro hsoon
      obtain ⟨e, he, hge, hlt⟩ := hsoon (firstDay after + 1).toNat
      obtain ⟨hfires, hdiv⟩ := Cron.Names.fires hc ⟨he, hhour, hminute⟩
      have hlater : after.wall < atTime e.ordinal hour minute := by
        simp only [firstDay, atTime, DAY, MINUTE] at hge ⊢
        omega
      have hfar := hnone _ hfires hlater
      rw [hdiv, SEARCH_LIMIT_DAYS] at hfar
      omega
    have hleap := fun d' hd' => (named_soon hc (d := d') hd').resolve_left hsoon
    refine hbad ⟨⟨⟨d, hd⟩, fun d' hd' => ⟨(hleap d' hd').1, (hleap d' hd').2.1⟩⟩, ?_, hlo, hhi⟩
    intro e h2 h29 hfrom hnear
    have he : c.NamesDay e := (hleap d hd).2.2 e h2 h29
    -- every time of that day has passed, so it is the first of the days searched
    have hpast : ∀ h ∈ c.hours.values, ∀ m ∈ c.minutes.values,
        atTime e.ordinal h m ≤ after.wall := by
      intro h hh m hm
      by_contra hlt
      obtain ⟨hfires, hdiv⟩ := Cron.Names.fires hc ⟨he, hh, hm⟩
      have hfar := hnone _ hfires (not_le.mp hlt)
      rw [hdiv] at hfar
      omega
    refine ⟨?_, hpast⟩
    have hle := hpast hour hhour minute hminute
    simp only [firstDay, atTime, DAY, MINUTE] at hle hfrom ⊢
    omega

/-- `0 0 29 2 *`, and the midnight that begins 2024-03-01. -/
def leapDay : List Char := ['0', ' ', '0', ' ', '2', '9', ' ', '2', ' ', '*']

def march2024 : DateTime := ⟨738945 * DAY, 0⟩

def leapCron : Cron where
  minutes := .ofPred 0 59 (· == 0)
  hours   := .ofPred 0 23 (· == 0)
  doms    := .ofPred 1 31 (· == 29)
  months  := .ofPred 1 12 (· == 2)
  dows    := .ofPred 0 6 fun _ => true
  domAny  := false
  dowAny  := true

theorem parse_leapDay : parseCron leapDay = .ok leapCron := by rfl

def leapDay2028 : Date :=
  ⟨2028, 2, 29, by decide, by decide, by decide, by decide, by decide⟩

/-- **A leap day is called unusable.**  On 1 March 2024 no 29 February lies within 400 days. -/
theorem nextCron_misses_leap_day :
    parseCron leapDay = .ok leapCron ∧ nextCron leapDay march2024 = .error .scheduleError
      ∧ leapCron.NamesDay leapDay2028 := by
  refine ⟨parse_leapDay, by decide +kernel, by decide, fun _ => ⟨by decide, ?_⟩, nofun⟩
  exact (parseCron_parsed parse_leapDay).dowAny rfl _ (Nat.le_of_lt_succ (Date.weekday_lt _))

/-- On the same day a year earlier the report would be wrong, and is not made. -/
theorem nextCron_complete_2023 :
    (nextCron leapDay ⟨738579 * DAY, 0⟩ = .error .scheduleError → ∀ d, ¬ leapCron.NamesDay d)
      ↔ ¬ (leapCron.LeapDayOnly ∧ leapCron.NoLeapDay ⟨738579 * DAY, 0⟩
          ∧ WithinCalendar ⟨738579 * DAY, 0⟩) :=
  nextCron_complete_iff _ parse_leapDay

end Air780eHub.Schedule
