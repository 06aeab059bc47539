/-
  When a task runs next (`schedule.py`): `next_interval` and `next_run`.

  1. **The computation.**  The random draw of the jitter is an argument, in microseconds.
  2. **What gets out.**  `TaskSchedule.Escapes` says, from the expression, the anchor and the draw, when
     `next_run` raises something other than the ScheduleError its caller expects.
     `nextRun_escapes` shows that it is exact.
  3. **Cron slots.**  The slot of a cron plan is the firing before jitter and floor.
-/
import Air780eHub.Schedule.Cron

namespace Air780eHub.Schedule

/-! ## The computation -/

/-- The three columns a plan is computed from. -/
structure TaskSchedule where
  kind   : String
  expr   : String
  jitter : Int
deriving DecidableEq

/-- `str(DEFAULT_INTERVAL_DAYS)`. -/
def DEFAULT_INTERVAL_DAYS : List Char := ['2', '5', '.', '0']

/-- `schedule_type or "interval"`. -/
def TaskSchedule.type (s : TaskSchedule) : String := if s.kind = "" then "interval" else s.kind

/-- The stripped expression. -/
def TaskSchedule.expression (s : TaskSchedule) : List Char := (pyStrip s.expr).toList

/-- The number of days an interval schedule names. -/
def TaskSchedule.days (s : TaskSchedule) : List Char :=
  if s.expression = [] then DEFAULT_INTERVAL_DAYS else s.expression

/-- `next_interval`. -/
def nextInterval (expression : List Char) (after : DateTime) : Except Failure DateTime :=
  match pyFloat expression with
  | none      => .error .scheduleError
  | some days => if days.nonpos then .error .scheduleError else timedeltaDays days >>= after.add

/-- The moment before jitter and floor. -/
def baseMoment (s : TaskSchedule) (after : DateTime) : Except Failure DateTime :=
  if s.type = "cron" then nextCron s.expression after
  else if s.type = "interval" then nextInterval s.days after
  else .error .scheduleError

/-- The jitter moves the moment only where the setting is not zero. -/
def jittered (s : TaskSchedule) (draw : Int) (moment : DateTime) : Except Failure DateTime :=
  if s.jitter = 0 then .ok moment else moment.add draw

/-- `moment if moment >= floor else floor`. -/
def floored (floor moment : DateTime) : DateTime := if moment.utc < floor.utc then floor else moment

/-- `next_run`.  `draw` is what `uniform(-jitter, jitter)` returned, in microseconds. -/
def nextRun (s : TaskSchedule) (after floor : DateTime) (draw : Int) : Except Failure DateTime := do
  let base ← baseMoment s after
  let moment ← jittered s draw base
  return floored floor moment

/-! ## What gets out -/

/-- The wall clock lies outside the years 1 to 9999. -/
def OffCalendar (w : Int) : Prop := w < 0 ∨ MAX_DAYS * DAY ≤ w

instance (w : Int) : Decidable (OffCalendar w) := inferInstanceAs (Decidable (_ ∨ _))

/-- The interval is too long for a timedelta, or ends outside the calendar. -/
def TooLong (after : DateTime) (q : Rat) : Prop :=
  dayMicroseconds q < -MAX_DELTA_DAYS * DAY ∨ (MAX_DELTA_DAYS + 1) * DAY ≤ dayMicroseconds q
    ∨ OffCalendar (after.wall + dayMicroseconds q)

/-- The interval expression is a number that `float` accepts and date arithmetic does not. -/
def TaskSchedule.IntervalEscapes (s : TaskSchedule) (after : DateTime) (draw : Int) : Prop :=
  pyFloat s.days = some .nan ∨ pyFloat s.days = some (.infinite false)
    ∨ ∃ q : Rat, pyFloat s.days = some (.finite q) ∧ 0 < q ∧
        (TooLong after q
          ∨ (s.jitter ≠ 0 ∧ OffCalendar (after.wall + dayMicroseconds q + draw)))

/-- The calendar ends before the cron search or the jitter is done. -/
def TaskSchedule.CronEscapes (s : TaskSchedule) (after : DateTime) (draw : Int) : Prop :=
  ∃ c, parseCron s.expression = .ok c ∧
    (c.RunsOut after
      ∨ (¬ c.RunsOut after ∧ ∃ w, c.Next after w ∧ s.jitter ≠ 0 ∧ OffCalendar (w + draw)))

/-- The expression is unusable in a way that is not reported as a ScheduleError. -/
def TaskSchedule.Escapes (s : TaskSchedule) (after : DateTime) (draw : Int) : Prop :=
  (s.type = "interval" ∧ s.IntervalEscapes after draw)
    ∨ (s.type = "cron" ∧ s.CronEscapes after draw)

theorem DateTime.add_cases (t : DateTime) (d : Int) :
    (t.add d = .ok ⟨t.wall + d, t.offset⟩ ∧ ¬ OffCalendar (t.wall + d))
      ∨ (t.add d = .error .overflowError ∧ OffCalendar (t.wall + d)) := by
  by_cases hin : 0 ≤ t.wall + d ∧ t.wall + d < MAX_DAYS * DAY
  · left
    rw [add, if_pos hin]
    refine ⟨rfl, ?_⟩
    rw [OffCalendar]
    omega
  · right
    rw [add, if_neg hin]
    refine ⟨rfl, ?_⟩
    rw [OffCalendar]
    omega

/-- Jitter raises only where it leaves the calendar. -/
theorem jittered_cases (s : TaskSchedule) (draw : Int) (t : DateTime) :
    ((∃ u, jittered s draw t = .ok u) ∧ ¬ (s.jitter ≠ 0 ∧ OffCalendar (t.wall + draw)))
      ∨ (jittered s draw t = .error .overflowError ∧ s.jitter ≠ 0
          ∧ OffCalendar (t.wall + draw)) := by
  rw [jittered]
  by_cases hj : s.jitter = 0
  · left
    rw [if_pos hj]
    exact ⟨⟨t, rfl⟩, fun h => h.1 hj⟩
  · rw [if_neg hj]
    rcases t.add_cases draw with ⟨hok, hin⟩ | ⟨herr, hout⟩
    · exact .inl ⟨⟨_, hok⟩, fun h => hin h.2⟩
    · exact .inr ⟨herr, hj, hout⟩

/-- A finite interval is added to the anchor, unless it is too long. -/
theorem timedelta_cases (after : DateTime) (q : Rat) :
    ((timedeltaDays (.finite q) >>= after.add)
        = .ok ⟨after.wall + dayMicroseconds q, after.offset⟩ ∧ ¬ TooLong after q)
      ∨ ((timedeltaDays (.finite q) >>= after.add) = .error .overflowError ∧ TooLong after q) := by
  by_cases hin : -MAX_DELTA_DAYS * DAY ≤ dayMicroseconds q
      ∧ dayMicroseconds q < (MAX_DELTA_DAYS + 1) * DAY
  · rw [timedeltaDays, if_pos hin]
    show (after.add _ = _ ∧ _) ∨ (after.add _ = _ ∧ _)
    rcases after.add_cases (dayMicroseconds q) with ⟨hok, hcal⟩ | ⟨herr, hcal⟩
    · refine .inl ⟨hok, ?_⟩
      rintro (hlo | hhi | hoff)
      · omega
      · omega
      · exact hcal hoff
    · exact .inr ⟨herr, .inr (.inr hcal)⟩
  · rw [timedeltaDays, if_neg hin]
    refine .inr ⟨rfl, ?_⟩
    rw [TooLong]
    omega

/-- The interval moment, where there is one, and what is raised where there is none. -/
theorem nextInterval_cases (s : TaskSchedule) (after : DateTime) :
    (∃ q : Rat, pyFloat s.days = some (.finite q) ∧ 0 < q ∧ ¬ TooLong after q
        ∧ nextInterval s.days after = .ok ⟨after.wall + dayMicroseconds q, after.offset⟩)
      ∨ (nextInterval s.days after = .error .scheduleError
          ∧ ∀ draw, ¬ s.IntervalEscapes after draw)
      ∨ ((∃ e, nextInterval s.days after = .error e ∧ e ≠ .scheduleError)
          ∧ ∀ draw, s.IntervalEscapes after draw) := by
  rw [nextInterval]
  cases hf : pyFloat s.days with
  | none =>
    right; left
    refine ⟨rfl, fun draw => ?_⟩
    rintro (h | h | ⟨q, h, -⟩) <;> rw [hf] at h <;> cases h
  | some x =>
    cases x with
    | nan =>
      right; right
      exact ⟨⟨.valueError, rfl, nofun⟩, fun draw => .inl hf⟩
    | infinite negative =>
      cases negative with
      | true =>
        right; left
        refine ⟨rfl, fun draw => ?_⟩
        rintro (h | h | ⟨q, h, -⟩) <;> rw [hf] at h <;> cases h
      | false =>
        right; right
        exact ⟨⟨.overflowError, rfl, nofun⟩, fun draw => .inr (.inl hf)⟩
    | finite q =>
      by_cases hq : q ≤ 0
      · right; left
        constructor
        · simp only [PyFloat.nonpos, hq, decide_true, if_true]
        · rintro draw (h | h | ⟨q', h, hpos, -⟩)
          · rw [hf] at h; cases h
          · rw [hf] at h; cases h
          · rw [hf] at h
            cases h
            exact absurd hq (not_le.mpr hpos)
      · have hpos : (PyFloat.finite q).nonpos = false := decide_eq_false hq
        simp only [hpos, Bool.false_eq_true, if_false]
        rcases timedelta_cases after q with ⟨hok, hin⟩ | ⟨herr, hout⟩
        · exact .inl ⟨q, rfl, not_le.mp hq, hin, hok⟩
        · right; right
          refine ⟨⟨_, herr, nofun⟩, fun draw => .inr (.inr ⟨q, hf, not_le.mp hq, .inl hout⟩)⟩

theorem TaskSchedule.escapes_interval {s : TaskSchedule} (hk : s.type = "interval")
    (after : DateTime) (draw : Int) : s.Escapes after draw ↔ s.IntervalEscapes after draw := by
  constructor
  · rintro (⟨-, h⟩ | ⟨hc, -⟩)
    · exact h
    · rw [hk] at hc
      exact absurd hc (by decide)
  · exact fun h => .inl ⟨hk, h⟩

theorem TaskSchedule.escapes_cron {s : TaskSchedule} (hk : s.type = "cron")
    (after : DateTime) (draw : Int) : s.Escapes after draw ↔ s.CronEscapes after draw := by
  constructor
  · rintro (⟨hi, -⟩ | ⟨-, h⟩)
    · rw [hk] at hi
      exact absurd hi (by decide)
    · exact h
  · exact fun h => .inr ⟨hk, h⟩

/-- Where the base moment is known, only the jitter can still leave the calendar. -/
theorem baseMoment_cases (s : TaskSchedule) (after : DateTime) :
    (∃ t, baseMoment s after = .ok t
        ∧ ∀ draw, s.Escapes after draw ↔ (s.jitter ≠ 0 ∧ OffCalendar (t.wall + draw)))
      ∨ (baseMoment s after = .error .scheduleError ∧ ∀ draw, ¬ s.Escapes after draw)
      ∨ ((∃ e, baseMoment s after = .error e ∧ e ≠ .scheduleError)
          ∧ ∀ draw, s.Escapes after draw) := by
  rw [baseMoment]
  by_cases hc : s.type = "cron"
  · rw [if_pos hc]
    have hesc := TaskSchedule.escapes_cron hc after
    rcases nextCron_spec s.expression after with
      ⟨herr, hno⟩ | ⟨c, hp, ⟨w, hok, hnext, hin⟩ | ⟨herr, hout⟩⟩
    · refine .inr (.inl ⟨herr, fun draw => ?_⟩)
      rw [hesc]
      rintro ⟨c, hp, hout | ⟨-, w, hw, -⟩⟩
      · exact (hno c hp).1 hout
      · exact (hno c hp).2 w hw
    · refine .inl ⟨_, hok, fun draw => ?_⟩
      rw [hesc]
      constructor
      · rintro ⟨c', hp', hesc'⟩
        obtain rfl := Except.ok.inj (hp.symm.trans hp')
        rcases hesc' with hout | ⟨-, w', hw', hj, hoff⟩
        · exact absurd hout hin
        · rw [hnext.unique hw']
          exact ⟨hj, hoff⟩
      · rintro ⟨hj, hoff⟩
        exact ⟨c, hp, .inr ⟨hin, w, hnext, hj, hoff⟩⟩
    · refine .inr (.inr ⟨⟨_, herr, nofun⟩, fun draw => ?_⟩)
      rw [hesc]
      exact ⟨c, hp, .inl hout⟩
  · rw [if_neg hc]
    by_cases hk : s.type = "interval"
    · rw [if_pos hk]
      have hesc := TaskSchedule.escapes_interval hk after
      rcases nextInterval_cases s after with ⟨q, hf, hpos, hin, hok⟩ | ⟨herr, hno⟩ | ⟨herr, hall⟩
      · refine .inl ⟨_, hok, fun draw => ?_⟩
        rw [hesc]
        constructor
        · rintro (h | h | ⟨q', h, -, hbad⟩)
          · rw [hf] at h; cases h
          · rw [hf] at h; cases h
          · rw [hf] at h
            cases h
            exact hbad.resolve_left hin
        · intro hoff
          exact .inr (.inr ⟨q, hf, hpos, .inr hoff⟩)
      · exact .inr (.inl ⟨herr, fun draw h => hno draw ((hesc draw).mp h)⟩)
      · exact .inr (.inr ⟨herr, fun draw => (hesc draw).mpr (hall draw)⟩)
    · rw [if_neg hk]
      refine .inr (.inl ⟨rfl, fun draw => ?_⟩)
      rintro (⟨hi, -⟩ | ⟨hc', -⟩)
      · exact hk hi
      · exact hc hc'

/-- **What `next_run` lets through.**  It raises something other than a ScheduleError exactly for
    the inputs `Escapes` describes. -/
theorem nextRun_escapes (s : TaskSchedule) (after floor : DateTime) (draw : Int) :
    (∃ e, nextRun s after floor draw = .error e ∧ e ≠ .scheduleError)
      ↔ s.Escapes after draw := by
  rw [nextRun]
  rcases baseMoment_cases s after with ⟨t, hok, hesc⟩ | ⟨herr, hno⟩ | ⟨⟨e, herr, hne⟩, hall⟩
  · rw [hok, hesc]
    show (∃ e, (jittered s draw t >>= fun m => .ok (floored floor m)) = .error e ∧ _) ↔ _
    rcases jittered_cases s draw t with ⟨⟨u, hu⟩, hin⟩ | ⟨herr, hout⟩
    · rw [hu]
      constructor
      · rintro ⟨e, he, -⟩
        injection he
      · exact fun h => absurd h hin
    · rw [herr]
      exact ⟨fun _ => hout, fun _ => ⟨_, rfl, nofun⟩⟩
  · rw [herr]
    constructor
    · rintro ⟨e, he, hne⟩
      exact absurd (Except.error.inj he).symm hne
    · exact fun h => absurd h (hno draw)
  · rw [herr]
    exact ⟨fun _ => hall draw, fun _ => ⟨e, rfl, hne⟩⟩

/-! ## Cron slots -/

/-- The slot of a plan: the cron firing it was made from, before jitter and floor. -/
def slotOf (s : TaskSchedule) (after : DateTime) : Option DateTime :=
  if s.type = "cron" then (nextCron s.expression after).toOption else none

/-- **A slot lies strictly after the moment it is counted from.** -/
theorem slotOf_later {s : TaskSchedule} {after slot : DateTime} (h : slotOf s after = some slot) :
    after.utc < slot.utc := by
  rw [slotOf] at h
  split at h
  · rcases nextCron_spec s.expression after with
      ⟨herr, -⟩ | ⟨c, -, ⟨w, hok, hnext, -⟩ | ⟨herr, -⟩⟩
    · rw [herr] at h; cases h
    · rw [hok] at h
      obtain rfl := Option.some.inj h
      have hlt := hnext.later
      show after.wall - after.offset < w - after.offset
      omega
    · rw [herr] at h; cases h
  · cases h

end Air780eHub.Schedule
