/-
  The floor of a rescheduled task.

  `_reschedule` counts from the end of a run and passes it as the floor too, so that a negative
  jitter does not land before it.  A moment that is put on the floor is due at once: it is stored in
  whole seconds, which is not later than the floor, and the next tick compares with `due > now`.

  1. **What is stored** (`reschedule_ok`), for a schedule that is usable.
  2. **What the next tick does** (`examine_planned`).
  3. **When the task waits** (`reschedule_ahead_iff`): the draw must leave the moment at the first
     whole second after the run and after the tick, or later.
-/
import Air780eHub.Schedule.Moves

namespace Air780eHub.Schedule

/-- What the draw moves a moment by. -/
def TaskSchedule.shift (s : TaskSchedule) (draw : Int) : Int := if s.jitter = 0 then 0 else draw

/-- The first whole second after an instant, on a wall clock with this offset. -/
def DateTime.nextSecond (x : DateTime) (offset : Int) : Int :=
  ((x.utc + offset) / 1000000 + 1) * 1000000

/-- A moment is still ahead when it is cut to whole seconds. -/
theorem DateTime.lt_stamp_iff (x t : DateTime) :
    x.utc < t.stamp.utc ↔ x.nextSecond t.offset ≤ t.wall := by
  rw [stamp, nextSecond, utc, utc]
  dsimp only
  omega

theorem DateTime.stamp_le (t : DateTime) : t.stamp.utc ≤ t.utc := by
  rw [stamp, utc, utc]
  dsimp only
  omega

/-- A moment on the floor is not ahead of it, and one above the floor stays. -/
theorem lt_floored_iff {floor m : DateTime} :
    floor.utc < (floored floor m).stamp.utc ↔ floor.utc < m.stamp.utc := by
  have hfloor := floor.stamp_le
  have hm := m.stamp_le
  rw [floored]
  by_cases hlt : m.utc < floor.utc
  · rw [if_pos hlt]
    omega
  · rw [if_neg hlt]

theorem lt_floored_of {floor m x : DateTime} (h : floor.utc < m.stamp.utc) :
    x.utc < (floored floor m).stamp.utc ↔ x.utc < m.stamp.utc := by
  have hm := m.stamp_le
  rw [floored, if_neg (by omega)]

/-- **What is stored.**  A usable schedule gets a plan unless its jitter leaves the calendar. -/
theorem State.reschedule_ok (s : State) {t : Row} {finished base : DateTime} (draw : Int)
    (ran : Bool) (hbase : baseMoment t.schedule finished = .ok base) :
    (t.schedule.jitter ≠ 0 ∧ OffCalendar (base.wall + draw) ∧
        ∃ e, s.reschedule t finished draw ran = .error e) ∨
      (¬ (t.schedule.jitter ≠ 0 ∧ OffCalendar (base.wall + draw)) ∧
        ∃ s' p, s.reschedule t finished draw ran = .ok (s', some p) ∧
          (∀ row ∈ s'.tasks.rows, row.id = t.id → row.nextRunAt = some p) ∧
          p.due = (floored finished ⟨base.wall + t.schedule.shift draw, base.offset⟩).stamp) := by
  have hnext : nextRun t.schedule finished finished draw =
      (jittered t.schedule draw base).bind fun m => .ok (floored finished m) := by
    rw [nextRun, hbase]
    rfl
  rcases jittered_cases t.schedule draw base with ⟨⟨m, hm⟩, hin⟩ | ⟨herr, hj, hout⟩
  · refine .inr ⟨hin, ?_⟩
    have hmoment : m = ⟨base.wall + t.schedule.shift draw, base.offset⟩ := by
      rw [jittered] at hm
      rw [TaskSchedule.shift]
      split at hm
      · rename_i hzero
        rw [if_pos hzero, Int.add_zero]
        exact (Except.ok.inj hm).symm
      · rename_i hzero
        rw [if_neg hzero]
        obtain ⟨hwall, hoffset⟩ := DateTime.add_eq_ok hm
        rw [← hwall, ← hoffset]
    rw [hm] at hnext
    rw [reschedule, hnext]
    refine ⟨_, _, rfl, ?_, ?_⟩
    · intro row hrow hid
      obtain ⟨r, hr, heq⟩ := mem_updateWhere.mp hrow
      by_cases hrid : (r.id == t.id) = true
      · rw [if_pos hrid] at heq
        rw [← heq]
      · rw [if_neg hrid] at heq
        rw [← heq] at hid
        exact absurd (beq_iff_eq.mpr hid) hrid
    · rw [← hmoment]
      rfl
  · refine .inl ⟨hj, hout, ?_⟩
    rw [herr] at hnext
    rw [reschedule, hnext]
    exact ⟨_, rfl⟩

/-- **What the next tick does**: it starts the task unless the plan is ahead. -/
theorem State.examine_planned {s : State} {row : Row} {p : Plan} (hidle : s.Idle row)
    (hp : row.nextRunAt = some p) (now : DateTime) (draws : Nat → Int) :
    s.examine now draws row = .ok (if now.utc < p.due.utc then s else s.start row p) := by
  have hfree : ¬ (row.enabled = false ∨ (s.running.get? row.id).isSome) := by
    rw [hidle.1, hidle.2]
    decide
  rw [examine, if_neg hfree, hp]

/-- **When a finished task waits.**  With a usable schedule, the stored plan is later than the end of
    the run and not yet due at the tick exactly when the draw takes no more off the schedule's own
    moment than leaves it at the first whole second after both; unless that moment is due by then. -/
theorem reschedule_ahead_iff (s : State) {t : Row} {finished base : DateTime}
    (hbase : baseMoment t.schedule finished = .ok base) (now : DateTime) (draw : Int) (ran : Bool) :
    (base.utc ≤ now.utc ∨ ∃ s' p, s.reschedule t finished draw ran = .ok (s', some p) ∧
        (∀ row ∈ s'.tasks.rows, row.id = t.id → row.nextRunAt = some p) ∧
        finished.utc < p.due.utc ∧ now.utc < p.due.utc) ↔
      base.utc ≤ now.utc ∨
        (¬ (t.schedule.jitter ≠ 0 ∧ OffCalendar (base.wall + draw)) ∧
          finished.nextSecond base.offset ≤ base.wall + t.schedule.shift draw ∧
          now.nextSecond base.offset ≤ base.wall + t.schedule.shift draw) := by
  refine or_congr_right ?_
  have hstamp := fun x : DateTime =>
    x.lt_stamp_iff ⟨base.wall + t.schedule.shift draw, base.offset⟩
  dsimp only at hstamp
  rw [← hstamp finished, ← hstamp now]
  rcases s.reschedule_ok draw ran hbase with ⟨hj, hout, e, herr⟩ | ⟨hin, s', p, hok, hrows, hdue⟩
  · rw [herr]
    constructor
    · rintro ⟨s', p, h, -⟩
      cases h
    · rintro ⟨hin, -⟩
      exact absurd ⟨hj, hout⟩ hin
  · rw [hok]
    constructor
    · rintro ⟨s₁, p₁, h, -, hfinished, hnow⟩
      obtain ⟨-, h₁⟩ := Prod.mk.inj (Except.ok.inj h)
      obtain rfl := Option.some.inj h₁
      rw [hdue] at hfinished hnow
      have hahead := lt_floored_iff.mp hfinished
      exact ⟨hin, hahead, (lt_floored_of hahead).mp hnow⟩
    · rintro ⟨-, hfinished, hnow⟩
      refine ⟨s', p, rfl, hrows, ?_, ?_⟩
      · rw [hdue]
        exact lt_floored_iff.mpr hfinished
      · rw [hdue]
        exact (lt_floored_of hfinished).mpr hnow

/-- A keep-alive every `expr` days, with an hour of jitter. -/
def jitteredTask (expr : String) : Row :=
  ⟨3, "m", true, "ping", "", "", ⟨"interval", expr, 3600⟩, 0, true, none, none⟩

def jitteredStore (expr : String) : State :=
  ⟨⟨[jitteredTask expr], List.nodup_singleton _⟩, ∅, true, 0, [], [], [], 0⟩

/-- An hour off 25 days. -/
theorem reschedule_ahead_iff_days :
    ∃ base : DateTime, baseMoment (jitteredTask "25").schedule ⟨DAY, 0⟩ = .ok base ∧
      ∃ s' p, (jitteredStore "25").reschedule (jitteredTask "25") ⟨DAY, 0⟩ (-3600000000) true =
          .ok (s', some p) ∧
        DateTime.utc ⟨DAY, 0⟩ < p.due.utc ∧ DateTime.utc ⟨DAY + 30000000, 0⟩ < p.due.utc := by
  have hbase : baseMoment (jitteredTask "25").schedule ⟨DAY, 0⟩ = .ok ⟨26 * DAY, 0⟩ := by
    decide +kernel
  refine ⟨⟨26 * DAY, 0⟩, hbase, ?_⟩
  have hahead := (reschedule_ahead_iff (jitteredStore "25") hbase ⟨DAY + 30000000, 0⟩
    (-3600000000) true).mpr (.inr (by decide +kernel))
  rcases hahead with hdue | ⟨s', p, hok, -, hfinished, hnow⟩
  · exact absurd hdue (by decide +kernel)
  · exact ⟨s', p, hok, hfinished, hnow⟩

/-- **An hour off a minute and a half** puts the plan on the floor: it is stored as half a second
    before the run ended, and the tick a second later finds it due, long before the schedule is. -/
theorem reschedule_not_ahead :
    baseMoment (jitteredTask "0.001").schedule ⟨DAY + 500000, 0⟩ = .ok ⟨DAY + 86900000, 0⟩ ∧
      ¬ (DateTime.utc ⟨DAY + 86900000, 0⟩ ≤ DateTime.utc ⟨DAY + 1500000, 0⟩ ∨
        ∃ s' p, (jitteredStore "0.001").reschedule (jitteredTask "0.001") ⟨DAY + 500000, 0⟩
            (-3600000000) true = .ok (s', some p) ∧
          (∀ row ∈ s'.tasks.rows, row.id = 3 → row.nextRunAt = some p) ∧
          DateTime.utc ⟨DAY + 500000, 0⟩ < p.due.utc ∧
          DateTime.utc ⟨DAY + 1500000, 0⟩ < p.due.utc) := by
  have hstored : ((jitteredStore "0.001").reschedule (jitteredTask "0.001") ⟨DAY + 500000, 0⟩
      (-3600000000) true).toOption.map (fun r => r.2.map Plan.due) = some (some ⟨DAY, 0⟩) := by
    decide +kernel
  refine ⟨by decide +kernel, ?_⟩
  rintro (hdue | ⟨s', p, hok, -, hfinished, -⟩)
  · exact absurd hdue (by decide +kernel)
  · rw [hok] at hstored
    have hp : p.due = ⟨DAY, 0⟩ := Option.some.inj (Option.some.inj hstored)
    rw [hp] at hfinished
    exact absurd hfinished (by decide +kernel)

end Air780eHub.Schedule
