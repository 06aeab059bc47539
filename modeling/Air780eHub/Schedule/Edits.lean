/-
  A schedule edit against an execution in flight.

  `_execute` works on the row it was started with.  When it ends it computes the next run from that
  row's schedule and stores it, also where a sync frame has replaced the schedule meanwhile.
  1. **The condition** (`State.current`): the row an execution reschedules still has the schedule
     the execution was started with.
  2. **The law** (`edit_survives`): in every run whose steps meet it, a stored plan is computed from
     the schedule the row has now.
  3. `stale_reschedule`: an edit during a `run_now` is overwritten by a time of the old expression.
-/
import Air780eHub.Schedule.Moves

namespace Air780eHub.Schedule

/-! ## The condition -/

/-- No execution ends in this step that was started with another schedule than its row has. -/
def State.current (s : State) (a : Act) : Bool :=
  match s.finishes a with
  | none           => true
  | some (e, _, _) => s.tasks.rows.all fun r => r.id ≠ e.task.id || r.schedule = e.task.schedule

theorem State.current_spec {s : State} {a : Act} (h : s.current a = true) {e : Execution}
    {now : DateTime} {draw : Int} (hfin : s.finishes a = some (e, now, draw)) :
    ∀ r ∈ s.tasks.rows, r.id = e.task.id → r.schedule = e.task.schedule := by
  intro r hr hid
  rw [current, hfin] at h
  have hrow := List.all_eq_true.mp h r hr
  simpa [hid] using hrow

/-! ## The law -/

/-- Every stored plan is computed from the schedule its row has. -/
def State.Fresh (s : State) : Prop :=
  ∀ r ∈ s.tasks.rows, ∀ p ∈ r.nextRunAt, p.origin = r.schedule

/-- Storing a plan made from the schedule of the updated row. -/
theorem State.Fresh.update {s s' : State} (h : s.Fresh) {id : Nat} {f : Row → Row}
    (hf : ∀ r, (f r).id = r.id) (htasks : s'.tasks = s.tasks.update id f hf)
    (hnew : ∀ r ∈ s.tasks.rows, r.id = id → ∀ p ∈ (f r).nextRunAt, p.origin = (f r).schedule) :
    s'.Fresh := by
  intro r hr
  rw [htasks] at hr
  rcases TaskTable.of_mem_update hf hr with ⟨hold, -⟩ | ⟨r₀, h₀, hid, rfl⟩
  · exact h r hold
  · exact hnew r₀ h₀ hid

/-- With distinct ids, a row of the table is determined by its id. -/
theorem TaskTable.eq_of_id {t : TaskTable} {r r' : Row} (hr : r ∈ t.rows) (hr' : r' ∈ t.rows)
    (h : r.id = r'.id) : r = r' := eq_of_key_eq t.keys hr hr' h

/-- A move keeps the plans fresh when every execution that finishes in it is current. -/
theorem State.Fresh.move {F : State → Execution → DateTime → Int → Prop} {L : State → Prop}
    {c : Int} {s s' : State} (hm : Move F L c s s') (h : s.Fresh)
    (hcur : ∀ e now draw, F s e now draw →
      ∀ r ∈ s.tasks.rows, r.id = e.task.id → r.schedule = e.task.schedule) : s'.Fresh := by
  cases hm with
  | aside htasks hrun hfired hspent hplans => intro r hr; exact h r (htasks ▸ hr)
  | planned t p ht hfree hp =>
    refine h.update (f := fun r => { r with nextRunAt := some p }) (fun _ => rfl) rfl
      fun r hr hid q hq => ?_
    obtain rfl := Option.some.inj hq
    rw [TaskTable.eq_of_id hr ht hid]
    exact hp.origin
  | rescheduled e e' now draw last next n hfin hrun hlive htask hcause hdone heffect hnow hnext hn =>
    refine h.update (f := fun r => { r with lastRunAt := last, nextRunAt := next })
      (fun _ => rfl) rfl fun r hr hid q hq => ?_
    -- the row still has the schedule of the snapshot
    rw [(hnext q hq).1.origin]
    exact (hcur e now draw hfin r hr hid).symm
  | advanced t last next n ht hfree hnext hn =>
    refine h.update (f := fun r => { r with lastRunAt := last, nextRunAt := next })
      (fun _ => rfl) rfl fun r hr hid q hq => ?_
    rw [(hnext q hq).1.origin, TaskTable.eq_of_id hr ht hid]
  | synced incoming hids =>
    intro r hr p hp
    rcases TaskTable.of_mem_replaceTasks (h := hids) hr with hnone | ⟨r₀, h₀, -, hs, hnext⟩
    · rw [hnone] at hp
      cases hp
    · rw [← hs]
      exact h r₀ h₀ p (hnext ▸ hp)
  | started t p hrow hfree => exact h
  | broken e e' now draw hfin hrun hlive htask hcause hdone heffect hesc => exact h
  | entered e hfree hcause => exact h
  | continued e e' hrun hlive htask hcause hlive' heffect => exact h
  | effected e hrun hlive => exact h
  | left id e hrun hover => exact h
  | lost hl => exact h

/-- **A schedule edit is never lost, as long as no execution ends with a stale snapshot.**  In every
    run in which an execution that ends finds its row gone or with the schedule it was started
    with, every stored `next_run_at` is computed from the schedule the row has. -/
theorem edit_survives {s : State}
    (h : scheduler.ReachableBy (fun s a => s.current a = true) s) :
    ∀ r ∈ s.tasks.rows, ∀ p, r.nextRunAt = some p → p.origin = r.schedule := by
  have hfresh : s.Fresh := by
    refine run_invariant (I := fun _ => State.Fresh) ?_ (fun _ _ _ _ h => h) ?_ h
    · intro s hs r hr
      rw [hs.tasks] at hr
      cases hr
    · intro s a hg s₁ s₂ hm _ hI
      refine hI.move hm fun e now draw hfin => ?_
      obtain ⟨rfl, hfin⟩ := hfin
      exact State.current_spec hg hfin
  exact fun r hr p hp => hfresh r hr p hp

/-- A store without tasks, and a ping task that runs every `days` days. -/
def newStore : State := ⟨⟨[], List.nodup_nil⟩, ∅, true, 0, [], [], [], 0⟩

theorem newStore_starts : newStore.Starts := ⟨rfl, rfl, rfl, rfl⟩

def pingTask (kind expr : String) (jitter : Int) : Row :=
  ⟨1, "m", true, "ping", "", "", ⟨kind, expr, jitter⟩, 0, true, none, none⟩

/-- A worker that may use data. -/
def dataWorker : Option WorkerView := some ⟨some true, true⟩

/-- The task runs, the interval is edited, and the tick plans the new one. -/
theorem edit_survives_planned :
    ∃ s, scheduler.run newStore
        [.sync [pingTask "interval" "25" 0], .runNow 1, .perform 1 dataWorker ⟨DAY, 0⟩ 0, .effect 1,
          .reply 1 (.answered true) ⟨DAY, 0⟩ 0, .reap 1, .sync [pingTask "interval" "30" 0],
          .tick ⟨2 * DAY, 0⟩ fun _ => 0] = some s
      ∧ s.tasks.rows.map (fun r => r.nextRunAt.map fun p => p.due) = [some ⟨31 * DAY, 0⟩]
      ∧ ∀ r ∈ s.tasks.rows, ∀ p, r.nextRunAt = some p → p.origin = r.schedule := by
  have hrun : (scheduler.runBy State.current newStore
      [.sync [pingTask "interval" "25" 0], .runNow 1, .perform 1 dataWorker ⟨DAY, 0⟩ 0, .effect 1,
        .reply 1 (.answered true) ⟨DAY, 0⟩ 0, .reap 1, .sync [pingTask "interval" "30" 0],
        .tick ⟨2 * DAY, 0⟩ fun _ => 0]).map
      (fun s => s.tasks.rows.map fun r => r.nextRunAt.map fun p => p.due)
      = some [some ⟨31 * DAY, 0⟩] := by decide +kernel
  obtain ⟨s, hs, hdue⟩ := Option.map_eq_some_iff.mp hrun
  exact ⟨s, Machine.run_of_runBy hs, hdue,
    edit_survives ⟨newStore, newStore_starts, Machine.runBy_path hs⟩⟩

/-- **An edit during a run is lost.**  The interval becomes 30 days while the task executes; the end
    of the execution stores a time 25 days ahead, computed from the old expression. -/
theorem stale_reschedule :
    ∃ s, scheduler.run newStore
        [.sync [pingTask "interval" "25" 0], .runNow 1, .perform 1 dataWorker ⟨DAY, 0⟩ 0, .effect 1,
          .sync [pingTask "interval" "30" 0], .reply 1 (.answered true) ⟨DAY, 0⟩ 0] = some s
      ∧ ∃ r ∈ s.tasks.rows, r.schedule = ⟨"interval", "30", 0⟩
        ∧ ∃ p, r.nextRunAt = some p ∧ p.due = ⟨26 * DAY, 0⟩ ∧ p.origin = ⟨"interval", "25", 0⟩ := by
  have hrun : (scheduler.run newStore
      [.sync [pingTask "interval" "25" 0], .runNow 1, .perform 1 dataWorker ⟨DAY, 0⟩ 0, .effect 1,
        .sync [pingTask "interval" "30" 0], .reply 1 (.answered true) ⟨DAY, 0⟩ 0]).map
      (fun s => s.tasks.rows.map fun r => (r.schedule, r.nextRunAt.map fun p => (p.due, p.origin)))
      = some [(⟨"interval", "30", 0⟩, some (⟨26 * DAY, 0⟩, ⟨"interval", "25", 0⟩))] := by
    decide +kernel
  obtain ⟨s, hs, hrows⟩ := Option.map_eq_some_iff.mp hrun
  obtain ⟨r, hr, hrow⟩ : ∃ r ∈ s.tasks.rows,
      (r.schedule, r.nextRunAt.map fun p => (p.due, p.origin))
        = (⟨"interval", "30", 0⟩, some (⟨26 * DAY, 0⟩, ⟨"interval", "25", 0⟩)) := by
    refine List.mem_map.mp ?_
    rw [hrows]
    exact List.mem_singleton_self _
  simp only [Prod.mk.injEq, Option.map_eq_some_iff] at hrow
  obtain ⟨hschedule, p, hp, hdue, horigin⟩ := hrow
  exact ⟨s, hs, r, hr, hschedule, p, hp, hdue, horigin⟩

end Air780eHub.Schedule
