/-
  What a step of the scheduler can do to plans and executions.

  1. **Finishing.**  `State.finishes` is the one place where a step may go wrong for a plan: the
     `_execute` whose `_reschedule` the step runs, with the clock and the draw.
  2. **Moves.**  A step is a chain of moves, each a small change of the table and of `_running`
     (`step_moves`).  Everything the scheduler guarantees over a run is then one case analysis over
     the moves.
  3. **Wiring**: plans are numbered, and a plan belongs to the task it is stored for.
-/
import Mathlib.Logic.Relation
import Air780eHub.Schedule.BadSchedule

namespace Air780eHub.Schedule

/-! ## Finishing -/

def Cause.isManual : Cause → Bool
  | .manual _ _ => true
  | _           => false

/-- The execution whose `_reschedule` the step runs, the clock and the draw it uses. -/
def State.finishes (s : State) : Act → Option (Execution × DateTime × Int)
  | .perform id worker now draw => match s.running.get? id with
    | some e =>
      if e.phase = .waiting ∧ performs worker e.task = false then some (e, now, draw) else none
    | none => none
  | .reply id r now draw => match s.running.get? id with
    | some e =>
      if e.phase = .calling ∧ e.cause.isManual = false
          ∧ (returns e.task r = true ∨ e.retries < e.attempts) then
        some (e, now, draw)
      else none
    | none => none
  | _ => none

/-- The step ends the process: `stop`, or a crash. -/
def Act.ends : Act → Bool
  | .stop _ => true
  | .crash  => true
  | _       => false

/-- The last clock reading after the step. -/
def State.clockAfter (s : State) : Act → Int
  | .tick now _            => now.utc
  | .perform _ _ now _     => now.utc
  | .reply _ _ now _       => now.utc
  | .runManual _ _ _ now _ => now.utc
  | .stop now              => now.utc
  | _                      => s.clock

/-! ## Moves -/

/-- A plan just made for `t`, from a slot later than the clock reading `c`. -/
structure State.Makes (s : State) (t : Row) (c : Int) (p : Plan) : Prop where
  number : p.number = s.plans
  task   : p.task = t.id
  origin : p.origin = t.schedule
  later  : ∀ slot ∈ p.slot, c < slot.utc

/-- A move.  `F` says which execution finishes in which state, `L` in which state the executions are
    lost, and `c` is the clock reading of the step. -/
inductive Move (F : State → Execution → DateTime → Int → Prop) (L : State → Prop) (c : Int) (s : State) :
    State → Prop
  /-- Receipts, the clock and the process itself. -/
  | aside {s' : State} (htasks : s'.tasks = s.tasks) (hrun : s'.running = s.running)
      (hfired : s'.fired = s.fired) (hspent : s'.spent = s.spent) (hplans : s'.plans = s.plans) :
      Move F L c s s'
  /-- The tick plans an idle task. -/
  | planned (t : Row) (p : Plan) (ht : t ∈ s.tasks.rows) (hfree : s.running.get? t.id = none)
      (hp : s.Makes t c p) :
      Move F L c s { s with tasks := s.tasks.setTaskNextRun t.id (some p), plans := s.plans + 1 }
  /-- The tick starts an idle task for its stored plan. -/
  | started (t : Row) (p : Plan) (hrow : ∃ r ∈ s.tasks.rows, r.id = t.id ∧ r.nextRunAt = some p)
      (hfree : s.running.get? t.id = none) : Move F L c s (s.start t p)
  /-- `_execute` ends with a stored reschedule. -/
  | rescheduled (e e' : Execution) (now : DateTime) (draw : Int) (last : Option DateTime)
      (next : Option Plan) (n : Nat) (hfin : F s e now draw)
      (hrun : s.running.get? e.task.id = some e) (hlive : e.phase ≠ .done)
      (htask : e'.task = e.task) (hcause : e'.cause = e.cause) (hdone : e'.phase = .done)
      (heffect : e'.effect = e.effect) (hnow : c = now.utc)
      (hnext : ∀ p ∈ next, s.Makes e.task c p ∧ n = s.plans + 1) (hn : s.plans ≤ n) :
      Move F L c s (State.setRun
        { s with tasks := s.tasks.markTaskRun e.task.id last next, plans := n } e')
  /-- `_execute` ends with an exception of `_reschedule`. -/
  | broken (e e' : Execution) (now : DateTime) (draw : Int) (hfin : F s e now draw)
      (hrun : s.running.get? e.task.id = some e) (hlive : e.phase ≠ .done)
      (htask : e'.task = e.task) (hcause : e'.cause = e.cause) (hdone : e'.phase = .done)
      (heffect : e'.effect = e.effect) (hesc : e.task.schedule.Escapes now draw) : Move F L c s (s.setRun e')
  /-- `run_manual` advances the schedule of an idle task. -/
  | advanced (t : Row) (last : Option DateTime) (next : Option Plan) (n : Nat)
      (ht : t ∈ s.tasks.rows) (hfree : s.running.get? t.id = none)
      (hnext : ∀ p ∈ next, s.Makes t c p ∧ n = s.plans + 1) (hn : s.plans ≤ n) :
      Move F L c s { s with tasks := s.tasks.markTaskRun t.id last next, plans := n }
  /-- A command enters an execution. -/
  | entered (e : Execution) (hfree : s.running.get? e.task.id = none) (hcause : e.cause.plans = []) :
      Move F L c s (s.setRun e)
  /-- An execution goes on. -/
  | continued (e e' : Execution) (hrun : s.running.get? e.task.id = some e)
      (hlive : e.phase ≠ .done) (htask : e'.task = e.task) (hcause : e'.cause = e.cause)
      (hlive' : e'.phase ≠ .done) (heffect : e'.effect = e.effect) : Move F L c s (s.setRun e')
  /-- The module carries out the side effect. -/
  | effected (e : Execution) (hrun : s.running.get? e.task.id = some e) (hlive : e.phase ≠ .done) :
      Move F L c s (State.setRun { s with spent := e.cause.plans ++ s.spent }
        { e with effect := true })
  /-- An execution leaves `_running`: its done callback ran, or it was a manual one. -/
  | left (id : Nat) (e : Execution) (hrun : s.running.get? id = some e)
      (hover : e.phase = .done ∨ e.cause.plans = []) :
      Move F L c s { s with running := s.running.erase id }
  /-- A sync frame replaces the table. -/
  | synced (incoming : List Row) (h : (incoming.map Row.id).Nodup) :
      Move F L c s { s with tasks := s.tasks.replaceTasks incoming h }
  /-- The process ends. -/
  | lost (h : L s) : Move F L c s { s with running := ∅ }

/-- A chain of moves. -/
abbrev Moves (F : State → Execution → DateTime → Int → Prop) (L : State → Prop) (c : Int) : State → State → Prop :=
  Relation.ReflTransGen (Move F L c)

/-- What every move preserves, a chain of moves preserves. -/
theorem Moves.invariant {F : State → Execution → DateTime → Int → Prop} {L : State → Prop} {c : Int}
    {I : State → Prop} (hI : ∀ s s', Move F L c s s' → I s → I s') {s s' : State}
    (h : Moves F L c s s') (hs : I s) : I s' := by
  induction h with
  | refl => exact hs
  | tail _ hm ih => exact hI _ _ hm ih

section Chains

variable {F : State → Execution → DateTime → Int → Prop} {L : State → Prop} {c : Int}

theorem Moves.aside {s s' : State} (htasks : s'.tasks = s.tasks) (hrun : s'.running = s.running)
    (hfired : s'.fired = s.fired) (hspent : s'.spent = s.spent) (hplans : s'.plans = s.plans) :
    Moves F L c s s' := .single (.aside htasks hrun hfired hspent hplans)

/-- A chain may end with a reading of the clock. -/
theorem Moves.clocked {s s' : State} (h : Moves F L c s s') (x : Int) :
    Moves F L c s { s' with clock := x } := h.tail (.aside rfl rfl rfl rfl rfl)

/-- The plan `planOf` makes is one of the scheduler's. -/
theorem State.planOf_makes (s : State) (t : Row) (after m : DateTime)
    (hc : t.schedule.type = "cron" → c ≤ after.utc) : s.Makes t c (s.planOf t after m) where
  number := rfl
  task   := rfl
  origin := rfl
  later slot hslot := by
    have hcron : t.schedule.type = "cron" := by
      by_contra hne
      have hnone : slotOf t.schedule after = none := if_neg hne
      rw [Option.mem_def, State.planOf, hnone] at hslot
      cases hslot
    have hlt := slotOf_later hslot
    have hle := hc hcron
    omega

/-- A row of another task is not touched by an update. -/
theorem TaskTable.mem_update {t : TaskTable} {id : Nat} {f : Row → Row}
    {hf : ∀ r, (f r).id = r.id} {r : Row} (hr : r ∈ t.rows) (hne : r.id ≠ id) :
    r ∈ (t.update id f hf).rows := by
  refine mem_updateWhere.mpr ⟨r, hr, if_neg ?_⟩
  simpa using hne

theorem State.examine_moves {s s' : State} {now : DateTime} {draws : Nat → Int} {t : Row}
    (ht : t ∈ s.tasks.rows) (h : s.examine now draws t = .ok s') :
    Moves F L now.utc s s'
      ∧ ∀ t' : Row, t'.id ≠ t.id → t' ∈ s.tasks.rows → t' ∈ s'.tasks.rows := by
  rw [examine] at h
  by_cases hidle : t.enabled = false ∨ (s.running.get? t.id).isSome
  · rw [if_pos hidle] at h
    obtain rfl := Except.ok.inj h
    exact ⟨.refl, fun _ _ h => h⟩
  · rw [if_neg hidle] at h
    rw [not_or] at hidle
    have hfree : s.running.get? t.id = none := Option.not_isSome_iff_eq_none.mp hidle.2
    cases hnext : t.nextRunAt with
    | some p =>
      rw [hnext] at h
      obtain rfl := Except.ok.inj h
      by_cases hlt : now.utc < p.due.utc
      · rw [if_pos hlt]
        exact ⟨.refl, fun _ _ h => h⟩
      · rw [if_neg hlt]
        exact ⟨.single (.started t p ⟨t, ht, rfl, hnext⟩ hfree), fun _ _ h => h⟩
    | none =>
      rw [hnext, plan] at h
      cases hn : nextRun t.schedule (t.anchor now) now (draws t.id) with
      | error e =>
        rw [hn] at h
        cases e with
        | scheduleError =>
          obtain rfl := Except.ok.inj h
          exact ⟨Moves.aside rfl rfl rfl rfl rfl, fun _ _ h => h⟩
        | valueError => injection h
        | overflowError => injection h
      | ok m =>
        rw [hn] at h
        obtain rfl := Except.ok.inj h
        have hmakes : s.Makes t now.utc (s.planOf t (t.anchor now) m) := by
          refine s.planOf_makes t (t.anchor now) m fun hcron => ?_
          rw [Row.anchor, if_pos hcron]
        have hplanned := Move.planned (F := F) (L := L) t _ ht hfree hmakes
        have hrows : ∀ t' : Row, t'.id ≠ t.id → t' ∈ s.tasks.rows →
            t' ∈ (s.tasks.setTaskNextRun t.id (some (s.planOf t (t.anchor now) m))).rows :=
          fun t' hne ht' => TaskTable.mem_update ht' hne
        by_cases hlt : now.utc < m.utc
        · simp only [if_pos hlt]
          exact ⟨.single hplanned, hrows⟩
        · simp only [if_neg hlt]
          refine ⟨.tail (.single hplanned) (.started t _
            ⟨{ t with nextRunAt := some (s.planOf t (t.anchor now) m) }, ?_, rfl, rfl⟩ hfree), hrows⟩
          exact mem_updateWhere.mpr ⟨t, ht, if_pos (beq_self_eq_true _)⟩

theorem State.tickOnce_moves {now : DateTime} {draws : Nat → Int} {s : State} {ts : List Row}
    (hts : (ts.map Row.id).Nodup) (hin : ∀ t ∈ ts, t ∈ s.tasks.rows) :
    Moves F L now.utc s (s.tickOnce now draws ts).1 := by
  induction ts generalizing s with
  | nil => exact .refl
  | cons t ts ih =>
    rw [List.map_cons, List.nodup_cons] at hts
    rw [tickOnce]
    cases he : s.examine now draws t with
    | error e => exact .refl
    | ok s' =>
      obtain ⟨hmoves, hrows⟩ := State.examine_moves (F := F) (L := L) (hin t List.mem_cons_self) he
      refine hmoves.trans (ih hts.2 fun t' ht' => ?_)
      have hne : t'.id ≠ t.id := fun heq => hts.1 (heq ▸ List.mem_map_of_mem ht')
      exact hrows t' hne (hin t' (List.mem_cons_of_mem _ ht'))

/-- What `_reschedule` stores, and what makes it raise. -/
theorem State.reschedule_cases (s : State) (t : Row) (finished : DateTime) (draw : Int)
    (ran : Bool) :
    (∃ last next n, s.reschedule t finished draw ran
          = .ok ({ s with tasks := s.tasks.markTaskRun t.id last next, plans := n }, next)
        ∧ (∀ p ∈ next, s.Makes t finished.utc p ∧ n = s.plans + 1) ∧ s.plans ≤ n)
      ∨ (∃ e, s.reschedule t finished draw ran = .error e)
        ∧ t.schedule.Escapes finished draw := by
  rw [reschedule]
  cases hn : nextRun t.schedule finished finished draw with
  | ok m =>
    refine .inl ⟨_, _, _, rfl, fun p hp => ?_, Nat.le_succ _⟩
    obtain rfl := Option.some.inj hp
    exact ⟨s.planOf_makes t finished m fun _ => le_rfl, rfl⟩
  | error e =>
    cases e with
    | scheduleError => exact .inl ⟨_, none, s.plans, rfl, fun p hp => (by cases hp), le_rfl⟩
    | valueError =>
      exact .inr ⟨⟨_, rfl⟩, (nextRun_escapes _ _ finished _).mp ⟨_, hn, nofun⟩⟩
    | overflowError =>
      exact .inr ⟨⟨_, rfl⟩, (nextRun_escapes _ _ finished _).mp ⟨_, hn, nofun⟩⟩

theorem State.conclude_moves {s : State} {e : Execution} {now : DateTime} {draw : Int}
    (st : Status) (n : Int) (hfin : F s e now draw) (hrun : s.running.get? e.task.id = some e)
    (hlive : e.phase ≠ .done) : Moves F L now.utc s (s.conclude e st n now draw) := by
  rw [conclude]
  rcases s.reschedule_cases e.task now draw (st ≠ .skipped) with
    ⟨last, next, k, hok, hnext, hk⟩ | ⟨⟨x, herr⟩, hesc⟩
  · rw [hok]
    refine .tail (.single (.rescheduled e { e with attempts := n, phase := .done } now draw last
      next k hfin hrun hlive rfl rfl rfl rfl rfl hnext hk)) ?_
    exact .aside rfl rfl rfl rfl rfl
  · rw [herr]
    exact .single (.broken e _ now draw hfin hrun hlive rfl rfl rfl rfl hesc)

theorem State.reply_moves {s : State} {e : Execution} (r : Reply) {now : DateTime} (draw : Int)
    (hrun : s.running.get? e.task.id = some e) (hlive : e.phase ≠ .done)
    (hfin : e.cause.isManual = false → (returns e.task r = true ∨ e.retries < e.attempts) →
      F s e now draw) : Moves F L now.utc s (s.reply e r now draw) := by
  have hauto : e.cause.isManual = false → Moves F L now.utc s
      (if returns e.task r then s.conclude e .ok e.attempts now draw
        else if e.attempts ≤ e.retries then s.setRun { e with phase := .waiting }
        else s.conclude e .failed e.attempts now draw) := by
    intro hm
    by_cases hret : returns e.task r = true
    · rw [if_pos hret]
      exact State.conclude_moves _ _ (hfin hm (.inl hret)) hrun hlive
    · rw [if_neg hret]
      by_cases hle : e.attempts ≤ e.retries
      · rw [if_pos hle]
        exact .single (.continued e { e with phase := .waiting } hrun hlive rfl rfl nofun rfl)
      · rw [if_neg hle]
        exact State.conclude_moves _ _ (hfin hm (.inr (by omega))) hrun hlive
  rw [State.reply]
  cases hc : e.cause with
  | manual runId planned =>
    have hplans : e.cause.plans = [] := by rw [hc]; rfl
    exact .tail (.single (.left e.task.id e hrun (.inr hplans))) (.aside rfl rfl rfl rfl rfl)
  | timer p =>
    have h := hauto (by rw [hc]; rfl)
    rw [hc] at h
    exact h
  | now =>
    have h := hauto (by rw [hc]; rfl)
    rw [hc] at h
    exact h

theorem State.runManual_moves {s : State} {t : Row} (runId : String) (worker : Option WorkerView)
    {now : DateTime} (draw : Int) (ht : t ∈ s.tasks.rows) (hfree : s.running.get? t.id = none) :
    Moves F L now.utc s (s.runManual t runId worker now draw) := by
  rw [runManual]
  rcases s.reschedule_cases t now draw true with
    ⟨last, next, k, hok, hnext, hk⟩ | ⟨⟨x, herr⟩, -⟩
  · rw [hok]
    refine .head (.advanced t last next k ht hfree hnext hk) ?_
    dsimp only
    by_cases hp : performs worker t = true
    · rw [if_pos hp]
      exact .single (.entered _ hfree rfl)
    · rw [if_neg hp]
      exact Moves.aside rfl rfl rfl rfl rfl
  · rw [herr]

theorem State.cancel_moves (now : DateTime) (s : State) (es : List Execution) :
    Moves F L c s (es.foldl (State.cancel now) s)
      ∧ (es.foldl (State.cancel now) s).running = s.running := by
  induction es generalizing s with
  | nil => exact ⟨.refl, rfl⟩
  | cons e es ih =>
    obtain ⟨hmoves, hrun⟩ := ih (s.cancel now e)
    have hhead : Moves F L c s (s.cancel now e) ∧ (s.cancel now e).running = s.running := by
      rw [cancel]
      split
      · exact ⟨Moves.aside rfl rfl rfl rfl rfl, rfl⟩
      · exact ⟨.refl, rfl⟩
    exact ⟨hhead.1.trans hmoves, hrun.trans hhead.2⟩

end Chains

/-! ## Wiring -/

/-- Plans are numbered in the order they are made, and a plan belongs to the task it is stored and
    executed for. -/
structure State.Wired (s : State) : Prop where
  keyed  : ∀ id e, s.running.get? id = some e → e.task.id = id
  timed  : ∀ id e, s.running.get? id = some e → ∀ p ∈ e.cause.plans, p.task = id ∧ p.number < s.plans
  stored : ∀ r ∈ s.tasks.rows, ∀ p ∈ r.nextRunAt, p.task = r.id ∧ p.number < s.plans
  spent  : ∀ p ∈ s.spent, p.number < s.plans
  fired  : ∀ f ∈ s.fired, f.plan.number < s.plans

/-- The number of a plan survives whatever comes later. -/
theorem State.Makes.wired {s : State} {t : Row} {c : Int} {p : Plan} (h : s.Makes t c p) :
    p.task = t.id ∧ p.number < s.plans + 1 := ⟨h.task, by rw [h.number]; exact Nat.lt_succ_self _⟩

/-- The rows after an update of one task: other rows, or the old row changed. -/
theorem TaskTable.of_mem_update {t : TaskTable} {id : Nat} {f : Row → Row}
    (hf : ∀ r, (f r).id = r.id) {r : Row} (hr : r ∈ (t.update id f hf).rows) :
    (r ∈ t.rows ∧ r.id ≠ id) ∨ ∃ r₀ ∈ t.rows, r₀.id = id ∧ r = f r₀ := by
  rcases of_mem_updateWhere hr with ⟨r₀, h₀, hid, rfl⟩ | ⟨h₀, hid⟩
  · exact .inr ⟨r₀, h₀, by simpa using hid, rfl⟩
  · exact .inl ⟨h₀, by simpa using hid⟩

/-- After `mark_task_run` the row of the task has the new plan. -/
theorem TaskTable.nextRunAt_markTaskRun {t : TaskTable} {id : Nat} {last : Option DateTime}
    {next : Option Plan} {r : Row} (hr : r ∈ (t.markTaskRun id last next).rows) (hid : r.id = id) :
    r.nextRunAt = next := by
  rw [markTaskRun] at hr
  rcases TaskTable.of_mem_update _ hr with ⟨-, hne⟩ | ⟨r₀, -, -, rfl⟩
  · exact absurd hid hne
  · rfl

/-- `mark_task_run` leaves the rows of other tasks alone. -/
theorem TaskTable.mem_of_markTaskRun {t : TaskTable} {id : Nat} {last : Option DateTime}
    {next : Option Plan} {r : Row} (hr : r ∈ (t.markTaskRun id last next).rows) (hne : r.id ≠ id) :
    r ∈ t.rows := by
  rw [markTaskRun] at hr
  rcases TaskTable.of_mem_update _ hr with ⟨hold, -⟩ | ⟨r₀, -, hid, rfl⟩
  · exact hold
  · exact absurd hid hne

/-- The row a sync leaves has the plan of the row it replaces, or none. -/
theorem TaskTable.of_mem_replaceTasks {t : TaskTable} {incoming : List Row}
    {h : (incoming.map Row.id).Nodup} {r : Row} (hr : r ∈ (t.replaceTasks incoming h).rows) :
    r.nextRunAt = none
      ∨ ∃ r₀ ∈ t.rows, r₀.id = r.id ∧ r₀.schedule = r.schedule ∧ r.nextRunAt = r₀.nextRunAt := by
  obtain ⟨task, -, rfl⟩ := List.mem_map.mp hr
  rw [upsert]
  cases hf : t.task task.id with
  | none => exact .inl rfl
  | some row =>
    by_cases hs : row.schedule = task.schedule
    · refine .inr ⟨row, List.mem_of_find?_eq_some hf, ?_, hs, if_pos hs⟩
      simpa using List.find?_some hf
    · exact .inl (if_neg hs)

/-- An execution after `setRun`: the entered one, or another one that was there. -/
theorem State.of_setRun {s : State} {e e' : Execution} {id : Nat}
    (h : (s.setRun e').running.get? id = some e) :
    (id = e'.task.id ∧ e = e') ∨ (id ≠ e'.task.id ∧ s.running.get? id = some e) := by
  by_cases hid : id = e'.task.id
  · subst hid
    rw [setRun_get?] at h
    exact .inl ⟨rfl, (Option.some.inj h).symm⟩
  · have hne : (s.setRun e').running.get? id = s.running.get? id := Dict.get?_set_ne hid
    exact .inr ⟨hid, hne ▸ h⟩

/-- An execution after an entry left: another one that was there. -/
theorem of_erase {d : Dict Nat Execution} {id id' : Nat} {e : Execution}
    (h : (d.erase id').get? id = some e) : id ≠ id' ∧ d.get? id = some e := by
  by_cases hid : id = id'
  · subst hid
    rw [Dict.get?_erase] at h
    cases h
  · exact ⟨hid, Dict.get?_erase_ne hid ▸ h⟩

theorem State.Wired.setRun {s : State} (h : s.Wired) {e : Execution}
    (he : ∀ p ∈ e.cause.plans, p.task = e.task.id ∧ p.number < s.plans) : (s.setRun e).Wired where
  keyed id e' he' := by
    rcases State.of_setRun he' with ⟨rfl, rfl⟩ | ⟨-, hold⟩
    · rfl
    · exact h.keyed id e' hold
  timed id e' he' := by
    rcases State.of_setRun he' with ⟨rfl, rfl⟩ | ⟨-, hold⟩
    · exact he
    · exact h.timed id e' hold
  stored := h.stored
  spent := h.spent
  fired := h.fired

/-- A new table with more plans made. -/
theorem State.Wired.table {s : State} (h : s.Wired) {tasks : TaskTable} {n : Nat}
    (hn : s.plans ≤ n)
    (hrows : ∀ r ∈ tasks.rows, ∀ p ∈ r.nextRunAt, p.task = r.id ∧ p.number < n) :
    State.Wired { s with tasks, plans := n } where
  keyed := h.keyed
  timed id e he p hp := ⟨(h.timed id e he p hp).1, (h.timed id e he p hp).2.trans_le hn⟩
  stored := hrows
  spent p hp := (h.spent p hp).trans_le hn
  fired f hf := (h.fired f hf).trans_le hn

/-- Updating one task keeps the plans wired when the new plan is. -/
theorem State.Wired.update {s : State} (h : s.Wired) {id n : Nat} {f : Row → Row}
    {hf : ∀ r, (f r).id = r.id} (hn : s.plans ≤ n)
    (hnext : ∀ r, ∀ p ∈ (f r).nextRunAt, p.task = id ∧ p.number < n) :
    State.Wired { s with tasks := s.tasks.update id f hf, plans := n } := by
  refine h.table hn fun r hr p hp => ?_
  rcases TaskTable.of_mem_update hf hr with ⟨hold, -⟩ | ⟨r₀, -, hid, rfl⟩
  · exact ⟨(h.stored r hold p hp).1, (h.stored r hold p hp).2.trans_le hn⟩
  · rw [hf, hid]
    exact hnext r₀ p hp

theorem State.Wired.move {F : State → Execution → DateTime → Int → Prop} {L : State → Prop} {c : Int}
    {s s' : State} (hm : Move F L c s s') (h : s.Wired) : s'.Wired := by
  cases hm with
  | aside htasks hrun hfired hspent hplans =>
    exact ⟨by rw [hrun]; exact h.keyed, by rw [hrun, hplans]; exact h.timed,
      by rw [htasks, hplans]; exact h.stored, by rw [hspent, hplans]; exact h.spent,
      by rw [hfired, hplans]; exact h.fired⟩
  | planned t p ht hfree hp =>
    refine h.update (Nat.le_succ _) fun r q hq => ?_
    obtain rfl := Option.some.inj hq
    exact hp.wired
  | started t p hrow hfree =>
    obtain ⟨r, hr, hid, hnext⟩ := hrow
    have hp := h.stored r hr p hnext
    have hfired : State.Wired { s with fired := s.fired ++ [⟨p, p ∈ s.spent⟩] } :=
      { h with
        fired := fun f hf => (List.mem_append.mp hf).elim (h.fired f) fun hf => by
          rw [List.mem_singleton.mp hf]
          exact hp.2 }
    refine hfired.setRun fun q hq => ?_
    obtain rfl := List.mem_singleton.mp hq
    exact ⟨hp.1.trans hid, hp.2⟩
  | rescheduled e e' now draw last next n hfin hrun hlive htask hcause hdone heffect hnow hnext hn =>
    have hupd : State.Wired
        { s with tasks := s.tasks.markTaskRun e.task.id last next, plans := n } := by
      refine h.update hn fun r q hq => ?_
      obtain ⟨hq, rfl⟩ := hnext q hq
      exact hq.wired
    refine hupd.setRun fun q hq => ?_
    rw [hcause] at hq
    rw [htask]
    obtain ⟨htk, hlt⟩ := h.timed _ e hrun q hq
    exact ⟨htk, hlt.trans_le hn⟩
  | broken e e' now draw hfin hrun hlive htask hcause hdone heffect hesc =>
    refine h.setRun fun q hq => ?_
    rw [hcause] at hq
    rw [htask]
    exact h.timed _ e hrun q hq
  | advanced t last next n ht hfree hnext hn =>
    refine h.update hn fun r q hq => ?_
    obtain ⟨hq, rfl⟩ := hnext q hq
    exact hq.wired
  | entered e hfree hcause =>
    refine h.setRun fun q hq => ?_
    rw [hcause] at hq
    cases hq
  | continued e e' hrun hlive htask hcause hlive' heffect =>
    refine h.setRun fun q hq => ?_
    rw [htask]
    rw [hcause] at hq
    exact h.timed _ e hrun q hq
  | effected e hrun hlive =>
    have hspent : State.Wired { s with spent := e.cause.plans ++ s.spent } :=
      { h with
        spent := fun p hp => (List.mem_append.mp hp).elim
          (fun hp => (h.timed _ e hrun p hp).2) (h.spent p) }
    exact hspent.setRun fun q hq => h.timed _ e hrun q hq
  | left id e hrun hover =>
    exact { h with
      keyed := fun id' e' he' => h.keyed id' e' (of_erase he').2
      timed := fun id' e' he' => h.timed id' e' (of_erase he').2 }
  | synced incoming hids =>
    refine h.table le_rfl fun r hr p hp => ?_
    rcases TaskTable.of_mem_replaceTasks hr with hnone | ⟨r₀, h₀, hid, -, hnext⟩
    · rw [hnone] at hp
      cases hp
    · rw [← hid]
      exact h.stored r₀ h₀ p (hnext ▸ hp)
  | lost hl =>
    exact { h with
      keyed := fun id e he => by cases he
      timed := fun id e he => by cases he }

/-! ## Steps are chains of moves -/

/-- The moves of a step under the label `a`. -/
abbrev State.StepMoves (s : State) (a : Act) : State → State → Prop :=
  Moves (fun s₁ e now draw => s₁ = s ∧ s.finishes a = some (e, now, draw))
    (fun s₁ => a.ends = true ∧ s₁.running = s.running) (s.clockAfter a)

theorem TaskTable.mem_of_task {t : TaskTable} {id : Nat} {r : Row} (h : t.task id = some r) :
    r ∈ t.rows ∧ r.id = id :=
  ⟨List.mem_of_find?_eq_some h, by simpa using List.find?_some h⟩

/-- **A step is a chain of moves**, and it reads the clock at most once. -/
theorem State.step_moves {s s' : State} {a : Act} (hw : s.Wired) (h : s.step a = some s') :
    s.StepMoves a s s' ∧ s'.clock = s.clockAfter a := by
  cases a with
  | tick now draws =>
    rw [step] at h
    split at h
    · obtain rfl := Option.some.inj h
      exact ⟨Moves.clocked (State.tickOnce_moves s.tasks.allTasks_nodup fun t ht =>
        s.tasks.allTasks_perm.mem_iff.mp ht) _, rfl⟩
    · cases h
  | perform id worker now draw =>
    rw [step] at h
    cases hrun : s.running.get? id with
    | none => rw [hrun] at h; cases h
    | some e =>
      obtain rfl := hw.keyed id e hrun
      simp only [hrun] at h
      split at h
      · rename_i hphase
        obtain rfl := Option.some.inj h
        have hlive : e.phase ≠ .done := by rw [hphase]; decide
        refine ⟨Moves.clocked ?_ _, rfl⟩
        rw [State.perform]
        by_cases hp : performs worker e.task = true
        · rw [if_pos hp]
          exact .single (.continued e { e with attempts := e.attempts + 1, phase := .calling } hrun
            hlive rfl rfl nofun rfl)
        · rw [if_neg hp]
          refine State.conclude_moves _ _ ⟨rfl, ?_⟩ hrun hlive
          simp only [finishes, hrun]
          exact if_pos ⟨hphase, by simpa using hp⟩
      · cases h
  | effect id =>
    rw [step] at h
    cases hrun : s.running.get? id with
    | none => rw [hrun] at h; cases h
    | some e =>
      obtain rfl := hw.keyed id e hrun
      simp only [hrun] at h
      split at h
      · rename_i hphase
        obtain rfl := Option.some.inj h
        exact ⟨.single (.effected e hrun (by rw [hphase]; decide)), rfl⟩
      · cases h
  | reply id r now draw =>
    rw [step] at h
    cases hrun : s.running.get? id with
    | none => rw [hrun] at h; cases h
    | some e =>
      obtain rfl := hw.keyed id e hrun
      simp only [hrun] at h
      split at h
      · rename_i hphase
        obtain rfl := Option.some.inj h
        have hlive : e.phase ≠ .done := by rw [hphase]; decide
        refine ⟨Moves.clocked ?_ _, rfl⟩
        refine State.reply_moves r draw hrun hlive fun hm hover => ⟨rfl, ?_⟩
        simp only [finishes, hrun]
        exact if_pos ⟨hphase, hm, hover⟩
      · cases h
  | reap id =>
    rw [step] at h
    cases hrun : s.running.get? id with
    | none => rw [hrun] at h; cases h
    | some e =>
      simp only [hrun] at h
      split at h
      · rename_i hphase
        obtain rfl := Option.some.inj h
        exact ⟨.single (.left id e hrun (.inl hphase)), rfl⟩
      · cases h
  | runNow id =>
    rw [step] at h
    split at h
    · cases h
    · rename_i hfree
      rw [not_or] at hfree
      cases ht : s.tasks.task id with
      | none => rw [ht] at h; cases h
      | some t =>
        rw [ht] at h
        obtain rfl := Option.some.inj h
        obtain ⟨-, rfl⟩ := TaskTable.mem_of_task ht
        exact ⟨.single (.entered _ (Option.not_isSome_iff_eq_none.mp hfree.2) rfl), rfl⟩
  | runManual id runId worker now draw =>
    rw [step] at h
    split at h
    · cases h
    · rename_i hfree
      rw [not_or] at hfree
      cases ht : s.tasks.task id with
      | none => rw [ht] at h; cases h
      | some t =>
        rw [ht] at h
        obtain rfl := Option.some.inj h
        obtain ⟨hmem, rfl⟩ := TaskTable.mem_of_task ht
        exact ⟨Moves.clocked (State.runManual_moves runId worker draw hmem
          (Option.not_isSome_iff_eq_none.mp hfree.2)) _, rfl⟩
  | sync incoming =>
    rw [step] at h
    split at h
    · rename_i hin
      obtain rfl := Option.some.inj h
      exact ⟨.single (.synced incoming hin.2), rfl⟩
    · cases h
  | stop now =>
    rw [step] at h
    split at h
    · obtain rfl := Option.some.inj h
      obtain ⟨hmoves, hrun⟩ := State.cancel_moves
        (F := fun s₁ e now' draw => s₁ = s ∧ s.finishes (.stop now) = some (e, now', draw))
        (L := fun s₁ => Act.ends (.stop now) = true ∧ s₁.running = s.running)
        (c := s.clockAfter (.stop now)) now s (s.running.entries.map Prod.snd)
      exact ⟨hmoves.trans (.head (.lost ⟨rfl, hrun⟩) (Moves.aside rfl rfl rfl rfl rfl)), rfl⟩
    · cases h
  | crash =>
    rw [step] at h
    split at h
    · obtain rfl := Option.some.inj h
      exact ⟨.head (.lost ⟨rfl, rfl⟩) (Moves.aside rfl rfl rfl rfl rfl), rfl⟩
    · cases h
  | restart =>
    rw [step] at h
    split at h
    · cases h
    · obtain rfl := Option.some.inj h
      exact ⟨Moves.aside rfl rfl rfl rfl rfl, rfl⟩

theorem State.Starts.wired {s : State} (h : s.Starts) : s.Wired where
  keyed id e he := by rw [Dict.get?, h.running] at he; cases he
  timed id e he := by rw [Dict.get?, h.running] at he; cases he
  stored r hr := by rw [h.tasks] at hr; cases hr
  spent p hp := by rw [h.spent] at hp; cases hp
  fired f hf := by rw [h.fired] at hf; cases hf

/-- Every run keeps the wiring. -/
theorem wired {G : State → Act → Prop} {s : State} (h : scheduler.ReachableBy G s) : s.Wired :=
  h.invariant (I := State.Wired) (fun _ (hs : State.Starts _) => hs.wired)
    fun _ _ _ hw _ hstep => (State.step_moves hw hstep).1.invariant (fun _ _ => .move) hw

/-- **The run rule.**  `I c s` may speak about the clock reading `c`.  What holds of a new store,
    survives a later reading, and is preserved by every move of a guarded step, holds in every state
    of a guarded run. -/
theorem run_invariant {G : State → Act → Prop} {I : Int → State → Prop}
    (hstart : ∀ s : State, s.Starts → I s.clock s)
    (hlater : ∀ s a, G s a → ∀ s₁, I s.clock s₁ → I (s.clockAfter a) s₁)
    (hmove : ∀ s a, G s a → ∀ s₁ s₂,
      Move (fun t e now draw => t = s ∧ s.finishes a = some (e, now, draw))
        (fun t => a.ends = true ∧ t.running = s.running) (s.clockAfter a) s₁ s₂ →
      s₁.Wired → I (s.clockAfter a) s₁ → I (s.clockAfter a) s₂)
    {s : State} (h : scheduler.ReachableBy G s) : I s.clock s := by
  refine h.bundle (I := State.Wired) (J := fun s => I s.clock s) (fun _ => wired)
    (fun s (hs : State.Starts s) => hstart s hs) ?_
  intro s a s' hw hI hg hstep
  obtain ⟨hmoves, hclock⟩ := State.step_moves hw hstep
  have hboth : s'.Wired ∧ I (s.clockAfter a) s' :=
    hmoves.invariant (I := fun t => t.Wired ∧ I (s.clockAfter a) t)
      (fun s₁ s₂ hm hs => ⟨hs.1.move hm, hmove s a hg s₁ s₂ hm hs.1 hs.2⟩)
      ⟨hw, hlater s a hg s hI⟩
  rw [hclock]
  exact hboth.2

end Air780eHub.Schedule
