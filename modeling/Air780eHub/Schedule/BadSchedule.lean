/-
  One bad schedule and the other tasks.

  `tick_once` looks at the tasks one after another, and only a ScheduleError of `next_run` is caught.
  1. **One task** (`examine_ok`, `examine_error`): what looking at a task does, and exactly when it
     raises.
  2. **The loop** (`tickOnce_completes`, `tickOnce_spec`): it reaches its end exactly when no task
     raises, and then every due task is started and every unusable expression is reported.
  3. **The whole tick** (`tick_whole`): the condition on the stored tasks, the clock and the draws
     under which one bad schedule does not stop the others.  `tick_cut_short`: an interval of `nan`
     days is a `float`, and the tick dies on it before it reaches the next task.
-/
import Air780eHub.Schedule.Runner

namespace Air780eHub.Schedule

/-! ## One task -/

/-- The tick plans and starts only enabled tasks that do not run. -/
def State.Idle (s : State) (t : Row) : Prop := t.enabled = true ∧ s.running.get? t.id = none

/-- The schedule of `t` is valid and it is time to run it. -/
def Row.Due (t : Row) (now : DateTime) (draw : Int) : Prop :=
  (∃ p, t.nextRunAt = some p ∧ p.due.utc ≤ now.utc)
    ∨ (t.nextRunAt = none ∧ ∃ m, nextRun t.schedule (t.anchor now) now draw = .ok m
        ∧ m.utc ≤ now.utc)

/-- The schedule of `t` has to be planned and cannot be. -/
def Row.Unusable (t : Row) (now : DateTime) (draw : Int) : Prop :=
  t.nextRunAt = none ∧ ∃ e, nextRun t.schedule (t.anchor now) now draw = .error e

/-- An execution of `t` that a tick has just started. -/
def State.Started (s : State) (t : Row) : Prop :=
  ∃ p, s.running.get? t.id = some ⟨t, .timer p, 0, .waiting, false⟩

/-- Among the receipts after the first `n` is a skipped one of `t`. -/
def State.Skipped (s : State) (n : Nat) (t : Row) : Prop :=
  ∃ r ∈ s.receipts.drop n, r.taskId = t.id ∧ r.status = .skipped ∧ r.attempts = 0

@[simp] theorem State.setRun_get? (s : State) (e : Execution) :
    (s.setRun e).running.get? e.task.id = some e := Dict.get?_set

@[simp] theorem State.report_running (s : State) (t : Row) (runId : Option String) (st : Status)
    (n : Int) (m : DateTime) (p : Option Plan) :
    (s.report t runId st n m p).running = s.running := rfl

theorem State.start_started (s : State) (t : Row) (p : Plan) : (s.start t p).Started t :=
  ⟨p, Dict.get?_set⟩

theorem State.start_other {s : State} {t t' : Row} {p : Plan} (h : t'.id ≠ t.id) :
    (s.start t p).running.get? t'.id = s.running.get? t'.id := Dict.get?_set_ne h

/-- What looking at `t` leaves alone. -/
structure State.Aside (s s' : State) (t : Row) : Prop where
  others   : ∀ t' : Row, t'.id ≠ t.id → s'.running.get? t'.id = s.running.get? t'.id
  receipts : s.receipts <+: s'.receipts

theorem State.Aside.refl (s : State) (t : Row) : s.Aside s t := ⟨fun _ _ => rfl, List.prefix_refl _⟩

theorem State.Aside.start {s s' : State} {t : Row} (h : s.Aside s' t) (p : Plan) :
    s.Aside (s'.start t p) t where
  others t' ht := (State.start_other ht).trans (h.others t' ht)
  receipts := h.receipts

/-- `_plan` stores a plan, or reports a ScheduleError, or raises. -/
theorem State.plan_cases (s : State) (t : Row) (now : DateTime) (draw : Int) :
    (∃ s' m p, s.plan t now draw = .ok (s', some (p, m)) ∧ s'.running = s.running
        ∧ s'.receipts = s.receipts ∧ nextRun t.schedule (t.anchor now) now draw = .ok m)
      ∨ (s.plan t now draw = .ok (s.report t none .skipped 0 now none, none)
          ∧ nextRun t.schedule (t.anchor now) now draw = .error .scheduleError)
      ∨ ∃ e, s.plan t now draw = .error e
          ∧ nextRun t.schedule (t.anchor now) now draw = .error e ∧ e ≠ .scheduleError := by
  rw [plan]
  cases hn : nextRun t.schedule (t.anchor now) now draw with
  | ok m => exact .inl ⟨_, m, _, rfl, rfl, rfl, rfl⟩
  | error e =>
    cases e with
    | scheduleError => exact .inr (.inl ⟨rfl, rfl⟩)
    | valueError => exact .inr (.inr ⟨_, rfl, rfl, nofun⟩)
    | overflowError => exact .inr (.inr ⟨_, rfl, rfl, nofun⟩)

/-- **Looking at a task raises exactly when its schedule escapes `except ScheduleError`.** -/
theorem State.examine_error (s : State) (now : DateTime) (draws : Nat → Int) (t : Row) :
    (∃ e, s.examine now draws t = .error e)
      ↔ s.Idle t ∧ t.nextRunAt = none ∧ t.schedule.Escapes (t.anchor now) (draws t.id) := by
  rw [← nextRun_escapes t.schedule (t.anchor now) now (draws t.id), examine]
  by_cases hidle : t.enabled = false ∨ (s.running.get? t.id).isSome
  · rw [if_pos hidle]
    constructor
    · rintro ⟨e, he⟩
      injection he
    · rintro ⟨⟨hen, hrun⟩, -⟩
      rcases hidle with hoff | hsome
      · rw [hen] at hoff; cases hoff
      · rw [hrun] at hsome; cases hsome
  · rw [if_neg hidle]
    have hs : s.Idle t := by
      rw [not_or] at hidle
      exact ⟨Bool.not_eq_false _ ▸ hidle.1, Option.not_isSome_iff_eq_none.mp hidle.2⟩
    cases hnext : t.nextRunAt with
    | some p =>
      constructor
      · rintro ⟨e, he⟩
        injection he
      · rintro ⟨-, hnone, -⟩
        cases hnone
    | none =>
      rcases s.plan_cases t now (draws t.id) with
        ⟨s', m, p, hp, -, -, hn⟩ | ⟨hp, hn⟩ | ⟨e, hp, hn, hne⟩
      · rw [hp]
        constructor
        · rintro ⟨e, he⟩
          injection he
        · rintro ⟨-, -, e, he, -⟩
          rw [hn] at he; injection he
      · rw [hp]
        constructor
        · rintro ⟨e, he⟩
          injection he
        · rintro ⟨-, -, e, he, hne⟩
          rw [hn] at he
          exact absurd (Except.error.inj he).symm hne
      · rw [hp]
        exact ⟨fun _ => ⟨hs, rfl, e, hn, hne⟩, fun _ => ⟨e, rfl⟩⟩

/-- **What looking at a task does when it does not raise.**  A due task is started, an unusable
    expression is reported, and the other tasks are left alone. -/
theorem State.examine_ok {s s' : State} {now : DateTime} {draws : Nat → Int} {t : Row}
    (h : s.examine now draws t = .ok s') :
    s.Aside s' t
      ∧ (s.Idle t → t.Due now (draws t.id) → s'.Started t)
      ∧ (s.Idle t → t.Unusable now (draws t.id) → s'.Skipped s.receipts.length t) := by
  rw [examine] at h
  by_cases hidle : t.enabled = false ∨ (s.running.get? t.id).isSome
  · rw [if_pos hidle] at h
    obtain rfl := Except.ok.inj h
    have hbusy : ¬ s.Idle t := by
      rintro ⟨hen, hrun⟩
      rcases hidle with hoff | hsome
      · rw [hen] at hoff; cases hoff
      · rw [hrun] at hsome; cases hsome
    exact ⟨.refl s t, fun hi => absurd hi hbusy, fun hi => absurd hi hbusy⟩
  · rw [if_neg hidle] at h
    cases hnext : t.nextRunAt with
    | some p =>
      rw [hnext] at h
      obtain rfl := Except.ok.inj h
      have hunusable : ¬ t.Unusable now (draws t.id) := by
        rintro ⟨hnone, -⟩
        rw [hnext] at hnone; cases hnone
      by_cases hlt : now.utc < p.due.utc
      · rw [if_pos hlt]
        refine ⟨.refl s t, fun _ hdue => ?_, fun _ hbad => absurd hbad hunusable⟩
        rcases hdue with ⟨p', hp', hle⟩ | ⟨hnone, -⟩
        · obtain rfl := Option.some.inj (hnext.symm.trans hp')
          omega
        · rw [hnext] at hnone; cases hnone
      · rw [if_neg hlt]
        exact ⟨(State.Aside.refl s t).start p, fun _ _ => s.start_started t p,
          fun _ hbad => absurd hbad hunusable⟩
    | none =>
      rw [hnext] at h
      rcases s.plan_cases t now (draws t.id) with
        ⟨s₁, m, p, hp, hrun, hrec, hn⟩ | ⟨hp, hn⟩ | ⟨e, hp, hn, hne⟩
      · rw [hp] at h
        obtain rfl := Except.ok.inj h
        have haside : s.Aside s₁ t := ⟨fun t' _ => by rw [hrun], hrec ▸ List.prefix_refl _⟩
        have hunusable : ¬ t.Unusable now (draws t.id) := by
          rintro ⟨-, e, he⟩
          rw [hn] at he; injection he
        by_cases hlt : now.utc < m.utc
        · simp only [if_pos hlt]
          refine ⟨haside, fun _ hdue => ?_, fun _ hbad => absurd hbad hunusable⟩
          rcases hdue with ⟨p', hp', -⟩ | ⟨-, m', hm', hle⟩
          · rw [hnext] at hp'; cases hp'
          · obtain rfl := Except.ok.inj (hn.symm.trans hm')
            omega
        · simp only [if_neg hlt]
          exact ⟨haside.start p, fun _ _ => s₁.start_started t p,
            fun _ hbad => absurd hbad hunusable⟩
      · rw [hp] at h
        obtain rfl := Except.ok.inj h
        refine ⟨⟨fun _ _ => rfl, List.prefix_append _ _⟩, fun _ hdue => ?_, fun _ _ => ?_⟩
        · rcases hdue with ⟨p', hp', -⟩ | ⟨-, m', hm', -⟩
          · rw [hnext] at hp'; cases hp'
          · rw [hn] at hm'; injection hm'
        · refine ⟨⟨none, t.id, t.device, now.stamp, .skipped, 0, none, t.notify⟩, ?_, rfl, rfl, rfl⟩
          show _ ∈ (s.receipts ++ [_]).drop s.receipts.length
          rw [List.drop_left]
          exact List.mem_singleton_self _
      · rw [hp] at h
        injection h

/-! ## The loop -/

/-- Looking at `t` does not change whether another task is idle. -/
theorem State.Aside.idle {s s' : State} {t t' : Row} (h : s.Aside s' t) (hne : t'.id ≠ t.id) :
    s'.Idle t' ↔ s.Idle t' := by
  rw [Idle, Idle, h.others t' hne]

/-- **The loop reaches its end exactly when no idle, unplanned task has an escaping schedule.** -/
theorem State.tickOnce_completes (now : DateTime) (draws : Nat → Int) (s : State) (ts : List Row)
    (hts : (ts.map Row.id).Nodup) :
    (s.tickOnce now draws ts).2 = none
      ↔ ∀ t ∈ ts, s.Idle t → t.nextRunAt = none
          → ¬ t.schedule.Escapes (t.anchor now) (draws t.id) := by
  induction ts generalizing s with
  | nil => exact ⟨fun _ t ht => absurd ht List.not_mem_nil, fun _ => rfl⟩
  | cons t ts ih =>
    rw [List.map_cons, List.nodup_cons] at hts
    obtain ⟨hnew, hts⟩ := hts
    have hne : ∀ t' ∈ ts, t'.id ≠ t.id := fun t' ht' heq =>
      hnew (heq ▸ List.mem_map_of_mem ht')
    rw [tickOnce]
    cases he : s.examine now draws t with
    | error e =>
      -- the exception leaves the rest of the tasks unseen
      obtain ⟨hidle, hnone, hesc⟩ := (s.examine_error now draws t).mp ⟨e, he⟩
      constructor
      · intro hend
        cases hend
      · intro hall
        exact absurd hesc (hall t List.mem_cons_self hidle hnone)
    | ok s' =>
      have haside := (State.examine_ok he).1
      have hhead : s.Idle t → t.nextRunAt = none
          → ¬ t.schedule.Escapes (t.anchor now) (draws t.id) := by
        intro hidle hnone hesc
        obtain ⟨e, he'⟩ := (s.examine_error now draws t).mpr ⟨hidle, hnone, hesc⟩
        rw [he] at he'
        injection he'
      show (s'.tickOnce now draws ts).2 = none ↔ _
      rw [ih s' hts]
      constructor
      · intro hall t' ht'
        rcases List.mem_cons.mp ht' with rfl | ht'
        · exact hhead
        · intro hidle
          exact hall t' ht' ((haside.idle (hne t' ht')).mpr hidle)
      · intro hall t' ht' hidle
        exact hall t' (List.mem_cons_of_mem _ ht') ((haside.idle (hne t' ht')).mp hidle)

/-- What the loop leaves alone: what it reported, and the executions of tasks it does not visit. -/
theorem State.tickOnce_aside (now : DateTime) (draws : Nat → Int) (s : State) (ts : List Row) :
    s.receipts <+: (s.tickOnce now draws ts).1.receipts
      ∧ ∀ id, id ∉ ts.map Row.id →
          (s.tickOnce now draws ts).1.running.get? id = s.running.get? id := by
  induction ts generalizing s with
  | nil => exact ⟨List.prefix_refl _, fun _ _ => rfl⟩
  | cons t ts ih =>
    rw [tickOnce]
    cases he : s.examine now draws t with
    | error e => exact ⟨List.prefix_refl _, fun _ _ => rfl⟩
    | ok s' =>
      have haside := (State.examine_ok he).1
      obtain ⟨hrec, hrun⟩ := ih s'
      refine ⟨haside.receipts.trans hrec, fun id hid => ?_⟩
      rw [List.map_cons, List.mem_cons, not_or] at hid
      exact (hrun id hid.2).trans (haside.others { t with id := id } hid.1)

/-- **A loop that reaches its end starts every due task and reports every unusable one.** -/
theorem State.tickOnce_spec {now : DateTime} {draws : Nat → Int} {s : State} {ts : List Row}
    (hts : (ts.map Row.id).Nodup) (hend : (s.tickOnce now draws ts).2 = none) :
    ∀ t ∈ ts, s.Idle t →
      (t.Due now (draws t.id) → (s.tickOnce now draws ts).1.Started t)
      ∧ (t.Unusable now (draws t.id) →
          (s.tickOnce now draws ts).1.Skipped s.receipts.length t) := by
  induction ts generalizing s with
  | nil => exact fun t ht => absurd ht List.not_mem_nil
  | cons t ts ih =>
    rw [List.map_cons, List.nodup_cons] at hts
    obtain ⟨hnew, hts⟩ := hts
    rw [tickOnce] at hend ⊢
    cases he : s.examine now draws t with
    | error e =>
      rw [he] at hend
      cases hend
    | ok s' =>
      rw [he] at hend
      obtain ⟨haside, hdue, hbad⟩ := State.examine_ok he
      obtain ⟨hrec, hrun⟩ := s'.tickOnce_aside now draws ts
      show ∀ t' ∈ t :: ts, s.Idle t' →
        (t'.Due now (draws t'.id) → (s'.tickOnce now draws ts).1.Started t')
        ∧ (t'.Unusable now (draws t'.id) →
            (s'.tickOnce now draws ts).1.Skipped s.receipts.length t')
      intro t' ht' hidle
      rcases List.mem_cons.mp ht' with rfl | ht'
      · constructor
        · intro hd
          obtain ⟨p, hp⟩ := hdue hidle hd
          exact ⟨p, (hrun t'.id hnew).trans hp⟩
        · intro hu
          obtain ⟨r, hr, hspec⟩ := hbad hidle hu
          obtain ⟨more, hmore⟩ := hrec
          refine ⟨r, ?_, hspec⟩
          rw [← hmore, List.drop_append]
          exact List.mem_append_left _ hr
      · have hne : t'.id ≠ t.id := fun heq => hnew (heq ▸ List.mem_map_of_mem ht')
        obtain ⟨hd, hu⟩ := ih hts hend t' ht' ((haside.idle hne).mpr hidle)
        refine ⟨hd, fun hbad' => ?_⟩
        obtain ⟨r, hr, hspec⟩ := hu hbad'
        exact ⟨r, (List.drop_sublist_drop_left _ haside.receipts.length_le).subset hr, hspec⟩

/-! ## The whole tick -/

/-- The tick examines every task: it reaches its end, every due task is started, and every unusable
    expression is reported as skipped. -/
structure State.TickWhole (s : State) (now : DateTime) (draws : Nat → Int) : Prop where
  completes : (s.tickOnce now draws s.tasks.allTasks).2 = none
  started   : ∀ t ∈ s.tasks.rows, s.Idle t → t.Due now (draws t.id) →
    (s.tickOnce now draws s.tasks.allTasks).1.Started t
  reported  : ∀ t ∈ s.tasks.rows, s.Idle t → t.Unusable now (draws t.id) →
    (s.tickOnce now draws s.tasks.allTasks).1.Skipped s.receipts.length t

theorem TaskTable.allTasks_perm (t : TaskTable) : t.allTasks.Perm t.rows :=
  List.perm_insertionSort _ _

theorem TaskTable.allTasks_nodup (t : TaskTable) : (t.allTasks.map Row.id).Nodup :=
  (t.allTasks_perm.map Row.id).nodup_iff.mpr t.keys

/-- **When one bad schedule does not stop the others.**  For every table, clock and draws, the tick
    examines every task if and only if no enabled, idle task without a stored plan has a schedule
    that date arithmetic gives up on: an interval that is not a number, infinite or too long, or a
    plan beyond the end of the calendar. -/
theorem tick_whole (s : State) (now : DateTime) (draws : Nat → Int) :
    s.TickWhole now draws
      ↔ ∀ t ∈ s.tasks.rows, t.enabled = true → s.running.get? t.id = none → t.nextRunAt = none
          → ¬ t.schedule.Escapes (t.anchor now) (draws t.id) := by
  have hperm := s.tasks.allTasks_perm
  have hcomplete := s.tickOnce_completes now draws _ s.tasks.allTasks_nodup
  constructor
  · rintro ⟨hend, -, -⟩ t ht hen hrun
    exact hcomplete.mp hend t (hperm.mem_iff.mpr ht) ⟨hen, hrun⟩
  · intro hall
    have hend : (s.tickOnce now draws s.tasks.allTasks).2 = none :=
      hcomplete.mpr fun t ht hidle => hall t (hperm.mem_iff.mp ht) hidle.1 hidle.2
    have hspec := State.tickOnce_spec s.tasks.allTasks_nodup hend
    exact ⟨hend, fun t ht hidle => (hspec t (hperm.mem_iff.mpr ht) hidle).1,
      fun t ht hidle => (hspec t (hperm.mem_iff.mpr ht) hidle).2⟩

/-- A task that has to be planned and one that has been due for a day. -/
def nanTable : TaskTable where
  rows := [
    ⟨1, "m", true, "ping", "", "", ⟨"interval", "nan", 0⟩, 0, true, none, none⟩,
    ⟨2, "m", true, "ping", "", "", ⟨"interval", "25", 0⟩, 0, true, none,
      some ⟨⟨0, 0⟩, 0, 2, none, ⟨"interval", "25", 0⟩⟩⟩]
  keys := by decide

def nanState : State := ⟨nanTable, ∅, true, 0, [], [], [], 0⟩

/-- **An interval of `nan` days ends the tick.**  `float` accepts it and `timedelta` raises a
    ValueError, which is no ScheduleError: the tick ends before the second task, which is due. -/
theorem tick_cut_short :
    ∃ t ∈ nanState.tasks.rows, nanState.Idle t ∧ t.Due ⟨DAY, 0⟩ 0
      ∧ (nanState.tickOnce ⟨DAY, 0⟩ (fun _ => 0) nanState.tasks.allTasks).2 = some .valueError
      ∧ (nanState.tickOnce ⟨DAY, 0⟩ (fun _ => 0) nanState.tasks.allTasks).1.running.get? t.id = none
      ∧ ¬ nanState.TickWhole ⟨DAY, 0⟩ fun _ => 0 := by
  have hraise : (nanState.tickOnce ⟨DAY, 0⟩ (fun _ => 0) nanState.tasks.allTasks).2
      = some .valueError := by decide +kernel
  refine ⟨_, List.mem_cons_of_mem _ List.mem_cons_self, ⟨rfl, rfl⟩,
    .inl ⟨_, rfl, by decide⟩, hraise, by decide +kernel, fun hwhole => ?_⟩
  rw [hwhole.completes] at hraise
  cases hraise

end Air780eHub.Schedule
