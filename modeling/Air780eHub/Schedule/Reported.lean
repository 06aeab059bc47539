/-
  How often a bad schedule is reported.

  `_plan` reports a ScheduleError and leaves `next_run_at` NULL, which is what made the tick plan the
  task: nothing says that it was reported.

  1. **The loop of a tick** (`tickOnce_reports`): it adds one such receipt for a task exactly when it
     gets to the task and cannot plan it.
  2. **Other steps** add none (`step_reports`); what tells their receipts apart is the run id, the
     status, or an attempt that was counted.
  3. **Runs** (`reported_once_iff`): a run without a sync reports a task as often as a tick finds it
     like that.
-/
import Air780eHub.Schedule.Moves

namespace Air780eHub.Schedule

/-- A receipt of `_plan` for the task `id`: skipped before any attempt, and no command. -/
def Receipt.isBad (id : Nat) (r : Receipt) : Bool :=
  r.taskId == id && r.status == .skipped && r.attempts == 0 && r.runId.isNone

/-- The receipts from `s` to `s'`, of which `n` are of `_plan` for the task `id`. -/
def State.Reports (id : Nat) (s s' : State) (n : Nat) : Prop :=
  ∃ new, s'.receipts = s.receipts ++ new ∧ new.countP (Receipt.isBad id) = n

section

variable {id : Nat} {s s' s'' : State} {n m : Nat}

theorem State.Reports.of_eq (h : s'.receipts = s.receipts) : s.Reports id s' 0 :=
  ⟨[], by rw [h, List.append_nil], rfl⟩

theorem State.Reports.trans (h : s.Reports id s' n) (h' : s'.Reports id s'' m) : s.Reports id s'' (n + m) := by
  obtain ⟨new, hnew, hn⟩ := h
  obtain ⟨new', hnew', hm⟩ := h'
  refine ⟨new ++ new', ?_, ?_⟩
  · rw [hnew', hnew, List.append_assoc]
  · rw [List.countP_append, hn, hm]

/-- A receipt of something else. -/
theorem State.Reports.other {r : Receipt} (h : s'.receipts = s.receipts ++ [r])
    (hr : r.isBad id = false) : s.Reports id s' 0 := by
  refine ⟨[r], h, ?_⟩
  rw [List.countP_singleton, hr]
  rfl

theorem State.Reports.receipt {r : Receipt} (h : s'.receipts = s.receipts ++ [r]) :
    s.Reports id s' (if r.isBad id then 1 else 0) := by
  refine ⟨[r], h, ?_⟩
  rw [List.countP_singleton]

end

/-! ## The loop of a tick -/

/-- The tick has to plan `t` and cannot. -/
def State.unplannable (s : State) (now : DateTime) (draws : Nat → Int) (t : Row) : Bool :=
  t.enabled && (s.running.get? t.id).isNone && t.nextRunAt.isNone &&
    match nextRun t.schedule (t.anchor now) now (draws t.id) with
    | .error .scheduleError => true
    | _                     => false

/-- The loop gets to the task `id`, which has to be planned and cannot be. -/
def State.findsIn (s : State) (now : DateTime) (draws : Nat → Int) (id : Nat) : List Row → Bool
  | []      => false
  | t :: ts => (t.id == id && s.unplannable now draws t) ||
      ((s.examine now draws t).isOk && s.findsIn now draws id ts)

section

variable {s s' : State} {now : DateTime} {draws : Nat → Int} {id : Nat}

/-- **One round.** -/
theorem State.examine_reports {t : Row} (h : s.examine now draws t = .ok s') :
    s.Reports id s' (if t.id == id && s.unplannable now draws t then 1 else 0) := by
  rw [examine] at h
  by_cases hidle : t.enabled = false ∨ (s.running.get? t.id).isSome
  · rw [if_pos hidle] at h
    obtain rfl := Except.ok.inj h
    have hno : s.unplannable now draws t = false := by
      rw [unplannable]
      rcases hidle with hoff | hrun
      · rw [hoff]
        rfl
      · rw [Option.isSome_iff_exists] at hrun
        obtain ⟨e, he⟩ := hrun
        rw [he, Option.isNone_some, Bool.and_false]
        rfl
    rw [hno, Bool.and_false]
    exact .of_eq rfl
  · rw [if_neg hidle] at h
    rw [not_or, Bool.not_eq_false, Option.not_isSome_iff_eq_none] at hidle
    cases hnext : t.nextRunAt with
    | some p =>
      have hno : s.unplannable now draws t = false := by
        rw [unplannable, hnext, Option.isNone_some, Bool.and_false]
        rfl
      rw [hnext] at h
      obtain rfl := Except.ok.inj h
      rw [hno, Bool.and_false]
      refine .of_eq ?_
      split
      · rfl
      · rfl
    | none =>
      rw [hnext] at h
      have hplan : s.unplannable now draws t =
          match nextRun t.schedule (t.anchor now) now (draws t.id) with
          | .error .scheduleError => true
          | _                     => false := by
        rw [unplannable, hidle.1, hidle.2, hnext]
        rfl
      rcases s.plan_cases t now (draws t.id) with
        ⟨s₁, m, p, hp, -, hrec, hn⟩ | ⟨hp, hn⟩ | ⟨e, hp, -, -⟩
      · rw [hp] at h
        obtain rfl := Except.ok.inj h
        rw [hplan, hn, Bool.and_false]
        refine .of_eq ?_
        split
        · exact hrec
        · exact hrec
      · rw [hp] at h
        obtain rfl := Except.ok.inj h
        rw [hplan, hn, Bool.and_true]
        have hbad : Receipt.isBad id ⟨none, t.id, t.device, now.stamp, .skipped, 0, none, t.notify⟩
            = (t.id == id) := by simp [Receipt.isBad]
        rw [← hbad]
        exact .receipt rfl
      · rw [hp] at h
        cases h

/-- What the loop finds depends on what runs of the tasks it visits. -/
theorem State.findsIn_congr {ts : List Row}
    (h : ∀ t ∈ ts, s'.running.get? t.id = s.running.get? t.id) :
    s'.findsIn now draws id ts = s.findsIn now draws id ts := by
  induction ts with
  | nil => rfl
  | cons t ts ih =>
    rw [List.forall_mem_cons] at h
    have hplan : s'.unplannable now draws t = s.unplannable now draws t := by
      rw [unplannable, unplannable, h.1]
    have hok : (s'.examine now draws t).isOk = (s.examine now draws t).isOk := by
      have hidle : s'.Idle t ↔ s.Idle t := by rw [Idle, Idle, h.1]
      have herr : (∃ e, s'.examine now draws t = .error e) ↔
          ∃ e, s.examine now draws t = .error e := by
        rw [s'.examine_error, s.examine_error, hidle]
      cases he : s.examine now draws t with
      | error e =>
        obtain ⟨e', he'⟩ := herr.mpr ⟨e, he⟩
        rw [he']
        rfl
      | ok u =>
        cases he' : s'.examine now draws t with
        | error e' =>
          obtain ⟨e, herr'⟩ := herr.mp ⟨e', he'⟩
          rw [he] at herr'
          cases herr'
        | ok u' => rfl
    rw [findsIn, findsIn, hplan, hok, ih h.2]

theorem State.findsIn_absent {ts : List Row} (h : id ∉ ts.map Row.id) :
    s.findsIn now draws id ts = false := by
  induction ts with
  | nil => rfl
  | cons t ts ih =>
    rw [List.map_cons, List.mem_cons, not_or] at h
    rw [findsIn, ih h.2, beq_false_of_ne (Ne.symm h.1), Bool.and_false]
    rfl

/-- **The loop** reports a task that it cannot plan, if it gets to it. -/
theorem State.tickOnce_reports {ts : List Row} (hts : (ts.map Row.id).Nodup) :
    s.Reports id (s.tickOnce now draws ts).1 (if s.findsIn now draws id ts then 1 else 0) := by
  induction ts generalizing s with
  | nil => exact .of_eq rfl
  | cons t ts ih =>
    rw [List.map_cons, List.nodup_cons] at hts
    rw [tickOnce, findsIn]
    cases he : s.examine now draws t with
    | error e =>
      -- a task that cannot be planned does not raise
      have hno : s.unplannable now draws t = false := by
        obtain ⟨-, -, hesc⟩ := (s.examine_error now draws t).mp ⟨e, he⟩
        obtain ⟨e', hn, hne⟩ := (nextRun_escapes _ _ now _).mpr hesc
        rw [unplannable, hn]
        cases e' with
        | scheduleError => exact absurd rfl hne
        | valueError    => exact Bool.and_false _
        | overflowError => exact Bool.and_false _
      rw [hno, Bool.and_false]
      exact .of_eq rfl
    | ok s' =>
      have haside := (State.examine_ok he).1
      have hsame : s'.findsIn now draws id ts = s.findsIn now draws id ts := by
        refine State.findsIn_congr fun t' ht' => haside.others t' fun heq => ?_
        exact hts.1 (heq ▸ List.mem_map_of_mem ht')
      have hhead : s.Reports id s' _ := State.examine_reports he
      have hadds := hhead.trans (ih (s := s') hts.2)
      rw [hsame] at hadds
      refine Eq.mp (congrArg _ ?_) hadds
      by_cases hid : t.id = id
      · -- and then it is not found again
        subst hid
        rw [State.findsIn_absent hts.1, Bool.and_false, Bool.or_false, if_neg Bool.false_ne_true]
        rfl
      · rw [beq_false_of_ne hid, Bool.false_and, if_neg Bool.false_ne_true, Nat.zero_add]
        rfl

end

/-! ## Other steps -/

/-- Attempts are counted from 0. -/
def State.Counted (s : State) : Prop :=
  ∀ id e, s.running.get? id = some e → 0 ≤ e.attempts

section

variable {s s' : State} {id : Nat}

theorem State.Counted.of_eq (h : s.Counted) (hrun : s'.running = s.running) : s'.Counted := by
  intro id e he
  rw [hrun] at he
  exact h id e he

theorem State.Counted.setRun (h : s.Counted) {e : Execution} (he : 0 ≤ e.attempts) :
    (s.setRun e).Counted := by
  intro id e' hget
  by_cases hid : id = e.task.id
  · rw [hid, State.setRun_get?] at hget
    obtain rfl := Option.some.inj hget
    exact he
  · rw [State.setRun, Dict.get?_set_ne hid] at hget
    exact h id e' hget

theorem State.Counted.erase (h : s.Counted) (id : Nat) :
    State.Counted { s with running := s.running.erase id } := by
  intro id' e' hget
  by_cases hid : id' = id
  · rw [hid, Dict.get?_erase] at hget
    cases hget
  · rw [Dict.get?_erase_ne hid] at hget
    exact h id' e' hget

theorem State.Counted.empty (s : State) (up : Bool) :
    State.Counted { s with running := ∅, up := up } := by
  intro id e he
  cases he

theorem State.examine_counted {now : DateTime} {draws : Nat → Int} {t : Row} (h : s.Counted)
    (he : s.examine now draws t = .ok s') : s'.Counted := by
  rw [examine] at he
  split at he
  · obtain rfl := Except.ok.inj he
    exact h
  · split at he
    · obtain rfl := Except.ok.inj he
      split
      · exact h
      · exact State.Counted.setRun (h.of_eq rfl) (Int.le_refl 0)
    · rcases s.plan_cases t now (draws t.id) with
        ⟨s₁, m, p, hp, hrun, -, -⟩ | ⟨hp, -⟩ | ⟨e, hp, -, -⟩
      · rw [hp] at he
        obtain rfl := Except.ok.inj he
        have h₁ : s₁.Counted := h.of_eq hrun
        split
        · exact h₁
        · exact State.Counted.setRun (h₁.of_eq rfl) (Int.le_refl 0)
      · rw [hp] at he
        obtain rfl := Except.ok.inj he
        exact h.of_eq rfl
      · rw [hp] at he
        cases he

theorem State.tickOnce_counted {now : DateTime} {draws : Nat → Int} (h : s.Counted)
    (ts : List Row) : (s.tickOnce now draws ts).1.Counted := by
  induction ts generalizing s with
  | nil => exact h
  | cons t ts ih =>
    rw [tickOnce]
    cases he : s.examine now draws t with
    | error e => exact h
    | ok s' => exact ih (State.examine_counted h he)

/-- The end of `_execute` reports an attempt. -/
theorem State.conclude_reports (h : s.Counted) (e : Execution) {st : Status} {n : Int} (hn : 0 ≤ n)
    (hst : st = .skipped → n ≠ 0) (finished : DateTime) (draw : Int) :
    (s.conclude e st n finished draw).Counted ∧ s.Reports id (s.conclude e st n finished draw) 0 := by
  rw [conclude]
  rcases s.reschedule_cases e.task finished draw (st ≠ .skipped) with
    ⟨last, next, k, hok, -, -⟩ | ⟨⟨x, herr⟩, -⟩
  · rw [hok]
    refine ⟨State.Counted.setRun (h.of_eq rfl) hn, .other rfl ?_⟩
    rw [Receipt.isBad]
    by_cases hskip : st = .skipped
    · rw [show (n == 0) = false from beq_false_of_ne (hst hskip), Bool.and_false, Bool.false_and]
    · rw [show (st == .skipped) = false from beq_false_of_ne hskip, Bool.and_false, Bool.false_and,
        Bool.false_and]
  · rw [herr]
    exact ⟨h.setRun hn, .of_eq rfl⟩

/-- A receipt of a command names its run. -/
theorem State.report_reports (t : Row) (runId : String) (st : Status) (n : Int) (now : DateTime)
    (planned : Option Plan) : s.Reports id (s.report t (some runId) st n now planned) 0 :=
  .other rfl (Bool.and_false _)

theorem State.cancel_reports (now : DateTime) (es : List Execution) :
    s.Reports id (es.foldl (State.cancel now) s) 0 := by
  induction es generalizing s with
  | nil => exact .of_eq rfl
  | cons e es ih =>
    refine State.Reports.trans (n := 0) (m := 0) ?_ ih
    rw [State.cancel]
    split
    · exact State.report_reports _ _ _ _ _ _
    · exact .of_eq rfl

/-- An attempt that ended is reported as what it was. -/
theorem State.reply_reports (h : s.Counted) {e : Execution} (he : 0 ≤ e.attempts) (r : Reply)
    (now : DateTime) (draw : Int) :
    (s.reply e r now draw).Counted ∧ s.Reports id (s.reply e r now draw) 0 := by
  rw [reply]
  split
  · have h₁ := h.erase e.task.id
    exact ⟨h₁.of_eq rfl, State.report_reports _ _ _ _ _ _⟩
  · split
    · refine State.conclude_reports h e he ?_ now draw
      intro hst
      cases hst
    · split
      · exact ⟨h.setRun he, .of_eq rfl⟩
      · refine State.conclude_reports h e he ?_ now draw
        intro hst
        cases hst

theorem State.runManual_reports (h : s.Counted) (t : Row) (runId : String)
    (worker : Option WorkerView) (now : DateTime) (draw : Int) :
    (s.runManual t runId worker now draw).Counted ∧
      s.Reports id (s.runManual t runId worker now draw) 0 := by
  rw [runManual]
  rcases s.reschedule_cases t now draw true with
    ⟨last, next, k, hok, -, -⟩ | ⟨⟨x, herr⟩, -⟩
  · rw [hok]
    dsimp only
    split
    · exact ⟨State.Counted.setRun (h.of_eq rfl) Int.one_nonneg, .of_eq rfl⟩
    · exact ⟨h.of_eq rfl, State.report_reports _ _ _ _ _ _⟩
  · rw [herr]
    exact ⟨h, .of_eq rfl⟩

/-- A tick gets to the task and cannot plan it. -/
def State.finds (s : State) (id : Nat) : Act → Bool
  | .tick now draws => s.findsIn now draws id s.tasks.allTasks
  | _               => false

/-- **A step** adds a receipt for the task exactly when it is a tick that finds it like that. -/
theorem State.step_reports {a : Act} (h : s.Counted) (hstep : s.step a = some s') :
    s'.Counted ∧ s.Reports id s' (if s.finds id a then 1 else 0) := by
  cases a with
  | tick now draws =>
    rw [step] at hstep
    split at hstep
    · obtain rfl := Option.some.inj hstep
      exact ⟨(State.tickOnce_counted h s.tasks.allTasks).of_eq rfl,
        State.tickOnce_reports s.tasks.allTasks_nodup⟩
    · cases hstep
  | perform id' worker now draw =>
    rw [step] at hstep
    cases hget : s.running.get? id' with
    | none => rw [hget] at hstep; cases hstep
    | some e =>
      have hcount := h id' e hget
      simp only [hget] at hstep
      split at hstep
      · obtain rfl := Option.some.inj hstep
        show (State.Counted { s.perform e worker now draw with clock := now.utc }) ∧
          s.Reports id { s.perform e worker now draw with clock := now.utc } 0
        rw [perform]
        split
        · exact ⟨(h.setRun (Int.le_add_one hcount)).of_eq rfl, .of_eq rfl⟩
        · have hne : e.attempts + 1 ≠ 0 := by omega
          obtain ⟨hc, hadds⟩ : _ ∧ s.Reports id (s.conclude e .skipped (e.attempts + 1) now draw) 0 :=
            State.conclude_reports h e (Int.le_add_one hcount) (fun _ => hne) now draw
          exact ⟨hc.of_eq rfl, hadds⟩
      · cases hstep
  | effect id' =>
    rw [step] at hstep
    cases hget : s.running.get? id' with
    | none => rw [hget] at hstep; cases hstep
    | some e =>
      simp only [hget] at hstep
      split at hstep
      · obtain rfl := Option.some.inj hstep
        have h₁ : State.Counted { s with spent := e.cause.plans ++ s.spent } := h.of_eq rfl
        exact ⟨h₁.setRun (h id' e hget), .of_eq rfl⟩
      · cases hstep
  | reply id' r now draw =>
    rw [step] at hstep
    cases hget : s.running.get? id' with
    | none => rw [hget] at hstep; cases hstep
    | some e =>
      have hcount := h id' e hget
      simp only [hget] at hstep
      split at hstep
      · obtain rfl := Option.some.inj hstep
        obtain ⟨hc, hadds⟩ : _ ∧ s.Reports id (s.reply e r now draw) 0 :=
          State.reply_reports h hcount r now draw
        exact ⟨hc.of_eq rfl, hadds⟩
      · cases hstep
  | reap id' =>
    rw [step] at hstep
    cases hget : s.running.get? id' with
    | none => rw [hget] at hstep; cases hstep
    | some e =>
      simp only [hget] at hstep
      split at hstep
      · obtain rfl := Option.some.inj hstep
        exact ⟨h.erase id', .of_eq rfl⟩
      · cases hstep
  | runNow id' =>
    rw [step] at hstep
    split at hstep
    · cases hstep
    · split at hstep
      · obtain rfl := Option.some.inj hstep
        exact ⟨h.setRun (Int.le_refl 0), .of_eq rfl⟩
      · cases hstep
  | runManual id' runId worker now draw =>
    rw [step] at hstep
    split at hstep
    · cases hstep
    · split at hstep
      · rename_i t _
        obtain rfl := Option.some.inj hstep
        obtain ⟨hc, hadds⟩ : _ ∧ s.Reports id (s.runManual t runId worker now draw) 0 :=
          State.runManual_reports h t runId worker now draw
        exact ⟨hc.of_eq rfl, hadds⟩
      · cases hstep
  | sync incoming =>
    rw [step] at hstep
    split at hstep
    · obtain rfl := Option.some.inj hstep
      exact ⟨h.of_eq rfl, .of_eq rfl⟩
    · cases hstep
  | stop now =>
    rw [step] at hstep
    split at hstep
    · obtain rfl := Option.some.inj hstep
      exact ⟨State.Counted.empty { s.stop now with clock := now.utc } false,
        State.cancel_reports now _⟩
    · cases hstep
  | crash =>
    rw [step] at hstep
    split at hstep
    · obtain rfl := Option.some.inj hstep
      exact ⟨State.Counted.empty s false, .of_eq rfl⟩
    · cases hstep
  | restart =>
    rw [step] at hstep
    split at hstep
    · cases hstep
    · obtain rfl := Option.some.inj hstep
      exact ⟨h.of_eq rfl, .of_eq rfl⟩

end

/-! ## Runs -/

/-- How many ticks of a run get to the task and cannot plan it. -/
def State.findings (id : Nat) (s : State) : List Act → Nat
  | []      => 0
  | a :: as => (if s.finds id a then 1 else 0) + match s.step a with
    | some s' => s'.findings id as
    | none    => 0

theorem State.run_reports {id : Nat} {s s' : State} {as : List Act} (h : s.Counted)
    (hrun : scheduler.run s as = some s') : s'.Counted ∧ s.Reports id s' (s.findings id as) := by
  induction as generalizing s with
  | nil =>
    obtain rfl := Option.some.inj hrun
    exact ⟨h, .of_eq rfl⟩
  | cons a as ih =>
    rw [Machine.run] at hrun
    rw [findings]
    cases hstep : s.step a with
    | none =>
      rw [show scheduler.step s a = none from hstep] at hrun
      cases hrun
    | some s₁ =>
      rw [show scheduler.step s a = some s₁ from hstep] at hrun
      obtain ⟨h₁, hadds⟩ : _ ∧ s.Reports id s₁ _ := State.step_reports h hstep
      obtain ⟨h₂, hadds'⟩ := ih h₁ hrun
      exact ⟨h₂, hadds.trans hadds'⟩

theorem State.counted {s : State} (h : scheduler.Reachable s) : s.Counted := by
  refine h.invariant (I := State.Counted) ?_ ?_
  · intro s (hs : State.Starts s) id e he
    rw [Dict.get?, hs.running] at he
    cases he
  · intro s a s' hs _ hstep
    have hboth : s'.Counted ∧ s.Reports 0 s' _ := State.step_reports hs hstep
    exact hboth.1

/-- **How often a bad schedule is reported.**  A run of whatever steps reports a task at most once
    exactly when at most one tick of it gets to the task while it is enabled, not running and
    without a plan, and its schedule is unusable.  Every such tick reports it. -/
theorem reported_once_iff {s₀ s : State} (hreach : scheduler.Reachable s₀) {as : List Act}
    (hrun : scheduler.run s₀ as = some s) (id : Nat) :
    (s.receipts.drop s₀.receipts.length).countP (Receipt.isBad id) ≤ 1 ↔
      s₀.findings id as ≤ 1 := by
  obtain ⟨-, new, hnew, hcount⟩ : _ ∧ s₀.Reports id s _ := State.run_reports (State.counted hreach) hrun
  rw [hnew, List.drop_left, hcount]

/-- A task whose interval is no number. -/
def wordTask : Row :=
  ⟨7, "m", true, "ping", "", "", ⟨"interval", "soon", 0⟩, 0, true, none, none⟩

def emptyStore : State := ⟨⟨[], List.nodup_nil⟩, ∅, true, 0, [], [], [], 0⟩

def wordStore : State := ⟨⟨[wordTask], List.nodup_singleton _⟩, ∅, true, 0, [], [], [], 0⟩

theorem wordStore_reachable : scheduler.Reachable wordStore := by
  have hrun : scheduler.run emptyStore [.sync [wordTask]] = some wordStore := rfl
  exact Machine.run_reachable ⟨rfl, rfl, rfl, rfl⟩ hrun

/-- One tick reports it, and that is once. -/
theorem reported_once_iff_word :
    ∃ s, scheduler.run wordStore [.tick ⟨DAY, 0⟩ fun _ => 0] = some s ∧
      s.receipts.countP (Receipt.isBad 7) = 1 ∧
      (s.receipts.drop wordStore.receipts.length).countP (Receipt.isBad 7) ≤ 1 := by
  have hone : (scheduler.run wordStore [.tick ⟨DAY, 0⟩ fun _ => 0]).map
      (fun s => s.receipts.countP (Receipt.isBad 7)) = some 1 := by decide +kernel
  obtain ⟨s, hrun, hcount⟩ := Option.map_eq_some_iff.mp hone
  exact ⟨s, hrun, hcount,
    (reported_once_iff wordStore_reachable hrun 7).mpr (by decide +kernel)⟩

/-- **The next tick reports it again.** -/
theorem reported_twice :
    scheduler.Reachable wordStore ∧
      ∃ s, scheduler.run wordStore
          [.tick ⟨DAY, 0⟩ fun _ => 0, .tick ⟨DAY + 30000000, 0⟩ fun _ => 0] = some s ∧
        ¬ (s.receipts.drop wordStore.receipts.length).countP (Receipt.isBad 7) ≤ 1 := by
  have htwo : (scheduler.run wordStore
      [.tick ⟨DAY, 0⟩ fun _ => 0, .tick ⟨DAY + 30000000, 0⟩ fun _ => 0]).map
      (fun s => (s.receipts.drop wordStore.receipts.length).countP (Receipt.isBad 7)) = some 2 := by
    decide +kernel
  obtain ⟨s, hrun, hcount⟩ := Option.map_eq_some_iff.mp htwo
  refine ⟨wordStore_reachable, s, hrun, ?_⟩
  rw [hcount]
  decide

end Air780eHub.Schedule
