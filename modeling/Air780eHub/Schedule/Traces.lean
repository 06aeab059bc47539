/-
  What an executed task leaves behind (`_execute`).

  The attempts come first, then the schedule of the next run, and the receipt last: an exception
  from the schedule arithmetic leaves neither the receipt nor the time of the run.
  1. **The attempts**, each an outcome of `_perform`.
  2. **The end** of an execution, which is the one the scheduler's machine has (`conclude_finish`).
  3. **`Traced`**, and when an execution is (`execute_traced_iff`).
-/
import Air780eHub.Schedule.Runner

namespace Air780eHub.Schedule

/-! ## The attempts -/

/-- How a call of `_perform` ends; an exception by its text, or by its name where it has none. -/
inductive Outcome
  | returned (detail : String)
  | skipped (reason : String)
  | raised (error : String)
deriving DecidableEq

/-- The variables of `_execute` after its loop; `performed` only observes how each call ended. -/
structure Ended where
  status    : Status
  attempts  : Int
  detail    : String
  error     : Option String
  performed : List Outcome

/-- The loop, with so many retries left.  The first attempts are over, and `outcomes` says how each
of them ends. -/
def attempt (outcomes : Nat → Outcome) (left : Nat) (performed : List Outcome) : Ended :=
  let outcome := outcomes performed.length
  let attempts := performed.length + 1
  match outcome with
  | .returned detail => ⟨.ok, attempts, detail, none, performed ++ [outcome]⟩
  | .skipped reason  => ⟨.skipped, attempts, "", some reason, performed ++ [outcome]⟩
  | .raised error    =>
    match left with
    | 0        => ⟨.failed, attempts, "", some error, performed ++ [outcome]⟩
    | left + 1 => attempt outcomes left (performed ++ [outcome])

/-- The attempts of a task. -/
def Row.attempts (t : Row) (outcomes : Nat → Outcome) : Ended :=
  attempt outcomes (max 0 t.retryMax).toNat []

theorem attempt_counts (outcomes : Nat → Outcome) (left : Nat) (performed : List Outcome) :
    (attempt outcomes left performed).attempts =
      (attempt outcomes left performed).performed.length := by
  induction left generalizing performed with
  | zero =>
    unfold attempt
    dsimp only
    split <;> simp
  | succ left ih =>
    unfold attempt
    dsimp only
    split
    · simp
    · simp
    · exact ih _

/-- What the last attempt says of the whole: its status, its text and its error. -/
def Outcome.status : Outcome → Status
  | .returned _ => .ok
  | .skipped _  => .skipped
  | .raised _   => .failed

/-- **The attempts**: at most one more than the retries, all before the last raised, and the last
one decides. -/
theorem attempt_last (outcomes : Nat → Outcome) (left : Nat) (performed : List Outcome)
    (hraised : ∀ o ∈ performed, o.status = .failed) :
    ∃ before last, (attempt outcomes left performed).performed = before ++ [last] ∧
      before.length ≤ performed.length + left ∧ (∀ o ∈ before, o.status = .failed) ∧
      (attempt outcomes left performed).status = last.status := by
  induction left generalizing performed with
  | zero =>
    unfold attempt
    dsimp only
    split <;> rename_i houtcome <;> rw [houtcome]
    · exact ⟨performed, _, rfl, Nat.le_refl _, hraised, rfl⟩
    · exact ⟨performed, _, rfl, Nat.le_refl _, hraised, rfl⟩
    · exact ⟨performed, _, rfl, Nat.le_refl _, hraised, rfl⟩
  | succ left ih =>
    unfold attempt
    dsimp only
    split <;> rename_i houtcome <;> rw [houtcome]
    · exact ⟨performed, _, rfl, Nat.le_add_right _ _, hraised, rfl⟩
    · exact ⟨performed, _, rfl, Nat.le_add_right _ _, hraised, rfl⟩
    · rename_i error
      have hall : ∀ o ∈ performed ++ [Outcome.raised error], o.status = .failed := by
        intro o ho
        rcases List.mem_append.mp ho with ho | ho
        · exact hraised o ho
        · rw [List.mem_singleton.mp ho]
          rfl
      obtain ⟨before, last, hperformed, hlen, hbefore, hstatus⟩ := ih _ hall
      refine ⟨before, last, hperformed, ?_, hbefore, hstatus⟩
      rw [List.length_append, List.length_singleton] at hlen
      omega

/-! ## The end -/

/-- `_execute` after its loop: the next run, then the receipt.  An exception of `_reschedule` is the
end of the task. -/
def State.finish (s : State) (t : Row) (status : Status) (attempts : Int) (finished : DateTime)
    (draw : Int) : State :=
  match s.reschedule t finished draw (status ≠ .skipped) with
  | .ok (s', plan) => s'.report t none status attempts finished plan
  | .error _       => s

/-- `_execute`.  The store is the one the end finds: the attempts await, and a sync may come between
them. -/
def State.execute (s : State) (t : Row) (outcomes : Nat → Outcome) (finished : DateTime)
    (draw : Int) : State :=
  s.finish t (t.attempts outcomes).status (t.attempts outcomes).attempts finished draw

/-- The end of an execution in `_running`. -/
theorem conclude_finish (s : State) (e : Execution) (status : Status) (attempts : Int)
    (finished : DateTime) (draw : Int) :
    s.conclude e status attempts finished draw =
      (s.finish e.task status attempts finished draw).setRun { e with attempts, phase := .done } := by
  unfold State.conclude State.finish
  cases s.reschedule e.task finished draw (status ≠ .skipped) <;> rfl

/-! ## Traces -/

/-- An execution has left its trace: one receipt, with the number of attempts that were made, and
unless it was skipped the time of the run in the row of the task, if there still is one. -/
structure Traced (s s' : State) (t : Row) (ended : Ended) (finished : DateTime) : Prop where
  receipt : ∃ r : Receipt, s'.receipts = s.receipts ++ [r] ∧ r.taskId = t.id ∧ r.status = ended.status ∧
    r.attempts = (ended.performed.length : Int)
  lastRun : ended.status ≠ .skipped → ∀ row ∈ s'.tasks.rows, row.id = t.id →
    row.lastRunAt = some finished.stamp

/-- What `_reschedule` stores, where it returns. -/
theorem reschedule_cases (s : State) (t : Row) (finished : DateTime) (draw : Int) (ran : Bool) :
    (t.schedule.Escapes finished draw ∧ ∃ e, s.reschedule t finished draw ran = .error e) ∨
    (¬ t.schedule.Escapes finished draw ∧ ∃ s' plan, s.reschedule t finished draw ran = .ok (s', plan) ∧
      s'.receipts = s.receipts ∧ ∀ row ∈ s'.tasks.rows, row.id = t.id →
        row.lastRunAt = if ran then some finished.stamp else t.lastRunAt) := by
  have hmarked : ∀ (last : Option DateTime) (next : Option Plan),
      ∀ row ∈ (s.tasks.markTaskRun t.id last next).rows, row.id = t.id → row.lastRunAt = last := by
    intro last next row hrow hid
    obtain ⟨r, hr, heq⟩ := mem_updateWhere.mp hrow
    by_cases hrid : (r.id == t.id) = true
    · rw [if_pos hrid] at heq
      rw [← heq]
    · rw [if_neg hrid] at heq
      rw [← heq] at hid
      exact absurd (beq_iff_eq.mpr hid) hrid
  have hesc := nextRun_escapes t.schedule finished finished draw
  unfold State.reschedule
  cases hnext : nextRun t.schedule finished finished draw with
  | ok moment =>
    refine Or.inr ⟨?_, _, _, rfl, rfl, hmarked _ _⟩
    intro h
    obtain ⟨e, he, -⟩ := hesc.mpr h
    rw [hnext] at he
    cases he
  | error e =>
    cases e with
    | scheduleError =>
      refine Or.inr ⟨?_, _, _, rfl, rfl, hmarked _ _⟩
      intro h
      obtain ⟨e, he, hne⟩ := hesc.mpr h
      rw [hnext] at he
      cases he
      exact hne rfl
    | valueError    => exact Or.inl ⟨hesc.mp ⟨_, hnext, nofun⟩, _, rfl⟩
    | overflowError => exact Or.inl ⟨hesc.mp ⟨_, hnext, nofun⟩, _, rfl⟩

/-- **Every executed task leaves a trace exactly when its schedule does not escape** from the time it
finished at. -/
theorem execute_traced_iff (s : State) (t : Row) (outcomes : Nat → Outcome) (finished : DateTime)
    (draw : Int) :
    Traced s (s.execute t outcomes finished draw) t (t.attempts outcomes) finished ↔
      ¬ t.schedule.Escapes finished draw := by
  have hcounts : (t.attempts outcomes).attempts = (t.attempts outcomes).performed.length :=
    attempt_counts outcomes _ _
  unfold State.execute State.finish
  rcases reschedule_cases s t finished draw ((t.attempts outcomes).status ≠ .skipped) with
    ⟨hesc, e, herr⟩ | ⟨hesc, s', plan, hok, hreceipts, hlast⟩
  · rw [herr]
    constructor
    · intro htraced
      obtain ⟨r, hr, -⟩ := htraced.receipt
      have hlen := congrArg List.length hr
      rw [List.length_append] at hlen
      exact absurd hlen (by simp)
    · exact fun hno => absurd hesc hno
  · rw [hok]
    refine ⟨fun _ => hesc, fun _ => ⟨?_, ?_⟩⟩
    · exact ⟨_, congrArg (· ++ [_]) hreceipts, rfl, rfl, hcounts⟩
    · intro hran row hrow hid
      rw [hlast row hrow hid, if_pos (decide_eq_true hran)]

/-- A keep-alive message every four million days. -/
def distantTask : Row :=
  ⟨3, "m", true, "send_sms", "10086", "", ⟨"interval", "4000000", 0⟩, 3, true, none, none⟩

def distantStore : State :=
  ⟨⟨[distantTask], List.nodup_singleton _⟩, ∅, true, 0, [], [], [], 0⟩

/-- The message is sent, and the next run lies after the year 9999: no receipt, no last run. -/
theorem execute_untraced : ¬ Traced distantStore
    (distantStore.execute distantTask (fun _ => .returned "sent") ⟨DAY, 0⟩ 0) distantTask
    (distantTask.attempts fun _ => .returned "sent") ⟨DAY, 0⟩ := by
  intro h
  obtain ⟨r, hr, -⟩ := h.receipt
  have hnone : (distantStore.execute distantTask (fun _ => .returned "sent") ⟨DAY, 0⟩ 0).receipts.length
      = 0 := by
    decide +kernel
  rw [hr] at hnone
  exact absurd hnone (by simp)

end Air780eHub.Schedule
