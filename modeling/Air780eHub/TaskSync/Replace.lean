/-
  `replace_tasks` of `store.py`, statement by statement.

  The connection is in autocommit mode: the ids are checked first, and the bulk delete, the upserts,
  the revision and the receipt are inside one transaction.  Any statement may raise, for what it is
  given or for what goes wrong outside.

  1. **Columns**: what binding a value to a column stores or raises.
  2. **The statements** of the transaction.
  3. **All or nothing** (`replaceTasks_outcome`): it raises and the database is as it was, or the
     table is the payload with the run times of the tasks that were there.
-/
import Air780eHub.Agent.EventTable
import Air780eHub.Lib.Autocommit
import Air780eHub.Lib.Dict
import Air780eHub.Lib.Raising
import Air780eHub.TaskSync.Agent

namespace Air780eHub.TaskSync

open Autocommit

/-! ## Columns -/

/-- What SQLite keeps of a value of another type: the text of a number with a fraction in a TEXT
    column, and what an INTEGER column makes of such a number or of a text. -/
structure Affinity where
  realText : String → String
  number   : Value → Value

/-- What a statement or a conversion raised. -/
inductive Raised
  | valueError
  | bindError
  | integrityError
  | operationalError
deriving DecidableEq

/-- An integer of 64 bits. -/
def fitsInteger (n : Int) : Bool := decide (-(2 ^ 63) ≤ n) && decide (n < 2 ^ 63)

/-- A value in a TEXT column that is NOT NULL.  Not-a-number is bound as NULL. -/
def bindText (D : Affinity) : Value → Except Raised String
  | .null    => .error .integrityError
  | .bool b  => .ok (if b then "1" else "0")
  | .int n   => if fitsInteger n then .ok (toString n) else .error .bindError
  | .float t => if t = "nan" then .error .integrityError else .ok (D.realText t)
  | .str s   => .ok s
  | .arr _   => .error .bindError
  | .obj _   => .error .bindError

/-- A value in an INTEGER column that is NOT NULL. -/
def bindInteger (D : Affinity) : Value → Except Raised Value
  | .null    => .error .integrityError
  | .bool b  => .ok (.int (if b then 1 else 0))
  | .int n   => if fitsInteger n then .ok (.int n) else .error .bindError
  | .float t => if t = "nan" then .error .integrityError else .ok (D.number (.float t))
  | .str s   => .ok (D.number (.str s))
  | .arr _   => .error .bindError
  | .obj _   => .error .bindError

/-- A row of `tasks`, without its id. -/
structure StoredTask where
  device         : String
  name           : String
  enabled        : Value
  action         : String
  targetNumber   : String
  content        : String
  scheduleType   : String
  scheduleExpr   : String
  jitterSeconds  : Value
  randomSuffix   : Value
  retryMax       : Value
  notifyOnResult : Value
  lastRunAt      : Option String
  nextRunAt      : Option String
deriving DecidableEq

/-- The tables that `replace_tasks` writes. -/
structure AgentDb where
  tasks  : Dict Int StoredTask
  kv     : Dict String String
  events : EventTable

/-- `TASK_REVISION_KEY`. -/
def TASK_REVISION_KEY : String := "tasks_revision"

variable (E : Env) (D : Affinity)

/-- The row that the `VALUES` of a task make. -/
def rowOf (task : Value) : Except Raised StoredTask := do
  let device ← bindText D (field task "device")
  let name ← bindText D (field task "name")
  let enabled ← bindInteger D (flag task "enabled")
  let action ← bindText D (field task "action")
  let targetNumber ← bindText D (field task "target_number")
  let content ← bindText D (field task "content")
  let scheduleType ← bindText D (field task "schedule_type")
  let scheduleExpr ← bindText D (field task "schedule_expr")
  let jitterSeconds ← bindInteger D (field task "jitter_seconds")
  let randomSuffix ← bindInteger D (flag task "random_suffix")
  let retryMax ← bindInteger D (field task "retry_max")
  let notifyOnResult ← bindInteger D (flag task "notify_on_result")
  return {
    device, name, enabled, action, targetNumber, content, scheduleType, scheduleExpr,
    jitterSeconds, randomSuffix, retryMax, notifyOnResult
    lastRunAt := none
    nextRunAt := none }

/-! ## The statements -/

/-- `DELETE FROM tasks WHERE id NOT IN (...)`, or without a condition. -/
def deleteOthers (keep : List Int) (db : AgentDb) : Except Raised (Unit × AgentDb) :=
  if keep.all fitsInteger then
    .ok ((), { db with tasks := db.tasks.filter fun e => decide (e.1 ∈ keep) })
  else .error .bindError

/-- The `SELECT` of `_schedule_changed`. -/
def selectTask (id : Int) (db : AgentDb) : Except Raised (Option StoredTask × AgentDb) :=
  if fitsInteger id then .ok (db.tasks.get? id, db) else .error .bindError

/-- What `_schedule_changed` makes of the row that it found. -/
def scheduleDiffers (old : Option StoredTask) (task : Value) : Except Raised Bool :=
  match old with
  | none     => .ok false
  | some row =>
    if .str row.scheduleType ≠ field task "schedule_type" ∨
        row.scheduleExpr ≠ pyStr E.repr (field task "schedule_expr") then .ok true
    else match intOr0 E row.jitterSeconds, intOr0 E (field task "jitter_seconds") with
      | some a, some b => .ok (decide (a ≠ b))
      | _, _           => .error .valueError

/-- `INSERT INTO tasks ... ON CONFLICT(id) DO UPDATE SET ...`, with `next_run_at=NULL` or without. -/
def upsertRow (id : Int) (task : Value) (changed : Bool) (db : AgentDb) :
    Except Raised (Unit × AgentDb) := do
  let row ← rowOf D task
  if fitsInteger id then
    return ((), { db with tasks := db.tasks.set id (match db.tasks.get? id with
      | none     => row
      | some old => { row with
          lastRunAt := old.lastRunAt
          nextRunAt := if changed then none else old.nextRunAt }) })
  else throw .bindError

/-- One round of the loop. -/
def applyTask (task : Value) : Session AgentDb Raised PUnit :=
  match field task "id" with
  | .int id => do
    let old ← execute (selectTask id)
    let changed ← compute (scheduleDiffers E old task)
    execute (upsertRow D id task changed)
  | _ => throw .valueError

/-- `set`. -/
def setKv (key value : String) (db : AgentDb) : Except Raised (Unit × AgentDb) :=
  .ok ((), { db with kv := db.kv.set key value })

/-- The payload of the receipt. -/
def appliedPayload (syncId revision : String) (count : Nat) : Payload where
  fields := receipt (.str syncId) (.str revision) true [("count", .int count)]
  noReserved := by
    simp [receipt]

/-- `append_event`. -/
def appendReceipt (payload : Payload) (db : AgentDb) : Except Raised (Unit × AgentDb) :=
  .ok ((), { db with events := db.events.appendEvent "tasks_applied" payload })

/-- `replace_tasks`. -/
def LocalStore.replaceTasks (tasks : List Value) (revision syncId : String) :
    Session AgentDb Raised Nat :=
  match taskIds tasks [] with
  | none      => throw .valueError
  | some keep => do
    atomically .operationalError do
      execute (deleteOthers keep)
      tasks.forM (applyTask E D)
      execute (setKv TASK_REVISION_KEY revision)
      if syncId ≠ "" then
        execute (appendReceipt (appliedPayload syncId revision tasks.length))
    return tasks.length

/-! ## All or nothing -/

/-- The schedule of a task is the one stored, as `_schedule_changed` compares them: the type as it
    is, the expression as text, the jitter as an integer. -/
def SameSchedule (old : StoredTask) (task : Value) : Prop :=
  .str old.scheduleType = field task "schedule_type" ∧
    old.scheduleExpr = pyStr E.repr (field task "schedule_expr") ∧
    intOr0 E old.jitterSeconds = intOr0 E (field task "jitter_seconds")

/-- What a task of the payload becomes, and what is kept of the row that was there. -/
structure Becomes (old : Option StoredTask) (task : Value) (row : StoredTask) : Prop where
  columns : ∃ r, rowOf D task = .ok r ∧
    row = { r with lastRunAt := row.lastRunAt, nextRunAt := row.nextRunAt }
  fresh   : old = none → row.lastRunAt = none ∧ row.nextRunAt = none
  lastRun : ∀ o, old = some o → row.lastRunAt = o.lastRunAt
  kept    : ∀ o, old = some o → SameSchedule E o task → row.nextRunAt = o.nextRunAt
  dropped : ∀ o, old = some o → ¬ SameSchedule E o task → row.nextRunAt = none

/-- What the loop leaves after the tasks `done`. -/
structure Applied (d : AgentDb) (done : List Value) (w : AgentDb) : Prop where
  rows   : ∀ task ∈ done, ∀ id, field task "id" = .int id →
    ∃ row, w.tasks.get? id = some row ∧ Becomes E D (d.tasks.get? id) task row
  rest   : ∀ id, (∀ task ∈ done, field task "id" ≠ .int id) → w.tasks.get? id = d.tasks.get? id
  kv     : w.kv = d.kv
  events : w.events = d.events

variable {E D}

theorem rowOf_plan {task : Value} {row : StoredTask} (h : rowOf D task = .ok row) :
    row.lastRunAt = none ∧ row.nextRunAt = none := by
  unfold rowOf at h
  iterate 12 obtain ⟨_, -, h⟩ := of_except_bind_ok h
  obtain rfl := Except.ok.inj h
  exact ⟨rfl, rfl⟩

/-- What the comparison says. -/
theorem scheduleDiffers_ok {old : StoredTask} {task : Value} {changed : Bool}
    (h : scheduleDiffers E (some old) task = .ok changed) :
    changed = true ↔ ¬ SameSchedule E old task := by
  unfold scheduleDiffers at h
  dsimp only at h
  split at h
  · rename_i hne
    obtain rfl := Except.ok.inj h
    refine iff_of_true rfl ?_
    rintro ⟨htype, hexpr, -⟩
    exact hne.elim (absurd htype) (absurd hexpr)
  · rename_i heq
    rw [not_or, not_not, not_not] at heq
    split at h
    · rename_i a b ha hb
      obtain rfl := Except.ok.inj h
      rw [decide_eq_true_iff, SameSchedule, ha, hb, Option.some_inj]
      exact not_congr ⟨fun hab => ⟨heq.1, heq.2, hab⟩, fun hsame => hsame.2.2⟩
    · cases h

/-- **One upsert.** -/
theorem upsertRow_becomes {id : Int} {task : Value} {changed : Bool} {db db' : AgentDb}
    (hchanged : ∀ o, db.tasks.get? id = some o → (changed = true ↔ ¬ SameSchedule E o task))
    (h : upsertRow D id task changed db = .ok ((), db')) :
    ∃ row, Becomes E D (db.tasks.get? id) task row ∧
      db' = { db with tasks := db.tasks.set id row } := by
  obtain ⟨r, hr, h⟩ := of_except_bind_ok h
  have hplan := rowOf_plan hr
  split at h
  · cases hold : db.tasks.get? id with
    | none =>
      rw [hold] at h
      refine ⟨r, ⟨⟨r, hr, rfl⟩, fun _ => hplan, nofun, nofun, nofun⟩, ?_⟩
      exact (Prod.mk.inj (Except.ok.inj h)).2.symm
    | some old =>
      rw [hold] at h
      have hsame := hchanged old hold
      refine ⟨{ r with
          lastRunAt := old.lastRunAt
          nextRunAt := if changed then none else old.nextRunAt },
        ⟨⟨r, hr, rfl⟩, nofun, ?_, ?_, ?_⟩, (Prod.mk.inj (Except.ok.inj h)).2.symm⟩
      · rintro o ho
        obtain rfl := Option.some.inj ho
        rfl
      · rintro o ho hs
        obtain rfl := Option.some.inj ho
        exact if_neg fun hc => hsame.mp hc hs
      · rintro o ho hs
        obtain rfl := Option.some.inj ho
        exact if_pos (hsame.mpr hs)
  · cases h

/-- **One round of the loop.** -/
theorem applyTask_within {d : AgentDb} {done : List Value} {task : Value}
    (hnew : ∀ t ∈ done, field t "id" ≠ field task "id") :
    Within (Applied E D d done) (applyTask E D task) fun _ => Applied E D d (done ++ [task]) := by
  unfold applyTask
  split
  · rename_i id hid
    rw [hid] at hnew
    have hselect : Within (Applied E D d done) (execute (selectTask id))
        fun old w => Applied E D d done w ∧ old = d.tasks.get? id := by
      refine Within.execute fun w a w' hw h => ?_
      unfold selectTask at h
      split at h
      · obtain ⟨rfl, rfl⟩ := Prod.mk.inj (Except.ok.inj h)
        exact ⟨hw, hw.rest id hnew⟩
      · cases h
    refine hselect.bind fun old => ?_
    have hdiffers : Within (fun w => Applied E D d done w ∧ old = d.tasks.get? id)
        (compute (scheduleDiffers E old task)) fun changed w => Applied E D d done w ∧
          ∀ o, d.tasks.get? id = some o → (changed = true ↔ ¬ SameSchedule E o task) := by
      refine Within.compute fun w changed hw h => ⟨hw.1, fun o ho => ?_⟩
      rw [hw.2, ho] at h
      exact scheduleDiffers_ok h
    refine hdiffers.bind fun changed => Within.execute ?_
    rintro w ⟨⟩ w' ⟨hw, hchanged⟩ h
    rw [← hw.rest id hnew] at hchanged
    obtain ⟨row, hrow, rfl⟩ := upsertRow_becomes hchanged h
    rw [hw.rest id hnew] at hrow
    refine ⟨?_, ?_, hw.kv, hw.events⟩
    · intro t ht i hi
      rcases List.mem_append.mp ht with ht | ht
      · -- an earlier task has another id
        have hne : i ≠ id := by
          rintro rfl
          exact hnew t ht hi
        obtain ⟨r, hr, hbecomes⟩ := hw.rows t ht i hi
        exact ⟨r, (Dict.get?_set_ne hne).trans hr, hbecomes⟩
      · obtain rfl := List.mem_singleton.mp ht
        obtain rfl := Value.int.inj (hid.symm.trans hi)
        exact ⟨row, Dict.get?_set, hrow⟩
    · intro i hi
      have hne : i ≠ id := by
        rintro rfl
        exact hi task (List.mem_append_right _ (List.mem_singleton_self _)) hid
      refine (Dict.get?_set_ne hne).trans (hw.rest i fun t ht => ?_)
      exact hi t (List.mem_append_left _ ht)
  · exact Within.throw

/-- The ids that are kept are those of the payload. -/
theorem taskIds_mem {tasks : List Value} {keep out : List Int} (h : taskIds tasks keep = some out) :
    (∀ n ∈ keep, n ∈ out) ∧ ∀ task ∈ tasks, ∀ id, field task "id" = .int id → id ∈ out := by
  induction tasks generalizing keep with
  | nil =>
    obtain rfl := Option.some.inj h
    exact ⟨fun n hn => hn, nofun⟩
  | cons task tasks ih =>
    rw [taskIds] at h
    split at h
    · rename_i n hn
      split at h
      · cases h
      · obtain ⟨hkept, hrest⟩ := ih h
        refine ⟨fun m hm => hkept m (List.mem_append_left _ hm), ?_⟩
        intro t ht id hid
        rcases List.mem_cons.mp ht with rfl | ht
        · obtain rfl := Value.int.inj (hn.symm.trans hid)
          exact hkept n (List.mem_append_right _ (List.mem_singleton_self n))
        · exact hrest t ht id hid
    · cases h

variable (E D) in
/-- What `replace_tasks` leaves when it returns. -/
structure Replaced (d : AgentDb) (tasks : List Value) (revision syncId : String) (d' : AgentDb) :
    Prop where
  ids      : ∀ id, (d'.tasks.get? id).isSome ↔ ∃ task ∈ tasks, field task "id" = .int id
  rows     : ∀ task ∈ tasks, ∀ id, field task "id" = .int id →
    ∃ row, d'.tasks.get? id = some row ∧ Becomes E D (d.tasks.get? id) task row
  kv       : d'.kv = d.kv.set TASK_REVISION_KEY revision
  events   : d'.events = if syncId ≠ "" then
      d.events.appendEvent "tasks_applied" (appliedPayload syncId revision tasks.length)
    else d.events

/-- **The body of the transaction.** -/
theorem body_within {tasks : List Value} {keep : List Int} (hkeep : taskIds tasks [] = some keep)
    (d : AgentDb) (revision syncId : String) :
    Within (fun w => w = d)
      (do
        execute (deleteOthers keep)
        tasks.forM (applyTask E D)
        execute (setKv TASK_REVISION_KEY revision)
        if syncId ≠ "" then
          execute (appendReceipt (appliedPayload syncId revision tasks.length)))
      fun _ w => Replaced E D d tasks revision syncId w := by
  obtain ⟨hpair, hids, hkept⟩ := taskIds_spec hkeep
  -- the delete leaves the rows of the payload's ids
  generalize hd₁ : ({ d with tasks := d.tasks.filter fun e => decide (e.1 ∈ keep) } : AgentDb) = d₁
  have hget : ∀ id, d₁.tasks.get? id = if id ∈ keep then d.tasks.get? id else none := by
    intro id
    rw [← hd₁]
    show (d.tasks.filter fun e => decide (e.1 ∈ keep)).get? id = _
    rw [Dict.get?_filter_keys (fun id => decide (id ∈ keep))]
    simp only [decide_eq_true_iff]
  have hdelete : Within (fun w => w = d) (execute (deleteOthers keep)) fun _ => Applied E D d₁ [] := by
    refine Within.execute ?_
    rintro w a w' rfl h
    unfold deleteOthers at h
    split at h
    · obtain ⟨-, rfl⟩ := Prod.mk.inj (Except.ok.inj h)
      rw [hd₁]
      exact ⟨nofun, fun _ _ => rfl, rfl, rfl⟩
    · cases h
  have hloop : Within (Applied E D d₁ []) (tasks.forM (applyTask E D))
      fun _ => Applied E D d₁ tasks := by
    refine Within.forM fun done task rest hsplit => applyTask_within fun t ht => ?_
    rw [hsplit, List.pairwise_append] at hpair
    exact hpair.2.2 t ht task List.mem_cons_self
  have hkv : Within (Applied E D d₁ tasks) (execute (setKv TASK_REVISION_KEY revision))
      fun _ w => ∃ w₀, Applied E D d₁ tasks w₀ ∧
        w = { w₀ with kv := w₀.kv.set TASK_REVISION_KEY revision } := by
    refine Within.execute ?_
    rintro w a w' hw h
    obtain ⟨-, rfl⟩ := Prod.mk.inj (Except.ok.inj h)
    exact ⟨w, hw, rfl⟩
  refine hdelete.bind fun _ => hloop.bind fun _ => hkv.bind fun _ => ?_
  -- what is left is the receipt
  have hreplaced : ∀ w₀ events, Applied E D d₁ tasks w₀ →
      (events = if syncId ≠ "" then
        d.events.appendEvent "tasks_applied" (appliedPayload syncId revision tasks.length)
      else d.events) →
      Replaced E D d tasks revision syncId
        ⟨w₀.tasks, w₀.kv.set TASK_REVISION_KEY revision, events⟩ := by
    intro w₀ events hw hevents
    have hold : ∀ task ∈ tasks, ∀ id, field task "id" = .int id →
        d₁.tasks.get? id = d.tasks.get? id := by
      intro task ht id hid
      rw [hget, if_pos ((taskIds_mem hkeep).2 task ht id hid)]
    refine ⟨fun id => ⟨fun hsome => ?_, ?_⟩, ?_, ?_, hevents⟩
    · by_contra hno
      have hrest := hw.rest id fun task ht heq => hno ⟨task, ht, heq⟩
      have hout : id ∉ keep := by
        intro hin
        rcases hkept id hin with hnil | ⟨task, ht, heq⟩
        · exact List.not_mem_nil hnil
        · exact hno ⟨task, ht, heq⟩
      rw [hget, if_neg hout] at hrest
      rw [show w₀.tasks.get? id = none from hrest] at hsome
      exact Bool.false_ne_true hsome
    · rintro ⟨task, ht, hid⟩
      obtain ⟨row, hrow, -⟩ := hw.rows task ht id hid
      exact Option.isSome_iff_exists.mpr ⟨row, hrow⟩
    · intro task ht id hid
      obtain ⟨row, hrow, hbecomes⟩ := hw.rows task ht id hid
      rw [hold task ht id hid] at hbecomes
      exact ⟨row, hrow, hbecomes⟩
    · show w₀.kv.set TASK_REVISION_KEY revision = _
      rw [hw.kv, ← hd₁]
  by_cases hsync : syncId ≠ ""
  · rw [if_pos hsync]
    refine Within.execute ?_
    rintro w a w' ⟨w₀, hw, rfl⟩ h
    obtain ⟨-, rfl⟩ := Prod.mk.inj (Except.ok.inj h)
    refine hreplaced w₀ _ hw ?_
    rw [if_pos hsync, hw.events, ← hd₁]
  · rw [if_neg hsync]
    refine Within.pure ?_
    rintro w ⟨w₀, hw, rfl⟩
    refine hreplaced w₀ _ hw ?_
    rw [if_neg hsync, hw.events, ← hd₁]

/-- **All or nothing.**  For every database and payload, and whatever fails: `replace_tasks` raises
    and the database is as it was, or it returns and the table is the payload, a task that was there
    keeps when it ran, and keeps its plan exactly when its schedule is the one stored; the revision
    is stored, and a receipt is in the queue exactly when the sync has an id. -/
theorem replaceTasks_outcome (c : Connection AgentDb Raised) (tasks : List Value)
    (revision syncId : String) :
    (LocalStore.replaceTasks E D tasks revision syncId c).2.work = c.work ∧
      match (LocalStore.replaceTasks E D tasks revision syncId c).1 with
      | .error _ => (LocalStore.replaceTasks E D tasks revision syncId c).2.disk = c.disk
      | .ok n    => n = tasks.length ∧ Replaced E D c.disk tasks revision syncId
          (LocalStore.replaceTasks E D tasks revision syncId c).2.disk := by
  unfold LocalStore.replaceTasks
  cases hkeep : taskIds tasks [] with
  | none => exact ⟨rfl, rfl⟩
  | some keep =>
    dsimp only
    obtain ⟨hwork, hspec⟩ := atomically_spec Raised.operationalError
      (body_within (E := E) (D := D) hkeep c.disk revision syncId)
    rw [bind_apply]
    generalize atomically Raised.operationalError _ c = p at hwork hspec
    obtain ⟨x, c'⟩ := p
    cases x with
    | error e => exact ⟨hwork, hspec⟩
    | ok a    => exact ⟨hwork, rfl, hspec⟩

/-- Of a task whose columns have their own types, the schedule is the same exactly when the columns
    are: two texts and an integer. -/
theorem sameSchedule_iff {old row : StoredTask} {task : Value} {type expr : String} {k j : Int}
    (hint : ∀ n, E.toInt (.int n) = some n) (hrow : Becomes E D (some old) task row)
    (hold : old.jitterSeconds = .int k) (htype : field task "schedule_type" = .str type)
    (hexpr : field task "schedule_expr" = .str expr)
    (hjitter : field task "jitter_seconds" = .int j) :
    SameSchedule E old task ↔ row.scheduleType = old.scheduleType ∧
      row.scheduleExpr = old.scheduleExpr ∧ row.jitterSeconds = old.jitterSeconds := by
  have hintOr0 : ∀ n, intOr0 E (.int n) = some n := by
    intro n
    unfold intOr0 Value.truthy
    by_cases hn : n = 0
    · rw [hn]
      rfl
    · rw [if_pos (bne_iff_ne.mpr hn), hint]
  obtain ⟨r, hr, hrow'⟩ := hrow.columns
  have hcolumns : r.scheduleType = type ∧ r.scheduleExpr = expr ∧ r.jitterSeconds = .int j := by
    unfold rowOf at hr
    rw [htype, hexpr, hjitter] at hr
    iterate 6 obtain ⟨_, -, hr⟩ := of_except_bind_ok hr
    obtain ⟨_, ht, hr⟩ := of_except_bind_ok hr
    obtain ⟨_, he, hr⟩ := of_except_bind_ok hr
    obtain ⟨_, hj, hr⟩ := of_except_bind_ok hr
    iterate 3 obtain ⟨_, -, hr⟩ := of_except_bind_ok hr
    obtain rfl := Except.ok.inj hr
    refine ⟨(Except.ok.inj ht).symm, (Except.ok.inj he).symm, ?_⟩
    have hbind : bindInteger D (.int j)
        = if fitsInteger j then .ok (.int j) else .error .bindError := rfl
    rw [hbind] at hj
    split at hj
    · exact (Except.ok.inj hj).symm
    · cases hj
  have htype' : row.scheduleType = type := by rw [hrow']; exact hcolumns.1
  have hexpr' : row.scheduleExpr = expr := by rw [hrow']; exact hcolumns.2.1
  have hjitter' : row.jitterSeconds = .int j := by rw [hrow']; exact hcolumns.2.2
  rw [SameSchedule, htype, hexpr, hjitter, hold, hintOr0, hintOr0, htype', hexpr', hjitter']
  rw [Option.some_inj, Value.str.injEq, Value.int.injEq]
  exact and_congr eq_comm (and_congr eq_comm eq_comm)

/-- A keep-alive task with this jitter, as the Server sends it. -/
def jitterPayload (jitter : Value) : Value :=
  .obj [("id", .int 1), ("device", .str "m"), ("name", .str ""), ("enabled", .bool true),
    ("action", .str "ping"), ("target_number", .str ""), ("content", .str ""),
    ("schedule_type", .str "interval"), ("schedule_expr", .str "25"), ("jitter_seconds", jitter),
    ("random_suffix", .bool true), ("retry_max", .int 3), ("notify_on_result", .bool true)]

/-- The store that holds it with a jitter of a minute, and a plan. -/
def jitterStore : AgentDb where
  tasks  := Dict.set ∅ 1 ⟨"m", "", .int 1, "ping", "", "", "interval", "25", .int 60, .int 1, .int 3,
    .int 1, none, some "2026-01-01T00:00:00+00:00"⟩
  kv     := ∅
  events := .empty

/-- Seven tenths of a second are cut off by `int`, and stored by SQLite. -/
def tenths : Env where
  sha256 s := s
  toInt
    | .int n   => some n
    | .float t => if t = "60.7" then some 60 else none
    | _        => none
  repr _ := ""

/-- **A jitter that changed by a fraction** leaves the plan: the column is another, and the integer
    that the comparison makes of it is the same. -/
theorem replaceTasks_keeps_fraction :
    ∃ row, (LocalStore.replaceTasks tenths ⟨id, id⟩ [jitterPayload (.float "60.7")] "" ""
        ⟨jitterStore, none, []⟩).2.disk.tasks.get? 1 = some row ∧
      ∃ old, jitterStore.tasks.get? 1 = some old ∧ old.nextRunAt ≠ none ∧
        row.nextRunAt = old.nextRunAt ∧ row.jitterSeconds = .float "60.7" ∧
        ¬ (row.nextRunAt = old.nextRunAt ↔ row.scheduleType = old.scheduleType ∧
          row.scheduleExpr = old.scheduleExpr ∧ row.jitterSeconds = old.jitterSeconds) := by
  refine ⟨_, rfl, _, rfl, nofun, rfl, rfl, fun hiff => ?_⟩
  have hjitter := (hiff.mp rfl).2.2
  cases hjitter

end Air780eHub.TaskSync
