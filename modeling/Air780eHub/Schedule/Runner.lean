/-
  The keep-alive scheduler (`scheduler.py` over the tasks table of `store.py`).

  One step is what the event loop runs between two awaits: a tick, the start of an attempt up to the
  worker call, the answer of that call up to the next await, a command, a sync frame.  What the
  program does not decide (the clock, the random draws, the workers' answers) is in the label.

  1. **Rows and plans.**  A stored `next_run_at` carries what it was made from; the code keeps only
     its time.
  2. **Executions**, the entries of `_running`, with the snapshot of the row each works on.
  3. **Planning and rescheduling**: `_plan`, `_reschedule`, `_execute` from its last attempt on.
  4. **The tick.**
  5. **The machine.**  `effect` is the moment the module carried out the side effect of an attempt.
     `fired` and `spent` only observe: which plans were started by a tick, and which plans had their
     side effect.
-/
import Mathlib.Data.List.Sort
import Air780eHub.Lib.Dict
import Air780eHub.Lib.Machine
import Air780eHub.Lib.Table
import Air780eHub.Schedule.NextRun

namespace Air780eHub.Schedule

/-! ## Rows and plans -/

/-- A stored `next_run_at`, of whole seconds.  The other fields say which write stored it, for which
    task, from which cron slot and from which schedule. -/
structure Plan where
  due    : DateTime
  number : Nat
  task   : Nat
  slot   : Option DateTime
  origin : TaskSchedule
deriving DecidableEq

/-- A row of the tasks table. -/
structure Row where
  id           : Nat
  device       : String
  enabled      : Bool
  action       : String
  targetNumber : String
  content      : String
  schedule     : TaskSchedule
  retryMax     : Int
  notify       : Bool
  lastRunAt    : Option DateTime
  nextRunAt    : Option Plan

/-- The tasks table: rows under distinct ids. -/
structure TaskTable where
  rows : List Row
  keys : (rows.map Row.id).Nodup

namespace TaskTable

/-- `UPDATE tasks SET … WHERE id = ?`, of columns other than the id. -/
def update (t : TaskTable) (id : Nat) (f : Row → Row) (hf : ∀ r, (f r).id = r.id) : TaskTable :=
  ⟨updateWhere (fun r => r.id == id) f t.rows, by
    rw [map_updateWhere fun r _ _ => hf r]; exact t.keys⟩

/-- `set_task_next_run`. -/
def setTaskNextRun (t : TaskTable) (id : Nat) (next : Option Plan) : TaskTable :=
  t.update id (fun r => { r with nextRunAt := next }) fun _ => rfl

/-- `mark_task_run`. -/
def markTaskRun (t : TaskTable) (id : Nat) (last : Option DateTime) (next : Option Plan) :
    TaskTable :=
  t.update id (fun r => { r with lastRunAt := last, nextRunAt := next }) fun _ => rfl

/-- `task(task_id)`. -/
def task (t : TaskTable) (id : Nat) : Option Row := t.rows.find? (·.id == id)

/-- `all_tasks()`, in the order of the ids. -/
def allTasks (t : TaskTable) : List Row := t.rows.insertionSort fun a b => a.id ≤ b.id

/-- The row an incoming task leaves: its run times survive, and its plan does unless
    `_schedule_changed`. -/
def upsert (t : TaskTable) (task : Row) : Row :=
  match t.task task.id with
  | none     => { task with lastRunAt := none, nextRunAt := none }
  | some row =>
    { task with
      lastRunAt := row.lastRunAt
      nextRunAt := if row.schedule = task.schedule then row.nextRunAt else none }

/-- `replace_tasks`, for tasks with distinct ids. -/
def replaceTasks (t : TaskTable) (incoming : List Row) (h : (incoming.map Row.id).Nodup) :
    TaskTable :=
  ⟨incoming.map t.upsert, by
    have hid : ∀ r, (t.upsert r).id = r.id := by
      intro r
      rw [upsert]
      split <;> rfl
    rw [List.map_map]
    simpa only [Function.comp_def, hid] using h⟩

end TaskTable

/-! ## Executions -/

/-- What `_perform` sees of a worker. -/
structure WorkerView where
  radioEnabled : Option Bool
  dataEnabled  : Bool

/-- How the worker call of an attempt ended.  `engaged` is the reply of a ping, or that the network
    engaged with a call. -/
inductive Reply
  | answered (engaged : Bool)
  | raised

/-- `action or "send_sms"`. -/
def Row.act (t : Row) : String := if t.action = "" then "send_sms" else t.action

/-- The checks of `_perform` before it calls the worker; `false` is a TaskSkipped. -/
def performs (worker : Option WorkerView) (t : Row) : Bool :=
  match worker with
  | none   => false
  | some w =>
    if w.radioEnabled = some false then false
    else if t.act = "send_sms" ∨ t.act = "voice_call" then pyStrip t.targetNumber ≠ ""
    else if t.act = "ping" then w.dataEnabled
    else if t.act = "raw_at" then pyStrip t.content ≠ ""
    else false

/-- Whether `_perform` returns. -/
def returns (t : Row) : Reply → Bool
  | .answered engaged => engaged || (t.act ≠ "ping" && t.act ≠ "voice_call")
  | .raised           => false

/-- What started an execution: a tick with a plan, `run_now`, or `run_manual`. -/
inductive Cause
  | timer (plan : Plan)
  | now
  | manual (runId : String) (planned : Option Plan)
deriving DecidableEq

/-- The plan whose occurrence an execution is. -/
def Cause.plans : Cause → List Plan
  | .timer p => [p]
  | _        => []

/-- Where an execution stands: before an attempt (not started yet, or in the sleep between two),
    inside the worker call, or finished with its done callback still to run. -/
inductive Phase
  | waiting | calling | done
deriving DecidableEq

/-- An entry of `_running`. -/
structure Execution where
  task     : Row
  cause    : Cause
  attempts : Int
  phase    : Phase
  /-- The module has carried out the side effect of some attempt. -/
  effect   : Bool

/-- The status of a receipt. -/
inductive Status
  | ok | failed | skipped | unknown
deriving DecidableEq

/-- A `task_result` event. -/
structure Receipt where
  runId     : Option String
  taskId    : Nat
  device    : String
  ts        : DateTime
  status    : Status
  attempts  : Int
  nextRunAt : Option DateTime
  notify    : Bool

/-- An automatic start. -/
structure Firing where
  plan  : Plan
  /-- The side effect of the plan had succeeded before. -/
  spent : Bool

/-- The scheduler and its part of the store. -/
structure State where
  tasks    : TaskTable
  running  : Dict Nat Execution
  up       : Bool
  clock    : Int
  receipts : List Receipt
  fired    : List Firing
  spent    : List Plan
  /-- The number of plans made so far. -/
  plans    : Nat

/-- Enter an execution in `_running`, under the id of its task. -/
def State.setRun (s : State) (e : Execution) : State :=
  { s with running := s.running.set e.task.id e }

/-! ## Planning and rescheduling -/

/-- `_report`. -/
def State.report (s : State) (t : Row) (runId : Option String) (status : Status) (attempts : Int)
    (moment : DateTime) (next : Option Plan) : State :=
  { s with receipts := s.receipts ++ [{
      runId, taskId := t.id, device := t.device, ts := moment.stamp, status, attempts,
      nextRunAt := next.map Plan.due, notify := t.notify }] }

/-- The plan made of a moment that `next_run` returned. -/
def State.planOf (s : State) (t : Row) (after moment : DateTime) : Plan :=
  { due := moment.stamp, number := s.plans, task := t.id, slot := slotOf t.schedule after,
    origin := t.schedule }

/-- `_reschedule`; an error is one that `except ScheduleError` does not catch. -/
def State.reschedule (s : State) (t : Row) (finished : DateTime) (draw : Int) (ran : Bool) :
    Except Failure (State × Option Plan) :=
  match nextRun t.schedule finished finished draw with
  | .ok moment =>
    .ok ({ s with
      tasks := s.tasks.markTaskRun t.id (if ran then some finished.stamp else t.lastRunAt)
        (some (s.planOf t finished moment))
      plans := s.plans + 1 }, some (s.planOf t finished moment))
  | .error .scheduleError =>
    .ok ({ s with
      tasks := s.tasks.markTaskRun t.id (if ran then some finished.stamp else t.lastRunAt) none },
      none)
  | .error e => .error e

/-- The end of `_execute`: reschedule, report, and leave the done callback to run.  An exception
    of `_reschedule` ends the execution on the spot. -/
def State.conclude (s : State) (e : Execution) (status : Status) (attempts : Int)
    (finished : DateTime) (draw : Int) : State :=
  match s.reschedule e.task finished draw (status ≠ .skipped) with
  | .ok (s', plan) =>
    (s'.report e.task none status attempts finished plan).setRun { e with attempts, phase := .done }
  | .error _ => s.setRun { e with attempts, phase := .done }

/-- The instant an unplanned task's interval counts from. -/
def Row.anchor (t : Row) (now : DateTime) : DateTime :=
  if t.schedule.type = "cron" then now else t.lastRunAt.getD now

/-- `_plan`: the plan and its moment, nothing after a ScheduleError. -/
def State.plan (s : State) (t : Row) (now : DateTime) (draw : Int) :
    Except Failure (State × Option (Plan × DateTime)) :=
  match nextRun t.schedule (t.anchor now) now draw with
  | .ok moment =>
    .ok ({ s with
      tasks := s.tasks.setTaskNextRun t.id (some (s.planOf t (t.anchor now) moment))
      plans := s.plans + 1 }, some (s.planOf t (t.anchor now) moment, moment))
  | .error .scheduleError => .ok (s.report t none .skipped 0 now none, none)
  | .error e              => .error e

/-! ## The tick -/

/-- `create_task(self._execute(task))` for a plan that is due. -/
def State.start (s : State) (t : Row) (p : Plan) : State :=
  State.setRun { s with fired := s.fired ++ [⟨p, p ∈ s.spent⟩] } ⟨t, .timer p, 0, .waiting, false⟩

/-- One round of the loop of `tick_once`. -/
def State.examine (s : State) (now : DateTime) (draws : Nat → Int) (t : Row) :
    Except Failure State :=
  if t.enabled = false ∨ (s.running.get? t.id).isSome then .ok s
  else match t.nextRunAt with
  | some p => .ok (if now.utc < p.due.utc then s else s.start t p)
  | none   => match s.plan t now (draws t.id) with
    | .error e                 => .error e
    | .ok (s', none)           => .ok s'
    | .ok (s', some (p, moment)) => .ok (if now.utc < moment.utc then s' else s'.start t p)

/-- The loop of `tick_once`.  An exception ends it, and `run` goes on with the next tick. -/
def State.tickOnce (now : DateTime) (draws : Nat → Int) :
    State → List Row → State × Option Failure
  | s, []      => (s, none)
  | s, t :: ts => match s.examine now draws t with
    | .error e => (s, some e)
    | .ok s'   => State.tickOnce now draws s' ts

/-! ## The machine -/

/-- The labels. -/
inductive Act
  | tick (now : DateTime) (draws : Nat → Int)
  | perform (id : Nat) (worker : Option WorkerView) (now : DateTime) (draw : Int)
  | effect (id : Nat)
  | reply (id : Nat) (r : Reply) (now : DateTime) (draw : Int)
  | reap (id : Nat)
  | runNow (id : Nat)
  | runManual (id : Nat) (runId : String) (worker : Option WorkerView) (now : DateTime)
      (draw : Int)
  | sync (incoming : List Row)
  | stop (now : DateTime)
  | crash
  | restart

/-- `max(0, int(retry_max or 0))`. -/
def Execution.retries (e : Execution) : Int := max 0 e.task.retryMax

/-- An attempt of `_execute` up to its worker call. -/
def State.perform (s : State) (e : Execution) (worker : Option WorkerView) (now : DateTime)
    (draw : Int) : State :=
  if performs worker e.task then
    s.setRun { e with attempts := e.attempts + 1, phase := .calling }
  else s.conclude e .skipped (e.attempts + 1) now draw

/-- The worker call of an execution ended; a cancelled `run_manual` counts as raised. -/
def State.reply (s : State) (e : Execution) (r : Reply) (now : DateTime) (draw : Int) : State :=
  match e.cause with
  | .manual runId planned =>
    { s.report e.task (some runId) (if returns e.task r then .ok else .unknown) 1 now planned with
      running := s.running.erase e.task.id }
  | _ =>
    if returns e.task r then s.conclude e .ok e.attempts now draw
    else if e.attempts ≤ e.retries then
      s.setRun { e with phase := .waiting }
    else s.conclude e .failed e.attempts now draw

/-- `run_manual` up to its worker call: the schedule advances first. -/
def State.runManual (s : State) (t : Row) (runId : String) (worker : Option WorkerView)
    (now : DateTime) (draw : Int) : State :=
  match s.reschedule t now draw true with
  | .error _         => s
  | .ok (s', planned) =>
    if performs worker t then
      s'.setRun ⟨t, .manual runId planned, 1, .calling, false⟩
    else s'.report t (some runId) .skipped 0 now planned

/-- What cancelling an execution reports: `_execute` nothing, `run_manual` an unknown outcome. -/
def State.cancel (now : DateTime) (s : State) (e : Execution) : State :=
  match e.cause with
  | .manual runId planned => s.report e.task (some runId) .unknown 1 now planned
  | _                     => s

/-- `stop`. -/
def State.stop (s : State) (now : DateTime) : State :=
  { (s.running.entries.map Prod.snd).foldl (State.cancel now) s with running := ∅, up := false }

def State.step (s : State) : Act → Option State
  | .tick now draws =>
    if s.up then
      some { (s.tickOnce now draws s.tasks.allTasks).1 with clock := now.utc }
    else none
  | .perform id worker now draw => match s.running.get? id with
    | some e =>
      if e.phase = .waiting then some { s.perform e worker now draw with clock := now.utc } else none
    | none => none
  | .effect id => match s.running.get? id with
    | some e =>
      if e.phase = .calling then
        some (State.setRun { s with spent := e.cause.plans ++ s.spent } { e with effect := true })
      else none
    | none => none
  | .reply id r now draw => match s.running.get? id with
    | some e =>
      if e.phase = .calling then some { s.reply e r now draw with clock := now.utc } else none
    | none => none
  | .reap id => match s.running.get? id with
    | some e => if e.phase = .done then some { s with running := s.running.erase id } else none
    | none   => none
  | .runNow id =>
    if s.up = false ∨ (s.running.get? id).isSome then none
    else match s.tasks.task id with
    | some t => some (s.setRun ⟨t, .now, 0, .waiting, false⟩)
    | none   => none
  | .runManual id runId worker now draw =>
    if s.up = false ∨ (s.running.get? id).isSome then none
    else match s.tasks.task id with
    | some t => some { s.runManual t runId worker now draw with clock := now.utc }
    | none   => none
  | .sync incoming =>
    if h : s.up = true ∧ (incoming.map Row.id).Nodup then
      some { s with tasks := s.tasks.replaceTasks incoming h.2 }
    else none
  | .stop now => if s.up then some { s.stop now with clock := now.utc } else none
  | .crash    => if s.up then some { s with running := ∅, up := false } else none
  | .restart  => if s.up then none else some { s with up := true }

/-- A new store: no task yet. -/
structure State.Starts (s : State) : Prop where
  tasks   : s.tasks.rows = []
  running : s.running.entries = []
  fired   : s.fired = []
  spent   : s.spent = []

/-- The scheduler. -/
def scheduler : Machine State Act := ⟨State.Starts, State.step⟩

end Air780eHub.Schedule
