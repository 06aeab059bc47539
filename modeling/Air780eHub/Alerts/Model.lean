/-
  The offline alerter on its event loop (`alerts.py`).

  `note` runs in the event loop and spawns a timer or a recovery; every other piece of code is a
  task that runs from one `await` to the next.  What a task waits for says where it is:

  * `soon`: spawned, not yet started.  The loop starts tasks in the order they were spawned.
  * `queue`: a database call.  The database has one worker thread, so calls are executed in the
    order they were made, and their callers resume in that order.
  * `sleeping`: the grace period.

  Between any two of these steps anything else may happen: a note, a step of another task, a change
  of the setting or of `devices.online`.  A restart takes everything but the database along.

  The ghost fields number the drops of a module: `onlines key` counts its recoveries so far, and a
  timer carries the number of the drop that armed it.
-/
import Air780eHub.Lib.Dict
import Air780eHub.Lib.Machine

namespace Air780eHub.Alerts

/-! ## Tasks -/

/-- `(agent_id, device)`. -/
abbrev Key := String × String

/-- What a task runs. -/
inductive Role
  /-- `_fire_after_grace`. -/
  | timer
  /-- `_recover`. -/
  | recovery (alerted : Bool)
deriving DecidableEq

/-- A spawned task.  `drop` and `armedAt` are ghost: the drop it was armed for, or that it ends,
    and when it was spawned. -/
structure Job where
  id      : Nat
  key     : Key
  role    : Role
  drop    : Nat
  armedAt : Nat
deriving DecidableEq

/-- A database call. -/
inductive Call
  /-- The read of the setting. -/
  | enabled
  /-- `_record_offline`. -/
  | record
  /-- `resolve_incident`. -/
  | resolve
  /-- `_device_label`, before `notify_text`. -/
  | label
deriving DecidableEq

/-- A call of a task, with its result once it was executed. -/
structure Entry where
  job    : Job
  call   : Call
  result : Option Bool := none

/-- A call of `notify_text`. -/
structure Notice where
  key  : Key
  /-- An offline page; a recovery otherwise. -/
  page : Bool
  job  : Job

/-- A recovery that was noted (ghost): the drop it ends, and when. -/
structure Recovered where
  key  : Key
  drop : Nat
  at_  : Nat

/-- The alerter, its tasks and the part of the database it reads. -/
structure State where
  pending   : Dict Key Nat := ∅
  alerted   : List Key := []
  soon      : List Job := []
  queue     : List Entry := []
  /-- With the end of the grace period. -/
  sleeping  : List (Job × Nat) := []
  cancelled : List Nat := []
  nextId    : Nat := 0
  now       : Nat := 0
  enabled   : Bool := true
  online    : Key → Bool := fun _ => false
  /-- `notify_text` so far, in this process. -/
  calls     : List Notice := []
  /-- Ghost: the recoveries noted for a module. -/
  onlines   : Key → Nat := fun _ => 0
  recovered : List Recovered := []
  /-- Ghost: every grace period that began, with its end. -/
  graceEnds : List (Job × Nat) := []
  /-- Ghost: every offline page of every process, by module and drop. -/
  pages     : List (Key × Nat) := []

namespace State

variable (s : State)

/-! ## `note` -/

/-- `_note_offline`. -/
def noteOffline (key : Key) : State :=
  if (s.pending.get? key).isSome || s.alerted.contains key then s
  else
    { s with
      pending := s.pending.set key s.nextId
      soon    := s.soon ++ [⟨s.nextId, key, .timer, s.onlines key, s.now⟩]
      nextId  := s.nextId + 1 }

/-- `_note_online`. -/
def noteOnline (key : Key) : State :=
  { s with
    pending   := s.pending.erase key
    cancelled := s.cancelled ++ (s.pending.get? key).toList
    alerted   := s.alerted.filter fun k => k != key
    soon      := s.soon ++
      [⟨s.nextId, key, .recovery (s.alerted.contains key), s.onlines key, s.now⟩]
    nextId    := s.nextId + 1
    onlines   := Function.update s.onlines key (s.onlines key + 1)
    recovered := s.recovered ++ [⟨key, s.onlines key, s.now⟩] }

/-! ## Tasks -/

/-- The task makes a call and waits for it. -/
def await (job : Job) (call : Call) : State := { s with queue := s.queue ++ [⟨job, call, none⟩] }

/-- The `finally` of `_fire_after_grace`. -/
def cleanup (job : Job) : State :=
  if s.pending.get? job.key = some job.id then { s with pending := s.pending.erase job.key } else s

/-- A task begins; one that was cancelled before never does. -/
def begin (job : Job) : State :=
  match job.role with
  | .timer      => if s.cancelled.contains job.id then s else s.await job .enabled
  | .recovery _ => s.await job .resolve

/-- `_record_offline` returned `True`. -/
def paging (job : Job) : State :=
  { s with alerted := job.key :: s.alerted, pending := s.pending.erase job.key }.await job .label

/-- `notify_text` of an offline page. -/
def page (job : Job) : State :=
  { s with calls := s.calls ++ [⟨job.key, true, job⟩], pages := s.pages ++ [(job.key, job.drop)] }

/-- `notify_text` of a recovery. -/
def notice (job : Job) : State := { s with calls := s.calls ++ [⟨job.key, false, job⟩] }

/-- What a call returns when the worker thread executes it. -/
def answer (job : Job) : Call → Bool
  | .enabled => s.enabled
  | .record  => s.enabled && !s.online job.key
  | _        => true

/-- The worker thread executes the first call that waits. -/
def executeFirst : List Entry → List Entry
  | []      => []
  | e :: es => match e.result with
    | none   => { e with result := some (s.answer e.job e.call) } :: es
    | some _ => e :: executeFirst es

/-- A timer resumes after a call. -/
def resumeTimer (grace : Nat) (job : Job) (ok : Bool) : Call → State
  | .enabled =>
    if s.cancelled.contains job.id then s
    else if ok then
      { s with
        sleeping  := s.sleeping ++ [(job, s.now + grace)]
        graceEnds := s.graceEnds ++ [(job, s.now + grace)] }
    else s.cleanup job
  | .record =>
    if s.cancelled.contains job.id then s
    else if ok then s.paging job
    else s.cleanup job
  | .label   => (s.page job).cleanup job
  | .resolve => s

/-- A recovery resumes after a call. -/
def resumeRecovery (job : Job) (alerted : Bool) : Call → State
  | .resolve => if alerted then s.await job .label else s
  | .label   => s.notice job
  | _        => s

/-- The caller of the first call resumes with its result. -/
def resume (grace : Nat) (job : Job) (call : Call) (ok : Bool) : State :=
  match job.role with
  | .timer      => s.resumeTimer grace job ok call
  | .recovery a => s.resumeRecovery job a call

end State

/-! ## The machine -/

/-- What happens next. -/
inductive Act
  | note (key : Key) (online : Bool)
  /-- The loop starts the task spawned first. -/
  | start
  /-- The worker thread executes a call. -/
  | execute
  /-- The caller of the call made first resumes. -/
  | resume
  /-- The sleep of the `i`-th sleeping timer is over, or cancelled. -/
  | wake (i : Nat)
  | setEnabled (b : Bool)
  /-- `devices.online` of a module changes. -/
  | setOnline (key : Key) (b : Bool)
  | tick (d : Nat)
  /-- The Server's process ends and another starts: `mark_all_agents_disconnected`. -/
  | restart

/-- One step. -/
def step (grace : Nat) (s : State) : Act → Option State
  | .note key online => some (if online then s.noteOnline key else s.noteOffline key)
  | .start => match s.soon with
    | []         => none
    | job :: soon => some ({ s with soon := soon }.begin job)
  | .execute => some { s with queue := s.executeFirst s.queue }
  | .resume => match s.queue with
    | ⟨job, call, some ok⟩ :: queue => some ({ s with queue := queue }.resume grace job call ok)
    | _ => none
  | .wake i => match s.sleeping[i]? with
    | none     => none
    | some (job, graceEnd) =>
      if s.cancelled.contains job.id then some { s with sleeping := s.sleeping.eraseIdx i }
      else if graceEnd ≤ s.now then
        some ({ s with sleeping := s.sleeping.eraseIdx i }.await job .record)
      else none
  | .setEnabled b    => some { s with enabled := b }
  | .setOnline key b => some { s with online := Function.update s.online key b }
  | .tick d          => some { s with now := s.now + d }
  | .restart => some
    { s with
      pending := ∅, alerted := [], soon := [], queue := [], sleeping := [], cancelled := []
      online := fun _ => false, calls := [] }

/-- The alerter from the Server's first start on. -/
def alerter (grace : Nat) : Machine State Act where
  Start := fun s => s = {}
  step  := step grace

end Air780eHub.Alerts
