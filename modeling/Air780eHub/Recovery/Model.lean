/-
  The self-healing policy of a worker (`worker.py`).

  A worker counts its registration recovery actions over 24 hours, keeps the count in the local store
  and reports what it does as `device_recovery` log events.  Everything here happens between two
  awaits of some coroutine: a status sample up to the recovery action it starts, the end of that
  action, a reconnect, a radio or operator command.  Coroutines that await an action are listed in
  `actions`, so two samples may have one each.

  The local store is a database on the disk, and every row the worker writes to it is committed at
  once.  A step makes several such writes, and the process may die before any of them: `crashes`
  lists what the disk held then.

  1. **Memory**: the fields that are persisted, the disk, and the worker around them.
  2. **Reporting**: `_start_recovery`, `_finish_recovery`, `_report_recovery_limit` and the two ways
     a recovery is over, `_registration_restored` and `_cancel_registration_recovery`.
  3. **The sample**: `_prune_recovery_attempts` and `_maybe_recover_registration`.
  4. **The machine.**  What a status query, a command or an action finds out is in the label; times
     are those of the worker's clock, in seconds.
  5. **The Server's side**: `_apply_device_recovery` on the incident of the module.

  `starts` and `watch` only observe: the times at which registration actions were started, and that
  the 24-hour limit has been reported and neither lifted by a registration nor cancelled since.
-/
import Mathlib.Data.List.Sort
import Mathlib.Data.Rat.Defs
import Mathlib.Algebra.Order.Ring.Rat
import Air780eHub.Lib.Machine
import Air780eHub.Lib.SlidingWindow

namespace Air780eHub.Recovery

/-! ## Memory -/

/-- `RECOVERY_WINDOW`, in seconds. -/
def RECOVERY_WINDOW : ℚ := 86400

/-- The actions a recovery event may name. -/
inductive Action
  | serialReconnect | operatorReselect | radioCycle | moduleReset
  | registrationRecovery | registrationWatch
deriving DecidableEq

inductive Outcome
  | started | failed | succeeded | cancelled | exhausted
deriving DecidableEq

/-- A `device_recovery` log event. -/
structure Event where
  action  : Action
  outcome : Outcome
  attempt : Nat
deriving DecidableEq

/-- The parameters of the worker, as configured. -/
structure Config where
  registrationRecoveryDelay : ℚ
  recoveryCooldown          : ℚ
  recoveryMaxAttempts24h    : Int
  healthFailureThreshold    : Int

/-- `max(0, recovery_max_attempts_24h)`. -/
def Config.maxAttempts (cfg : Config) : Nat := (max 0 cfg.recoveryMaxAttempts24h).toNat

/-- `max(0.0, recovery_cooldown)`. -/
def Config.cooldown (cfg : Config) : ℚ := max 0 cfg.recoveryCooldown

/-- `max(0.0, registration_recovery_delay)`. -/
def Config.delay (cfg : Config) : ℚ := max 0 cfg.registrationRecoveryDelay

/-- `REGISTRATION_RECOVERY_ACTIONS[stage]`. -/
def REGISTRATION_RECOVERY_ACTIONS : Fin 3 → Action
  | 0 => .operatorReselect
  | 1 => .radioCycle
  | 2 => .moduleReset

/-- The persisted fields. -/
structure Memory where
  attempts      : List ℚ
  stage         : Fin 3
  sequence      : Nat
  inflight      : Option (Action × Nat)
  issueOpen     : Bool
  lastAction    : Option Action
  lastAttempt   : Nat
  limitReported : Bool

/-- A worker. -/
structure Worker where
  memory            : Memory
  unregisteredSince : Option ℚ
  healthFailures    : Nat
  radioEnabled      : Option Bool
  registered        : Bool

/-- A coroutine that awaits the recovery action it started at the time `since`. -/
structure Pending where
  action  : Action
  attempt : Nat
  since   : ℚ

/-- What is on the disk: the state the worker persisted, and the events it logged. -/
structure Disk where
  stored : Option Memory
  events : List Event
  starts : List ℚ
  watch  : Bool

/-- The worker of a module.  `crashes` is the disk before each write of the last step. -/
structure State where
  worker  : Option Worker
  clock   : ℚ
  actions : List Pending
  disk    : Disk
  crashes : List Disk

/-- The fields of a new worker. -/
def Memory.empty : Memory := ⟨[], 0, 0, none, false, none, 0, false⟩

/-- `_load_recovery_state` of a state that this worker persisted. -/
def Memory.load (m : Memory) (now : ℚ) : Memory :=
  { m with
    attempts := (m.attempts.filter (inWindow RECOVERY_WINDOW now)).insertionSort (· ≤ ·)
    inflight := m.inflight.filter fun i => 0 < i.2 }

/-- A worker that starts: it has not seen the module yet. -/
def Worker.boot (stored : Option Memory) (now : ℚ) : Worker :=
  ⟨(stored.map fun m => m.load now).getD .empty, none, 0, none, false⟩

/-- Assign to the worker. -/
def State.put (s : State) (w : Worker) : State := { s with worker := some w }

/-- Write to the disk. -/
def State.write (s : State) (d : Disk) : State :=
  { s with disk := d, crashes := s.crashes ++ [s.disk] }

/-- `_persist_recovery_state`. -/
def State.persist (s : State) (w : Worker) : State :=
  (s.write { s.disk with stored := some w.memory }).put w

/-- The disk after `_log_event` of a recovery event. -/
def Disk.log (d : Disk) (action : Action) (outcome : Outcome) (attempt : Nat) : Disk :=
  { d with events := d.events ++ [⟨action, outcome, attempt⟩] }

/-- The registration recovery is over: nothing is watched any more. -/
def State.unwatch (s : State) : State := { s with disk := { s.disk with watch := false } }

/-! ## Reporting -/

/-- The fields `_start_recovery` assigns. -/
def Memory.started (m : Memory) (action : Action) : Memory :=
  { m with
    sequence := m.sequence + 1
    inflight := some (action, m.sequence + 1)
    issueOpen := true
    lastAction := some action
    lastAttempt := m.sequence + 1 }

/-- `_start_recovery`.  `starts` are the registration actions started, this one included. -/
def State.startRecovery (s : State) (w : Worker) (action : Action) (starts : List ℚ) : State :=
  ((s.write { s.disk with stored := some (w.memory.started action), starts }).put
      { w with memory := w.memory.started action }).write
    (Disk.log { s.disk with stored := some (w.memory.started action), starts } action .started
      (w.memory.sequence + 1))

/-- The fields `_finish_recovery` assigns. -/
def Memory.finished (m : Memory) (outcome : Outcome) : Memory :=
  { m with
    inflight := none
    issueOpen := m.issueOpen && !(outcome = .succeeded || outcome = .cancelled) }

/-- `_finish_recovery`. -/
def State.finishRecovery (s : State) (w : Worker) (action : Action) (attempt : Nat)
    (outcome : Outcome) : State :=
  (s.write (s.disk.log action outcome attempt)).persist
    { w with memory := w.memory.finished outcome }

/-- The fields that go when a registration recovery is over. -/
def Worker.settled (w : Worker) : Worker :=
  { w with unregisteredSince := none, memory := { w.memory with stage := 0, limitReported := false } }

/-- Whether `settled` changes anything. -/
def Worker.unsettled (w : Worker) : Bool :=
  w.unregisteredSince.isSome || w.memory.stage ≠ 0 || w.memory.limitReported

/-- `_registration_restored` and `_cancel_registration_recovery`: the recovery is over, with the
    outcome succeeded or cancelled. -/
def State.settle (s : State) (w : Worker) (outcome : Outcome) : State :=
  if w.memory.issueOpen then
    s.unwatch.finishRecovery w.settled (w.memory.lastAction.getD .registrationWatch)
      w.memory.lastAttempt outcome
  else if w.unsettled then s.unwatch.persist w.settled
  else s.unwatch.put w.settled

/-- `_registration_restored`. -/
def State.registrationRestored (s : State) (w : Worker) : State := s.settle w .succeeded

/-- `_cancel_registration_recovery`. -/
def State.cancelRegistration (s : State) (w : Worker) : State := s.settle w .cancelled

/-- The fields `_report_recovery_limit` assigns. -/
def Memory.exhausted (m : Memory) : Memory :=
  { m with limitReported := true, issueOpen := true, lastAction := some .registrationRecovery }

/-- `_report_recovery_limit`. -/
def State.reportLimit (s : State) (w : Worker) : State :=
  if w.memory.limitReported then s.put w
  else
    (s.write { s.disk.log .registrationRecovery .exhausted w.memory.lastAttempt with
      watch := true }).persist { w with memory := w.memory.exhausted }

/-! ## The sample -/

/-- The fields `_prune_recovery_attempts` assigns. -/
def Memory.pruned (cfg : Config) (m : Memory) (now : ℚ) : Memory :=
  { m with
    attempts := m.attempts.dropWhile fun t => !inWindow RECOVERY_WINDOW now t
    limitReported := m.limitReported && decide (cfg.maxAttempts
      ≤ (m.attempts.dropWhile fun t => !inWindow RECOVERY_WINDOW now t).length) }

/-- `_prune_recovery_attempts`.  It persists only a change. -/
def State.prune (cfg : Config) (s : State) (w : Worker) (now : ℚ) : State :=
  if (w.memory.pruned cfg now).attempts = w.memory.attempts
      ∧ (w.memory.pruned cfg now).limitReported = w.memory.limitReported then s.put w
  else s.persist { w with memory := w.memory.pruned cfg now }

/-- The worker after `_prune_recovery_attempts`. -/
def Worker.pruned (cfg : Config) (w : Worker) (now : ℚ) : Worker :=
  { w with memory := w.memory.pruned cfg now }

/-- The record of a registration action that starts now. -/
def Worker.attempting (w : Worker) (now : ℚ) : Worker :=
  { w with memory := { w.memory with attempts := w.memory.attempts ++ [now] } }

/-- A registration action is started and awaited. -/
def State.startAction (s : State) (w : Worker) (now : ℚ) : State :=
  { s.startRecovery (w.attempting now) (REGISTRATION_RECOVERY_ACTIONS w.memory.stage)
      (s.disk.starts ++ [now]) with
    actions := s.actions ++
      [⟨REGISTRATION_RECOVERY_ACTIONS w.memory.stage, w.memory.sequence + 1, now⟩] }

/-- `_maybe_recover_registration` of an unregistered module, once the delay is over and the attempts
    are pruned. -/
def State.recover (cfg : Config) (s : State) (w : Worker) (now : ℚ) : State :=
  if cfg.maxAttempts ≤ w.memory.attempts.length then s.reportLimit w
  else if w.memory.attempts.getLast?.any fun last => now - last < cfg.cooldown then s.put w
  else s.startAction w now

/-- `_maybe_recover_registration` up to the action it awaits.  `manual` is
    `operator_selection_mode == 1`. -/
def State.maybeRecover (cfg : Config) (s : State) (w : Worker) (manual : Bool) (now : ℚ) : State :=
  if w.radioEnabled = some false then s.cancelRegistration w
  else if manual then s.cancelRegistration w
  else if w.registered then s.registrationRestored w
  else if cfg.maxAttempts = 0 then s.cancelRegistration w
  else if now - w.unregisteredSince.getD now < cfg.delay then
    s.put { w with unregisteredSince := some (w.unregisteredSince.getD now) }
  else
    (s.prune cfg { w with unregisteredSince := some (w.unregisteredSince.getD now) } now).recover cfg
      (Worker.pruned cfg { w with unregisteredSince := some (w.unregisteredSince.getD now) } now) now

/-! ## The machine -/

/-- What happens in a step. -/
inductive Act
  /-- The health check answered, or failed. -/
  | health (ok : Bool)
  /-- A status query or a command assigned the two bits. -/
  | observed (radioEnabled : Option Bool) (registered : Bool)
  /-- A sample came to `_maybe_recover_registration`. -/
  | sample (manual : Bool) (now : ℚ)
  /-- The `k`-th awaited action ended. -/
  | concluded (k : Nat) (recovered : Bool)
  /-- The coroutine of the `k`-th awaited action was cancelled. -/
  | abandoned (k : Nat)
  /-- `_connect` opened the module. -/
  | connected (radioEnabled : Option Bool) (registered : Bool) (now : ℚ)
  /-- `set_radio_enabled` ended. -/
  | radioSet (enabled registered : Bool) (now : ℚ)
  /-- `select_operator` ended. -/
  | operatorSelected (manual registered : Bool) (now : ℚ)
  | killed
  | booted (now : ℚ)

/-- A step that is complete, or in which the process dies before the `k`-th write. -/
structure Label where
  act  : Act
  dies : Option Nat

/-- `_check_health` from the answer on. -/
def State.checkHealth (cfg : Config) (s : State) (w : Worker) (ok : Bool) : State :=
  if ok then s.put { w with healthFailures := 0 }
  else if (w.healthFailures + 1 : Int) < max 1 cfg.healthFailureThreshold then
    s.put { w with healthFailures := w.healthFailures + 1 }
  else
    s.startRecovery { w with healthFailures := w.healthFailures + 1 } .serialReconnect s.disk.starts

/-- The end of an awaited registration action. -/
def State.conclude (s : State) (w : Worker) (p : Pending) (recovered : Bool) : State :=
  if p.action = .moduleReset then
    s.persist { w with
      unregisteredSince := some p.since
      memory := { w.memory with stage := 0 } }
  else if recovered then
    s.unwatch.finishRecovery { w.settled with registered := true } p.action p.attempt .succeeded
  else
    s.finishRecovery { w with memory := { w.memory with stage := w.memory.stage + 1 } } p.action
      p.attempt .failed

/-- The outcome `_settle_recovery_after_connect` gives the action in flight. -/
def Worker.settleOutcome (w : Worker) (action : Action) : Outcome :=
  if action = .serialReconnect then .succeeded
  else if w.radioEnabled = some false then .cancelled
  else if w.registered then .succeeded
  else .failed

/-- The first half of `_settle_recovery_after_connect`: the action in flight is finished. -/
def State.settleInflight (s : State) (w : Worker) : State :=
  match w.memory.inflight with
  | some (action, attempt) => s.finishRecovery w action attempt (w.settleOutcome action)
  | none                   => s.put w

/-- The worker after the first half. -/
def Worker.settledInflight (w : Worker) : Worker :=
  match w.memory.inflight with
  | some (action, _) => { w with memory := w.memory.finished (w.settleOutcome action) }
  | none             => w

/-- `_settle_recovery_after_connect`. -/
def State.settleAfterConnect (s : State) (w : Worker) (now : ℚ) : State :=
  if w.registered then (s.unwatch.settleInflight w).registrationRestored w.settledInflight
  else if w.radioEnabled = some false then
    (s.unwatch.settleInflight w).cancelRegistration w.settledInflight
  else (s.settleInflight w).put { w.settledInflight with unregisteredSince := some now }

/-- The end of `set_radio_enabled` and `select_operator`: `cancels` is a radio that is off, or a manual
    operator. -/
def State.commanded (s : State) (w : Worker) (restored cancels : Bool) (now : ℚ) : State :=
  if restored then s.registrationRestored w
  else if cancels then s.cancelRegistration w
  else s.put { w with unregisteredSince := some now }

/-- One complete step. -/
def State.act (cfg : Config) (s : State) : Act → Option State
  | .health ok => s.worker.map fun w => s.checkHealth cfg w ok
  | .observed radioEnabled registered => s.worker.map fun w =>
    s.put { w with radioEnabled, registered }
  | .sample manual now => s.worker.map fun w =>
    State.maybeRecover cfg { s with clock := now } w manual now
  | .concluded k recovered => match s.worker, s.actions[k]? with
    | some w, some p => some (State.conclude { s with actions := s.actions.eraseIdx k } w p recovered)
    | _, _           => none
  | .abandoned k => match s.actions[k]? with
    | some _ => some { s with actions := s.actions.eraseIdx k }
    | none   => none
  | .connected radioEnabled registered now => s.worker.map fun w =>
    State.settleAfterConnect { s with clock := now }
      { w with radioEnabled, registered, healthFailures := 0 } now
  | .radioSet enabled registered now => s.worker.map fun w =>
    State.commanded { s with clock := now } { w with radioEnabled := some enabled, registered }
      (enabled && registered) (!enabled) now
  | .operatorSelected manual registered now => s.worker.map fun w =>
    State.commanded { s with clock := now } { w with registered } registered manual now
  | .killed => s.worker.map fun _ => { s with worker := none, actions := [] }
  | .booted now => match s.worker with
    | none   => some { s with worker := some (.boot s.disk.stored now), clock := now }
    | some _ => none

/-- The process is dead and left this on the disk. -/
def State.died (s : State) (d : Disk) : State := ⟨none, s.clock, [], d, []⟩

def State.step (cfg : Config) (s : State) (l : Label) : Option State :=
  match State.act cfg { s with crashes := [] } l.act, l.dies with
  | some s', none   => some s'
  | some s', some k => s'.crashes[k]?.map s'.died
  | none, _         => none

/-- A module that has not been seen before. -/
structure State.Starts (s : State) : Prop where
  worker  : s.worker = none
  actions : s.actions = []
  disk    : s.disk = ⟨none, [], [], false⟩
  crashes : s.crashes = []

/-- The recovery machine of one worker. -/
def recovery (cfg : Config) : Machine State Label := ⟨State.Starts, State.step cfg⟩

/-! ## The Server's side -/

inductive IncidentStatus
  | active | acknowledged | resolved
deriving DecidableEq

/-- `open_incident` on the incident of a module. -/
def openIncident : Option IncidentStatus → Option IncidentStatus
  | none           => some .active
  | some .resolved => some .active
  | some status    => some status

/-- `resolve_incident`. -/
def resolveIncident : Option IncidentStatus → Option IncidentStatus
  | none   => none
  | some _ => some .resolved

/-- `_apply_device_recovery`. -/
def applyDeviceRecovery (incident : Option IncidentStatus) (e : Event) : Option IncidentStatus :=
  if e.outcome = .succeeded ∨ e.outcome = .cancelled then resolveIncident incident
  else if e.outcome = .started ∨ e.outcome = .exhausted then openIncident incident
  else incident

/-- The incident after a list of events. -/
def incidentAfter (events : List Event) : Option IncidentStatus :=
  events.foldl applyDeviceRecovery none

end Air780eHub.Recovery
