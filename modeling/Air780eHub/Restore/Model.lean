/-
  The online restore of a backup (`restore.py`), as far as the database and the reported outcome go.

  A restore is one task.  It uploads, validates and migrates a private candidate, then `_switch`
  takes the Server into maintenance and works through a list of steps:

    drain the requests, pause the notifier,
    cancel the queued operations, mark every agent and device offline, give up running operations,
    check the disk space, copy the database to a snapshot, sync the snapshot,
    replace the database by the candidate, reset what must not survive, verify,

  and each of them can fail.  A failure of the last three replaces the database by the snapshot and
  verifies that; any other one leaves `outcome` unset, which `restore` reports as `unchanged`.  The
  `finally` of `_switch` starts the services again, and can fail too.

  Between two steps others write: requests before they are drained, handlers of closed WebSockets,
  background tasks before and after.  `alone` (ghost) is the database as it would be with their
  writes only.
-/
import Air780eHub.Gateway.Rows
import Air780eHub.Lib.Machine
import Air780eHub.Server.Operations

namespace Air780eHub.Restore

/-! ## The database -/

/-- The columns of `agents` about the task list. -/
structure TaskColumns where
  revision        : String
  appliedRevision : String
  syncId          : String
  syncStatus      : String
  syncError       : String
  sentAt          : Option String
  syncedAt        : Option String
deriving DecidableEq

/-- The content of a database: what a restore writes in place, and everything else. -/
structure Content (ρ : Type) where
  /-- `command_operations`; `updated_at` is written only where the status changes. -/
  operations : List Operation
  /-- `agents.connected` and `devices.online`. -/
  rows       : Gateway.Rows
  /-- `sessions`, by token hash. -/
  sessions   : List String
  settings   : List (String × String)
  taskSync   : List (String × TaskColumns)
  /-- `notify_deliveries`: `lease_owner` and `lease_until`. -/
  leases     : List (Nat × Option (String × String))
  rest       : ρ

namespace Content

variable {ρ : Type} (db : Content ρ)

/-- The first statement of the snapshot phase. -/
def cancelQueued : Content ρ := { db with operations := Operation.cancelQueued db.operations }

/-- `UPDATE agents SET connected = 0`. -/
def markAgents : Content ρ :=
  { db with rows := { db.rows with agents := db.rows.agents.map fun r => (r.1, false) } }

/-- `UPDATE devices SET online = 0`. -/
def markDevices : Content ρ :=
  { db with
    rows := { db.rows with devices := db.rows.devices.map fun d => { d with online := false } } }

/-- `recover_operations`. -/
def recover : Content ρ := { db with operations := Operation.recover db.operations }

/-- `reset_restored_runtime`, one transaction. -/
def resetRestoredRuntime : Content ρ :=
  { db with
    operations := Operation.resetRuntime db.operations
    rows       := db.rows.markAll
    sessions   := []
    settings   := db.settings.filter fun r =>
      r.1 != "previous_agent_token_hash" && r.1 != "previous_agent_token_expires_at"
    taskSync   := db.taskSync.map fun r => (r.1, ⟨"", "", "", "pending", "", none, none⟩)
    leases     := db.leases.map fun r => (r.1, none) }

end Content

/-! ## The task -/

/-- `RestoreController.outcome`. -/
inductive Outcome
  | restored
  | unchanged
  | rolledBack
  | manualRecovery
deriving DecidableEq

/-- What the task does next. -/
inductive Phase (ρ : Type)
  | idle
  /-- Upload, validation and migration of the candidate. -/
  | preparing
  | draining (candidate : Content ρ)
  /-- `Notifier.pause`. -/
  | pausing (candidate : Content ρ)
  | cancelling (candidate : Content ρ)
  | markingAgents (candidate : Content ρ)
  | markingDevices (candidate : Content ρ)
  | recovering (candidate : Content ρ)
  /-- The disk space, and a file for the snapshot. -/
  | checking (candidate : Content ρ)
  /-- `backup_to`. -/
  | copying (candidate : Content ρ)
  | syncing (candidate snapshot : Content ρ)
  /-- `replace_prepared` with the candidate. -/
  | replacing (candidate snapshot : Content ρ)
  | resetting (snapshot : Content ρ)
  | verifying (snapshot : Content ρ)
  /-- `replace_prepared` with the snapshot. -/
  | rollingBack (snapshot : Content ρ)
  | reverifying
  /-- The `finally` of `_switch`. -/
  | leaving
  /-- The request was answered. -/
  | ended

structure State (ρ : Type) where
  db      : Content ρ
  phase   : Phase ρ := .idle
  outcome : Option Outcome := none
  /-- Ghost: the database with the writes of others only. -/
  alone   : Content ρ
  /-- Ghost: the database when `replace_prepared` was called. -/
  before  : Content ρ
  /-- Ghost: an update before the snapshot found a row to change. -/
  touched : Bool := false

namespace State

variable {ρ : Type} (s : State ρ)

/-- A request begins. -/
def start : State ρ :=
  { s with phase := .preparing, outcome := none, alone := s.db, before := s.db, touched := false }

/-- A write of someone else.  `before` follows once the restore is done with the database. -/
def other (f : Content ρ → Content ρ) : State ρ :=
  { s with db := f s.db, alone := f s.alone
           before := if s.outcome = some .rolledBack then f s.before else s.before }

/-- An update of the snapshot phase. -/
def update (write : Content ρ → Content ρ) (finds : Bool) (next : Phase ρ) : State ρ :=
  { s with db := write s.db, touched := s.touched || finds, phase := next }

/-- `outcome` is unset where `restore` reports the end. -/
def conclude : State ρ := { s with phase := .ended, outcome := s.outcome.orElse fun _ => some .unchanged }

/-- The current step succeeds. -/
def succeed : Option (State ρ) :=
  match s.phase with
  | .idle | .preparing | .ended => none
  | .draining c       => some { s with phase := .pausing c }
  | .pausing c        => some { s with phase := .cancelling c }
  | .cancelling c     => some (s.update Content.cancelQueued
      (s.db.operations.any fun r => decide (r.status = .queued)) (.markingAgents c))
  | .markingAgents c  => some (s.update Content.markAgents
      (s.db.rows.agents.any Prod.snd) (.markingDevices c))
  | .markingDevices c => some (s.update Content.markDevices
      (s.db.rows.devices.any Gateway.Device.online) (.recovering c))
  | .recovering c     => some (s.update Content.recover
      (s.db.operations.any fun r => decide (r.status = .running)) (.checking c))
  | .checking c       => some { s with phase := .copying c }
  | .copying c        => some { s with phase := .syncing c s.db }
  | .syncing c snap   => some { s with phase := .replacing c snap }
  | .replacing c snap => some { s with before := s.db, db := c, phase := .resetting snap }
  | .resetting snap   => some { s with db := s.db.resetRestoredRuntime, phase := .verifying snap }
  | .verifying _      => some { s with outcome := some .restored, phase := .leaving }
  | .rollingBack snap => some { s with db := snap, phase := .reverifying }
  | .reverifying      => some { s with outcome := some .rolledBack, phase := .leaving }
  | .leaving          => some s.conclude

/-- The current step fails; what it writes is one statement or one transaction, or one backup that
    SQLite rolls back. -/
def fail : Option (State ρ) :=
  match s.phase with
  | .idle | .ended => none
  | .preparing    => some s.conclude
  | .draining _ | .pausing _ | .cancelling _ | .markingAgents _ | .markingDevices _
  | .recovering _ | .checking _ | .copying _ | .syncing _ _ => some { s with phase := .leaving }
  | .replacing _ snap => some { s with before := s.db, phase := .rollingBack snap }
  | .resetting snap | .verifying snap => some { s with phase := .rollingBack snap }
  -- the database may be either one: neither outcome of the claim is reported
  | .rollingBack _ | .reverifying => some { s with outcome := some .manualRecovery, phase := .ended }
  | .leaving => some { s with outcome := some .manualRecovery, phase := .ended }

end State

/-- What happens next. -/
inductive Act (ρ : Type)
  | start
  /-- The candidate was migrated and `_switch` begins. -/
  | prepared (candidate : Content ρ)
  | succeed
  | fail
  | other (f : Content ρ → Content ρ)

/-- One step.  After a manual recovery the Server stays in maintenance. -/
def step {ρ : Type} (s : State ρ) : Act ρ → Option (State ρ)
  | .start => match s.phase with
    | .idle => some s.start
    | .ended => if s.outcome = some .manualRecovery then none else some s.start
    | _     => none
  | .prepared c => match s.phase with
    | .preparing => some { s with phase := .draining c }
    | _          => none
  | .succeed => s.succeed
  | .fail    => s.fail
  | .other f => some (s.other f)

/-- The controller, beside everything else that writes to the database. -/
def controller (ρ : Type) : Machine (State ρ) (Act ρ) where
  Start := fun s => ∃ db, s = { db := db, alone := db, before := db }
  step  := step

end Air780eHub.Restore
