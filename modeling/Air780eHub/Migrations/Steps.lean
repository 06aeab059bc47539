/-
  The migrations of a database file, and how a Server opens one (`db.py`).

  A file carries the version of its shape.  `SCHEMA` creates what is missing, then every migration
  above the file's version runs in a transaction of its own that also writes the new version.  The
  process may fail or die at any statement; what is left is what was committed.

  1. **`_add_columns_if_missing`** and the migrations that only add.
  2. **The migrations that move data**: the data messages, the event streams, the modules of tasks.
  3. **`MIGRATIONS`**, `_run_step` and `_migrate`.
  4. **Opening a file**.
-/
import Air780eHub.Migrations.Schema

namespace Air780eHub.Migrations

open Relational Autocommit
open Server (Cell)

/-- A migration. -/
abbrev Migration := Program File Failure

/-- A statement of a migration. -/
def run {α : Type} (q : Sql α) : Migration α := .statement q

/-! ## Adding columns -/

/-- `ALTER TABLE … ADD COLUMN`, unless the column was among those that were there. -/
def addUnless (present : List Column) (t : Table) (d : ColumnDef) : Migration Unit :=
  if present.contains d.column then pure () else run (addColumn t d)

/-- `_add_columns_if_missing`. -/
def addColumnsIfMissing (t : Table) (cols : List ColumnDef) : Migration Unit := do
  let present ← run (tableInfo t)
  cols.forM (addUnless present t)

/-- `_reconcile_to_baseline`. -/
def reconcileToBaseline : Migration Unit := do
  let messages ← run (tableInfo (.hub .messages))
  let devices ← run (tableInfo (.hub .devices))
  addUnless messages (.hub .messages) (nullable (.hub .readAt))
  addUnless devices (.hub .devices) (nullable (.hub .radioEnabled))

/-- `_migration_message_diagnostics`. -/
def migrationMessageDiagnostics : Migration Unit :=
  addColumnsIfMissing (.hub .messages)
    [nullable (.hub .rawPdu), nullable (.hub .dcs), intDefault (.hub .isBinary) 0]

/-- `_migration_agent_protocol_version`. -/
def migrationAgentProtocolVersion : Migration Unit :=
  addColumnsIfMissing (.hub .agents) [intDefault (.hub .protocolVersion) 0]

/-- `_migration_sms_delivery_segments`. -/
def migrationSmsDeliverySegments : Migration Unit := do
  run (createTableIfNotExists (.hub .smsDeliverySegments))
  run (createIndexIfNotExists .smsDeliveryMessageSegment)
  run (createIndexIfNotExists .smsDeliveryMatch)
  run (createIndexIfNotExists .smsDeliveryUnmatched)

/-- `_migration_sim_lifecycle`. -/
def migrationSimLifecycle : Migration Unit :=
  addColumnsIfMissing (.hub .sims)
    [textDefault (.hub .billingType) "unknown", textDefault (.hub .planName) "",
     nullable (.hub .balance), nullable (.hub .lowBalanceThreshold),
     textDefault (.hub .currency) "", nullable (.hub .balanceUpdatedAt),
     nullable (.hub .expiresAt), nullable (.hub .activityDueAt)]

/-- `_migration_message_conversation_index`. -/
def migrationMessageConversationIndex : Migration Unit :=
  run (createIndexIfNotExists .messagesConversation)

/-- `_migration_modem_diagnostics`. -/
def migrationModemDiagnostics : Migration Unit :=
  addColumnsIfMissing (.hub .devices)
    [nullable (.hub .epsRegistered), nullable (.hub .csRegistered), nullable (.hub .imsRegistered),
     textDefault (.hub .hardwareModel) "", textDefault (.hub .firmware) ""]

/-- `_migration_supply_voltage`. -/
def migrationSupplyVoltage : Migration Unit := do
  addColumnsIfMissing (.hub .devices)
    [nullable (.hub .voltageMv), nullable (.hub .lowVoltageMv)]
  addColumnsIfMissing (.hub .deviceStatus) [nullable (.hub .voltageMv)]

/-- `_migration_salvaged_messages`. -/
def migrationSalvagedMessages : Migration Unit :=
  addColumnsIfMissing (.hub .messages)
    [intDefault (.hub .truncated) 0, nullable (.hub .recoveredBody),
     nullable (.hub .recoveredCode)]

/-- `_migration_calls`. -/
def migrationCalls : Migration Unit := do
  run (createTableIfNotExists (.hub .calls))
  run (createIndexIfNotExists .callsTs)
  run (createIndexIfNotExists .callsSim)

/-- `_migration_data_controls`. -/
def migrationDataControls : Migration Unit :=
  addColumnsIfMissing (.hub .devices)
    [nullable (.hub .dataAttached), nullable (.hub .pdpActive), nullable (.hub .roaming),
     intDefault (.hub .roamingDataAllowed) 0, intDefault (.hub .dataBlockedByRoaming) 0]

/-- `_migration_data_policy`. -/
def migrationDataPolicy : Migration Unit :=
  addColumnsIfMissing (.hub .devices) [intDefault (.hub .dataEnabled) 0]

/-- `_migration_notify_outbox`. -/
def migrationNotifyOutbox : Migration Unit := do
  run (createTableIfNotExists (.hub .notifyOutbox))
  run (createIndexIfNotExists .notifyOutboxEvent)
  run (createIndexIfNotExists .notifyOutboxStatus)
  run (createTableIfNotExists .notifyDeliveries)
  run (createIndexIfNotExists .notifyDeliveriesTarget)
  run (createIndexIfNotExists .notifyDeliveriesDue)

/-- `_migration_task_sync`. -/
def migrationTaskSync : Migration Unit :=
  addColumnsIfMissing (.hub .agents)
    [textDefault (.hub .tasksRevision) "", textDefault (.hub .tasksAppliedRevision) "",
     textDefault (.hub .tasksSyncId) "", textDefault (.hub .tasksSyncStatus) "pending",
     textDefault (.hub .tasksSyncError) "", nullable (.hub .tasksSyncSentAt),
     nullable (.hub .tasksSyncedAt)]

/-- `_migration_operations`: `OPERATION_SCHEMA`, statement by statement. -/
def migrationOperations : Migration Unit := OPERATION_SCHEMA.forM fun q => run q.exec

/-- `_migration_task_run_id`. -/
def migrationTaskRunId : Migration Unit :=
  addColumnsIfMissing (.hub .taskLogs) [nullable (.hub .runId)]

/-! ## Data messages -/

/-- The rows of one query. -/
def DATA_BATCH : Nat := 500

/-- `id > ? AND direction = 'in' AND is_binary = 0 AND raw_pdu IS NOT NULL`. -/
def unclassified (lastId : Nat) (r : FileRow) : Bool :=
  decide (lastId < r.id) && Server.equals (r.cells (.hub .direction)) (Server.text "in") &&
  Server.equals (r.cells (.hub .isBinary)) (Server.integer 0) && (r.cells (.hub .rawPdu)).isSome

/-- `_pdu_is_data` of a stored PDU. -/
def pduIsData : Option Cell → Except Failure Bool
  | some (.text s) => .ok (Server.pduIsData s)
  | _              => .error .typeError

/-- The ids of the rows of a batch whose PDU is data. -/
def malformed : List FileRow → Except Failure (List Nat)
  | []      => .ok []
  | r :: rs =>
    match pduIsData (r.cells (.hub .rawPdu)), malformed rs with
    | .error e, _          => .error e
    | .ok _, .error e      => .error e
    | .ok data, .ok ids    => .ok (if data then r.id :: ids else ids)

/-- One turn of the loop, with the id it got to; none when there was no row left. -/
def reclassifyBatch (lastId : Nat) : Migration (Option Nat) := do
  let found ← run (select (.hub .messages)
    [.hub .direction, .hub .isBinary, .hub .rawPdu] (unclassified lastId))
  match (found.take DATA_BATCH).getLast? with
  | none      => pure none
  | some last => do
    let ids ← run fun f => (malformed (found.take DATA_BATCH)).map fun ids => (ids, f)
    ids.forM fun i => run (update (.hub .messages) [.hub .isBinary] (fun r => r.id == i) fun _ =>
      [(.hub .isBinary, Server.integer 1)])
    pure (some last.id)

/-- The loop of `_migration_data_messages`, at most `k` turns of it. -/
def reclassify : Nat → Nat → Migration Unit
  | 0, _          => pure ()
  | k + 1, lastId => do
    match ← reclassifyBatch lastId with
    | none   => pure ()
    | some i => reclassify k i

/-- `_migration_data_messages`.  A turn takes at least one message, so there are no more turns than
    messages, and one that finds none. -/
def migrationDataMessages : Migration Unit := do
  let total ← run (onTable (.hub .messages) [] fun d => .ok (d.rows.length, d))
  reclassify (total + 1) 0

/-! ## Event streams -/

/-- The key of `ingested`. -/
def ingestKey (r : Column → Option Cell) : List (Option Cell) :=
  [r (.hub .agentId), r (.hub .streamId), r (.hub .seq)]

/-- A row of the old table in the new one. -/
def withoutStream (r : FileRow) : FileRow :=
  ⟨r.id, assign [(.hub .agentId, r.cells (.hub .agentId)), (.hub .streamId, Server.text ""),
    (.hub .seq, r.cells (.hub .seq)), (.hub .kind, r.cells (.hub .kind)), (.at, r.cells .at)]
    fun _ => none⟩

/-- `INSERT INTO ingested_v14 (…) SELECT agent_id, '', seq, kind, at FROM ingested`. -/
def copyIngested : Sql Unit := fun file =>
  match file.tables .ingested with
  | none   => .error (.noSuchTable .ingested)
  | some d =>
    if [Column.hub .agentId, .hub .seq, .hub .kind, .at].all fun c => d.columns.contains c then
      onTable .ingestedV14 (names .ingestedV14) (fun new =>
        let rows := new.rows ++ d.rows.map withoutStream
        if distinct ingestKey rows then .ok ((), { new with rows := rows, seq := d.seq })
        else .error .integrity) file
    else .error (.noSuchColumn .ingested)

/-- `_migration_event_stream_epoch`. -/
def migrationEventStreamEpoch : Migration Unit := do
  addColumnsIfMissing (.hub .agents) [textDefault (.hub .streamId) ""]
  let columns ← run (tableInfo .ingested)
  if columns.contains (.hub .streamId) then pure ()
  else do
    run (createTable .ingestedV14)
    run copyIngested
    run (dropTable .ingested)
    run (renameTable .ingestedV14 .ingested)

/-! ## The modules of tasks -/

/-- The text of a cell. -/
def textOf : Option Cell → String := Server.textOf

/-- The modules a task's name may mean: those of its agent, if it names one. -/
def candidates (task : FileRow) (device : FileRow) : Bool :=
  Server.equals (device.cells (.hub .name)) (task.cells (.hub .device)) &&
  (textOf (task.cells (.hub .agentId)) = "" ||
    Server.equals (device.cells (.hub .agentId)) (task.cells (.hub .agentId)))

/-- One turn of the loop of `_migration_task_device_id`: whether the task's module is ambiguous. -/
def pinTask (task : FileRow) : Migration Bool := do
  let matching ← run (select (.hub .devices) [.hub .name, .hub .agentId] (candidates task))
  match matching with
  | []       => pure false
  | [device] => do
    run (update (.hub .tasks) [.hub .deviceId, .hub .agentId] (fun r => r.id == task.id) fun _ =>
      [(.hub .deviceId, Server.integer device.id), (.hub .agentId, device.cells (.hub .agentId))])
    pure false
  | _        => do
    run (update (.hub .tasks) [.hub .enabled] (fun r => r.id == task.id) fun _ =>
      [(.hub .enabled, Server.integer 0)])
    pure true

/-- The loop, with the tasks it found ambiguous. -/
def pinTasks : List FileRow → Migration (List FileRow)
  | []            => pure []
  | task :: tasks => do
    let unclear ← pinTask task
    let rest ← pinTasks tasks
    pure (if unclear then task :: rest else rest)

/-- The incidents of a file, as a database. -/
def incidentsOf (f : File) : Server.HubDb where
  rows := fun t => if t = .incidents then
      (((f.tables (.hub .incidents)).map TableData.rows).getD []).map fun r =>
        ⟨r.id, fun c => r.cells (.hub c)⟩
    else []
  seq := fun t => if t = .incidents then
      ((f.tables (.hub .incidents)).map TableData.seq).getD 0
    else 0

/-- A row of the database in the file. -/
def ofHubRow (r : Server.HubRow) : FileRow :=
  ⟨r.id, fun c => match c with
    | .hub c => r.cells c
    | _      => none⟩

/-- `open_incident`, on the same connection. -/
def openIncident (E : Server.Env) (fingerprint kind severity source title detail : String) :
    Sql Unit := fun file =>
  match file.tables (.hub .incidents) with
  | none   => .error (.noSuchTable (.hub .incidents))
  | some d =>
    match Server.openIncident E fingerprint kind severity source title detail (incidentsOf file) with
    | .error _     => .error .integrity
    | .ok (_, db)  => .ok ((), file.setTable (.hub .incidents) (some { d with
        rows := (db.rows .incidents).map ofHubRow
        seq := db.seq .incidents }))

/-- `f"#{row['id']} {row['device']}"`. -/
def taskLabel (task : FileRow) : String :=
  "#" ++ toString task.id ++ " " ++ textOf (task.cells (.hub .device))

/-- `_migration_task_device_id`. -/
def migrationTaskDeviceId (E : Server.Env) : Migration Unit := do
  addColumnsIfMissing (.hub .tasks) [nullable (.hub .deviceId)]
  let tasks ← run (select (.hub .tasks) [.hub .device, .hub .agentId] fun r =>
    decide (textOf (r.cells (.hub .device)) ≠ ""))
  let ambiguous ← pinTasks tasks
  if ambiguous.isEmpty then pure ()
  else run (openIncident E "task-device-ambiguous" "task_device_ambiguous" "warning" "migration"
    "保号任务的目标模块无法唯一确定"
    ("以下任务的设备名在多个 Agent 上都存在，已暂停以避免发到错误的卡，" ++
      "请在任务页重新指定模块后启用：" ++ "、".intercalate (ambiguous.map taskLabel)))

/-! ## Running the migrations -/

/-- `SCHEMA_VERSION`. -/
def SCHEMA_VERSION : Nat := 19

/-- The step to the baseline and `MIGRATIONS`, by the version each of them leads to. -/
def MIGRATIONS (E : Server.Env) : List (Nat × Migration Unit) :=
  [(1, reconcileToBaseline),
   (2, migrationMessageDiagnostics),
   (3, migrationAgentProtocolVersion),
   (4, migrationSmsDeliverySegments),
   (5, migrationDataMessages),
   (6, migrationSimLifecycle),
   (7, migrationMessageConversationIndex),
   (8, migrationModemDiagnostics),
   (9, migrationSupplyVoltage),
   (10, migrationSalvagedMessages),
   (11, migrationCalls),
   (12, migrationDataControls),
   (13, migrationDataPolicy),
   (14, migrationEventStreamEpoch),
   (15, migrationTaskDeviceId E),
   (16, migrationNotifyOutbox),
   (17, migrationTaskSync),
   (18, migrationOperations),
   (19, migrationTaskRunId)]

/-- A session on a file. -/
abbrev FileSession := Session File Failure

/-- `except Exception: ROLLBACK; raise MigrationFailed`. -/
def orRollBack (m : FileSession Unit) : FileSession Unit := fun c =>
  match m c with
  | (.error e, c') => (.error (.migrationFailed e), rollback c')
  | (.ok _, c')    => (.ok (), c')

/-- `_run_step`. -/
def runStep (target : Nat) (apply : Migration Unit) : FileSession Unit := do
  beginTransaction .nested
  orRollBack do
    apply.session
    execute (setUserVersion target)
  commit

/-- The loop of `_migrate` from a version. -/
def runSteps : List (Nat × Migration Unit) → Nat → FileSession Unit
  | [], _                             => pure ()
  | (target, apply) :: steps, version =>
    if target ≤ version then runSteps steps version
    else do
      runStep target apply
      runSteps steps target

/-- `_migrate`. -/
def migrate (E : Server.Env) (preExisting : Bool) : FileSession Unit := do
  let version ← execute userVersion
  if SCHEMA_VERSION < version then throw .schemaTooNew
  else if version = SCHEMA_VERSION then pure ()
  else if preExisting then runSteps (MIGRATIONS E) version
  else execute (setUserVersion SCHEMA_VERSION)

/-- `executescript(SCHEMA)`, every statement on its own. -/
def executeScript : FileSession Unit := SCHEMA.forM fun q => execute q.exec

/-- The part of `_prepare_schema` that writes the file. -/
def applySchema (E : Server.Env) (preExisting : Bool) : FileSession Unit := do
  executeScript
  migrate E preExisting

/-! ## Opening a file -/

/-- A database file and the copies made of it before a migration, by the version they have. -/
structure Site where
  file : File
  bak  : Nat → Option File

/-- `_has_schema`. -/
def hasSchema (f : File) : Bool := (f.tables (.hub .devices)).isSome

/-- What goes wrong while a file is opened: with the copy, and with each statement to come. -/
structure Faults where
  snapshot   : Option Failure
  statements : List (Option Failure)

/-- An opening in which nothing goes wrong. -/
def Faults.none : Faults := ⟨.none, []⟩

/-- A copy is due: an old file is about to be migrated. -/
def snapshotDue (f : File) : Bool := hasSchema f && decide (f.version < SCHEMA_VERSION)

/-- The file after the session, and after the connection is closed: what was not committed is
    lost. -/
def afterSession (E : Server.Env) (faults : Faults) (f : File) : Except Failure Unit × File :=
  let r := applySchema E (hasSchema f) { disk := f, faults := faults.statements }
  (r.1, r.2.disk)

/-- `Database.__init__`, as far as it is about the file: `_prepare_schema`, and the connection is
    closed when it raises. -/
def openDatabase (E : Server.Env) (faults : Faults) (s : Site) : Except Failure Unit × Site :=
  if SCHEMA_VERSION < s.file.version then (.error .schemaTooNew, s)
  else if snapshotDue s.file then
    match faults.snapshot with
    | some e => (.error (.migrationFailed e), s)
    | none   =>
      let r := afterSession E faults s.file
      (r.1, ⟨r.2, fun v => if v = s.file.version then some s.file else s.bak v⟩)
  else
    let r := afterSession E faults s.file
    (r.1, { s with file := r.2 })

end Air780eHub.Migrations
