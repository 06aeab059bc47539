/-
  The Server's database file: its tables, `SCHEMA` and the statements that change a file's shape.

  An old file has whatever tables, columns and indexes its Server created, so here a file carries
  its columns with its rows, and a statement that names a missing table or column raises.  Tables
  the Server's database already declares are taken from there; the rest of `SCHEMA` is added.

  Constraints that no statement here can break (NOT NULL and foreign keys of rows that are only
  moved, CHECK) are left out.

  1. **Tables, columns and indexes.**
  2. **Files** and `SCHEMA`.
  3. **Statements.**
-/
import Air780eHub.Lib.Programs
import Air780eHub.Server.Apply

namespace Air780eHub.Migrations

open Relational Autocommit
open Server (Cell)

/-! ## Tables and columns -/

inductive Table
  | hub (t : Server.Table)
  | ingested | channels | rules | notifyLogs | notifyDeliveries | sessions | settings | auditEvents
  /-- The table `ingested` is rebuilt in. -/
  | ingestedV14
deriving DecidableEq

inductive Column
  | hub (c : Server.Column)
  | at | type | config | channelId | matchMode | pattern | template | priority | ruleId | outboxId
  | nextAttemptAt | leaseOwner | leaseUntil | errorCode | safeDetail | tokenHash | key | value
  | target | clientIp
deriving DecidableEq

/-- The declaration of a column. -/
structure ColumnDef where
  column  : Column
  notNull : Bool
  default : Option Cell

/-- A declaration of the Server's database. -/
def ColumnDef.ofHub (d : Server.ColumnDef) : ColumnDef := ⟨.hub d.column, d.notNull, d.default⟩

/-- A column without constraint or default. -/
def nullable (c : Column) : ColumnDef := ⟨c, false, none⟩

/-- `NOT NULL`. -/
def required (c : Column) : ColumnDef := ⟨c, true, none⟩

/-- `TEXT NOT NULL DEFAULT s`. -/
def textDefault (c : Column) (s : String) : ColumnDef := ⟨c, true, some (.text s)⟩

/-- `INTEGER NOT NULL DEFAULT n`. -/
def intDefault (c : Column) (n : Int) : ColumnDef := ⟨c, true, some (.integer n)⟩

/-- The columns of `ingested`. -/
def INGESTED : List ColumnDef :=
  [required (.hub .agentId), textDefault (.hub .streamId) "", required (.hub .seq),
   required (.hub .kind), required .at]

/-- The `CREATE TABLE` statements. -/
def columns : Table → List ColumnDef
  | .hub t       => (Server.columns t).map .ofHub
  | .ingested    => INGESTED
  | .ingestedV14 => INGESTED
  | .channels    =>
    [required (.hub .name), required .type, textDefault .config "\x7b\x7d",
     intDefault (.hub .enabled) 1, required (.hub .createdAt)]
  | .rules       =>
    [textDefault (.hub .name) "", nullable (.hub .simId), required .channelId,
     textDefault .matchMode "all", textDefault .pattern "", textDefault .template "",
     intDefault .priority 0, intDefault (.hub .enabled) 1]
  | .notifyLogs  =>
    [nullable (.hub .messageId), nullable .channelId, nullable .ruleId, required (.hub .status),
     intDefault (.hub .attempts) 1, textDefault (.hub .detail) "", required (.hub .ts)]
  | .notifyDeliveries =>
    [required .outboxId, required .channelId, nullable .ruleId,
     textDefault (.hub .status) "pending", intDefault (.hub .attempts) 0, required .nextAttemptAt,
     nullable .leaseOwner, nullable .leaseUntil, nullable .errorCode, textDefault .safeDetail "",
     nullable (.hub .expiresAt), required (.hub .createdAt), required (.hub .updatedAt)]
  | .sessions    =>
    [nullable .tokenHash, required (.hub .createdAt), required (.hub .expiresAt),
     textDefault (.hub .label) ""]
  | .settings    => [nullable .key, required .value]
  | .auditEvents =>
    [required (.hub .ts), required (.hub .action), textDefault .target "",
     textDefault (.hub .status) "ok", textDefault (.hub .detail) "", textDefault .clientIp ""]

/-- The names of a table's columns. -/
def names (t : Table) : List Column := (columns t).map ColumnDef.column

inductive Index
  | messagesTs | messagesSim | messagesPeer | messagesConversation
  | callsTs | callsSim
  | smsDeliveryMessageSegment | smsDeliveryMatch | smsDeliveryUnmatched
  | statusDeviceTs | statusTs
  | notifyTs | notifyOutboxEvent | notifyOutboxStatus | notifyDeliveriesTarget | notifyDeliveriesDue
  | taskLogsTs | agentLogsTs | auditEventsTs | incidentsStatusSeen | incidentsResolvedAt
  | notifyLogsTs | operationsStatus | operationsDevice
deriving DecidableEq

/-- The table of an index. -/
def Index.table : Index → Table
  | .messagesTs                => .hub .messages
  | .messagesSim               => .hub .messages
  | .messagesPeer              => .hub .messages
  | .messagesConversation      => .hub .messages
  | .callsTs                   => .hub .calls
  | .callsSim                  => .hub .calls
  | .smsDeliveryMessageSegment => .hub .smsDeliverySegments
  | .smsDeliveryMatch          => .hub .smsDeliverySegments
  | .smsDeliveryUnmatched      => .hub .smsDeliverySegments
  | .statusDeviceTs            => .hub .deviceStatus
  | .statusTs                  => .hub .deviceStatus
  | .notifyTs                  => .notifyLogs
  | .notifyOutboxEvent         => .hub .notifyOutbox
  | .notifyOutboxStatus        => .hub .notifyOutbox
  | .notifyDeliveriesTarget    => .notifyDeliveries
  | .notifyDeliveriesDue       => .notifyDeliveries
  | .taskLogsTs                => .hub .taskLogs
  | .agentLogsTs               => .hub .agentLogs
  | .auditEventsTs             => .auditEvents
  | .incidentsStatusSeen       => .hub .incidents
  | .incidentsResolvedAt       => .hub .incidents
  | .notifyLogsTs              => .notifyLogs
  | .operationsStatus          => .hub .commandOperations
  | .operationsDevice          => .hub .commandOperations

/-- The columns of an index, apart from the row id. -/
def Index.columns : Index → List Column
  | .messagesTs                => [.hub .ts]
  | .messagesSim               => [.hub .simId, .hub .ts]
  | .messagesPeer              => [.hub .peer, .hub .ts]
  | .messagesConversation      => [.hub .simId, .hub .peer, .hub .ts]
  | .callsTs                   => [.hub .ts]
  | .callsSim                  => [.hub .simId, .hub .ts]
  | .smsDeliveryMessageSegment => [.hub .messageId, .hub .segmentIndex]
  | .smsDeliveryMatch          =>
    [.hub .agentId, .hub .device, .hub .modemReference, .hub .submittedAt]
  | .smsDeliveryUnmatched      => [.hub .messageId, .hub .createdAt]
  | .statusDeviceTs            => [.hub .deviceId, .hub .ts]
  | .statusTs                  => [.hub .ts]
  | .notifyTs                  => [.hub .ts]
  | .notifyOutboxEvent         => [.hub .eventKey]
  | .notifyOutboxStatus        => [.hub .status]
  | .notifyDeliveriesTarget    => [.outboxId, .channelId, .ruleId]
  | .notifyDeliveriesDue       => [.hub .status, .nextAttemptAt]
  | .taskLogsTs                => [.hub .ts]
  | .agentLogsTs               => [.hub .ts]
  | .auditEventsTs             => [.hub .ts]
  | .incidentsStatusSeen       => [.hub .status, .hub .lastSeenAt]
  | .incidentsResolvedAt       => [.hub .resolvedAt]
  | .notifyLogsTs              => [.hub .ts]
  | .operationsStatus          => [.hub .status, .hub .createdAt]
  | .operationsDevice          => [.hub .deviceId, .hub .createdAt]

/-- The key of a unique index.  NULLs are distinct, but not the rule of a delivery:
    `IFNULL(rule_id, 0)`. -/
def Index.key : Index → Option ((Column → Option Cell) → List (Option Cell))
  | .smsDeliveryMessageSegment => some fun r => [r (.hub .messageId), r (.hub .segmentIndex)]
  | .notifyOutboxEvent         => some fun r => [r (.hub .eventKey)]
  | .notifyDeliveriesTarget    =>
    some fun r => [r .outboxId, r .channelId, some ((r .ruleId).getD (.integer 0))]
  | _                          => none

/-! ## Files -/

abbrev FileRow := Row Column Cell

/-- A table as a file has it: its columns, its rows in the order of their ids and the largest id it
    has used. -/
structure TableData where
  columns : List Column
  rows    : List FileRow
  seq     : Nat

/-- A database file. -/
structure File where
  version : Nat
  tables  : Table → Option TableData
  indexes : List Index

/-- A file that is not there yet. -/
def File.empty : File := ⟨0, fun _ => none, []⟩

/-- The file with another content of one table. -/
def File.setTable (f : File) (t : Table) (d : Option TableData) : File :=
  { f with tables := fun t' => if t' = t then d else f.tables t' }

/-- What `CREATE TABLE` makes. -/
def newTable (t : Table) : TableData := ⟨names t, [], 0⟩

/-- What a statement or a migration raised. -/
inductive Failure
  | noSuchTable (t : Table)
  | noSuchColumn (t : Table)
  | tableExists (t : Table)
  | duplicateColumn (t : Table) (c : Column)
  | notNullWithoutDefault (t : Table) (c : Column)
  | integrity
  | typeError
  | nested
  /-- A full disk, a lock, a process that dies. -/
  | outside
  | schemaTooNew
  | migrationFailed (reason : Failure)
deriving DecidableEq

/-- A statement. -/
abbrev Sql (α : Type) := File → Except Failure (α × File)

/-! ## Statements -/

/-- A statement on a table that has certain columns. -/
def onTable {α : Type} (t : Table) (needed : List Column)
    (f : TableData → Except Failure (α × TableData)) : Sql α := fun file =>
  match file.tables t with
  | none   => .error (.noSuchTable t)
  | some d =>
    if needed.all fun c => d.columns.contains c then
      (f d).map fun r => (r.1, file.setTable t (some r.2))
    else .error (.noSuchColumn t)

/-- `CREATE TABLE`. -/
def createTable (t : Table) : Sql Unit := fun file =>
  match file.tables t with
  | some _ => .error (.tableExists t)
  | none   => .ok ((), file.setTable t (some (newTable t)))

/-- `CREATE TABLE IF NOT EXISTS`. -/
def createTableIfNotExists (t : Table) : Sql Unit := fun file =>
  match file.tables t with
  | some _ => .ok ((), file)
  | none   => .ok ((), file.setTable t (some (newTable t)))

/-- Two rows with the same key of a unique index. -/
def collide (key : (Column → Option Cell) → List (Option Cell)) (a b : FileRow) : Bool :=
  (key a.cells).all Option.isSome && key a.cells == key b.cells

/-- No two rows have the same key. -/
def distinct (key : (Column → Option Cell) → List (Option Cell)) : List FileRow → Bool
  | []      => true
  | r :: rs => rs.all (fun r' => !collide key r r') && distinct key rs

/-- `CREATE [UNIQUE] INDEX IF NOT EXISTS`. -/
def createIndexIfNotExists (ix : Index) : Sql Unit := fun file =>
  if ix ∈ file.indexes then .ok ((), file)
  else
    match file.tables ix.table with
    | none   => .error (.noSuchTable ix.table)
    | some d =>
      if ix.columns.all fun c => d.columns.contains c then
        if ix.key.all fun key => distinct key d.rows then
          .ok ((), { file with indexes := file.indexes ++ [ix] })
        else .error .integrity
      else .error (.noSuchColumn ix.table)

/-- `PRAGMA table_info(t)`: nothing for a table that is not there. -/
def tableInfo (t : Table) : Sql (List Column) := fun file =>
  .ok (((file.tables t).map TableData.columns).getD [], file)

/-- The row with a new column. -/
def FileRow.withDefault (r : FileRow) (d : ColumnDef) : FileRow :=
  ⟨r.id, fun c => if c = d.column then d.default else r.cells c⟩

/-- `ALTER TABLE t ADD COLUMN d`. -/
def addColumn (t : Table) (d : ColumnDef) : Sql Unit :=
  onTable t [] fun data =>
    if data.columns.contains d.column then .error (.duplicateColumn t d.column)
    else if d.notNull && d.default.isNone then .error (.notNullWithoutDefault t d.column)
    else .ok ((), { data with
      columns := data.columns ++ [d.column]
      rows := data.rows.map fun r => FileRow.withDefault r d })

/-- `DROP TABLE t`, with the indexes on it. -/
def dropTable (t : Table) : Sql Unit := fun file =>
  match file.tables t with
  | none   => .error (.noSuchTable t)
  | some _ => .ok ((), { file.setTable t none with
      indexes := file.indexes.filter fun ix => decide (ix.table ≠ t) })

/-- `ALTER TABLE t RENAME TO t'`. -/
def renameTable (t t' : Table) : Sql Unit := fun file =>
  match file.tables t, file.tables t' with
  | none, _        => .error (.noSuchTable t)
  | some _, some _ => .error (.tableExists t')
  | some d, none   => .ok ((), (file.setTable t none).setTable t' (some d))

/-- `SELECT … FROM t WHERE p ORDER BY id`. -/
def select (t : Table) (needed : List Column) (p : FileRow → Bool) : Sql (List FileRow) :=
  onTable t needed fun d => .ok (d.rows.filter p, d)

/-- `UPDATE t SET … WHERE p`. -/
def update (t : Table) (needed : List Column) (p : FileRow → Bool)
    (set : FileRow → Assignments Column Cell) : Sql Unit :=
  onTable t needed fun d => .ok ((), { d with
    rows := d.rows.map fun r => if p r then ⟨r.id, assign (set r) r.cells⟩ else r })

/-- `PRAGMA user_version`. -/
def userVersion : Sql Nat := fun file => .ok (file.version, file)

/-- `PRAGMA user_version = v`. -/
def setUserVersion (v : Nat) : Sql Unit := fun file => .ok ((), { file with version := v })

/-! ## `SCHEMA` -/

/-- A statement of `SCHEMA`. -/
inductive Create
  | table (t : Table)
  | index (ix : Index)

/-- `IF NOT EXISTS`, both of them. -/
def Create.exec : Create → Sql Unit
  | .table t  => createTableIfNotExists t
  | .index ix => createIndexIfNotExists ix

/-- `OPERATION_SCHEMA`. -/
def OPERATION_SCHEMA : List Create :=
  [.table (.hub .commandOperations), .index .operationsStatus, .index .operationsDevice]

/-- `SCHEMA`, after its pragmas. -/
def SCHEMA : List Create :=
  [.table (.hub .agents), .table .ingested, .table (.hub .sims), .table (.hub .devices),
   .table (.hub .messages), .index .messagesTs, .index .messagesSim, .index .messagesPeer,
   .index .messagesConversation, .table (.hub .calls), .index .callsTs, .index .callsSim,
   .table (.hub .smsDeliverySegments), .index .smsDeliveryMessageSegment, .index .smsDeliveryMatch,
   .index .smsDeliveryUnmatched, .table (.hub .deviceStatus), .index .statusDeviceTs,
   .index .statusTs, .table .channels, .table .rules, .table .notifyLogs, .index .notifyTs,
   .table (.hub .notifyOutbox), .index .notifyOutboxEvent, .index .notifyOutboxStatus,
   .table .notifyDeliveries, .index .notifyDeliveriesTarget, .index .notifyDeliveriesDue,
   .table (.hub .tasks), .table (.hub .taskLogs), .index .taskLogsTs, .table (.hub .agentLogs),
   .index .agentLogsTs, .table .sessions, .table .settings, .table .auditEvents,
   .index .auditEventsTs, .table (.hub .incidents), .index .incidentsStatusSeen,
   .index .incidentsResolvedAt, .index .agentLogsTs, .index .taskLogsTs, .index .notifyLogsTs] ++
  OPERATION_SCHEMA

end Air780eHub.Migrations
