/-
  The Server's database, as `SCHEMA` declares it.

  The tables that ingesting an event reads or writes, with every column, its NOT NULL constraint
  and its default, the unique keys, the foreign keys and the one CHECK.  Row ids stand for
  `id INTEGER PRIMARY KEY AUTOINCREMENT`; `agents` and `command_operations` have a text key of
  their own.  Foreign keys are enforced (`PRAGMA foreign_keys = ON`).

  An integer here is unbounded, and a column holds whatever is stored in it: a value of another
  storage class than the column's is kept, as SQLite keeps what it cannot convert.
-/
import Air780eHub.Lib.Constraints
import Air780eHub.Schedule.Numbers

namespace Air780eHub.Server

open Relational

/-! ## Tables and columns -/

inductive Table
  | agents | sims | devices | messages | calls | smsDeliverySegments | deviceStatus | notifyOutbox
  | tasks | taskLogs | agentLogs | incidents | commandOperations
deriving DecidableEq

inductive Column
  | id | version | protocolVersion | lastSeenAt | connected | lastSeq | streamId | tasksRevision
  | tasksAppliedRevision | tasksSyncId | tasksSyncStatus | tasksSyncError | tasksSyncSentAt
  | tasksSyncedAt
  | iccid | label | phoneNumber | billingType | planName | balance | lowBalanceThreshold | currency
  | balanceUpdatedAt | expiresAt | activityDueAt | operator | smsc | note | firstSeenAt
  | agentId | name | port | simId | online | registered | radioEnabled | epsRegistered
  | csRegistered | imsRegistered | dataEnabled | dataAttached | pdpActive | roaming
  | roamingDataAllowed | dataBlockedByRoaming | model | hardwareModel | firmware | imei | rssi | dbm
  | bars | rsrp | rsrq | storageUsed | storageCap | voltageMv | lowVoltageMv
  | device | direction | peer | body | ts | status | segments | seq | error | readAt | rawPdu | dcs
  | isBinary | truncated | recoveredBody | recoveredCode | createdAt
  | outcome | reachedNetwork | ringSeconds | detail
  | messageId | segmentIndex | modemReference | recipient | recipientKey | submittedAt | statusCode
  | serviceCenterTs | dischargeTs | reportedAt | eventSeq
  | deviceId | kind | refId | eventKey | frame | title | expandedAt
  | enabled | action | targetNumber | content | scheduleType | scheduleExpr | jitterSeconds
  | randomSuffix | retryMax | notifyOnResult | lastRunAt | nextRunAt
  | taskId | runId | attempts | level | message
  | fingerprint | severity | source | occurrences | acknowledgedAt | resolvedAt
  | actor | commandType | requestHash | idempotencyKey | deadline | connectionId | resultToken
  | expectedImei | expectedIccid | result | updatedAt
deriving DecidableEq

/-- A stored value that is not NULL. -/
inductive Cell
  | integer (n : Int)
  | real (x : Schedule.PyFloat)
  | text (s : String)
deriving DecidableEq

/-- The declaration of a column. -/
structure ColumnDef where
  column  : Column
  notNull : Bool
  default : Option Cell

/-- A column without constraint or default. -/
def nullable (c : Column) : ColumnDef := ⟨c, false, none⟩

/-- `NOT NULL`. -/
def required (c : Column) : ColumnDef := ⟨c, true, none⟩

/-- `TEXT NOT NULL DEFAULT s`. -/
def textDefault (c : Column) (s : String) : ColumnDef := ⟨c, true, some (.text s)⟩

/-- `INTEGER NOT NULL DEFAULT n`. -/
def intDefault (c : Column) (n : Int) : ColumnDef := ⟨c, true, some (.integer n)⟩

/-- The `CREATE TABLE` statements. -/
def columns : Table → List ColumnDef
  | .agents =>
    [nullable .id, textDefault .version "", intDefault .protocolVersion 0, nullable .lastSeenAt,
     intDefault .connected 0, intDefault .lastSeq 0, textDefault .streamId "",
     textDefault .tasksRevision "", textDefault .tasksAppliedRevision "",
     textDefault .tasksSyncId "", textDefault .tasksSyncStatus "pending",
     textDefault .tasksSyncError "", nullable .tasksSyncSentAt, nullable .tasksSyncedAt]
  | .sims =>
    [required .iccid, textDefault .label "", textDefault .phoneNumber "",
     textDefault .billingType "unknown", textDefault .planName "", nullable .balance,
     nullable .lowBalanceThreshold, textDefault .currency "", nullable .balanceUpdatedAt,
     nullable .expiresAt, nullable .activityDueAt, textDefault .operator "", textDefault .smsc "",
     textDefault .note "", required .firstSeenAt, required .lastSeenAt]
  | .devices =>
    [required .agentId, required .name, textDefault .label "", textDefault .port "",
     nullable .simId, intDefault .online 0, intDefault .registered 0, nullable .radioEnabled,
     nullable .epsRegistered, nullable .csRegistered, nullable .imsRegistered,
     intDefault .dataEnabled 0, nullable .dataAttached, nullable .pdpActive, nullable .roaming,
     intDefault .roamingDataAllowed 0, intDefault .dataBlockedByRoaming 0, textDefault .model "",
     textDefault .hardwareModel "", textDefault .firmware "", textDefault .imei "",
     textDefault .operator "", nullable .rssi, nullable .dbm, intDefault .bars 0, nullable .rsrp,
     nullable .rsrq, intDefault .storageUsed 0, intDefault .storageCap 0, nullable .voltageMv,
     nullable .lowVoltageMv, nullable .lastSeenAt]
  | .messages =>
    [required .agentId, required .device, nullable .simId, required .direction, required .peer,
     required .body, required .ts, textDefault .status "received", intDefault .segments 1,
     nullable .seq, nullable .error, nullable .readAt, nullable .rawPdu, nullable .dcs,
     intDefault .isBinary 0, intDefault .truncated 0, nullable .recoveredBody,
     nullable .recoveredCode, required .createdAt]
  | .calls =>
    [required .agentId, required .device, nullable .simId, required .direction,
     textDefault .peer "", required .ts, textDefault .outcome "", intDefault .reachedNetwork 0,
     ⟨.ringSeconds, true, some (.real (.finite 0))⟩, textDefault .detail "", nullable .seq,
     required .createdAt]
  | .smsDeliverySegments =>
    [nullable .messageId, required .agentId, required .device, nullable .segmentIndex,
     required .modemReference, textDefault .recipient "", textDefault .recipientKey "",
     nullable .submittedAt, textDefault .status "pending", nullable .statusCode,
     nullable .serviceCenterTs, nullable .dischargeTs, nullable .reportedAt, nullable .rawPdu,
     nullable .eventSeq, required .createdAt]
  | .deviceStatus =>
    [required .deviceId, required .ts, intDefault .online 0, intDefault .registered 0,
     nullable .rssi, nullable .dbm, nullable .bars, nullable .rsrp, nullable .rsrq,
     nullable .storageUsed, nullable .storageCap, nullable .voltageMv]
  | .notifyOutbox =>
    [required .kind, nullable .refId, nullable .eventKey, textDefault .frame "\x7b\x7d",
     textDefault .title "", textDefault .body "", textDefault .status "pending",
     required .createdAt, nullable .expandedAt]
  | .tasks =>
    [textDefault .name "", nullable .simId, textDefault .device "", textDefault .agentId "",
     nullable .deviceId, intDefault .enabled 1, textDefault .action "send_sms",
     textDefault .targetNumber "10086", textDefault .content "1",
     textDefault .scheduleType "interval", textDefault .scheduleExpr "25",
     intDefault .jitterSeconds 1800, intDefault .randomSuffix 1, intDefault .retryMax 3,
     intDefault .notifyOnResult 1, nullable .lastRunAt, nullable .nextRunAt, required .createdAt]
  | .taskLogs =>
    [nullable .taskId, nullable .runId, required .ts, required .status, intDefault .attempts 1,
     textDefault .detail "", nullable .error]
  | .agentLogs =>
    [required .agentId, textDefault .device "", textDefault .level "info", required .message,
     required .ts]
  | .incidents =>
    [required .fingerprint, required .kind, textDefault .severity "warning",
     textDefault .source "", required .title, textDefault .detail "",
     textDefault .status "active", intDefault .occurrences 1, required .firstSeenAt,
     required .lastSeenAt, nullable .acknowledgedAt, nullable .resolvedAt]
  | .commandOperations =>
    [nullable .id, required .actor, required .deviceId, required .agentId, required .device,
     required .commandType, required .requestHash, required .idempotencyKey, required .frame,
     textDefault .status "queued", required .deadline, required .streamId, required .connectionId,
     required .resultToken, textDefault .expectedImei "", textDefault .expectedIccid "",
     nullable .result, nullable .error, required .createdAt, required .updatedAt]

/-- The statuses the CHECK of `command_operations` admits. -/
def OPERATION_STATUSES : List String :=
  ["queued", "running", "succeeded", "failed", "unknown", "cancelled"]

/-- PRIMARY KEY, UNIQUE and the unique indexes.  The index on `event_key` leaves NULLs out, which
    are distinct anyway. -/
def uniqueKeys : Table → List (List Column)
  | .agents              => [[.id]]
  | .sims                => [[.iccid]]
  | .devices             => [[.agentId, .name]]
  | .smsDeliverySegments => [[.messageId, .segmentIndex]]
  | .notifyOutbox        => [[.eventKey]]
  | .incidents           => [[.fingerprint]]
  | .commandOperations   => [[.id], [.actor, .deviceId, .idempotencyKey]]
  | _                    => []

/-- REFERENCES … ON DELETE …. -/
def foreignKeys : Table → List (ForeignKey Table Column)
  | .devices             => [⟨.simId, .sims, .setNull⟩]
  | .messages            => [⟨.simId, .sims, .setNull⟩]
  | .calls               => [⟨.simId, .sims, .setNull⟩]
  | .smsDeliverySegments => [⟨.messageId, .messages, .cascade⟩]
  | .deviceStatus        => [⟨.deviceId, .devices, .cascade⟩]
  | .tasks               => [⟨.simId, .sims, .cascade⟩, ⟨.deviceId, .devices, .setNull⟩]
  | .taskLogs            => [⟨.taskId, .tasks, .cascade⟩]
  | _                    => []

/-- `SCHEMA`. -/
def SCHEMA : Schema Table Column Cell where
  tables   := [.agents, .sims, .devices, .messages, .calls, .smsDeliverySegments, .deviceStatus,
    .notifyOutbox, .tasks, .taskLogs, .agentLogs, .incidents, .commandOperations]
  complete := by intro t; cases t <;> decide
  defaults := fun t c => ((columns t).find? fun d => d.column = c).bind ColumnDef.default
  notNull  := fun t => ((columns t).filter ColumnDef.notNull).map ColumnDef.column
  check    := fun t cells => match t with
    | .commandOperations => OPERATION_STATUSES.any fun s => cells .status == some (.text s)
    | _                  => true
  unique   := uniqueKeys
  foreign  := foreignKeys
  ref      := fun i => .integer i

/-- The Server's database. -/
abbrev HubDb := Db Table Column Cell

/-- A row of it. -/
abbrev HubRow := Row Column Cell

end Air780eHub.Server
