/-
  The events an Agent appends: every payload its own code builds.

  One constructor for each place that calls `emit` or `append_event`, with the data that place puts
  in, typed as the Agent's own classes type it.  `AgentEvent.payload` is the dictionary it builds
  and `AgentEvent.kind` the kind it is queued under.

  1. **What the Agent knows**: decoded messages, reports, the state of a module, call results.
  2. **`AgentEvent`** and its payload.
-/
import Air780eHub.Agent.CommandStore
import Air780eHub.Agent.Commands
import Air780eHub.Schedule.Numbers

namespace Air780eHub

/-! ## What the Agent knows -/

/-- A float that is a number, by its printed text. -/
structure FiniteFloat where
  text   : String
  finite : ∃ q, Schedule.pyFloat text.toList = some (.finite q)

/-- `0.0`. -/
def FiniteFloat.zero : FiniteFloat := ⟨"0.0", 0, by decide +kernel⟩

/-- A value or `None`. -/
def optionValue {α : Type} (f : α → Value) : Option α → Value
  | none   => .null
  | some a => f a

/-- What an inbound message carries out of the decoder. -/
structure DecodedSms where
  address       : String
  text          : String
  /-- `timestamp.isoformat()`. -/
  timestamp     : Option String
  concatTotal   : Option Nat
  raw           : String
  dcs           : Nat
  alphabet      : String
  isBinary      : Bool
  truncated     : Bool
  recoveredText : String
  code          : String

/-- `StatusReport`. -/
structure StatusReport where
  messageReference       : Nat
  recipient              : String
  serviceCenterTimestamp : Option String
  dischargeTime          : Option String
  status                 : Nat
  raw                    : String

/-- `StatusReport.state`. -/
def StatusReport.state (r : StatusReport) : String :=
  if r.status ≤ 0x1f then "delivered"
  else if r.status ≤ 0x3f then "pending"
  else if r.status ≤ 0x7f then "failed"
  else "pending"

/-- `CallResult`. -/
structure CallResult where
  outcome        : String
  reachedNetwork : Bool
  ringSeconds    : FiniteFloat
  detail         : String

/-- `DeviceState`, with the signal it holds. -/
structure DeviceState where
  online               : Bool
  registered           : Bool
  radioEnabled         : Option Bool
  operator             : String
  iccid                : String
  imei                 : String
  model                : String
  hardwareModel        : String
  firmware             : String
  smsc                 : String
  epsRegistered        : Option Bool
  csRegistered         : Option Bool
  imsRegistered        : Option Bool
  dataEnabled          : Bool
  dataAttached         : Option Bool
  pdpActive            : Option Bool
  roaming              : Option Bool
  roamingDataAllowed   : Bool
  dataBlockedByRoaming : Bool
  rssi                 : Option Int
  dbm                  : Option Int
  bars                 : Nat
  rsrp                 : Option Int
  rsrq                 : Option Int
  storageUsed          : Nat
  storageCapacity      : Nat
  voltageMv            : Option Int

/-- `DeviceState.describe`. -/
def DeviceState.describe (s : DeviceState) : Frame :=
  [("online", .bool s.online), ("registered", .bool s.registered),
   ("radio_enabled", optionValue .bool s.radioEnabled), ("operator", .str s.operator),
   ("iccid", .str s.iccid), ("imei", .str s.imei), ("model", .str s.model),
   ("hardware_model", .str s.hardwareModel), ("firmware", .str s.firmware),
   ("smsc", .str s.smsc), ("eps_registered", optionValue .bool s.epsRegistered),
   ("cs_registered", optionValue .bool s.csRegistered),
   ("ims_registered", optionValue .bool s.imsRegistered), ("data_enabled", .bool s.dataEnabled),
   ("data_attached", optionValue .bool s.dataAttached),
   ("pdp_active", optionValue .bool s.pdpActive), ("roaming", optionValue .bool s.roaming),
   ("roaming_data_allowed", .bool s.roamingDataAllowed),
   ("data_blocked_by_roaming", .bool s.dataBlockedByRoaming),
   ("rssi", optionValue .int s.rssi), ("dbm", optionValue .int s.dbm), ("bars", .int s.bars),
   ("rsrp", optionValue .int s.rsrp), ("rsrq", optionValue .int s.rsrq),
   ("storage_used", .int s.storageUsed), ("storage_capacity", .int s.storageCapacity),
   ("voltage_mv", optionValue .int s.voltageMv)]

/-- How an execution of a task ended, as its receipt says. -/
inductive ReceiptStatus
  | ok | failed | skipped | unknown
deriving DecidableEq

def ReceiptStatus.text : ReceiptStatus → String
  | .ok      => "ok"
  | .failed  => "failed"
  | .skipped => "skipped"
  | .unknown => "unknown"

/-- The receipt of a task execution (`_report`). -/
structure Receipt where
  runId    : Option String
  taskId   : Int
  device   : Option String
  ts       : String
  status   : ReceiptStatus
  attempts : Nat
  detail   : String
  error    : Option String
  nextAt   : Option String
  notify   : Bool

/-- Why a task table was refused. -/
inductive SyncError
  | invalidTasks | revisionMismatch | applyFailed
deriving DecidableEq

def SyncError.text : SyncError → String
  | .invalidTasks     => "invalid_tasks"
  | .revisionMismatch => "revision_mismatch"
  | .applyFailed      => "apply_failed"

/-! ## Events -/

/-- An event the Agent's own code appends. -/
inductive AgentEvent
  /-- `_on_sms`. -/
  | smsIn (device iccid : String) (sms : DecodedSms) (now : String)
  /-- `send_sms` that raised. -/
  | smsFailed (device iccid number body ts : String) (cmdId : Value) (error : String)
  /-- `send_sms` that returned its references. -/
  | smsSent (device iccid number body ts : String) (refs : List Nat) (cmdId : Value)
  /-- `_on_delivery`. -/
  | smsDelivery (device iccid : String) (report : StatusReport) (now : String)
  /-- `_emit_status`. -/
  | status (device ts port : String) (lowVoltageMv : Int) (state : DeviceState)
  /-- `_on_incoming_call`. -/
  | callIn (device iccid number ts : String)
  /-- `call_keepalive`. -/
  | callOut (device iccid number ts : String) (result : CallResult)
  /-- `_log_event` without further fields. -/
  | log (device level message ts : String)
  /-- `_log_event` of the automatic recovery. -/
  | recovery (device level message ts action outcome reason : String) (attempt : Int)
  /-- `_adopt`: a module found by the survey. -/
  | adopted (device message imei iccid : String)
  /-- `_report`. -/
  | taskResult (receipt : Receipt)
  /-- `finish_command`. -/
  | cmdResult (frame : Frame) (status : RunStatus) (data error : Value)
  /-- `_cmd_result`. -/
  | plainResult (cmdId : Value) (ok : Bool) (data error : Value)
  /-- `replace_tasks`. -/
  | tasksApplied (syncId revision : String) (count : Nat)
  /-- `_cmd_sync_tasks` that raised. -/
  | tasksRefused (syncId revision : String) (error : SyncError)

/-- The `DETAIL_LIMIT` of a receipt. -/
def RECEIPT_DETAIL_LIMIT : Nat := 200

namespace AgentEvent

/-- The kind an event is queued under. -/
def kind : AgentEvent → String
  | smsIn ..        => "sms_in"
  | smsFailed ..    => "sms_out"
  | smsSent ..      => "sms_out"
  | smsDelivery ..  => "sms_delivery"
  | status ..       => "status"
  | callIn ..       => "call_event"
  | callOut ..      => "call_event"
  | log ..          => "log"
  | recovery ..     => "log"
  | adopted ..      => "log"
  | taskResult ..   => "task_result"
  | cmdResult ..    => "cmd_result"
  | plainResult ..  => "cmd_result"
  | tasksApplied .. => "tasks_applied"
  | tasksRefused .. => "tasks_applied"

/-- The dictionary an event is built as. -/
def fields : AgentEvent → Frame
  | smsIn device iccid sms now =>
    [("device", .str device), ("iccid", .str iccid), ("peer", .str sms.address),
     ("body", .str sms.text), ("ts", .str (sms.timestamp.getD now)),
     ("ts_source", .str (if sms.timestamp.isSome then "scts" else "local")),
     ("segments", .int (sms.concatTotal.getD 1)), ("pdu", .str sms.raw), ("dcs", .int sms.dcs),
     ("alphabet", .str sms.alphabet), ("binary", .bool sms.isBinary),
     ("truncated", .bool sms.truncated), ("recovered_text", .str sms.recoveredText),
     ("code", .str sms.code)]
  | smsFailed device iccid number body ts cmdId error =>
    [("device", .str device), ("iccid", .str iccid), ("peer", .str number), ("body", .str body),
     ("ts", .str ts), ("status", .str "failed"), ("refs", .arr []),
     ("cmd_id", cmdId), ("error", .str error)]
  | smsSent device iccid number body ts refs cmdId =>
    [("device", .str device), ("iccid", .str iccid), ("peer", .str number), ("body", .str body),
     ("ts", .str ts), ("status", .str "sent"), ("refs", .arr (refs.map fun n => .int n)),
     ("cmd_id", cmdId), ("error", .null)]
  | smsDelivery device iccid report now =>
    [("device", .str device), ("iccid", .str iccid), ("reference", .int report.messageReference),
     ("peer", .str report.recipient), ("status", .str report.state),
     ("status_code", .int report.status),
     ("service_center_ts", optionValue .str report.serviceCenterTimestamp),
     ("discharge_ts", optionValue .str report.dischargeTime), ("ts", .str now),
     ("pdu", .str report.raw)]
  | status device ts port lowVoltageMv state =>
    [("device", .str device), ("ts", .str ts), ("port", .str port),
     ("low_voltage_mv", .int lowVoltageMv)] ++ state.describe
  | callIn device iccid number ts =>
    [("device", .str device), ("iccid", .str iccid), ("direction", .str "in"),
     ("peer", .str number), ("ts", .str ts), ("outcome", .str "missed"),
     ("reached_network", .bool true), ("ring_seconds", .float FiniteFloat.zero.text),
     ("detail", .str "")]
  | callOut device iccid number ts result =>
    [("device", .str device), ("iccid", .str iccid), ("direction", .str "out"),
     ("peer", .str number), ("ts", .str ts), ("outcome", .str result.outcome),
     ("reached_network", .bool result.reachedNetwork),
     ("ring_seconds", .float result.ringSeconds.text), ("detail", .str result.detail)]
  | log device level message ts =>
    [("device", .str device), ("level", .str level), ("message", .str message), ("ts", .str ts)]
  | recovery device level message ts action outcome reason attempt =>
    [("device", .str device), ("level", .str level), ("message", .str message), ("ts", .str ts),
     ("event", .str "device_recovery"), ("action", .str action), ("outcome", .str outcome),
     ("reason", .str reason), ("attempt", .int attempt)]
  | adopted device message imei iccid =>
    [("level", .str "info"), ("device", .str device), ("message", .str message),
     ("event", .str "device_adopted"), ("imei", .str imei), ("iccid", .str iccid)]
  | taskResult r =>
    [("run_id", optionValue .str r.runId), ("task_id", .int r.taskId),
     ("device", optionValue .str r.device), ("ts", .str r.ts), ("status", .str r.status.text),
     ("attempts", .int r.attempts), ("detail", .str (pyTake RECEIPT_DETAIL_LIMIT r.detail)),
     ("error", optionValue .str r.error), ("next_run_at", optionValue .str r.nextAt),
     ("notify", .bool r.notify)]
  | cmdResult frame outcome data error => (resultPayload frame outcome data error).fields
  | plainResult cmdId ok data error => (Commands.plainPayload cmdId ok data error).fields
  | tasksApplied syncId revision count =>
    [("sync_id", .str syncId), ("revision", .str revision), ("ok", .bool true),
     ("count", .int count)]
  | tasksRefused syncId revision error =>
    [("sync_id", .str syncId), ("revision", .str revision), ("ok", .bool false),
     ("error", .str error.text)]

/-- What `append_event` is given. -/
def payload (e : AgentEvent) : Payload where
  fields     := e.fields
  noReserved := by
    cases e <;> simp [fields, DeviceState.describe, resultPayload, Commands.plainPayload]

/-- The frame the Agent sends for it. -/
def frame (e : AgentEvent) (seq : Nat) : Frame := Event.toFrame ⟨seq, e.kind, e.payload⟩

/-- The task a receipt is about. -/
def task : AgentEvent → Option Int
  | taskResult r => some r.taskId
  | _            => none

end AgentEvent

end Air780eHub
