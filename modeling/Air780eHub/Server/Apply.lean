/-
  What the gateway does with an event inside its transaction: `Gateway._apply` and the callbacks it
  chooses from (`gateway.py`).

  A frame is whatever JSON object arrived, so every field is read as the decoded value it is and
  converted the way the source converts it.

  1. **SMS**: `applySmsIn`, `applySmsOut`, `applySmsDelivery`.
  2. **Modules**: `applyStatus` with the supply voltage, `applyCallEvent`.
  3. **Logs**, with the recovery incidents.
  4. **Tasks**: `applyTaskResult`, `applyTasksApplied`.
  5. **`apply`**: the choice by kind, and the notification it owes.
-/
import Air780eHub.Lib.Hex
import Air780eHub.Server.Segments

namespace Air780eHub.Server

open Relational

variable (E : Env)

/-- A conversion inside the transaction. -/
def convert {α : Type} (x : Except Failure α) : Hub α := fun db => x.map fun a => (a, db)

/-- `str(value or default)`. -/
def textOr (v : Value) (default : String) : String := pyStr E.repr (pyOr v (.str default))

/-! ## Inbound SMS -/

/-- The information elements of a user data header address an application port, or cannot be
    read. -/
def portAddressed : List Nat → Bool
  | []                     => false
  | [_]                    => true
  | element :: len :: rest =>
    if rest.length < len then true
    else if element = 4 ∨ element = 5 then true
    else portAddressed (rest.drop len)
termination_by header => header.length
decreasing_by simp only [List.length_drop, List.length_cons]; omega

/-- The user data after the service-centre number and the header of an SMS-DELIVER. -/
def deliverIsData (first : Nat) (fields : List Nat) : Bool :=
  let pid := fields.getD 0 0
  let dcs := fields.getD 1 0
  let udl := fields.getD 9 0
  let body := fields.drop 10
  let uses8bit :=
    if dcs &&& 0xc0 = 0 then dcs >>> 2 &&& 3 == 1
    else if dcs &&& 0xf0 = 0xf0 then dcs &&& 4 != 0
    else false
  if uses8bit || (udl == 0 && decide (0xc0 ≤ pid)) then true
  else if first &&& 0x40 = 0 then false
  else match body with
    | []     => true
    | n :: _ => if body.length < n + 1 then true else portAddressed ((body.take (n + 1)).drop 1)

/-- `_pdu_is_data`. -/
def pduIsData (raw : String) : Bool :=
  match fromHex (raw.toList.filter fun c => !pyIsSpace c) with
  | none      => false
  | some data =>
    let tpdu := 1 + data.getD 0 0
    if data.isEmpty || decide (data.length ≤ tpdu) then false
    else
      let first := data.getD tpdu 0
      if first &&& 3 ≠ 0 then false
      else if data.length < tpdu + 3 then false
      else
        let pos := tpdu + 3 + (data.getD (tpdu + 1) 0 + 1) / 2
        if data.length < pos + 10 then false else deliverIsData first (data.drop pos)

/-- `bool(raw_pdu and _pdu_is_data(raw_pdu))`. -/
def rawIsData (raw : Value) : Except Failure Bool :=
  if raw.truthy then
    match raw with
    | .str s => .ok (pduIsData s)
    | _      => .error .typeError
  else .ok false

/-- `_apply_sms_in`. -/
def applySmsIn (agentId : String) (frame : Frame) : Hub Nat := do
  let segments ← convert (toInt (pyOr (frame.get "segments") (.int 1)))
  let dcs ← optionalInt (frame.get "dcs")
  let isData ← convert (if (frame.get "binary").truthy then .ok true else rawIsData (frame.get "pdu"))
  insertMessage E {
    agentId := agentId
    device := frame.getD "device" (.str "")
    direction := "in"
    peer := frame.getD "peer" (.str "")
    body := frame.getD "body" (.str "")
    ts := pyOr (frame.get "ts") (.str E.utcnow)
    iccid := pyOr (frame.getD "iccid" (.str "")) (.str "")
    segments := segments
    seq := frame.get "seq"
    rawPdu := pyOr (frame.get "pdu") .null
    dcs := dcs
    isBinary := isData
    truncated := (frame.get "truncated").truthy
    recoveredBody := pyOr (frame.get "recovered_text") .null
    recoveredCode := pyOr (frame.get "code") .null }

/-! ## Outbound SMS -/

/-- What a `for` loop goes through. -/
def items : Value → Except Failure (List Value)
  | .arr xs => .ok xs
  | .str s  => .ok (s.toList.map fun c => .str (String.singleton c))
  | .obj fs => .ok (fs.map fun f => .str f.1)
  | _       => .error .typeError

/-- The references that are numbers. -/
def collectReferences : List Value → Hub (List Int)
  | []      => pure []
  | x :: xs => do
    let value ← optionalInt x
    let rest ← collectReferences xs
    pure (value.toList ++ rest)

/-- The incident of failed sends, one for each module. -/
def sendFingerprint (agentId : String) (frame : Frame) : String :=
  "sms-send:" ++ agentId ++ ":" ++ pyStr E.repr (frame.getD "device" (.str ""))

/-- `f"{agent_id}/{frame.get('device', '')}"`. -/
def deviceSource (agentId : String) (frame : Frame) : String :=
  agentId ++ "/" ++ pyStr E.repr (frame.getD "device" (.str ""))

/-- The incident an outbound message opens or resolves. -/
def noteSend (agentId : String) (frame : Frame) (status : String) : Hub Unit :=
  if status = "failed" then
    openIncident E (sendFingerprint E agentId frame) "sms_send_failed" "warning"
      (deviceSource E agentId frame) "短信发送失败"
      (textOr E (frame.get "error") "运营商或模块未返回成功状态")
  else if status = "sent" ∨ status = "delivered" then
    resolveIncident E (sendFingerprint E agentId frame) "短信发送已恢复"
  else pure ()

/-- The segments of a message that was sent with references. -/
def attachReferences (agentId : String) (frame : Frame) (messageId : Nat) (references : List Int) :
    Hub Unit :=
  if references.isEmpty then pure ()
  else
    attachSmsSegments E messageId agentId (textOr E (frame.get "device") "")
      (textOr E (frame.get "peer") "") references (textOr E (frame.get "ts") E.utcnow)

/-- `_apply_sms_out`. -/
def applySmsOut (agentId : String) (frame : Frame) : Hub Unit := do
  let raw ← convert (items (pyOr (frame.get "refs") (.arr [])))
  let references ← collectReferences raw
  let frameStatus := textOr E (frame.get "status") "sent"
  let messageId ← insertMessage E {
    agentId := agentId
    device := frame.getD "device" (.str "")
    direction := "out"
    peer := frame.getD "peer" (.str "")
    body := frame.getD "body" (.str "")
    ts := pyOr (frame.get "ts") (.str E.utcnow)
    iccid := pyOr (frame.getD "iccid" (.str "")) (.str "")
    status := if frameStatus = "sent" ∧ !references.isEmpty then "pending" else frameStatus
    segments := if references.isEmpty then 1 else references.length
    seq := frame.get "seq"
    error := frame.get "error" }
  attachReferences E agentId frame messageId references
  noteSend E agentId frame frameStatus

/-! ## Delivery reports -/

/-- `_apply_sms_delivery`. -/
def applySmsDelivery (agentId : String) (frame : Frame) : Hub Unit := do
  let reference ← optionalInt (frame.get "reference")
  match reference with
  | none => pure ()
  | some reference =>
    if 0 ≤ reference ∧ reference ≤ 255 then do
      let code ← optionalInt (frame.get "status_code")
      let seq ← optionalInt (frame.get "seq")
      recordSmsDelivery E {
        agentId := agentId
        device := textOr E (frame.get "device") ""
        reference := reference
        recipient := textOr E (frame.get "peer") ""
        statusCode := code.filter fun c => decide (0 ≤ c) && decide (c ≤ 255)
        status := textOr E (frame.get "status") "pending"
        serviceCenterTs := frame.get "service_center_ts"
        dischargeTs := frame.get "discharge_ts"
        reportedAt := textOr E (frame.get "ts") E.utcnow
        rawPdu := pyOr (frame.get "pdu") .null
        eventSeq := seq }
    else pure ()

/-! ## Status -/

/-- Below this the module itself can brown out. -/
def VOLTAGE_CRITICAL_MV : Int := 3300

/-- `frame.get("online") is False`. -/
def offline (frame : Frame) : Bool := decide (frame.get "online" = .bool false)

/-- `_apply_supply_voltage`, with the reading and its threshold. -/
def noteVoltage (agentId : String) (frame : Frame) (voltage threshold : Int) : Hub Unit :=
  let device := textOr E (frame.get "device") ""
  let fingerprint := "supply-voltage:" ++ agentId ++ ":" ++ device
  if offline frame then resolveIncident E fingerprint "模块已离线，供电状态由掉线事件跟踪"
  else if threshold ≤ voltage then
    resolveIncident E fingerprint ("供电已恢复至 " ++ toString voltage ++ " mV")
  else
    let critical := decide (voltage < VOLTAGE_CRITICAL_MV)
    openIncident E fingerprint "device_supply_voltage" (if critical then "critical" else "warning")
      (agentId ++ "/" ++ device) (if critical then "模块供电电压过低" else "模块供电电压偏低")
      ("当前 " ++ toString voltage ++ " mV，低于阈值 " ++ toString threshold ++ " mV" ++
        if critical then
          "；已低于模块标称下限，发送时可能掉电重启，" ++ "表现为随机掉网。请检查供电与线材。"
        else "。USB 线材或供电可能供流不足，建议更换。")

/-- `_apply_supply_voltage`. -/
def applySupplyVoltage (agentId : String) (frame : Frame) : Hub Unit := do
  let voltage ← optionalInt (frame.get "voltage_mv")
  let threshold ← optionalInt (frame.get "low_voltage_mv")
  match voltage, threshold with
  | some voltage, some threshold =>
    if threshold = 0 then pure () else noteVoltage E agentId frame voltage threshold
  | _, _ => pure ()

/-- The registration incident of a status frame. -/
def noteRegistration (agentId : String) (frame : Frame) : Hub Unit :=
  let fingerprint :=
    "network-registration:" ++ agentId ++ ":" ++ pyStr E.repr (frame.getD "device" (.str ""))
  if frame.has "registered" || offline frame then
    if offline frame then do
      resolveIncident E fingerprint "模块已离线，注册状态由掉线事件跟踪"
      resolveIncident E (sendFingerprint E agentId frame) "模块已离线，发送状态由掉线事件跟踪"
    else if frame.get "radio_enabled" = .bool false then
      resolveIncident E fingerprint "射频已由管理员关闭"
    else if !(frame.get "registered").truthy then
      openIncident E fingerprint "network_unregistered" "warning" (deviceSource E agentId frame)
        "模块未注册到移动网络" "模块在线，但当前未注册到运营商网络"
    else resolveIncident E fingerprint "移动网络注册已恢复"
  else pure ()

/-- `_apply_status`: the change of state the frame tells, when it tells one. -/
def applyStatus (agentId : String) (frame : Frame) : Hub (Option (String × Bool)) := do
  let deviceId ← upsertDevice E agentId (("name", frame.getD "device" (.str "")) :: frame)
  recordStatus E deviceId frame
  noteRegistration E agentId frame
  applySupplyVoltage E agentId frame
  pure (if frame.has "online" then
      some (textOr E (frame.get "device") "", (frame.get "online").truthy)
    else none)

/-! ## Calls -/

/-- `_apply_call_event`. -/
def applyCallEvent (agentId : String) (frame : Frame) : Hub Nat := do
  let ring ← floatOrZero (frame.get "ring_seconds")
  let seq ← optionalInt (frame.get "seq")
  insertCall E {
    agentId := agentId
    device := textOr E (frame.get "device") ""
    direction := textOr E (frame.get "direction") "out"
    ts := textOr E (frame.get "ts") E.utcnow
    peer := textOr E (frame.get "peer") ""
    iccid := textOr E (frame.get "iccid") ""
    outcome := textOr E (frame.get "outcome") ""
    reachedNetwork := (frame.get "reached_network").truthy
    ringSeconds := ring
    detail := textOr E (frame.get "detail") ""
    seq := seq }

/-! ## Logs -/

/-- `RECOVERY_ACTION_NAMES`. -/
def RECOVERY_ACTION_NAMES : List (String × String) :=
  [("serial_reconnect", "串口重连"), ("operator_reselect", "自动选择运营商"),
   ("radio_cycle", "射频重启"), ("module_reset", "模块重启"),
   ("registration_recovery", "网络注册恢复"), ("registration_watch", "网络注册监测")]

/-- The detail of a recovery incident. -/
def recoveryDetail (action reason : String) (attempt : Option Int) : String :=
  "；".intercalate (((RECOVERY_ACTION_NAMES.lookup action).getD action) ::
    (attempt.toList.map fun n => "第 " ++ toString n ++ " 次恢复动作") ++
    if reason = "" then [] else [reason])

/-- `_apply_device_recovery`. -/
def applyDeviceRecovery (agentId : String) (frame : Frame) : Hub Unit :=
  let device := textOr E (frame.get "device") ""
  let action := textOr E (frame.get "action") ""
  let outcome := textOr E (frame.get "outcome") ""
  let fingerprint := "device-recovery:" ++ agentId ++ ":" ++ device
  if device = "" ∨ action = "" then pure ()
  else if outcome = "succeeded" ∨ outcome = "cancelled" then
    resolveIncident E fingerprint (if outcome = "succeeded" then "模块自动恢复成功" else "自动恢复已取消")
  else if outcome ≠ "started" ∧ outcome ≠ "exhausted" then pure ()
  else do
    let attempt ← optionalInt (frame.get "attempt")
    openIncident E fingerprint "device_recovery"
      (if outcome = "exhausted" then "critical" else "warning") (agentId ++ "/" ++ device)
      (if outcome = "exhausted" then "设备自动恢复已达到限频上限" else "设备正在自动恢复")
      (recoveryDetail action (textOr E (frame.get "reason") "") attempt)

/-- `_apply_log`. -/
def applyLog (agentId : String) (frame : Frame) : Hub Unit := do
  let device ← bind (pyOr (frame.getD "device" (.str "")) (.str ""))
  let level ← bind (frame.getD "level" (.str "info"))
  let message ← bind (frame.getD "message" (.str ""))
  let ts ← bind (pyOr (frame.get "ts") (.str E.utcnow))
  let _ ← sql (SCHEMA.insert .agentLogs
    [(.agentId, text agentId), (.device, device), (.level, level), (.message, message), (.ts, ts)])
  if frame.get "event" = .str "device_recovery" then applyDeviceRecovery E agentId frame else pure ()

/-! ## Tasks -/

/-- The incident of a task's result. -/
def noteTask (frame : Frame) (task : Option HubRow) : Hub Unit :=
  let id := pyStr E.repr (frame.get "task_id")
  let name := textOf (task.bind fun r => r.cells .name)
  let fingerprint := "keepalive-task:" ++ id
  if frame.get "status" = .str "failed" then
    openIncident E fingerprint "task_failed" "warning" (if name = "" then "任务 " ++ id else name)
      ((if name = "" then "保号任务 " ++ id else name) ++ " 执行失败")
      (textOr E (pyOr (frame.get "error") (frame.get "detail")) "执行失败")
  else if frame.get "status" = .str "ok" then
    resolveIncident E fingerprint "保号任务执行已恢复"
  else pure ()

/-- The run times of a task after a result: a skipped run does not count as one. -/
def noteRunTimes (frame : Frame) (taskId : Option Cell) : Hub Unit :=
  if frame.get "status" ≠ .str "skipped" then do
    let last ← bind (pyOr (frame.get "ts") (.str E.utcnow))
    let following ← bind (frame.get "next_run_at")
    sql (SCHEMA.update .tasks (fun r => equals (integer r.id) taskId) fun _ =>
      [(.lastRunAt, last), (.nextRunAt, following)])
  else if (frame.get "next_run_at").truthy then do
    let following ← bind (frame.get "next_run_at")
    sql (SCHEMA.update .tasks (fun r => equals (integer r.id) taskId) fun _ =>
      [(.nextRunAt, following)])
  else pure ()

/-- The receipt row of `_apply_task_result`. -/
def insertTaskLog (frame : Frame) : Hub Nat := do
  let attempts ← convert (toInt (pyOr (frame.get "attempts") (.int 1)))
  let taskId ← bind (frame.get "task_id")
  let runId ← bind (frame.get "run_id")
  let ts ← bind (pyOr (frame.get "ts") (.str E.utcnow))
  let status ← bind (frame.getD "status" (.str "unknown"))
  let detail ← bind (pyOr (frame.getD "detail" (.str "")) (.str ""))
  let error ← bind (frame.get "error")
  sql (SCHEMA.insert .taskLogs
    [(.taskId, taskId), (.runId, runId), (.ts, ts), (.status, status),
     (.attempts, integer attempts), (.detail, detail), (.error, error)])

/-- What follows the receipt row, for a result that names a task. -/
def noteTaskResult (frame : Frame) : Hub (Option Int) := do
  let taskId ← bind (frame.get "task_id")
  let task ← one .tasks fun r => equals (integer r.id) taskId
  noteTask E frame task
  noteRunTimes E frame taskId
  let id ← convert (toInt (frame.get "task_id"))
  pure (some id)

/-- `_apply_task_result`. -/
def applyTaskResult (frame : Frame) : Hub (Option Int) := do
  let _ ← insertTaskLog E frame
  if frame.get "task_id" = .null then pure none else noteTaskResult E frame

/-- `_apply_tasks_applied`. -/
def applyTasksApplied (agentId : String) (frame : Frame) : Hub Unit :=
  match frame.get "revision", frame.get "sync_id", frame.get "ok" with
  | .str revision, .str syncId, .bool ok =>
    if revision = "" ∨ syncId = "" then pure ()
    else
      let error := match frame.get "error" with
        | .str "invalid_tasks"     => "任务配置格式无效"
        | .str "revision_mismatch" => "任务配置版本校验失败"
        | .str "apply_failed"      => "Agent 未能保存任务配置"
        | _                        => "Agent 未能应用任务配置"
      finishTaskSync E agentId revision syncId ok error
  | _, _, _ => pure ()

/-! ## The choice by kind -/

/-- `AppliedEvent`: what is left to do once the transaction has committed. -/
structure AppliedEvent where
  messageId     : Option Nat := none
  taskId        : Option Int := none
  callId        : Option Nat := none
  deviceChange  : Option (String × Bool) := none
  commandResult : Bool := false
  eventKey      : Option String := none
deriving DecidableEq

/-- `notify_key`. -/
def AppliedEvent.notifyKey (a : AppliedEvent) (kind : String) : Option String :=
  a.eventKey.map fun key => key ++ "|" ++ kind

/-- One turn of the loop of `_queue_notification`. -/
def queueOne (a : AppliedEvent) (frame : Frame) (kind : String) (refId : Option Int) : Hub Unit :=
  match refId with
  | none   => pure ()
  | some i => do
    let _ ← enqueueNotification E kind i frame (a.notifyKey kind)
    pure ()

/-- `_queue_notification`. -/
def queueNotification (a : AppliedEvent) (frame : Frame) : Hub Unit := do
  queueOne E a frame "message" (a.messageId.map Int.ofNat)
  queueOne E a frame "task_result" a.taskId
  queueOne E a frame "call" (a.callId.map Int.ofNat)

/-- The callback of a kind; a kind nobody knows is ignored. -/
def dispatch (agentId kind : String) (frame : Frame) (start : AppliedEvent) (streamId : String) :
    Hub AppliedEvent :=
  match kind with
  | "sms_in" => do
    let i ← applySmsIn E agentId frame
    pure { start with messageId := some i }
  | "sms_out" => do
    applySmsOut E agentId frame
    pure start
  | "sms_delivery" => do
    applySmsDelivery E agentId frame
    pure start
  | "status" => do
    let change ← applyStatus E agentId frame
    pure { start with deviceChange := change }
  | "call_event" => do
    let i ← applyCallEvent E agentId frame
    pure { start with callId := some i }
  | "log" => do
    applyLog E agentId frame
    pure start
  | "task_result" => do
    let i ← applyTaskResult E frame
    pure { start with taskId := i }
  | "cmd_result" => do
    applyOperationResult E agentId streamId frame
    pure { start with commandResult := true }
  | "tasks_applied" => do
    applyTasksApplied E agentId frame
    pure start
  | _ => pure start

/-- `Gateway._apply`. -/
def apply (agentId kind : String) (frame : Frame) (eventKey streamId : String) : Hub AppliedEvent := do
  let applied ← dispatch E agentId kind frame
    { eventKey := if eventKey = "" then none else some eventKey } streamId
  queueNotification E applied frame
  pure applied

end Air780eHub.Server
