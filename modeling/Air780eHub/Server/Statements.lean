/-
  The database operations ingesting an event runs (`db.py`), statement by statement.

  An operation is a program over the database that may raise: an integrity error where a statement
  breaks a constraint, or one of Python's own exceptions where a decoded value has the wrong type.
  Every one of them runs inside the transaction of `apply_event`.

  1. **Values**: how Python converts and binds what it read from a frame.
  2. **Reading and writing.**
  3. **Incidents, cards and modules.**
  4. **Messages and calls.**
  5. **Notifications, operations and task synchronisation.**
-/
import Mathlib.Data.List.MinMax
import Air780eHub.Wire.Json
import Air780eHub.Server.Schema

namespace Air780eHub.Server

open Relational

/-- What an operation raises. -/
inductive Failure
  | integrity (violation : Violation Table Column)
  | typeError
  | valueError
  | overflowError
  /-- sqlite3 cannot store a list or a dictionary. -/
  | bindError
deriving DecidableEq

/-- A program over the database. -/
abbrev Hub (α : Type) := StateT HubDb (Except Failure) α

/-- An instant, and whether its text named a zone. -/
structure Moment where
  instant : Int
  aware   : Bool
deriving DecidableEq

/-- The clock and the texts of the standard library, for one transaction. -/
structure Env where
  /-- `utcnow()`. -/
  utcnow : String
  /-- `datetime.fromisoformat`; a text without a zone is read as UTC. -/
  fromisoformat : String → Option Moment
  /-- `.astimezone(UTC).isoformat(timespec="seconds")`. -/
  isoformat : Int → String
  /-- `(datetime.now(UTC) - timedelta(minutes=m)).isoformat()`. -/
  cutoff : Nat → String
  /-- `str()` of a list or a dictionary. -/
  repr : Value → String

variable (E : Env)

/-! ## Values -/

/-- `a or b`. -/
def pyOr (a b : Value) : Value := if a.truthy then a else b

/-- `int(value)`. -/
def toInt : Value → Except Failure Int
  | .null    => .error .typeError
  | .bool b  => .ok (if b then 1 else 0)
  | .int n   => .ok n
  | .float t => match Schedule.pyFloat t.toList with
    | some (.finite q)   => .ok (Schedule.trunc q)
    | some (.infinite _) => .error .overflowError
    | _                  => .error .valueError
  | .str s   => match Schedule.pyInt (pyStrip s).toList with
    | some n => .ok n
    | none   => .error .valueError
  | .arr _   => .error .typeError
  | .obj _   => .error .typeError

/-- `_optional_int`: None where the field is absent or malformed. -/
def optionalInt (v : Value) : Hub (Option Int) :=
  match v with
  | .null => pure none
  | v     => match toInt v with
    | .ok n                => pure (some n)
    | .error .overflowError => throw .overflowError
    | .error _             => pure none

/-- `_float_or_zero`: zero where the field is malformed. -/
def floatOrZero : Value → Hub Schedule.PyFloat
  | .bool b  => pure (.finite (if b then 1 else 0))
  | .int n   => match Schedule.roundDouble n with
    | .finite q => pure (.finite q)
    | _         => throw .overflowError
  | .float t => pure ((Schedule.pyFloat t.toList).getD (.finite 0))
  | .str s   => pure ((Schedule.pyFloat (pyStrip s).toList).getD (.finite 0))
  | _        => pure (.finite 0)

/-- A float as sqlite3 stores it: NaN becomes NULL. -/
def realCell : Schedule.PyFloat → Option Cell
  | .nan => none
  | x    => some (.real x)

/-- A decoded value as a parameter of a statement. -/
def bind : Value → Hub (Option Cell)
  | .null    => pure none
  | .bool b  => pure (some (.integer (if b then 1 else 0)))
  | .int n   => pure (some (.integer n))
  | .float t => pure (realCell ((Schedule.pyFloat t.toList).getD .nan))
  | .str s   => pure (some (.text s))
  | .arr _   => throw .bindError
  | .obj _   => throw .bindError

/-- A text parameter. -/
def text (s : String) : Option Cell := some (.text s)

/-- An integer parameter. -/
def integer (n : Int) : Option Cell := some (.integer n)

/-- A boolean parameter, stored as 0 or 1. -/
def flag (b : Bool) : Option Cell := some (.integer (if b then 1 else 0))

/-- An optional integer parameter. -/
def optional (n : Option Int) : Option Cell := n.map .integer

/-- `to_utc_iso`. -/
def toUtcIso (value : Value) : Hub String :=
  if value.truthy then
    match value with
    | .str s => match E.fromisoformat s with
      | none   => pure E.utcnow
      | some m => pure (E.isoformat m.instant)
    | _      => throw .typeError
  else pure E.utcnow

/-- `a = b` in SQL: NULL equals nothing. -/
def equals (a b : Option Cell) : Bool := a.isSome && a == b

/-- `cell >= text` of a text column. -/
def notBefore (cell : Option Cell) (s : String) : Bool :=
  match cell with
  | some (.text s') => !decide (s' < s)
  | _               => false

/-! ## Reading and writing -/

/-- A statement inside the transaction. -/
def sql {α : Type} (m : Sql Table Column Cell α) : Hub α := fun db => (m db).mapError .integrity

/-- `SELECT … FROM t WHERE p ORDER BY id`. -/
def query (t : Table) (p : HubRow → Bool) : Hub (List HubRow) :=
  get >>= fun db => pure ((db.rows t).filter p)

/-- The first row of a query, if there is one. -/
def one (t : Table) (p : HubRow → Bool) : Hub (Option HubRow) :=
  get >>= fun db => pure ((db.rows t).find? p)

/-! ## Incidents -/

/-- A count an INTEGER column holds. -/
def count : Option Cell → Int
  | some (.integer n) => n
  | _                 => 0

/-- `status = 'resolved'`. -/
def resolved (r : HubRow) : Bool := equals (r.cells .status) (text "resolved")

/-- `open_incident`. -/
def openIncident (fingerprint kind severity source title detail : String) : Hub Unit :=
  sql (SCHEMA.upsert .incidents [.fingerprint]
    [(.fingerprint, text (pyTake 256 fingerprint)), (.kind, text (pyTake 64 kind)),
     (.severity, text (pyTake 16 severity)), (.source, text (pyTake 128 source)),
     (.title, text (pyTake 256 title)), (.detail, text (pyTake 1000 detail)),
     (.status, text "active"), (.occurrences, integer 1), (.firstSeenAt, text E.utcnow),
     (.lastSeenAt, text E.utcnow)]
    fun r =>
    [(.kind, text (pyTake 64 kind)), (.severity, text (pyTake 16 severity)),
     (.source, text (pyTake 128 source)), (.title, text (pyTake 256 title)),
     (.detail, text (pyTake 1000 detail)),
     (.status, if resolved r then text "active" else r.cells .status),
     (.occurrences, integer (count (r.cells .occurrences) + 1)),
     (.firstSeenAt, if resolved r then text E.utcnow else r.cells .firstSeenAt),
     (.lastSeenAt, text E.utcnow),
     (.acknowledgedAt, if resolved r then none else r.cells .acknowledgedAt),
     (.resolvedAt, none)])

/-- `resolve_incident`. -/
def resolveIncident (fingerprint detail : String) : Hub Unit :=
  sql (SCHEMA.update .incidents
    (fun r => equals (r.cells .fingerprint) (text (pyTake 256 fingerprint)) && !resolved r)
    fun _ =>
      if detail = "" then
        [(.status, text "resolved"), (.lastSeenAt, text E.utcnow), (.resolvedAt, text E.utcnow)]
      else
        [(.status, text "resolved"), (.detail, text (pyTake 1000 detail)),
         (.lastSeenAt, text E.utcnow), (.resolvedAt, text E.utcnow)])

/-! ## Cards and modules -/

/-- Write a column of a card when something was learned: a blank reading never wipes a good value. -/
def learn (card : Option Cell) (column : Column) (v : Value) (cell : Option Cell) : Hub Unit :=
  if v.truthy then
    sql (SCHEMA.update .sims (fun r => equals (r.cells .iccid) card) fun _ => [(column, cell)])
  else pure ()

/-- The body of `upsert_sim`. -/
def putSim (iccid operator smsc : Value) : Hub (Option Nat) := do
  let card ← bind iccid
  let op ← bind operator
  let centre ← bind smsc
  sql (SCHEMA.upsert .sims [.iccid]
    [(.iccid, card), (.operator, op), (.smsc, centre), (.firstSeenAt, text E.utcnow),
     (.lastSeenAt, text E.utcnow)]
    fun _ => [(.lastSeenAt, text E.utcnow)])
  learn card .operator operator op
  learn card .smsc smsc centre
  let row ← one .sims fun r => equals (r.cells .iccid) card
  pure (row.map Row.id)

/-- `upsert_sim`: the row of an ICCID, none for a module without a card. -/
def upsertSim (iccid operator smsc : Value) : Hub (Option Nat) :=
  if iccid.truthy then putSim E iccid operator smsc else pure none

/-- A reference to a card, or NULL. -/
def simCell (i : Option Nat) : Option Cell := i.bind fun n => integer n

/-- The columns of `_DEVICE_STATE_FIELDS` that hold a flag or NULL, with the fields they come from. -/
def DEVICE_FLAGS : List (String × Column) :=
  [("radio_enabled", .radioEnabled), ("eps_registered", .epsRegistered),
   ("cs_registered", .csRegistered), ("ims_registered", .imsRegistered),
   ("data_enabled", .dataEnabled), ("data_attached", .dataAttached), ("pdp_active", .pdpActive),
   ("roaming", .roaming), ("roaming_data_allowed", .roamingDataAllowed),
   ("data_blocked_by_roaming", .dataBlockedByRoaming)]

/-- The columns of `_DEVICE_STATE_FIELDS` that are always 0 or 1. -/
def DEVICE_BITS : List (String × Column) := [("online", .online), ("registered", .registered)]

/-- The columns of `_DEVICE_STATE_FIELDS` that hold the value itself. -/
def DEVICE_READINGS : List (String × Column) :=
  [("rssi", .rssi), ("dbm", .dbm), ("rsrp", .rsrp), ("rsrq", .rsrq), ("voltage_mv", .voltageMv),
   ("low_voltage_mv", .lowVoltageMv)]

/-- The columns a missing reading is stored in as 0. -/
def DEVICE_COUNTS : List (String × Column) :=
  [("bars", .bars), ("storage_used", .storageUsed), ("storage_capacity", .storageCap)]

/-- `_DEVICE_IDENTITY_FIELDS`: written only when the frame has them. -/
def DEVICE_IDENTITY : List (String × Column) :=
  [("label", .label), ("port", .port), ("model", .model), ("hardware_model", .hardwareModel),
   ("firmware", .firmware), ("imei", .imei), ("operator", .operator)]

/-- The columns of a list of fields that are in the payload, each by `f`. -/
def present (payload : Frame) (f : Value → Value) (fields : List (String × Column)) :
    List (Column × Value) :=
  (fields.filter fun x => payload.has x.1).map fun x => (x.2, f (payload.get x.1))

/-- `None if value is None else int(bool(value))`. -/
def flagOrNull (v : Value) : Value := if v = .null then .null else .int (if v.truthy then 1 else 0)

/-- The columns `upsert_device` writes from the payload. -/
def deviceColumns (payload : Frame) : List (Column × Value) :=
  present payload flagOrNull DEVICE_FLAGS ++
  present payload (fun v => .int (if v.truthy then 1 else 0)) DEVICE_BITS ++
  present payload id DEVICE_READINGS ++
  present payload (fun v => pyOr v (.int 0)) DEVICE_COUNTS ++
  (DEVICE_IDENTITY.filter fun x => (payload.get x.1).truthy).map fun x => (x.2, payload.get x.1)

/-- The parameters of a statement, bound one after the other. -/
def bindAll : List (Column × Value) → Hub (Assignments Column Cell)
  | []           => pure []
  | (c, v) :: xs => do
    let cell ← bind v
    let rest ← bindAll xs
    pure ((c, cell) :: rest)

/-- The `sim_id` column, when the payload has an ICCID. -/
def simColumn (payload : Frame) : Hub (Assignments Column Cell) :=
  if (payload.get "iccid").truthy then do
    let i ← upsertSim E (payload.get "iccid") (pyOr (payload.getD "operator" (.str "")) (.str ""))
      (pyOr (payload.getD "smsc" (.str "")) (.str ""))
    pure [(.simId, simCell i)]
  else pure []

/-- `upsert_device`: the row id of the module. -/
def upsertDevice (agentId : String) (payload : Frame) : Hub Nat := do
  let sim ← simColumn E payload
  let name ← bind (payload.getD "name" (.str ""))
  let cells ← bindAll (deviceColumns payload)
  sql (SCHEMA.upsert .devices [.agentId, .name]
    ((.agentId, text agentId) :: (.name, name) :: (.lastSeenAt, text E.utcnow) :: (cells ++ sim))
    fun _ => (.lastSeenAt, text E.utcnow) :: (cells ++ sim))
  let row ← one .devices fun r =>
    equals (r.cells .agentId) (text agentId) && equals (r.cells .name) name
  match row with
  | some r => pure r.id
  | none   => throw .typeError

/-- `record_status`. -/
def recordStatus (deviceId : Nat) (payload : Frame) : Hub Unit := do
  let ts ← toUtcIso E (payload.get "ts")
  let rssi ← bind (payload.get "rssi")
  let dbm ← bind (payload.get "dbm")
  let bars ← bind (payload.get "bars")
  let rsrp ← bind (payload.get "rsrp")
  let rsrq ← bind (payload.get "rsrq")
  let used ← bind (payload.get "storage_used")
  let capacity ← bind (payload.get "storage_capacity")
  let voltage ← bind (payload.get "voltage_mv")
  let _ ← sql (SCHEMA.insert .deviceStatus
    [(.deviceId, integer deviceId), (.ts, text ts), (.online, flag (payload.get "online").truthy),
     (.registered, flag (payload.get "registered").truthy), (.rssi, rssi), (.dbm, dbm),
     (.bars, bars), (.rsrp, rsrp), (.rsrq, rsrq), (.storageUsed, used), (.storageCap, capacity),
     (.voltageMv, voltage)])
  pure ()

/-! ## Messages and calls -/

/-- The arguments of `insert_message`, with their defaults. -/
structure NewMessage where
  agentId       : String
  device        : Value
  direction     : String
  peer          : Value
  body          : Value
  ts            : Value
  iccid         : Value := .str ""
  status        : String := "received"
  segments      : Int := 1
  seq           : Value := .null
  error         : Value := .null
  rawPdu        : Value := .null
  dcs           : Option Int := none
  isBinary      : Bool := false
  truncated     : Bool := false
  recoveredBody : Value := .null
  recoveredCode : Value := .null

/-- `insert_message`: the row id of the message. -/
def insertMessage (m : NewMessage) : Hub Nat := do
  let sim ← upsertSim E m.iccid (.str "") (.str "")
  let ts ← toUtcIso E m.ts
  let device ← bind m.device
  let peer ← bind m.peer
  let body ← bind m.body
  let seq ← bind m.seq
  let error ← bind m.error
  let pdu ← bind m.rawPdu
  let recovered ← bind (pyOr m.recoveredBody .null)
  let code ← bind (pyOr m.recoveredCode .null)
  sql (SCHEMA.insert .messages
    [(.agentId, text m.agentId), (.device, device), (.simId, simCell sim),
     (.direction, text m.direction), (.peer, peer), (.body, body), (.ts, text ts),
     (.status, text m.status), (.segments, integer m.segments), (.seq, seq), (.error, error),
     (.rawPdu, pdu), (.dcs, optional m.dcs), (.isBinary, flag m.isBinary),
     (.truncated, flag m.truncated), (.recoveredBody, recovered), (.recoveredCode, code),
     (.createdAt, text E.utcnow)])

/-- The arguments of `insert_call`. -/
structure NewCall where
  agentId        : String
  device         : String
  direction      : String
  ts             : String
  peer           : String
  iccid          : String
  outcome        : String
  reachedNetwork : Bool
  ringSeconds    : Schedule.PyFloat
  detail         : String
  seq            : Option Int

/-- `insert_call`: the row id of the call. -/
def insertCall (c : NewCall) : Hub Nat := do
  let sim ← upsertSim E (.str c.iccid) (.str "") (.str "")
  let ts ← toUtcIso E (.str c.ts)
  sql (SCHEMA.insert .calls
    [(.agentId, text c.agentId), (.device, text c.device), (.simId, simCell sim),
     (.direction, text c.direction), (.peer, text c.peer), (.ts, text ts),
     (.outcome, text c.outcome), (.reachedNetwork, flag c.reachedNetwork),
     (.ringSeconds, realCell c.ringSeconds), (.detail, text c.detail), (.seq, optional c.seq),
     (.createdAt, text E.utcnow)])

/-! ## Notifications, operations and task synchronisation -/

/-- `enqueue_notification`: false when the intent was already queued. -/
def enqueueNotification (kind : String) (refId : Int) (frame : Frame) (eventKey : Option String) :
    Hub Bool :=
  sql (SCHEMA.insertOrIgnore .notifyOutbox
    [(.kind, text kind), (.refId, integer refId), (.eventKey, eventKey.map .text),
     (.frame, text (Value.plain (.obj frame))), (.title, text ""), (.body, text ""),
     (.status, text "pending"), (.createdAt, text E.utcnow)])

/-- The outcome statuses of an operation. -/
def OUTCOMES : List String := ["succeeded", "failed", "unknown", "cancelled"]

/-- What `apply_operation_result` asks of a result before it looks at the table. -/
def wellFormedResult (frame : Frame) : Bool :=
  (OUTCOMES.any fun s => frame.get "status" == .str s) &&
  ((frame.get "status" == .str "succeeded") == (frame.get "ok" == .bool true)) &&
  ((frame.get "cmd_id").isStr && (frame.get "device").isStr && (frame.get "result_token").isStr) &&
  (frame.get "error" == .null || (frame.get "error").isStr) &&
  (frame.get "data" == .null || (frame.get "data").isDict)

/-- The module an operation is about. -/
def operationDevice (db : HubDb) (r : HubRow) : Option HubRow :=
  (db.rows .devices).find? fun d => equals (r.cells .deviceId) (integer d.id)

/-- The card of a module. -/
def deviceSim (db : HubDb) (d : HubRow) : Option HubRow :=
  (db.rows .sims).find? fun s => equals (d.cells .simId) (integer s.id)

/-- The WHERE of `apply_operation_result`: a running or unknown operation with this id, owner and
    token, and the identity it was meant for. -/
def accepts (db : HubDb) (agentId streamId : String) (cmdId device token : Option Cell)
    (r : HubRow) : Bool :=
  equals (r.cells .id) cmdId && equals (r.cells .agentId) (text agentId) &&
  equals (r.cells .streamId) (text streamId) && equals (r.cells .device) device &&
  equals (r.cells .resultToken) token &&
  (equals (r.cells .status) (text "running") || equals (r.cells .status) (text "unknown")) &&
  (equals (r.cells .expectedImei) (text "") ||
    equals (r.cells .expectedImei) ((operationDevice db r).bind fun d => d.cells .imei)) &&
  (equals (r.cells .expectedIccid) (text "") ||
    equals (r.cells .expectedIccid)
      (((operationDevice db r).bind (deviceSim db)).bind fun s => s.cells .iccid))

/-- `apply_operation_result`. -/
def applyOperationResult (agentId streamId : String) (frame : Frame) : Hub Unit :=
  if wellFormedResult frame then do
    let status ← bind (frame.get "status")
    let error ← bind (frame.get "error")
    let cmdId ← bind (frame.get "cmd_id")
    let device ← bind (frame.get "device")
    let token ← bind (frame.get "result_token")
    let db ← get
    sql (SCHEMA.update .commandOperations (accepts db agentId streamId cmdId device token)
      fun _ => [(.status, status), (.result, text (Value.plain (frame.get "data"))),
        (.error, error), (.updatedAt, text E.utcnow)])
  else pure ()

/-- `finish_task_sync`. -/
def finishTaskSync (agentId revision syncId : String) (ok : Bool) (error : String) : Hub Unit :=
  sql (SCHEMA.update .agents
    (fun r => equals (r.cells .id) (text agentId) &&
      equals (r.cells .tasksRevision) (text revision) &&
      equals (r.cells .tasksSyncId) (text syncId) &&
      !equals (r.cells .tasksSyncStatus) (text "applied"))
    fun r =>
    [(.tasksSyncStatus, text (if ok then "applied" else "failed")),
     (.tasksSyncError, text (if ok then "" else error)),
     (.tasksAppliedRevision, if ok then text revision else r.cells .tasksAppliedRevision),
     (.tasksSyncedAt, if ok then text E.utcnow else r.cells .tasksSyncedAt)])

end Air780eHub.Server
