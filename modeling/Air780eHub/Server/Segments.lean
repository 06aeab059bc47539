/-
  Delivery reports on the Server: the segments of an outbound SMS and the reports on them (`db.py`).

  A segment is known by the module's reference, a number from 0 to 255 that comes round again, so a
  report is paired with a segment by reference and recipient, the nearest in time when there are
  several.  A report that arrives before its `sms_out` event waits as a row without a message and
  is adopted when the event comes.

  1. **Recipients, states and times.**
  2. **`updateMessageDeliveryStatus`**: the status of a message from its segments.
  3. **`attachSmsSegments`** and **`recordSmsDelivery`**.
-/
import Air780eHub.Server.Statements

namespace Air780eHub.Server

open Relational

/-! ## Recipients -/

/-- The characters `str.isdigit` accepts beside the decimal digits: superscripts, circled digits
    and their like. -/
def OTHER_DIGITS : List (Nat × Nat) :=
  [(0xb2, 0xb3), (0xb9, 0xb9), (0x1369, 0x1371), (0x19da, 0x19da), (0x2070, 0x2070),
   (0x2074, 0x2079), (0x2080, 0x2089), (0x2460, 0x2468), (0x2474, 0x247c), (0x2488, 0x2490),
   (0x24ea, 0x24ea), (0x24f5, 0x24fd), (0x24ff, 0x24ff), (0x2776, 0x277e), (0x2780, 0x2788),
   (0x278a, 0x2792), (0x10a40, 0x10a43), (0x10e60, 0x10e68), (0x11052, 0x1105a),
   (0x1f100, 0x1f10a)]

/-- `char.isdigit()`. -/
def isDigit (c : Char) : Bool :=
  (Schedule.digit c).isSome || OTHER_DIGITS.any fun r => r.1 ≤ c.toNat && c.toNat ≤ r.2

/-- `_recipient_key`. -/
def recipientKey (recipient : String) : String := String.ofList (recipient.toList.filter isDigit)

/-- `_same_recipient`: international and local forms of a number match, short service numbers only
    themselves. -/
def sameRecipient (left right : String) : Bool :=
  let a := (recipientKey left).toList
  let b := (recipientKey right).toList
  if a.isEmpty || b.isEmpty then a.isEmpty && b.isEmpty
  else if a = b then true
  else decide (7 ≤ min a.length b.length) && (b.isSuffixOf a || a.isSuffixOf b)

/-- The text of a TEXT column. -/
def textOf : Option Cell → String
  | some (.text s) => s
  | _              => ""

/-! ## States -/

/-- The delivery state of a segment. -/
inductive DeliveryState
  | pending | delivered | failed
deriving DecidableEq

def DeliveryState.text : DeliveryState → String
  | .pending   => "pending"
  | .delivered => "delivered"
  | .failed    => "failed"

/-- The state a stored or claimed text names. -/
def DeliveryState.ofText (s : String) : Option DeliveryState :=
  if s = "pending" then some .pending
  else if s = "delivered" then some .delivered
  else if s = "failed" then some .failed
  else none

/-- `_delivery_state`: TP-ST decides, the claimed state where it does not. -/
def deliveryState (statusCode : Option Int) (claimed : String) : DeliveryState :=
  match statusCode with
  | some code =>
    if 0 ≤ code ∧ code ≤ 0x1f then .delivered
    else if 0x20 ≤ code ∧ code ≤ 0x3f then .pending
    else if 0x40 ≤ code ∧ code ≤ 0x7f then .failed
    else (DeliveryState.ofText claimed).getD .pending
  | none => (DeliveryState.ofText claimed).getD .pending

/-- `_terminal_delivery_state`, given the state a row has and the reported one: whether the report
    is taken.  A temporary report does not take back a final one, a failure not a delivery. -/
def reportTaken (current : Option Cell) (incoming : DeliveryState) : Bool :=
  match incoming, DeliveryState.ofText (textOf current) with
  | .pending, some .delivered => false
  | .pending, some .failed    => false
  | .failed, some .delivered  => false
  | _, _                      => true

/-- `_timestamp_distance`: top where a time is missing or unreadable, or only one has a zone. -/
def timestampDistance (E : Env) (left : Option Cell) (right : String) : WithTop Nat :=
  match left with
  | some (.text s) =>
    if s = "" ∨ right = "" then ⊤
    else match E.fromisoformat s, E.fromisoformat right with
      | some a, some b => if a.aware = b.aware then ((a.instant - b.instant).natAbs : Nat) else ⊤
      | _, _           => ⊤
  | _ => ⊤

/-! ## The status of a message -/

/-- `f"0x{code:02X}"`. -/
def hexCode (code : Int) : String :=
  let digits := (Nat.toDigits 16 code.natAbs).map Char.toUpper
  let width := if code < 0 then 1 else 2
  "0x" ++ (if code < 0 then "-" else "") ++
    String.ofList (List.replicate (width - digits.length) '0' ++ digits)

/-- The status and error of a message, from its segment count and its segments' states. -/
def aggregateStatus (segments : Int) (rows : List HubRow) : String × Option String :=
  let expected := max (if segments = 0 then 1 else segments) rows.length
  let delivered := (rows.filter fun r => equals (r.cells .status) (text "delivered")).length
  let failed := rows.filter fun r => equals (r.cells .status) (text "failed")
  if expected ≤ delivered then ("delivered", none)
  else if delivered ≠ 0 then ("partial", if failed.isEmpty then none else some "部分分段投递失败")
  else if !failed.isEmpty then
    let codes := ", ".intercalate (failed.filterMap fun r => match r.cells .statusCode with
      | some (.integer n) => some (hexCode n)
      | _                 => none)
    ("failed", some ("短信投递失败" ++ if codes = "" then "" else " (TP-ST " ++ codes ++ ")"))
  else ("pending", none)

/-- The segment rows of a message, in order. -/
def segmentRows (messageId : Nat) : Hub (List HubRow) := do
  let rows ← query .smsDeliverySegments fun r => equals (r.cells .messageId) (integer messageId)
  pure (rows.mergeSort fun a b => count (a.cells .segmentIndex) ≤ count (b.cells .segmentIndex))

/-- `_update_message_delivery_status`. -/
def updateMessageDeliveryStatus (messageId : Nat) : Hub Unit := do
  let message ← one .messages fun r => r.id == messageId
  let rows ← segmentRows messageId
  match message with
  | none   => pure ()
  | some m =>
    if rows.isEmpty then pure ()
    else
      let (status, error) := aggregateStatus (count (m.cells .segments)) rows
      sql (SCHEMA.update .messages (fun r => r.id == messageId) fun _ =>
        [(.status, text status), (.error, error.map .text)])

/-! ## Attaching segments -/

/-- The minutes an early report waits for its segment. -/
def EARLY_MINUTES : Nat := 10

/-- One turn of the loop of `attach_sms_segments`: adopt the report that came first, or store the
    segment as pending. -/
def attachSegment (E : Env) (messageId : Nat) (agentId device recipient submitted : String)
    (segmentIndex : Nat) (reference : Int) : Hub Unit := do
  let waiting ← query .smsDeliverySegments fun r =>
    (r.cells .messageId).isNone && equals (r.cells .agentId) (text agentId) &&
    equals (r.cells .device) (text device) &&
    equals (r.cells .modemReference) (integer reference) &&
    notBefore (r.cells .createdAt) (E.cutoff EARLY_MINUTES)
  match waiting.reverse.find? fun r => sameRecipient (textOf (r.cells .recipient)) recipient with
  | some early =>
    sql (SCHEMA.update .smsDeliverySegments (fun r => r.id == early.id) fun _ =>
      [(.messageId, integer messageId), (.segmentIndex, integer segmentIndex),
       (.submittedAt, text submitted), (.recipient, text recipient),
       (.recipientKey, text (recipientKey recipient))])
  | none => do
    let _ ← sql (SCHEMA.insert .smsDeliverySegments
      [(.messageId, integer messageId), (.agentId, text agentId), (.device, text device),
       (.segmentIndex, integer segmentIndex), (.modemReference, integer reference),
       (.recipient, text recipient), (.recipientKey, text (recipientKey recipient)),
       (.submittedAt, text submitted), (.status, text "pending"), (.createdAt, text E.utcnow)])
    pure ()

/-- `attach_sms_segments`. -/
def attachSmsSegments (E : Env) (messageId : Nat) (agentId device recipient : String)
    (references : List Int) (submittedAt : String) : Hub Unit := do
  let submitted ← toUtcIso E (.str submittedAt)
  (references.zipIdx 1).forM fun x =>
    attachSegment E messageId agentId device recipient submitted x.2 x.1
  updateMessageDeliveryStatus messageId

/-! ## Recording a report -/

/-- A delivery report as `_apply_sms_delivery` reads it. -/
structure Report where
  agentId         : String
  device          : String
  reference       : Int
  recipient       : String
  statusCode      : Option Int
  status          : String
  serviceCenterTs : Value
  dischargeTs     : Value
  reportedAt      : String
  rawPdu          : Value
  eventSeq        : Option Int

/-- `to_utc_iso(value) if value else None`. -/
def optionalIso (E : Env) (v : Value) : Hub (Option String) :=
  if v.truthy then do
    let s ← toUtcIso E v
    pure (some s)
  else pure none

/-- `ORDER BY submitted_at DESC, id DESC`. -/
def laterFirst (a b : HubRow) : Bool :=
  let x := textOf (a.cells .submittedAt)
  let y := textOf (b.cells .submittedAt)
  decide (y < x) || (decide (x = y) && decide (b.id ≤ a.id))

/-- The segment a report is about: the nearest in time when the report has one, else the latest. -/
def matchedSegment (E : Env) (serviceTs : Option String) (candidates : List HubRow) :
    Option HubRow :=
  match serviceTs with
  | some ts => candidates.argmin fun r => timestampDistance E (r.cells .submittedAt) ts
  | none    => candidates.head?

/-- The minutes an unmatched report is kept for a later one to supersede. -/
def UNMATCHED_MINUTES : Nat := 14 * 24 * 60

/-- The times of a report, normalised. -/
structure ReportTimes where
  serviceTs : Option String
  discharge : Option String
  reported  : String

/-- The columns a report fills in. -/
def reportColumns (r : Report) (times : ReportTimes) (state : DeliveryState) (pdu : Option Cell) :
    Assignments Column Cell :=
  [(.status, text state.text), (.statusCode, optional r.statusCode),
   (.serviceCenterTs, times.serviceTs.map .text), (.dischargeTs, times.discharge.map .text),
   (.reportedAt, text times.reported), (.rawPdu, pdu), (.eventSeq, optional r.eventSeq)]

/-- Write a report into the row of its segment, with the columns in `more`.  A report the state
    machine rejects leaves the row as it is. -/
def fillSegment (row : HubRow) (r : Report) (times : ReportTimes) (state : DeliveryState)
    (more : Assignments Column Cell) : Hub Unit :=
  if reportTaken (row.cells .status) state then do
    let pdu ← bind r.rawPdu
    sql (SCHEMA.update .smsDeliverySegments (fun x => x.id == row.id) fun _ =>
      more ++ reportColumns r times state pdu)
  else pure ()

/-- A report on a segment of a stored message. -/
def recordMatched (row : HubRow) (r : Report) (times : ReportTimes) (state : DeliveryState) :
    Hub Unit := do
  fillSegment row r times state []
  match row.cells .messageId with
  | some (.integer n) => updateMessageDeliveryStatus n.toNat
  | _                 => throw .typeError

/-- A report without a segment: it supersedes the one that waits, or waits itself. -/
def recordUnmatched (E : Env) (r : Report) (times : ReportTimes) (state : DeliveryState) :
    Hub Unit := do
  let unmatched ← query .smsDeliverySegments fun x =>
    (x.cells .messageId).isNone && equals (x.cells .agentId) (text r.agentId) &&
    equals (x.cells .device) (text r.device) &&
    equals (x.cells .modemReference) (integer r.reference) &&
    notBefore (x.cells .createdAt) (E.cutoff UNMATCHED_MINUTES)
  match unmatched.reverse.find? fun x => sameRecipient (textOf (x.cells .recipient)) r.recipient with
  | some existing =>
    fillSegment existing r times state
      [(Column.recipient, text r.recipient), (Column.recipientKey, text (recipientKey r.recipient))]
  | none => do
    let pdu ← bind r.rawPdu
    let _ ← sql (SCHEMA.insert .smsDeliverySegments
      ([(.messageId, none), (.agentId, text r.agentId), (.device, text r.device),
        (.modemReference, integer r.reference), (.recipient, text r.recipient),
        (.recipientKey, text (recipientKey r.recipient)), (.createdAt, text E.utcnow)] ++
        reportColumns r times state pdu))
    pure ()

/-- `record_sms_delivery`. -/
def recordSmsDelivery (E : Env) (r : Report) : Hub Unit := do
  let serviceTs ← optionalIso E r.serviceCenterTs
  let discharge ← optionalIso E r.dischargeTs
  let reported ← toUtcIso E (.str r.reportedAt)
  let found ← query .smsDeliverySegments fun x =>
    (x.cells .messageId).isSome && equals (x.cells .agentId) (text r.agentId) &&
    equals (x.cells .device) (text r.device) &&
    equals (x.cells .modemReference) (integer r.reference)
  let candidates := (found.mergeSort laterFirst).filter fun x =>
    sameRecipient (textOf (x.cells .recipient)) r.recipient
  match matchedSegment E serviceTs candidates with
  | some row =>
    recordMatched row r ⟨serviceTs, discharge, reported⟩ (deliveryState r.statusCode r.status)
  | none     =>
    recordUnmatched E r ⟨serviceTs, discharge, reported⟩ (deliveryState r.statusCode r.status)

end Air780eHub.Server
