/-
  What is stored of the messages: the tables that hold one, and everything that writes them.

  A message is stored in `messages`; the event an inbound one came with is kept, as it was received,
  in `notify_outbox`; an outbound one that an operation asked for is also in the frame of
  `command_operations`.  The machine below remembers beside the database which messages, frames and
  commands were ever stored.

  1. **`createOperation`** on the tables of the schema.
  2. **The system**: the database and what went into it.
  3. **Steps**: an event, a hook, an operation, a retention pass, the expiry of `ingested`, and any
     other statement.  Putting a backup back makes no further state: a backup is the database of an
     earlier state.
-/
import Air780eHub.Notify.Steps
import Air780eHub.Retention.Pass
import Air780eHub.Server.Operations

namespace Air780eHub.Retention

open Relational Server Notify

/-! ## Operations -/

/-- The row an idempotency key already names. -/
def sameRequest (req : OpRequest) (r : HubRow) : Bool :=
  equals (r.cells .actor) (text req.actor) && equals (r.cells .deviceId) (integer req.target.id) &&
    equals (r.cells .idempotencyKey) (text req.idempotencyKey)

/-- `status IN ('queued', 'running')`. -/
def waiting (r : HubRow) : Bool :=
  equals (r.cells .status) (text "queued") || equals (r.cells .status) (text "running")

/-- `frame["type"]`, which is a text in the frames of the API. -/
def commandType (frame : Frame) : Option Cell :=
  match frame.get "type" with
  | .str s => text s
  | _      => none

/-- The row `create_operation` inserts. -/
def operationCells (sha256 : String → String) (req : OpRequest) (id token now : String) :
    Assignments Column Cell :=
  [(.id, text id), (.actor, text req.actor), (.deviceId, integer req.target.id),
   (.agentId, text req.target.agentId), (.device, text req.target.name),
   (.commandType, commandType req.frame), (.requestHash, text (sha256 req.frame.dumps)),
   (.idempotencyKey, text req.idempotencyKey), (.frame, text req.frame.dumps),
   (.deadline, text req.deadline), (.streamId, text req.streamId),
   (.connectionId, text req.connectionId), (.resultToken, text token),
   (.expectedImei, text req.target.imei), (.expectedIccid, text req.target.iccid),
   (.createdAt, text now), (.updatedAt, text now)]

/-- `create_operation`: whether a row was inserted, and the database.  `id` and `token` are what
    `secrets` returned. -/
def createOperation (sha256 : String → String) (req : OpRequest) (id token now : String)
    (db : HubDb) : Except OpError (Bool × HubDb) :=
  match (db.rows .commandOperations).find? (sameRequest req) with
  | some existing =>
    if existing.cells .requestHash ≠ text (sha256 req.frame.dumps) then .error .conflict
    else .ok (false, db)
  | none =>
    let active := (db.rows .commandOperations).filter waiting
    if 200 ≤ active.length ∨ 16 ≤ (active.filter fun r =>
        equals (r.cells .deviceId) (integer req.target.id)).length then
      .error .queueFull
    else match SCHEMA.insert .commandOperations (operationCells sha256 req id token now) db with
      | .error _ => .error .integrity
      | .ok x    => .ok (true, x.2)

/-! ## The system -/

/-- A message that was stored: its row id, its `ts`, and the event it came with. -/
structure Stored where
  id    : Nat
  ts    : Option Cell
  kind  : String
  frame : Frame

/-- A command that was accepted as an operation. -/
structure Command where
  id    : String
  frame : Frame

/-- The database, and what was ever stored in it: messages, the frames of those that were queued for
    notification, and commands. -/
structure State where
  hub      : Database HubDb
  stored   : List Stored
  intents  : List Frame
  commands : List Command

/-- The rows that are new in a table. -/
def newRows (t : Table) (db db' : HubDb) : List HubRow :=
  (db'.rows t).filter fun r => decide (db.seq t < r.id)

/-- The messages a transaction stored. -/
def newMessages (x : Incoming) (db db' : HubDb) : List Stored :=
  (newRows .messages db db').map fun r => ⟨r.id, r.cells .ts, x.kind, x.frame⟩

instance (db : HubDb) (key : Option String) : Decidable (Queued db key) :=
  inferInstanceAs (Decidable (∃ r ∈ db.rows .notifyOutbox,
    equals (r.cells .eventKey) (key.map .text) = true))

/-- The frame of a message that is queued for notification, when no intent has its key. -/
def queuedFrames (db : HubDb) (kind : String) (frame : Frame) (key : Option String) : List Frame :=
  if kind = "message" ∧ ¬ Queued db key then [frame] else []

/-- The frame an event queues. -/
def eventFrames (x : Incoming) (db : HubDb) : List Frame :=
  match intentKind x.kind x.frame with
  | none   => []
  | some k => queuedFrames db k x.frame (some (x.eventKey ++ "|" ++ k))

/-! ## Steps -/

/-- A statement that adds no message, no operation and no intent of a message, rewrites nothing of
    what they say, and deletes from no table they depend on. -/
structure Elsewhere (q : Statement Table Column Cell) : Prop where
  messages   : q.Keeps SCHEMA rank .messages [.ts] fun _ => False
  outbox     : q.Keeps SCHEMA rank .notifyOutbox [.kind, .frame] fun cells =>
    cells .kind ≠ text "message"
  operations : q.Keeps SCHEMA rank .commandOperations [.id, .frame] fun _ => False

/-- What happens to the database. -/
inductive Action
  /-- An event arrives, for the first time or again. -/
  | ingest (x : Incoming)
  /-- A hook of the notifier queues an intent. -/
  | hook (env : Env) (kind : String) (refId : Int) (frame : Frame) (key : Option String)
  /-- An administrator asks for an operation. -/
  | create (sha256 : String → String) (req : OpRequest) (id token now : String)
  /-- A retention pass. -/
  | purge (h : Horizons) (cutoff : Int → String)
  /-- Keys expire in `ingested`. -/
  | forget (expired : IngestKey → Bool)
  /-- Any other statement that is committed. -/
  | statement (q : { q : Statement Table Column Cell // Elsewhere q })

/-- One step; what raises is rolled back. -/
def step (s : State) : Action → Option State
  | .ingest x =>
    match x.ingest s.hub with
    | .error _          => some s
    | .ok (none, hub)   => some { s with hub }
    | .ok (some _, hub) => some { s with
        hub
        stored  := s.stored ++ newMessages x s.hub.business hub.business
        intents := s.intents ++ eventFrames x s.hub.business }
  | .hook env kind refId frame key =>
    match enqueueNotification env kind refId frame key s.hub.business with
    | .error _   => some s
    | .ok (_, b) => some { s with
        hub     := { s.hub with business := b }
        intents := s.intents ++ queuedFrames s.hub.business kind frame key }
  | .create sha256 req id token now =>
    match createOperation sha256 req id token now s.hub.business with
    | .error _       => some s
    | .ok (false, b) => some { s with hub := { s.hub with business := b } }
    | .ok (true, b)  => some { s with
        hub      := { s.hub with business := b }
        commands := s.commands ++ [⟨id, req.frame⟩] }
  | .purge h cutoff =>
    match purgeBatches h cutoff s.hub.business with
    | .error _   => some s
    | .ok (_, b) => some { s with hub := { s.hub with business := b } }
  | .forget expired =>
    some { s with hub := { s.hub with ingested := s.hub.ingested.filter fun k => !expired k } }
  | .statement q => some { s with hub := { s.hub with business := q.1.exec SCHEMA s.hub.business } }

/-- The Server's database from its creation on. -/
def machine : Machine State Action where
  Start := fun s => s = ⟨⟨[], Db.empty⟩, [], [], []⟩
  step  := step

/-! ## Copies -/

/-- The message is what the operation was for: it names the operation, whose frame has its number
    and its text. -/
structure SentFor (c : Command) (m : Stored) : Prop where
  kind    : m.kind = "sms_out"
  cmdId   : m.frame.get "cmd_id" = .str c.id
  command : c.frame.get "type" = .str "send_sms"
  number  : c.frame.get "number" = m.frame.get "peer"
  body    : c.frame.get "body" = m.frame.get "body"

/-- Some row of the database still holds the message. -/
inductive Holds (s : State) (db : HubDb) (m : Stored) : Prop
  /-- Its own row. -/
  | message (r : HubRow) (hr : r ∈ db.rows .messages) (hid : r.id = m.id)
  /-- A segment of it. -/
  | segment (r : HubRow) (hr : r ∈ db.rows .smsDeliverySegments)
      (hid : r.cells .messageId = integer m.id)
  /-- The intent that keeps the frame it came with. -/
  | intent (r : HubRow) (hr : r ∈ db.rows .notifyOutbox) (hkind : r.cells .kind = text "message")
      (hframe : r.cells .frame = text (Value.plain (.obj m.frame)))
  /-- The operation it was sent for. -/
  | operation (r : HubRow) (hr : r ∈ db.rows .commandOperations) (c : Command) (hc : c ∈ s.commands)
      (hid : r.cells .id = text c.id) (hframe : r.cells .frame = text c.frame.dumps)
      (hsent : SentFor c m)

/-- The message was stored a second time: its frame was queued for notification, or it was sent for
    an operation. -/
def Copied (s : State) (m : Stored) : Prop :=
  (∃ f ∈ s.intents, Value.plain (.obj f) = Value.plain (.obj m.frame)) ∨
    ∃ c ∈ s.commands, SentFor c m

end Air780eHub.Retention
