/-
  The event path from the Agent's queue to the Server's database, as one machine.

  Two programs and a lossy connection:

    Agent   `LocalStore` (the `events` table, durable) and `ServerLink` (one connection at a time;
            the sender's position in its batch and the mark `_sent_through`, both volatile)
    wire    one per connection ever opened: messages on their way up, acks on their way down
    Server  `Gateway.serve` (the phase of each connection, the registry entry; volatile) and the
            database (`ingested` and everything else; durable)

  A label is one step between two awaits.  Frames are delivered in order, so a connection that
  dies delivers a prefix of what was sent; the rest is lost with it.  The Agent does not see the
  Server's side die (and the other way round) before its own `drop`/`close` step, so old wires can
  still be processed while a new one is open.

  1. `Setup` : what is fixed in a run: the Agent's identity, the callback.
  2. `State`, with two ghost fields: `history`, every event ever appended, and `effects`, every
     callback whose writes committed.
  3. One function per step, `step`, and the machine.

  What runs beside the event path appears as a step that may do anything to what it can write:
  `foreign` is any other agent or stream being ingested, `otherWrite` any other transaction on the
  business tables.  No step removes rows of `ingested`, and none rewinds the sender.
-/
import Air780eHub.Agent.EventTable
import Air780eHub.Lib.Machine
import Air780eHub.Server.Ingest

namespace Air780eHub.Delivery

universe u v w x

/-- `BATCH` of `link.py`: how many rows the sender reads at a time. -/
def BATCH : Nat := 200

/-- What is fixed in a run.  `ω` is what the callback reads beside the frame (clock, random
    numbers, failures of its own), `ρ` its result and `ε` what it raises. -/
structure Setup (β : Type u) (ω : Type v) (ε : Type w) (ρ : Type x) where
  agentId  : String
  version  : String
  /-- The label the Agent's database got when it was created. -/
  streamId : String
  /-- Python's text for a list or dictionary. -/
  repr     : Value → String
  /-- `Gateway._apply`, run inside the transaction. -/
  apply    : ω → IngestKey → Frame → β → Except ε (ρ × β)
  /-- `UPDATE agents SET last_seq = MAX(last_seq, ?)`. -/
  noteSeq  : IngestKey → β → β

/-! ## States -/

/-- What the Agent sends. -/
inductive Message
  | hello (lastSeq : Nat) (devices : List Value)
  | event (e : Event)

/-- The event in a message. -/
def Message.event? : Message → Option Event
  | .hello _ _ => none
  | .event e   => some e

/-- Where `serve` is with a connection.  In `registering` the registry entry is reserved and its
    rows are being written; in `closing` the entry is still held while the disconnect is written. -/
inductive Phase
  | awaitingHello | registering | registered | closing | closed
deriving DecidableEq

/-- The Server still reads from a connection in this phase. -/
def Phase.open? : Phase → Bool
  | .awaitingHello | .registering | .registered => true
  | .closing | .closed                          => false

/-- One connection. -/
structure Wire where
  phase    : Phase
  /-- `(agent_id, stream_id)` of the `AgentConnection`. -/
  identity : String × String
  /-- Sent by the Agent, not yet read by the Server. -/
  toServer : List Message
  /-- Sent by the Server, not yet read by the Agent. -/
  toAgent  : List Frame

/-- A connection nobody opened yet. -/
def Wire.unopened : Wire := ⟨.closed, ("", ""), [], []⟩

/-- A connection that was just opened: the hello is on its way. -/
def Wire.greeting (lastSeq : Nat) (devices : List Value) : Wire :=
  ⟨.awaitingHello, ("", ""), [.hello lastSeq devices], []⟩

/-- The Agent's side of its current connection. -/
structure Session where
  wire        : Nat
  /-- `_sent_through`. -/
  sentThrough : Nat
  /-- What is left of the list the sender loops over. -/
  batch       : List Event
  /-- Handed to the socket, `_sent_through` not yet set. -/
  sending     : Option Event

/-- The highest number handed to the socket on this connection. -/
def Session.frontier (ss : Session) : Nat :=
  match ss.sending with
  | some e => e.seq
  | none   => ss.sentThrough

structure State (β : Type u) where
  events  : EventTable
  session : Option Session
  wires   : Nat → Wire
  /-- How many connections were opened; the next one gets this number. -/
  opened  : Nat
  /-- The connection that holds the registry entry of this agent. -/
  owner   : Option Nat
  db      : Database β
  /-- Ghost: every event ever appended. -/
  history : List Event
  /-- Ghost: the key and frame of every callback whose writes committed. -/
  effects : List (IngestKey × Frame)

variable {β : Type u} {ω : Type v} {ε : Type w} {ρ : Type x}

/-- The ghost log after a transaction that did not fail: a fresh event is entered. -/
def logEffect (effects : List (IngestKey × Frame)) (r : Option ρ) (key : IngestKey) (f : Frame) :
    List (IngestKey × Frame) :=
  if r.isSome then effects ++ [(key, f)] else effects

/-- Replace one wire. -/
def State.setWire (s : State β) (i : Nat) (w : Wire) : State β :=
  { s with wires := fun j => if j = i then w else s.wires j }

/-! ## The Agent's steps -/

namespace Setup

variable (S : Setup β ω ε ρ)

/-- The hello of `_connect_once`. -/
def helloFrame (lastSeq : Nat) (devices : List Value) : Frame :=
  [("type", .str "hello"), ("agent_id", .str S.agentId), ("version", .str S.version),
   ("protocol_version", .int 1), ("durable_commands", .int 1), ("last_seq", .int lastSeq),
   ("stream_id", .str S.streamId), ("devices", .arr devices)]

/-- The frame on the wire. -/
def frame : Message → Frame
  | .hello lastSeq devices => S.helloFrame lastSeq devices
  | .event e               => e.toFrame

end Setup

/-- `append_event`. -/
def append (s : State β) (kind : String) (payload : Payload) : State β :=
  { s with
    events  := s.events.appendEvent kind payload
    history := s.history ++ [s.events.appended kind payload] }

/-- `_connect_once` up to the hello: a new connection, and the mark back at 0. -/
def connect (s : State β) (devices : List Value) : Option (State β) :=
  match s.session with
  | some _ => none
  | none   => some
    { s with
      session := some ⟨s.opened, 0, [], none⟩
      wires   := fun j => if j = s.opened then .greeting s.events.lastSeq devices else s.wires j
      opened  := s.opened + 1 }

/-- The head of the sender's loop: read the queue, keep what the mark does not cover. -/
def fetchBatch (s : State β) : Option (State β) :=
  match s.session with
  | some ⟨w, mark, [], none⟩ =>
    let batch := (s.events.unackedEvents BATCH).filter fun e => decide (mark < e.seq)
    some { s with session := some ⟨w, mark, batch, none⟩ }
  | _ => none

/-- `await self._send(ws, event.to_frame())`.  On a connection the Server has left the frame is
    lost. -/
def send (s : State β) : Option (State β) :=
  match s.session with
  | some ⟨w, mark, e :: rest, none⟩ =>
    let s' := { s with session := some ⟨w, mark, rest, some e⟩ }
    some (if (s.wires w).phase.open? then
      s'.setWire w { s.wires w with toServer := (s.wires w).toServer ++ [.event e] } else s')
  | _ => none

/-- `self._sent_through = event.seq`. -/
def markSent (s : State β) : Option (State β) :=
  match s.session with
  | some ⟨w, _, rest, some e⟩ => some { s with session := some ⟨w, e.seq, rest, none⟩ }
  | _                         => none

/-- `_handle_ack` up to its first statement, whose effect on the queue is `ack`. -/
def handleAck (ack : EventTable → Int → EventTable) (t : EventTable) (frame : Frame) :
    EventTable :=
  match frame.get "seq" with
  | .int n  => ack t n
  | .bool b => ack t (if b then 1 else 0)
  | _       => t

/-- The receiver reads the next frame of its connection. -/
def receiveAck (s : State β) (ack : EventTable → Int → EventTable) : Option (State β) :=
  match s.session with
  | none    => none
  | some ss => match (s.wires ss.wire).toAgent with
    | []        => none
    | f :: rest => some
      { s.setWire ss.wire { s.wires ss.wire with toAgent := rest } with
        events := handleAck ack s.events f }

/-- The Agent's side of the connection ends. -/
def drop (s : State β) : State β := { s with session := none }

/-! ## The Server's steps -/

/-- The Server stops reading a connection: what was in flight is lost. -/
def Wire.close (w : Wire) (phase : Phase) : Wire := { w with phase, toServer := [] }

namespace Setup

variable (S : Setup β ω ε ρ)

/-- `serve` reads the first frame: a hello with a usable and free agent id reserves the registry
    entry; anything else ends the connection. -/
def hello (s : State β) (i : Nat) : Option (State β) :=
  match (s.wires i).phase, (s.wires i).toServer with
  | .awaitingHello, m :: rest =>
    if (S.frame m).get "type" = .str "hello" then
      match helloAgentId S.repr (S.frame m) with
      | none    => some (s.setWire i ((s.wires i).close .closed))
      | some id =>
        if s.owner.isSome then some (s.setWire i ((s.wires i).close .closed))
        else some
          { s.setWire i { s.wires i with
              phase    := .registering
              identity := (id, helloStreamId S.repr (S.frame m))
              toServer := rest } with owner := some i }
    else some (s.setWire i ((s.wires i).close .closed))
  | _, _ => none

/-- How `_ingest` ends once the event is committed: the ack is sent, left out because the
    connection is no longer ready, or fails to be sent. -/
inductive Reply
  | acked | notReady | failed
deriving DecidableEq

/-- The ack of a sequence number. -/
def ackFrame (seq : Nat) : Frame := [("type", .str "ack"), ("seq", .int seq)]

/-- `_ingest` of an event frame on a registered connection.  A number that is not valid is
    neither applied nor acked; an error of the transaction closes the connection. -/
def ingest (s : State β) (i : Nat) (w : Wire) (f : Frame) (env : ω) (reply : Reply) : State β :=
  match f.get "seq" with
  | .int n =>
    if validSeq (.int n) then
      let key : IngestKey := ⟨w.identity.1, w.identity.2, n.toNat⟩
      match s.db.applyEvent key (S.apply env key f) (S.noteSeq key) with
      | .error _    => s.setWire i (w.close .closing)
      | .ok (r, db) =>
        let s' := { s with
          db      := db
          effects := logEffect s.effects r key f }
        match reply with
        | .acked    => s'.setWire i { w with toAgent := w.toAgent ++ [ackFrame n.toNat] }
        | .notReady => s'.setWire i w
        | .failed   => s'.setWire i (w.close .closing)
    else s.setWire i w
  | _ => s.setWire i w

/-- `serve` reads the next frame of a registered connection.  A second hello ends it. -/
def receive (s : State β) (i : Nat) (env : ω) (reply : Reply) : Option (State β) :=
  match (s.wires i).phase, (s.wires i).toServer with
  | .registered, m :: rest =>
    if (S.frame m).get "type" = .str "hello" then some (s.setWire i ((s.wires i).close .closing))
    else some (S.ingest s i { s.wires i with toServer := rest } (S.frame m) env reply)
  | _, _ => none

/-- Another agent or another stream is ingested. -/
def foreign (s : State β) (key : IngestKey) (f : Frame) (env : ω) : Option (State β) :=
  if key.agentId = pyStrip S.agentId ∧ key.streamId = helloStreamId S.repr (S.helloFrame 0 []) then
    none
  else match s.db.applyEvent key (S.apply env key f) (S.noteSeq key) with
    | .error _    => some s
    | .ok (r, db) => some { s with
        db      := db
        effects := logEffect s.effects r key f }

end Setup

/-- The registration transaction ends: the connection is ready, or its cleanup begins. -/
def persist (s : State β) (i : Nat) (ok : Bool) (business : β) : Option (State β) :=
  match (s.wires i).phase with
  | .registering => some
    { s.setWire i (if ok then { s.wires i with phase := .registered }
        else (s.wires i).close .closing) with
      db := { s.db with business } }
  | _ => none

/-- The connection is lost on the Server's side, or the Server refuses what it reads. -/
def disconnect (s : State β) (i : Nat) : Option (State β) :=
  match (s.wires i).phase with
  | .awaitingHello => some (s.setWire i ((s.wires i).close .closed))
  | .registered    => some (s.setWire i ((s.wires i).close .closing))
  | _              => none

/-- `_unregister` is done: the registry entry is free again. -/
def release (s : State β) (i : Nat) (business : β) : Option (State β) :=
  match (s.wires i).phase with
  | .closing => some
    { s.setWire i ((s.wires i).close .closed) with
      owner := if s.owner = some i then none else s.owner
      db    := { s.db with business } }
  | _ => none

/-- The Server process dies and starts again: the database stays, every connection is gone. -/
def restart (s : State β) : State β :=
  { s with wires := fun j => (s.wires j).close .closed, owner := none }

/-! ## The machine -/

/-- One step between two awaits. -/
inductive Action (β : Type u) (ω : Type v)
  | append (kind : String) (payload : Payload)
  | trim (keep : Int)
  | connect (devices : List Value)
  | fetchBatch
  | send
  | markSent
  | receiveAck
  /-- The Agent dies between the two statements of `ack_through`. -/
  | tornAck
  /-- The connection ends for the Agent, or the Agent dies and starts again. -/
  | drop
  | hello (i : Nat)
  | persist (i : Nat) (ok : Bool) (business : β)
  | receive (i : Nat) (env : ω) (reply : Setup.Reply)
  | disconnect (i : Nat)
  | release (i : Nat) (business : β)
  | restart
  | foreign (key : IngestKey) (f : Frame) (env : ω)
  | otherWrite (business : β)

/-- One step. -/
def Setup.step (S : Setup β ω ε ρ) (s : State β) : Action β ω → Option (State β)
  | .append kind payload   => some (append s kind payload)
  | .trim keep             => some { s with events := s.events.trimEvents keep }
  | .connect devices       => connect s devices
  | .fetchBatch            => fetchBatch s
  | .send                  => send s
  | .markSent              => markSent s
  | .receiveAck            => receiveAck s EventTable.ackThrough
  | .tornAck               => (receiveAck s EventTable.markAcked).map drop
  | .drop                  => some (drop s)
  | .hello i               => S.hello s i
  | .persist i ok business => persist s i ok business
  | .receive i env reply   => S.receive s i env reply
  | .disconnect i          => disconnect s i
  | .release i business    => release s i business
  | .restart               => some (restart s)
  | .foreign key f env     => S.foreign s key f env
  | .otherWrite business   => some { s with db := { s.db with business } }

/-- Both databases fresh, nothing connected. -/
def State.init (business : β) : State β :=
  { events := .empty, session := none, wires := fun _ => .unopened, opened := 0, owner := none
    db := ⟨[], business⟩, history := [], effects := [] }

/-- The event path. -/
def Setup.machine (S : Setup β ω ε ρ) : Machine (State β) (Action β ω) where
  Start s := ∃ business, s = .init business
  step    := S.step

end Air780eHub.Delivery
