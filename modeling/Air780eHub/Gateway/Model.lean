/-
  The gateway's registry, its database worker and the online restore, as one machine.

    sockets   every connection ever accepted: where `serve` is with it, and its `AgentConnection`
              once it has one
    gateway   the registry `connections`, the counter of generations, the pending commands
    database  one worker that runs operations in the order in which they were handed to `db.run`,
              and the rows that say who is connected
    restore   how far `_switch` is

  A label is one step between two awaits.  A connection reserves its agent id in the step that
  reads the hello, and keeps it until its disconnect was written.  A cancelled task takes back an
  operation it still waits to hand over; one that was handed over runs.

  `rebuild_gateway`, `rebuild_services` and a new process make a NEW gateway: the connections of
  the old one carry an older `epoch`, and `retiring_for_restore` of their gateway stays set for
  ever.  `retired` is that flag for the current gateway.

  Ghost fields: `writes`, the connect and disconnect writes in the order they ran, and `futures`,
  every future a `call` ever waited on, with what completed it.
-/
import Air780eHub.Gateway.Rows
import Air780eHub.Lib.Machine

namespace Air780eHub.Gateway

/-! ## States -/

/-- How an operation of the database worker ended: done, a replay (an event only), or an error
    after so many of its statements. -/
inductive Outcome
  | done | duplicate | fault (statements : Nat)
deriving DecidableEq

/-- The operation did not raise. -/
def Outcome.ok : Outcome → Bool
  | .fault _ => false
  | _        => true

/-- Where `serve` is with a connection. -/
inductive Phase
  | awaitingHello
  /-- The id is reserved; `_persist_registration` was handed to the worker. -/
  | registering
  /-- It ran. -/
  | persisted (ok : Bool)
  /-- In the receive loop. -/
  | serving
  /-- `apply_event` of a frame was handed to the worker. -/
  | ingesting (frame : Frame)
  /-- It ran. -/
  | ingested (frame : Frame) (outcome : Outcome)
  /-- `_persist_disconnect` was handed to the worker. -/
  | closing
  /-- It ran, or was taken back. -/
  | disconnected
  | closed

/-- The connection has an `AgentConnection` whose cleanup is not done. -/
def Phase.held : Phase → Bool
  | .awaitingHello | .closed => false
  | _                        => true

/-- The connection's receive loop runs. -/
def Phase.live : Phase → Bool
  | .serving | .ingesting _ | .ingested _ _ => true
  | _                                       => false

/-- One connection, with its `AgentConnection` once it has one. -/
structure Socket where
  /-- The gateway object that serves it. -/
  epoch      : Nat
  phase      : Phase
  agentId    : String
  generation : Nat
  ready      : Bool
  durable    : Bool
  devices    : List Frame

/-- A connection nobody opened yet, or that was refused. -/
def Socket.none : Socket := ⟨0, .closed, "", 0, false, false, []⟩

/-- An entry of `_pending`. -/
structure Pending where
  cmdId      : String
  agentId    : String
  generation : Nat
  future     : Nat

/-- What completed a future: a result, the loss of the connection, or the caller's own timeout,
    cancellation or failed send. -/
inductive Completion
  | answered (socket : Nat) (frame : Frame)
  | abandoned (socket : Nat)
  | withdrawn

/-- Ghost: a future, the command it waits for and the connection that sent it. -/
structure Future where
  id         : Nat
  cmdId      : String
  agentId    : String
  generation : Nat
  socket     : Nat
  epoch      : Nat
  outcome    : Option Completion

/-- An operation handed to the database worker. -/
inductive Job
  | persist (i : Nat)
  | event (i : Nat)
  | disconnect (i : Nat)
  | markAll
deriving DecidableEq

/-- How far `_switch` is. -/
inductive Restore
  | idle
  /-- The registry is retired; requests are drained. -/
  | draining
  /-- `mark_all_agents_disconnected` was handed to the worker. -/
  | marking
  /-- It ran; the snapshot is taken. -/
  | marked
  /-- The database was replaced. -/
  | replaced (snapshot : Rows)
  /-- `reset_restored_runtime` ran. -/
  | reset (snapshot : Rows)
  /-- Switch and rollback failed. -/
  | manual

/-- Ghost: a connect (`connected`) or disconnect write of a connection. -/
structure WriteEntry where
  agentId    : String
  generation : Nat
  connected  : Bool

structure State where
  epoch       : Nat
  retired     : Bool
  registry    : String → Option Nat
  /-- The next generation. -/
  generations : Nat
  pending     : List Pending
  sockets     : Nat → Socket
  /-- How many connections were accepted; the next one gets this number. -/
  opened      : Nat
  jobs        : List Job
  rows        : Rows
  restore     : Restore
  writes      : List WriteEntry
  futures     : List Future

/-- Replace one connection. -/
def State.setSocket (s : State) (i : Nat) (c : Socket) : State :=
  { s with sockets := fun j => if j = i then c else s.sockets j }

/-- A new phase for a connection. -/
def State.setPhase (s : State) (i : Nat) (phase : Phase) : State :=
  s.setSocket i { s.sockets i with phase }

/-- `retiring_for_restore` of the connection's gateway. -/
def State.stale (s : State) (i : Nat) : Bool :=
  decide ((s.sockets i).epoch ≠ s.epoch) || s.retired

/-! ## Pending commands -/

/-- The entry waits for this connection. -/
def Socket.owes (c : Socket) (p : Pending) : Bool :=
  decide (p.agentId = c.agentId) && decide (p.generation = c.generation)

/-- `_abandon_pending`. -/
def abandonPending (s : State) (i : Nat) : State :=
  { s with
    pending := deleteWhere (s.sockets i).owes s.pending
    futures := updateWhere
      (fun f => f.outcome.isNone &&
        s.pending.any fun p => (s.sockets i).owes p && decide (p.future = f.id))
      (fun f => { f with outcome := some (.abandoned i) }) s.futures }

/-- A future is completed, unless it was. -/
def complete (futures : List Future) (future : Nat) (c : Completion) : List Future :=
  updateWhere (fun f => decide (f.id = future) && f.outcome.isNone)
    (fun f => { f with outcome := some c }) futures

variable (repr : Value → String)

/-- `_resolve_command`. -/
def resolveCommand (s : State) (i : Nat) (frame : Frame) : State :=
  match s.pending.find? fun p => p.cmdId = pyStr repr (frame.get "cmd_id") with
  | none   => s
  | some p =>
    if (s.sockets i).owes p then
      { s with
        pending := deleteWhere (·.cmdId = pyStr repr (frame.get "cmd_id")) s.pending
        futures := complete s.futures p.future (.answered i frame) }
    else s

/-- `call` up to its await, on a connection without durable commands or for `sync_tasks`. -/
def call (s : State) (agentId : String) (frame : Frame) (cmdId : String) : Option State :=
  match s.registry agentId with
  | none   => none
  | some i =>
    if (s.sockets i).ready ∧ ¬s.retired ∧
        ¬((s.sockets i).durable ∧ frame.get "type" ≠ .str "sync_tasks") then
      some { s with
        pending := deleteWhere (·.cmdId = cmdId) s.pending ++
          [⟨cmdId, agentId, (s.sockets i).generation, s.futures.length⟩]
        futures := s.futures ++
          [⟨s.futures.length, cmdId, agentId, (s.sockets i).generation, i, s.epoch, none⟩] }
    else none

/-- The `finally` of `call`: the caller has its answer, or gave up. -/
def endCall (s : State) (k : Nat) : Option State :=
  (s.futures.find? fun f => f.id = k).map fun f =>
    { s with
      pending := if f.epoch = s.epoch then deleteWhere (·.cmdId = f.cmdId) s.pending
        else s.pending
      futures := complete s.futures k .withdrawn }

/-! ## Connections -/

/-- `_unregister` up to its await. -/
def unregister (s : State) (i : Nat) : State :=
  if s.stale i then
    (if (s.sockets i).epoch = s.epoch then abandonPending s i else s).setSocket i
      { s.sockets i with ready := false, phase := .closed }
  else if s.registry (s.sockets i).agentId = some i then
    { (abandonPending s i).setSocket i { s.sockets i with ready := false, phase := .closing } with
      jobs := s.jobs ++ [.disconnect i] }
  else s.setPhase i .closed

/-- `await websocket.accept()`; the middleware refuses connections during a restore. -/
def accept (s : State) : Option State :=
  match s.restore with
  | .idle => some
    { s.setSocket s.opened { Socket.none with epoch := s.epoch, phase := .awaitingHello } with
      opened := s.opened + 1 }
  | _ => none

/-- `frame.get("durable_commands") == 1`. -/
def equalsOne : Value → Bool
  | .int n   => decide (n = 1)
  | .bool b  => b
  | .float t => decide (t = "1.0")
  | _        => false

/-- The most devices a hello may list. -/
def MAX_HELLO_DEVICES : Nat := 256

/-- The dictionaries among the devices of a hello. -/
def helloDevices (frame : Frame) : List Frame :=
  match frame.get "devices" with
  | .arr xs => (xs.filterMap fun x => match x with
      | .obj fs => some fs
      | _       => none).take MAX_HELLO_DEVICES
  | _ => []

/-- `serve` reads the first frame. -/
def hello (s : State) (i : Nat) (frame : Frame) : Option State :=
  match (s.sockets i).phase with
  | .awaitingHello =>
    if frame.get "type" ≠ .str "hello" then some (s.setPhase i .closed)
    else match helloAgentId repr frame with
      | none         => some (s.setPhase i .closed)
      | some agentId =>
        -- the registry of a retired gateway is empty, and stays so
        if s.stale i then some (s.setPhase i .closed)
        else if (s.registry agentId).isSome then some (s.setPhase i .closed)
        else some
          { s.setSocket i { s.sockets i with
              phase      := .registering
              agentId    := agentId
              generation := s.generations
              ready      := false
              durable    := equalsOne (frame.get "durable_commands")
              devices    := helloDevices frame } with
            registry    := fun a => if a = agentId then some i else s.registry a
            generations := s.generations + 1
            jobs        := s.jobs ++ [.persist i] }
  | _ => none

/-- The registration's database operation is over for the task: it is ready, or gives up. -/
def resumeRegister (s : State) (i : Nat) (cancelled : Bool) : Option State :=
  match (s.sockets i).phase with
  | .persisted ok => some (
    if ok && !cancelled && !s.stale i then
      s.setSocket i { s.sockets i with phase := .serving, ready := true }
    else unregister s i)
  | _ => none

/-- `serve` reads the next frame: a second hello ends the connection, and a frame with a sequence
    number goes to the worker. -/
def receive (s : State) (i : Nat) (frame : Frame) : Option State :=
  match (s.sockets i).phase with
  | .serving => some (
    if frame.get "type" = .str "hello" then unregister s i
    else if s.stale i || !(s.sockets i).ready || !validSeq (frame.get "seq") then s
    else { s.setPhase i (.ingesting frame) with jobs := s.jobs ++ [.event i] })
  | _ => none

/-- `_after_apply` of a fresh event. -/
def afterApply (s : State) (i : Nat) (frame : Frame) (outcome : Outcome) : State :=
  if outcome = .done ∧ frame.get "type" = .str "cmd_result" then resolveCommand repr s i frame
  else s

/-- `_ingest` after its database operation: an error ends the connection, a fresh `cmd_result`
    may answer a command, and the ack is sent. -/
def afterIngest (s : State) (i : Nat) (sent : Bool) : Option State :=
  match (s.sockets i).phase with
  | .ingested frame outcome => some (
    match outcome with
    | .fault _ => unregister s i
    | _ =>
      if s.stale i || !(s.sockets i).ready then s.setPhase i .serving
      else if sent then (afterApply repr s i frame outcome).setPhase i .serving
      else unregister (afterApply repr s i frame outcome) i)
  | _ => none

/-- The connection is lost, or `_unregister` is called for it once more. -/
def leave (s : State) (i : Nat) : Option State :=
  match (s.sockets i).phase with
  | .awaitingHello => some (s.setPhase i .closed)
  | .serving       => some (unregister s i)
  | .closed        => if i < s.opened then some (unregister s i) else none
  | _              => none

/-- The task is cancelled while it waits to hand its operation over, or after an event of it was
    applied. -/
def cancel (s : State) (i : Nat) : Option State :=
  match (s.sockets i).phase with
  | .registering => some (unregister { s with jobs := s.jobs.erase (.persist i) } i)
  | .ingesting _ => some (unregister { s with jobs := s.jobs.erase (.event i) } i)
  | .ingested _ _ => some (unregister s i)
  | .closing     => some ({ s with jobs := s.jobs.erase (.disconnect i) }.setPhase i .disconnected)
  | _            => none

/-- The `finally` of `_unregister`: the registry entry is released if it is this connection's. -/
def finish (s : State) (i : Nat) : Option State :=
  match (s.sockets i).phase with
  | .disconnected => some { s.setPhase i .closed with
      registry := if s.stale i then s.registry
        else if s.registry (s.sockets i).agentId = some i then
          fun a => if a = (s.sockets i).agentId then none else s.registry a
        else s.registry }
  | _ => none

/-! ## The database worker -/

/-- The statements that ran. -/
def executed (ws : List Write) : Outcome → List Write
  | .fault n => ws.take n
  | _        => ws

/-- A sequence of connect or disconnect statements is run for a connection. -/
def runWrites (s : State) (i : Nat) (ws : List Write) (connected : Bool) : State :=
  { s with
    rows   := s.rows.writes (s.sockets i).agentId ws
    writes := if ws.isEmpty then s.writes
      else s.writes ++ [⟨(s.sockets i).agentId, (s.sockets i).generation, connected⟩] }

/-- The rows an event writes: `_apply_status` upserts the device under the frame's device name. -/
def eventWrites (frame : Frame) : List Write :=
  if frame.get "type" = .str "status" then
    [.device (("name", frame.getD "device" (.str "")) :: frame)]
  else []

/-- The worker runs the operation at the head of its queue.  An event is one transaction. -/
def work (s : State) (outcome : Outcome) : Option State :=
  match s.jobs with
  | []           => none
  | .persist i :: rest =>
    -- `_persist_registration` looks at the flag itself
    some (if s.stale i then { s with jobs := rest }.setPhase i (.persisted false)
      else (runWrites { s with jobs := rest } i
        (executed (registrationWrites (s.sockets i).devices) outcome) true).setPhase i
          (.persisted outcome.ok))
  | .event i :: rest =>
    match (s.sockets i).phase with
    | .ingesting frame => some ({ s with
        jobs := rest
        rows := if outcome = Outcome.done then
          s.rows.writes (s.sockets i).agentId (eventWrites frame) else s.rows }.setPhase i
            (.ingested frame outcome))
    | _ => some { s with jobs := rest }
  | .disconnect i :: rest =>
    some (if s.stale i then { s with jobs := rest }.setPhase i .disconnected
      else (runWrites { s with jobs := rest } i (executed disconnectWrites outcome) false).setPhase
        i .disconnected)
  | .markAll :: rest => some { s with
      jobs    := rest
      rows    := s.rows.markAll
      restore := .marked }

/-! ## The online restore -/

/-- The entry belongs to a registered connection. -/
def State.registered (s : State) (p : Pending) : Bool :=
  match s.registry p.agentId with
  | some i => decide ((s.sockets i).generation = p.generation)
  | none   => false

/-- `retire_for_restore`. -/
def retire (s : State) : Option State :=
  match s.restore with
  | .idle => some { s with
      retired  := true
      sockets  := fun i =>
        if s.registry (s.sockets i).agentId = some i ∧ (s.sockets i).epoch = s.epoch then
          { s.sockets i with ready := false } else s.sockets i
      registry := fun _ => none
      pending  := deleteWhere s.registered s.pending
      futures  := updateWhere (fun f => f.outcome.isNone &&
          s.pending.any fun p => s.registered p && decide (p.future = f.id))
        (fun f => { f with outcome := some (.abandoned ((s.registry f.agentId).getD f.socket)) })
        s.futures
      restore  := .draining }
  | _ => none

/-- A new gateway object, and the restore is over. -/
def rebuild (s : State) : State :=
  { s with
    epoch       := s.epoch + 1
    retired     := false
    registry    := fun _ => none
    generations := 1
    pending     := []
    restore     := .idle }

/-- One step of `_switch`. -/
inductive RestoreStep
  | retire
  /-- Requests do not drain, or a statement before `mark_all_agents_disconnected` raises. -/
  | abort
  | mark
  /-- Not enough space, or the snapshot cannot be written. -/
  | fail
  /-- `replace_prepared`: the rows of the candidate. -/
  | replace (rows : Rows)
  | reset
  | rollback
  | succeed
  | giveUp

/-- `_switch`. -/
def switch (s : State) : RestoreStep → Option State
  | .retire => retire s
  | .abort  => match s.restore with
    | .draining => some (rebuild s)
    | _         => none
  | .mark => match s.restore with
    | .draining => some { s with jobs := s.jobs ++ [.markAll], restore := .marking }
    | _         => none
  | .fail => match s.restore with
    | .marked => some (rebuild s)
    | _       => none
  | .replace rows => match s.restore with
    | .marked => some { s with rows, restore := .replaced s.rows }
    | _       => none
  | .reset => match s.restore with
    | .replaced snapshot => some { s with rows := s.rows.markAll, restore := .reset snapshot }
    | _                  => none
  | .rollback => match s.restore with
    | .replaced snapshot | .reset snapshot => some (rebuild { s with rows := snapshot })
    | _                                    => none
  | .succeed => match s.restore with
    | .reset _ => some (rebuild s)
    | _        => none
  | .giveUp => match s.restore with
    | .replaced _ | .reset _ => some { s with restore := .manual }
    | _                      => none

/-- The Server process dies and starts again: nothing is connected, whatever was. -/
def restart (s : State) : State :=
  { rebuild s with
    sockets := fun i => { s.sockets i with phase := .closed, ready := false }
    jobs    := []
    rows    := s.rows.markAll }

/-! ## The machine -/

/-- One step between two awaits. -/
inductive Action
  | accept
  | hello (i : Nat) (frame : Frame)
  | resumeRegister (i : Nat) (cancelled : Bool)
  | receive (i : Nat) (frame : Frame)
  | afterIngest (i : Nat) (sent : Bool)
  | leave (i : Nat)
  | cancel (i : Nat)
  | finish (i : Nat)
  | work (outcome : Outcome)
  | call (agentId : String) (frame : Frame) (cmdId : String)
  | endCall (k : Nat)
  | switch (r : RestoreStep)
  | restart

/-- One step. -/
def step (s : State) : Action → Option State
  | .accept                     => accept s
  | .hello i frame              => hello repr s i frame
  | .resumeRegister i cancelled => resumeRegister s i cancelled
  | .receive i frame            => receive s i frame
  | .afterIngest i sent         => afterIngest repr s i sent
  | .leave i                    => leave s i
  | .cancel i                   => cancel s i
  | .finish i                   => finish s i
  | .work outcome               => work s outcome
  | .call agentId frame cmdId   => call s agentId frame cmdId
  | .endCall k                  => endCall s k
  | .switch r                   => switch s r
  | .restart                    => some (restart s)

/-- A process that just started: `AppState.build` marked everything disconnected. -/
def State.init (rows : Rows) : State :=
  { epoch := 0, retired := false, registry := fun _ => none, generations := 1, pending := []
    sockets := fun _ => Socket.none, opened := 0, jobs := [], rows := rows.markAll
    restore := .idle, writes := [], futures := [] }

/-- The gateway. -/
def machine : Machine State Action where
  Start s := ∃ rows, s = .init rows
  step    := step repr

end Air780eHub.Gateway
