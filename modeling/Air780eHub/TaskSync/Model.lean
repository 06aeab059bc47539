/-
  Task configuration sync, both programs and the connections between them, as one machine.

    Server  the task table (`tasks` is what `tasks_for` returns for this agent), the `agents` row,
            and for each connection the phase of `handle`, its `tasks_sync_id` and where
            `push_tasks` is under its lock
    wire    one per connection ever opened: sync frames on their way down, in order
    Agent   the current connection, the FIFO control queue of the dispatcher (the sync frames in
            it), the task store, and the receipts it ever appended

  A label is one step between two awaits.  The tasks may be edited between any two of them.  A
  push may be cancelled, or its connection replaced, at every await.  A receipt may be delivered
  any time after it was appended and any number of times: that it is delivered at all, and once,
  is the event path's business and not assumed here.

  `secrets.token_hex` is taken at its word: the id it returns was not used before.

  Three ghost fields: `begun`, every sync ever begun, in order; `applied`, every list the Agent
  ever applied from a sync frame, in order; and per connection `openedAt`, how many syncs had begun
  when it was opened.
-/
import Air780eHub.Lib.Machine
import Air780eHub.TaskSync.Server

namespace Air780eHub.TaskSync

/-! ## States -/

/-- Where `handle` is with a connection. -/
inductive Phase
  | opened | registering | ready | closing | closed
deriving DecidableEq

/-- Where `push_tasks` is with a connection, under its `tasks_sync_lock`. -/
inductive Push
  /-- Nobody holds the lock. -/
  | idle
  /-- The connection was current and ready; `_prepare_task_sync` is queued. -/
  | checked
  /-- `_prepare_task_sync` has run. -/
  | prepared (p : Prepared)
  /-- `connection.tasks_sync_id` is set, the frame is to be sent. -/
  | sending (p : Prepared)
  /-- The send raised; the failure is to be written. -/
  | failing (p : Prepared)

/-- The frame a push sends. -/
def Prepared.sync (p : Prepared) : Sync := ⟨p.tasks, p.revision, p.syncId⟩

/-- One connection, with the ghost mark of when it was opened. -/
structure Conn where
  phase    : Phase
  /-- `tasks_sync_id`. -/
  syncId   : String
  push     : Push
  /-- Sent by the Server, not yet read by the Agent. -/
  wire     : List Sync
  openedAt : Nat

/-- A connection that was just opened. -/
def Conn.open (openedAt : Nat) : Conn := ⟨.opened, "", .idle, [], openedAt⟩

structure State where
  tasks    : List Value
  row      : Option AgentRow
  conns    : Nat → Conn
  /-- How many connections were opened; the next one gets this number. -/
  opened   : Nat
  /-- The connection that holds the registry entry of this agent. -/
  owner    : Option Nat
  /-- The Agent's connection. -/
  session  : Option Nat
  /-- The sync frames in the Agent's control queue. -/
  queue    : List Sync
  store    : TaskStore
  /-- Every `tasks_applied` payload the Agent ever appended. -/
  receipts : List Frame
  /-- Ghost: id and revision of every sync ever begun. -/
  begun    : List (String × String)
  /-- Ghost: every sync frame the Agent applied. -/
  applied  : List Sync

/-- Replace one connection. -/
def State.setConn (s : State) (i : Nat) (c : Conn) : State :=
  { s with conns := fun j => if j = i then c else s.conns j }

@[simp] theorem State.setConn_self (s : State) (i : Nat) (c : Conn) :
    (s.setConn i c).conns i = c := if_pos rfl

theorem State.setConn_other (s : State) {i j : Nat} (c : Conn) (h : j ≠ i) :
    (s.setConn i c).conns j = s.conns j := if_neg h

/-! ## The Server's connections -/

/-- The hello is read: the registry entry is reserved, or the connection refused. -/
def hello (s : State) (i : Nat) : Option State :=
  match (s.conns i).phase with
  | .opened => some (if s.owner.isSome then s.setConn i { s.conns i with phase := .closed }
      else { s.setConn i { s.conns i with phase := .registering } with owner := some i })
  | _ => none

/-- `_persist_registration` inserts the row if there is none. -/
def persist (s : State) (i : Nat) : Option State :=
  match (s.conns i).phase with
  | .registering => some { s with row := some (s.row.getD .fresh) }
  | _            => none

/-- `connection.ready = True`. -/
def becomeReady (s : State) (i : Nat) : Option State :=
  match (s.conns i).phase, s.row with
  | .registering, some _ => some (s.setConn i { s.conns i with phase := .ready })
  | _, _                 => none

/-- The connection is lost on the Server's side, or its registration fails. -/
def disconnect (s : State) (i : Nat) : Option State :=
  match (s.conns i).phase with
  | .opened                => some (s.setConn i { s.conns i with phase := .closed })
  | .registering | .ready  => some (s.setConn i { s.conns i with phase := .closing })
  | .closing | .closed     => none

/-- `_unregister` is done. -/
def release (s : State) (i : Nat) : Option State :=
  match (s.conns i).phase with
  | .closing => some { s.setConn i { s.conns i with phase := .closed } with
      owner := if s.owner = some i then none else s.owner }
  | _ => none

/-- The Server process dies and starts again.  What it had sent may still arrive. -/
def restart (s : State) : State :=
  { s with
    conns := fun j => { s.conns j with phase := .closed, push := .idle }
    owner := none }

/-! ## `push_tasks` -/

variable (E : Env)

/-- The connection is current and ready. -/
def State.current (s : State) (i : Nat) : Bool :=
  decide (s.owner = some i) && decide ((s.conns i).phase = .ready)

/-- The lock is taken and the connection found current. -/
def pushStart (s : State) (i : Nat) : Option State :=
  match (s.conns i).push with
  | .idle => if s.current i then some (s.setConn i { s.conns i with push := .checked }) else none
  | _     => none

/-- An id `secrets` may return. -/
def State.unused (s : State) (fresh : String) : Bool :=
  decide (fresh ≠ "") && decide (fresh ∉ s.begun.map Prod.fst)

/-- `_prepare_task_sync` for a connection. -/
def pushPrepare (s : State) (i : Nat) (fresh now : String) : Option State :=
  match (s.conns i).push with
  | .checked =>
    if s.unused fresh then
      match prepareTaskSync E s.row s.tasks (some (s.conns i).syncId) fresh now with
      | (row, p) => some { s.setConn i { s.conns i with push := .prepared p } with
          row   := row
          begun := if p.syncId = fresh then s.begun ++ [(fresh, p.revision)] else s.begun }
    else none
  | _ => none

/-- `_prepare_task_sync` without a connection, where it does not ask for the time. -/
def pushOffline (s : State) (fresh : String) : Option State :=
  if s.unused fresh then
    match prepareTaskSync E s.row s.tasks none fresh "" with
    | (row, p) => some { s with
        row   := row
        begun := if row.map AgentRow.tasksSyncId = some fresh then s.begun ++ [(fresh, p.revision)]
          else s.begun }
  else none

/-- The connection is looked at again, and takes the id of the prepared sync. -/
def pushRecheck (s : State) (i : Nat) : Option State :=
  match (s.conns i).push with
  | .prepared p => some (if s.current i then
      s.setConn i { s.conns i with
        syncId := p.syncId
        push   := if p.shouldSend then .sending p else .idle }
    else s.setConn i { s.conns i with push := .idle })
  | _ => none

/-- `connection.send` returns or raises; either way the frame may be on its way. -/
def pushSend (s : State) (i : Nat) (arrives ok : Bool) : Option State :=
  match (s.conns i).push with
  | .sending p => some (s.setConn i { s.conns i with
      wire := if arrives then (s.conns i).wire ++ [p.sync] else (s.conns i).wire
      push := if ok then .idle else .failing p })
  | _ => none

/-- `finish_task_sync` of a failed send. -/
def pushFail (s : State) (i : Nat) (now : String) : Option State :=
  match (s.conns i).push with
  | .failing p => some { s.setConn i { s.conns i with push := .idle } with
      row := s.row.map fun r => finishTaskSync r p.revision p.syncId false pushFailed now }
  | _ => none

/-- The push is cancelled, or a database operation of it raises. -/
def pushAbort (s : State) (i : Nat) : State :=
  s.setConn i { s.conns i with push := .idle }

/-- A receipt is ingested. -/
def deliver (s : State) (k : Nat) (now : String) : Option State :=
  (s.receipts[k]?).map fun frame =>
    { s with row := s.row.map fun r => applyTasksApplied r frame now }

/-! ## The Agent -/

/-- `_connect_once`. -/
def connect (s : State) : Option State :=
  match s.session with
  | some _ => none
  | none   => some { s.setConn s.opened (.open s.begun.length) with
      session := some s.opened
      opened  := s.opened + 1 }

/-- The connection ends for the Agent, or the Agent dies: `discard_queued`. -/
def drop (s : State) : State := { s with session := none, queue := [] }

/-- The receiver reads a frame.  One that the dispatcher does not accept ends the connection. -/
def receive (s : State) (accepted : Bool) : Option State :=
  match s.session with
  | none   => none
  | some i => match (s.conns i).wire with
    | []        => none
    | f :: rest =>
      let s' := s.setConn i { s.conns i with wire := rest }
      some (if accepted then { s' with queue := s.queue ++ [f] } else drop s')

/-- The frame carries a success receipt. -/
def succeeded (out : Option Frame) : Bool :=
  match out with
  | some r => decide (r.get "ok" = .bool true)
  | none   => false

/-- The control queue's worker runs `_cmd_sync_tasks` of the next frame. -/
def execute (s : State) (fault : Bool) : Option State :=
  match s.queue with
  | []        => none
  | f :: rest =>
    match cmdSyncTasks E s.store f.frame fault with
    | (store, out) => some { s with
        queue    := rest
        store    := store
        receipts := s.receipts ++ out.toList
        applied  := if succeeded out then s.applied ++ [f] else s.applied }

/-- The scheduler notes when a task ran and when it is to run next. -/
def noteRun (s : State) (id : Int) (last next : Option String) : State :=
  { s with store := { s.store with
      tasks := s.store.tasks.map fun r =>
        if r.id = id then { r with lastRunAt := last, nextRunAt := next } else r } }

/-! ## The machine -/

/-- One step between two awaits. -/
inductive Action
  | edit (tasks : List Value)
  | hello (i : Nat)
  | persist (i : Nat)
  | becomeReady (i : Nat)
  | disconnect (i : Nat)
  | release (i : Nat)
  | restart
  | pushStart (i : Nat)
  | pushPrepare (i : Nat) (fresh now : String)
  | pushOffline (fresh : String)
  | pushRecheck (i : Nat)
  | pushSend (i : Nat) (arrives ok : Bool)
  | pushFail (i : Nat) (now : String)
  | pushAbort (i : Nat)
  | deliver (k : Nat) (now : String)
  | connect
  | drop
  | receive (accepted : Bool)
  | execute (fault : Bool)
  | noteRun (id : Int) (last next : Option String)

/-- One step. -/
def step (s : State) : Action → Option State
  | .edit tasks              => some { s with tasks }
  | .hello i                 => hello s i
  | .persist i               => persist s i
  | .becomeReady i           => becomeReady s i
  | .disconnect i            => disconnect s i
  | .release i               => release s i
  | .restart                 => some (restart s)
  | .pushStart i             => pushStart s i
  | .pushPrepare i fresh now => pushPrepare E s i fresh now
  | .pushOffline fresh       => pushOffline E s fresh
  | .pushRecheck i           => pushRecheck s i
  | .pushSend i arrives ok   => pushSend s i arrives ok
  | .pushFail i now          => pushFail s i now
  | .pushAbort i             => some (pushAbort s i)
  | .deliver k now           => deliver s k now
  | .connect                 => connect s
  | .drop                    => some (drop s)
  | .receive accepted        => receive s accepted
  | .execute fault           => execute E s fault
  | .noteRun id last next    => some (noteRun s id last next)

/-- Both databases fresh, nothing connected. -/
def State.init (tasks : List Value) : State :=
  { tasks, row := none, conns := fun _ => ⟨.closed, "", .idle, [], 0⟩, opened := 0, owner := none
    session := none, queue := [], store := ⟨[], none⟩, receipts := [], begun := [], applied := [] }

/-- Task configuration sync. -/
def machine : Machine State Action where
  Start s := ∃ tasks, s = .init tasks
  step    := step E

end Air780eHub.TaskSync
