/-
  Command execution on the Agent: `reject_command` and `handle_command` of `app.py`, and the
  machine they form with the dispatcher and the journal.

  `handle_command` has one await, its handler.  Everything before it is one step, `startCommand`:
  the journal is claimed, the command is looked up and checked, and the handler is entered or the
  command is over.  Everything after it is another, `concludeCommand`, on what the handler
  returned or raised.  A crash may fall between any two steps; it loses the queues and keeps the
  store, and opening the store again first settles what the crash left running.

  1. `rejectCommand`, `startCommand`, `concludeCommand`.
  2. `State`, with two ghost fields: the frames ever received, and the frames whose handler was
     ever entered.
  3. The steps and the machine.

  Beside the commands, other parts of the Agent append events of other kinds, and the link acks and
  trims the queue at any time (`emit`, `ack`, `trim`).
-/
import Air780eHub.Agent.CommandStore
import Air780eHub.Agent.Dispatcher
import Air780eHub.Lib.Machine
import Air780eHub.Wire.Json

namespace Air780eHub.Commands

/-- What the Agent's command code takes from outside: SHA-256 as a hexadecimal digest, Python's
    `repr`, and the configured bound of the queue. -/
structure Env where
  sha256          : String → String
  repr            : Value → String
  maxQueuedEvents : Int

/-- The digest of a frame's canonical text. -/
def Env.requestHash (E : Env) (frame : Frame) : String := E.sha256 frame.dumps

/-- An exception, by the `except` clause that catches it. -/
inductive Fault
  | offline (text : String)
  | valueError (text : String)
  | other (text : String)

/-- How a handler ends. -/
inductive Outcome
  | returned (data : Value)
  | cancelled
  | raised (fault : Fault)

/-- What `startCommand` finds when it checks a durable command: the comparison of the deadline with
    the clock (or what parsing it raised), and the IMEI and ICCID of the target's worker. -/
structure Gate where
  expired : Except Fault Bool
  worker  : Option (String × String)

/-- The commands that have a handler. -/
def handlers : List String :=
  ["send_sms", "sync_tasks", "run_task", "query", "set_radio", "set_data", "set_roaming_data",
   "scan_operators", "select_operator", "network_diagnostics", "ussd", "raw_at"]

/-- `bool(result_token) and isinstance(cmd_id, str)`. -/
def durable (frame : Frame) : Bool :=
  (frame.get "result_token").truthy && match frame.get "cmd_id" with
    | .str _ => true
    | _      => false

variable (E : Env)

/-! ## Ending a command -/

/-- `emit`: append, then trim. -/
def emit (s : CommandStore) (kind : String) (payload : Payload) : CommandStore :=
  let s' := s.appendEvent kind payload
  { s' with events := s'.events.trimEvents E.maxQueuedEvents }

/-- The payload of `_cmd_result`. -/
def plainPayload (cmdId : Value) (ok : Bool) (data error : Value) : Payload where
  fields     := [("cmd_id", cmdId), ("ok", .bool ok), ("data", data), ("error", error)]
  noReserved := by simp

/-- `_cmd_result`: the answer to a command that is not journalled. -/
def cmdResult (s : CommandStore) (cmdId : Value) (ok : Bool) (data error : Value) :
    CommandStore :=
  if cmdId = .null then s else emit E s "cmd_result" (plainPayload cmdId ok data error)

/-- `reject_command`. -/
def rejectCommand (s : CommandStore) (r : Rejection) : CommandStore :=
  let (frame, error) := r
  if durable frame then
    match s.beginCommand E.requestHash frame with
    | (.new, s') => s'.finishCommand frame .cancelled .null (.str error)
    | (_, s')    => s'
  else cmdResult E s (frame.get "cmd_id") false .null (.str error)

/-- End a command that failed in a way the Server is told as such. -/
def fail (s : CommandStore) (frame : Frame) (status : RunStatus) (error : String) :
    CommandStore :=
  if durable frame then s.finishCommand frame status .null (.str error)
  else cmdResult E s (frame.get "cmd_id") false .null (.str error)

/-- The `except` clauses of `handle_command` for what is not a cancellation. -/
def failCommand (s : CommandStore) (frame : Frame) : Fault → CommandStore
  | .offline text    => fail E s frame .failed text
  | .valueError text => fail E s frame .failed text
  | .other text      => fail E s frame .unknown text

/-- What `handle_command` does when its handler is done.  A cancelled handler is journalled only
    when it is durable; the worker rejects it afterwards. -/
def concludeCommand (s : CommandStore) (frame : Frame) : Outcome → CommandStore
  | .returned data =>
    if durable frame then s.finishCommand frame .succeeded data .null
    else cmdResult E s (frame.get "cmd_id") true data .null
  | .cancelled =>
    if durable frame then
      s.finishCommand frame .unknown .null (.str "agent stopped during execution")
    else s
  | .raised fault => failCommand E s frame fault

/-! ## Starting a command -/

/-- How the synchronous part of `handle_command` ends. -/
inductive Started
  /-- The handler is entered. -/
  | entered
  /-- `handle_command` returned. -/
  | over
  /-- `handle_command` raised. -/
  | raised
deriving DecidableEq

/-- `handlers.get(kind or "")`: a list or dictionary cannot be looked up, and raises. -/
def lookup (kind : Value) : Except Unit Bool :=
  if kind.truthy then
    match kind with
    | .str k => .ok (handlers.contains k)
    | .arr _ => .error ()
    | .obj _ => .error ()
    | _      => .ok false
  else .ok false

/-- The worker's SIM or module is not the one the command was issued for. -/
def identityChanged (frame : Frame) (worker : String × String) : Bool :=
  let imei := pyText E.repr (frame.get "expected_imei")
  let iccid := pyText E.repr (frame.get "expected_iccid")
  (imei != "" && worker.1 != "" && imei != worker.1) ||
  (iccid != "" && worker.2 != "" && iccid != worker.2)

/-- The checks of a durable command, in order, between the claim and the handler. -/
def checkCommand (s : CommandStore) (frame : Frame) (gate : Gate) : CommandStore × Started :=
  match gate.expired with
  | .error fault => (failCommand E s frame fault, .over)
  | .ok true =>
    (s.finishCommand frame .cancelled .null (.str "expired before execution"), .over)
  | .ok false =>
    match gate.worker with
    | none =>
      (fail E s frame .failed ("no such device: " ++ E.repr (frame.get "device")), .over)
    | some worker =>
      if identityChanged E frame worker then
        (s.finishCommand frame .failed .null (.str "device identity changed"), .over)
      else (s, .entered)

/-- `handle_command` after the claim, up to its handler. -/
def openCommand (s : CommandStore) (frame : Frame) (gate : Gate) : CommandStore × Started :=
  match lookup (frame.get "type") with
  | .error _  => (s, .raised)
  | .ok false =>
    (fail E s frame .failed ("unknown command " ++ E.repr (frame.get "type")), .over)
  | .ok true  => if durable frame then checkCommand E s frame gate else (s, .entered)

/-- `handle_command` up to its handler. -/
def startCommand (s : CommandStore) (frame : Frame) (gate : Gate) : CommandStore × Started :=
  if durable frame then
    match s.beginCommand E.requestHash frame with
    | (.new, s') => openCommand E s' frame gate
    | (_, s')    => (s', .over)
  else openCommand E s frame gate

/-! ## The machine -/

structure State where
  store      : CommandStore
  dispatcher : Dispatcher
  /-- The process runs and has its store open. -/
  up         : Bool
  /-- Ghost: every command frame ever received. -/
  received   : List Frame
  /-- Ghost: every frame whose handler was ever entered. -/
  entered    : List Frame

/-- One step between two awaits. -/
inductive Action
  /-- The link hands a frame to the dispatcher. -/
  | submit (frame : Frame)
  /-- The worker of a queue takes its head up. -/
  | start (k : Option String) (gate : Gate)
  /-- The handler of the head returns or raises. -/
  | conclude (k : Option String) (outcome : Outcome)
  /-- The link lost its connection. -/
  | disconnect
  /-- `stop` up to its await. -/
  | stop
  /-- The rest of `stop`, once no worker is left. -/
  | stopped
  | crash
  /-- Open the store; the Agent dies again after `n` rows of the recovery, if there are more. -/
  | reopen (n : Nat)
  /-- Another part of the Agent appends an event. -/
  | emit (kind : String) (payload : Payload)
  | ack (seq : Int)
  | trim (keep : Int)

/-- Hand the dispatcher's rejections to `reject_command`, in order. -/
def rejectAll (s : CommandStore) (rs : List Rejection) : CommandStore :=
  rs.foldl (rejectCommand E) s

/-- The worker rejects the command its handler left by an exception. -/
def cancelledText : String :=
  "agent stopped while command was running; execution result is unknown"

/-- The text of the rejection after `handle_command` itself raised. -/
def failedText : String := "command handler failed; execution result is unknown"

/-- `_worker` takes up the head of queue `k`. -/
def start (s : State) (k : Option String) (gate : Gate) : Option State :=
  match s.dispatcher.queue k with
  | some ⟨frame :: rest, false⟩ =>
    match startCommand E s.store frame gate with
    | (store, .entered) => some { s with
        store
        dispatcher := s.dispatcher.setQueue k ⟨frame :: rest, true⟩
        entered    := s.entered ++ [frame] }
    | (store, .over) => some { s with
        store
        dispatcher := s.dispatcher.popHead k ⟨frame :: rest, false⟩ false }
    | (store, .raised) => some { s with
        store      := rejectCommand E store (frame, failedText)
        dispatcher := s.dispatcher.popHead k ⟨frame :: rest, false⟩ false }
  | _ => none

/-- The handler of the head of queue `k` is done.  A cancelled one ends its worker. -/
def conclude (s : State) (k : Option String) (outcome : Outcome) : Option State :=
  match s.dispatcher.queue k with
  | some ⟨frame :: rest, true⟩ =>
    let store := concludeCommand E s.store frame outcome
    match outcome with
    | .cancelled => some { s with
        store      := rejectCommand E store (frame, cancelledText)
        dispatcher := s.dispatcher.popHead k ⟨frame :: rest, true⟩ true }
    | _ => some { s with
        store
        dispatcher := s.dispatcher.popHead k ⟨frame :: rest, true⟩ false }
  | _ => none

/-- Discard what is queued and reject it. -/
def discard (s : State) (stop : Bool) (reason : String) : State :=
  let (dispatcher, rs) := s.dispatcher.discardQueued reason
  { s with
    store      := rejectAll E s.store rs
    dispatcher := { dispatcher with stopped := dispatcher.stopped || stop } }

/-- `submit`. -/
def submit (s : State) (frame : Frame) : State :=
  let (dispatcher, rs) := s.dispatcher.submit frame
  { s with
    store    := rejectAll E s.store rs
    dispatcher
    received := s.received ++ [frame] }

/-- Open the store after a crash. -/
def reopen (s : State) (n : Nat) : State :=
  { s with
    store := s.store.recoverCommands n
    up    := decide ((s.store.commandRuns.filter fun r => decide (r.status = .running)).length ≤ n) }

/-- One step. -/
def step (s : State) : Action → Option State
  | .reopen n => if s.up then none else some (reopen s n)
  | .crash    => some { s with dispatcher := .empty, up := false }
  | a => if s.up then
      match a with
      | .submit frame       => some (submit E s frame)
      | .start k gate       => start E s k gate
      | .conclude k outcome  => conclude E s k outcome
      | .disconnect         =>
        some (discard E s false "server disconnected before command started")
      | .stop               => if s.dispatcher.stopped then none
        else some (discard E s true "agent is stopping; command was not started")
      | .stopped            =>
        if s.dispatcher.stopped && s.dispatcher.queues.all (fun q => !q.2.running) then
          some { s with dispatcher := { s.dispatcher with queues := [], pending := 0 } }
        else none
      | .emit kind payload  => if kind = "cmd_result" then none
        else some { s with store := emit E s.store kind payload }
      | .ack seq            =>
        some { s with store := { s.store with events := s.store.events.ackThrough seq } }
      | .trim keep          =>
        some { s with store := { s.store with events := s.store.events.trimEvents keep } }
      | _                   => none
    else none

/-- A fresh store, the process running. -/
def State.init : State :=
  ⟨⟨.empty, [], []⟩, .empty, true, [], []⟩

/-- The Agent's command execution. -/
def machine : Machine State Action where
  Start s := s = .init
  step    := step E

end Air780eHub.Commands
