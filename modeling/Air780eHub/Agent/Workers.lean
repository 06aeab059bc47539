/-
  Command queues and their workers, step by step (`CommandDispatcher`).

  The queues and functions are those of `Agent/Dispatcher`, here with the limits as parameters, with
  every worker task as it stands between two awaits, and with every frame under the number of its
  submission.
  1. **The pool**: `submit`, `discardQueued` and what stands between two awaits of `_worker`.
  2. **The machine.**  An execution returns, raises or is cancelled; a worker is cancelled before its
     first turn; `stop` cancels all of them and goes on when they are over.
  3. **`Accounted`**: order, limits, and that each frame is executed once or handed back once.
-/
import Air780eHub.Agent.Dispatcher
import Air780eHub.Lib.Dict
import Air780eHub.Lib.Machine

namespace Air780eHub.Workers

open Dispatcher (key)

/-! ## The pool -/

/-- `max_pending`, `max_per_device`, `max_workers`.  A new queue gets its first frame without a look
at `max_per_device`. -/
structure Limits where
  maxPending   : Nat
  maxPerDevice : Nat
  maxWorkers   : Nat
  perDevicePos : 0 < maxPerDevice

/-- The limits by default. -/
def defaults : Limits where
  maxPending   := MAX_PENDING_COMMANDS
  maxPerDevice := MAX_DEVICE_COMMANDS
  maxWorkers   := MAX_COMMAND_WORKERS
  perDevicePos := by decide

/-- A submission. -/
structure Ticket where
  number : Nat
  frame  : Frame

/-- `_DeviceQueue`.  `cancelled` says that its task was cancelled before its first turn; otherwise
the task executes the head of the queue (`running`), or has not had its first turn. -/
structure CommandQueue where
  frames    : List Ticket
  running   : Bool
  cancelled : Bool

/-- How an execution ends. -/
inductive Ending
  | returned | raised | cancelled
deriving DecidableEq

/-- `CommandDispatcher`, and what there is to see of it: the submissions, the executions that began
and that ended, and the calls of `reject`. -/
structure Pool where
  queues   : Dict (Option String) CommandQueue
  pending  : Int
  stopped  : Bool
  arrived  : List Ticket
  started  : List Ticket
  ended    : List (Ticket × Ending)
  rejected : List (Ticket × String)

/-- `int(queue.running)`. -/
def CommandQueue.kept (q : CommandQueue) : Nat := if q.running then 1 else 0

/-- The frames behind the running one. -/
def CommandQueue.waiting (q : CommandQueue) : List Ticket := q.frames.drop q.kept

/-- The running frame. -/
def CommandQueue.executing (q : CommandQueue) : List Ticket := q.frames.take q.kept

namespace Pool

variable (L : Limits) (s : Pool)

/-- The next submission. -/
def arrive (frame : Frame) : Ticket × Pool :=
  (⟨s.arrived.length, frame⟩, { s with arrived := s.arrived ++ [⟨s.arrived.length, frame⟩] })

/-- `self.reject(frame, reason)`. -/
def reject (t : Ticket) (reason : String) : Pool :=
  { s with rejected := s.rejected ++ [(t, reason)] }

/-- A frame joins the queue of its key. -/
def enqueue (t : Ticket) (q : CommandQueue) : Pool :=
  { s with
    queues  := s.queues.set (key t.frame) { q with frames := q.frames ++ [t] }
    pending := s.pending + 1 }

/-- `submit`, with what it returns. -/
def submit (frame : Frame) : Pool × Bool :=
  let (t, s) := s.arrive frame
  if s.stopped then (s.reject t "agent is stopping; command was not started", false)
  else
    let queue := s.queues.get? (key frame)
    if L.maxPending ≤ s.pending ∨
        (queue.any fun q => decide (L.maxPerDevice ≤ q.frames.length)) = true ∨
        (queue = none ∧ L.maxWorkers ≤ s.queues.entries.length) then
      (s.reject t "command queue is full; command was not started", false)
    else (s.enqueue t (queue.getD ⟨[], false, false⟩), true)

/-- `_worker` from the test of its loop to the await of the next execution, or to its end. -/
def goOn (k : Option String) (q : CommandQueue) : Pool :=
  match q.frames with
  | []     => { s with queues := s.queues.erase k }
  | t :: _ => { s with
      queues  := s.queues.set k { q with running := true }
      started := s.started ++ [t] }

/-- The inner `finally` of `_worker`, after an execution. -/
def popHead (k : Option String) (t : Ticket) (rest : List Ticket) (ending : Ending) : Pool :=
  { s with
    queues  := s.queues.set k ⟨rest, false, false⟩
    pending := s.pending - 1
    ended   := s.ended ++ [(t, ending)] }

/-- `_worker` from the end of an execution on. -/
def finish (k : Option String) (t : Ticket) (rest : List Ticket) : Ending → Pool
  | .returned  => (s.popHead k t rest .returned).goOn k ⟨rest, false, false⟩
  | .raised    =>
    ((s.reject t "command handler failed; execution result is unknown").popHead k t rest
      .raised).goOn k ⟨rest, false, false⟩
  | .cancelled =>
    let s := (s.reject t "agent stopped while command was running; execution result is unknown")
      |>.popHead k t rest .cancelled
    { s with queues := s.queues.erase k }

/-- `discard_queued`. -/
def discardQueued (reason : String) : Pool :=
  let dropped := s.queues.entries.flatMap fun e => e.2.waiting.reverse
  { s with
    queues   := s.queues.mapValues fun q => { q with frames := q.executing }
    pending  := s.pending - dropped.length
    rejected := s.rejected ++ dropped.map fun t => (t, reason) }

/-- `stop` up to its await.  A task without a turn yet never gets one. -/
def stop : Pool :=
  if s.stopped then s
  else
    let s := { s with stopped := true }.discardQueued "agent is stopping; command was not started"
    { s with queues := s.queues.mapValues fun q =>
        if q.running then q else { q with cancelled := true } }

/-- `stop` after its await. -/
def stopDone : Pool := { s with queues := ∅, pending := 0 }

end Pool

/-! ## The machine -/

inductive Act
  | submit (frame : Frame)
  | turn (k : Option String)
  | finish (k : Option String) (ending : Ending)
  | cancel (k : Option String)
  | discard (reason : String)
  | stop
  | stopDone

def Pool.step (L : Limits) (s : Pool) : Act → Option Pool
  | .submit frame => some (s.submit L frame).1
  | .turn k => match s.queues.get? k with
    | some q => if q.running || q.cancelled then none else some (s.goOn k q)
    | none   => none
  | .finish k ending => match s.queues.get? k with
    | some ⟨t :: rest, true, _⟩ => some (s.finish k t rest ending)
    | _                         => none
  | .cancel k => match s.queues.get? k with
    | some q =>
      if q.running || q.cancelled then none
      else some { s with queues := s.queues.set k { q with cancelled := true } }
    | none => none
  | .discard reason => some (s.discardQueued reason)
  | .stop => some s.stop
  | .stopDone =>
    if s.stopped ∧ ∀ e ∈ s.queues.entries, e.2.cancelled = true then some s.stopDone else none

/-- A new dispatcher. -/
def Pool.new : Pool := ⟨∅, 0, false, [], [], [], []⟩

def pool (L : Limits) : Machine Pool Act where
  Start s := s = .new
  step    := Pool.step L

/-! ## What holds -/

/-- The frames in all queues. -/
def Pool.total (s : Pool) : Nat := s.queues.sumOf fun q => q.frames.length

/-- The execution of a frame is over. -/
def Pool.Over (s : Pool) (t : Ticket) : Prop := ∃ ending, (t, ending) ∈ s.ended

/-- The books are right. -/
structure Accounted (L : Limits) (s : Pool) : Prop where
  /-- Frames of one key are executed in the order of their submission, -/
  order        : s.started.Pairwise fun t u => key t.frame = key u.frame → t.number < u.number
  /-- one at a time. -/
  single       : ∀ t ∈ s.started, ∀ u ∈ s.started, ¬ s.Over t → ¬ s.Over u →
    key t.frame = key u.frame → t = u
  pending      : s.pending = s.total
  maxPending   : s.total ≤ L.maxPending
  maxPerDevice : ∀ e ∈ s.queues.entries, e.2.frames.length ≤ L.maxPerDevice
  maxWorkers   : s.queues.entries.length ≤ L.maxWorkers
  /-- No frame is executed twice or handed back twice, -/
  startedOnce  : (s.started.map Ticket.number).Nodup
  rejectedOnce : (s.rejected.map fun r => r.1.number).Nodup
  /-- or both, unless its execution raised or was cancelled. -/
  notBoth      : ∀ t ∈ s.started, ∀ reason, (t, reason) ∈ s.rejected →
    ∃ ending, (t, ending) ∈ s.ended ∧ ending ≠ .returned
  /-- A submitted frame is in a queue, or was executed, or was handed back, -/
  disposed     : ∀ t ∈ s.arrived, (∃ e ∈ s.queues.entries, t ∈ e.2.frames) ∨
    (t ∈ s.started ∧ s.Over t) ∨ ∃ reason, (t, reason) ∈ s.rejected
  /-- and what is in a queue has a worker that gets to it. -/
  served       : ∀ e ∈ s.queues.entries, e.2.frames ≠ [] → e.2.cancelled = false

/-- Nothing is cancelled while frames wait for it: an execution only as the last of its queue, and a
worker before its first turn only by `stop`. -/
def CancelsNone (s : Pool) : Act → Prop
  | .finish k .cancelled => ∀ q ∈ s.queues.get? k, q.frames.length ≤ 1
  | .cancel _            => False
  | _                    => True

end Air780eHub.Workers
