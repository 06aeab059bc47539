/-
  The Agent's bounded command queues: `commands.py`.

  One FIFO per target device and one for the control commands (`sync_tasks`, `run_task`), each
  drained by its own worker task.  A frame is accepted into a queue or rejected on the spot;
  losing the socket, or stopping, rejects what has not started and leaves what runs alone.

  The dispatcher calls `reject` back, synchronously, and the callback never looks at the queues.
  So its functions return what they reject, in order, and the caller hands it on.
-/
import Air780eHub.Wire.Value

namespace Air780eHub

/-- `MAX_PENDING_COMMANDS`. -/
def MAX_PENDING_COMMANDS : Nat := 200

/-- `MAX_DEVICE_COMMANDS`. -/
def MAX_DEVICE_COMMANDS : Nat := 16

/-- `MAX_COMMAND_WORKERS`. -/
def MAX_COMMAND_WORKERS : Nat := 32

/-- `_DeviceQueue`.  The running command stays at the head. -/
structure DeviceQueue where
  frames  : List Frame
  running : Bool

/-- `CommandDispatcher`. -/
structure Dispatcher where
  /-- `_queues`, in insertion order. -/
  queues  : List (Option String × DeviceQueue)
  pending : Nat
  stopped : Bool

/-- A command handed back, and why. -/
abbrev Rejection := Frame × String

namespace Dispatcher

/-- A new dispatcher. -/
def empty : Dispatcher := ⟨[], 0, false⟩

/-- Every frame in some queue. -/
def frames (d : Dispatcher) : List Frame := d.queues.flatMap fun q => q.2.frames

/-- Which queue a frame goes to: task configuration and manual runs share the control queue. -/
def key (frame : Frame) : Option String :=
  if frame.get "type" = .str "sync_tasks" ∨ frame.get "type" = .str "run_task" then none
  else match frame.get "device" with
    | .str d => if d = "" then none else some d
    | _      => none

/-- `_queues.get(key)`. -/
def queue (d : Dispatcher) (k : Option String) : Option DeviceQueue :=
  (d.queues.find? fun q => q.1 = k).map Prod.snd

/-- Replace the queue under a key. -/
def setQueue (d : Dispatcher) (k : Option String) (q : DeviceQueue) : Dispatcher :=
  { d with queues := d.queues.map fun x => if x.1 = k then (k, q) else x }

/-- `submit`. -/
def submit (d : Dispatcher) (frame : Frame) : Dispatcher × List Rejection :=
  if d.stopped then (d, [(frame, "agent is stopping; command was not started")])
  else
    let q := d.queue (key frame)
    if MAX_PENDING_COMMANDS ≤ d.pending ∨
        (q.elim false fun q => decide (MAX_DEVICE_COMMANDS ≤ q.frames.length)) = true ∨
        (q.isNone = true ∧ MAX_COMMAND_WORKERS ≤ d.queues.length) then
      (d, [(frame, "command queue is full; command was not started")])
    else match q with
      | some q => ({ d.setQueue (key frame) { q with frames := q.frames ++ [frame] } with
          pending := d.pending + 1 }, [])
      | none   => ({ d with
          queues  := d.queues ++ [(key frame, ⟨[frame], false⟩)]
          pending := d.pending + 1 }, [])

/-- How many frames of a queue `discard_queued` keeps. -/
def DeviceQueue.kept (q : DeviceQueue) : Nat := if q.running then 1 else 0

/-- `discard_queued`: from the tail of every queue down to the running command. -/
def discardQueued (d : Dispatcher) (reason : String) : Dispatcher × List Rejection :=
  let dropped := d.queues.flatMap fun q => (q.2.frames.drop (DeviceQueue.kept q.2)).reverse
  ({ d with
      queues  := d.queues.map fun q =>
        (q.1, { q.2 with frames := q.2.frames.take (DeviceQueue.kept q.2) })
      pending := d.pending - dropped.length },
    dropped.map fun f => (f, reason))

/-- The worker is done with the head of its queue.  An empty queue goes, and so does one whose
    worker was cancelled, with whatever is still in it. -/
def popHead (d : Dispatcher) (k : Option String) (q : DeviceQueue) (cancelled : Bool) :
    Dispatcher :=
  let d' := { d with pending := d.pending - 1 }
  if cancelled || q.frames.tail.isEmpty then
    { d' with queues := d'.queues.filter fun x => decide (x.1 ≠ k) }
  else d'.setQueue k ⟨q.frames.tail, false⟩

/-! ## Where the frames come from -/

variable {d d' : Dispatcher} {frame f : Frame} {rs : List Rejection}

theorem mem_frames : f ∈ d.frames ↔ ∃ q ∈ d.queues, f ∈ q.2.frames := by
  simp [frames]

theorem queue_frames {k : Option String} {q : DeviceQueue} (h : d.queue k = some q)
    (hf : f ∈ q.frames) : f ∈ d.frames := by
  obtain ⟨x, hx, rfl⟩ := Option.map_eq_some_iff.mp h
  exact mem_frames.mpr ⟨x, List.mem_of_find?_eq_some hx, hf⟩

/-- A frame in a replaced queue was there, or is in the new one. -/
theorem of_mem_setQueue {k : Option String} {q : DeviceQueue} (h : f ∈ (d.setQueue k q).frames) :
    f ∈ d.frames ∨ f ∈ q.frames := by
  obtain ⟨x, hx, hf⟩ := mem_frames.mp h
  obtain ⟨y, hy, rfl⟩ := List.mem_map.mp hx
  by_cases hk : y.1 = k
  · rw [if_pos hk] at hf; exact Or.inr hf
  · rw [if_neg hk] at hf; exact Or.inl (mem_frames.mpr ⟨y, hy, hf⟩)

/-- `submit` keeps the frame or hands it back, and touches no other. -/
theorem submit_spec (h : d.submit frame = (d', rs)) :
    (∀ f ∈ d'.frames, f ∈ d.frames ∨ f = frame) ∧ ∀ r ∈ rs, r.1 = frame := by
  unfold submit at h
  by_cases hst : d.stopped = true
  · rw [if_pos hst] at h; cases h
    exact ⟨fun f hf => Or.inl hf, by simp⟩
  · rw [if_neg hst] at h
    dsimp only at h
    split at h
    · cases h
      exact ⟨fun f hf => Or.inl hf, by simp⟩
    · cases hq : d.queue (key frame) with
      | some q =>
        rw [hq] at h; cases h
        refine ⟨fun f hf => ?_, by simp⟩
        rcases of_mem_setQueue hf with hf | hf
        · exact Or.inl hf
        · rcases List.mem_append.mp hf with hf | hf
          · exact Or.inl (queue_frames hq hf)
          · exact Or.inr (List.mem_singleton.mp hf)
      | none =>
        rw [hq] at h; cases h
        refine ⟨fun f hf => ?_, by simp⟩
        obtain ⟨x, hx, hf⟩ := mem_frames.mp hf
        rcases List.mem_append.mp hx with hx | hx
        · exact Or.inl (mem_frames.mpr ⟨x, hx, hf⟩)
        · rw [List.mem_singleton] at hx; subst hx
          exact Or.inr (List.mem_singleton.mp hf)

/-- `discard_queued` hands back frames that were queued. -/
theorem discardQueued_spec {reason : String} (h : d.discardQueued reason = (d', rs)) :
    (∀ f ∈ d'.frames, f ∈ d.frames) ∧ ∀ r ∈ rs, r.1 ∈ d.frames := by
  unfold discardQueued at h
  cases h
  constructor
  · intro f hf
    obtain ⟨x, hx, hf⟩ := mem_frames.mp hf
    obtain ⟨q, hq, rfl⟩ := List.mem_map.mp hx
    exact mem_frames.mpr ⟨q, hq, List.mem_of_mem_take hf⟩
  · intro r hr
    obtain ⟨g, hg, rfl⟩ := List.mem_map.mp hr
    obtain ⟨q, hq, hg⟩ := List.mem_flatMap.mp hg
    exact mem_frames.mpr ⟨q, hq, List.mem_of_mem_drop (List.mem_reverse.mp hg)⟩

theorem popHead_spec {k : Option String} {q : DeviceQueue} {cancelled : Bool}
    (hq : d.queue k = some q) : ∀ f ∈ (d.popHead k q cancelled).frames, f ∈ d.frames := by
  intro f hf
  unfold popHead at hf
  dsimp only at hf
  split at hf
  · obtain ⟨x, hx, hf⟩ := mem_frames.mp hf
    exact mem_frames.mpr ⟨x, List.mem_of_mem_filter hx, hf⟩
  · rcases of_mem_setQueue hf with hf | hf
    · exact hf
    · exact queue_frames hq (List.mem_of_mem_tail hf)

end Dispatcher

end Air780eHub
