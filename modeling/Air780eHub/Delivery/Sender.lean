/-
  The sender of one connection, with the control frames that arrive beside it (`ServerLink`).

  `Delivery/Model` has the sender as three labels; here it is one step from await to await, and the
  receiver may run at each of them: before the queue is looked at, and while a frame is being sent.
  1. **`Link`**: the queue, the sender, the mark `_sent_through`, and what there is to see of it.
  2. **Steps**: `turn` (the sender), `receive` (an `ack` or a `resend_from`), an append, a trim.
  3. **`owed`**: what has still to be sent on this connection; `Honoured`: it is.
  4. The sender of the event path: a turn is a run of the sender's labels in `Delivery/Model`.
-/
import Air780eHub.Delivery.Model

namespace Air780eHub.Delivery

/-! ## The link -/

/-- Where `_sender` waits: for something to send, or for `_send` to be done with a frame. -/
inductive Sender
  | idle
  | sending (e : Event) (rest : List Event)

/-- What happens on a connection. -/
inductive Entry
  | sent (seq : Nat)
  | asked (seq : Int)

/-- One connection, as the Agent has it. -/
structure Link where
  events      : EventTable
  sender      : Sender
  /-- `_sent_through`. -/
  sentThrough : Nat
  /-- What happened so far, the newest first. -/
  log         : List Entry
  /-- How often the sender went on. -/
  turns       : Nat

namespace Link

variable (l : Link)

/-- The `for` loop of `_sender` goes on to its next event. -/
def hand (e : Event) (rest : List Event) : Link :=
  { l with sender := .sending e rest, log := .sent e.seq :: l.log }

/-- The `while` loop of `_sender` from its head on. -/
def look : Link :=
  match (l.events.unackedEvents BATCH).filter fun e => decide (l.sentThrough < e.seq) with
  | []        => { l with sender := .idle }
  | e :: rest => l.hand e rest

/-- `_sender` up to its next await. -/
def goOn : Link :=
  match l.sender with
  | .idle           => l.look
  | .sending e []   => { l with sentThrough := e.seq }.look
  | .sending e (e' :: rest) => { l with sentThrough := e.seq }.hand e' rest

/-- A turn of the sender. -/
def turn : Link := { l.goOn with turns := l.turns + 1 }

/-- What `isinstance(seq, int)` lets through. -/
def seqOf (frame : Frame) : Option Int :=
  match frame.get "seq" with
  | .int n  => some n
  | .bool b => some (if b then 1 else 0)
  | _       => none

/-- `_handle_resend`. -/
def handleResend (frame : Frame) : Link :=
  match seqOf frame with
  | some n => { l with sentThrough := (n - 1).toNat, log := .asked n :: l.log }
  | none   => l

/-- `_receiver` with a frame.  A command changes nothing here. -/
def receive (frame : Frame) : Link :=
  if frame.get "type" = .str "ack" then
    { l with events := handleAck EventTable.ackThrough l.events frame }
  else if frame.get "type" = .str "resend_from" then l.handleResend frame
  else l

end Link

/-- One step between two awaits. -/
inductive LinkAct
  | append (kind : String) (payload : Payload)
  | trim (keep : Int)
  | receive (frame : Frame)
  | turn

def Link.step (l : Link) : LinkAct → Option Link
  | .append kind payload => some { l with events := l.events.appendEvent kind payload }
  | .trim keep           => some { l with events := l.events.trimEvents keep }
  | .receive frame       => some (l.receive frame)
  | .turn                => some l.turn

/-- A connection that was just opened, with what the queue holds. -/
def Link.opened (t : EventTable) : Link := ⟨t, .idle, 0, [], 0⟩

/-- A connection, until it is lost. -/
def link : Machine Link LinkAct where
  Start l := ∃ t, l = .opened t
  step    := Link.step

/-! ## What a resend asks for -/

/-- `seq` has to be sent: it was not since a resend last asked for it, or not at all. -/
def owed (seq : Nat) : List Entry → Prop
  | []             => True
  | .sent n :: l   => n ≠ seq ∧ owed seq l
  | .asked n :: l  => n ≤ seq ∨ owed seq l

/-- What is queued: appended, and not acked. -/
def queued (t : EventTable) : List Event := (t.rows.filter fun r => !r.acked).map EventRow.event

/-- How far the sender is: what is not beyond it is read no more. -/
def Link.reached (l : Link) : Nat :=
  match l.sender with
  | .idle        => l.sentThrough
  | .sending e _ => e.seq

/-- How many turns the sender needs at most for an event that it can read. -/
def PATIENCE : Nat := 2 * BATCH

/-- An event is sent between two states. -/
def SentSince (l l' : Link) (e : Event) : Prop := ∃ news, l'.log = news ++ l.log ∧ .sent e.seq ∈ news

/-- **What is owed is sent**: whatever else happens on the connection, an owed event among those the
sender reads (the `BATCH` oldest) is sent within `PATIENCE` turns of the sender, unless it is acked
before; and one behind those is ahead of the sender, and not passed over. -/
structure Honoured (G : Link → LinkAct → Prop) (l : Link) : Prop where
  comes : ∀ e ∈ l.events.unackedEvents BATCH, owed e.seq l.log →
    ∀ l', link.Path G l l' → e ∈ queued l'.events → l.turns + PATIENCE ≤ l'.turns →
      SentSince l l' e
  ahead : ∀ e ∈ queued l.events, owed e.seq l.log → l.reached < e.seq

/-! ## The sender of the event path -/

section EventPath

universe u v w x

variable {β : Type u} {ω : Type v} {ε : Type w} {ρ : Type x} (S : Setup β ω ε ρ)

/-- The Agent's side of the event path, on the wire `i`, is the link. -/
structure Shows (s : State β) (i : Nat) (l : Link) : Prop where
  events  : s.events = l.events
  session : s.session = some (match l.sender with
    | .idle           => ⟨i, l.sentThrough, [], none⟩
    | .sending e rest => ⟨i, l.sentThrough, rest, some e⟩)

/-- `send`. -/
theorem hand_delivery {s : State β} {i : Nat} {l : Link} {e : Event} {rest : List Event}
    (hevents : s.events = l.events)
    (hsession : s.session = some ⟨i, l.sentThrough, e :: rest, none⟩) :
    ∃ s', S.machine.Path Machine.Always s s' ∧ Shows s' i (l.hand e rest) := by
  obtain ⟨s', hs, hshows⟩ : ∃ s', S.machine.step s .send = some s' ∧ Shows s' i (l.hand e rest) := by
    show ∃ s', send s = some s' ∧ _
    unfold send
    rw [hsession]
    refine ⟨_, rfl, ?_⟩
    split
    · exact ⟨hevents, rfl⟩
    · exact ⟨hevents, rfl⟩
  exact ⟨s', Machine.Path.single trivial hs, hshows⟩

/-- `fetchBatch`, and `send` if there is something. -/
theorem look_delivery {s : State β} {i : Nat} {l : Link} (hevents : s.events = l.events)
    (hsession : s.session = some ⟨i, l.sentThrough, [], none⟩) :
    ∃ s', S.machine.Path Machine.Always s s' ∧ Shows s' i l.look := by
  obtain ⟨s', hs, hevents', hsession'⟩ : ∃ s', S.machine.step s .fetchBatch = some s' ∧
      s'.events = l.events ∧ s'.session = some ⟨i, l.sentThrough,
        (l.events.unackedEvents BATCH).filter fun e => decide (l.sentThrough < e.seq), none⟩ := by
    show ∃ s', fetchBatch s = some s' ∧ _
    unfold fetchBatch
    rw [hsession]
    refine ⟨_, rfl, hevents, ?_⟩
    rw [← hevents]
  have hpath : S.machine.Path Machine.Always s s' := Machine.Path.single trivial hs
  unfold Link.look
  split
  · rename_i hnil
    rw [hnil] at hsession'
    exact ⟨s', hpath, hevents', hsession'⟩
  · rename_i e rest hread
    rw [hread] at hsession'
    obtain ⟨s'', hpath', hshows⟩ := hand_delivery S hevents' hsession'
    exact ⟨s'', hpath.trans hpath', hshows⟩

/-- **A turn** of the sender is a run of the event path. -/
theorem turn_delivery {s : State β} {i : Nat} {l : Link} (h : Shows s i l) :
    ∃ s', S.machine.Path Machine.Always s s' ∧ Shows s' i l.turn := by
  obtain ⟨hevents, hsession⟩ := h
  obtain ⟨events, sender, mark, log, turns⟩ := l
  cases sender with
  | idle =>
    obtain ⟨s', hpath, hshows⟩ := look_delivery S (l := ⟨events, .idle, mark, log, turns⟩)
      hevents hsession
    exact ⟨s', hpath, hshows.events, hshows.session⟩
  | sending e rest =>
    -- first `markSent`
    have hs : S.machine.step s .markSent = some { s with session := some ⟨i, e.seq, rest, none⟩ } := by
      show markSent s = _
      unfold markSent
      rw [hsession]
    obtain ⟨s₁, hmarked, hevents₁, hsession₁⟩ : ∃ s₁, S.machine.Path Machine.Always s s₁ ∧
        s₁.events = events ∧ s₁.session = some ⟨i, e.seq, rest, none⟩ :=
      ⟨_, Machine.Path.single trivial hs, hevents, rfl⟩
    cases rest with
    | nil =>
      obtain ⟨s', hpath, hshows⟩ := look_delivery S
        (l := ⟨events, .sending e [], e.seq, log, turns⟩) hevents₁ hsession₁
      exact ⟨s', hmarked.trans hpath, hshows.events, hshows.session⟩
    | cons e' rest =>
      obtain ⟨s', hpath, hshows⟩ := hand_delivery S
        (l := ⟨events, .sending e (e' :: rest), e.seq, log, turns⟩) hevents₁ hsession₁
      exact ⟨s', hmarked.trans hpath, hshows.events, hshows.session⟩

/-- An ack that the receiver reads. -/
theorem ack_delivery {s : State β} {i : Nat} {l : Link} (h : Shows s i l) {frame : Frame}
    {rest : List Frame} (hwire : (s.wires i).toAgent = frame :: rest)
    (htype : frame.get "type" = .str "ack") :
    ∃ s', S.machine.Path Machine.Always s s' ∧ Shows s' i (l.receive frame) := by
  have hi : ∃ ss, s.session = some ss ∧ ss.wire = i := by
    rw [h.session]
    refine ⟨_, rfl, ?_⟩
    split
    · rfl
    · rfl
  obtain ⟨ss, hss, rfl⟩ := hi
  have hs : S.machine.step s .receiveAck = some
      { s.setWire ss.wire { s.wires ss.wire with toAgent := rest } with
        events := handleAck EventTable.ackThrough s.events frame } := by
    show receiveAck s _ = _
    unfold receiveAck
    rw [hss]
    dsimp only
    rw [hwire]
  refine ⟨_, Machine.Path.single trivial hs, ?_⟩
  unfold Link.receive
  rw [if_pos htype]
  exact ⟨congrArg (handleAck EventTable.ackThrough · frame) h.events, h.session⟩

end EventPath

end Air780eHub.Delivery
