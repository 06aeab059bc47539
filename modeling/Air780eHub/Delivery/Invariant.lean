/-
  The joint invariant of the event path.

  Four groups of facts, each over the data it needs:

  * `QueueInv` : the Agent's table against the events ever appended.  An event that is no longer a
    row has been ingested, unless it was a status row that `trim_events` dropped.
  * `EffectInv` : the Server's keys are the keys of the committed callbacks, each once, and under
    the Agent's own stream the callback ran on a frame the Agent appended.
  * `WireInv` : what is in flight was appended, and a connection the Server accepted carries the
    Agent's identity.
  * `SessionInv` : the current connection.  In flight and in the sender's batch the numbers
    ascend with NO HOLES among the unacked rows (`flight_cover`, `batch_cover`), so when an event
    is applied everything older that is still a row has been applied before.  That is why an ack
    may be cumulative (`acks`).

  The queue may have holes where status rows were trimmed; `flight_cover` speaks of rows only, so a
  hole is never owed.  The crux of the step proofs is `SessionInv.mono`: what a step does to the
  queue or to the keys never breaks `SessionInv`, provided rows only disappear, get acked or are
  numbered above the generator's old value.
-/
import Air780eHub.Delivery.Model
import Mathlib.Data.List.Nodup

namespace Air780eHub.Delivery

universe u v w x

variable {β : Type u} {ω : Type v} {ε : Type w} {ρ : Type x} (S : Setup β ω ε ρ)

/-! ## The Agent's identity on the Server -/

/-- The stream id the Server derives from the Agent's hello. -/
def Setup.stream : String := helloStreamId S.repr (S.helloFrame 0 [])

/-- The key the Server claims for one of the Agent's events. -/
def Setup.key (seq : Nat) : IngestKey := ⟨pyStrip S.agentId, S.stream, seq⟩

theorem Setup.key_inj {m n : Nat} (h : S.key m = S.key n) : m = n := by
  simpa [Setup.key] using h

/-- The agent id the Server accepts is the Agent's, stripped. -/
theorem helloAgentId_frame {lastSeq : Nat} {devices : List Value} {id : String}
    (h : helloAgentId S.repr (S.helloFrame lastSeq devices) = some id) :
    id = pyStrip S.agentId := by
  have hget : (S.helloFrame lastSeq devices).get "agent_id" = .str S.agentId := rfl
  simp only [helloAgentId, hget, pyText_str] at h
  split at h
  · cases h
  · exact (Option.some.inj h).symm

/-! ## The four groups -/

/-- The Agent's table against the events ever appended and the Server's keys. -/
structure QueueInv (t : EventTable) (history : List Event) (ingested : List IngestKey) :
    Prop where
  hist_bound  : ∀ e ∈ history, e.seq ≤ t.sequence
  hist_unique : ∀ e ∈ history, ∀ e' ∈ history, e.seq = e'.seq → e = e'
  row_hist    : ∀ r ∈ t.rows, r.event ∈ history
  kept        : ∀ e ∈ history, e.kind ≠ "status" →
    (∃ r ∈ t.rows, r.event = e) ∨ S.key e.seq ∈ ingested
  acked       : ∀ r ∈ t.rows, r.acked = true → S.key r.seq ∈ ingested

/-- The Server's keys against the committed callbacks. -/
structure EffectInv (history : List Event) (ingested : List IngestKey)
    (effects : List (IngestKey × Frame)) : Prop where
  keys  : ingested = effects.map Prod.fst
  nodup : ingested.Nodup
  ours  : ∀ n f, (S.key n, f) ∈ effects → ∃ e ∈ history, e.seq = n ∧ f = e.toFrame

/-- What is on the wires. -/
structure WireInv (history : List Event) (wires : Nat → Wire) : Prop where
  greeted  : ∀ i, (wires i).phase = .awaitingHello →
    ∃ lastSeq devices rest, (wires i).toServer = .hello lastSeq devices :: rest
  flight   : ∀ i e, Message.event e ∈ (wires i).toServer → e ∈ history
  identity : ∀ i, (wires i).phase = .registering ∨ (wires i).phase = .registered →
    (wires i).identity = (pyStrip S.agentId, S.stream)

/-- The events on their way up. -/
def Wire.inFlight (w : Wire) : List Event := w.toServer.filterMap Message.event?

/-- The current connection. -/
structure SessionInv (t : EventTable) (history : List Event) (ingested : List IngestKey)
    (w : Wire) (ss : Session) : Prop where
  frontier_le   : ss.frontier ≤ t.sequence
  flight_sorted : w.inFlight.Pairwise fun a b => a.seq < b.seq
  flight_le     : ∀ e ∈ w.inFlight, e.seq ≤ ss.frontier
  flight_cover  : w.phase.open? = true → ∀ r ∈ t.rows, r.acked = false → r.seq ≤ ss.frontier →
    validSeq (.int r.seq) = true → S.key r.seq ∈ ingested ∨ r.event ∈ w.inFlight
  batch_sorted  : ss.batch.Pairwise fun a b => a.seq < b.seq
  batch_gt      : ∀ e ∈ ss.batch, ss.frontier < e.seq
  batch_le      : ∀ e ∈ ss.batch, e.seq ≤ t.sequence
  batch_hist    : ∀ e ∈ ss.batch, e ∈ history
  batch_cover   : ∀ r ∈ t.rows, r.acked = false → ss.frontier < r.seq →
    r.event ∈ ss.batch ∨ ∀ e ∈ ss.batch, e.seq < r.seq
  acks          : ∀ f ∈ w.toAgent, ∃ n ≤ t.sequence, f = Setup.ackFrame n ∧
    ∀ r ∈ t.rows, r.seq ≤ n → S.key r.seq ∈ ingested

/-- **The joint invariant.** -/
structure Inv (s : State β) : Prop where
  queue   : QueueInv S s.events s.history s.db.ingested
  effect  : EffectInv S s.history s.db.ingested s.effects
  wire    : WireInv S s.history s.wires
  session : ∀ ss, s.session = some ss →
    SessionInv S s.events s.history s.db.ingested (s.wires ss.wire) ss

variable {S}

/-! ## What a change of the queue or of the keys leaves true -/

/-- How a step may change the queue without the current connection noticing: a row of the new
    table is an old row, possibly acked since, or is numbered above the old generator. -/
structure EventTable.Follows (t t' : EventTable) : Prop where
  sequence_le : t.sequence ≤ t'.sequence
  rows        : ∀ r ∈ t'.rows,
    (∃ r₀ ∈ t.rows, r₀.event = r.event ∧ (r.acked = false → r₀.acked = false)) ∨
      t.sequence < r.seq

theorem EventTable.Follows.refl (t : EventTable) : EventTable.Follows t t :=
  ⟨Nat.le_refl _, fun r hr => Or.inl ⟨r, hr, rfl, id⟩⟩

theorem EventTable.Follows.of_delete (t : EventTable) (p : EventRow → Bool) :
    EventTable.Follows t (t.delete p) :=
  ⟨Nat.le_refl _, fun r hr => Or.inl ⟨r, (EventTable.mem_delete.mp hr).1, rfl, id⟩⟩

theorem EventTable.Follows.of_markAcked (t : EventTable) (seq : Int) :
    EventTable.Follows t (t.markAcked seq) := by
  refine ⟨Nat.le_refl _, fun r hr => Or.inl ?_⟩
  obtain ⟨r₀, h₀, hev, h⟩ := EventTable.of_mem_markAcked hr
  refine ⟨r₀, h₀, hev, fun hacked => ?_⟩
  rcases h with rfl | ⟨h, _⟩
  · exact hacked
  · rw [h] at hacked; cases hacked

theorem EventTable.Follows.of_append (t : EventTable) (kind : String) (payload : Payload) :
    EventTable.Follows t (t.appendEvent kind payload) := by
  refine ⟨Nat.le_succ _, fun r hr => ?_⟩
  rcases EventTable.mem_appendEvent.mp hr with h | rfl
  · exact Or.inl ⟨r, h, rfl, id⟩
  · exact Or.inr (Nat.lt_succ_self _)

/-- **Frame rule of the connection.**  The queue may move on and the keys may grow. -/
theorem SessionInv.mono {t t' : EventTable} {H H' : List Event} {I I' : List IngestKey}
    {w : Wire} {ss : Session} (h : SessionInv S t H I w ss) (ht : EventTable.Follows t t')
    (hH : H ⊆ H') (hI : I ⊆ I') : SessionInv S t' H' I' w ss := by
  have hseq : ∀ {r r₀ : EventRow}, r₀.event = r.event → r₀.seq = r.seq := fun he =>
    congrArg Event.seq he
  constructor
  case frontier_le => exact Nat.le_trans h.frontier_le ht.sequence_le
  case flight_sorted => exact h.flight_sorted
  case flight_le => exact h.flight_le
  case flight_cover =>
    intro ho r hr hacked hle hvalid
    rcases ht.rows r hr with ⟨r₀, h₀, hev, hac⟩ | hnew
    · rw [← hseq hev] at hle hvalid
      rcases h.flight_cover ho r₀ h₀ (hac hacked) hle hvalid with hi | hf
      · rw [hseq hev] at hi; exact Or.inl (hI hi)
      · rw [hev] at hf; exact Or.inr hf
    · have := h.frontier_le; omega
  case batch_sorted => exact h.batch_sorted
  case batch_gt => exact h.batch_gt
  case batch_le => exact fun e he => Nat.le_trans (h.batch_le e he) ht.sequence_le
  case batch_hist => exact fun e he => hH (h.batch_hist e he)
  case batch_cover =>
    intro r hr hacked hlt
    rcases ht.rows r hr with ⟨r₀, h₀, hev, hac⟩ | hnew
    · rw [← hseq hev] at hlt
      have := h.batch_cover r₀ h₀ (hac hacked) hlt
      rwa [hev, hseq hev] at this
    · -- a row appended since the batch was read is newer than all of it
      refine Or.inr fun e he => ?_
      have := h.batch_le e he; omega
  case acks =>
    intro f hf
    obtain ⟨n, hn, rfl, hcov⟩ := h.acks f hf
    refine ⟨n, Nat.le_trans hn ht.sequence_le, rfl, fun r hr hle => ?_⟩
    rcases ht.rows r hr with ⟨r₀, h₀, hev, _⟩ | hnew
    · rw [← hseq hev] at hle ⊢; exact hI (hcov r₀ h₀ hle)
    · omega

/-- The queue facts survive more keys. -/
theorem QueueInv.mono {t : EventTable} {H : List Event} {I I' : List IngestKey}
    (h : QueueInv S t H I) (hI : I ⊆ I') : QueueInv S t H I' where
  hist_bound  := h.hist_bound
  hist_unique := h.hist_unique
  row_hist    := h.row_hist
  kept        := fun e he hk => (h.kept e he hk).imp_right fun hi => hI hi
  acked       := fun r hr ha => hI (h.acked r hr ha)

/-- How a step may change a wire without its session noticing: messages are only lost, and a
    wire that is still open has lost none. -/
structure Wire.Follows (w w' : Wire) : Prop where
  toServer : w'.toServer.Sublist w.toServer
  opened   : w'.phase.open? = true → w.phase.open? = true ∧ w'.inFlight = w.inFlight
  toAgent  : w'.toAgent ⊆ w.toAgent

theorem Wire.Follows.refl (w : Wire) : w.Follows w :=
  ⟨List.Sublist.refl _, fun h => ⟨h, rfl⟩, fun _ h => h⟩

theorem Wire.Follows.of_close (w : Wire) {phase : Phase} (hp : phase.open? = false) :
    w.Follows (w.close phase) := by
  refine ⟨List.nil_sublist _, fun h => ?_, fun _ h => h⟩
  rw [show (w.close phase).phase = phase from rfl, hp] at h
  cases h

theorem SessionInv.of_wire {t : EventTable} {H : List Event} {I : List IngestKey} {w w' : Wire}
    {ss : Session} (h : SessionInv S t H I w ss) (hw : w.Follows w') :
    SessionInv S t H I w' ss := by
  have hsub : w'.inFlight.Sublist w.inFlight := hw.toServer.filterMap _
  refine { h with
    flight_sorted := h.flight_sorted.sublist hsub
    flight_le     := fun e he => h.flight_le e (hsub.subset he)
    flight_cover  := fun ho r hr ha hle hv => ?_
    acks          := fun f hf => h.acks f (hw.toAgent hf) }
  obtain ⟨ho', heq⟩ := hw.opened ho
  rw [heq]
  exact h.flight_cover ho' r hr ha hle hv

/-- Replacing one wire keeps the wire facts when the new one has them. -/
theorem WireInv.set {H : List Event} {s : State β} (h : WireInv S H s.wires) {i : Nat} {w : Wire}
    (hgreet : w.phase = .awaitingHello →
      ∃ lastSeq devices rest, w.toServer = .hello lastSeq devices :: rest)
    (hflight : ∀ e, Message.event e ∈ w.toServer → e ∈ H)
    (hid : w.phase = .registering ∨ w.phase = .registered →
      w.identity = (pyStrip S.agentId, S.stream)) :
    WireInv S H (s.setWire i w).wires := by
  have hcase : ∀ j, (s.setWire i w).wires j = if j = i then w else s.wires j := fun _ => rfl
  constructor
  case greeted =>
    intro j hj
    rw [hcase] at hj ⊢
    by_cases hji : j = i
    · rw [if_pos hji] at hj ⊢; exact hgreet hj
    · rw [if_neg hji] at hj ⊢; exact h.greeted j hj
  case flight =>
    intro j e he
    rw [hcase] at he
    by_cases hji : j = i
    · rw [if_pos hji] at he; exact hflight e he
    · rw [if_neg hji] at he; exact h.flight j e he
  case identity =>
    intro j hj
    rw [hcase] at hj ⊢
    by_cases hji : j = i
    · rw [if_pos hji] at hj ⊢; exact hid hj
    · rw [if_neg hji] at hj ⊢; exact h.identity j hj

/-- **Frame rule of a wire.**  A step that only lets one wire move on keeps the invariant. -/
theorem Inv.setWire {s : State β} (h : Inv S s) {i : Nat} {w : Wire}
    (hw : (s.wires i).Follows w)
    (hgreet : w.phase = .awaitingHello →
      ∃ lastSeq devices rest, w.toServer = .hello lastSeq devices :: rest)
    (hid : w.phase = .registering ∨ w.phase = .registered →
      w.identity = (pyStrip S.agentId, S.stream)) :
    Inv S (s.setWire i w) where
  queue   := h.queue
  effect  := h.effect
  wire    := h.wire.set hgreet (fun e he => h.wire.flight i e (hw.toServer.subset he)) hid
  session := by
    intro ss hss
    have hold := h.session ss hss
    by_cases hi : ss.wire = i
    · have hnew : (s.setWire i w).wires ss.wire = w := if_pos hi
      rw [hnew]
      rw [hi] at hold
      exact hold.of_wire hw
    · have hnew : (s.setWire i w).wires ss.wire = s.wires ss.wire := if_neg hi
      rw [hnew]; exact hold

/-- Ending a connection keeps the invariant. -/
theorem Inv.close {s : State β} (h : Inv S s) (i : Nat) (phase : Phase)
    (hp : phase.open? = false) : Inv S (s.setWire i ((s.wires i).close phase)) := by
  refine h.setWire (Wire.Follows.of_close _ hp) ?_ ?_
  · intro hph
    rw [show phase = .awaitingHello from hph] at hp; cases hp
  · rintro (hph | hph)
    · rw [show phase = .registering from hph] at hp; cases hp
    · rw [show phase = .registered from hph] at hp; cases hp

/-! ## The transaction -/

/-- **One transaction.**  Afterwards its key is there, every old key still is, and the log keeps
    matching the keys. -/
theorem EffectInv.applyEvent {H : List Event} {db db' : Database β}
    {effects : List (IngestKey × Frame)} {key : IngestKey} {f : Frame}
    {apply : β → Except ε (ρ × β)} {noteSeq : β → β} {r : Option ρ}
    (h : EffectInv S H db.ingested effects)
    (hours : ∀ n, key = S.key n → ∃ e ∈ H, e.seq = n ∧ f = e.toFrame)
    (hok : db.applyEvent key apply noteSeq = .ok (r, db')) :
    key ∈ db'.ingested ∧ db.ingested ⊆ db'.ingested ∧
      EffectInv S H db'.ingested (logEffect effects r key f) := by
  rcases Database.applyEvent_cases hok with ⟨rfl, hmem, hI⟩ | ⟨x, b, rfl, hnew, _, rfl⟩
  · -- a replay: nothing is claimed and nothing is logged
    rw [hI]
    exact ⟨hmem, fun _ h => h, h⟩
  · refine ⟨by simp, fun k hk => List.mem_append_left _ hk, ?_⟩
    constructor
    case keys => simp [logEffect, h.keys]
    case nodup =>
      refine List.nodup_append.mpr ⟨h.nodup, List.nodup_singleton _, ?_⟩
      intro a ha b hb
      rw [List.mem_singleton] at hb
      rintro rfl
      exact hnew (hb ▸ ha)
    case ours =>
      intro n g hg
      simp only [logEffect, Option.isSome_some, if_true, List.mem_append,
        List.mem_singleton, Prod.mk.injEq] at hg
      rcases hg with hg | ⟨hk, rfl⟩
      · exact h.ours n g hg
      · exact hours n hk.symm

/-- A transaction keeps the invariant: the keys grew and the log matches them. -/
theorem Inv.grow {s : State β} (h : Inv S s) {db : Database β}
    {effects : List (IngestKey × Frame)} (hI : s.db.ingested ⊆ db.ingested)
    (hE : EffectInv S s.history db.ingested effects) : Inv S { s with db, effects } where
  queue   := h.queue.mono hI
  effect  := hE
  wire    := h.wire
  session := fun ss hss => (h.session ss hss).mono (.refl _) (fun _ h => h) hI

end Air780eHub.Delivery
