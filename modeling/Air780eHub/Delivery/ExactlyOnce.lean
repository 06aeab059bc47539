/-
  No loss and exactly once, along every run of the event path.

  `Delivery/Invariant` states the joint invariant and the frame rules.  Here every step is shown to
  preserve it, one lemma a step, and the end-to-end statement is read off:

    an event that was appended and is not a status sample is still a row of the Agent's table, or
    the Server has committed its callback exactly once, on the frame the Agent appended.

  The steps that carry the argument are `inv_receiveAck` (what an ack deletes has been applied)
  and `inv_receive` (what is acked has been applied, and so has every older row).
-/
import Air780eHub.Delivery.Invariant

namespace Air780eHub.Delivery

universe u v w x

variable {β : Type u} {ω : Type v} {ε : Type w} {ρ : Type x} {S : Setup β ω ε ρ}
variable {s s' : State β}

/-! ## The Agent's queue -/

/-- More history keeps the wire facts. -/
theorem WireInv.mono {H H' : List Event} {wires : Nat → Wire} (h : WireInv S H wires)
    (hH : H ⊆ H') : WireInv S H' wires :=
  ⟨h.greeted, fun i e he => hH (h.flight i e he), h.identity⟩

theorem EffectInv.mono {H H' : List Event} {I : List IngestKey} {L : List (IngestKey × Frame)}
    (h : EffectInv S H I L) (hH : H ⊆ H') : EffectInv S H' I L := by
  refine ⟨h.keys, h.nodup, fun n f hf => ?_⟩
  obtain ⟨e, he, hseq, hfr⟩ := h.ours n f hf
  exact ⟨e, hH he, hseq, hfr⟩

theorem QueueInv.append {t : EventTable} {H : List Event} {I : List IngestKey}
    (h : QueueInv S t H I) (kind : String) (payload : Payload) :
    QueueInv S (t.appendEvent kind payload) (H ++ [t.appended kind payload]) I := by
  have hnew : ∀ {e}, e ∈ H ++ [t.appended kind payload] ↔ e ∈ H ∨ e = t.appended kind payload := by
    simp
  constructor
  case hist_bound =>
    intro e he
    rcases hnew.mp he with he | rfl
    · exact Nat.le_succ_of_le (h.hist_bound e he)
    · exact Nat.le_refl _
  case hist_unique =>
    -- the new number is larger than every number handed out before
    intro e he e' he' heq
    rcases hnew.mp he with he | rfl
    · rcases hnew.mp he' with he' | rfl
      · exact h.hist_unique e he e' he' heq
      · have := h.hist_bound e he
        have hs : (t.appended kind payload).seq = t.sequence + 1 := rfl
        omega
    · rcases hnew.mp he' with he' | rfl
      · have := h.hist_bound e' he'
        have hs : (t.appended kind payload).seq = t.sequence + 1 := rfl
        omega
      · rfl
  case row_hist =>
    intro r hr
    rcases EventTable.mem_appendEvent.mp hr with hr | rfl
    · exact hnew.mpr (Or.inl (h.row_hist r hr))
    · exact hnew.mpr (Or.inr rfl)
  case kept =>
    intro e he hk
    rcases hnew.mp he with he | rfl
    · rcases h.kept e he hk with ⟨r, hr, hev⟩ | hi
      · exact Or.inl ⟨r, EventTable.mem_appendEvent.mpr (Or.inl hr), hev⟩
      · exact Or.inr hi
    · exact Or.inl ⟨_, EventTable.mem_appendEvent.mpr (Or.inr rfl), rfl⟩
  case acked =>
    intro r hr ha
    rcases EventTable.mem_appendEvent.mp hr with hr | rfl
    · exact h.acked r hr ha
    · cases ha

/-- Deleting rows that are status samples or have been ingested keeps the queue facts. -/
theorem QueueInv.delete {t : EventTable} {H : List Event} {I : List IngestKey}
    (h : QueueInv S t H I) {p : EventRow → Bool}
    (hp : ∀ r ∈ t.rows, p r = true → r.kind = "status" ∨ S.key r.seq ∈ I) :
    QueueInv S (t.delete p) H I := by
  refine { h with
    row_hist := fun r hr => h.row_hist r (EventTable.mem_delete.mp hr).1
    kept     := fun e he hk => ?_
    acked    := fun r hr => h.acked r (EventTable.mem_delete.mp hr).1 }
  rcases h.kept e he hk with ⟨r, hr, rfl⟩ | hi
  · by_cases hpr : p r = true
    · rcases hp r hr hpr with hst | hi
      · exact absurd hst hk
      · exact Or.inr hi
    · exact Or.inl ⟨r, EventTable.mem_delete.mpr ⟨hr, by simpa using hpr⟩, rfl⟩
  · exact Or.inr hi

theorem QueueInv.trim {t : EventTable} {H : List Event} {I : List IngestKey}
    (h : QueueInv S t H I) (keep : Int) : QueueInv S (t.trimEvents keep) H I := by
  refine h.delete fun r hr hp => Or.inl ?_
  refine (EventTable.mem_trimEvents keep hr fun hin => ?_).1
  rw [(EventTable.mem_delete.mp hin).2] at hp
  cases hp

/-- Marking what an ack covers keeps the queue facts when all of it has been ingested. -/
theorem QueueInv.markAcked {t : EventTable} {H : List Event} {I : List IngestKey}
    (h : QueueInv S t H I) {n : Nat} (hcov : ∀ r ∈ t.rows, r.seq ≤ n → S.key r.seq ∈ I) :
    QueueInv S (t.markAcked n) H I := by
  refine { h with row_hist := fun r hr => ?_, kept := fun e he hk => ?_, acked := fun r hr ha => ?_ }
  · obtain ⟨r₀, h₀, hev, _⟩ := EventTable.of_mem_markAcked hr
    rw [← hev]; exact h.row_hist r₀ h₀
  · rcases h.kept e he hk with ⟨r, hr, rfl⟩ | hi
    · exact Or.inl (EventTable.mem_markAcked hr)
    · exact Or.inr hi
  · obtain ⟨r₀, h₀, hev, hcase⟩ := EventTable.of_mem_markAcked hr
    rcases hcase with rfl | ⟨_, hle⟩
    · exact h.acked r₀ h₀ ha
    · have hseq : r₀.seq = r.seq := congrArg Event.seq hev
      rw [← hseq] at hle ⊢
      exact hcov r₀ h₀ (by exact_mod_cast hle)

/-! ## The Agent's steps -/

theorem inv_append (h : Inv S s) (kind : String) (payload : Payload) :
    Inv S (append s kind payload) where
  queue   := h.queue.append kind payload
  effect  := h.effect.mono (List.subset_append_left _ _)
  wire    := h.wire.mono (List.subset_append_left _ _)
  session := fun ss hss => (h.session ss hss).mono (.of_append _ _ _)
    (List.subset_append_left _ _) fun _ h => h

theorem inv_trim (h : Inv S s) (keep : Int) :
    Inv S { s with events := s.events.trimEvents keep } where
  queue   := h.queue.trim keep
  effect  := h.effect
  wire    := h.wire
  session := fun ss hss => (h.session ss hss).mono (.of_delete _ _) (fun _ h => h) fun _ h => h

theorem inv_drop (h : Inv S s) : Inv S (drop s) where
  queue   := h.queue
  effect  := h.effect
  wire    := h.wire
  session := fun _ hss => by cases hss

theorem inv_connect {devices : List Value} (h : Inv S s) (hs : connect s devices = some s') :
    Inv S s' := by
  unfold connect at hs
  split at hs
  · cases hs
  · cases hs
    have hcase : ∀ j, (if j = s.opened then Wire.greeting s.events.lastSeq devices
        else s.wires j) = (s.setWire s.opened (.greeting s.events.lastSeq devices)).wires j :=
      fun _ => rfl
    refine ⟨h.queue, h.effect, ?_, ?_⟩
    · refine WireInv.set (s := s) h.wire ?_ ?_ ?_
      · exact fun _ => ⟨_, _, _, rfl⟩
      · intro e he; simp [Wire.greeting] at he
      · rintro (hp | hp) <;> cases hp
    · -- the mark starts at 0, so nothing is covered yet and nothing is owed
      intro ss hss
      cases hss
      have hw : (fun j => if j = s.opened then Wire.greeting s.events.lastSeq devices
          else s.wires j) s.opened = .greeting s.events.lastSeq devices := if_pos rfl
      simp only at hw ⊢
      rw [hw]
      constructor
      case frontier_le => exact Nat.zero_le _
      case flight_sorted => exact List.Pairwise.nil
      case flight_le => intro e he; simp [Wire.inFlight, Wire.greeting, Message.event?] at he
      case flight_cover =>
        intro _ r hr _ hle _
        have h1 := (s.events.bounded r hr).1
        have h0 : r.seq ≤ 0 := hle
        omega
      case batch_sorted => exact List.Pairwise.nil
      case batch_gt => intro e he; cases he
      case batch_le => intro e he; cases he
      case batch_hist => intro e he; cases he
      case batch_cover => exact fun _ _ _ _ => Or.inr fun e he => by cases he
      case acks => intro f hf; cases hf

/-- What the sender reads is the next stretch of unacked rows above its mark, without holes. -/
theorem inv_fetchBatch (h : Inv S s) (hs : fetchBatch s = some s') : Inv S s' := by
  unfold fetchBatch at hs
  split at hs
  case h_2 => cases hs
  case h_1 w mark hsess =>
    cases hs
    have hold := h.session _ hsess
    refine ⟨h.queue, h.effect, h.wire, fun ss hss => ?_⟩
    cases hss
    have hrow : ∀ e ∈ (s.events.unackedEvents BATCH).filter (fun e => decide (mark < e.seq)),
        mark < e.seq ∧ ∃ r ∈ s.events.rows, r.event = e := by
      intro e he
      obtain ⟨hmem, hlt⟩ := List.mem_filter.mp he
      obtain ⟨r, hr, _, hev⟩ := EventTable.of_mem_unackedEvents hmem
      exact ⟨by simpa using hlt, r, hr, hev⟩
    refine { hold with
      batch_sorted := (s.events.unackedEvents_sorted BATCH).sublist List.filter_sublist
      batch_gt     := fun e he => (hrow e he).1
      batch_le     := fun e he => ?_
      batch_hist   := fun e he => ?_
      batch_cover  := fun r hr hacked hlt => ?_ }
    · obtain ⟨_, r, hr, rfl⟩ := hrow e he
      exact (s.events.bounded r hr).2
    · obtain ⟨_, r, hr, rfl⟩ := hrow e he
      exact h.queue.row_hist r hr
    · rcases EventTable.unackedEvents_cover BATCH hr hacked with hin | hold
      · exact Or.inl (List.mem_filter.mpr ⟨hin, decide_eq_true (p := mark < r.seq) hlt⟩)
      · exact Or.inr fun e he => hold e (List.mem_of_mem_filter he)

theorem inv_markSent (h : Inv S s) (hs : markSent s = some s') : Inv S s' := by
  unfold markSent at hs
  split at hs
  case h_2 => cases hs
  case h_1 w mark rest e hsess =>
    cases hs
    have hold := h.session _ hsess
    refine ⟨h.queue, h.effect, h.wire, fun ss hss => ?_⟩
    cases hss
    -- the frontier is the event's number before and after
    exact ⟨hold.frontier_le, hold.flight_sorted, hold.flight_le, hold.flight_cover,
      hold.batch_sorted, hold.batch_gt, hold.batch_le, hold.batch_hist, hold.batch_cover,
      hold.acks⟩

/-- Handing the head of the batch to the socket moves the frontier to it.  It is in flight now,
    or the Server no longer reads this connection. -/
theorem SessionInv.send {t : EventTable} {H : List Event} {I : List IngestKey} {w w' : Wire}
    {i mark : Nat} {e : Event} {rest : List Event}
    (h : SessionInv S t H I w ⟨i, mark, e :: rest, none⟩)
    (hfl : w'.inFlight = w.inFlight ++ [e] ∨
      (w'.inFlight = w.inFlight ∧ w'.phase.open? = false))
    (hphase : w'.phase = w.phase) (hacks : w'.toAgent = w.toAgent) :
    SessionInv S t H I w' ⟨i, mark, rest, some e⟩ := by
  obtain ⟨hhead, htail⟩ := List.pairwise_cons.mp h.batch_sorted
  have hmark : mark < e.seq := h.batch_gt e List.mem_cons_self
  have hrest : ∀ {b}, b ∈ rest → b ∈ e :: rest := fun hb => List.mem_cons_of_mem _ hb
  constructor
  case frontier_le => exact h.batch_le e List.mem_cons_self
  case flight_sorted =>
    rcases hfl with heq | ⟨heq, _⟩
    · rw [heq]
      refine List.pairwise_append.mpr ⟨h.flight_sorted, List.pairwise_singleton _ _, ?_⟩
      intro a ha b hb
      rw [List.mem_singleton] at hb
      subst hb
      exact Nat.lt_of_le_of_lt (h.flight_le a ha) hmark
    · rw [heq]; exact h.flight_sorted
  case flight_le =>
    have hold : ∀ a ∈ w.inFlight, a.seq ≤ e.seq := fun a ha =>
      Nat.le_of_lt (Nat.lt_of_le_of_lt (h.flight_le a ha) hmark)
    intro a ha
    rcases hfl with heq | ⟨heq, _⟩
    · rw [heq] at ha
      rcases List.mem_append.mp ha with ha | ha
      · exact hold a ha
      · rw [List.mem_singleton] at ha; subst ha; exact Nat.le_refl _
    · rw [heq] at ha; exact hold a ha
  case flight_cover =>
    intro ho r hr hacked hle hvalid
    have heq : w'.inFlight = w.inFlight ++ [e] := by
      rcases hfl with heq | ⟨_, hc⟩
      · exact heq
      · rw [hc] at ho; cases ho
    rw [heq]
    by_cases hlt : mark < r.seq
    · -- between the old frontier and the new one there is only `e`
      right
      rcases h.batch_cover r hr hacked hlt with hin | hall
      · rcases List.mem_cons.mp hin with hre | hre
        · rw [hre]; simp
        · have h1 := hhead r.event hre
          have h2 : r.seq ≤ e.seq := hle
          have h3 : r.event.seq = r.seq := rfl
          omega
      · have h1 := hall e List.mem_cons_self
        have h2 : r.seq ≤ e.seq := hle
        omega
    · rw [hphase] at ho
      rcases h.flight_cover ho r hr hacked (Nat.le_of_not_lt hlt) hvalid with hi | hf
      · exact Or.inl hi
      · exact Or.inr (List.mem_append_left _ hf)
  case batch_sorted => exact htail
  case batch_gt => exact fun b hb => hhead b hb
  case batch_le => exact fun b hb => h.batch_le b (hrest hb)
  case batch_hist => exact fun b hb => h.batch_hist b (hrest hb)
  case batch_cover =>
    intro r hr hacked hlt
    have hlt' : e.seq < r.seq := hlt
    rcases h.batch_cover r hr hacked (Nat.lt_trans hmark hlt') with hin | hall
    · rcases List.mem_cons.mp hin with hre | hre
      · have : r.seq = e.seq := congrArg Event.seq hre
        omega
      · exact Or.inl hre
    · exact Or.inr fun b hb => hall b (hrest hb)
  case acks => rw [hacks]; exact h.acks

theorem inv_send (h : Inv S s) (hs : send s = some s') : Inv S s' := by
  unfold send at hs
  split at hs
  case h_2 => cases hs
  case h_1 w mark e rest hsess =>
    have hold := h.session _ hsess
    cases hs
    by_cases ho : (s.wires w).phase.open? = true
    · rw [if_pos ho]
      have hw : ∀ j, (s.setWire w { s.wires w with
          toServer := (s.wires w).toServer ++ [.event e] }).wires j = if j = w then
          { s.wires w with toServer := (s.wires w).toServer ++ [.event e] } else s.wires j :=
        fun _ => rfl
      refine ⟨h.queue, h.effect, h.wire.set (s := s) ?_ ?_ (h.wire.identity w), ?_⟩
      · intro hp
        obtain ⟨l, d, r, heq⟩ := h.wire.greeted w hp
        exact ⟨l, d, r ++ [.event e], by simp [heq]⟩
      · intro b hb
        rcases List.mem_append.mp hb with hb | hb
        · exact h.wire.flight w b hb
        · have hbe : b = e := by simpa using hb
          rw [hbe]; exact hold.batch_hist e List.mem_cons_self
      · intro ss hss
        cases hss
        simp only [State.setWire, if_true]
        exact hold.send (Or.inl (by simp [Wire.inFlight, Message.event?])) rfl rfl
    · rw [if_neg ho]
      refine ⟨h.queue, h.effect, h.wire, fun ss hss => ?_⟩
      cases hss
      exact hold.send (Or.inr ⟨rfl, by simpa using ho⟩) rfl rfl

/-- **What an ack removes has been applied.**  `ack` is one of the two statements of
    `ack_through`, or both. -/
theorem inv_receiveAck_with {ack : EventTable → Int → EventTable}
    (hq : ∀ {t : EventTable} {n : Nat}, QueueInv S t s.history s.db.ingested →
      (∀ r ∈ t.rows, r.seq ≤ n → S.key r.seq ∈ s.db.ingested) →
      QueueInv S (ack t n) s.history s.db.ingested)
    (hf : ∀ (t : EventTable) (n : Nat), EventTable.Follows t (ack t n))
    (h : Inv S s) (hs : receiveAck s ack = some s') : Inv S s' := by
  unfold receiveAck at hs
  split at hs
  case h_1 => cases hs
  case h_2 ss hsess =>
    split at hs
    case h_1 => cases hs
    case h_2 f rest hwire =>
      cases hs
      have hold := h.session ss hsess
      obtain ⟨n, _, rfl, hcov⟩ := hold.acks f (by rw [hwire]; exact List.mem_cons_self)
      -- the connection with the ack taken off it
      have hpop : Inv S (s.setWire ss.wire { s.wires ss.wire with toAgent := rest }) := by
        refine h.setWire ⟨List.Sublist.refl _, fun ho => ⟨ho, rfl⟩, ?_⟩
          (h.wire.greeted ss.wire) (h.wire.identity ss.wire)
        intro g hg
        rw [hwire]; exact List.mem_cons_of_mem _ hg
      refine ⟨hq h.queue hcov, h.effect, hpop.wire, fun ss' hss' => ?_⟩
      exact (hpop.session ss' hss').mono (hf _ _) (fun _ h => h) fun _ h => h

theorem inv_receiveAck (h : Inv S s) (hs : receiveAck s EventTable.ackThrough = some s') :
    Inv S s' := by
  refine inv_receiveAck_with (fun {t n} hq hcov => ?_) (fun t n => ?_) h hs
  · have hm := hq.markAcked hcov
    refine hm.delete fun r hr hp => Or.inr (hm.acked r hr ?_)
    simp only [Bool.and_eq_true] at hp
    exact hp.1
  · have h1 := EventTable.Follows.of_markAcked t n
    have h2 := EventTable.Follows.of_delete (t.markAcked n)
      fun r => r.acked && (r.seq : Int) ≤ n
    refine ⟨Nat.le_trans h1.sequence_le h2.sequence_le, fun r hr => ?_⟩
    exact h1.rows r (EventTable.mem_delete.mp hr).1

theorem inv_tornAck (h : Inv S s)
    (hs : (receiveAck s EventTable.markAcked).map drop = some s') : Inv S s' := by
  obtain ⟨s₁, h₁, rfl⟩ := Option.map_eq_some_iff.mp hs
  exact inv_drop (inv_receiveAck_with (fun hq hcov => hq.markAcked hcov)
    (fun t n => .of_markAcked t n) h h₁)

/-! ## The Server's steps -/

theorem inv_hello {i : Nat} (h : Inv S s) (hs : S.hello s i = some s') : Inv S s' := by
  unfold Setup.hello at hs
  split at hs
  case h_2 => cases hs
  case h_1 m rest hphase hqueue =>
    obtain ⟨l, d, rest', hgreet⟩ := h.wire.greeted i hphase
    obtain ⟨rfl, rfl⟩ : m = .hello l d ∧ rest = rest' := by
      rw [hgreet] at hqueue; simpa [eq_comm] using hqueue
    rw [if_pos (show (S.frame (.hello l d)).get "type" = .str "hello" from rfl)] at hs
    cases hid : helloAgentId S.repr (S.frame (.hello l d)) with
    | none =>
      rw [hid] at hs
      cases hs
      exact h.close i .closed rfl
    | some id =>
      simp only [hid] at hs
      by_cases ho : s.owner.isSome = true
      · rw [if_pos ho] at hs
        cases hs
        exact h.close i .closed rfl
      · rw [if_neg ho] at hs
        cases hs
        have hnext := h.setWire (i := i) (w := { s.wires i with
            phase := .registering
            identity := (id, helloStreamId S.repr (S.frame (.hello l d)))
            toServer := rest }) ?_ (fun hp => by cases hp) fun _ => ?_
        · exact ⟨hnext.queue, hnext.effect, hnext.wire, hnext.session⟩
        · refine ⟨?_, fun _ => ⟨by rw [hphase]; rfl, ?_⟩, fun _ h => h⟩
          · rw [hqueue]; exact List.sublist_cons_self _ _
          · rw [Wire.inFlight, Wire.inFlight, hqueue]; rfl
        · rw [helloAgentId_frame S hid]; rfl

theorem inv_persist {i : Nat} {ok : Bool} {business : β} (h : Inv S s)
    (hs : persist s i ok business = some s') : Inv S s' := by
  unfold persist at hs
  split at hs
  case h_2 => cases hs
  case h_1 hphase =>
    cases hs
    have hnext : Inv S (s.setWire i (if ok then { s.wires i with phase := .registered }
        else (s.wires i).close .closing)) := by
      cases ok with
      | false => exact h.close i .closing rfl
      | true =>
        refine h.setWire ⟨List.Sublist.refl _, fun _ => ⟨by rw [hphase]; rfl, rfl⟩, fun _ h => h⟩
          (fun hp => by cases hp) fun _ => h.wire.identity i (Or.inl hphase)
    exact ⟨hnext.queue, hnext.effect, hnext.wire, hnext.session⟩

theorem inv_disconnect {i : Nat} (h : Inv S s) (hs : disconnect s i = some s') : Inv S s' := by
  unfold disconnect at hs
  split at hs
  · cases hs; exact h.close i .closed rfl
  · cases hs; exact h.close i .closing rfl
  · cases hs

theorem inv_release {i : Nat} {business : β} (h : Inv S s)
    (hs : release s i business = some s') : Inv S s' := by
  unfold release at hs
  split at hs
  case h_2 => cases hs
  case h_1 =>
    cases hs
    have hnext := h.close i .closed rfl
    exact ⟨hnext.queue, hnext.effect, hnext.wire, hnext.session⟩

theorem inv_restart (h : Inv S s) : Inv S (restart s) where
  queue   := h.queue
  effect  := h.effect
  wire    := by
    constructor
    case greeted => intro i hp; cases hp
    case flight => intro i e he; cases he
    case identity => rintro i (hp | hp) <;> cases hp
  session := fun ss hss => (h.session ss hss).of_wire (Wire.Follows.of_close _ rfl)

/-- **The connection after its first event is read.**  `I` has the new keys, `acks` the acks on
    their way down.  Every row up to the event is ingested, so its number may be acked. -/
theorem SessionInv.read {I I' : List IngestKey} {H : List Event} {t : EventTable} {w : Wire}
    {ss : Session} {e : Event} {rest : List Message} {acks : List Frame}
    (h : SessionInv S t H I w ss) (hq : QueueInv S t H I) (hopen : w.phase.open? = true)
    (hmem : e ∈ H) (hqueue : w.toServer = .event e :: rest) (hI : I ⊆ I')
    (hin : validSeq (.int e.seq) = true → S.key e.seq ∈ I')
    (hacks : acks = w.toAgent ∨
      (validSeq (.int e.seq) = true ∧ acks = w.toAgent ++ [Setup.ackFrame e.seq])) :
    SessionInv S t H I' { w with toServer := rest, toAgent := acks } ss := by
  have hfl : w.inFlight = e :: rest.filterMap Message.event? := by
    rw [Wire.inFlight, hqueue]; rfl
  have hsorted := h.flight_sorted
  rw [hfl] at hsorted
  obtain ⟨hhead, htail⟩ := List.pairwise_cons.mp hsorted
  -- a row that was owed is owed still, or it was the event just read
  have howed : ∀ r ∈ t.rows, r.acked = false → r.seq ≤ ss.frontier →
      validSeq (.int r.seq) = true →
      S.key r.seq ∈ I' ∨ r.event ∈ rest.filterMap Message.event? := by
    intro r hr hra hle hv
    rcases h.flight_cover hopen r hr hra hle hv with hi | hf
    · exact Or.inl (hI hi)
    · rw [hfl] at hf
      rcases List.mem_cons.mp hf with hre | hre
      · have hseq : r.seq = e.seq := congrArg Event.seq hre
        rw [hseq] at hv ⊢; exact Or.inl (hin hv)
      · exact Or.inr hre
  have hkeep := (h.mono (EventTable.Follows.refl _) (fun _ h => h) hI).acks
  refine { h.mono (EventTable.Follows.refl _) (fun _ h => h) hI with
    flight_sorted := htail
    flight_le     := fun b hb => h.flight_le b (by rw [hfl]; exact List.mem_cons_of_mem _ hb)
    flight_cover  := fun _ => howed
    acks          := fun f hf => ?_ }
  rcases hacks with rfl | ⟨hv, rfl⟩
  · exact hkeep f hf
  · rcases List.mem_append.mp hf with hf | hf
    · exact hkeep f hf
    · rw [List.mem_singleton] at hf
      refine ⟨e.seq, hq.hist_bound e hmem, hf, fun r hr hle => ?_⟩
      cases hra : r.acked with
      | true => exact hI (hq.acked r hr hra)
      | false =>
        have hef := h.flight_le e (by rw [hfl]; exact List.mem_cons_self)
        have hrv : validSeq (.int r.seq) = true := by
          have h1 := (t.bounded r hr).1
          simp only [validSeq, Bool.and_eq_true, decide_eq_true_eq] at hv ⊢
          omega
        rcases howed r hr hra (Nat.le_trans hle hef) hrv with hi | hf'
        · exact hi
        · -- what is still in flight is newer than the event just read
          obtain ⟨m, hm, hmr⟩ := List.mem_filterMap.mp hf'
          have h1 := hhead r.event (List.mem_filterMap.mpr ⟨m, hm, hmr⟩)
          rw [EventRow.event_seq] at h1
          omega

/-- The state after the first event of a registered connection is read, whatever became of it. -/
theorem Inv.read {i : Nat} {e : Event} {rest : List Message} {acks : List Frame}
    {db : Database β} {effects : List (IngestKey × Frame)} (h : Inv S s)
    (hphase : (s.wires i).phase = .registered)
    (hqueue : (s.wires i).toServer = .event e :: rest)
    (hI : s.db.ingested ⊆ db.ingested) (hE : EffectInv S s.history db.ingested effects)
    (hin : validSeq (.int e.seq) = true → S.key e.seq ∈ db.ingested)
    (hacks : acks = (s.wires i).toAgent ∨ (validSeq (.int e.seq) = true ∧
      acks = (s.wires i).toAgent ++ [Setup.ackFrame e.seq])) :
    Inv S (State.setWire { s with db, effects } i
      { s.wires i with toServer := rest, toAgent := acks }) := by
  have hmem : ∀ m ∈ rest, m ∈ (s.wires i).toServer := fun m hm => by
    rw [hqueue]; exact List.mem_cons_of_mem _ hm
  refine ⟨h.queue.mono hI, hE, ?_, fun ss hss => ?_⟩
  · refine WireInv.set (s := { s with db, effects }) h.wire (fun hp => ?_) (fun b hb => ?_)
      (h.wire.identity i)
    · rw [show (s.wires i).phase = .awaitingHello from hp] at hphase; cases hphase
    · exact h.wire.flight i b (hmem _ hb)
  · have hold := h.session ss hss
    by_cases hi : ss.wire = i
    · simp only [State.setWire, hi, if_true]
      rw [hi] at hold
      refine hold.read h.queue (by rw [hphase]; rfl) ?_ hqueue hI hin hacks
      exact h.wire.flight i e (by rw [hqueue]; exact List.mem_cons_self)
    · simp only [State.setWire, hi, if_false]
      exact hold.mono (.refl _) (fun _ h => h) hI

/-- **The Server reads an event.**  What is acked has been applied. -/
theorem inv_ingest {i : Nat} {e : Event} {rest : List Message} {env : ω} {reply : Setup.Reply}
    (h : Inv S s) (hphase : (s.wires i).phase = .registered)
    (hqueue : (s.wires i).toServer = .event e :: rest) :
    Inv S (S.ingest s i { s.wires i with toServer := rest } e.toFrame env reply) := by
  have hmem : e ∈ s.history := h.wire.flight i e (by rw [hqueue]; exact List.mem_cons_self)
  have hkey : (⟨(s.wires i).identity.1, (s.wires i).identity.2, (e.seq : Int).toNat⟩ :
      IngestKey) = S.key e.seq := by rw [h.wire.identity i (Or.inr hphase)]; rfl
  simp only [Setup.ingest, Event.toFrame_seq]
  split
  case isFalse hv =>
    exact h.read hphase hqueue (fun _ h => h) h.effect (fun hv' => absurd hv' hv) (Or.inl rfl)
  case isTrue hv =>
    rw [hkey]
    split
    · exact h.close i .closing rfl
    · rename_i r db hok
      obtain ⟨hin, hI, hE⟩ := h.effect.applyEvent (f := e.toFrame)
        (fun n hn => ⟨e, hmem, S.key_inj hn, rfl⟩) hok
      cases reply with
      | acked => exact h.read hphase hqueue hI hE (fun _ => hin) (Or.inr ⟨hv, rfl⟩)
      | notReady => exact h.read hphase hqueue hI hE (fun _ => hin) (Or.inl rfl)
      | failed => exact (h.grow hI hE).close i .closing rfl

theorem inv_receive {i : Nat} {env : ω} {reply : Setup.Reply} (h : Inv S s)
    (hs : S.receive s i env reply = some s') : Inv S s' := by
  unfold Setup.receive at hs
  split at hs
  case h_2 => cases hs
  case h_1 m rest hphase hqueue =>
    by_cases hhello : (S.frame m).get "type" = .str "hello"
    · rw [if_pos hhello] at hs
      cases hs
      exact h.close i .closing rfl
    · rw [if_neg hhello] at hs
      cases hs
      cases m with
      | hello l d => exact absurd rfl hhello
      | event e => exact inv_ingest h hphase hqueue

theorem inv_foreign {key : IngestKey} {f : Frame} {env : ω} (h : Inv S s)
    (hs : S.foreign s key f env = some s') : Inv S s' := by
  unfold Setup.foreign at hs
  split at hs
  case isTrue => cases hs
  case isFalse hkey =>
    split at hs
    · cases hs; exact h
    · rename_i r db hok
      cases hs
      have hother : ∀ n, key = S.key n → ∃ e ∈ s.history, e.seq = n ∧ f = e.toFrame := by
        intro n hn
        rw [hn] at hkey
        exact absurd ⟨rfl, rfl⟩ hkey
      obtain ⟨_, hI, hE⟩ := h.effect.applyEvent hother hok
      exact h.grow hI hE

theorem inv_otherWrite (h : Inv S s) (business : β) :
    Inv S { s with db := { s.db with business } } :=
  ⟨h.queue, h.effect, h.wire, h.session⟩

/-! ## The whole run -/

/-- **Every step preserves the joint invariant.** -/
theorem inv_step {a : Action β ω} (h : Inv S s) (hs : S.step s a = some s') : Inv S s' := by
  cases a with
  | append kind payload => cases hs; exact inv_append h kind payload
  | trim keep => cases hs; exact inv_trim h keep
  | connect devices => exact inv_connect h hs
  | fetchBatch => exact inv_fetchBatch h hs
  | send => exact inv_send h hs
  | markSent => exact inv_markSent h hs
  | receiveAck => exact inv_receiveAck h hs
  | tornAck => exact inv_tornAck h hs
  | drop => cases hs; exact inv_drop h
  | hello i => exact inv_hello h hs
  | persist i ok business => exact inv_persist h hs
  | receive i env reply => exact inv_receive h hs
  | disconnect i => exact inv_disconnect h hs
  | release i business => exact inv_release h hs
  | restart => cases hs; exact inv_restart h
  | foreign key f env => exact inv_foreign h hs
  | otherWrite business => cases hs; exact inv_otherWrite h business

theorem inv_init (business : β) : Inv S (.init business) where
  queue   := ⟨by simp [State.init], by simp [State.init], by simp [State.init, EventTable.empty],
    by simp [State.init], by simp [State.init, EventTable.empty]⟩
  effect  := ⟨rfl, List.nodup_nil, by simp [State.init]⟩
  wire    := by
    constructor
    case greeted => intro i hp; cases hp
    case flight => intro i e he; cases he
    case identity => rintro i (hp | hp) <;> cases hp
  session := fun _ hss => by cases hss

theorem inv_reachable (h : S.machine.Reachable s) : Inv S s := by
  refine h.invariant (I := Inv S) ?_ ?_
  · rintro s₀ ⟨business, rfl⟩
    exact inv_init business
  · intro s₀ a s₁ hi _ hs
    exact inv_step hi hs

/-- An event of the Agent whose key the Server holds was committed once, on its own frame. -/
theorem Inv.committed_once (h : Inv S s) {e : Event} (he : e ∈ s.history)
    (hk : S.key e.seq ∈ s.db.ingested) :
    (s.effects.filter fun x => x.1 = S.key e.seq) = [(S.key e.seq, e.toFrame)] := by
  have hnodup : (s.effects.map Prod.fst).Nodup := h.effect.keys ▸ h.effect.nodup
  rw [h.effect.keys] at hk
  obtain ⟨⟨k, f⟩, hx, hkx⟩ := List.mem_map.mp hk
  obtain rfl : k = S.key e.seq := hkx
  obtain ⟨e', he', hseq, rfl⟩ := h.effect.ours e.seq f hx
  obtain rfl := h.queue.hist_unique e' he' e he hseq
  have hone := filter_key_eq hnodup hx
  dsimp only at hone
  exact hone

/-- A Server whose business state is the list of the frames it was given. -/
def logSetup : Setup (List Frame) Unit Unit Unit where
  agentId  := " agent-1"
  version  := "1.0"
  streamId := "5f"
  repr     := fun _ => ""
  apply    := fun _ _ f b => .ok ((), b ++ [f])
  noteSeq  := fun _ b => b

/-- Two events are appended; the first is applied, its ack is lost with the connection, and it is
    delivered again on the next one. -/
def lostAckRun : List (Action (List Frame) Unit) :=
  [.append "sms_in" ⟨[("body", .str "1234")], by decide⟩, .append "status" ⟨[], noReserved_nil⟩,
   .connect [], .hello 0, .persist 0 true [], .fetchBatch, .send, .markSent, .send,
   .receive 0 () .notReady, .drop, .disconnect 0, .release 0 [], .connect [], .hello 1,
   .persist 1 true [], .fetchBatch, .send, .receive 1 () .acked, .receiveAck]

end Air780eHub.Delivery
