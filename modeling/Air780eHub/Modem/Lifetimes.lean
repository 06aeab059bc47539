/-
  Held segments across the sessions of one worker.

  `_connect` builds a new `Air780E`, `_teardown` drops it, and a process restart drops everything
  in memory.  What survives is the modem's store and what `on_sms` put into the local database.
  The reassembler holds a segment whose slot is already free, so a session that ends inside the
  reassembly window takes it along (`teardown_loses`).

  1. **The worker** as a machine over the session's steps.
  2. **The invariant**: the ledger is owned and covered for the segments of concatenated messages;
     a worker that is down has nothing in memory.
  3. **The result** (`segment_survives`), a run it applies to, and the run that loses a segment.
-/
import Air780eHub.Modem.Inbox

namespace Air780eHub.Modem

open Mailbox

/-! ## The worker -/

namespace State

/-- After `Air780E.close` and with the instance dropped. -/
def closed (s : State) : State :=
  { s with reassembler := {}, newMessageIndexes := [], fetch := .idle, drains := [] }

/-- A new `Air780E`, initialised; `_connect` is about to drain the store. -/
def opened (s : State) : State := { s.closed with drains := [.listing] }

end State

/-- A `DeviceWorker` and its module: whether a session is up, and the session. -/
structure Link where
  up  : Bool
  air : State

/-- What happens to a worker. -/
inductive LinkAct
  /-- A step of the session; with no session, the network and the clock only. -/
  | modem (a : Act)
  /-- `_connect`. -/
  | connect
  /-- The port is lost, or the worker stops: `_teardown`. -/
  | teardown
  /-- The Agent's process ends. -/
  | restart

namespace Link

/-- One step. -/
def step (cfg : Config) (w : Link) : LinkAct → Option Link
  | .modem a =>
    if w.up then (w.air.step cfg a).map fun air => ⟨true, air⟩
    else match a with
      | .arrive index pdu declared => (w.air.land index pdu declared).map fun air => ⟨false, air⟩
      | .tick d => some ⟨false, { w.air with clock := w.air.clock + d }⟩
      | _ => none
  | .connect  => if w.up then none else some ⟨true, w.air.opened⟩
  | .teardown => some ⟨false, w.air.closed⟩
  | .restart  => some ⟨false, w.air.closed⟩

/-- No session yet; the store holds anything. -/
structure Starts (w : Link) : Prop where
  down    : w.up = false
  closed  : w.air = w.air.closed
  numbers : (w.air.slots.map Prod.fst).Nodup
  freed   : w.air.freed = []

/-- What would be lost if the session ended now: in memory only, read as a segment of a
    concatenated message, and its slot freed. -/
def atRisk (cfg : Config) (s : State) : List Stored :=
  (s.reassembler.held ++ (readsOf s.fetch.waiting ++ readsOf (s.drains.flatMap Drain.waiting))).filter
    fun r => cfg.concatenated r.pdu && s.freed.any fun f => f.1.pdu == r.pdu

/-- The condition: the steps of a session are safe for segments, and a session does not end while
    its memory holds a segment whose slot was freed. -/
def safe (cfg : Config) (w : Link) : LinkAct → Bool
  | .modem a  => !w.up || w.air.safe cfg cfg.concatenated a
  | .connect  => true
  | .teardown => (atRisk cfg w.air).isEmpty
  | .restart  => (atRisk cfg w.air).isEmpty

end Link

/-- A worker as a machine. -/
def worker (cfg : Config) : Machine Link LinkAct where
  Start := Link.Starts
  step := Link.step cfg

theorem Config.decodable_of_concatenated {cfg : Config} {p : String}
    (h : cfg.concatenated p = true) : cfg.decodable p = true := by
  rw [decodable]
  rw [concatenated] at h
  cases hd : cfg.decode p with
  | none => rw [hd] at h; cases h
  | some sms => rfl

/-! ## The invariant -/

namespace Link

/-- A worker that is down has nothing in memory. -/
def Idle (w : Link) : Prop := w.up = false → w.air = w.air.closed

/-- A state with the memory of a closed one is closed. -/
theorem closed_of_memory {s t : State} (hr : t.reassembler = s.reassembler)
    (hq : t.newMessageIndexes = s.newMessageIndexes) (hf : t.fetch = s.fetch)
    (hd : t.drains = s.drains) (hs : s = s.closed) : t = t.closed := by
  have hr' : t.reassembler = {} := hr.trans (congrArg State.reassembler hs)
  have hq' : t.newMessageIndexes = [] := hq.trans (congrArg State.newMessageIndexes hs)
  have hf' : t.fetch = .idle := hf.trans (congrArg State.fetch hs)
  have hd' : t.drains = [] := hd.trans (congrArg State.drains hs)
  rw [State.closed, ← hr', ← hq', ← hf', ← hd']

/-- A session that is closed leaves a ledger with nothing in memory. -/
theorem closed_moves {cfg : Config} {P : Policy Nat Stored} {s : State}
    (hd : P.reset s.ledger) : Moves cfg.visible P s.ledger s.closed.ledger :=
  Moves.one (.reset hd) (Ledger.ext rfl rfl rfl rfl rfl rfl rfl rfl)

theorem reset_of_atRisk {cfg : Config} {s : State} (h : (atRisk cfg s).isEmpty = true) :
    (keep (ι := Nat) Stored.pdu fun p => cfg.concatenated p = true).reset s.ledger := by
  intro r hr hrel f hf heq
  have hsplit : s.ledger.held + s.ledger.waiting
      = ↑(s.reassembler.held
          ++ (readsOf s.fetch.waiting ++ readsOf (s.drains.flatMap Drain.waiting))) := by
    rw [← Multiset.coe_add, ← Multiset.coe_add, ← State.waiting_sum]
    rfl
  rw [hsplit] at hr
  have hin : r ∈ atRisk cfg s := by
    refine List.mem_filter.mpr ⟨Multiset.mem_coe.mp hr, ?_⟩
    rw [Bool.and_eq_true, List.any_eq_true]
    exact ⟨hrel, f, Multiset.mem_coe.mp hf, beq_iff_eq.mpr heq⟩
  rw [List.isEmpty_iff.mp h] at hin
  cases hin

/-- The ledger is owned, and covered for the segments of concatenated messages. -/
def Covers (cfg : Config) (w : Link) : Prop :=
  w.air.ledger.Owned ∧ w.air.ledger.Covered Stored.pdu fun p => cfg.concatenated p = true

theorem idle_step {cfg : Config} {w w' : Link} {a : LinkAct} (hs : w.step cfg a = some w')
    (h : w.Idle) : w'.Idle := by
  intro hdown
  cases a with
  | modem a =>
    cases hup : w.up with
    | true =>
      simp only [step, hup, if_true, Option.map_eq_some_iff] at hs
      obtain ⟨air, -, rfl⟩ := hs
      cases hdown
    | false =>
      have hclosed := h hup
      simp only [step, hup, Bool.false_eq_true, if_false] at hs
      cases a with
      | arrive index pdu declared =>
        obtain ⟨t, ht, rfl⟩ := Option.map_eq_some_iff.mp hs
        rw [State.land] at ht
        split at ht
        · cases ht
        · obtain rfl := Option.some.inj ht
          exact closed_of_memory (s := w.air) rfl rfl rfl rfl hclosed
      | tick d =>
        obtain rfl := Option.some.inj hs
        exact closed_of_memory (s := w.air) rfl rfl rfl rfl hclosed
      | _ => cases hs
  | connect =>
    rw [step] at hs
    split at hs
    · cases hs
    · obtain rfl := Option.some.inj hs; cases hdown
  | teardown => obtain rfl := Option.some.inj hs; rfl
  | restart => obtain rfl := Option.some.inj hs; rfl

theorem covers_step {cfg : Config} (hdel : cfg.deleteAfterRead = true) {w w' : Link} {a : LinkAct}
    (hs : w.step cfg a = some w') (hsafe : w.safe cfg a = true) (hidle : w.Idle)
    (h : w.Covers cfg) : w'.Covers cfg := by
  have hclose : (atRisk cfg w.air).isEmpty = true → Covers cfg ⟨false, w.air.closed⟩ := by
    intro he
    have hmoves := @closed_moves cfg _ _ (reset_of_atRisk he)
    exact ⟨hmoves.invariant Ledger.Owned.move h.1,
      hmoves.invariant
        (Ledger.Covered.move fun m hm => @Config.decodable_of_concatenated cfg _ hm) h.2⟩
  cases a with
  | modem a =>
    cases hup : w.up with
    | true =>
      simp only [step, hup, if_true, Option.map_eq_some_iff] at hs
      obtain ⟨air, hair, rfl⟩ := hs
      simp only [safe, hup, Bool.not_true, Bool.false_or] at hsafe
      exact State.step_covered hdel (fun p hp => Config.decodable_of_concatenated hp) hair hsafe h
    | false =>
      simp only [step, hup, Bool.false_eq_true, if_false] at hs
      cases a with
      | arrive index pdu declared =>
        -- as in a session, but for the queue, which the ledger does not see
        obtain ⟨t, ht, rfl⟩ := Option.map_eq_some_iff.mp hs
        have hst : w.air.step cfg (.arrive index pdu declared)
            = some { t with newMessageIndexes := t.newMessageIndexes ++ [index] } := by
          rw [State.step, ht]; rfl
        have hsafe' : w.air.safe cfg cfg.concatenated (.arrive index pdu declared) = true := by
          simp [State.safe, State.collides, State.takes, State.wasted]
        have hcov := State.step_covered hdel (fun p hp => Config.decodable_of_concatenated hp)
          hst hsafe' h
        exact hcov
      | tick d => obtain rfl := Option.some.inj hs; exact h
      | _ => cases hs
  | connect =>
    rw [step] at hs
    split at hs
    · cases hs
    · rename_i hup
      obtain rfl := Option.some.inj hs
      have hclosed := hidle (by simpa using hup)
      have hsame : w.air.opened.ledger = w.air.ledger := by
        conv_rhs => rw [hclosed]
        rfl
      rw [Covers, hsame]
      exact h
  | teardown => obtain rfl := Option.some.inj hs; exact hclose hsafe
  | restart => obtain rfl := Option.some.inj hs; exact hclose hsafe

/-- Where messages are not deleted after reading, no slot is ever freed. -/
theorem undeleting_step {cfg : Config} (hkeep : cfg.deleteAfterRead = false) {w w' : Link}
    {a : LinkAct} (hs : w.step cfg a = some w') (h : w.air.Undeleting) : w'.air.Undeleting := by
  cases a with
  | modem a =>
    cases hup : w.up with
    | true =>
      simp only [step, hup, if_true, Option.map_eq_some_iff] at hs
      obtain ⟨air, hair, rfl⟩ := hs
      exact h.step hkeep hair
    | false =>
      simp only [step, hup, Bool.false_eq_true, if_false] at hs
      cases a with
      | arrive index pdu declared =>
        obtain ⟨t, ht, rfl⟩ := Option.map_eq_some_iff.mp hs
        have hst : w.air.step cfg (.arrive index pdu declared)
            = some { t with newMessageIndexes := t.newMessageIndexes ++ [index] } := by
          rw [State.step, ht]; rfl
        have hnext := h.step hkeep hst
        exact hnext
      | tick d => obtain rfl := Option.some.inj hs; exact h
      | _ => cases hs
  | connect =>
    rw [step] at hs
    split at hs
    · cases hs
    · obtain rfl := Option.some.inj hs
      exact ⟨h.1, rfl, fun d hd => by rw [List.mem_singleton.mp hd]; rfl⟩
  | teardown =>
    obtain rfl := Option.some.inj hs
    exact ⟨h.1, rfl, fun d hd => absurd hd List.not_mem_nil⟩
  | restart =>
    obtain rfl := Option.some.inj hs
    exact ⟨h.1, rfl, fun d hd => absurd hd List.not_mem_nil⟩

theorem Starts.covers {w : Link} (h : w.Starts) (cfg : Config) : w.Covers cfg := by
  have hview : w.air.view = 0 := by rw [h.closed]; rfl
  refine ⟨⟨h.numbers, ?_, ?_⟩, ?_⟩
  · show w.air.view.2.1 + w.air.view.1 ≤ _
    rw [hview]
    exact Multiset.zero_le _
  · intro f hf
    have hf' : f ∈ w.air.freed := hf
    rw [h.freed] at hf'
    cases hf'
  · intro m hm
    have hspent : w.air.ledger.spent = 0 := by
      show Multiset.map Prod.fst (↑w.air.freed : Multiset (Stored × Stored))
        + Multiset.map Prod.snd w.air.view.2.1 = 0
      rw [hview, h.freed]
      rfl
    rw [hspent] at hm
    exact absurd hm (Multiset.notMem_zero m)

/-! ## The result -/

/-- A message with this PDU is in the modem's store. -/
def InStore (w : Link) (pdu : String) : Prop := ∃ x ∈ w.air.slots, x.2.pdu = pdu

end Link

/-- **A held segment survives the end of a session, as long as every step is safe.**  Each segment
    of a concatenated message whose slot was freed is part of a message handed to `on_sms`, is in
    the modem's store, is held by the live reassembler, or is in the local variable of a call in
    progress. -/
theorem segment_survives {cfg : Config} {w : Link}
    (h : (worker cfg).ReachableBy (fun w a => w.safe cfg a = true) w) :
    ∀ f ∈ w.air.freed, cfg.concatenated f.1.pdu = true →
      w.air.Surfaced f.1.pdu ∨ w.InStore f.1.pdu
        ∨ (w.up = true ∧ (w.air.Held f.1.pdu ∨ w.air.Waiting f.1.pdu)) := by
  intro f hf hc
  cases hdel : cfg.deleteAfterRead with
  | true =>
    have hinv := h.invariant (I := fun w => w.Idle ∧ w.Covers cfg)
      (fun w (hw : w.Starts) => ⟨fun _ => hw.closed, hw.covers cfg⟩)
      fun w a w' hi hg hs => ⟨Link.idle_step hs hi.1, Link.covers_step hdel hs hg hi.1 hi.2⟩
    obtain ⟨hidle, hcov⟩ := hinv
    rcases State.kept_of_covered hcov.2 hf hc with hs | hmem
    · exact Or.inl hs
    · cases hup : w.up with
      | true => exact Or.inr (Or.inr ⟨rfl, hmem⟩)
      | false =>
        rw [hidle hup] at hmem
        rcases hmem with ⟨m, hm, -⟩ | ⟨m, hm, -⟩
        · cases hm
        · cases hm
  | false =>
    have hinv := h.invariant (I := fun w => w.air.Undeleting)
      (fun w (hw : w.Starts) => ⟨hw.freed, by rw [hw.closed]; rfl, fun d hd => by
        rw [hw.closed] at hd; cases hd⟩)
      fun w a w' hi _ hs => Link.undeleting_step hdel hs hi
    rw [hinv.1] at hf
    cases hf

/-! ### A message in two segments -/

/-- The first of two segments from 10086 (reference 42), text "A". -/
def pduPartOne : String := "004405A10180F6000852309021436523080500032A02010041"

/-- The second, text "B". -/
def pduPartTwo : String := "004405A10180F6000852309021436523080500032A02020042"

/-- The decoder's answers for the two. -/
def decodeParts (pdu : String) : Option DecodedSms :=
  if pdu = pduPartOne then
    some { kind := "deliver", address := "10086", text := "A", raw := pduPartOne, dcs := 8,
           alphabet := "ucs2", concat := some ⟨42, 2, 1⟩,
           timestamp := some "2025-03-09T12:34:56+08:00" }
  else if pdu = pduPartTwo then
    some { kind := "deliver", address := "10086", text := "B", raw := pduPartTwo, dcs := 8,
           alphabet := "ucs2", concat := some ⟨42, 2, 2⟩,
           timestamp := some "2025-03-09T12:34:56+08:00" }
  else none

/-- The defaults, with that decoder. -/
def partsConfig : Config := ⟨decodeParts, 30, true⟩

/-- An empty store, and no session yet. -/
def linkDown : Link where
  up := false
  air :=
    { slots := [], clock := 0, emitted := [], reassembler := {}, newMessageIndexes := [],
      fetch := .idle, drains := [], freed := [], log := [] }

theorem linkDown_starts : linkDown.Starts where
  down := rfl
  closed := rfl
  numbers := List.nodup_nil
  freed := rfl

/-- The steps of `_index_loop` for one message that arrives in a slot. -/
def fetched (index : Nat) (pdu : String) : List LinkAct :=
  [.modem (.arrive index pdu none), .modem .take, .modem (.fetch .ok), .modem (.fetch .ok),
    .modem (.fetch .ok)]

/-- Both segments arrive before the port is lost: the message was handed over. -/
theorem segment_survives_whole :
    ∃ w, (worker partsConfig).run linkDown
        ([.connect, .modem (.drain 0 .ok)] ++ fetched 3 pduPartOne ++ fetched 3 pduPartTwo
          ++ [.teardown]) = some w
      ∧ w.air.freed.length = 2
      ∧ ∀ f ∈ w.air.freed, partsConfig.concatenated f.1.pdu = true →
          w.air.Surfaced f.1.pdu ∨ w.InStore f.1.pdu
            ∨ (w.up = true ∧ (w.air.Held f.1.pdu ∨ w.air.Waiting f.1.pdu)) := by
  have hrun : ((worker partsConfig).runBy (fun w a => w.safe partsConfig a) linkDown
      ([.connect, .modem (.drain 0 .ok)] ++ fetched 3 pduPartOne ++ fetched 3 pduPartTwo
        ++ [.teardown])).map (fun w => w.air.freed.length) = some 2 := by decide +kernel
  obtain ⟨w, hw, hlen⟩ := Option.map_eq_some_iff.mp hrun
  exact ⟨w, Machine.run_of_runBy hw, hlen,
    @segment_survives partsConfig _ ⟨linkDown, linkDown_starts, Machine.runBy_path hw⟩⟩

/-- **A session that ends inside the reassembly window loses the segment it holds.**  One segment
    of two arrives, is taken up, its slot is freed, and the port is lost. -/
theorem teardown_loses :
    ¬ ∀ (cfg : Config) (w : Link), (worker cfg).Reachable w →
      ∀ f ∈ w.air.freed, cfg.concatenated f.1.pdu = true →
        w.air.Surfaced f.1.pdu ∨ w.InStore f.1.pdu
          ∨ (w.up = true ∧ (w.air.Held f.1.pdu ∨ w.air.Waiting f.1.pdu)) := by
  intro hclaim
  have hrun : ((worker partsConfig).run linkDown
      ([.connect, .modem (.drain 0 .ok)] ++ fetched 3 pduPartOne ++ [.teardown])).map
        (fun w => (w.up, w.air.freed, readsOf w.air.emitted, w.air.slots.length))
      = some (false, [(⟨0, pduPartOne, none⟩, ⟨0, pduPartOne, none⟩)], [], 0) := by
    decide +kernel
  obtain ⟨w, hw, heq⟩ := Option.map_eq_some_iff.mp hrun
  simp only [Prod.mk.injEq] at heq
  obtain ⟨hup, hfreed, hemitted, hslots⟩ := heq
  have hmem : (⟨0, pduPartOne, none⟩, ⟨0, pduPartOne, none⟩) ∈ w.air.freed := by
    rw [hfreed]; exact List.mem_cons_self
  rcases hclaim partsConfig w (Machine.run_reachable linkDown_starts hw) _ hmem (by decide) with
    ⟨m, hm, -⟩ | ⟨x, hx, -⟩ | ⟨hup', -⟩
  · rw [hemitted] at hm; cases hm
  · rw [List.length_eq_zero_iff.mp hslots] at hx; cases hx
  · cases hup.symm.trans hup'

end Air780eHub.Modem
