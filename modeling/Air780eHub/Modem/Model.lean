/-
  The modem's inbox: its store, the tasks that read and clear it, and the network.

    store     numbered slots; the network puts a message in any free one
    `_index_loop`   one task: takes a slot number from the queue `+CMTI` fills, and runs
                    `_fetch_index` on it: AT+CMGR, AT+CMGL (a diagnostic), AT+CMGD
    `drain_inbox`   AT+CMGL, then one AT+CMGD for each message; called at start-up, when the store
                    fills up, and by the `refresh` command, so that calls can overlap
    `_flush_loop`   a timer

  A label is one AT command with its outcome, or something that happens between two of them.  The
  lock of the AT client is held for one command only, and a task runs from the answer of a command
  to its next one without a break: one step is the command's effect on the store and what its task
  does until the next command.  A command may raise, and may have taken effect and still raise.

  How a PDU is decoded is a parameter (`Config.decode`, `none` for `PduError`).

  Ghost fields: `log`, every message that arrived, and `freed`, of every slot that was freed what
  it held and what the task that freed it had read there.
-/
import Air780eHub.Lib.Machine
import Air780eHub.Modem.Reassembler

namespace Air780eHub.Modem

/-! ## AT commands -/

/-- What a failed AT command raises. -/
inductive ATError
  | timeout | command | cme (code : Nat) | cms (code : Nat) | transportClosed
deriving DecidableEq

/-- How an AT command ended; `effect` tells whether it took effect although it raised. -/
inductive Outcome
  | ok | raised (error : ATError) (effect : Bool)
deriving DecidableEq

/-- Invalid index: already gone. -/
def ATError.gone : ATError → Bool
  | .cms code => code == 321 || code == 322
  | _         => false

/-- `read_stored` and `delete_stored` return: they swallow an invalid index and nothing else. -/
def Outcome.returns : Outcome → Bool
  | .ok             => true
  | .raised error _ => error.gone

/-- The modem executed the command. -/
def Outcome.effect : Outcome → Bool
  | .ok              => true
  | .raised _ effect => effect

/-! ## The length check of `read_stored` -/

/-- The value of a hexadecimal digit. -/
def hexDigit (c : Char) : Option Nat :=
  if '0' ≤ c ∧ c ≤ '9' then some (c.toNat - '0'.toNat)
  else if 'a' ≤ c ∧ c ≤ 'f' then some (c.toNat - 'a'.toNat + 10)
  else if 'A' ≤ c ∧ c ≤ 'F' then some (c.toNat - 'A'.toNat + 10)
  else none

/-- `bytes.fromhex`: pairs of digits, with white space between them. -/
def fromhex : List Char → Option (List Nat)
  | []          => some []
  | [c]         => if c.isWhitespace then some [] else none
  | c :: d :: l =>
    if c.isWhitespace then fromhex (d :: l)
    else match hexDigit c, hexDigit d with
      | some a, some b => (fromhex l).map fun bytes => (16 * a + b) :: bytes
      | _, _           => none

/-- `_tpdu_octets`. -/
def tpduOctets (pdu : String) : Option Nat :=
  match fromhex pdu.toList with
  | none             => none
  | some []          => none
  | some (n :: data) => if (n :: data).length < 1 + n then none else some (data.length - n)

/-- `declared is None or actual is None or declared == actual`. -/
def Stored.agrees (m : Stored) : Bool :=
  m.declared == none || tpduOctets m.pdu == none || m.declared == tpduOctets m.pdu

/-! ## States -/

/-- What a modem session is set up with. -/
structure Config where
  /-- `decode_pdu`. -/
  decode          : String → Option DecodedSms
  /-- The reassembly timeout. -/
  timeout         : Nat
  deleteAfterRead : Bool

/-- A message read from the store, decoded. -/
def Config.read (cfg : Config) (m : Stored) : Option DecodedSms :=
  (cfg.decode m.pdu).map fun sms => { sms with reads := [m] }

/-- The PDU can be decoded. -/
def Config.decodable (cfg : Config) (pdu : String) : Bool := (cfg.decode pdu).isSome

/-- The PDU is a segment of a concatenated message. -/
def Config.concatenated (cfg : Config) (pdu : String) : Bool :=
  (cfg.decode pdu).any DecodedSms.isMultipart

/-- A slot of the store. -/
abbrev Slot := Nat × Stored

/-- Where `_index_loop` is. -/
inductive Fetch
  /-- It waits for the queue. -/
  | idle
  /-- AT+CMGR comes next. -/
  | reading (index : Nat)
  /-- The length did not agree: AT+CMGR comes again. -/
  | rereading (index : Nat) (first : Stored)
  /-- The diagnostic AT+CMGL comes next. -/
  | dumping (index : Nat) (pdu : Stored)
  /-- AT+CMGD comes next. -/
  | deleting (index : Nat) (pdu : Stored) (complete : Option DecodedSms)

/-- Where a call of `drain_inbox` is. -/
inductive Drain
  /-- AT+CMGL comes next. -/
  | listing
  /-- At the head of the loop; only ever between two commands. -/
  | sweeping (rest : List Slot) (collected : List DecodedSms)
  /-- AT+CMGD comes next, for `current`. -/
  | deleting (current : Slot) (rest : List Slot) (collected : List DecodedSms)
  | done

/-- `_index_loop` waits. -/
def Fetch.isIdle : Fetch → Bool
  | .idle => true
  | _     => false

/-- The call has ended. -/
def Drain.isDone : Drain → Bool
  | .done => true
  | _     => false

/-- One modem session, with the store. -/
structure State where
  slots             : List Slot
  clock             : Nat
  /-- What `on_sms` was called with. -/
  emitted           : List DecodedSms
  reassembler       : Reassembler
  newMessageIndexes : List Nat
  fetch             : Fetch
  drains            : List Drain
  freed             : List (Stored × Stored)
  log               : List Stored

/-- What happens. -/
inductive Act
  /-- The network stores a message, and the modem says so with `+CMTI`. -/
  | arrive (index : Nat) (pdu : String) (declared : Option Nat)
  /-- `+CMT`: a message that is not stored. -/
  | direct (pdu : String)
  /-- Any other `+CMTI`. -/
  | notify (index : Nat)
  | tick (d : Nat)
  /-- `_flush_loop` wakes up. -/
  | flush
  /-- `_index_loop` takes the next number. -/
  | take
  /-- The next AT command of `_fetch_index`. -/
  | fetch (outcome : Outcome)
  /-- `drain_inbox` is called. -/
  | call
  /-- The next AT command of the `k`-th call of `drain_inbox`. -/
  | drain (k : Nat) (outcome : Outcome)

namespace State

/-! ## The store -/

/-- What a slot holds. -/
def slotAt (s : State) (index : Nat) : Option Stored :=
  (s.slots.find? fun x => x.1 == index).map Prod.snd

/-- The network puts a message in a free slot. -/
def land (s : State) (index : Nat) (pdu : String) (declared : Option Nat) : Option State :=
  if index ∈ s.slots.map Prod.fst then none
  else some { s with
    slots := s.slots.orderedInsert (fun x y => x.1 ≤ y.1) (index, ⟨s.log.length, pdu, declared⟩)
    log := s.log ++ [⟨s.log.length, pdu, declared⟩] }

/-- What AT+CMGD does to the store, sent by a task that read `pdu` there. -/
def cmgd (s : State) (index : Nat) (pdu : Stored) (effect : Bool) : State :=
  if effect then
    { s with
      slots := s.slots.filter fun x => x.1 != index
      freed := s.freed ++ ((s.slotAt index).map fun held => (held, pdu)).toList }
  else s

/-! ## What the tasks do between two commands -/

/-- `_emit`, for several messages. -/
def handOver (s : State) (l : List DecodedSms) : State := { s with emitted := s.emitted ++ l }

/-- Decode a message and `push` it.  An undecodable one is logged and gives nothing. -/
def receive (cfg : Config) (s : State) (m : Stored) : State × Option DecodedSms :=
  match cfg.read m with
  | none     => (s, none)
  | some sms =>
    ({ s with reassembler := (s.reassembler.push s.clock sms).1 },
      (s.reassembler.push s.clock sms).2)

/-- `flush_expired`, and hand over what it returns after `collected`. -/
def flush (cfg : Config) (s : State) (collected : List DecodedSms) : State :=
  { s with
    reassembler := (s.reassembler.flushExpired s.clock cfg.timeout).1
    emitted := s.emitted ++ collected ++ (s.reassembler.flushExpired s.clock cfg.timeout).2 }

def setDrain (s : State) (k : Nat) (d : Drain) : State := { s with drains := s.drains.set k d }

/-- `_on_cmt`. -/
def onCmt (cfg : Config) (s : State) (m : Stored) : State :=
  (s.receive cfg m).1.handOver (s.receive cfg m).2.toList

/-- `_fetch_index` from the diagnostic on. -/
def takeUp (cfg : Config) (s : State) (index : Nat) (m : Stored) : State :=
  if cfg.deleteAfterRead then
    { (s.receive cfg m).1 with fetch := .deleting index m (s.receive cfg m).2 }
  else { (s.receive cfg m).1.handOver (s.receive cfg m).2.toList with fetch := .idle }

/-- What `read_stored` returns when the length did not agree at first. -/
def reread (s : State) (index : Nat) (first : Stored) : Stored :=
  match s.slotAt index with
  | none       => first
  | some again => if tpduOctets again.pdu = first.declared then again else first

/-- The next command of `_fetch_index`.  `_index_loop` catches what it raises. -/
def fetchStep (cfg : Config) (s : State) (outcome : Outcome) : Option State :=
  match s.fetch with
  | .idle => none
  | .reading index => match outcome with
    | .raised _ _ => some { s with fetch := .idle }
    | .ok => match s.slotAt index with
      | none   => some { s with fetch := .idle }
      | some m =>
        some { s with fetch := if m.agrees then .dumping index m else .rereading index m }
  | .rereading index first => match outcome with
    | .ok             => some { s with fetch := .dumping index (s.reread index first) }
    | .raised error _ => some { s with fetch := if error.gone then .dumping index first else .idle }
  | .dumping index m => some (s.takeUp cfg index m)
  | .deleting index m complete =>
    if outcome.returns then
      some { (s.cmgd index m outcome.effect).handOver complete.toList with fetch := .idle }
    else some { s.cmgd index m outcome.effect with fetch := .idle }

/-- The loop of `drain_inbox` up to its next command, or to its end. -/
def sweep (cfg : Config) (k : Nat) : List Slot → List DecodedSms → State → State
  | [],        collected, s => (s.flush cfg collected).setDrain k .done
  | x :: rest, collected, s =>
    if cfg.deleteAfterRead then
      (s.receive cfg x.2).1.setDrain k
        (.deleting x rest (collected ++ (s.receive cfg x.2).2.toList))
    else sweep cfg k rest (collected ++ (s.receive cfg x.2).2.toList) (s.receive cfg x.2).1

/-- The next command of a call of `drain_inbox`.  What it raises ends the call. -/
def drainStep (cfg : Config) (s : State) (k : Nat) (outcome : Outcome) : Option State :=
  match s.drains[k]? with
  | some .listing => match outcome with
    | .ok         => some (sweep cfg k s.slots [] (s.setDrain k (.sweeping s.slots [])))
    | .raised _ _ => some (s.setDrain k .done)
  | some (.deleting x rest collected) =>
    if outcome.returns then
      some (sweep cfg k rest collected
        ((s.cmgd x.1 x.2 outcome.effect).setDrain k (.sweeping rest collected)))
    else some ((s.cmgd x.1 x.2 outcome.effect).setDrain k .done)
  | _ => none

/-! ## Steps -/

/-- One step of a session. -/
def step (cfg : Config) (s : State) : Act → Option State
  | .arrive index pdu declared => (s.land index pdu declared).map fun s =>
      { s with newMessageIndexes := s.newMessageIndexes ++ [index] }
  | .direct pdu =>
      some (onCmt cfg { s with log := s.log ++ [⟨s.log.length, pdu, none⟩] }
        ⟨s.log.length, pdu, none⟩)
  | .notify index => some { s with newMessageIndexes := s.newMessageIndexes ++ [index] }
  | .tick d => some { s with clock := s.clock + d }
  | .flush => some (s.flush cfg [])
  | .take => match s.fetch, s.newMessageIndexes with
      | .idle, index :: rest =>
        some { s with fetch := .reading index, newMessageIndexes := rest }
      | _, _ => none
  | .fetch outcome => s.fetchStep cfg outcome
  | .call => some { s with drains := s.drains ++ [.listing] }
  | .drain k outcome => s.drainStep cfg k outcome

/-! ## What a command can do -/

/-- What one command of `_fetch_index` can do. -/
inductive FetchStep (cfg : Config) (s : State) : Outcome → State → Prop
  /-- AT+CMGR raised, or found nothing. -/
  | vanished {index : Nat} {o : Outcome} (hf : s.fetch = .reading index)
      (hm : o = .ok → s.slotAt index = none) : FetchStep cfg s o { s with fetch := .idle }
  | read {index : Nat} {m : Stored} (hf : s.fetch = .reading index)
      (hm : s.slotAt index = some m) :
      FetchStep cfg s .ok
        { s with fetch := if m.agrees then .dumping index m else .rereading index m }
  | again {index : Nat} {first : Stored} (hf : s.fetch = .rereading index first) :
      FetchStep cfg s .ok { s with fetch := .dumping index (s.reread index first) }
  | gone {index : Nat} {first : Stored} {error : ATError} {effect : Bool}
      (hf : s.fetch = .rereading index first) :
      FetchStep cfg s (.raised error effect) { s with fetch := .dumping index first }
  | failed {index : Nat} {first : Stored} {error : ATError} {effect : Bool}
      (hf : s.fetch = .rereading index first) :
      FetchStep cfg s (.raised error effect) { s with fetch := .idle }
  | taken {index : Nat} {m : Stored} {o : Outcome} (hf : s.fetch = .dumping index m) :
      FetchStep cfg s o (s.takeUp cfg index m)
  | deleted {index : Nat} {m : Stored} {complete : Option DecodedSms} {o : Outcome}
      (hf : s.fetch = .deleting index m complete) (ho : o.returns = true) :
      FetchStep cfg s o
        { (s.cmgd index m o.effect).handOver complete.toList with fetch := .idle }
  /-- AT+CMGD raised: what `complete` holds is gone. -/
  | lost {index : Nat} {m : Stored} {complete : Option DecodedSms} {o : Outcome}
      (hf : s.fetch = .deleting index m complete) (ho : o.returns = false) :
      FetchStep cfg s o { s.cmgd index m o.effect with fetch := .idle }

theorem fetchStep_cases {cfg : Config} {s s' : State} {o : Outcome}
    (hs : s.fetchStep cfg o = some s') : FetchStep cfg s o s' := by
  cases hf : s.fetch with
  | idle => simp [fetchStep, hf] at hs
  | reading index =>
    cases o with
    | raised error effect =>
      simp only [fetchStep, hf, Option.some.injEq] at hs
      exact hs ▸ .vanished hf fun h => by cases h
    | ok =>
      cases hm : s.slotAt index with
      | none =>
        simp only [fetchStep, hf, hm, Option.some.injEq] at hs
        exact hs ▸ .vanished hf fun _ => hm
      | some m =>
        simp only [fetchStep, hf, hm, Option.some.injEq] at hs
        exact hs ▸ .read hf hm
  | rereading index first =>
    cases o with
    | ok =>
      simp only [fetchStep, hf, Option.some.injEq] at hs
      exact hs ▸ .again hf
    | raised error effect =>
      simp only [fetchStep, hf, Option.some.injEq] at hs
      by_cases hg : error.gone = true
      · rw [if_pos hg] at hs; exact hs ▸ .gone hf
      · rw [if_neg hg] at hs; exact hs ▸ .failed hf
  | dumping index m =>
    simp only [fetchStep, hf, Option.some.injEq] at hs
    exact hs ▸ .taken hf
  | deleting index m complete =>
    by_cases ho : o.returns = true
    · simp only [fetchStep, hf, if_pos ho, Option.some.injEq] at hs
      exact hs ▸ .deleted hf ho
    · simp only [fetchStep, hf, if_neg ho, Option.some.injEq] at hs
      exact hs ▸ .lost hf (by simpa using ho)

/-- What one command of a call of `drain_inbox` can do. -/
inductive DrainStep (cfg : Config) (s : State) (k : Nat) : Outcome → State → Prop
  | listed (hd : s.drains[k]? = some .listing) :
      DrainStep cfg s k .ok (sweep cfg k s.slots [] (s.setDrain k (.sweeping s.slots [])))
  | refused {error : ATError} {effect : Bool} (hd : s.drains[k]? = some .listing) :
      DrainStep cfg s k (.raised error effect) (s.setDrain k .done)
  | deleted {x : Slot} {rest : List Slot} {collected : List DecodedSms} {o : Outcome}
      (hd : s.drains[k]? = some (.deleting x rest collected)) (ho : o.returns = true) :
      DrainStep cfg s k o
        (sweep cfg k rest collected
          ((s.cmgd x.1 x.2 o.effect).setDrain k (.sweeping rest collected)))
  /-- AT+CMGD raised: what `collected` holds is gone. -/
  | lost {x : Slot} {rest : List Slot} {collected : List DecodedSms} {o : Outcome}
      (hd : s.drains[k]? = some (.deleting x rest collected)) (ho : o.returns = false) :
      DrainStep cfg s k o ((s.cmgd x.1 x.2 o.effect).setDrain k .done)

theorem drainStep_cases {cfg : Config} {s s' : State} {k : Nat} {o : Outcome}
    (hs : s.drainStep cfg k o = some s') : DrainStep cfg s k o s' := by
  cases hd : s.drains[k]? with
  | none => simp [drainStep, hd] at hs
  | some d =>
    cases d with
    | listing =>
      cases o with
      | ok =>
        simp only [drainStep, hd, Option.some.injEq] at hs
        exact hs ▸ .listed hd
      | raised error effect =>
        simp only [drainStep, hd, Option.some.injEq] at hs
        exact hs ▸ .refused hd
    | sweeping rest collected => simp [drainStep, hd] at hs
    | deleting x rest collected =>
      by_cases ho : o.returns = true
      · simp only [drainStep, hd, if_pos ho, Option.some.injEq] at hs
        exact hs ▸ .deleted hd ho
      · simp only [drainStep, hd, if_neg ho, Option.some.injEq] at hs
        exact hs ▸ .lost hd (by simpa using ho)
    | done => simp [drainStep, hd] at hs

/-- A session that begins: the store holds anything, and `_connect` is about to drain it. -/
structure Starts (s : State) : Prop where
  numbers     : (s.slots.map Prod.fst).Nodup
  ids         : s.log.map Stored.id = List.range s.log.length
  stored      : (s.slots.map Prod.snd).Perm s.log
  emitted     : s.emitted = []
  reassembler : s.reassembler = {}
  indexes     : s.newMessageIndexes = []
  fetch       : s.fetch = .idle
  drains      : s.drains = [.listing]
  freed       : s.freed = []

end State

/-- One session as a machine. -/
def session (cfg : Config) : Machine State Act where
  Start := State.Starts
  step := State.step cfg

end Air780eHub.Modem
