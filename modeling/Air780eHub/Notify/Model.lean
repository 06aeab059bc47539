/-
  The notification queue: the outbox, the deliveries and the worker (`notify.py`, `db.py`).

  An event's transaction leaves an intent in `notify_outbox`.  The worker turns intents into
  deliveries, one for each channel that wants them, claims the due ones under a lease and attempts
  them.  All of it is in the database; the worker itself keeps nothing a crash could lose.

  1. **Deliveries**: the statements on `notify_deliveries`.
  2. **Attempts**: what an attempt is waiting for, and what `settlement` writes when it is over.
  3. **The system**: the database, the operator's tables, the clock and the worker.
  4. **Steps**: ingest and everything else that writes, the operator's edits, a crash, and each
     statement of a pass by itself, so that anything may happen between two of them.
-/
import Air780eHub.Lib.Machine
import Air780eHub.Lib.Routines
import Air780eHub.Lib.Table
import Air780eHub.Notify.Rules
import Air780eHub.Server.Ingest
import Air780eHub.Server.Owed

namespace Air780eHub.Notify

open Relational Server

/-! ## Deliveries -/

/-- `notify_deliveries.status`. -/
inductive Status
  | pending | ok | failed | expired
deriving DecidableEq

/-- A row of `notify_deliveries`. -/
structure Delivery where
  id            : Nat
  outboxId      : Nat
  channelId     : Nat
  ruleId        : Option Nat
  status        : Status
  attempts      : Nat
  nextAttemptAt : Int
  leaseUntil    : Option Int
  expiresAt     : Int
  errorCode     : Option String
  safeDetail    : String
deriving DecidableEq

/-- The unique index: (outbox_id, channel_id, IFNULL(rule_id, 0)). -/
def Delivery.target (d : Delivery) : Nat × Nat × Nat := (d.outboxId, d.channelId, d.ruleId.getD 0)

/-- The row `add_delivery` inserts. -/
def newDelivery (id outboxId channelId : Nat) (ruleId : Option Nat) (now expiresAt : Int) :
    Delivery where
  id            := id
  outboxId      := outboxId
  channelId     := channelId
  ruleId        := ruleId
  status        := .pending
  attempts      := 0
  nextAttemptAt := now
  leaseUntil    := none
  expiresAt     := expiresAt
  errorCode     := none
  safeDetail    := ""

/-- The WHERE of `claim_deliveries`. -/
def Delivery.due (now : Int) (d : Delivery) : Bool :=
  decide (d.status = .pending) && decide (d.nextAttemptAt ≤ now) &&
    d.leaseUntil.all fun until_ => decide (until_ ≤ now)

/-- `ORDER BY next_attempt_at, id`. -/
def Delivery.sooner (a b : Delivery) : Prop :=
  a.nextAttemptAt < b.nextAttemptAt ∨ (a.nextAttemptAt = b.nextAttemptAt ∧ a.id ≤ b.id)

instance : DecidableRel Delivery.sooner := fun _ _ => inferInstanceAs (Decidable (_ ∨ _))

/-- Deliveries attempted per pass. -/
def CLAIM_BATCH : Nat := 20

/-- Intents turned into deliveries per pass. -/
def EXPAND_BATCH : Nat := 50

/-- How long a claim is held. -/
def LEASE_SECONDS : Int := 120

/-- Never wait longer than this between attempts. -/
def RETRY_AFTER_CAP_SECONDS : Rat := 300

/-- The characters a settlement keeps of its detail. -/
def DETAIL_LIMIT : Nat := 300

/-- `EXPIRY_SECONDS`, with `DEFAULT_EXPIRY_SECONDS`. -/
def expirySeconds (kind : String) : Int :=
  if kind = "message" then 6 * 3600
  else if kind = "call" then 1800
  else 3600

/-- What `settle_delivery` writes. -/
structure Settlement where
  status        : Status
  attempts      : Nat
  errorCode     : String
  safeDetail    : String
  nextAttemptAt : Option Int
deriving DecidableEq

/-- The row after `settle_delivery`. -/
def Delivery.settled (d : Delivery) (w : Settlement) (now : Int) : Delivery :=
  { d with
    status        := w.status
    attempts      := w.attempts
    errorCode     := some w.errorCode
    safeDetail    := pyTake DETAIL_LIMIT w.safeDetail
    nextAttemptAt := w.nextAttemptAt.getD now
    leaseUntil    := none }

/-- The row after `retry_delivery`, which only takes rows that were given up. -/
def Delivery.retried (d : Delivery) (now : Int) : Delivery :=
  if d.status = .failed ∨ d.status = .expired then
    { d with status := .pending, nextAttemptAt := now, leaseUntil := none }
  else d

/-! ## Attempts -/

/-- `SendError.kind`. -/
inductive FailureKind
  | config | network | http | provider
deriving DecidableEq

/-- `SendError`. -/
structure SendError where
  detail     : String
  kind       : FailureKind
  status     : Option Int
  retryAfter : Option Rat
deriving DecidableEq

/-- `_error_code`. -/
def errorCode (e : SendError) : String :=
  if e.kind = .config then "channel_config"
  else if e.kind = .network then "network"
  else match e.status with
    | some n => "http_" ++ toString n
    | none   => "provider_rejected"

/-- `_transient`. -/
def transient (e : SendError) : Bool :=
  if e.kind = .config then false
  else match e.status with
    | none   => true
    | some n => if n = 408 ∨ n = 429 then true else decide (n / 100 ≠ 4)

/-- What the channel said. -/
inductive Sent
  | accepted (detail : String)
  | refused (e : SendError)
  /-- Any other exception, by its scrubbed text. -/
  | raised (detail : String)
deriving DecidableEq

/-- How an attempt is over. -/
inductive Outcome
  /-- The channel was turned off or is gone. -/
  | channelDisabled
  /-- The event the push is about is gone. -/
  | sourceGone
  | delivered (detail : String)
  /-- The call failed at an instant; the next one would be at another. -/
  | failed (e : SendError) (at_ next : Int)
deriving DecidableEq

/-- A claimed row, with the columns of its intent. -/
structure Claimed where
  id        : Nat
  channelId : Nat
  ruleId    : Option Nat
  attempts  : Nat
  expiresAt : Int
  intent    : HubRow

/-- What an attempt does next. -/
inductive Stage
  /-- It looks up its channel. -/
  | waiting
  /-- It renders what to send. -/
  | found (channel : Channel)
  /-- It has asked the provider. -/
  | sending (payload : Payload)
  /-- It writes back how it was. -/
  | settling (outcome : Outcome)

/-- One claimed delivery of a pass. -/
structure Attempt where
  row   : Claimed
  stage : Stage

/-- The settings of the notifier and the library it runs on. -/
structure Notifier where
  lib     : Library
  retries : Int
  backoff : List Rat

variable (N : Notifier)

/-- `_delay`. -/
def delay (attempt : Nat) : Rat :=
  let backoff := if N.backoff.isEmpty then [0] else N.backoff
  backoff.getD (min attempt (backoff.length - 1)) 0

/-- `_retry_delay`, with the random number it draws. -/
def retryDelay (attempt : Nat) (retryAfter : Option Rat) (random : Rat) : Rat :=
  match retryAfter with
  | some after => min after RETRY_AFTER_CAP_SECONDS + 1 + random
  | none       => delay N attempt * (1 / 2 + random)

/-- `_past`. -/
def past (expiresAt now : Int) : Bool := decide (expiresAt ≤ now)

/-- What the end of an attempt writes: `_attempt_claimed`. -/
def settlement (row : Claimed) : Outcome → Settlement
  | .channelDisabled   => ⟨.failed, row.attempts, "channel_disabled", "渠道已停用", none⟩
  | .sourceGone        => ⟨.failed, row.attempts, "source_gone", "来源记录已不存在", none⟩
  | .delivered detail  => ⟨.ok, row.attempts + 1, "", detail, none⟩
  | .failed e at_ next =>
    if transient e ∧ ((row.attempts + 1 : Nat) : Int) < N.retries + 1 ∧
        past row.expiresAt at_ = false then
      ⟨.pending, row.attempts + 1, errorCode e, e.detail, some next⟩
    else if past row.expiresAt at_ then ⟨.expired, row.attempts + 1, "expired", e.detail, none⟩
    else ⟨.failed, row.attempts + 1, errorCode e, e.detail, none⟩

/-- `_payload_for`. -/
def payloadFor (hub : HubDb) (rules : List Rule) (now : Int) (row : Claimed) (channel : Channel) :
    Except Failure (Option Payload) :=
  if columnText N.lib (row.intent.cells .kind) ≠ "message" then
    let body := columnText N.lib (row.intent.cells .body)
    let title := columnText N.lib (row.intent.cells .title)
    if body = "" then .ok none
    else .ok (some {
      text    := body
      title   := if title = "" then "air780e-hub" else title
      context := [("sender", ""), ("card", ""), ("device", ""), ("iccid", ""), ("message", body),
        ("timestamp", N.lib.localTime (N.lib.isoformat now))] })
  else match refRow hub .messages (row.intent.cells .refId) with
    | none         => .ok none
    | some message => do
      let context ← contextFor N.lib hub now message (loadsFrame N.lib (row.intent.cells .frame))
      let rule := row.ruleId.bind fun i => rules.find? fun r => r.id == i
      let payload ← renderPayload N.lib channel context rule
      .ok (some payload)

/-! ## The system -/

/-- An event as the gateway takes it. -/
structure Incoming where
  env      : Env
  agentId  : String
  streamId : String
  seq      : Nat
  kind     : String
  frame    : Frame

namespace Incoming

/-- The identity of the event. -/
def key (x : Incoming) : IngestKey := ⟨x.agentId, x.streamId, x.seq⟩

/-- `f"{agent_id}|{connection.stream_id}|{seq}"`. -/
def eventKey (x : Incoming) : String := x.agentId ++ "|" ++ x.streamId ++ "|" ++ toString x.seq

/-- The callback `_ingest` gives to `apply_event`. -/
def callback (x : Incoming) : Hub AppliedEvent :=
  apply x.env x.agentId x.kind x.frame x.eventKey x.streamId

/-- `UPDATE agents SET last_seq = MAX(last_seq, ?) WHERE id = ?`. -/
def noteSeq (x : Incoming) : Statement Table Column Cell :=
  .update .agents (fun r => equals (r.cells .id) (text x.agentId)) fun r =>
    [(.lastSeq, integer (max (count (r.cells .lastSeq)) x.seq))]

/-- `apply_event`. -/
def ingest (x : Incoming) (db : Database HubDb) :
    Except Failure (Option AppliedEvent × Database HubDb) :=
  db.applyEvent x.key x.callback (x.noteSeq.exec SCHEMA)

end Incoming

/-- A channel that wants an intent, with the rule that says so. -/
abbrev Target := Nat × Option Nat

/-- An intent whose targets are known: what is still to be added, and how it will be finished. -/
structure Expansion where
  intent    : HubRow
  targets   : List Target
  expiresAt : Int
  status    : String
  title     : String
  body      : String

/-- What the worker does next. -/
inductive Worker
  | idle
  /-- The loop of `_expand_intents`, over the intents that are left. -/
  | expanding (rest : List HubRow)
  /-- It has read the row the intent is about, and reads the channels. -/
  | sourced (intent : HubRow) (audience : Audience) (rest : List HubRow)
  /-- It has read the channels of a message, and reads the rules. -/
  | matching (intent : HubRow) (simId : Option Cell) (body : String) (channels : List Channel)
      (rest : List HubRow)
  /-- It adds the deliveries that are left; then the intent is finished. -/
  | adding (e : Expansion) (rest : List HubRow)
  /-- The attempts of a pass that are not over. -/
  | delivering (attempts : List Attempt)

/-- The database, the notifier's tables in it, the clock and the worker.  `committed` records the
    first applications in their order, with their results. -/
structure State where
  hub          : Database HubDb
  channels     : List Channel
  rules        : List Rule
  deliveries   : List Delivery
  lastChannel  : Nat
  lastRule     : Nat
  lastDelivery : Nat
  now          : Int
  worker       : Worker
  committed    : List (Incoming × AppliedEvent)

/-- A new database, before the first event. -/
def State.initial (now : Int) : State :=
  ⟨⟨[], Db.empty⟩, [], [], [], 0, 0, 0, now, .idle, []⟩

namespace State

/-- `notify_outbox`. -/
def intents (s : State) : List HubRow := s.hub.business.rows .notifyOutbox

/-- The attempts in flight. -/
def inFlight (s : State) : List Attempt :=
  match s.worker with
  | .delivering attempts => attempts
  | _                    => []

/-- The foreign keys of a rule hold. -/
def admits (s : State) (r : Rule) : Bool :=
  s.channels.any (fun c => c.id == r.channelId) &&
    r.simId.all fun i => (s.hub.business.ids .sims).contains i

/-- ON DELETE CASCADE: rules go with their channel or card, deliveries with their channel or rule. -/
def cascade (s : State) : State :=
  let rules := s.rules.filter s.admits
  { s with
    rules      := rules
    deliveries := s.deliveries.filter fun d =>
      s.channels.any (fun c => c.id == d.channelId) &&
        d.ruleId.all fun i => rules.any fun r => r.id == i }

/-- `pending_intents`. -/
def pendingIntents (s : State) : List HubRow :=
  (s.intents.filter fun r => equals (r.cells .status) (text "pending")).take EXPAND_BATCH

/-- `add_delivery`: none where a foreign key is violated. -/
def addDelivery (s : State) (outboxId channelId : Nat) (ruleId : Option Nat) (expiresAt : Int) :
    Option State :=
  let d := newDelivery (s.lastDelivery + 1) outboxId channelId ruleId s.now expiresAt
  if s.deliveries.any fun d' => d'.target == d.target then some s
  else if (s.intents.any fun r => r.id == outboxId) &&
      (s.channels.any fun c => c.id == channelId) &&
      (ruleId.all fun i => s.rules.any fun r => r.id == i) then
    some { s with deliveries := s.deliveries ++ [d], lastDelivery := s.lastDelivery + 1 }
  else none

/-- `finish_intent`. -/
def finishIntent (s : State) (i : Nat) (status title body : String) : State :=
  { s with hub := { s.hub with business :=
      (Statement.update .notifyOutbox (fun r => r.id == i) fun r =>
        [(.status, text status), (.expandedAt, text (N.lib.isoformat s.now)),
         (.title, if title = "" then r.cells .title else text title),
         (.body, if body = "" then r.cells .body else text body)]).exec SCHEMA s.hub.business } }

/-- The rows `claim_deliveries` selects, each with its intent. -/
def claimable (s : State) : List Claimed :=
  ((s.deliveries.filter fun d => d.due s.now && s.intents.any fun r => r.id == d.outboxId)
    |>.insertionSort Delivery.sooner).take CLAIM_BATCH |>.filterMap fun d =>
      (s.intents.find? fun r => r.id == d.outboxId).map fun r =>
        ⟨d.id, d.channelId, d.ruleId, d.attempts, d.expiresAt, r⟩

/-- `claim_deliveries`: the rows are leased and their attempts begin. -/
def claim (s : State) : State :=
  let rows := s.claimable
  { s with
    deliveries := updateWhere (fun d => rows.any fun r => r.id == d.id)
      (fun d => { d with leaseUntil := some (s.now + LEASE_SECONDS) }) s.deliveries
    worker := .delivering (rows.map fun r => ⟨r, .waiting⟩) }

/-- `settle_delivery`. -/
def settle (s : State) (i : Nat) (w : Settlement) : State :=
  { s with deliveries := updateWhere (fun d => d.id == i) (fun d => d.settled w s.now) s.deliveries }

end State

/-! ## Steps -/

/-- What may happen next. -/
inductive Label
  /-- An event arrives, for the first time or again. -/
  | arrive (x : Incoming)
  /-- The hook after the `k`-th first application: `on_message`, `on_task_result`, `on_call`. -/
  | hook (k : Nat) (kind : String)
  /-- Any other statement that is committed. -/
  | statement (q : Statement Table Column Cell)
  | clock (now : Int)
  | addChannel (c : Channel)
  | putChannel (c : Channel)
  | deleteChannel (i : Nat)
  | addRule (r : Rule)
  | putRule (r : Rule)
  | deleteRule (i : Nat)
  /-- The operator puts a given-up delivery back. -/
  | retry (i : Nat)
  /-- The process or its pass is over; a new one begins later. -/
  | crash
  | pump
  | readSource
  | readChannels
  | readRules
  | addNext
  | finish
  | claim
  /-- The `k`-th attempt looks up its channel. -/
  | lookUp (k : Nat)
  /-- It renders its payload. -/
  | render (k : Nat)
  /-- The provider answers; the number is what `_retry_delay` draws. -/
  | answer (k : Nat) (sent : Sent) (random : Rat)
  /-- Its end is written. -/
  | settle (k : Nat)
  | passEnd

/-- An event arrives; one whose callback raises is rolled back. -/
def arrive (s : State) (x : Incoming) : State :=
  match x.ingest s.hub with
  | .error _           => s
  | .ok (none, hub)    => { s with hub := hub }
  | .ok (some a, hub)  => { s with hub := hub, committed := s.committed ++ [(x, a)] }

/-- `_queue`: the transaction queued the intent under the same key. -/
def runHook (s : State) (e : Incoming × AppliedEvent) (kind : String) : State :=
  match queueOne e.1.env e.2 e.1.frame kind (e.2.refId kind) s.hub.business with
  | .error _      => s
  | .ok (_, hub)  => { s with hub := { s.hub with business := hub } }

/-- The operator's edits of channels and rules; one that breaks a foreign key is refused. -/
def edit (s : State) : Label → Option State
  | .addChannel c    => some { s with
      channels := s.channels ++ [{ c with id := s.lastChannel + 1 }]
      lastChannel := s.lastChannel + 1 }
  | .putChannel c    => some { s with
      channels := updateWhere (fun c' => c'.id == c.id) (fun _ => c) s.channels }
  | .deleteChannel i => some { s with
      channels := deleteWhere (fun c => c.id == i) s.channels : State }.cascade
  | .addRule r       => if s.admits r then some { s with
      rules := s.rules ++ [{ r with id := s.lastRule + 1 }]
      lastRule := s.lastRule + 1 } else none
  | .putRule r       => if s.admits r then some { s with
      rules := updateWhere (fun r' => r'.id == r.id) (fun _ => r) s.rules } else none
  | .deleteRule i    => some { s with
      rules := deleteWhere (fun r => r.id == i) s.rules : State }.cascade
  | _                => none

/-- `_every_enabled_channel`. -/
def everyChannel (channels : List Channel) : List Target :=
  (enabledChannels channels).map fun c => (c.id, none)

/-- The end of `_message_targets`. -/
def messageTargets (channels : List Channel) (rules : List Rule) (simId : Option Cell)
    (body : String) : List Target :=
  (matchRules N.lib channels rules simId body).map fun x => (x.2.id, some x.1.id)

/-- An intent with its targets and its text. -/
def expansion (now : Int) (intent : HubRow) (targets : List Target) (title body : String) :
    Expansion where
  intent    := intent
  targets   := targets
  expiresAt := (N.lib.fromisoformat (columnText N.lib (intent.cells .createdAt))).getD now +
    expirySeconds (columnText N.lib (intent.cells .kind))
  status    := if targets.isEmpty then "skipped" else "expanded"
  title     := title
  body      := body

/-- The statements of `_expand_intents`. -/
def expand (s : State) : Label → Option State
  | .readSource => match s.worker with
    | .expanding (intent :: rest) => match audience N.lib s.hub.business intent with
      | .ok a    => some { s with worker := .sourced intent a rest }
      -- a row shaped unexpectedly: the intent is skipped
      | .error _ => some { s with worker := .adding (expansion N s.now intent [] "" "") rest }
    | _ => none
  | .readChannels => match s.worker with
    | .sourced intent .nobody rest =>
      some { s with worker := .adding (expansion N s.now intent [] "" "") rest }
    | .sourced intent (.rules simId body) rest =>
      some { s with worker := .matching intent simId body (enabledChannels s.channels) rest }
    | .sourced intent (.everyone title body) rest => some { s with
        worker := .adding (expansion N s.now intent (everyChannel s.channels) title body) rest }
    | _ => none
  | .readRules => match s.worker with
    | .matching intent simId body channels rest => some { s with
        worker := .adding (expansion N s.now intent
          (messageTargets N channels s.rules simId body) "" "") rest }
    | _ => none
  | .addNext => match s.worker with
    | .adding ⟨intent, target :: targets, expiresAt, status, title, body⟩ rest =>
      match s.addDelivery intent.id target.1 target.2 expiresAt with
      | some s' => some { s' with
          worker := .adding ⟨intent, targets, expiresAt, status, title, body⟩ rest }
      -- the channel or the rule is gone: the pass is over
      | none    => some { s with worker := .idle }
    | _ => none
  | .finish => match s.worker with
    | .adding ⟨intent, [], _, status, title, body⟩ rest =>
      some { s.finishIntent N intent.id status title body with worker := .expanding rest }
    | _ => none
  | _ => none

/-- The `k`-th attempt goes on, or it is over. -/
def State.proceed (s : State) (attempts : List Attempt) (k : Nat) (next : Option Attempt) : State :=
  { s with worker := .delivering (place attempts k next) }

/-- A call that failed, with the instant of the next one. -/
def failedAt (now : Int) (row : Claimed) (random : Rat) (e : SendError) : Outcome :=
  .failed e now (now + (retryDelay N row.attempts e.retryAfter random).floor)

/-- What an answer makes of an attempt. -/
def outcomeOf (now : Int) (row : Claimed) (random : Rat) : Sent → Outcome
  | .accepted detail => .delivered detail
  | .refused e       => failedAt N now row random e
  | .raised detail   => failedAt N now row random ⟨detail, .network, none, none⟩

/-- The statements of `_attempt_claimed`. -/
def attempt (s : State) : Label → Option State
  | .lookUp k => match s.inFlight[k]? with
    | some ⟨row, .waiting⟩ =>
      some (s.proceed s.inFlight k (some ⟨row,
        match s.channels.find? fun c => c.id == row.channelId && c.enabled with
        | some channel => .found channel
        | none         => .settling .channelDisabled⟩))
    | _ => none
  | .render k => match s.inFlight[k]? with
    | some ⟨row, .found channel⟩ =>
      match payloadFor N s.hub.business s.rules s.now row channel with
      | .ok (some payload) => some (s.proceed s.inFlight k (some ⟨row, .sending payload⟩))
      | .ok none           => some (s.proceed s.inFlight k (some ⟨row, .settling .sourceGone⟩))
      -- outside the sender: the row keeps its lease
      | .error _           => some (s.proceed s.inFlight k none)
    | _ => none
  | .answer k sent random => match s.inFlight[k]? with
    | some ⟨row, .sending _⟩ => some (s.proceed s.inFlight k (some ⟨row,
        .settling (outcomeOf N s.now row random sent)⟩))
    | _ => none
  | .settle k => match s.inFlight[k]? with
    | some ⟨row, .settling outcome⟩ =>
      some ((s.settle row.id (settlement N row outcome)).proceed s.inFlight k none)
    | _ => none
  | _ => none

/-- What the rest of the Server does to the queue. -/
def serve (s : State) : Label → Option State
  | .arrive x    => some (arrive s x)
  | .hook k kind => if kind ∈ INTENT_KINDS then s.committed[k]?.map fun e => runHook s e kind else none
  | .statement q => if q.table = Table.notifyOutbox then none else some
      { s with hub := { s.hub with business := q.exec SCHEMA s.hub.business } : State }.cascade
  | .clock now   => some { s with now := now }
  | .retry i     => some { s with
      deliveries := updateWhere (fun d => d.id == i) (fun d => d.retried s.now) s.deliveries }
  | _            => none

/-- The worker between expansion and attempts. -/
def pass (s : State) : Label → Option State
  | .crash   => some { s with worker := .idle }
  | .pump    => match s.worker with
    | .idle => some { s with worker := .expanding s.pendingIntents }
    | _     => none
  | .claim   => match s.worker with
    | .expanding [] => some s.claim
    | _             => none
  | .passEnd => match s.worker with
    | .delivering [] => some { s with worker := .idle }
    | _              => none
  | _        => none

/-- Who takes a step. -/
inductive Actor
  | server | operator | worker | expansion | attempt
deriving DecidableEq

/-- Whose step it is. -/
def Label.actor : Label → Actor
  | .arrive _ | .hook _ _ | .statement _ | .clock _ | .retry _ => .server
  | .addChannel _ | .putChannel _ | .deleteChannel _ | .addRule _ | .putRule _ | .deleteRule _ =>
    .operator
  | .crash | .pump | .claim | .passEnd => .worker
  | .readSource | .readChannels | .readRules | .addNext | .finish => .expansion
  | .lookUp _ | .render _ | .answer _ _ _ | .settle _ => .attempt

/-- One step of the system. -/
def step (s : State) (a : Label) : Option State :=
  match a.actor with
  | .server    => serve s a
  | .operator  => edit s a
  | .worker    => pass s a
  | .expansion => expand N s a
  | .attempt   => attempt N s a

/-- The notification queue of a Server. -/
def Notifier.machine (N : Notifier) : Machine State Label where
  Start := fun s => ∃ now, s = .initial now
  step  := step N

end Air780eHub.Notify
