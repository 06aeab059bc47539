/-
  Durable operations on the Server: the `command_operations` table of `db.py`.

  An operation is one command an administrator asked for.  Its row is never deleted; its status
  starts at `queued` and is moved by eleven statements, each under its own guard:

    create    a new row, or the row an idempotency key already named
    claim     queued    → running               before the frame is sent
    cancel    queued    → cancelled
    expire    queued    → cancelled,  running → unknown
    failed send, disconnect, recover    running → unknown
    restore   queued    → cancelled             before the snapshot
    reset     queued    → cancelled,  running → unknown
    result    running, unknown → the status of a frame that names the row in full
    rebind    moves a queued row to a new connection

  `Advance r r'` says what any of them may do to a row: who it is for never changes, its status
  only moves down `queued, running, unknown, final`, and a final row does not change at all.  Every
  statement is shown to advance every row (the `_advance` lemmas), and the rest of the development
  uses nothing else about them.

  Deadlines and clock readings are ISO texts of one format, compared as SQLite compares them.  The
  column `updated_at` is written and never read, and is left out.
-/
import Air780eHub.Lib.Table
import Air780eHub.Wire.Json
import Mathlib.Tactic.FinCases

namespace Air780eHub

/-! ## Rows -/

/-- The status column of `command_operations`. -/
inductive OpStatus
  | queued | running | succeeded | failed | unknown | cancelled
deriving DecidableEq, Repr

/-- The text of a status. -/
def OpStatus.text : OpStatus → String
  | .queued    => "queued"
  | .running   => "running"
  | .succeeded => "succeeded"
  | .failed    => "failed"
  | .unknown   => "unknown"
  | .cancelled => "cancelled"

/-- No statement leaves this status. -/
def OpStatus.final : OpStatus → Bool
  | .succeeded | .failed | .cancelled => true
  | _                                 => false

/-- How far an operation is. -/
def OpStatus.rank : OpStatus → Nat
  | .queued  => 0
  | .running => 1
  | .unknown => 2
  | _        => 3

/-- A row of `command_operations`. -/
structure Operation where
  id             : String
  actor          : String
  deviceId       : Nat
  agentId        : String
  device         : String
  commandType    : Value
  requestHash    : String
  idempotencyKey : String
  frame          : Frame
  status         : OpStatus
  deadline       : String
  streamId       : String
  connectionId   : String
  resultToken    : String
  expectedImei   : String
  expectedIccid  : String
  result         : Option Value
  error          : Value
  createdAt      : String

/-- The device a command is for. -/
structure Target where
  id      : Nat
  agentId : String
  name    : String
  imei    : String
  iccid   : String

/-- The arguments of `create_operation`. -/
structure OpRequest where
  actor          : String
  target         : Target
  frame          : Frame
  idempotencyKey : String
  deadline       : String
  streamId       : String
  connectionId   : String

/-- Why `create_operation` raised. -/
inductive OpError
  /-- The idempotency key belongs to another request. -/
  | conflict
  /-- Too much is waiting already. -/
  | queueFull
  /-- The random id is taken. -/
  | integrity
deriving DecidableEq, Repr

namespace Operation

variable (ops : List Operation)

/-! ## The statements -/

/-- Set the status, with the reason. -/
def setStatus (status : OpStatus) (error : String) (r : Operation) : Operation :=
  { r with status, error := .str error }

/-- `operation`: the row of an id. -/
def find (id : String) : Option Operation := ops.find? fun r => r.id = id

/-- The row an idempotency key already names. -/
def sameKey (req : OpRequest) (r : Operation) : Bool :=
  decide (r.actor = req.actor) && decide (r.deviceId = req.target.id) &&
    decide (r.idempotencyKey = req.idempotencyKey)

/-- Queued or running. -/
def isActive (r : Operation) : Bool := decide (r.status = .queued) || decide (r.status = .running)

/-- The row `create_operation` inserts. -/
def fresh (sha256 : String → String) (req : OpRequest) (id token now : String) : Operation where
  id             := id
  actor          := req.actor
  deviceId       := req.target.id
  agentId        := req.target.agentId
  device         := req.target.name
  commandType    := req.frame.get "type"
  requestHash    := sha256 req.frame.dumps
  idempotencyKey := req.idempotencyKey
  frame          := req.frame
  status         := .queued
  deadline       := req.deadline
  streamId       := req.streamId
  connectionId   := req.connectionId
  resultToken    := token
  expectedImei   := req.target.imei
  expectedIccid  := req.target.iccid
  result         := none
  error          := .null
  createdAt      := now

/-- `create_operation`: the id of the operation, and the table.  `id` and `token` are what
    `secrets` returned. -/
def create (sha256 : String → String) (req : OpRequest) (id token now : String) :
    Except OpError (String × List Operation) :=
  match ops.find? (sameKey req) with
  | some existing =>
    if existing.requestHash ≠ sha256 req.frame.dumps then .error .conflict
    else .ok (existing.id, ops)
  | none =>
    if 200 ≤ (ops.filter isActive).length ∨
        16 ≤ (ops.filter fun r => isActive r && decide (r.deviceId = req.target.id)).length then
      .error .queueFull
    else if ops.any (fun r => decide (r.id = id)) then .error .integrity
    else .ok (id, ops ++ [fresh sha256 req id token now])

/-- `recover_operations`. -/
def recover : List Operation :=
  updateWhere (fun r => decide (r.status = .running))
    (setStatus .unknown "server restarted before result was confirmed") ops

/-- `disconnect_operations`. -/
def disconnect (connectionId : String) : List Operation :=
  updateWhere (fun r => decide (r.connectionId = connectionId) && decide (r.status = .running))
    (setStatus .unknown "agent disconnected before result was confirmed") ops

/-- `rebind_operations`. -/
def rebind (agentId streamId connectionId : String) : List Operation :=
  updateWhere (fun r => decide (r.agentId = agentId) && decide (r.status = .queued) &&
      decide (r.streamId = streamId))
    (fun r => { r with connectionId, streamId }) ops

/-- `CASE status WHEN 'queued' THEN 'cancelled' ELSE 'unknown' END`. -/
def abandon (error : String) (r : Operation) : Operation :=
  setStatus (if r.status = .queued then .cancelled else .unknown) error r

/-- `expire_operations`. -/
def expire (now : String) : List Operation :=
  updateWhere (fun r => decide (r.deadline ≤ now) && isActive r)
    (abandon "command deadline elapsed") ops

/-- The row `claim_operation` matches. -/
def claimable (id now : String) (r : Operation) : Bool :=
  decide (r.id = id) && decide (r.status = .queued) && decide (now < r.deadline)

/-- `claim_operation`. -/
def claim (id now : String) : Bool × List Operation :=
  (ops.any (claimable id now),
    updateWhere (claimable id now) (fun r => { r with status := .running }) ops)

/-- `cancel_operation`. -/
def cancel (id : String) : List Operation :=
  updateWhere (fun r => decide (r.id = id) && decide (r.status = .queued))
    (setStatus .cancelled "cancelled before dispatch") ops

/-- The statement of `dispatch_operations_once` after a send that did not complete. -/
def sendFailed (id : String) : List Operation :=
  updateWhere (fun r => decide (r.id = id) && decide (r.status = .running))
    (setStatus .unknown "socket send did not complete") ops

/-- The statement of an online restore before its snapshot. -/
def cancelQueued : List Operation :=
  updateWhere (fun r => decide (r.status = .queued))
    (setStatus .cancelled "cancelled before database restore") ops

/-- What `reset_restored_runtime` does to the operations. -/
def resetRuntime : List Operation :=
  updateWhere isActive (abandon "database restored") ops

/-- The status a result frame carries. -/
def frameStatus (frame : Frame) : Option OpStatus :=
  [OpStatus.succeeded, .failed, .unknown, .cancelled].find? fun st =>
    frame.get "status" = .str st.text

/-- The further checks of `apply_operation_result` on a frame with that status. -/
def accepted (frame : Frame) (status : OpStatus) : Bool :=
  (decide (status = .succeeded) == decide (frame.get "ok" = .bool true)) &&
  ((frame.get "cmd_id").isStr && (frame.get "device").isStr && (frame.get "result_token").isStr) &&
  (decide (frame.get "error" = .null) || (frame.get "error").isStr) &&
  (decide (frame.get "data" = .null) || (frame.get "data").isDict)

/-- The status `apply_operation_result` writes for a frame, when it accepts the frame. -/
def resultStatus (frame : Frame) : Option OpStatus := (frameStatus frame).filter (accepted frame)

/-- What the result update reads of the target device: its IMEI and the ICCID of its SIM. -/
abbrev Identity := Nat → Option String × Option String

/-- The row a result frame names in full. -/
def named (identity : Identity) (agentId streamId : String) (frame : Frame) (r : Operation) :
    Bool :=
  decide (frame.get "cmd_id" = .str r.id) && decide (r.agentId = agentId) &&
  decide (r.streamId = streamId) && decide (frame.get "device" = .str r.device) &&
  decide (frame.get "result_token" = .str r.resultToken) &&
  (decide (r.status = .running) || decide (r.status = .unknown)) &&
  (decide (r.expectedImei = "") || decide ((identity r.deviceId).1 = some r.expectedImei)) &&
  (decide (r.expectedIccid = "") || decide ((identity r.deviceId).2 = some r.expectedIccid))

/-- `apply_operation_result`. -/
def applyResult (identity : Identity) (agentId streamId : String) (frame : Frame) :
    List Operation :=
  match resultStatus frame with
  | none        => ops
  | some status => updateWhere (named identity agentId streamId frame)
    (fun r => { r with status, result := some (frame.get "data"), error := frame.get "error" })
    ops

/-! ## What a statement may do to a row -/

/-- Who an operation is for, and what it asks: no statement writes these. -/
structure SameRequest (r r' : Operation) : Prop where
  id             : r'.id = r.id
  actor          : r'.actor = r.actor
  deviceId       : r'.deviceId = r.deviceId
  agentId        : r'.agentId = r.agentId
  device         : r'.device = r.device
  requestHash    : r'.requestHash = r.requestHash
  idempotencyKey : r'.idempotencyKey = r.idempotencyKey
  frame          : r'.frame = r.frame
  deadline       : r'.deadline = r.deadline
  streamId       : r'.streamId = r.streamId
  resultToken    : r'.resultToken = r.resultToken
  expectedImei   : r'.expectedImei = r.expectedImei
  expectedIccid  : r'.expectedIccid = r.expectedIccid

/-- **The life of a row.** -/
structure Advance (r r' : Operation) : Prop where
  same   : SameRequest r r'
  rank   : r.status.rank ≤ r'.status.rank
  final  : r.status.final = true → r' = r

theorem SameRequest.refl (r : Operation) : SameRequest r r := by constructor <;> rfl

theorem SameRequest.trans {a b c : Operation} (h : SameRequest a b) (h' : SameRequest b c) :
    SameRequest a c where
  id             := h'.id.trans h.id
  actor          := h'.actor.trans h.actor
  deviceId       := h'.deviceId.trans h.deviceId
  agentId        := h'.agentId.trans h.agentId
  device         := h'.device.trans h.device
  requestHash    := h'.requestHash.trans h.requestHash
  idempotencyKey := h'.idempotencyKey.trans h.idempotencyKey
  frame          := h'.frame.trans h.frame
  deadline       := h'.deadline.trans h.deadline
  streamId       := h'.streamId.trans h.streamId
  resultToken    := h'.resultToken.trans h.resultToken
  expectedImei   := h'.expectedImei.trans h.expectedImei
  expectedIccid  := h'.expectedIccid.trans h.expectedIccid

theorem Advance.refl (r : Operation) : Advance r r :=
  ⟨.refl r, Nat.le_refl _, fun _ => rfl⟩

theorem Advance.trans {a b c : Operation} (h : Advance a b) (h' : Advance b c) : Advance a c := by
  refine ⟨h.same.trans h'.same, Nat.le_trans h.rank h'.rank, fun hf => ?_⟩
  have hb := h.final hf
  rw [← hb] at hf
  rw [h'.final hf, hb]

/-- A row that is not queued is not queued again. -/
theorem Advance.not_queued {r r' : Operation} (h : Advance r r') (hq : r.status ≠ .queued) :
    r'.status ≠ .queued := by
  intro heq
  have := h.rank
  rw [heq] at this
  cases hs : r.status <;> simp_all [OpStatus.rank]

/-- The table `ops'` comes later than `ops`. -/
abbrev Later (ops ops' : List Operation) : Prop := Evolves id Advance ops ops'

/-! ## What the statements do -/

/-- A row that is not final moves on. -/
structure Moves (r r' : Operation) : Prop where
  same     : SameRequest r r'
  rank     : r.status.rank ≤ r'.status.rank
  notFinal : r.status.final = false

theorem Moves.advance {r r' : Operation} (h : Moves r r') : Advance r r' := by
  refine ⟨h.same, h.rank, fun hfin => ?_⟩
  rw [h.notFinal] at hfin
  cases hfin

variable {ops}

/-- An update that only moves rows on leaves a later table. -/
theorem later_update {p : Operation → Bool} {f : Operation → Operation}
    (hf : ∀ r, p r = true → Moves r (f r)) : Later ops (updateWhere p f ops) :=
  Evolves.updateWhere Advance.refl fun r _ hp => ⟨(hf r hp).same.id, (hf r hp).advance⟩

/-- An update that moves rows on, starts none, and leaves unknown ones alone.  All statements but
    the claim and the result are of this kind. -/
def QuietUpdate (ops ops' : List Operation) : Prop :=
  ∃ p f, ops' = updateWhere p f ops ∧
    ∀ r, p r = true → Moves r (f r) ∧ (f r).status ≠ .running ∧ r.status ≠ .unknown

theorem setStatus_same (status : OpStatus) (error : String) (r : Operation) :
    SameRequest r (setStatus status error r) := by constructor <;> rfl

/-- Running rows set to unknown. -/
theorem quiet_unknown {p : Operation → Bool} (hp : ∀ r, p r = true → r.status = .running)
    (error : String) : QuietUpdate ops (updateWhere p (setStatus .unknown error) ops) := by
  refine ⟨_, _, rfl, fun r h => ?_⟩
  have hs := hp r h
  exact ⟨⟨setStatus_same _ _ r, by rw [hs]; exact Nat.le_succ 1, by rw [hs]; rfl⟩, nofun, by rw [hs]; nofun⟩

/-- Queued rows set to cancelled. -/
theorem quiet_cancelled {p : Operation → Bool} (hp : ∀ r, p r = true → r.status = .queued)
    (error : String) : QuietUpdate ops (updateWhere p (setStatus .cancelled error) ops) := by
  refine ⟨_, _, rfl, fun r h => ?_⟩
  have hs := hp r h
  exact ⟨⟨setStatus_same _ _ r, by rw [hs]; exact Nat.zero_le _, by rw [hs]; rfl⟩, nofun, by rw [hs]; nofun⟩

/-- Active rows abandoned. -/
theorem quiet_abandon {p : Operation → Bool} (hp : ∀ r, p r = true → isActive r = true)
    (error : String) : QuietUpdate ops (updateWhere p (abandon error) ops) := by
  refine ⟨_, _, rfl, fun r h => ?_⟩
  have ha : r.status = .queued ∨ r.status = .running := by simpa [isActive] using hp r h
  rcases ha with hs | hs
  · refine ⟨⟨setStatus_same _ _ r, by rw [hs]; exact Nat.zero_le _, by rw [hs]; rfl⟩, ?_, by rw [hs]; nofun⟩
    rw [abandon, if_pos hs]; nofun
  · have hne : r.status ≠ .queued := by rw [hs]; nofun
    have hst : (abandon error r).status = .unknown := by rw [abandon, if_neg hne]; rfl
    refine ⟨⟨setStatus_same _ _ r, ?_, by rw [hs]; rfl⟩, by rw [hst]; nofun, by rw [hs]; nofun⟩
    rw [hst, hs]; decide

theorem recover_quiet : QuietUpdate ops (recover ops) :=
  quiet_unknown (fun _ hp => of_decide_eq_true hp) _

theorem disconnect_quiet (connectionId : String) : QuietUpdate ops (disconnect ops connectionId) :=
  quiet_unknown (fun _ hp => by simp only [Bool.and_eq_true, decide_eq_true_eq] at hp; exact hp.2) _

theorem sendFailed_quiet (id : String) : QuietUpdate ops (sendFailed ops id) :=
  quiet_unknown (fun _ hp => by simp only [Bool.and_eq_true, decide_eq_true_eq] at hp; exact hp.2) _

theorem cancel_quiet (id : String) : QuietUpdate ops (cancel ops id) :=
  quiet_cancelled (fun _ hp => by simp only [Bool.and_eq_true, decide_eq_true_eq] at hp; exact hp.2) _

theorem cancelQueued_quiet : QuietUpdate ops (cancelQueued ops) :=
  quiet_cancelled (fun _ hp => of_decide_eq_true hp) _

theorem expire_quiet (now : String) : QuietUpdate ops (expire ops now) :=
  quiet_abandon (fun _ hp => by simp only [Bool.and_eq_true] at hp; exact hp.2) _

theorem resetRuntime_quiet : QuietUpdate ops (resetRuntime ops) := quiet_abandon (fun _ hp => hp) _

/-- Rebinding writes the stream id the row has. -/
theorem rebind_quiet (agentId streamId connectionId : String) :
    QuietUpdate ops (rebind ops agentId streamId connectionId) := by
  refine ⟨_, _, rfl, fun r hp => ?_⟩
  simp only [Bool.and_eq_true, decide_eq_true_eq] at hp
  obtain ⟨⟨_, hs⟩, hstream⟩ := hp
  refine ⟨⟨?_, Nat.le_refl _, by rw [hs]; rfl⟩, ?_, by rw [hs]; nofun⟩
  · constructor
    case streamId => exact hstream.symm
    all_goals rfl
  · intro heq
    rw [show r.status = .running from heq] at hs
    cases hs

theorem claim_moves {id now : String} {r : Operation} (hp : claimable id now r = true) :
    Moves r { r with status := .running } ∧ r.id = id ∧ r.status = .queued := by
  simp only [claimable, Bool.and_eq_true, decide_eq_true_eq] at hp
  obtain ⟨⟨hid, hs⟩, _⟩ := hp
  exact ⟨⟨by constructor <;> rfl, by rw [hs]; exact Nat.zero_le _, by rw [hs]; rfl⟩, hid, hs⟩

/-- An accepted status is not one the Server gives out itself. -/
theorem resultStatus_rank {frame : Frame} {status : OpStatus}
    (h : resultStatus frame = some status) : 2 ≤ status.rank := by
  have hmem := List.mem_of_find?_eq_some (Option.filter_eq_some_iff.mp h).1
  fin_cases hmem <;> decide

/-- What a matching frame names of the row. -/
structure Matches (agentId streamId : String) (frame : Frame) (r : Operation) : Prop where
  cmdId       : frame.get "cmd_id" = .str r.id
  agentId     : r.agentId = agentId
  streamId    : r.streamId = streamId
  device      : frame.get "device" = .str r.device
  resultToken : frame.get "result_token" = .str r.resultToken

theorem named_matches {identity : Identity} {agentId streamId : String} {frame : Frame}
    {r : Operation} (h : named identity agentId streamId frame r = true) :
    Matches agentId streamId frame r ∧ (r.status = .running ∨ r.status = .unknown) := by
  simp only [named, Bool.and_eq_true, Bool.or_eq_true, decide_eq_true_eq] at h
  obtain ⟨⟨⟨⟨⟨⟨⟨h1, h2⟩, h3⟩, h4⟩, h5⟩, h6⟩, _⟩, _⟩ := h
  exact ⟨⟨h1, h2, h3, h4, h5⟩, h6⟩

/-- What a result frame does: nothing, or it moves on the rows it names in full, to a status the
    Server does not give out itself. -/
theorem applyResult_spec (ops : List Operation) (identity : Identity) (agentId streamId : String)
    (frame : Frame) :
    applyResult ops identity agentId streamId frame = ops ∨
    ∃ f, applyResult ops identity agentId streamId frame =
        updateWhere (named identity agentId streamId frame) f ops ∧
      ∀ r, named identity agentId streamId frame r = true →
        Moves r (f r) ∧ (f r).status ≠ .running := by
  unfold applyResult
  split
  · exact Or.inl rfl
  · rename_i status hst
    refine Or.inr ⟨_, rfl, fun r hp => ?_⟩
    have hrank := resultStatus_rank hst
    have hrun : status ≠ .running := by
      intro heq
      rw [heq] at hrank
      exact absurd hrank (by decide)
    rcases (named_matches hp).2 with hs | hs
    · exact ⟨⟨by constructor <;> rfl, by rw [hs]; exact Nat.le_trans (by decide) hrank,
        by rw [hs]; rfl⟩, hrun⟩
    · exact ⟨⟨by constructor <;> rfl, by rw [hs]; exact hrank, by rw [hs]; rfl⟩, hrun⟩

/-- A result frame writes only the row it names in full. -/
theorem applyResult_cases (identity : Identity) (agentId streamId : String) (frame : Frame)
    {r : Operation} (h : r ∈ ops) :
    r ∈ applyResult ops identity agentId streamId frame ∨ Matches agentId streamId frame r := by
  unfold applyResult
  split
  · exact Or.inl h
  · by_cases hp : named identity agentId streamId frame r = true
    · exact Or.inr (named_matches hp).1
    · exact Or.inl (mem_updateWhere.mpr ⟨r, h, if_neg hp⟩)

/-- **What `create_operation` can do**: return the operation the key names, whose request is the
    same, or add a new queued one under a new id and key. -/
theorem create_spec {sha256 : String → String} {req : OpRequest} {id token now newId : String}
    {ops' : List Operation} (h : create ops sha256 req id token now = .ok (newId, ops')) :
    (ops' = ops ∧ ∃ r ∈ ops, sameKey req r = true ∧ r.requestHash = sha256 req.frame.dumps ∧
      newId = r.id) ∨
    ((∀ r ∈ ops, sameKey req r = false) ∧ (∀ r ∈ ops, r.id ≠ id) ∧ newId = id ∧
      ops' = ops ++ [fresh sha256 req id token now]) := by
  unfold create at h
  split at h
  · rename_i r hr
    split at h
    · cases h
    · rename_i hh
      cases h
      exact Or.inl ⟨rfl, r, List.mem_of_find?_eq_some hr, List.find?_some hr,
        not_not.mp hh, rfl⟩
  · rename_i hr
    split at h
    · cases h
    · split at h
      · cases h
      · rename_i hid
        cases h
        have hkey : ∀ r ∈ ops, sameKey req r = false := by simpa using hr
        have hids : ∀ r ∈ ops, r.id ≠ id := by simpa using hid
        exact Or.inr ⟨hkey, hids, rfl, rfl⟩

end Operation

end Air780eHub
