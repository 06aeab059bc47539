/-
  The Agent's command journal: the `command_runs` table of `store.py` and the events it appends.

  A durable command is journalled before its handler runs, and its result is written once.  Every
  path that ends a command (success, failure, rejection, cancellation, recovery after a crash)
  writes through `finishCommand`, whose UPDATE matches a running row only; the row that was given
  a result is replayed from then on.

  1. `beginCommand` : claim an id, or say what became of it.
  2. `finishCommand` : write the result and append its event in one transaction.
  3. `recoverCommands` : what opening the store does to rows a crash left running.

  `Journalled` collects what is always true of the journal, and the `_spec` lemmas say what each
  operation does to it.  Two results of one
  command are the same result (`Journalled.result_unique`).

  The column `updated_at` is written and never read, and is left out.
-/
import Air780eHub.Agent.EventTable

namespace Air780eHub

/-! ## Rows -/

/-- The status column of `command_runs`. -/
inductive RunStatus
  | running | succeeded | failed | cancelled | unknown
deriving DecidableEq, Repr

/-- The text of a status. -/
def RunStatus.text : RunStatus → String
  | .running   => "running"
  | .succeeded => "succeeded"
  | .failed    => "failed"
  | .cancelled => "cancelled"
  | .unknown   => "unknown"

/-- A row of `command_runs`. -/
structure CommandRun where
  cmdId       : String
  requestHash : String
  frame       : Frame
  status      : RunStatus
  result      : Option Payload

/-- The two tables, and as a ghost every event ever appended. -/
structure CommandStore where
  events      : EventTable
  commandRuns : List CommandRun
  history     : List Event

/-- `frame["cmd_id"]` of a durable command. -/
def Frame.cmdId (frame : Frame) : String :=
  match frame.get "cmd_id" with
  | .str s => s
  | _      => ""

/-- The frame names its command by a string, as every durable one does. -/
def Frame.Named (frame : Frame) : Prop := frame.get "cmd_id" = .str frame.cmdId

theorem Frame.cmdId_eq {frame : Frame} {c : String} (h : frame.get "cmd_id" = .str c) :
    frame.cmdId = c := by
  rw [Frame.cmdId, h]

/-- The event payload of a finished command. -/
def resultPayload (frame : Frame) (status : RunStatus) (data error : Value) : Payload where
  fields :=
    [("cmd_id", frame.get "cmd_id"), ("device", frame.get "device"),
     ("result_token", frame.get "result_token"), ("run_id", frame.get "run_id"),
     ("imei", frame.getD "expected_imei" (.str "")),
     ("iccid", frame.getD "expected_iccid" (.str "")),
     ("status", .str status.text), ("ok", .bool (status == .succeeded)),
     ("data", data), ("error", error)]
  noReserved := by simp

@[simp] theorem resultPayload_cmdId (frame : Frame) (status : RunStatus) (data error : Value) :
    (resultPayload frame status data error).fields.get "cmd_id" = frame.get "cmd_id" := rfl

/-! ## The operations -/

/-- What `begin_command` answers. -/
inductive Claimed
  | new | conflict | replayed | running
deriving DecidableEq, Repr

namespace CommandStore

/-- `append_event`. -/
def appendEvent (s : CommandStore) (kind : String) (payload : Payload) : CommandStore :=
  { s with
    events  := s.events.appendEvent kind payload
    history := s.history ++ [s.events.appended kind payload] }

/-- `command`: the row of an id. -/
def command (s : CommandStore) (cmdId : String) : Option CommandRun :=
  s.commandRuns.find? fun r => r.cmdId = cmdId

/-- `begin_command`.  `requestHash` is the digest of the frame's canonical text. -/
def beginCommand (requestHash : Frame → String) (s : CommandStore) (frame : Frame) :
    Claimed × CommandStore :=
  match s.command frame.cmdId with
  | some existing =>
    if existing.requestHash ≠ requestHash frame then (.conflict, s)
    else match existing.result with
      | some result => (.replayed, s.appendEvent "cmd_result" result)
      | none        => (.running, s)
  | none =>
    (.new, { s with commandRuns := s.commandRuns ++
      [⟨frame.cmdId, requestHash frame, frame, .running, none⟩] })

/-- The rows `finish_command` writes: the running row of the frame's id. -/
def isRunning (cmdId : String) (r : CommandRun) : Bool :=
  decide (r.cmdId = cmdId) && decide (r.status = .running)

/-- `SET status = ?, result = ?`. -/
def settle (status : RunStatus) (payload : Payload) (r : CommandRun) : CommandRun :=
  { r with status, result := some payload }

/-- `finish_command`. -/
def finishCommand (s : CommandStore) (frame : Frame) (status : RunStatus)
    (data error : Value) : CommandStore :=
  let payload := resultPayload frame status data error
  let s' := { s with
    commandRuns := updateWhere (isRunning frame.cmdId) (settle status payload) s.commandRuns }
  if s.commandRuns.any (isRunning frame.cmdId) then s'.appendEvent "cmd_result" payload else s'

/-- What `_recover_commands` does to one row it selected. -/
def recoverCommand (s : CommandStore) (row : CommandRun) : CommandStore :=
  s.finishCommand row.frame .unknown .null
    (.str "agent restarted after command started; execution result is unknown")

/-- `_recover_commands`, dying after the first `n` of the rows it selected. -/
def recoverCommands (s : CommandStore) (n : Nat) : CommandStore :=
  ((s.commandRuns.filter fun r => decide (r.status = .running)).take n).foldl recoverCommand s

/-! ## What is always true of the journal -/

/-- The row `r'` comes later in the life of `r`: a result, once there, stays. -/
def Later (r r' : CommandRun) : Prop := ∀ p, r.result = some p → r'.result = some p

/-- What is always true of the journal. -/
structure Journalled (s : CommandStore) : Prop where
  keys    : (s.commandRuns.map CommandRun.cmdId).Nodup
  /-- A row has a result exactly when it is no longer running. -/
  settled : ∀ r ∈ s.commandRuns, r.result = none ↔ r.status = .running
  /-- The frame of a row names the row. -/
  named   : ∀ r ∈ s.commandRuns, r.frame.get "cmd_id" = .str r.cmdId
  /-- So does its result. -/
  result  : ∀ r ∈ s.commandRuns, ∀ p, r.result = some p → p.fields.get "cmd_id" = .str r.cmdId

/-- `s'` comes later than `s`: rows keep their keys and results, events are only added. -/
structure Extends (s s' : CommandStore) : Prop where
  rows    : Evolves CommandRun.cmdId Later s.commandRuns s'.commandRuns
  history : ∃ more, s'.history = s.history ++ more

/-- The events `more` are results their rows hold. -/
def Recorded (s : CommandStore) (more : List Event) : Prop :=
  ∀ e ∈ more, e.kind = "cmd_result" ∧ ∃ r ∈ s.commandRuns, r.result = some e.payload

variable {s s' : CommandStore}

theorem Later.refl (r : CommandRun) : Later r r := fun _ h => h

theorem Later.trans {a b c : CommandRun} (h : Later a b) (h' : Later b c) : Later a c :=
  fun p hp => h' p (h p hp)

theorem Extends.refl (s : CommandStore) : Extends s s :=
  ⟨.refl Later.refl _, [], by simp⟩

theorem Extends.trans {s'' : CommandStore} (h : Extends s s') (h' : Extends s' s'') :
    Extends s s'' := by
  obtain ⟨more, hm⟩ := h.history
  obtain ⟨more', hm'⟩ := h'.history
  exact ⟨Evolves.trans (R := Later) (fun _ _ _ => Later.trans) h.rows h'.rows, more ++ more', by rw [hm', hm]; simp⟩

/-- A row recorded earlier is recorded later. -/
theorem Recorded.mono {more : List Event} (h : Recorded s more)
    (hx : Evolves CommandRun.cmdId Later s.commandRuns s'.commandRuns) : Recorded s' more := by
  intro e he
  obtain ⟨hk, r, hr, hp⟩ := h e he
  obtain ⟨r', hr', _, hl⟩ := hx r hr
  exact ⟨hk, r', hr', hl _ hp⟩

theorem command_some {cmdId : String} {r : CommandRun} (h : s.command cmdId = some r) :
    r ∈ s.commandRuns ∧ r.cmdId = cmdId :=
  ⟨List.mem_of_find?_eq_some h, by simpa using List.find?_some h⟩

theorem command_of_mem (hs : Journalled s) {r : CommandRun} (hr : r ∈ s.commandRuns) :
    s.command r.cmdId = some r := by
  cases hc : s.command r.cmdId with
  | none =>
    have hnone : ∀ x ∈ s.commandRuns, x.cmdId ≠ r.cmdId := by simpa [command] using hc
    exact absurd rfl (hnone r hr)
  | some x =>
    obtain ⟨hx, hid⟩ := command_some hc
    rw [eq_of_key_eq hs.keys hx hr hid]

theorem command_none {cmdId : String} (h : s.command cmdId = none) :
    ∀ r ∈ s.commandRuns, r.cmdId ≠ cmdId := by
  simpa [command] using h

@[simp] theorem appendEvent_commandRuns (kind : String) (payload : Payload) :
    (s.appendEvent kind payload).commandRuns = s.commandRuns := rfl

@[simp] theorem appendEvent_history (kind : String) (payload : Payload) :
    (s.appendEvent kind payload).history = s.history ++ [s.events.appended kind payload] := rfl

theorem Journalled.appendEvent (h : Journalled s) (kind : String) (payload : Payload) :
    Journalled (s.appendEvent kind payload) := ⟨h.keys, h.settled, h.named, h.result⟩

/-! ## What each operation does -/

/-- **What `begin_command` can do.**  `new` means the id had no row and has one now; otherwise
    rows stay as they are, and a replay appends the result the row holds. -/
theorem beginCommand_spec {requestHash : Frame → String} {frame : Frame} {c : Claimed}
    (h : s.beginCommand requestHash frame = (c, s')) :
    (c = .new ∧ (∀ r ∈ s.commandRuns, r.cmdId ≠ frame.cmdId) ∧ s' = { s with
      commandRuns := s.commandRuns ++
        [⟨frame.cmdId, requestHash frame, frame, .running, none⟩] }) ∨
    (c ≠ .new ∧ (∃ r ∈ s.commandRuns, r.cmdId = frame.cmdId) ∧
      (s' = s ∨ ∃ r ∈ s.commandRuns, ∃ p, r.result = some p ∧
        s' = s.appendEvent "cmd_result" p)) := by
  unfold beginCommand at h
  cases hc : s.command frame.cmdId with
  | none =>
    simp only [hc, Prod.mk.injEq] at h
    exact Or.inl ⟨h.1.symm, command_none hc, h.2.symm⟩
  | some r =>
    obtain ⟨hr, hid⟩ := command_some hc
    refine Or.inr ?_
    rw [hc] at h
    dsimp only at h
    by_cases hh : r.requestHash ≠ requestHash frame
    · rw [if_pos hh] at h
      cases h
      exact ⟨by simp, ⟨r, hr, hid⟩, Or.inl rfl⟩
    · rw [if_neg hh] at h
      cases hres : r.result with
      | none =>
        rw [hres] at h; cases h
        exact ⟨by simp, ⟨r, hr, hid⟩, Or.inl rfl⟩
      | some p =>
        rw [hres] at h; cases h
        exact ⟨by simp, ⟨r, hr, hid⟩, Or.inr ⟨r, hr, p, hres, rfl⟩⟩

/-- Claiming keeps the journal, and the events it appends are recorded. -/
theorem beginCommand_keeps {requestHash : Frame → String} {frame : Frame} {c : Claimed}
    (hs : Journalled s) (hf : frame.Named) (h : s.beginCommand requestHash frame = (c, s')) :
    Journalled s' ∧ Extends s s' ∧
      ∃ more, s'.history = s.history ++ more ∧ Recorded s' more := by
  rcases beginCommand_spec h with ⟨_, hnew, rfl⟩ | ⟨_, _, rfl | ⟨r, hr, p, hp, rfl⟩⟩
  · have hmem : ∀ {r}, r ∈ s.commandRuns ++
        [⟨frame.cmdId, requestHash frame, frame, .running, none⟩] → r ∈ s.commandRuns ∨
        r = ⟨frame.cmdId, requestHash frame, frame, .running, none⟩ := by simp
    refine ⟨⟨?_, ?_, ?_, ?_⟩, ⟨.append Later.refl _ _, [], by simp⟩, [], by simp, by simp [Recorded]⟩
    · rw [List.map_append]
      refine List.nodup_append.mpr ⟨hs.keys, by simp, ?_⟩
      intro a ha b hb
      obtain ⟨r, hr, rfl⟩ := List.mem_map.mp ha
      rw [List.map_singleton, List.mem_singleton] at hb
      rw [hb]; exact hnew r hr
    · intro r hr
      rcases hmem hr with hr | rfl
      · exact hs.settled r hr
      · simp
    · intro r hr
      rcases hmem hr with hr | rfl
      · exact hs.named r hr
      · exact hf
    · intro r hr p hp
      rcases hmem hr with hr | rfl
      · exact hs.result r hr p hp
      · cases hp
  · exact ⟨hs, .refl _, [], by simp, by simp [Recorded]⟩
  · refine ⟨hs.appendEvent _ _, ⟨.refl Later.refl _, _, rfl⟩, _, rfl, ?_⟩
    intro e he
    rw [List.mem_singleton] at he
    subst he
    exact ⟨rfl, r, hr, hp⟩

/-- The rows after `finish_command`. -/
theorem finishCommand_rows (s : CommandStore) (frame : Frame) (status : RunStatus)
    (data error : Value) : (s.finishCommand frame status data error).commandRuns =
      updateWhere (isRunning frame.cmdId) (settle status (resultPayload frame status data error))
        s.commandRuns := by
  unfold finishCommand
  dsimp only
  split
  · rfl
  · rfl

/-- Finishing keeps the journal, and the event it appends is recorded. -/
theorem finishCommand_keeps {frame : Frame} {status : RunStatus} {data error : Value}
    (hs : Journalled s) (hf : frame.Named) (hst : status ≠ .running) :
    Journalled (s.finishCommand frame status data error) ∧
      Extends s (s.finishCommand frame status data error) ∧
      ∃ more, (s.finishCommand frame status data error).history = s.history ++ more ∧
        Recorded (s.finishCommand frame status data error) more := by
  have hrows := finishCommand_rows s frame status data error
  have hcase : ∀ {r}, r ∈ (s.finishCommand frame status data error).commandRuns →
      (∃ r₀ ∈ s.commandRuns, isRunning frame.cmdId r₀ = true ∧
        r = settle status (resultPayload frame status data error) r₀) ∨
      (r ∈ s.commandRuns ∧ isRunning frame.cmdId r = false) := by
    intro r hr
    rw [hrows] at hr
    exact of_mem_updateWhere hr
  have hrun : ∀ {r₀}, isRunning frame.cmdId r₀ = true →
      r₀.cmdId = frame.cmdId ∧ r₀.status = .running := by
    intro r₀ h
    simpa [isRunning] using h
  have hj : Journalled (s.finishCommand frame status data error) := by
    constructor
    case keys =>
      rw [hrows, map_updateWhere (f := settle _ _) fun _ _ _ => rfl]
      exact hs.keys
    case settled =>
      intro r hr
      rcases hcase hr with ⟨r₀, _, _, rfl⟩ | ⟨hr, _⟩
      · simp [settle, hst]
      · exact hs.settled r hr
    case named =>
      intro r hr
      rcases hcase hr with ⟨r₀, h₀, _, rfl⟩ | ⟨hr, _⟩
      · exact hs.named r₀ h₀
      · exact hs.named r hr
    case result =>
      intro r hr p hp
      rcases hcase hr with ⟨r₀, h₀, hp₀, rfl⟩ | ⟨hr, _⟩
      · cases hp
        rw [resultPayload_cmdId, hf, ← (hrun hp₀).1]
        rfl
      · exact hs.result r hr p hp
  have hev : Evolves CommandRun.cmdId Later s.commandRuns
      (s.finishCommand frame status data error).commandRuns := by
    rw [hrows]
    refine Evolves.updateWhere Later.refl fun r hr hp => ⟨rfl, fun p hres => ?_⟩
    -- the row was running, so it had no result to lose
    rw [(hs.settled r hr).mpr (hrun hp).2] at hres
    cases hres
  by_cases hany : s.commandRuns.any (isRunning frame.cmdId) = true
  · have hh : (s.finishCommand frame status data error).history = s.history ++
        [s.events.appended "cmd_result" (resultPayload frame status data error)] := by
      rw [finishCommand, if_pos hany]; rfl
    refine ⟨hj, ⟨hev, _, hh⟩, _, hh, ?_⟩
    intro e he
    rw [List.mem_singleton] at he
    subst he
    obtain ⟨r₀, h₀, hp⟩ := List.any_eq_true.mp hany
    refine ⟨rfl, settle status (resultPayload frame status data error) r₀, ?_, rfl⟩
    rw [hrows]
    exact mem_updateWhere.mpr ⟨r₀, h₀, if_pos hp⟩
  · have hh : (s.finishCommand frame status data error).history = s.history := by
      rw [finishCommand, if_neg hany]
    exact ⟨hj, ⟨hev, [], by simp [hh]⟩, [], by simp [hh], by simp [Recorded]⟩

/-- **A result is a result.**  Two payloads that rows hold for one command are the same. -/
theorem Journalled.result_unique (hs : Journalled s) {p p' : Payload} {c : String}
    (h : ∃ r ∈ s.commandRuns, r.result = some p) (h' : ∃ r ∈ s.commandRuns, r.result = some p')
    (hp : p.fields.get "cmd_id" = .str c) (hp' : p'.fields.get "cmd_id" = .str c) : p = p' := by
  obtain ⟨r, hr, hres⟩ := h
  obtain ⟨r', hr', hres'⟩ := h'
  have hc := (hs.result r hr p hres).symm.trans hp
  have hc' := (hs.result r' hr' p' hres').symm.trans hp'
  obtain rfl := eq_of_key_eq hs.keys hr hr' (Value.str.inj (hc.trans hc'.symm))
  exact Option.some.inj (hres.symm.trans hres')

end CommandStore

end Air780eHub
