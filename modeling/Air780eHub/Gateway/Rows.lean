/-
  The rows that say who is connected: `agents.connected` and `devices.online`.

  Four functions of the database write them: `upsert_agent` and `upsert_device` raise the flags,
  `set_agent_connected` with `set_devices_offline` lowers those of one agent, and
  `mark_all_agents_disconnected` lowers all.  The gateway calls them in sequences of statements
  that may be cut short by an error, so a sequence is a list of writes here.

  `Rows.up` : an agent is shown as connected, or one of its devices as online.
-/
import Air780eHub.Lib.Table
import Air780eHub.Server.Ingest

namespace Air780eHub.Gateway

/-- The columns of `devices` that count here.  The name is kept as the frame gives it. -/
structure Device where
  agentId : String
  name    : Value
  online  : Bool
deriving DecidableEq

/-- `agents` (id and `connected`) and `devices`. -/
structure Rows where
  agents  : List (String × Bool)
  devices : List Device
deriving DecidableEq

/-- `upsert_agent` with `connected=True`. -/
def Rows.upsertAgent (rows : Rows) (agentId : String) : Rows :=
  { rows with
    agents := if rows.agents.any (·.1 = agentId) then
        updateWhere (·.1 = agentId) (fun r => (r.1, true)) rows.agents
      else rows.agents ++ [(agentId, true)] }

/-- `set_agent_connected(agent_id, False)`. -/
def Rows.setAgentDisconnected (rows : Rows) (agentId : String) : Rows :=
  { rows with agents := updateWhere (·.1 = agentId) (fun r => (r.1, false)) rows.agents }

/-- `upsert_device`.  A payload that does not state `online` leaves the column alone, and a new
    row has 0 there. -/
def Rows.upsertDevice (rows : Rows) (agentId : String) (payload : Frame) : Rows :=
  let name := payload.getD "name" (.str "")
  let mine : Device → Bool := fun d => d.agentId = agentId ∧ d.name = name
  let online := (payload.get "online").truthy
  { rows with
    devices := if rows.devices.any mine then
        if payload.has "online" then updateWhere mine (fun d => { d with online }) rows.devices
        else rows.devices
      else rows.devices ++ [⟨agentId, name, payload.has "online" && online⟩] }

/-- `set_devices_offline`. -/
def Rows.setDevicesOffline (rows : Rows) (agentId : String) : Rows :=
  { rows with
    devices := updateWhere (·.agentId = agentId) (fun d => { d with online := false })
      rows.devices }

/-- `mark_all_agents_disconnected`. -/
def Rows.markAll (rows : Rows) : Rows :=
  ⟨rows.agents.map fun r => (r.1, false), rows.devices.map fun d => { d with online := false }⟩

/-- The agent is shown as connected, or one of its devices as online. -/
def Rows.up (rows : Rows) (agentId : String) : Bool :=
  rows.agents.any (fun r => r.1 = agentId && r.2) ||
    rows.devices.any fun d => d.agentId = agentId && d.online

/-! ## Sequences of statements -/

/-- One statement of a sequence. -/
inductive Write
  | agentUp
  | device (payload : Frame)
  | agentDown
  | devicesDown

/-- A statement, for one agent. -/
def Rows.write (agentId : String) (rows : Rows) : Write → Rows
  | .agentUp        => rows.upsertAgent agentId
  | .device payload => rows.upsertDevice agentId payload
  | .agentDown      => rows.setAgentDisconnected agentId
  | .devicesDown    => rows.setDevicesOffline agentId

/-- Statements in order. -/
def Rows.writes (rows : Rows) (agentId : String) (ws : List Write) : Rows :=
  ws.foldl (Rows.write agentId) rows

/-- `_persist_registration`: the agent, then the devices of the hello. -/
def registrationWrites (devices : List Frame) : List Write :=
  .agentUp :: devices.map .device

/-- `_persist_disconnect`. -/
def disconnectWrites : List Write := [.agentDown, .devicesDown]

/-! ## Who is up afterwards -/

theorem Rows.up_iff {rows : Rows} {agentId : String} :
    rows.up agentId = true ↔ (agentId, true) ∈ rows.agents ∨
      ∃ d ∈ rows.devices, d.agentId = agentId ∧ d.online = true := by
  unfold Rows.up
  rw [Bool.or_eq_true, List.any_eq_true, List.any_eq_true]
  constructor
  · rintro (⟨⟨id, c⟩, hr, h⟩ | ⟨d, hd, h⟩)
    · simp only [Bool.and_eq_true, decide_eq_true_eq] at h
      obtain ⟨rfl, rfl⟩ := h
      exact Or.inl hr
    · simp only [Bool.and_eq_true, decide_eq_true_eq] at h
      exact Or.inr ⟨d, hd, h⟩
  · rintro (hr | ⟨d, hd, h⟩)
    · exact Or.inl ⟨(agentId, true), hr, by simp⟩
    · exact Or.inr ⟨d, hd, by simp [h]⟩

/-- A statement for one agent raises no other agent's flags. -/
theorem Rows.up_write {rows : Rows} {agentId other : String} {w : Write} (hne : other ≠ agentId)
    (h : (rows.write agentId w).up other = true) : rows.up other = true := by
  rw [Rows.up_iff] at h ⊢
  cases w with
  | agentUp =>
    rcases h with h | h
    · left
      simp only [Rows.write, Rows.upsertAgent] at h
      split at h
      · rcases of_mem_updateWhere h with ⟨r, _, hr, heq⟩ | ⟨h, _⟩
        · simp only [decide_eq_true_eq] at hr
          exact absurd (congrArg Prod.fst heq) (fun he => hne (he.trans hr))
        · exact h
      · rcases List.mem_append.mp h with h | h
        · exact h
        · cases List.mem_singleton.mp h
          exact absurd rfl hne
    · exact Or.inr h
  | device payload =>
    refine h.imp_right ?_
    rintro ⟨d, hd, hid, hon⟩
    simp only [Rows.write, Rows.upsertDevice] at hd
    split at hd
    · split at hd
      · rcases of_mem_updateWhere hd with ⟨d₀, _, hmine, rfl⟩ | ⟨hd, _⟩
        · simp only [decide_eq_true_eq] at hmine
          exact absurd (hid.symm.trans hmine.1) hne
        · exact ⟨d, hd, hid, hon⟩
      · exact ⟨d, hd, hid, hon⟩
    · rcases List.mem_append.mp hd with hd | hd
      · exact ⟨d, hd, hid, hon⟩
      · cases List.mem_singleton.mp hd
        exact absurd hid.symm hne
  | agentDown =>
    refine h.imp_left fun h => ?_
    rcases of_mem_updateWhere h with ⟨r, _, _, heq⟩ | ⟨h, _⟩
    · cases (congrArg Prod.snd heq)
    · exact h
  | devicesDown =>
    refine h.imp_right ?_
    rintro ⟨d, hd, hid, hon⟩
    rcases of_mem_updateWhere hd with ⟨d₀, _, _, rfl⟩ | ⟨hd, _⟩
    · cases hon
    · exact ⟨d, hd, hid, hon⟩

/-- A sequence for one agent raises no other agent's flags. -/
theorem Rows.up_writes {rows : Rows} {agentId other : String} {ws : List Write}
    (hne : other ≠ agentId) (h : (rows.writes agentId ws).up other = true) :
    rows.up other = true := by
  induction ws generalizing rows with
  | nil => exact h
  | cons w ws ih => exact Rows.up_write hne (ih h)

/-- After a disconnect was written whole, the agent is down. -/
theorem Rows.up_disconnect (rows : Rows) (agentId : String) :
    (rows.writes agentId disconnectWrites).up agentId = false := by
  rw [Bool.eq_false_iff]
  intro h
  rcases Rows.up_iff.mp h with h | ⟨d, hd, hid, hon⟩
  · rcases of_mem_updateWhere (t := rows.agents) h with ⟨r, _, _, heq⟩ | ⟨_, hr⟩
    · cases (congrArg Prod.snd heq)
    · simp at hr
  · rcases of_mem_updateWhere (t := rows.devices) hd with ⟨d₀, _, _, rfl⟩ | ⟨_, hd⟩
    · cases hon
    · simp [hid] at hd

/-- After `mark_all_agents_disconnected` nobody is up. -/
theorem Rows.up_markAll (rows : Rows) (agentId : String) : rows.markAll.up agentId = false := by
  rw [Bool.eq_false_iff]
  intro h
  rcases Rows.up_iff.mp h with h | ⟨d, hd, _, hon⟩
  · obtain ⟨r, _, heq⟩ := List.mem_map.mp h
    cases (congrArg Prod.snd heq)
  · obtain ⟨d₀, _, rfl⟩ := List.mem_map.mp hd
    cases hon

end Air780eHub.Gateway
