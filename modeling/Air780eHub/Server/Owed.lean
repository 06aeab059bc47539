/-
  What an event leaves in `notify_outbox`.

  The business writes of a callback do not touch the table, so the intents a transaction adds are
  exactly those `queueNotification` inserts.  An event has at most one: a message for an inbound
  SMS, a call for a call event, a receipt for the result of a task.

  1. **`Writes`**: the statements of a callback; none of them is on this table.
  2. **What an event owes**: `intentKind`, read off its kind and its frame.
  3. **`apply_owed`**: the rows of the table after a transaction, and
     **`enqueueNotification_cases`**: an intent whose key is there is not added again.
-/
import Air780eHub.Lib.Scripts
import Air780eHub.Server.Apply

namespace Air780eHub.Server

open Relational

variable {E : Env} {frame : Frame} {agentId streamId : String}

/-! ## What the callbacks write -/

/-- The columns a row of the table keeps as it was inserted: what a message says and when it was
    sent, and the command of an operation. -/
def frozen : Table → List Column
  | .messages          => [.ts, .body, .rawPdu]
  | .commandOperations => [.id, .frame]
  | _                  => []

/-- The statements of a callback.  It deletes nothing, creates no operation and has no business in
    the outbox. -/
def Business : Statement Table Column Cell → Prop
  | .insert t _         => t ≠ .notifyOutbox ∧ t ≠ .commandOperations
  | .upsert t _ _ _     => t ≠ .notifyOutbox ∧ frozen t = []
  | .update t _ set     => t ≠ .notifyOutbox ∧ ∀ r, ∀ a ∈ set r, a.1 ∉ frozen t
  | .insertOrIgnore _ _ => False
  | .delete _ _         => False

/-- The program executes the statements of a callback. -/
abbrev Writes {α : Type} (m : Hub α) : Prop := Issues SCHEMA Business m

/-- The program leaves the intents alone. -/
abbrev Spares {α : Type} (m : Hub α) : Prop := Leaves Table.notifyOutbox m

theorem Writes.spares {α : Type} {m : Hub α} (h : Writes m) : Spares m := by
  refine Issues.leaves h (fun q hq => ?_) rfl
  cases q with
  | insert t as => exact hq.1.symm
  | upsert t key as set => exact hq.1.symm
  | update t p set => exact hq.1.symm
  | insertOrIgnore t as => exact hq.elim
  | delete t p => exact hq.elim

theorem issues_sql {α : Type} {P : Statement Table Column Cell → Prop}
    {m : Sql Table Column Cell α} (h : Issues SCHEMA P m) : Issues SCHEMA P (sql m) := by
  intro db a db' hs
  unfold sql at hs
  cases hr : m db with
  | error v => rw [hr] at hs; cases hs
  | ok x =>
    rw [hr] at hs
    cases hs
    exact h db _ _ hr

theorem writes_query (t : Table) (p : HubRow → Bool) : Writes (query t p) :=
  .get fun _ => .pure _

theorem writes_one (t : Table) (p : HubRow → Bool) : Writes (one t p) :=
  .get fun _ => .pure _

theorem writes_insert {t : Table} {as : Assignments Column Cell} (h : t ≠ .notifyOutbox)
    (h' : t ≠ .commandOperations) : Writes (sql (SCHEMA.insert t as)) :=
  issues_sql (.insert ⟨h, h'⟩)

/-- An update of a table whose columns may all change. -/
theorem writes_any {t : Table} {p : HubRow → Bool} {set : HubRow → Assignments Column Cell}
    (h : t ≠ .notifyOutbox) (ht : frozen t = []) : Writes (sql (SCHEMA.update t p set)) :=
  issues_sql (.update ⟨h, fun _ _ _ => by rw [ht]; exact List.not_mem_nil⟩)

/-- An update of these columns. -/
theorem writes_columns {t : Table} {p : HubRow → Bool} {set : HubRow → Assignments Column Cell}
    (h : t ≠ .notifyOutbox) (columns : List Column) (hset : ∀ r, (set r).map Prod.fst = columns)
    (hfree : ∀ c ∈ columns, c ∉ frozen t) : Writes (sql (SCHEMA.update t p set)) := by
  refine issues_sql (.update ⟨h, fun r a ha => hfree a.1 ?_⟩)
  rw [← hset r]
  exact List.mem_map_of_mem ha

theorem writes_upsert {t : Table} {key : List Column} {as : Assignments Column Cell}
    {set : HubRow → Assignments Column Cell} (h : t ≠ .notifyOutbox) (ht : frozen t = []) :
    Writes (sql (SCHEMA.upsert t key as set)) := issues_sql (.upsert ⟨h, ht⟩)

/-! ### Conversions -/

theorem writes_convert {α : Type} (x : Except Failure α) : Writes (convert x) := by
  intro db a db' h
  cases x with
  | error e => cases h
  | ok a => cases h; exact .refl

theorem writes_bind (v : Value) : Writes (bind v) := by
  cases v with
  | arr xs => exact .throw _
  | obj fs => exact .throw _
  | _ => exact .pure _

theorem writes_optionalInt (v : Value) : Writes (optionalInt v) := by
  unfold optionalInt
  split
  · exact .pure _
  · split
    · exact .pure _
    · exact .throw _
    · exact .pure _

theorem writes_floatOrZero (v : Value) : Writes (floatOrZero v) := by
  unfold floatOrZero
  split
  · exact .pure _
  · split
    · exact .pure _
    · exact .throw _
  · exact .pure _
  · exact .pure _
  · exact .pure _

theorem writes_toUtcIso (v : Value) : Writes (toUtcIso E v) := by
  unfold toUtcIso
  refine .ite ?_ (.pure _)
  split
  · split
    · exact .pure _
    · exact .pure _
  · exact .throw _

theorem writes_optionalIso (v : Value) : Writes (optionalIso E v) :=
  .ite (.bind (writes_toUtcIso v) fun _ => .pure _) (.pure _)

theorem writes_bindAll (xs : List (Column × Value)) : Writes (bindAll xs) := by
  induction xs with
  | nil => exact .pure _
  | cons x xs ih => exact .bind (writes_bind x.2) fun _ => .bind ih fun _ => .pure _

theorem writes_collectReferences (xs : List Value) : Writes (collectReferences xs) := by
  induction xs with
  | nil => exact .pure _
  | cons x xs ih => exact .bind (writes_optionalInt x) fun _ => .bind ih fun _ => .pure _

/-! ### Incidents, cards and modules -/

theorem writes_openIncident (fingerprint kind severity source title detail : String) :
    Writes (openIncident E fingerprint kind severity source title detail) :=
  writes_upsert nofun rfl

theorem writes_resolveIncident (fingerprint detail : String) :
    Writes (resolveIncident E fingerprint detail) := writes_any nofun rfl

theorem writes_learn (card : Option Cell) (column : Column) (v : Value) (cell : Option Cell) :
    Writes (learn card column v cell) := .ite (writes_any nofun rfl) (.pure _)

theorem writes_upsertSim (iccid operator smsc : Value) :
    Writes (upsertSim E iccid operator smsc) := by
  refine .ite ?_ (.pure _)
  refine .bind (writes_bind _) fun card => ?_
  refine .bind (writes_bind _) fun op => ?_
  refine .bind (writes_bind _) fun centre => ?_
  refine .bind (writes_upsert nofun rfl) fun _ => ?_
  refine .bind (writes_learn _ _ _ _) fun _ => ?_
  refine .bind (writes_learn _ _ _ _) fun _ => ?_
  exact .bind (writes_one _ _) fun _ => .pure _

theorem writes_simColumn (payload : Frame) : Writes (simColumn E payload) :=
  .ite (.bind (writes_upsertSim _ _ _) fun _ => .pure _) (.pure _)

theorem writes_upsertDevice (payload : Frame) : Writes (upsertDevice E agentId payload) := by
  refine .bind (writes_simColumn _) fun sim => ?_
  refine .bind (writes_bind _) fun name => ?_
  refine .bind (writes_bindAll _) fun cells => ?_
  refine .bind (writes_upsert nofun rfl) fun _ => ?_
  refine .bind (writes_one _ _) fun row => ?_
  cases row with
  | some r => exact .pure _
  | none => exact .throw _

theorem writes_recordStatus (deviceId : Nat) (payload : Frame) :
    Writes (recordStatus E deviceId payload) := by
  refine .bind (writes_toUtcIso _) fun ts => ?_
  refine .bind (writes_bind _) fun rssi => ?_
  refine .bind (writes_bind _) fun dbm => ?_
  refine .bind (writes_bind _) fun bars => ?_
  refine .bind (writes_bind _) fun rsrp => ?_
  refine .bind (writes_bind _) fun rsrq => ?_
  refine .bind (writes_bind _) fun used => ?_
  refine .bind (writes_bind _) fun capacity => ?_
  refine .bind (writes_bind _) fun voltage => ?_
  exact .bind (writes_insert nofun nofun) fun _ => .pure _

/-! ### Messages, calls and delivery reports -/

theorem writes_insertMessage (m : NewMessage) : Writes (insertMessage E m) := by
  refine .bind (writes_upsertSim _ _ _) fun sim => ?_
  refine .bind (writes_toUtcIso _) fun ts => ?_
  refine .bind (writes_bind _) fun device => ?_
  refine .bind (writes_bind _) fun peer => ?_
  refine .bind (writes_bind _) fun body => ?_
  refine .bind (writes_bind _) fun seq => ?_
  refine .bind (writes_bind _) fun error => ?_
  refine .bind (writes_bind _) fun pdu => ?_
  refine .bind (writes_bind _) fun recovered => ?_
  exact .bind (writes_bind _) fun code => writes_insert nofun nofun

theorem writes_insertCall (c : NewCall) : Writes (insertCall E c) :=
  .bind (writes_upsertSim _ _ _) fun _ => .bind (writes_toUtcIso _) fun _ => writes_insert nofun nofun

theorem writes_updateMessageDeliveryStatus (i : Nat) : Writes (updateMessageDeliveryStatus i) := by
  refine .bind (writes_one _ _) fun message => ?_
  refine .bind (.bind (writes_query _ _) fun _ => .pure _) fun rows => ?_
  cases message with
  | none => exact .pure _
  | some m => exact .ite (.pure _) (writes_columns nofun [.status, .error] (fun _ => rfl) (by decide))

theorem writes_attachSegment (i : Nat) (device recipient submitted : String) (k : Nat)
    (reference : Int) :
    Writes (attachSegment E i agentId device recipient submitted k reference) := by
  refine .bind (writes_query _ _) fun waiting => ?_
  split
  · exact writes_any nofun rfl
  · exact .bind (writes_insert nofun nofun) fun _ => .pure _

theorem writes_attachSmsSegments (i : Nat) (device recipient : String) (references : List Int)
    (submittedAt : String) :
    Writes (attachSmsSegments E i agentId device recipient references submittedAt) := by
  refine .bind (writes_toUtcIso _) fun submitted => ?_
  refine .bind (.forM (fun x => writes_attachSegment _ _ _ _ _ _) _) fun _ => ?_
  exact writes_updateMessageDeliveryStatus i

theorem writes_fillSegment (row : HubRow) (r : Report) (times : ReportTimes) (state : DeliveryState)
    (more : Assignments Column Cell) : Writes (fillSegment row r times state more) :=
  .ite (.bind (writes_bind _) fun _ => writes_any nofun rfl) (.pure _)

theorem writes_recordMatched (row : HubRow) (r : Report) (times : ReportTimes)
    (state : DeliveryState) : Writes (recordMatched row r times state) := by
  refine .bind (writes_fillSegment _ _ _ _ _) fun _ => ?_
  split
  · exact writes_updateMessageDeliveryStatus _
  · exact .throw _

theorem writes_recordUnmatched (r : Report) (times : ReportTimes) (state : DeliveryState) :
    Writes (recordUnmatched E r times state) := by
  refine .bind (writes_query _ _) fun unmatched => ?_
  split
  · exact writes_fillSegment _ _ _ _ _
  · exact .bind (writes_bind _) fun _ => .bind (writes_insert nofun nofun) fun _ => .pure _

theorem writes_recordSmsDelivery (r : Report) : Writes (recordSmsDelivery E r) := by
  refine .bind (writes_optionalIso _) fun serviceTs => ?_
  refine .bind (writes_optionalIso _) fun discharge => ?_
  refine .bind (writes_toUtcIso _) fun reported => ?_
  refine .bind (writes_query _ _) fun found => ?_
  dsimp only
  split
  · exact writes_recordMatched _ _ _ _
  · exact writes_recordUnmatched _ _ _

/-! ### The callbacks -/

theorem writes_applySmsIn : Writes (applySmsIn E agentId frame) := by
  refine .bind (writes_convert _) fun segments => ?_
  refine .bind (writes_optionalInt _) fun dcs => ?_
  exact .bind (writes_convert _) fun isData => writes_insertMessage _

theorem writes_noteSend (status : String) : Writes (noteSend E agentId frame status) :=
  .ite (writes_openIncident _ _ _ _ _ _) (.ite (writes_resolveIncident _ _) (.pure _))

theorem writes_applySmsOut : Writes (applySmsOut E agentId frame) := by
  refine .bind (writes_convert _) fun raw => ?_
  refine .bind (writes_collectReferences _) fun references => ?_
  refine .bind (writes_insertMessage _) fun i => ?_
  refine .bind (.ite (.pure _) (writes_attachSmsSegments _ _ _ _ _)) fun _ => ?_
  exact writes_noteSend _

theorem writes_applySmsDelivery : Writes (applySmsDelivery E agentId frame) := by
  refine .bind (writes_optionalInt _) fun reference => ?_
  cases reference with
  | none => exact .pure _
  | some n =>
    refine .ite ?_ (.pure _)
    refine .bind (writes_optionalInt _) fun code => ?_
    exact .bind (writes_optionalInt _) fun seq => writes_recordSmsDelivery _

theorem writes_applySupplyVoltage : Writes (applySupplyVoltage E agentId frame) := by
  refine .bind (writes_optionalInt _) fun voltage => ?_
  refine .bind (writes_optionalInt _) fun threshold => ?_
  split
  · refine .ite (.pure _) (.ite (writes_resolveIncident _ _) ?_)
    exact .ite (writes_resolveIncident _ _) (writes_openIncident _ _ _ _ _ _)
  · exact .pure _

theorem writes_noteRegistration : Writes (noteRegistration E agentId frame) := by
  refine .ite (.ite ?_ (.ite (writes_resolveIncident _ _) ?_)) (.pure _)
  · exact .bind (writes_resolveIncident _ _) fun _ => writes_resolveIncident _ _
  · exact .ite (writes_openIncident _ _ _ _ _ _) (writes_resolveIncident _ _)

theorem writes_applyStatus : Writes (applyStatus E agentId frame) := by
  refine .bind (writes_upsertDevice _) fun i => ?_
  refine .bind (writes_recordStatus _ _) fun _ => ?_
  refine .bind writes_noteRegistration fun _ => ?_
  exact .bind writes_applySupplyVoltage fun _ => .pure _

theorem writes_applyCallEvent : Writes (applyCallEvent E agentId frame) := by
  refine .bind (writes_floatOrZero _) fun ring => ?_
  exact .bind (writes_optionalInt _) fun seq => writes_insertCall _

theorem writes_applyDeviceRecovery : Writes (applyDeviceRecovery E agentId frame) := by
  refine .ite (.pure _) (.ite (writes_resolveIncident _ _) (.ite (.pure _) ?_))
  exact .bind (writes_optionalInt _) fun attempt => writes_openIncident _ _ _ _ _ _

theorem writes_applyLog : Writes (applyLog E agentId frame) := by
  refine .bind (writes_bind _) fun device => ?_
  refine .bind (writes_bind _) fun level => ?_
  refine .bind (writes_bind _) fun message => ?_
  refine .bind (writes_bind _) fun ts => ?_
  refine .bind (writes_insert nofun nofun) fun _ => ?_
  exact .ite writes_applyDeviceRecovery (.pure _)

theorem writes_noteRunTimes (taskId : Option Cell) : Writes (noteRunTimes E frame taskId) := by
  refine .ite ?_ (.ite ?_ (.pure _))
  · exact .bind (writes_bind _) fun _ => .bind (writes_bind _) fun _ => writes_any nofun rfl
  · exact .bind (writes_bind _) fun _ => writes_any nofun rfl

theorem writes_insertTaskLog : Writes (insertTaskLog E frame) := by
  refine .bind (writes_convert _) fun attempts => ?_
  refine .bind (writes_bind _) fun taskId => ?_
  refine .bind (writes_bind _) fun runId => ?_
  refine .bind (writes_bind _) fun ts => ?_
  refine .bind (writes_bind _) fun status => ?_
  refine .bind (writes_bind _) fun detail => ?_
  exact .bind (writes_bind _) fun error => writes_insert nofun nofun

theorem writes_noteTaskResult : Writes (noteTaskResult E frame) := by
  refine .bind (writes_bind _) fun taskId => ?_
  refine .bind (writes_one _ _) fun task => ?_
  refine .bind (.ite (writes_openIncident _ _ _ _ _ _) (.ite (writes_resolveIncident _ _) (.pure _)))
    fun _ => ?_
  refine .bind (writes_noteRunTimes _) fun _ => ?_
  exact .bind (writes_convert _) fun _ => .pure _

theorem writes_applyTaskResult : Writes (applyTaskResult E frame) :=
  .bind writes_insertTaskLog fun _ => .ite (.pure _) writes_noteTaskResult

theorem writes_applyOperationResult :
    Writes (applyOperationResult E agentId streamId frame) := by
  refine .ite ?_ (.pure _)
  refine .bind (writes_bind _) fun status => ?_
  refine .bind (writes_bind _) fun error => ?_
  refine .bind (writes_bind _) fun cmdId => ?_
  refine .bind (writes_bind _) fun device => ?_
  refine .bind (writes_bind _) fun token => ?_
  exact .get fun db =>
    writes_columns nofun [.status, .result, .error, .updatedAt] (fun _ => rfl) (by decide)

theorem writes_applyTasksApplied : Writes (applyTasksApplied E agentId frame) := by
  unfold applyTasksApplied
  split
  · exact .ite (.pure _) (writes_any nofun rfl)
  · exact .pure _

/-! ## What an event owes -/

/-- The kind of the intent an event owes, when it owes one: an inbound SMS a message, a call event
    a call, and the result of a task that is named a receipt. -/
def intentKind (kind : String) (frame : Frame) : Option String :=
  if kind = "sms_in" then some "message"
  else if kind = "call_event" then some "call"
  else if kind = "task_result" ∧ frame.get "task_id" ≠ .null then some "task_result"
  else none

/-- The row an applied event has for an intent of a kind: `messages.id`, `calls.id` or
    `tasks.id`. -/
def AppliedEvent.refId (a : AppliedEvent) : String → Option Int
  | "message"     => a.messageId.map Int.ofNat
  | "task_result" => a.taskId
  | "call"        => a.callId.map Int.ofNat
  | _             => none

/-- The kinds of intents. -/
def INTENT_KINDS : List String := ["message", "task_result", "call"]

/-- An applied event has a row for the kind it owes, and for no other. -/
def Owes (a : AppliedEvent) : Option String → Prop
  | none   => ∀ k ∈ INTENT_KINDS, a.refId k = none
  | some k => k ∈ INTENT_KINDS ∧ (∃ i, a.refId k = some i) ∧
      ∀ k' ∈ INTENT_KINDS, k' ≠ k → a.refId k' = none

/-- The program leaves the intents alone and its result owes an intent of this kind. -/
def Applies (kind : Option String) (key : Option String) (m : Hub AppliedEvent) : Prop :=
  ∀ db a db', m db = .ok (a, db') →
    SameTable .notifyOutbox db db' ∧ a.eventKey = key ∧ Owes a kind

/-- A callback whose value goes into the result. -/
theorem Applies.of_spares {α : Type} {m : Hub α} (hm : Spares m) {f : α → AppliedEvent}
    {kind key : Option String}
    (hf : ∀ db x db', m db = .ok (x, db') → (f x).eventKey = key ∧ Owes (f x) kind) :
    Applies kind key (m >>= fun x => pure (f x)) := by
  intro db a db' h
  obtain ⟨x, db₁, hx, hp⟩ := of_bind_ok h
  cases hp
  exact ⟨hm _ _ _ hx, hf _ _ _ hx⟩

theorem owes_none (key : Option String) : Owes { eventKey := key } none := by
  simp [Owes, INTENT_KINDS, AppliedEvent.refId]

/-- The result of a task has the task's number exactly when it names one. -/
theorem applyTaskResult_none_iff {db db' : HubDb} {x : Option Int}
    (h : applyTaskResult E frame db = .ok (x, db')) : x = none ↔ frame.get "task_id" = .null := by
  obtain ⟨-, db₁, -, h⟩ := of_bind_ok h
  by_cases hn : frame.get "task_id" = .null
  · rw [if_pos hn] at h
    cases h
    exact iff_of_true rfl hn
  · rw [if_neg hn] at h
    obtain ⟨taskId, db₂, -, h⟩ := of_bind_ok h
    obtain ⟨task, db₃, -, h⟩ := of_bind_ok h
    obtain ⟨-, db₄, -, h⟩ := of_bind_ok h
    obtain ⟨-, db₅, -, h⟩ := of_bind_ok h
    obtain ⟨id, db₆, -, h⟩ := of_bind_ok h
    cases h
    exact iff_of_false nofun hn

/-- **A callback writes no intent, and owes the one its kind says.** -/
theorem applies_dispatch (kind : String) (key : Option String) :
    Applies (intentKind kind frame) key
      (dispatch E agentId kind frame { eventKey := key } streamId) := by
  unfold dispatch
  split
  · refine .of_spares writes_applySmsIn.spares fun _ i _ _ => ⟨rfl, ?_⟩
    simp [intentKind, Owes, INTENT_KINDS, AppliedEvent.refId]
  · exact .of_spares writes_applySmsOut.spares fun _ _ _ _ => ⟨rfl, by simp [intentKind, owes_none]⟩
  · exact .of_spares writes_applySmsDelivery.spares fun _ _ _ _ => ⟨rfl, by simp [intentKind, owes_none]⟩
  · refine .of_spares writes_applyStatus.spares fun _ _ _ _ => ⟨rfl, ?_⟩
    simp [intentKind, Owes, INTENT_KINDS, AppliedEvent.refId]
  · refine .of_spares writes_applyCallEvent.spares fun _ i _ _ => ⟨rfl, ?_⟩
    simp [intentKind, Owes, INTENT_KINDS, AppliedEvent.refId]
  · exact .of_spares writes_applyLog.spares fun _ _ _ _ => ⟨rfl, by simp [intentKind, owes_none]⟩
  · refine .of_spares writes_applyTaskResult.spares fun db x db' hx => ⟨rfl, ?_⟩
    have hnone := applyTaskResult_none_iff hx
    cases x with
    | none => simp [intentKind, hnone.mp rfl, Owes, INTENT_KINDS, AppliedEvent.refId]
    | some i =>
      have hid : frame.get "task_id" ≠ .null := fun hn => absurd (hnone.mpr hn) nofun
      simp [intentKind, hid, Owes, INTENT_KINDS, AppliedEvent.refId]
  · refine .of_spares writes_applyOperationResult.spares fun _ _ _ _ => ⟨rfl, ?_⟩
    simp [intentKind, Owes, INTENT_KINDS, AppliedEvent.refId]
  · exact .of_spares writes_applyTasksApplied.spares fun _ _ _ _ => ⟨rfl, by simp [intentKind, owes_none]⟩
  · rename_i h₁ h₂ h₃ h₄ h₅ h₆ h₇ h₈ h₉
    have hkind : intentKind kind frame = none := by
      simp only [intentKind, if_neg h₁, if_neg h₅]
      exact if_neg fun h => h₇ h.1
    rw [hkind]
    intro db a db' h
    cases h
    exact ⟨.refl _ db, rfl, owes_none key⟩

/-! ## The rows of the table -/

/-- The cells of a new intent. -/
def intentCells (E : Env) (kind : String) (refId : Int) (frame : Frame) (key : Option String) :
    Column → Option Cell :=
  assign [(.kind, text kind), (.refId, integer refId), (.eventKey, key.map .text),
    (.frame, text (Value.plain (.obj frame))), (.title, text ""), (.body, text ""),
    (.status, text "pending"), (.createdAt, text E.utcnow)] (SCHEMA.defaults .notifyOutbox)

/-- An intent has this key; no intent has the key None. -/
def Queued (db : HubDb) (key : Option String) : Prop :=
  ∃ r ∈ db.rows .notifyOutbox, equals (r.cells .eventKey) (key.map .text) = true

variable {db db' : HubDb} {kind : String} {key : Option String} {i : Int}

theorem queued_some {key : String} :
    Queued db (some key) ↔ ∃ r ∈ db.rows .notifyOutbox, r.cells .eventKey = text key := by
  refine exists_congr fun r => and_congr_right fun _ => ?_
  simp only [equals, Bool.and_eq_true, beq_iff_eq, Option.map_some, text]
  refine ⟨fun h => h.2, fun h => ⟨?_, h⟩⟩
  rw [h]
  rfl

theorem sameKey_intentCells (r : HubRow) :
    sameKey [.eventKey] r.cells (intentCells E kind i frame key) =
      equals (r.cells .eventKey) (key.map .text) := by
  have hkey : intentCells E kind i frame key .eventKey = key.map .text := rfl
  simp only [sameKey, List.all_cons, List.all_nil, Bool.and_true, hkey, equals]

theorem intentCells_rowOk : RowOk SCHEMA .notifyOutbox (intentCells E kind i frame key) :=
  rowOk_of_all rfl rfl

/-- An intent whose key is there is not added again. -/
theorem enqueueNotification_known (h : Queued db key) :
    enqueueNotification E kind i frame key db = .ok (false, db) := by
  obtain ⟨r, hr, hk⟩ := h
  have hany : ((db.rows .notifyOutbox).any fun r =>
      sameKey [.eventKey] r.cells (intentCells E kind i frame key)) = true :=
    List.any_eq_true.mpr ⟨r, hr, by rw [sameKey_intentCells]; exact hk⟩
  have huniq : SCHEMA.uniqueViolation .notifyOutbox (db.rows .notifyOutbox)
      (intentCells E kind i frame key) = some (.unique .notifyOutbox [.eventKey]) := by
    show ([[Column.eventKey]].find? fun columns => (db.rows .notifyOutbox).any fun r =>
      sameKey columns r.cells (intentCells E kind i frame key)).map _ = _
    simp only [List.find?_cons, hany, Option.map_some]
  have hviol : SCHEMA.violation db .notifyOutbox (db.rows .notifyOutbox)
      (intentCells E kind i frame key) = some (.unique .notifyOutbox [.eventKey]) := by
    rw [Schema.violation, rowViolation_eq_none.mpr intentCells_rowOk, huniq]
    rfl
  have hins : SCHEMA.insertCells .notifyOutbox (intentCells E kind i frame key) db =
      .error (.unique .notifyOutbox [.eventKey]) := by
    rw [Schema.insertCells, hviol]
  show Except.mapError _ (SCHEMA.insertOrIgnore .notifyOutbox _ db) = _
  rw [Schema.insertOrIgnore, Schema.insert]
  erw [hins]
  rfl

/-- An intent whose key is new is added. -/
theorem enqueueNotification_new (h : ¬ Queued db key) :
    enqueueNotification E kind i frame key db =
      .ok (true, db.append .notifyOutbox (intentCells E kind i frame key)) := by
  have hfits : Fits SCHEMA db .notifyOutbox (db.rows .notifyOutbox)
      (intentCells E kind i frame key) := by
    refine { intentCells_rowOk with unique := fun columns hc r hr => ?_, refers := refers_of_nil rfl }
    obtain rfl : columns = [.eventKey] := List.mem_singleton.mp hc
    rw [sameKey_intentCells, Bool.eq_false_iff]
    exact fun hs => h ⟨r, hr, hs⟩
  have hins := insertCells_ok hfits
  show Except.mapError _ (SCHEMA.insertOrIgnore .notifyOutbox _ db) = _
  rw [Schema.insertOrIgnore, Schema.insert]
  erw [hins]
  rfl

theorem queueNotification_none {a : AppliedEvent} (h : Owes a none) :
    queueNotification E a frame = pure () := by
  have hm : a.messageId.map Int.ofNat = none := h "message" (by decide)
  have ht : a.taskId = none := h "task_result" (by decide)
  have hc : a.callId.map Int.ofNat = none := h "call" (by decide)
  rw [queueNotification, hm, ht, hc]
  rfl

theorem queueNotification_some {a : AppliedEvent} {k : String} (h : Owes a (some k))
    (hi : a.refId k = some i) :
    queueNotification E a frame = queueOne E a frame k (some i) := by
  obtain ⟨hk, -, hothers⟩ := h
  have hrefs : queueNotification E a frame = (do
      queueOne E a frame "message" (a.refId "message")
      queueOne E a frame "task_result" (a.refId "task_result")
      queueOne E a frame "call" (a.refId "call")) := rfl
  have hnone : ∀ k, queueOne E a frame k none = pure () := fun _ => rfl
  simp only [INTENT_KINDS, List.mem_cons, List.not_mem_nil, or_false] at hk
  rw [hrefs]
  rcases hk with rfl | rfl | rfl
  · rw [hothers "task_result" (by decide) (by decide), hothers "call" (by decide) (by decide), hi]
    simp only [hnone, pure_bind, bind_pure_unit]
  · rw [hothers "message" (by decide) (by decide), hothers "call" (by decide) (by decide), hi]
    simp only [hnone, pure_bind, bind_pure_unit]
  · rw [hothers "message" (by decide) (by decide),
      hothers "task_result" (by decide) (by decide), hi]
    simp only [hnone, pure_bind]

/-- The intents with one more row. -/
structure Added (db db' : HubDb) (cells : Column → Option Cell) : Prop where
  rows : db'.rows .notifyOutbox = db.rows .notifyOutbox ++ [⟨db.seq .notifyOutbox + 1, cells⟩]
  seq  : db'.seq .notifyOutbox = db.seq .notifyOutbox + 1

theorem added_append (db : HubDb) (cells : Column → Option Cell) :
    Added db (db.append .notifyOutbox cells) cells :=
  ⟨rows_append_self, rfl⟩

/-- **What a transaction does to the intents**: it adds the one its event owes, unless its key is
    there, and nothing else. -/
theorem apply_owed {a : AppliedEvent} {key : String} (hkey : key ≠ "")
    (h : apply E agentId kind frame key streamId db = .ok (a, db')) :
    a.eventKey = some key ∧ Owes a (intentKind kind frame) ∧
    ((intentKind kind frame = none ∧ SameTable .notifyOutbox db db') ∨
    (∃ k i, intentKind kind frame = some k ∧ k ∈ INTENT_KINDS ∧ a.refId k = some i ∧
      ((Queued db (some (key ++ "|" ++ k)) ∧ SameTable .notifyOutbox db db') ∨
        (¬ Queued db (some (key ++ "|" ++ k)) ∧
          Added db db' (intentCells E k i frame (some (key ++ "|" ++ k))))))) := by
  obtain ⟨a', db₁, hd, h⟩ := of_bind_ok h
  rw [if_neg hkey] at hd
  obtain ⟨hsame, hek, howes⟩ := applies_dispatch kind (some key) db a' db₁ hd
  obtain ⟨u, db₂, hq, h⟩ := of_bind_ok h
  cases h
  refine ⟨hek, howes, ?_⟩
  cases hk : intentKind kind frame with
  | none =>
    rw [hk] at howes
    rw [queueNotification_none howes] at hq
    cases hq
    exact .inl ⟨rfl, hsame⟩
  | some k =>
    rw [hk] at howes
    obtain ⟨i, hi⟩ := howes.2.1
    have hkind := howes.1
    rw [queueNotification_some howes hi] at hq
    obtain ⟨x, db₃, he, hq⟩ := of_bind_ok hq
    cases hq
    have hnk : a.notifyKey k = some (key ++ "|" ++ k) := by rw [AppliedEvent.notifyKey, hek]; rfl
    rw [hnk] at he
    have hqueued : Queued db₁ (some (key ++ "|" ++ k)) ↔ Queued db (some (key ++ "|" ++ k)) := by
      rw [Queued, Queued, hsame.rows]
    refine .inr ⟨k, i, rfl, hkind, hi, ?_⟩
    by_cases hknown : Queued db₁ (some (key ++ "|" ++ k))
    · rw [enqueueNotification_known hknown] at he
      cases he
      exact .inl ⟨hqueued.mp hknown, hsame⟩
    · rw [enqueueNotification_new hknown] at he
      cases he
      have hadd := added_append db₁ (intentCells E k i frame (some (key ++ "|" ++ k)))
      exact .inr ⟨fun h => hknown (hqueued.mpr h), by rw [hadd.rows, hsame.rows, hsame.seq],
        by rw [hadd.seq, hsame.seq]⟩

end Air780eHub.Server
