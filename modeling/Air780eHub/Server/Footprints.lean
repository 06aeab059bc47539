/-
  Which tables an operation of ingesting an event writes.

  `Touches ts m` : every statement `m` executes writes a table in `ts`, and none deletes.  A table
  that is not among them is as it was.

  1. **`Touches`** and what it leaves alone.
  2. **Conversions and cards.**
  3. **Modules, messages, calls, delivery reports and incidents.**
  4. **The callbacks**, and **`touches_apply`**: only a status writes the modules.
-/
import Air780eHub.Server.Owed

namespace Air780eHub.Server

open Relational

variable {E : Env} {frame : Frame} {agentId streamId : String}

/-! ## Footprints -/

theorem text_inj {s s' : String} : text s = text s' ↔ s = s' := by
  unfold text
  rw [Option.some.injEq, Cell.text.injEq]

/-- A statement that returned was carried out. -/
theorem of_sql_ok {α : Type} {m : Sql Table Column Cell α} {db db' : HubDb} {a : α} (h : sql m db = .ok (a, db')) :
    m db = .ok (a, db') := by
  unfold sql at h
  cases hm : m db with
  | error v => rw [hm] at h; cases h
  | ok x => rw [hm] at h; cases h; rfl

/-- The statement writes one of these tables and deletes nothing. -/
def Writing (ts : List Table) : Statement Table Column Cell → Prop
  | .delete _ _ => False
  | q           => q.table ∈ ts

/-- The program executes such statements only. -/
abbrev Touches {α : Type} (ts : List Table) (m : Hub α) : Prop := Issues SCHEMA (Writing ts) m

namespace Touches

variable {α : Type} {ts ts' : List Table} {m : Hub α} {t : Table}

theorem mono (h : Touches ts m) (hts : ts ⊆ ts') : Touches ts' m := by
  refine Issues.mono h fun q hq => ?_
  cases q with
  | delete t p => exact hq.elim
  | _ => exact hts hq

/-- A table that is not among them. -/
theorem leaves (h : Touches ts m) (ht : t ∉ ts) : Leaves t m := by
  intro db a db' hm
  refine Machine.Path.relation (R := SameTable t) (.refl t) (fun _ _ _ => .trans) ?_ (h db a db' hm)
  intro db q db' hq hs
  obtain rfl := Option.some.inj hs
  have hne : ∀ t', t' ∈ ts → t ≠ t' := fun t' hmem he => ht (he ▸ hmem)
  cases q with
  | delete t' p => exact hq.elim
  | insert t' as => exact outcome_leaves (leaves_insert (hne t' hq)) db
  | insertOrIgnore t' as => exact outcome_leaves (leaves_insertOrIgnore (hne t' hq)) db
  | upsert t' key as set => exact outcome_leaves (leaves_upsert (hne t' hq)) db
  | update t' p set => exact outcome_leaves (leaves_update (hne t' hq)) db

/-- A program that writes no table leaves the database as it was. -/
theorem unchanged (h : Touches [] m) {db db' : HubDb} {a : α} (hr : m db = .ok (a, db')) :
    db' = db := by
  have hsame : ∀ t, SameTable t db db' := fun t => h.leaves List.not_mem_nil db a db' hr
  cases db with
  | mk rows seq =>
    cases db' with
    | mk rows' seq' =>
      congr 1
      · funext t
        exact (hsame t).rows
      · funext t
        exact (hsame t).seq

end Touches

section

variable {α : Type} {ts : List Table}

theorem touches_insert {t : Table} {as : Assignments Column Cell} (h : t ∈ ts) :
    Touches ts (sql (SCHEMA.insert t as)) :=
  issues_sql (.insert h)

theorem touches_update {t : Table} {p : HubRow → Bool} {set : HubRow → Assignments Column Cell}
    (h : t ∈ ts) : Touches ts (sql (SCHEMA.update t p set)) :=
  issues_sql (.update h)

theorem touches_upsert {t : Table} {key : List Column} {as : Assignments Column Cell}
    {set : HubRow → Assignments Column Cell} (h : t ∈ ts) :
    Touches ts (sql (SCHEMA.upsert t key as set)) :=
  issues_sql (.upsert h)

theorem touches_query (t : Table) (p : HubRow → Bool) : Touches ts (query t p) := .get fun _ => .pure _

theorem touches_one (t : Table) (p : HubRow → Bool) : Touches ts (one t p) := .get fun _ => .pure _

/-! ## Conversions and cards -/

theorem touches_convert (x : Except Failure α) : Touches ts (convert x) := by
  intro db a db' h
  cases x with
  | error e => cases h
  | ok a => cases h; exact .refl

theorem touches_bind (v : Value) : Touches ts (bind v) := by
  cases v with
  | arr xs => exact .throw _
  | obj fs => exact .throw _
  | _ => exact .pure _

theorem touches_optionalInt (v : Value) : Touches ts (optionalInt v) := by
  unfold optionalInt
  split
  · exact .pure _
  · split
    · exact .pure _
    · exact .throw _
    · exact .pure _

theorem touches_floatOrZero (v : Value) : Touches ts (floatOrZero v) := by
  unfold floatOrZero
  split
  · exact .pure _
  · split
    · exact .pure _
    · exact .throw _
  · exact .pure _
  · exact .pure _
  · exact .pure _

theorem touches_toUtcIso (v : Value) : Touches ts (toUtcIso E v) := by
  unfold toUtcIso
  refine .ite ?_ (.pure _)
  split
  · split
    · exact .pure _
    · exact .pure _
  · exact .throw _

theorem touches_optionalIso (v : Value) : Touches ts (optionalIso E v) :=
  .ite (.bind (touches_toUtcIso v) fun _ => .pure _) (.pure _)

theorem touches_bindAll (xs : List (Column × Value)) : Touches ts (bindAll xs) := by
  induction xs with
  | nil => exact .pure _
  | cons x xs ih => exact .bind (touches_bind x.2) fun _ => .bind ih fun _ => .pure _

theorem touches_collectReferences (xs : List Value) : Touches ts (collectReferences xs) := by
  induction xs with
  | nil => exact .pure _
  | cons x xs ih => exact .bind (touches_optionalInt x) fun _ => .bind ih fun _ => .pure _

theorem touches_learn (card : Option Cell) (column : Column) (v : Value) (cell : Option Cell) :
    Touches [.sims] (learn card column v cell) :=
  .ite (touches_update (List.mem_singleton_self _)) (.pure _)

theorem touches_upsertSim (iccid operator smsc : Value) :
    Touches [.sims] (upsertSim E iccid operator smsc) := by
  refine .ite ?_ (.pure _)
  refine .bind (touches_bind _) fun card => ?_
  refine .bind (touches_bind _) fun op => ?_
  refine .bind (touches_bind _) fun centre => ?_
  refine .bind (touches_upsert (List.mem_singleton_self _)) fun _ => ?_
  refine .bind (touches_learn _ _ _ _) fun _ => ?_
  refine .bind (touches_learn _ _ _ _) fun _ => ?_
  exact .bind (touches_one _ _) fun _ => .pure _

theorem touches_simColumn (payload : Frame) : Touches [.sims] (simColumn E payload) :=
  .ite (.bind (touches_upsertSim _ _ _) fun _ => .pure _) (.pure _)

end

/-! ## Modules, messages, calls and delivery reports -/

theorem touches_upsertDevice (payload : Frame) :
    Touches [.sims, .devices] (upsertDevice E agentId payload) := by
  refine .bind ((touches_simColumn _).mono (by decide)) fun sim => ?_
  refine .bind (touches_bind _) fun name => ?_
  refine .bind (touches_bindAll _) fun cells => ?_
  refine .bind (touches_upsert (by decide)) fun _ => ?_
  refine .bind (touches_one _ _) fun row => ?_
  cases row with
  | some r => exact .pure _
  | none => exact .throw _

theorem touches_recordStatus (deviceId : Nat) (payload : Frame) :
    Touches [.deviceStatus] (recordStatus E deviceId payload) := by
  refine .bind (touches_toUtcIso _) fun ts => ?_
  refine .bind (touches_bind _) fun rssi => ?_
  refine .bind (touches_bind _) fun dbm => ?_
  refine .bind (touches_bind _) fun bars => ?_
  refine .bind (touches_bind _) fun rsrp => ?_
  refine .bind (touches_bind _) fun rsrq => ?_
  refine .bind (touches_bind _) fun used => ?_
  refine .bind (touches_bind _) fun capacity => ?_
  refine .bind (touches_bind _) fun voltage => ?_
  exact .bind (touches_insert (List.mem_singleton_self _)) fun _ => .pure _

theorem touches_insertMessage (m : NewMessage) : Touches [.sims, .messages] (insertMessage E m) := by
  refine .bind ((touches_upsertSim _ _ _).mono (by decide)) fun sim => ?_
  refine .bind (touches_toUtcIso _) fun ts => ?_
  refine .bind (touches_bind _) fun device => ?_
  refine .bind (touches_bind _) fun peer => ?_
  refine .bind (touches_bind _) fun body => ?_
  refine .bind (touches_bind _) fun seq => ?_
  refine .bind (touches_bind _) fun error => ?_
  refine .bind (touches_bind _) fun pdu => ?_
  refine .bind (touches_bind _) fun recovered => ?_
  exact .bind (touches_bind _) fun code => touches_insert (by decide)

theorem touches_insertCall (c : NewCall) : Touches [.sims, .calls] (insertCall E c) :=
  .bind ((touches_upsertSim _ _ _).mono (by decide)) fun _ => .bind (touches_toUtcIso _) fun _ => touches_insert (by decide)

theorem touches_updateMessageDeliveryStatus (i : Nat) :
    Touches [.messages] (updateMessageDeliveryStatus i) := by
  refine .bind (touches_one _ _) fun message => ?_
  refine .bind (.bind (touches_query _ _) fun _ => .pure _) fun rows => ?_
  cases message with
  | none => exact .pure _
  | some m => exact .ite (.pure _) (touches_update (List.mem_singleton_self _))

theorem touches_attachSegment (i : Nat) (device recipient submitted : String) (k : Nat) (reference : Int) :
    Touches [.smsDeliverySegments]
      (attachSegment E i agentId device recipient submitted k reference) := by
  refine .bind (touches_query _ _) fun waiting => ?_
  split
  · exact touches_update (List.mem_singleton_self _)
  · exact .bind (touches_insert (List.mem_singleton_self _)) fun _ => .pure _

theorem touches_attachSmsSegments (i : Nat) (device recipient : String) (references : List Int)
    (submittedAt : String) :
    Touches [.smsDeliverySegments, .messages]
      (attachSmsSegments E i agentId device recipient references submittedAt) := by
  refine .bind (touches_toUtcIso _) fun submitted => ?_
  refine .bind (.forM (fun x => (touches_attachSegment _ _ _ _ _ _).mono (by decide)) _) fun _ => ?_
  exact (touches_updateMessageDeliveryStatus i).mono (by decide)

theorem touches_fillSegment (row : HubRow) (r : Report) (times : ReportTimes) (state : DeliveryState)
    (more : Assignments Column Cell) :
    Touches [.smsDeliverySegments] (fillSegment row r times state more) :=
  .ite (.bind (touches_bind _) fun _ => touches_update (List.mem_singleton_self _)) (.pure _)

theorem touches_recordSmsDelivery (r : Report) :
    Touches [.smsDeliverySegments, .messages] (recordSmsDelivery E r) := by
  refine .bind (touches_optionalIso _) fun serviceTs => ?_
  refine .bind (touches_optionalIso _) fun discharge => ?_
  refine .bind (touches_toUtcIso _) fun reported => ?_
  refine .bind (touches_query _ _) fun found => ?_
  dsimp only
  split
  · refine .bind ((touches_fillSegment _ _ _ _ _).mono (by decide)) fun _ => ?_
    split
    · exact (touches_updateMessageDeliveryStatus _).mono (by decide)
    · exact .throw _
  · refine .bind (touches_query _ _) fun unmatched => ?_
    split
    · exact (touches_fillSegment _ _ _ _ _).mono (by decide)
    · exact .bind (touches_bind _) fun _ => .bind (touches_insert (by decide)) fun _ => .pure _

/-! ## Incidents -/

theorem touches_openIncident (fingerprint kind severity source title detail : String) :
    Touches [.incidents] (openIncident E fingerprint kind severity source title detail) :=
  touches_upsert (List.mem_singleton_self _)

theorem touches_resolveIncident (fingerprint detail : String) :
    Touches [.incidents] (resolveIncident E fingerprint detail) :=
  touches_update (List.mem_singleton_self _)

theorem touches_noteSend (status : String) : Touches [.incidents] (noteSend E agentId frame status) :=
  .ite (touches_openIncident _ _ _ _ _ _) (.ite (touches_resolveIncident _ _) (.pure _))

theorem touches_noteRegistration : Touches [.incidents] (noteRegistration E agentId frame) := by
  refine .ite (.ite ?_ (.ite (touches_resolveIncident _ _) ?_)) (.pure _)
  · exact .bind (touches_resolveIncident _ _) fun _ => touches_resolveIncident _ _
  · exact .ite (touches_openIncident _ _ _ _ _ _) (touches_resolveIncident _ _)

theorem touches_applySupplyVoltage : Touches [.incidents] (applySupplyVoltage E agentId frame) := by
  refine .bind (touches_optionalInt _) fun voltage => ?_
  refine .bind (touches_optionalInt _) fun threshold => ?_
  split
  · refine .ite (.pure _) (.ite (touches_resolveIncident _ _) ?_)
    exact .ite (touches_resolveIncident _ _) (touches_openIncident _ _ _ _ _ _)
  · exact .pure _

theorem touches_applyDeviceRecovery : Touches [.incidents] (applyDeviceRecovery E agentId frame) := by
  refine .ite (.pure _) (.ite (touches_resolveIncident _ _) (.ite (.pure _) ?_))
  exact .bind (touches_optionalInt _) fun attempt => touches_openIncident _ _ _ _ _ _

theorem touches_noteTask (task : Option HubRow) : Touches [.incidents] (noteTask E frame task) :=
  .ite (touches_openIncident _ _ _ _ _ _) (.ite (touches_resolveIncident _ _) (.pure _))

/-! ## The callbacks -/

theorem touches_applySmsIn : Touches [.sims, .messages] (applySmsIn E agentId frame) := by
  refine .bind (touches_convert _) fun segments => ?_
  refine .bind (touches_optionalInt _) fun dcs => ?_
  exact .bind (touches_convert _) fun isData => touches_insertMessage _

theorem touches_applySmsOut :
    Touches [.sims, .messages, .smsDeliverySegments, .incidents] (applySmsOut E agentId frame) := by
  refine .bind (touches_convert _) fun raw => ?_
  refine .bind (touches_collectReferences _) fun references => ?_
  refine .bind ((touches_insertMessage _).mono (by decide)) fun i => ?_
  refine .bind (.ite (.pure _) ((touches_attachSmsSegments _ _ _ _ _).mono (by decide))) fun _ => ?_
  exact (touches_noteSend _).mono (by decide)

theorem touches_applySmsDelivery :
    Touches [.smsDeliverySegments, .messages] (applySmsDelivery E agentId frame) := by
  refine .bind (touches_optionalInt _) fun reference => ?_
  cases reference with
  | none => exact .pure _
  | some n =>
    refine .ite ?_ (.pure _)
    refine .bind (touches_optionalInt _) fun code => ?_
    exact .bind (touches_optionalInt _) fun seq => touches_recordSmsDelivery _

theorem touches_applyCallEvent : Touches [.sims, .calls] (applyCallEvent E agentId frame) := by
  refine .bind (touches_floatOrZero _) fun ring => ?_
  exact .bind (touches_optionalInt _) fun seq => touches_insertCall _

theorem touches_noteRunTimes (taskId : Option Cell) :
    Touches [.tasks] (noteRunTimes E frame taskId) := by
  have hmem := List.mem_singleton_self Table.tasks
  refine .ite ?_ (.ite ?_ (.pure _))
  · exact .bind (touches_bind _) fun _ => .bind (touches_bind _) fun _ => touches_update hmem
  · exact .bind (touches_bind _) fun _ => touches_update hmem

theorem touches_insertTaskLog : Touches [.taskLogs] (insertTaskLog E frame) := by
  refine .bind (touches_convert _) fun attempts => ?_
  refine .bind (touches_bind _) fun taskId => ?_
  refine .bind (touches_bind _) fun runId => ?_
  refine .bind (touches_bind _) fun ts => ?_
  refine .bind (touches_bind _) fun status => ?_
  refine .bind (touches_bind _) fun detail => ?_
  exact .bind (touches_bind _) fun error => touches_insert (List.mem_singleton_self _)

theorem touches_applyLog : Touches [.agentLogs, .incidents] (applyLog E agentId frame) := by
  refine .bind (touches_bind _) fun device => ?_
  refine .bind (touches_bind _) fun level => ?_
  refine .bind (touches_bind _) fun message => ?_
  refine .bind (touches_bind _) fun ts => ?_
  refine .bind (touches_insert (by decide)) fun _ => ?_
  exact .ite (touches_applyDeviceRecovery.mono (by decide)) (.pure _)

theorem touches_applyTaskResult :
    Touches [.taskLogs, .tasks, .incidents] (applyTaskResult E frame) := by
  refine .bind (touches_insertTaskLog.mono (by decide)) fun _ => .ite (.pure _) ?_
  refine .bind (touches_bind _) fun taskId => ?_
  refine .bind (touches_one _ _) fun task => ?_
  refine .bind ((touches_noteTask task).mono (by decide)) fun _ => ?_
  refine .bind ((touches_noteRunTimes taskId).mono (by decide)) fun _ => ?_
  exact .bind (touches_convert _) fun _ => .pure _

theorem touches_applyOperationResult :
    Touches [.commandOperations] (applyOperationResult E agentId streamId frame) := by
  refine .ite ?_ (.pure _)
  refine .bind (touches_bind _) fun status => ?_
  refine .bind (touches_bind _) fun error => ?_
  refine .bind (touches_bind _) fun cmdId => ?_
  refine .bind (touches_bind _) fun device => ?_
  refine .bind (touches_bind _) fun token => ?_
  exact .get fun db => touches_update (List.mem_singleton_self _)

theorem touches_applyTasksApplied : Touches [.agents] (applyTasksApplied E agentId frame) := by
  unfold applyTasksApplied
  split
  · exact .ite (.pure _) (touches_update (List.mem_singleton_self _))
  · exact .pure _

theorem touches_applyStatus :
    Touches [.sims, .devices, .deviceStatus, .incidents] (applyStatus E agentId frame) := by
  refine .bind ((touches_upsertDevice _).mono (by decide)) fun i => ?_
  refine .bind ((touches_recordStatus i _).mono (by decide)) fun _ => ?_
  refine .bind (touches_noteRegistration.mono (by decide)) fun _ => ?_
  exact .bind (touches_applySupplyVoltage.mono (by decide)) fun _ => .pure _

theorem touches_queueOne (a : AppliedEvent) (kind : String) (refId : Option Int) :
    Touches [.notifyOutbox] (queueOne E a frame kind refId) := by
  cases refId with
  | none => exact .pure _
  | some i =>
    exact .bind (issues_sql (.insertOrIgnore (List.mem_singleton_self _))) fun _ => .pure _

theorem touches_queueNotification (a : AppliedEvent) :
    Touches [.notifyOutbox] (queueNotification E a frame) := by
  refine .bind (touches_queueOne a "message" _) fun _ => ?_
  exact .bind (touches_queueOne a "task_result" _) fun _ => touches_queueOne a "call" _

/-- The tables of the modules. -/
def MODULE_TABLES : List Table := [.devices, .deviceStatus]

/-- Every other table. -/
def OTHER_TABLES : List Table := SCHEMA.tables.filter fun t => !MODULE_TABLES.contains t

/-- **Only a status writes the modules.** -/
theorem touches_apply {kind eventKey : String} (hkind : kind ≠ "status") :
    Touches OTHER_TABLES (apply E agentId kind frame eventKey streamId) := by
  refine .bind ?_ fun a => .bind ((touches_queueNotification a).mono (by decide)) fun _ => .pure _
  unfold dispatch
  split
  · exact .bind (touches_applySmsIn.mono (by decide)) fun _ => .pure _
  · exact .bind (touches_applySmsOut.mono (by decide)) fun _ => .pure _
  · exact .bind (touches_applySmsDelivery.mono (by decide)) fun _ => .pure _
  · exact absurd rfl hkind
  · exact .bind (touches_applyCallEvent.mono (by decide)) fun _ => .pure _
  · exact .bind (touches_applyLog.mono (by decide)) fun _ => .pure _
  · exact .bind (touches_applyTaskResult.mono (by decide)) fun _ => .pure _
  · exact .bind (touches_applyOperationResult.mono (by decide)) fun _ => .pure _
  · exact .bind (touches_applyTasksApplied.mono (by decide)) fun _ => .pure _
  · exact .pure _

end Air780eHub.Server
