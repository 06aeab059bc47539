/-
  The callbacks of the gateway raise no integrity error on the frames an Agent sends.

  `Server/ApplySafe` has the operations, each with the values it needs in its NOT NULL columns.
  Here each callback is put together from them.  What it needs is stated of the FRAME, field by
  field: that a field is a string where the callback stores it as it came.

  1. **Fields of a frame.**
  2. **SMS**: inbound, outbound, delivery reports.
  3. **Status and calls.**
  4. **Logs.**
  5. **Task receipts**: safe exactly when the task is still there.
  6. **Notifications.**
-/
import Air780eHub.Agent.Payloads
import Air780eHub.Server.ApplySafe

namespace Air780eHub.Server

open Relational

variable {E : Env} {P : HubDb → Prop} {frame : Frame} {agentId : String}

/-! ## Fields of a frame -/

/-- The field is a string where the frame has it. -/
def Worded (frame : Frame) (key : String) : Prop := ∃ s, frame.getD key (.str "") = .str s

theorem Worded.filled {key : String} (h : Worded frame key) : Filled (frame.getD key (.str "")) := by
  obtain ⟨s, hs⟩ := h
  rw [hs]
  exact filled_str s

theorem filled_pyOr {v d : Value} (hv : v.truthy = true → Filled v) (hd : Filled d) :
    Filled (pyOr v d) := by
  unfold pyOr
  split
  · exact hv ‹_›
  · exact hd

theorem Worded.filled_or {key : String} (h : Worded frame key) :
    Filled (pyOr (frame.getD key (.str "")) (.str "")) :=
  filled_pyOr (fun _ => h.filled) (filled_str "")

/-! ## SMS -/

/-- The fields a message row is stored with as they came. -/
structure MessageFields (frame : Frame) : Prop where
  device : Worded frame "device"
  peer   : Worded frame "peer"
  body   : Worded frame "body"
  iccid  : Worded frame "iccid"

theorem rawIsData_not_integrity {v : Value} {f : Failure} (h : rawIsData v = .error f) :
    f.isIntegrity = false := by
  unfold rawIsData at h
  split at h
  · split at h
    · cases h
    · cases h; rfl
  · cases h

theorem safe_applySmsIn (h : MessageFields frame) :
    Safe Sound (applySmsIn E agentId frame) fun _ => Sound := by
  unfold applySmsIn
  refine Avoids.bind (safe_toInt _) fun segments => ?_
  refine Avoids.bind (safe_optionalInt _) fun dcs => ?_
  refine Avoids.bind (safe_convert fun f hf => ?_) fun isData => ?_
  · split at hf
    · cases hf
    · exact rawIsData_not_integrity hf
  · exact (safe_insertMessage _ (fun _ => h.iccid.filled_or) h.device.filled h.peer.filled
      h.body.filled).post fun _ _ hm => hm.sound

theorem items_not_integrity {v : Value} {f : Failure} (h : items v = .error f) :
    f.isIntegrity = false := by
  unfold items at h
  split at h
  · cases h
  · cases h
  · cases h
  · cases h; rfl

theorem safe_collectReferences (xs : List Value) : Safe P (collectReferences xs) fun _ => P := by
  induction xs with
  | nil => exact Avoids.pure fun _ h => h
  | cons x xs ih =>
    refine Avoids.bind (safe_optionalInt x) fun value => ?_
    exact Avoids.bind ih fun rest => Avoids.pure fun _ h => h

theorem safe_noteSend (status : String) :
    Safe Sound (noteSend E agentId frame status) fun _ => Sound := by
  refine Avoids.ite (fun _ => safe_openIncident _ _ _ _ _ _) fun _ => ?_
  exact Avoids.ite (fun _ => safe_resolveIncident _ _) fun _ => Avoids.pure fun _ h => h

theorem safe_attachReferences (i : Nat) (references : List Int) :
    Safe (NewlyStored i) (attachReferences E agentId frame i references) fun _ => Sound :=
  Avoids.ite (fun _ => Avoids.pure fun _ h => h.sound) fun _ =>
    safe_attachSmsSegments i _ _ _ references _

theorem safe_applySmsOut (h : MessageFields frame) :
    Safe Sound (applySmsOut E agentId frame) fun _ => Sound := by
  unfold applySmsOut
  refine Avoids.bind (safe_convert fun f hf => items_not_integrity hf) fun raw => ?_
  refine Avoids.bind (safe_collectReferences raw) fun references => ?_
  refine Avoids.bind (safe_insertMessage _ (fun _ => h.iccid.filled_or) h.device.filled
    h.peer.filled h.body.filled) fun i => ?_
  exact Avoids.bind (safe_attachReferences i references) fun _ => safe_noteSend _

theorem safe_applySmsDelivery : Safe Sound (applySmsDelivery E agentId frame) fun _ => Sound := by
  unfold applySmsDelivery
  refine Avoids.bind (safe_optionalInt _) fun reference => ?_
  cases reference with
  | none => exact Avoids.pure fun _ h => h
  | some n =>
    refine Avoids.ite (fun _ => ?_) fun _ => Avoids.pure fun _ h => h
    refine Avoids.bind (safe_optionalInt _) fun code => ?_
    exact Avoids.bind (safe_optionalInt _) fun seq => safe_recordSmsDelivery _

/-! ## Status -/

theorem safe_noteVoltage (voltage threshold : Int) :
    Safe Sound (noteVoltage E agentId frame voltage threshold) fun _ => Sound := by
  refine Avoids.ite (fun _ => safe_resolveIncident _ _) fun _ => ?_
  exact Avoids.ite (fun _ => safe_resolveIncident _ _) fun _ => safe_openIncident _ _ _ _ _ _

theorem safe_applySupplyVoltage :
    Safe Sound (applySupplyVoltage E agentId frame) fun _ => Sound := by
  unfold applySupplyVoltage
  refine Avoids.bind (safe_optionalInt _) fun voltage => ?_
  refine Avoids.bind (safe_optionalInt _) fun threshold => ?_
  split
  · exact Avoids.ite (fun _ => Avoids.pure fun _ h => h) fun _ => safe_noteVoltage _ _
  · exact Avoids.pure fun _ h => h

theorem safe_noteRegistration : Safe Sound (noteRegistration E agentId frame) fun _ => Sound := by
  refine Avoids.ite (fun _ => ?_) fun _ => Avoids.pure fun _ h => h
  refine Avoids.ite (fun _ => ?_) fun _ => ?_
  · exact Avoids.bind (safe_resolveIncident _ _) fun _ => safe_resolveIncident _ _
  · refine Avoids.ite (fun _ => safe_resolveIncident _ _) fun _ => ?_
    exact Avoids.ite (fun _ => safe_openIncident _ _ _ _ _ _) fun _ => safe_resolveIncident _ _

/-- What the columns of a module without NULL need of a payload. -/
structure DeviceFields (payload : Frame) : Prop where
  flags    : ∀ x ∈ DEVICE_FLAGS, x.2 ∈ SCHEMA.notNull .devices → payload.get x.1 ≠ .null
  counts   : ∀ x ∈ DEVICE_COUNTS, Filled (payload.get x.1)
  identity : ∀ x ∈ DEVICE_IDENTITY, (payload.get x.1).truthy = true → Filled (payload.get x.1)

/-- No reading has to be there. -/
theorem readings_nullable : ∀ x ∈ DEVICE_READINGS, x.2 ∉ SCHEMA.notNull .devices := by decide

theorem DeviceFields.filled {payload : Frame} (h : DeviceFields payload) :
    ∀ x ∈ deviceColumns payload, x.1 ∈ SCHEMA.notNull .devices → Filled x.2 := by
  intro x hx hn
  unfold deviceColumns at hx
  simp only [List.mem_append] at hx
  rcases hx with (((hx | hx) | hx) | hx) | hx
  · obtain ⟨y, hy, -, rfl⟩ := mem_present hx
    show Filled (flagOrNull _)
    unfold flagOrNull
    rw [if_neg (h.flags y hy hn)]
    trivial
  · obtain ⟨y, -, -, rfl⟩ := mem_present hx
    trivial
  · obtain ⟨y, hy, -, rfl⟩ := mem_present hx
    exact absurd hn (readings_nullable y hy)
  · obtain ⟨y, hy, -, rfl⟩ := mem_present hx
    exact filled_pyOr (fun _ => h.counts y hy) trivial
  · obtain ⟨y, hy, rfl⟩ := List.mem_map.mp hx
    obtain ⟨hy, ht⟩ := List.mem_filter.mp hy
    exact h.identity y hy ht

theorem safe_applyStatus (hid : Identified (("name", frame.getD "device" (.str "")) :: frame))
    (hname : Worded frame "device")
    (hfields : DeviceFields (("name", frame.getD "device" (.str "")) :: frame)) :
    Safe Sound (applyStatus E agentId frame) fun _ => Sound := by
  unfold applyStatus
  refine Avoids.bind (safe_upsertDevice hid ?_ hfields.filled) fun i => ?_
  · exact hname.filled
  · refine Avoids.bind (safe_recordStatus frame) fun _ => ?_
    refine Avoids.bind safe_noteRegistration fun _ => ?_
    exact Avoids.bind safe_applySupplyVoltage fun _ => Avoids.pure fun _ h => h

/-! ## Calls -/

/-- A float that arrives is a number. -/
theorem filled_float (x : FiniteFloat) : Filled (.float x.text) := x.finite

theorem safe_applyCallEvent {x : FiniteFloat} (h : frame.get "ring_seconds" = .float x.text) :
    Safe Sound (applyCallEvent E agentId frame) fun _ => Sound := by
  unfold applyCallEvent
  rw [h]
  refine Avoids.bind (safe_floatOrZero (.float x.text)) fun ring => ?_
  refine Avoids.assume (fun _ hdb => hdb.2) fun hring => ?_
  have hsome : (realCell ring).isSome := by
    refine hring (fun t ht => ?_) fun s hs => ?_
    · cases ht
      exact filled_float x
    · cases hs
  refine Avoids.bind ((safe_optionalInt _).pre fun _ hdb => hdb.1) fun seq => ?_
  exact safe_insertCall _ hsome

/-! ## Logs -/

theorem safe_applyDeviceRecovery :
    Safe Sound (applyDeviceRecovery E agentId frame) fun _ => Sound := by
  refine Avoids.ite (fun _ => Avoids.pure fun _ h => h) fun _ => ?_
  refine Avoids.ite (fun _ => safe_resolveIncident _ _) fun _ => ?_
  refine Avoids.ite (fun _ => Avoids.pure fun _ h => h) fun _ => ?_
  exact Avoids.bind (safe_optionalInt _) fun attempt => safe_openIncident _ _ _ _ _ _

/-- The fields a log line is stored with as they came. -/
structure LogFields (frame : Frame) : Prop where
  device  : Worded frame "device"
  level   : Filled (frame.getD "level" (.str "info"))
  message : Worded frame "message"
  ts      : (frame.get "ts").truthy = true → Filled (frame.get "ts")

theorem safe_applyLog (h : LogFields frame) :
    Safe Sound (applyLog E agentId frame) fun _ => Sound := by
  unfold applyLog
  refine safe_bind_then fun device hdevice => safe_bind_then fun level hlevel => ?_
  refine safe_bind_then fun message hmessage => safe_bind_then fun ts hts => ?_
  obtain ⟨d, rfl⟩ := Option.isSome_iff_exists.mp (hdevice h.device.filled_or)
  obtain ⟨l, rfl⟩ := Option.isSome_iff_exists.mp (hlevel h.level)
  obtain ⟨m, rfl⟩ := Option.isSome_iff_exists.mp (hmessage h.message.filled)
  obtain ⟨t, rfl⟩ := Option.isSome_iff_exists.mp (hts (filled_pyOr h.ts (filled_str _)))
  refine Avoids.bind (Q := fun _ db => Sound db) ?_ fun _ => ?_
  · refine safe_sql (insert_avoids fun db hdb => ⟨hdb, ?_, fun h' => h'⟩)
    exact { rowOk_of_all rfl rfl with unique := nofun, refers := refers_of_nil rfl }
  · exact Avoids.ite (fun _ => safe_applyDeviceRecovery) fun _ => Avoids.pure fun _ hdb => hdb

/-! ## Task receipts -/

theorem safe_noteTask (task : Option HubRow) :
    Safe Sound (noteTask E frame task) fun _ => Sound := by
  refine Avoids.ite (fun _ => safe_openIncident _ _ _ _ _ _) fun _ => ?_
  exact Avoids.ite (fun _ => safe_resolveIncident _ _) fun _ => Avoids.pure fun _ h => h

theorem safe_noteRunTimes (taskId : Option Cell) :
    Safe Sound (noteRunTimes E frame taskId) fun _ => Sound := by
  refine Avoids.ite (fun _ => ?_) fun _ => Avoids.ite (fun _ => ?_) fun _ => Avoids.pure fun _ h => h
  · refine safe_bind_then fun last _ => safe_bind_then fun following _ => ?_
    refine safe_sql (update_avoids fun db h => ⟨h, fun r hr _ => ?_, fun h' => h'⟩)
    refine Rewrites.assign_free h hr ?_ rfl rfl rfl
    simp only [List.forall_mem_cons, List.not_mem_nil, false_imp_iff, implies_true, and_true]
    exact ⟨fun hn => absurd hn (by decide), fun hn => absurd hn (by decide)⟩
  · refine safe_bind_then fun following _ => ?_
    refine safe_sql (update_avoids fun db h => ⟨h, fun r hr _ => ?_, fun h' => h'⟩)
    refine Rewrites.assign_free h hr ?_ rfl rfl rfl
    simp only [List.forall_mem_cons, List.not_mem_nil, false_imp_iff, implies_true, and_true]
    exact fun hn => absurd hn (by decide)

theorem safe_noteTaskResult : Safe Sound (noteTaskResult E frame) fun _ => Sound := by
  unfold noteTaskResult
  refine safe_bind_then fun taskId _ => ?_
  refine Avoids.bind (safe_one .tasks _) fun task => ?_
  refine Avoids.bind ((safe_noteTask task).pre fun _ h => h.1) fun _ => ?_
  refine Avoids.bind (safe_noteRunTimes taskId) fun _ => ?_
  exact Avoids.bind (safe_toInt _) fun id => Avoids.pure fun _ h => h

/-- The task with this id is there. -/
def HasTask (n : Int) (db : HubDb) : Prop := ∃ i ∈ db.ids .tasks, (i : Int) = n

/-- A text or nothing, as a parameter. -/
theorem bind_optionValue (o : Option String) :
    bind (optionValue .str o) = (pure (o.map .text) : Hub (Option Cell)) := by
  cases o <;> rfl

theorem pyOr_str (a b : String) : pyOr (.str a) (.str b) = .str (if a != "" then a else b) := by
  show (if a != "" then Value.str a else .str b) = _
  split <;> rfl

/-- The parameters of a receipt row, the task's id in front. -/
theorem insertTaskLog_receipt (E : Env) (r : Receipt) (seq : Nat) :
    ∃ as : Assignments Column Cell,
      insertTaskLog E ((AgentEvent.taskResult r).frame seq) =
        sql (SCHEMA.insert .taskLogs ((.taskId, integer r.taskId) :: as)) ∧
      RowOk SCHEMA .taskLogs
        (assign ((.taskId, integer r.taskId) :: as) (SCHEMA.defaults .taskLogs)) := by
  have hattempts : ∃ n, toInt (pyOr (.int r.attempts) (.int 1)) = .ok n := by
    unfold pyOr
    split
    · exact ⟨_, rfl⟩
    · exact ⟨_, rfl⟩
  obtain ⟨n, hn⟩ := hattempts
  refine ⟨[(.runId, r.runId.map .text), (.ts, text (if r.ts != "" then r.ts else E.utcnow)),
    (.status, text r.status.text), (.attempts, integer n),
    (.detail, text (if pyTake RECEIPT_DETAIL_LIMIT r.detail != "" then
      pyTake RECEIPT_DETAIL_LIMIT r.detail else "")), (.error, r.error.map .text)], ?_, ?_⟩
  · show (do
      let attempts ← convert (toInt (pyOr (.int r.attempts) (.int 1)))
      let taskId ← bind (.int r.taskId)
      let runId ← bind (optionValue .str r.runId)
      let ts ← bind (pyOr (.str r.ts) (.str E.utcnow))
      let status ← bind (.str r.status.text)
      let detail ← bind (pyOr (.str (pyTake RECEIPT_DETAIL_LIMIT r.detail)) (.str ""))
      let error ← bind (optionValue .str r.error)
      sql (SCHEMA.insert .taskLogs
        [(.taskId, taskId), (.runId, runId), (.ts, ts), (.status, status),
         (.attempts, integer attempts), (.detail, detail), (.error, error)])) = _
    rw [hn, bind_optionValue, bind_optionValue, pyOr_str, pyOr_str]
    rfl
  · exact rowOk_of_all rfl rfl

/-- The one constraint a receipt row can break is the reference to its task. -/
theorem insertTaskLog_error_iff (E : Env) (r : Receipt) (seq : Nat) (db : HubDb) :
    (∃ f, insertTaskLog E ((AgentEvent.taskResult r).frame seq) db = .error f ∧
      f.isIntegrity = true) ↔ ¬ HasTask r.taskId db := by
  obtain ⟨as, heq, hrow⟩ := insertTaskLog_receipt E r seq
  rw [heq]
  constructor
  · rintro ⟨f, hf, -⟩ ⟨i, hi, hin⟩
    have hfit : Fits SCHEMA db .taskLogs (db.rows .taskLogs)
        (assign ((.taskId, integer r.taskId) :: as) (SCHEMA.defaults .taskLogs)) := by
      refine { hrow with unique := nofun, refers := ?_ }
      intro fk hfk v hv
      obtain rfl := List.mem_singleton.mp hfk
      cases hv
      exact ⟨i, hi, congrArg Cell.integer hin⟩
    unfold sql Schema.insert at hf
    rw [insertCells_ok hfit] at hf
    cases hf
  · intro hno
    cases hr : SCHEMA.insert .taskLogs ((.taskId, integer r.taskId) :: as) db with
    | error v =>
      refine ⟨.integrity v, ?_, rfl⟩
      unfold sql
      rw [hr]
      rfl
    | ok x =>
      -- a row that went in names a task that is there
      obtain ⟨hfit, -⟩ := insertCells_inv (show SCHEMA.insertCells .taskLogs _ db = .ok (x.1, x.2) from hr)
      obtain ⟨i, hi, he⟩ := hfit.refers ⟨.taskId, .tasks, .cascade⟩ (List.mem_singleton_self _) _ rfl
      exact absurd ⟨i, hi, Cell.integer.inj he⟩ hno

theorem safe_insertTaskLog (r : Receipt) (seq : Nat) :
    Safe (fun db => Sound db ∧ HasTask r.taskId db)
      (insertTaskLog E ((AgentEvent.taskResult r).frame seq)) fun _ => Sound := by
  obtain ⟨as, heq, hrow⟩ := insertTaskLog_receipt E r seq
  rw [heq]
  refine safe_sql (insert_avoids fun db h => ⟨h.1, ?_, fun h' => h'⟩)
  refine { hrow with unique := nofun, refers := ?_ }
  intro fk hfk v hv
  obtain rfl := List.mem_singleton.mp hfk
  cases hv
  obtain ⟨i, hi, hin⟩ := h.2
  exact ⟨i, hi, congrArg Cell.integer hin⟩

/-- A receipt whose task is there is stored, with what follows from it. -/
theorem safe_applyTaskResult (r : Receipt) (seq : Nat) :
    Safe (fun db => Sound db ∧ HasTask r.taskId db)
      (applyTaskResult E ((AgentEvent.taskResult r).frame seq)) fun _ => Sound := by
  unfold applyTaskResult
  refine Avoids.bind (safe_insertTaskLog r seq) fun _ => ?_
  exact Avoids.ite (fun _ => Avoids.pure fun _ h => h) fun _ => safe_noteTaskResult

/-! ## Task synchronisation and notifications -/

theorem safe_applyTasksApplied :
    Safe Sound (applyTasksApplied E agentId frame) fun _ => Sound := by
  unfold applyTasksApplied
  split
  · exact Avoids.ite (fun _ => Avoids.pure fun _ h => h) fun _ => safe_finishTaskSync _ _ _ _ _
  · exact Avoids.pure fun _ h => h

theorem safe_queueOne (a : AppliedEvent) (kind : String) (refId : Option Int) :
    Safe Sound (queueOne E a frame kind refId) fun _ => Sound := by
  cases refId with
  | none => exact Avoids.pure fun _ h => h
  | some i => exact Avoids.bind (safe_enqueueNotification _ _ _ _) fun _ => Avoids.pure fun _ h => h

theorem safe_queueNotification (a : AppliedEvent) :
    Safe Sound (queueNotification E a frame) fun _ => Sound := by
  refine Avoids.bind (safe_queueOne a _ _) fun _ => ?_
  exact Avoids.bind (safe_queueOne a _ _) fun _ => safe_queueOne a _ _

end Air780eHub.Server
