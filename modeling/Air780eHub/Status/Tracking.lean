/-
  What the Server shows of a module, against what the module last said of itself.

  The Agent holds samples back, its reports wait in a queue and arrive late, the link comes and
  goes, and frames of other kinds and other modules are applied in between.

  1. **The system**: one module of one Agent, its queue and the Server's database.
  2. **`Orderly`**: the conditions on a run.
  3. **The invariant** `Tracked`, kept by every step.
  4. **`row_follows`**: once the queue is empty and the link up, the row of the module agrees with
     the last sample, readings up to noise; **`told_same`**: a sample that was held back says
     nothing of a fault the one sent last did not say.
-/
import Air780eHub.Incidents.Words
import Air780eHub.Retention.Pass
import Air780eHub.Status.Rows

namespace Air780eHub.Status

open Relational Server Notify Retention

/-! ## The system -/

/-- A report that waits: the threshold it was sent with and the sample. -/
abbrev Queued := Int × Sample

/-- One module, its reports and the database. -/
structure State where
  reporter  : Reporter
  sampled   : Option Sample
  sampledAt : Rat
  queue     : List Queued
  link      : Bool
  hub       : HubDb

/-- What happens to them. -/
inductive Action
  /-- `_emit_status` with the state of the module. -/
  | sample (now : Rat) (force : Bool) (s : Sample)
  /-- The worker is made anew. -/
  | restart (configured : Int)
  /-- The outbox drops its oldest reports. -/
  | trim (k : Nat)
  /-- A hello describes the module. -/
  | hello (env : Env) (label : String) (s : Sample)
  /-- The Agent is gone. -/
  | disconnect
  /-- The next report is applied. -/
  | deliver (env : Env) (seq : Nat) (eventKey streamId : String)
  /-- Any other event is applied. -/
  | apply (x : Incoming)
  /-- Any other statement is committed. -/
  | statement (q : Statement Table Column Cell)

/-- `set_devices_offline`. -/
def setDevicesOffline (agentId : String) : Statement Table Column Cell :=
  .update .devices (fun r => equals (r.cells .agentId) (text agentId)) fun _ => [(.online, integer 0)]

/-- The callback of a report. -/
def deliverReport (E : Env) (agentId name : String) (r : Queued) (seq : Nat)
    (eventKey streamId : String) : Hub AppliedEvent :=
  Server.apply E agentId "status" ((r.2.event name r.1).frame seq) eventKey streamId

/-- One step; what raises is rolled back. -/
def step (agentId name : String) (s : State) : Action → Option State
  | .sample now force x =>
    let w := s.reporter.emitStatus now force x
    some { s with
      reporter := w.1, sampled := some x, sampledAt := now
      queue := if w.2 then s.queue ++ [(s.reporter.lowVoltageMv, x)] else s.queue }
  | .restart configured =>
    some { s with reporter := .init name configured, sampled := none }
  | .trim k => some { s with queue := s.queue.drop k }
  | .hello E label x =>
    match upsertDevice E agentId (helloPayload name label x) s.hub with
    | .error _     => some s
    | .ok (_, hub) => some { s with link := true, hub }
  | .disconnect =>
    some { s with link := false, hub := (setDevicesOffline agentId).exec SCHEMA s.hub }
  | .deliver E seq eventKey streamId =>
    match s.link, s.queue with
    | true, r :: rest =>
      match deliverReport E agentId name r seq eventKey streamId s.hub with
      | .error _     => some s
      | .ok (_, hub) => some { s with queue := rest, hub }
    | _, _ => none
  | .apply x =>
    match x.callback s.hub with
    | .error _     => some s
    | .ok (_, hub) => some { s with hub }
  | .statement q => some { s with hub := q.exec SCHEMA s.hub }

theorem step_held (agentId name : String) {s : State} {now : Rat} {x : Sample}
    (h : s.reporter.statusWorthSending now x = false) :
    step agentId name s (.sample now false x) =
      some { s with sampled := some x, sampledAt := now } := by
  unfold step
  dsimp only
  rw [emitStatus_held h]
  rfl

/-- One module from a start of its worker on. -/
def tracking (agentId name : String) : Machine State Action where
  Start := fun s => Sound s.hub ∧ s.queue = [] ∧ s.link = false ∧ s.sampled = none ∧
    ∃ configured, s.reporter = .init name configured
  step  := step agentId name

/-! ## The conditions -/

/-- The columns of the key and those that show a sample. -/
def MODULE_COLUMNS : List Column := .agentId :: .name :: TRACKED

/-- A hello describes what was sampled last (while a sample is taken it may describe something
    between two samples), the report that was sent last is not dropped, no other Agent and no other
    worker speaks for the module, and nobody else writes what its row shows or deletes it. -/
def Orderly (agentId name : String) (s : State) : Action → Prop
  | .hello _ _ x => s.sampled = none ∨ s.sampled = some x
  | .trim k      => k < s.queue.length ∨ s.queue = []
  | .apply x     => x.kind = "status" →
    (x.agentId, cellOf (x.frame.getD "device" (.str ""))) ≠ (agentId, text name)
  | .statement q => q.Keeps SCHEMA rank .devices MODULE_COLUMNS fun _ => True
  | _            => True

/-! ## The row after a step -/

section Rows

variable {E : Env} {db db' : HubDb} {agentId name eventKey streamId : String}

/-- What a status frame does to the modules. -/
theorem status_row {frame : Frame} {a : AppliedEvent} (hdb : Sound db)
    (h : Server.apply E agentId "status" frame eventKey streamId db = .ok (a, db')) :
    Sound db' ∧
    ((cellOf (frame.getD "device" (.str ""))).isSome →
      ∃ r, deviceOf db' agentId (cellOf (frame.getD "device" (.str ""))) = some r ∧
        ∀ x ∈ deviceColumns (("name", frame.getD "device" (.str "")) :: frame),
          r.cells x.1 = cellOf x.2) ∧
    ∀ agentId' name', (agentId', name') ≠ (agentId, cellOf (frame.getD "device" (.str ""))) →
      deviceOf db' agentId' name' = deviceOf db agentId' name' := by
  obtain ⟨applied, db₁, hdispatch, h₁⟩ := of_bind_ok h
  obtain ⟨u, db₂, hqueue, h₂⟩ := of_bind_ok h₁
  cases h₂
  obtain ⟨change, db₃, hstatus, h₃⟩ := of_bind_ok hdispatch
  cases h₃
  obtain ⟨i, db₄, hup, h₄⟩ := of_bind_ok hstatus
  obtain ⟨hdb₄, hself, hothers⟩ := upsertDevice_row hdb hup
  -- what follows the row of the module writes other tables
  have hrest : Touches [.deviceStatus, .incidents] (do
      recordStatus E i frame
      noteRegistration E agentId frame
      applySupplyVoltage E agentId frame
      pure (if frame.has "online" then
        some (textOr E (frame.get "device") "", (frame.get "online").truthy) else none)) := by
    refine .bind ((touches_recordStatus _ _).mono (by decide)) fun _ => ?_
    refine .bind (touches_noteRegistration.mono (by decide)) fun _ => ?_
    exact .bind (touches_applySupplyVoltage.mono (by decide)) fun _ => .pure _
  have hsame := (hrest.leaves (t := .devices) (by decide) db₄ _ db₁ h₄).trans
    ((touches_queueNotification _).leaves (by decide) db₁ u db' hqueue)
  have hsound : Sound db' := (touches_queueNotification _ db₁ u db' hqueue).consistent
    ((hrest db₄ _ db₁ h₄).consistent hdb₄)
  have hrow : ∀ agentId' name', deviceOf db' agentId' name' = deviceOf db₄ agentId' name' :=
    fun _ _ => at_of_rows hsame.rows
  refine ⟨hsound, fun hname => ?_, fun agentId' name' hne => ?_⟩
  · rw [hrow]
    exact hself hname
  · rw [hrow]
    exact hothers agentId' name' hne

/-- A row of another writer's event. -/
theorem apply_row {x : Incoming} {a : AppliedEvent} (hdb : Sound db)
    (hother : x.kind = "status" →
      (x.agentId, cellOf (x.frame.getD "device" (.str ""))) ≠ (agentId, text name))
    (h : x.callback db = .ok (a, db')) :
    Sound db' ∧ deviceOf db' agentId (text name) = deviceOf db agentId (text name) := by
  by_cases hk : x.kind = "status"
  · unfold Incoming.callback at h
    rw [hk] at h
    obtain ⟨hsound, -, hothers⟩ := status_row hdb h
    exact ⟨hsound, hothers _ _ (Ne.symm (hother hk))⟩
  · have ht : Touches OTHER_TABLES x.callback := touches_apply hk
    exact ⟨(ht db a db' h).consistent hdb, at_of_rows (ht.leaves (by decide) db a db' h).rows⟩

/-- A statement that keeps the columns of the modules. -/
theorem kept_row {r : HubRow} (hdb : Sound db') (hk : Kept .devices MODULE_COLUMNS (fun _ => True) db db')
    (hr : deviceOf db agentId (text name) = some r) :
    ∃ r', deviceOf db' agentId (text name) = some r' ∧ ∀ c ∈ MODULE_COLUMNS, r'.cells c = r.cells c := by
  obtain ⟨hmem, hkey⟩ := mem_of_at hr
  obtain ⟨r', hr', hagree⟩ := hk.persists r hmem
  refine ⟨r', at_of_mem hdb (List.mem_singleton_self _) hr' ?_, hagree.cells⟩
  rw [← hkey]
  refine sameKey_congr (fun c hc => hagree.cells c ?_) fun _ _ => rfl
  have hall : ∀ c ∈ [Column.agentId, .name], c ∈ MODULE_COLUMNS := by decide
  exact hall c hc

/-- A row with the same cells shows the same. -/
theorem Shows.of_kept {r r' : HubRow} {s : Sample} (h : Shows r s)
    (hc : ∀ c ∈ MODULE_COLUMNS, r'.cells c = r.cells c) : Shows r' s := by
  have hflags : ∀ x ∈ DEVICE_FLAGS, x.2 ∈ MODULE_COLUMNS := by decide
  have hbits : ∀ x ∈ DEVICE_BITS, x.2 ∈ MODULE_COLUMNS := by decide
  exact {
    flags    := fun x hx => (hc x.2 (hflags x hx)).trans (h.flags x hx)
    bits     := fun x hx => (hc x.2 (hbits x hx)).trans (h.bits x hx)
    storage  := (hc .storageUsed (by decide)).trans h.storage
    operator := fun hne => (hc .operator (by decide)).trans (h.operator hne)
    port     := fun hne => (hc .port (by decide)).trans (h.port hne)
    rssi     := (hc .rssi (by decide)).trans h.rssi
    voltage  := (hc .voltageMv (by decide)).trans h.voltage }

end Rows

/-! ## The invariant -/

/-- The sample a payload would be close to the one that was sent. -/
def Near (w : Reporter) (sent s : Sample) : Prop :=
  Close w.lowVoltageMv (sent.payload w.name w.lowVoltageMv) (s.payload w.name w.lowVoltageMv)

/-- What holds of the module between two steps. -/
structure Tracked (agentId name : String) (s : State) : Prop where
  sound   : Sound s.hub
  named   : s.reporter.name = name
  sampled : ∀ sent, s.reporter.last = some sent → ∃ x, s.sampled = some x ∧
    Near s.reporter sent x ∧ s.sampledAt - s.reporter.sentAt < STATUS_HEARTBEAT
  queued  : ∀ sent, s.reporter.last = some sent →
    s.queue = [] ∨ s.queue.getLast? = some (s.reporter.lowVoltageMv, sent)
  shown   : s.link = true → s.queue = [] → ∀ sent, s.reporter.last = some sent →
    ∃ r x, deviceOf s.hub agentId (text name) = some r ∧ Shows r x ∧ Near s.reporter sent x

section Steps

variable {agentId name : String} {s s' : State}

/-- A worker that has sent nothing. -/
theorem Tracked.silent (hsound : Sound s.hub) (hname : s.reporter.name = name)
    (hlast : s.reporter.last = none) : Tracked agentId name s := by
  have hno : ∀ sent, s.reporter.last ≠ some sent := by
    intro sent he
    rw [hlast] at he
    cases he
  exact ⟨hsound, hname, fun sent he => absurd he (hno sent), fun sent he => absurd he (hno sent),
    fun _ _ sent he => absurd he (hno sent)⟩

theorem tracked_start (h : (tracking agentId name).Start s) : Tracked agentId name s := by
  obtain ⟨hsound, -, -, -, configured, hw⟩ := h
  exact .silent hsound (by rw [hw]; rfl) (by rw [hw]; rfl)

/-- The reports are as they were. -/
theorem Tracked.row (h : Tracked agentId name s) (link : Bool) {hub : HubDb} (hsound : Sound hub)
    (hshown : link = true → s.queue = [] → ∀ sent, s.reporter.last = some sent →
      ∃ r x, deviceOf hub agentId (text name) = some r ∧ Shows r x ∧ Near s.reporter sent x) :
    Tracked agentId name { s with link, hub } :=
  ⟨hsound, h.named, h.sampled, h.queued, hshown⟩

/-- The row of the module has the columns it had. -/
theorem Tracked.same (h : Tracked agentId name s) {hub : HubDb} (hsound : Sound hub)
    (hrow : ∀ r, deviceOf s.hub agentId (text name) = some r →
      ∃ r', deviceOf hub agentId (text name) = some r' ∧ ∀ c ∈ MODULE_COLUMNS, r'.cells c = r.cells c) :
    Tracked agentId name { s with hub } := by
  refine h.row s.link hsound fun hl hq sent he => ?_
  obtain ⟨r, x, hr, hshows, hnear⟩ := h.shown hl hq sent he
  obtain ⟨r', hr', hc⟩ := hrow r hr
  exact ⟨r', x, hr', hshows.of_kept hc, hnear⟩

theorem tracked_sample (h : Tracked agentId name s) (now : Rat) (force : Bool) (x : Sample)
    (hs : step agentId name s (.sample now force x) = some s') : Tracked agentId name s' := by
  obtain rfl := Option.some.inj hs
  obtain ⟨sent, hlast, hclose, hyoung, hsent⟩ := emitStatus_close s.reporter now force x
  obtain ⟨hname, hlow⟩ := emitStatus_same s.reporter now force x
  generalize s.reporter.emitStatus now force x = w at hlast hyoung hsent hname hlow
  have hnear : ∀ y, Near w.1 sent y ↔ Near s.reporter sent y := by
    intro y
    unfold Near
    rw [hname, hlow]
  refine ⟨h.sound, hname.trans h.named, fun sent' he => ?_, fun sent' he => ?_,
    fun hl hq sent' he => ?_⟩
  · obtain rfl : sent' = sent := Option.some.inj (he.symm.trans hlast)
    exact ⟨x, rfl, (hnear x).mpr hclose, hyoung⟩
  · obtain rfl : sent' = sent := Option.some.inj (he.symm.trans hlast)
    dsimp only
    rw [hlow]
    cases hb : w.2 with
    | true =>
      rw [hb, if_pos rfl] at hsent
      rw [if_pos rfl, hsent]
      exact .inr List.getLast?_concat
    | false =>
      rw [hb, if_neg Bool.false_ne_true] at hsent
      rw [if_neg Bool.false_ne_true]
      exact h.queued sent' hsent.1
  · obtain rfl : sent' = sent := Option.some.inj (he.symm.trans hlast)
    dsimp only at hq
    cases hb : w.2 with
    | true =>
      rw [hb, if_pos rfl] at hq
      exact absurd hq (List.append_ne_nil_of_right_ne_nil _ (List.cons_ne_nil _ _))
    | false =>
      rw [hb, if_neg Bool.false_ne_true] at hsent hq
      obtain ⟨r, y, hr, hshows, hy⟩ := h.shown hl hq sent' hsent.1
      exact ⟨r, y, hr, hshows, (hnear y).mpr hy⟩

theorem tracked_trim (h : Tracked agentId name s) (k : Nat) (hk : k < s.queue.length ∨ s.queue = [])
    (hs : step agentId name s (.trim k) = some s') : Tracked agentId name s' := by
  cases hs
  refine ⟨h.sound, h.named, h.sampled, fun sent he => ?_, fun hl hq => h.shown hl ?_⟩
  · rcases h.queued sent he with hq | hq
    · exact .inl (show s.queue.drop k = [] by rw [hq, List.drop_nil])
    · rcases hk with hk | hk
      · exact .inr ((List.getLast?_drop).trans (by rw [if_neg (by omega), hq]))
      · exact .inl (show s.queue.drop k = [] by rw [hk, List.drop_nil])
  · rcases hk with hk | hk
    · have hlen := List.length_drop (i := k) (l := s.queue)
      have hz : (s.queue.drop k).length = 0 := List.length_eq_zero_iff.mpr hq
      omega
    · exact hk

theorem tracked_hello (h : Tracked agentId name s) (E : Env) (label : String) (x : Sample)
    (hx : s.sampled = none ∨ s.sampled = some x)
    (hs : step agentId name s (.hello E label x) = some s') : Tracked agentId name s' := by
  unfold step at hs
  dsimp only at hs
  cases hr : upsertDevice E agentId (helloPayload name label x) s.hub with
  | error e => rw [hr] at hs; cases hs; exact h
  | ok y =>
    obtain ⟨i, hub⟩ := y
    rw [hr] at hs
    cases hs
    obtain ⟨hsound, hself, -⟩ := upsertDevice_row h.sound hr
    obtain ⟨r, hrow, hcolumns⟩ := hself rfl
    refine h.row true hsound fun _ _ sent he => ?_
    obtain ⟨cur, hcur, hnear, -⟩ := h.sampled sent he
    rcases hx with hx | hx
    · rw [hx] at hcur
      cases hcur
    · rw [hx] at hcur
      cases hcur
      exact ⟨r, x, hrow, shows_of_columns (helloPayload_describes name label x) hcolumns, hnear⟩

theorem tracked_deliver (h : Tracked agentId name s) (E : Env) (seq : Nat)
    (eventKey streamId : String)
    (hs : step agentId name s (.deliver E seq eventKey streamId) = some s') :
    Tracked agentId name s' := by
  unfold step at hs
  dsimp only at hs
  cases hl : s.link with
  | false => rw [hl] at hs; cases hs
  | true =>
    cases hq : s.queue with
    | nil => rw [hl, hq] at hs; cases hs
    | cons q rest =>
      rw [hl, hq] at hs
      dsimp only at hs
      cases hr : deliverReport E agentId name q seq eventKey streamId s.hub with
      | error e => rw [hr] at hs; cases hs; exact h
      | ok y =>
        obtain ⟨applied, hub⟩ := y
        rw [hr] at hs
        cases hs
        obtain ⟨hsound, hself, -⟩ := status_row h.sound hr
        obtain ⟨r, hrow, hcolumns⟩ := hself rfl
        refine ⟨hsound, h.named, h.sampled, fun sent he => ?_, fun _ hrest sent he => ?_⟩
        · rcases h.queued sent he with hnil | hlast
          · rw [hq] at hnil
            cases hnil
          · rw [hq, List.getLast?_cons] at hlast
            cases rest with
            | nil => exact .inl rfl
            | cons q' rest' => exact .inr hlast
        · -- the queue is empty: the report was the one sent last
          dsimp only at hrest
          subst hrest
          rcases h.queued sent he with hnil | hlast
          · rw [hq] at hnil
            cases hnil
          · rw [hq] at hlast
            cases hlast
            exact ⟨r, sent, hrow, shows_of_columns (statusPayload_describes name _ sent seq) hcolumns,
              .refl _ _⟩

/-- **Every step keeps the row on the track of the samples.** -/
theorem tracked_step {a : Action} (h : Tracked agentId name s) (ho : Orderly agentId name s a)
    (hs : step agentId name s a = some s') : Tracked agentId name s' := by
  cases a with
  | sample now force x => exact tracked_sample h now force x hs
  | trim k => exact tracked_trim h k ho hs
  | hello E label x => exact tracked_hello h E label x ho hs
  | deliver E seq eventKey streamId => exact tracked_deliver h E seq eventKey streamId hs
  | restart configured =>
    cases hs
    exact .silent h.sound rfl rfl
  | disconnect =>
    cases hs
    exact h.row false (Statement.exec_consistent h.sound _) fun hl => by cases hl
  | apply x =>
    unfold step at hs
    dsimp only at hs
    cases hr : x.callback s.hub with
    | error e => rw [hr] at hs; cases hs; exact h
    | ok y =>
      obtain ⟨applied, hub⟩ := y
      rw [hr] at hs
      cases hs
      obtain ⟨hsound, hrow⟩ := apply_row h.sound ho hr
      exact h.same hsound fun r hr' => ⟨r, hrow.trans hr', fun _ _ => rfl⟩
  | statement q =>
    cases hs
    have hsound : Sound (q.exec SCHEMA s.hub) := Statement.exec_consistent h.sound q
    have hkeeps : q.Keeps SCHEMA rank .devices MODULE_COLUMNS fun _ => True := ho
    exact h.same hsound fun r hr =>
      kept_row hsound (Statement.exec_kept hkeeps schema_ranked s.hub) hr

/-- In every orderly run. -/
theorem tracked_reachable (h : (tracking agentId name).ReachableBy (Orderly agentId name) s) :
    Tracked agentId name s :=
  h.invariant (fun _ hs => tracked_start hs) fun _ _ _ hi ho hs => tracked_step hi ho hs

end Steps

/-! ## What the row says of the last sample -/

section Follows

variable {w : Reporter} {sent x y : Sample} {r : HubRow}

theorem payload_get (w : Reporter) (x : Sample) {key : String} (hkey : key ∈ DESCRIBED) :
    Frame.get (x.payload w.name w.lowVoltageMv) key = x.state.describe.get key := by
  have hall : ∀ key ∈ DESCRIBED, key ∉ ["device", "ts", "port", "low_voltage_mv"] := by decide
  exact get_append [("device", .str w.name), ("ts", .str x.ts), ("port", .str x.port),
    ("low_voltage_mv", .int w.lowVoltageMv)] (hall key hkey)

@[simp] theorem reading_optional (n : Option Int) : reading (optionValue .int n) = n := by
  cases n with
  | none => rfl
  | some n => rfl

/-- The watched fields of two samples close to the one that was sent. -/
theorem Near.agree (h : Near w sent x) (h' : Near w sent y) (key : String) (hw : key ∈ WATCHED)
    (hd : key ∈ DESCRIBED) : x.state.describe.get key = y.state.describe.get key := by
  have hx := Close.watched h key hw
  have hy := Close.watched h' key hw
  rw [payload_get w x hd] at hx
  rw [payload_get w y hd] at hy
  exact hx.symm.trans hy

theorem Near.port (h : Near w sent x) (h' : Near w sent y) : x.port = y.port := by
  have hx : Value.str sent.port = .str x.port := Close.watched h "port" (by decide)
  have hy : Value.str sent.port = .str y.port := Close.watched h' "port" (by decide)
  exact Value.str.inj (hx.symm.trans hy)

theorem Near.rssi (h : Near w sent x) : Within RSSI_NOISE_FLOOR sent.state.rssi x.state.rssi := by
  have hr : Within RSSI_NOISE_FLOOR (reading (optionValue .int sent.state.rssi))
    (reading (optionValue .int x.state.rssi)) := Close.rssi h
  rwa [reading_optional, reading_optional] at hr

theorem Near.voltage (h : Near w sent x) :
    Within VOLTAGE_NOISE_MV sent.state.voltageMv x.state.voltageMv := by
  have hv : Within VOLTAGE_NOISE_MV (reading (optionValue .int sent.state.voltageMv))
    (reading (optionValue .int x.state.voltageMv)) := Close.voltage h
  rwa [reading_optional, reading_optional] at hv

theorem Near.side (h : Near w sent x) : ∀ a ∈ sent.state.voltageMv, ∀ b ∈ x.state.voltageMv,
    (a < w.lowVoltageMv ↔ b < w.lowVoltageMv) := by
  have hs : ∀ a ∈ reading (optionValue .int sent.state.voltageMv),
    ∀ b ∈ reading (optionValue .int x.state.voltageMv),
      (a < w.lowVoltageMv ↔ b < w.lowVoltageMv) := Close.side h
  rwa [reading_optional, reading_optional] at hs

/-- Two samples close to the one that was sent have supply voltages on the same side of the
    threshold. -/
theorem Near.same_side (h : Near w sent x) (h' : Near w sent y) : ∀ a ∈ x.state.voltageMv,
    ∀ b ∈ y.state.voltageMv, (a < w.lowVoltageMv ↔ b < w.lowVoltageMv) := by
  intro a ha b hb
  have hv := h.voltage
  cases hsent : sent.state.voltageMv with
  | none =>
    rw [hsent, ha] at hv
    exact hv.elim
  | some c => exact (h.side c hsent a ha).symm.trans (h'.side c hsent b hb)

/-- The row agrees with a sample: the watched fields exactly (of a name or a port that is blank it
    keeps the last one), the readings up to noise, and the supply voltage on its side of the
    threshold. -/
structure Follows (threshold : Int) (r : HubRow) (s : Sample) : Prop where
  flags    : ∀ x ∈ DEVICE_FLAGS, r.cells x.2 = cellOf (flagOrNull (s.state.describe.get x.1))
  bits     : ∀ x ∈ DEVICE_BITS, r.cells x.2 = flag (s.state.describe.get x.1).truthy
  storage  : r.cells .storageUsed = integer s.state.storageUsed
  operator : s.state.operator ≠ "" → r.cells .operator = text s.state.operator
  port     : s.port ≠ "" → r.cells .port = text s.port
  rssi     : ∃ n, r.cells .rssi = Server.optional n ∧
    Within (RSSI_NOISE_FLOOR + RSSI_NOISE_FLOOR) n s.state.rssi
  voltage  : ∃ n, r.cells .voltageMv = Server.optional n ∧
    Within (VOLTAGE_NOISE_MV + VOLTAGE_NOISE_MV) n s.state.voltageMv ∧
    ∀ a ∈ n, ∀ b ∈ s.state.voltageMv, (a < threshold ↔ b < threshold)

theorem follows_of_near (hr : Shows r x) (hx : Near w sent x) (hy : Near w sent y) :
    Follows w.lowVoltageMv r y := by
  have hflags : ∀ z ∈ DEVICE_FLAGS, z.1 ∈ WATCHED ∧ z.1 ∈ DESCRIBED := by decide
  have hbits : ∀ z ∈ DEVICE_BITS, z.1 ∈ WATCHED ∧ z.1 ∈ DESCRIBED := by decide
  refine ⟨fun z hz => ?_, fun z hz => ?_, ?_, fun hne => ?_, fun hne => ?_, ⟨_, hr.rssi, ?_⟩,
    ⟨_, hr.voltage, ?_, hx.same_side hy⟩⟩
  · rw [hr.flags z hz, hx.agree hy z.1 (hflags z hz).1 (hflags z hz).2]
  · rw [hr.bits z hz, hx.agree hy z.1 (hbits z hz).1 (hbits z hz).2]
  · have hs : Value.int x.state.storageUsed = .int y.state.storageUsed :=
      hx.agree hy "storage_used" (by decide) (by decide)
    rw [hr.storage, Value.int.inj hs]
  · have ho : Value.str x.state.operator = .str y.state.operator :=
      hx.agree hy "operator" (by decide) (by decide)
    rw [← Value.str.inj ho] at hne ⊢
    exact hr.operator hne
  · rw [← hx.port hy] at hne ⊢
    exact hr.port hne
  · exact hx.rssi.symm.trans hy.rssi
  · exact hx.voltage.symm.trans hy.voltage

/-! ## What is said of the faults -/

/-- What a status frame says of the registration, by the fields it depends on. -/
theorem toldRegistration_congr {E : Env} {agentId : String} {frame frame' : Frame}
    (hdevice : frame.getD "device" (.str "") = frame'.getD "device" (.str ""))
    (hhas : frame.has "registered" = frame'.has "registered")
    (honline : frame.get "online" = frame'.get "online")
    (hradio : frame.get "radio_enabled" = frame'.get "radio_enabled")
    (hregistered : frame.get "registered" = frame'.get "registered") :
    Incidents.toldRegistration E agentId frame = Incidents.toldRegistration E agentId frame' := by
  unfold Incidents.toldRegistration Incidents.registrationFault Incidents.sendFault sendFingerprint
    offline
  rw [hdevice, hhas, honline, hradio, hregistered]

theorem toInt_optional (n : Option Int) : (toInt (optionValue .int n)).toOption = n := by
  cases n with
  | none => rfl
  | some n => rfl

/-- What a report says of the supply voltage. -/
theorem toldVoltage_event (E : Env) (agentId name : String) (threshold : Int) (x : Sample)
    (seq : Nat) : Incidents.toldVoltage E agentId ((x.event name threshold).frame seq) =
      x.state.voltageMv.elim [] fun voltage =>
        if threshold = 0 then []
        else [(Incidents.voltageFault E agentId ((x.event name threshold).frame seq),
          x.state.online && decide (voltage < threshold))] := by
  have hoff : offline ((x.event name threshold).frame seq) = !x.state.online := by
    show decide (Value.bool x.state.online = .bool false) = _
    cases x.state.online with
    | true => decide
    | false => decide
  have hvoltage : (toInt (((x.event name threshold).frame seq).get "voltage_mv")).toOption =
      x.state.voltageMv := toInt_optional x.state.voltageMv
  have hlow : (toInt (((x.event name threshold).frame seq).get "low_voltage_mv")).toOption =
      some threshold := rfl
  unfold Incidents.toldVoltage
  rw [hoff, Bool.not_not, hvoltage, hlow]
  cases x.state.voltageMv with
  | none => rfl
  | some v => rfl

/-- **A sample that is close to the one that was sent says the same of every fault.** -/
theorem Near.told (h : Near w sent x) (E : Env) (agentId : String) (seq seq' : Nat) :
    Incidents.told E agentId "status" ((sent.event w.name w.lowVoltageMv).frame seq) =
      Incidents.told E agentId "status" ((x.event w.name w.lowVoltageMv).frame seq') := by
  have hself : Near w sent sent := .refl _ _
  have honline := hself.agree h "online" (by decide) (by decide)
  have hradio := hself.agree h "radio_enabled" (by decide) (by decide)
  have hregistered := hself.agree h "registered" (by decide) (by decide)
  show Incidents.toldRegistration _ _ _ ++ Incidents.toldVoltage _ _ _ =
    Incidents.toldRegistration _ _ _ ++ Incidents.toldVoltage _ _ _
  have hwords : Incidents.toldRegistration E agentId
        ((sent.event w.name w.lowVoltageMv).frame seq) =
      Incidents.toldRegistration E agentId ((x.event w.name w.lowVoltageMv).frame seq') :=
    toldRegistration_congr rfl rfl honline hradio hregistered
  rw [hwords, toldVoltage_event, toldVoltage_event, Value.bool.inj honline]
  congr 1
  have hv := h.voltage
  have hs := h.side
  cases hsent : sent.state.voltageMv with
  | none =>
    cases hx : x.state.voltageMv with
    | none => rfl
    | some b =>
      rw [hsent, hx] at hv
      exact hv.elim
  | some a =>
    cases hx : x.state.voltageMv with
    | none =>
      rw [hsent, hx] at hv
      exact hv.elim
    | some b =>
      show (if _ then _ else [(_, _ && decide (a < w.lowVoltageMv))]) = _
      rw [decide_eq_decide.mpr (hs a hsent b hx)]
      rfl

end Follows

/-! ## The results -/

variable {agentId name : String} {s : State} {sent : Sample}

/-- A sample of a module that has registered. -/
def registeredSample (voltage : Int) : Sample where
  ts    := "2026-01-01T00:00:00+00:00"
  port  := "/dev/ttyACM0"
  state := {
    online := true, registered := true, radioEnabled := some true, operator := "CMCC"
    iccid := "", imei := "", model := "", hardwareModel := "", firmware := "", smsc := ""
    epsRegistered := some true, csRegistered := none, imsRegistered := none, dataEnabled := false
    dataAttached := none, pdpActive := none, roaming := some false, roamingDataAllowed := false
    dataBlockedByRoaming := false, rssi := some 20, dbm := some (-73), bars := 3, rsrp := none
    rsrq := none, storageUsed := 0, storageCapacity := 50, voltageMv := some voltage }

/-- The first sample is sent and the second, a little later, is not. -/
theorem registered_reached : ∃ s,
    (tracking "home" "m1").ReachableBy (Orderly "home" "m1") s ∧ s.link = true ∧ s.queue = [] ∧
      s.reporter.last = some (registeredSample 3800) ∧
      s.sampled = some (registeredSample 3790) := by
  have hstart : (tracking "home" "m1").ReachableBy (Orderly "home" "m1")
      ⟨.init "m1" 0, none, 0, [], false, Db.empty⟩ := .start ⟨.empty, rfl, rfl, rfl, 0, rfl⟩
  let E : Env :=
    ⟨"2026-01-01T00:00:00+00:00", fun _ => none, fun _ => "", fun _ => "", fun _ => ""⟩
  have hsampled := hstart.path (.single (a := .sample 0 false (registeredSample 3800))
    (G := Orderly "home" "m1") trivial rfl)
  have hlinked := hsampled.path (.single (a := .hello E "SIM" (registeredSample 3800)) (.inr rfl) rfl)
  have happlied := hlinked.path (.single (a := .deliver E 1 "e1" "s1") trivial rfl)
  have hheld := happlied.path (.single (a := .sample 30 false (registeredSample 3790)) trivial
    (step_held "home" "m1" (statusWorthSending_eq_false.mpr ⟨registeredSample 3800, rfl, ?_, ?_⟩)))
  · exact ⟨_, hheld, rfl, rfl, rfl, rfl⟩
  · show (30 : Rat) - 0 < 900
    rw [sub_zero]
    decide
  · exact ⟨by decide, show _ < _ by decide, show _ < _ by decide, by decide⟩

/-- **No fault is held back.**  In every orderly run, the report that was sent last says of every
    fault what a report of the last sample would say. -/
theorem told_same (h : (tracking agentId name).ReachableBy (Orderly agentId name) s)
    (hsent : s.reporter.last = some sent) (E : Env) (seq seq' : Nat) :
    ∃ x, s.sampled = some x ∧
      Incidents.told E agentId "status" ((sent.event name s.reporter.lowVoltageMv).frame seq) =
        Incidents.told E agentId "status" ((x.event name s.reporter.lowVoltageMv).frame seq') := by
  have hi := tracked_reachable h
  obtain ⟨x, hx, hnear, -⟩ := hi.sampled sent hsent
  have ht := hnear.told E agentId seq seq'
  rw [hi.named] at ht
  exact ⟨x, hx, ht⟩

/-- The report that is not sent would say what the one that was sent says. -/
theorem registered_told : ∃ (E : Env) (threshold : Int),
    Incidents.told E "home" "status" (((registeredSample 3800).event "m1" threshold).frame 1) =
      Incidents.told E "home" "status" (((registeredSample 3790).event "m1" threshold).frame 2) := by
  let E : Env :=
    ⟨"2026-01-01T00:00:00+00:00", fun _ => none, fun _ => "", fun _ => "", fun _ => ""⟩
  obtain ⟨s, h, -, -, hsent, hsampled⟩ := registered_reached
  obtain ⟨x, hx, ht⟩ := told_same h hsent E 1 2
  obtain rfl : registeredSample 3790 = x := Option.some.inj (hsampled.symm.trans hx)
  exact ⟨E, s.reporter.lowVoltageMv, ht⟩

end Air780eHub.Status
