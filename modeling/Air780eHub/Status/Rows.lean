/-
  The row of a module: what `upsert_device` writes of a payload.

  1. **Parameters**: the cell a decoded value is stored as.
  2. **`upsertDevice_row`**: the row of the module has every column of the payload, and the rows of
     the other modules are as they were.
  3. **`Shows`**: the row shows a sample; both a status frame and a hello make it show one.
-/
import Air780eHub.Lib.Keyed
import Air780eHub.Server.ApplySafe
import Air780eHub.Server.Footprints
import Air780eHub.Status.Filter

namespace Air780eHub.Status

open Relational Server

variable {E : Env} {db db' : HubDb} {agentId : String}

/-! ## Parameters -/

/-- The cell of a value that sqlite3 can store. -/
def cellOf : Value → Option Cell
  | .null    => none
  | .bool b  => flag b
  | .int n   => integer n
  | .float t => realCell ((Schedule.pyFloat t.toList).getD .nan)
  | .str s   => text s
  | .arr _   => none
  | .obj _   => none

theorem bind_ok {v : Value} {c : Option Cell} (h : Server.bind v db = .ok (c, db')) :
    c = cellOf v ∧ db' = db := by
  cases v with
  | arr xs => cases h
  | obj fs => cases h
  | _ => cases h; exact ⟨rfl, rfl⟩

theorem bindAll_ok {xs : List (Column × Value)} {as : Assignments Column Cell}
    (h : bindAll xs db = .ok (as, db')) : as = xs.map (fun x => (x.1, cellOf x.2)) ∧ db' = db := by
  induction xs generalizing as db db' with
  | nil => cases h; exact ⟨rfl, rfl⟩
  | cons x xs ih =>
    obtain ⟨cell, db₁, hx, htail⟩ := of_bind_ok h
    obtain ⟨rest, db₂, hrest, hpure⟩ := of_bind_ok htail
    cases hpure
    obtain ⟨rfl, rfl⟩ := bind_ok hx
    obtain ⟨rfl, rfl⟩ := ih hrest
    exact ⟨rfl, rfl⟩

/-- Columns that are assigned once. -/
theorem assign_of_mem {as : Assignments Column Cell} {cells : Column → Option Cell} {c : Column}
    {v : Option Cell} (hn : (as.map Prod.fst).Nodup) (hm : (c, v) ∈ as) : assign as cells c = v := by
  have hl : as.lookup c = some v := by
    induction as with
    | nil => cases hm
    | cons a as ih =>
      obtain ⟨hfresh, hn⟩ := List.nodup_cons.mp hn
      rcases List.mem_cons.mp hm with rfl | hm
      · exact List.lookup_cons_self
      · rw [List.lookup_cons, beq_false_of_ne, ih hn hm]
        intro he
        exact hfresh (he ▸ List.mem_map_of_mem hm)
  rw [assign, hl]

/-! ## The row of a module -/

/-- A payload writes each column at most once. -/
theorem deviceColumns_sublist (payload : Frame) :
    ((deviceColumns payload).map Prod.fst).Sublist DEVICE_COLUMNS := by
  have hpresent : ∀ (f : Value → Value) (fields : List (String × Column)),
      ((present payload f fields).map Prod.fst).Sublist (fields.map Prod.snd) := by
    intro f fields
    unfold present
    rw [List.map_map]
    exact List.filter_sublist.map Prod.snd
  unfold deviceColumns DEVICE_COLUMNS
  simp only [List.map_append]
  refine ((((hpresent _ _).append (hpresent _ _)).append (hpresent _ _)).append
    (hpresent _ _)).append ?_
  rw [List.map_map]
  exact List.filter_sublist.map Prod.snd

theorem deviceColumns_nodup (payload : Frame) : ((deviceColumns payload).map Prod.fst).Nodup :=
  (deviceColumns_sublist payload).nodup (by decide)

/-- The key of a module. -/
def deviceKey (agentId : String) (name : Option Cell) : Column → Option Cell :=
  assign [(.agentId, text agentId), (.name, name)] fun _ => none

/-- The row of a module. -/
def deviceOf (db : HubDb) (agentId : String) (name : Option Cell) : Option HubRow :=
  db.at .devices [.agentId, .name] (deviceKey agentId name)

/-- The name of a module in a payload. -/
def payloadName (payload : Frame) : Option Cell := cellOf (payload.getD "name" (.str ""))

/-- Every column the statement may write, in their order. -/
def STATEMENT_COLUMNS : List Column :=
  .agentId :: .name :: .lastSeenAt :: (DEVICE_COLUMNS ++ [.simId])

theorem simColumn_ok {payload : Frame} {sim : Assignments Column Cell}
    (h : simColumn E payload db = .ok (sim, db')) : (sim.map Prod.fst).Sublist [Column.simId] := by
  unfold simColumn at h
  split at h
  · obtain ⟨i, db₁, -, hpure⟩ := of_bind_ok h
    cases hpure
    exact List.Sublist.refl _
  · cases h
    exact List.nil_sublist _

/-- What the statement writes over a row that is there. -/
def refreshed (E : Env) (payload : Frame) (sim : Assignments Column Cell) :
    Assignments Column Cell :=
  (.lastSeenAt, text E.utcnow) ::
    ((deviceColumns payload).map (fun x => (x.1, cellOf x.2)) ++ sim)

section Refreshed

variable {payload : Frame} {sim : Assignments Column Cell}

theorem refreshed_sublist (hsim : (sim.map Prod.fst).Sublist [Column.simId]) :
    ((refreshed E payload sim).map Prod.fst).Sublist
      (.lastSeenAt :: (DEVICE_COLUMNS ++ [.simId])) := by
  unfold refreshed
  rw [List.map_cons, List.map_append, List.map_map]
  exact ((deviceColumns_sublist payload).append hsim).cons_cons _

/-- The key is not written. -/
theorem refreshed_free (hsim : (sim.map Prod.fst).Sublist [Column.simId]) :
    ∀ x ∈ refreshed E payload sim, x.1 ∉ [Column.agentId, .name] := by
  intro x hx hkey
  have hmem := (refreshed_sublist hsim).subset (List.mem_map_of_mem hx)
  have hdisjoint : ∀ c ∈ [Column.agentId, .name], c ∉ Column.lastSeenAt :: (DEVICE_COLUMNS ++ [.simId]) := by
    decide
  exact hdisjoint x.1 hkey hmem

theorem statement_nodup (hsim : (sim.map Prod.fst).Sublist [Column.simId]) (a n : Option Cell) :
    (((Column.agentId, a) :: (Column.name, n) :: refreshed E payload sim).map Prod.fst).Nodup := by
  have hr : ((refreshed E payload sim).map Prod.fst).Sublist _ := refreshed_sublist hsim
  exact ((hr.cons_cons Column.name).cons_cons Column.agentId).nodup (by decide)

theorem mem_refreshed {x : Column × Value} (hx : x ∈ deviceColumns payload) :
    (x.1, cellOf x.2) ∈ refreshed E payload sim :=
  List.mem_cons_of_mem _ (List.mem_append_left _ (List.mem_map_of_mem (f := fun x : Column × Value =>
    (x.1, cellOf x.2)) hx))

end Refreshed

/-- **What `upsert_device` does to the table.**  The row of the module has the columns of the
    payload, and the row of any other module is as it was. -/
theorem upsertDevice_row {payload : Frame} {i : Nat} (hdb : Sound db)
    (h : upsertDevice E agentId payload db = .ok (i, db')) :
    Sound db' ∧
    ((payloadName payload).isSome → ∃ r, deviceOf db' agentId (payloadName payload) = some r ∧
      ∀ x ∈ deviceColumns payload, r.cells x.1 = cellOf x.2) ∧
    ∀ agentId' name, (agentId', name) ≠ (agentId, payloadName payload) →
      deviceOf db' agentId' name = deviceOf db agentId' name := by
  have hsound : Sound db' := (touches_upsertDevice payload db i db' h).consistent hdb
  obtain ⟨sim, db₁, hsim, h₁⟩ := of_bind_ok h
  obtain ⟨name, db₂, hname, h₂⟩ := of_bind_ok h₁
  obtain ⟨cells, db₃, hcells, h₃⟩ := of_bind_ok h₂
  obtain ⟨u, db₄, hup, h₄⟩ := of_bind_ok h₃
  obtain ⟨row, db₅, hone, h₅⟩ := of_bind_ok h₄
  obtain ⟨rfl, rfl⟩ := bind_ok hname
  obtain ⟨rfl, rfl⟩ := bindAll_ok hcells
  have hread : db₅ = db₄ := by cases hone; rfl
  subst hread
  have hlast : db' = db₅ := by
    cases row with
    | some r => cases h₅; rfl
    | none => cases h₅
  subst hlast
  have hsame : SameTable Table.devices db db₃ :=
    (touches_simColumn payload).leaves (by decide) db sim db₃ hsim
  have hdb₃ : Sound db₃ := (touches_simColumn payload db sim db₃ hsim).consistent hdb
  have hsub := simColumn_ok hsim
  have hset : ∀ r : HubRow, ∀ x ∈ (fun _ => refreshed E payload sim) r, x.1 ∉ [Column.agentId, .name] :=
    fun _ => refreshed_free hsub
  have hu : SCHEMA.upsert .devices [.agentId, .name] ((.agentId, text agentId) ::
      (.name, payloadName payload) :: refreshed E payload sim) (fun _ => refreshed E payload sim) db₃ =
      .ok (u, db') := of_sql_ok hup
  have hkey : ∀ c ∈ [Column.agentId, .name], assign ((.agentId, text agentId) ::
      (.name, payloadName payload) :: refreshed E payload sim) (SCHEMA.defaults .devices) c =
      deviceKey agentId (payloadName payload) c := by
    intro c hc
    rcases List.mem_cons.mp hc with rfl | hc
    · rfl
    · obtain rfl := List.mem_singleton.mp hc
      rfl
  refine ⟨hsound, fun hname => ?_, fun agentId' name hne => ?_⟩
  · have hself := at_upsert_self hset (fun c hc => ?_) hu
    · rw [at_congr hkey] at hself
      refine ⟨_, hself, fun x hx => ?_⟩
      unfold upserted
      split
      · exact assign_of_mem (statement_nodup hsub none none).tail.tail (mem_refreshed hx)
      · refine assign_of_mem (statement_nodup hsub _ _) ?_
        exact List.mem_cons_of_mem _ (List.mem_cons_of_mem _ (mem_refreshed hx))
    · rw [hkey c hc]
      rcases List.mem_cons.mp hc with rfl | hc
      · rfl
      · obtain rfl := List.mem_singleton.mp hc
        exact hname
  · unfold deviceOf
    rw [at_upsert_ne hdb₃ hset hu, at_of_rows hsame.rows]
    rw [Bool.eq_false_iff, Ne, sameKey_iff]
    intro hk
    obtain ⟨-, ha⟩ := hk .agentId List.mem_cons_self
    obtain ⟨-, hn⟩ := hk .name (List.mem_cons_of_mem _ List.mem_cons_self)
    rw [hkey .agentId List.mem_cons_self] at ha
    rw [hkey .name (List.mem_cons_of_mem _ List.mem_cons_self)] at hn
    have hagent : agentId = agentId' := text_inj.mp ha
    have hother : payloadName payload = name := hn
    exact hne (by rw [hagent, hother])

/-! ## Samples -/

/-- The columns that show a sample. -/
def TRACKED : List Column :=
  DEVICE_FLAGS.map Prod.snd ++ DEVICE_BITS.map Prod.snd ++
    [.storageUsed, .operator, .port, .rssi, .voltageMv]

/-- The row shows a sample; of a name or a port that is blank it keeps the last one it had. -/
structure Shows (r : HubRow) (s : Sample) : Prop where
  flags    : ∀ x ∈ DEVICE_FLAGS, r.cells x.2 = cellOf (flagOrNull (s.state.describe.get x.1))
  bits     : ∀ x ∈ DEVICE_BITS, r.cells x.2 = flag (s.state.describe.get x.1).truthy
  storage  : r.cells .storageUsed = integer s.state.storageUsed
  operator : s.state.operator ≠ "" → r.cells .operator = text s.state.operator
  port     : s.port ≠ "" → r.cells .port = text s.port
  rssi     : r.cells .rssi = Server.optional s.state.rssi
  voltage  : r.cells .voltageMv = Server.optional s.state.voltageMv

/-- The fields of a state. -/
def DESCRIBED : List String :=
  ["online", "registered", "radio_enabled", "operator", "iccid", "imei", "model", "hardware_model",
   "firmware", "smsc", "eps_registered", "cs_registered", "ims_registered", "data_enabled",
   "data_attached", "pdp_active", "roaming", "roaming_data_allowed", "data_blocked_by_roaming",
   "rssi", "dbm", "bars", "rsrp", "rsrq", "storage_used", "storage_capacity", "voltage_mv"]

theorem describe_keys (s : DeviceState) : s.describe.map Prod.fst = DESCRIBED := rfl

/-- A payload with the fields of a state and a port. -/
structure Describes (payload : Frame) (s : Sample) : Prop where
  has  : ∀ key ∈ DESCRIBED, payload.has key = true
  get  : ∀ key ∈ DESCRIBED, payload.get key = s.state.describe.get key
  port : payload.get "port" = .str s.port

theorem get_append (pre : Frame) {rest : Frame} {key : String} (h : key ∉ pre.map Prod.fst) :
    Frame.get (pre ++ rest) key = rest.get key := by
  induction pre with
  | nil => rfl
  | cons x pre ih =>
    rw [List.map_cons, List.mem_cons, not_or] at h
    show (if x.1 = key then x.2 else Frame.get (pre ++ rest) key) = _
    rw [if_neg (Ne.symm h.1), ih h.2]

/-- Fields in front of a state. -/
theorem describes_append (pre : Frame) {s : Sample}
    (hpre : ∀ key ∈ DESCRIBED, key ∉ pre.map Prod.fst)
    (hport : pre.get "port" = .str s.port) (hp : "port" ∈ pre.map Prod.fst) :
    Describes (pre ++ s.state.describe) s where
  has := by
    intro key hkey
    rw [← describe_keys s.state] at hkey
    obtain ⟨x, hx, rfl⟩ := List.mem_map.mp hkey
    exact List.any_eq_true.mpr ⟨x, List.mem_append_right _ hx, beq_self_eq_true _⟩
  get := fun key hkey => get_append pre (hpre key hkey)
  port := by
    rw [← hport]
    clear hport hpre
    induction pre with
    | nil => cases hp
    | cons x pre ih =>
      show (if x.1 = "port" then x.2 else Frame.get (pre ++ s.state.describe) "port") =
        if x.1 = "port" then x.2 else Frame.get pre "port"
      by_cases hx : x.1 = "port"
      · rw [if_pos hx, if_pos hx]
      · rw [if_neg hx, if_neg hx]
        exact ih ((List.mem_cons.mp hp).resolve_left (Ne.symm hx))

/-- The row of a payload shows what the payload describes. -/
theorem shows_of_columns {payload : Frame} {s : Sample} {r : HubRow} (hd : Describes payload s)
    (hr : ∀ x ∈ deviceColumns payload, r.cells x.1 = cellOf x.2) : Shows r s := by
  have hpresent : ∀ (f : Value → Value) (fields : List (String × Column)),
      present payload f fields ⊆ deviceColumns payload → ∀ x ∈ fields, x.1 ∈ DESCRIBED →
        r.cells x.2 = cellOf (f (s.state.describe.get x.1)) := by
    intro f fields hsub x hx hkey
    rw [← hd.get x.1 hkey]
    exact hr (x.2, f (payload.get x.1)) (hsub (List.mem_map_of_mem (f := fun x : String × Column =>
      (x.2, f (payload.get x.1))) (List.mem_filter.mpr ⟨hx, hd.has x.1 hkey⟩)))
  have hidentity : ∀ (x : String × Column) (text : String), x ∈ DEVICE_IDENTITY →
      payload.get x.1 = .str text → text ≠ "" → r.cells x.2 = Server.text text := by
    intro x text hx hget hne
    have htruthy : (payload.get x.1).truthy = true := by
      rw [hget]
      exact bne_iff_ne.mpr hne
    have hmem : x ∈ DEVICE_IDENTITY.filter fun x => (payload.get x.1).truthy :=
      List.mem_filter.mpr ⟨hx, htruthy⟩
    have hcell := hr (x.2, payload.get x.1) (List.mem_append_right _ (List.mem_map_of_mem
      (f := fun x : String × Column => (x.2, payload.get x.1)) hmem))
    rw [hget] at hcell
    exact hcell
  have hflags : present payload flagOrNull DEVICE_FLAGS ⊆ deviceColumns payload := fun x hx =>
    List.mem_append_left _ (List.mem_append_left _ (List.mem_append_left _
      (List.mem_append_left _ hx)))
  have hbits : present payload (fun v => .int (if v.truthy then 1 else 0)) DEVICE_BITS ⊆
      deviceColumns payload := fun x hx =>
    List.mem_append_left _ (List.mem_append_left _ (List.mem_append_left _
      (List.mem_append_right _ hx)))
  have hreadings : present payload id DEVICE_READINGS ⊆ deviceColumns payload := fun x hx =>
    List.mem_append_left _ (List.mem_append_left _ (List.mem_append_right _ hx))
  have hcounts : present payload (fun v => pyOr v (.int 0)) DEVICE_COUNTS ⊆ deviceColumns payload :=
    fun x hx => List.mem_append_left _ (List.mem_append_right _ hx)
  refine ⟨fun x hx => hpresent _ _ hflags x hx ?_, fun x hx => ?_, ?_, fun hne => ?_, fun hne => ?_,
    ?_, ?_⟩
  · have hall : ∀ x ∈ DEVICE_FLAGS, x.1 ∈ DESCRIBED := by decide
    exact hall x hx
  · have hall : ∀ x ∈ DEVICE_BITS, x.1 ∈ DESCRIBED := by decide
    exact hpresent _ _ hbits x hx (hall x hx)
  · rw [hpresent _ _ hcounts ("storage_used", .storageUsed) (by decide) (by decide)]
    show cellOf (pyOr (.int s.state.storageUsed) (.int 0)) = integer s.state.storageUsed
    unfold pyOr
    split
    · rfl
    · rename_i hzero
      have hz : (s.state.storageUsed : Int) = 0 := by
        by_contra hne
        exact hzero (bne_iff_ne.mpr hne)
      rw [hz]
      rfl
  · exact hidentity ("operator", .operator) s.state.operator (by decide)
      (hd.get "operator" (by decide)) hne
  · exact hidentity ("port", .port) s.port (by decide) hd.port hne
  · rw [hpresent _ _ hreadings ("rssi", .rssi) (by decide) (by decide)]
    show cellOf (optionValue .int s.state.rssi) = _
    cases s.state.rssi with
    | none => rfl
    | some n => rfl
  · rw [hpresent _ _ hreadings ("voltage_mv", .voltageMv) (by decide) (by decide)]
    show cellOf (optionValue .int s.state.voltageMv) = _
    cases s.state.voltageMv with
    | none => rfl
    | some n => rfl

/-! ### Payloads -/

/-- What `upsert_device` is given for a status frame. -/
def statusPayload (name : String) (lowVoltageMv : Int) (s : Sample) (seq : Nat) : Frame :=
  ("name", .str name) :: (s.event name lowVoltageMv).frame seq

/-- `Worker.describe`, as a hello carries it. -/
def helloPayload (name label : String) (s : Sample) : Frame :=
  [("name", .str name), ("label", .str label), ("port", .str s.port)] ++ s.state.describe

theorem statusPayload_describes (name : String) (lowVoltageMv : Int) (s : Sample) (seq : Nat) :
    Describes (statusPayload name lowVoltageMv s seq) s :=
  describes_append [("name", .str name), ("type", .str "status"), ("seq", .int seq),
    ("device", .str name), ("ts", .str s.ts), ("port", .str s.port),
    ("low_voltage_mv", .int lowVoltageMv)]
    (show ∀ key ∈ DESCRIBED, key ∉ ["name", "type", "seq", "device", "ts", "port", "low_voltage_mv"] by
      decide) rfl (show "port" ∈ ["name", "type", "seq", "device", "ts", "port", "low_voltage_mv"] by
      decide)

theorem helloPayload_describes (name label : String) (s : Sample) :
    Describes (helloPayload name label s) s :=
  describes_append [("name", .str name), ("label", .str label), ("port", .str s.port)]
    (show ∀ key ∈ DESCRIBED, key ∉ ["name", "label", "port"] by decide) rfl
    (show "port" ∈ ["name", "label", "port"] by decide)

end Air780eHub.Status
