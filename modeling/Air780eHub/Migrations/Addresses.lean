/-
  The migrations that give events and tasks a better address.

  `_migration_event_stream_epoch` rebuilds `ingested` under a key with the event stream.
  `_migration_task_device_id` pins every task to a module: the only one its name can mean.  A task
  whose name can mean several modules is disabled and named in an incident.

  1. **Event streams** (`rebuild_ok`).
  2. **Tasks**: `pinned`, one turn and the loop.
  3. **The incident.**
-/
import Air780eHub.Migrations.Widening
import Air780eHub.Server.ApplySafe

namespace Air780eHub.Migrations

open Relational Autocommit

variable {f : File} {d : TableData} {E : Server.Env}

/-! ## Event streams -/

/-- The key `ingested` had before. -/
def oldIngestKey (r : Column → Option Server.Cell) : List (Option Server.Cell) :=
  [r (.hub .agentId), r (.hub .seq)]

theorem ingestKey_withoutStream (r : FileRow) : ingestKey (withoutStream r).cells =
    [r.cells (.hub .agentId), Server.text "", r.cells (.hub .seq)] := rfl

/-- The stream is the same for all, so it makes no two rows collide. -/
theorem collide_withoutStream (r r' : FileRow) :
    collide ingestKey (withoutStream r) (withoutStream r') = collide oldIngestKey r r' := by
  rw [collide, collide, ingestKey_withoutStream, ingestKey_withoutStream, Bool.eq_iff_iff]
  simp [oldIngestKey, Server.text]

theorem distinct_withoutStream {rows : List FileRow} (h : distinct oldIngestKey rows = true) :
    distinct ingestKey (rows.map withoutStream) = true := by
  induction rows with
  | nil => rfl
  | cons r rs ih =>
    rw [distinct, Bool.and_eq_true] at h
    rw [List.map_cons, distinct, Bool.and_eq_true]
    refine ⟨?_, ih h.2⟩
    rw [List.all_map, List.all_eq_true]
    intro r' hr'
    rw [Function.comp_apply, collide_withoutStream]
    exact List.all_eq_true.mp h.1 r' hr'

/-- The columns that are copied. -/
def INGESTED_BEFORE : List Column := [.hub .agentId, .hub .seq, .hub .kind, .at]

/-- **The rebuild** puts every row of `ingested` under the key of its agent, the empty stream and
    its number. -/
theorem rebuild_ok (hd : f.tables .ingested = some d) (hnone : f.tables .ingestedV14 = none)
    (hcols : ∀ c ∈ INGESTED_BEFORE, c ∈ d.columns) (hkeys : distinct oldIngestKey d.rows = true) :
    (do run (createTable .ingestedV14)
        run copyIngested
        run (dropTable .ingested)
        run (renameTable .ingestedV14 .ingested)).plain f =
      .ok ((), f.setTable .ingested
        (some ⟨names .ingestedV14, d.rows.map withoutStream, d.seq⟩)) := by
  have hne : Table.ingested ≠ .ingestedV14 := nofun
  have h₁ : (run (createTable .ingestedV14)).plain f =
      .ok ((), f.setTable .ingestedV14 (some (newTable .ingestedV14))) := by
    rw [run, Program.plain_statement, createTable, hnone]
  have h₂ : (run copyIngested).plain (f.setTable .ingestedV14 (some (newTable .ingestedV14))) =
      .ok ((), f.setTable .ingestedV14
        (some ⟨names .ingestedV14, d.rows.map withoutStream, d.seq⟩)) := by
    have hall : (INGESTED_BEFORE.all fun c => d.columns.contains c) = true :=
      List.all_eq_true.mpr fun c hc => List.contains_iff_mem.mpr (hcols c hc)
    have hput : onTable .ingestedV14 (names .ingestedV14) (fun new =>
        if distinct ingestKey (new.rows ++ d.rows.map withoutStream) then
          .ok ((), { new with rows := new.rows ++ d.rows.map withoutStream, seq := d.seq })
        else .error .integrity) (f.setTable .ingestedV14 (some (newTable .ingestedV14))) = .ok ((), _) :=
      onTable_ok (setTable_self _) (fun _ hc => hc) (if_pos (distinct_withoutStream hkeys))
    rw [run, Program.plain_statement, copyIngested, setTable_ne hne, hd]
    dsimp only
    rw [show [Column.hub .agentId, .hub .seq, .hub .kind, .at] = INGESTED_BEFORE from rfl,
      if_pos hall, hput, setTable_setTable]
    rfl
  have h₃ : (run (dropTable .ingested)).plain (f.setTable .ingestedV14
      (some ⟨names .ingestedV14, d.rows.map withoutStream, d.seq⟩)) =
      .ok ((), (f.setTable .ingestedV14
        (some ⟨names .ingestedV14, d.rows.map withoutStream, d.seq⟩)).setTable .ingested none) := by
    rw [run, Program.plain_statement]
    exact dropTable_ingested ((setTable_ne hne _).trans hd)
  rw [Program.plain_bind_ok h₁, Program.plain_bind_ok h₂, Program.plain_bind_ok h₃, run,
    Program.plain_statement, renameTable_ok ((setTable_ne hne.symm _).trans (setTable_self _))
      (setTable_self _), setTable_rebuilt hnone]

/-! ## Tasks -/

/-- A task after the migration, with the modules there are. -/
def pinned (devices : List FileRow) (r : FileRow) : FileRow :=
  if textOf (r.cells (.hub .device)) = "" then r
  else match devices.filter (candidates r) with
    | []       => r
    | [device] => ⟨r.id, assign [(.hub .deviceId, Server.integer device.id),
        (.hub .agentId, device.cells (.hub .agentId))] r.cells⟩
    | _        => ⟨r.id, assign [(.hub .enabled, Server.integer 0)] r.cells⟩

/-- A task whose name can mean several modules. -/
def ambiguous (devices : List FileRow) (r : FileRow) : Bool :=
  decide (2 ≤ (devices.filter (candidates r)).length)

@[simp] theorem pinned_id (devices : List FileRow) (r : FileRow) : (pinned devices r).id = r.id := by
  unfold pinned
  split
  · rfl
  · split <;> rfl

/-- The columns the loop reads and writes. -/
structure Pinnable (d dev : TableData) : Prop where
  device   : Column.hub .device ∈ d.columns
  deviceId : Column.hub .deviceId ∈ d.columns
  agentId  : Column.hub .agentId ∈ d.columns
  enabled  : Column.hub .enabled ∈ d.columns
  name     : Column.hub .name ∈ dev.columns
  agent    : Column.hub .agentId ∈ dev.columns

variable {dev : TableData} (hp : Pinnable d dev)

include hp in
/-- One turn of the loop. -/
theorem pinTask_ok {cur : List FileRow} {task : FileRow}
    (hf : f.tables (.hub .tasks) = some { d with rows := cur })
    (hdev : f.tables (.hub .devices) = some dev)
    (hself : ∀ r ∈ cur, r.id = task.id → r = task)
    (hname : textOf (task.cells (.hub .device)) ≠ "") :
    (pinTask task).plain f = .ok (ambiguous dev.rows task, f.setTable (.hub .tasks) (some { d with
      rows := cur.map fun r => if r.id = task.id then pinned dev.rows r else r })) := by
  have hselect : (run (select (.hub .devices) [.hub .name, .hub .agentId] (candidates task))).plain f =
      .ok (dev.rows.filter (candidates task), f) := by
    rw [run, Program.plain_statement]
    refine onTable_read hdev fun c hc => ?_
    rcases List.mem_cons.mp hc with rfl | hc
    · exact hp.name
    · rw [List.mem_singleton.mp hc]; exact hp.agent
  have hpinned : ∀ r ∈ cur, (if r.id = task.id then pinned dev.rows r else r) =
      if r.id = task.id then pinned dev.rows task else r := by
    intro r hr
    by_cases he : r.id = task.id
    · rw [if_pos he, if_pos he, hself r hr he]
    · rw [if_neg he, if_neg he]
  rw [pinTask, Program.plain_bind_ok hselect, List.map_congr_left hpinned, ambiguous]
  simp only [pinned, if_neg hname]
  cases hmatch : dev.rows.filter (candidates task) with
  | nil =>
    have hcur : (cur.map fun r => if r.id = task.id then task else r) = cur := by
      refine (List.map_congr_left fun r hr => ?_).trans (List.map_id cur)
      by_cases he : r.id = task.id
      · rw [if_pos he, ← hself r hr he]; rfl
      · rw [if_neg he]; rfl
    dsimp only
    rw [hcur, setTable_eq_self hf]
    rfl
  | cons device rest =>
    cases rest with
    | nil =>
      have hcols : ∀ c ∈ [Column.hub .deviceId, .hub .agentId], c ∈ d.columns := by
        intro c hc
        rcases List.mem_cons.mp hc with rfl | hc
        · exact hp.deviceId
        · rw [List.mem_singleton.mp hc]; exact hp.agentId
      dsimp only
      rw [Program.plain_bind_ok (update_ok hf hcols)]
      show Except.ok _ = _
      congr 5
      refine List.map_congr_left fun r hr => ?_
      by_cases he : r.id = task.id
      · rw [if_pos (beq_iff_eq.mpr he), if_pos he, hself r hr he]
      · rw [if_neg (by simpa using he), if_neg he]
    | cons other rest =>
      have hcols : ∀ c ∈ [Column.hub .enabled], c ∈ d.columns :=
        fun c hc => List.mem_singleton.mp hc ▸ hp.enabled
      dsimp only
      rw [Program.plain_bind_ok (update_ok hf hcols)]
      show Except.ok _ = _
      have htwo : decide (2 ≤ (device :: other :: rest).length) = true := decide_eq_true (by simp)
      rw [htwo]
      congr 5
      refine List.map_congr_left fun r hr => ?_
      by_cases he : r.id = task.id
      · rw [if_pos (beq_iff_eq.mpr he), if_pos he, hself r hr he]
      · rw [if_neg (by simpa using he), if_neg he]

include hp in
/-- The loop over some of the tasks: each of them is pinned, the others stay. -/
theorem pinTasks_ok {tasks cur : List FileRow}
    (hf : f.tables (.hub .tasks) = some { d with rows := cur })
    (hdev : f.tables (.hub .devices) = some dev)
    (hself : ∀ r ∈ cur, ∀ task ∈ tasks, r.id = task.id → r = task)
    (hnodup : (tasks.map Row.id).Nodup)
    (hnames : ∀ task ∈ tasks, textOf (task.cells (.hub .device)) ≠ "") :
    (pinTasks tasks).plain f = .ok (tasks.filter (ambiguous dev.rows),
      f.setTable (.hub .tasks) (some { d with
        rows := cur.map fun r => if r.id ∈ tasks.map Row.id then pinned dev.rows r else r })) := by
  induction tasks generalizing f cur with
  | nil =>
    have hcur : (cur.map fun r => if r.id ∈ ([] : List FileRow).map Row.id then pinned dev.rows r
        else r) = cur := by simp
    rw [hcur, setTable_eq_self hf]
    rfl
  | cons task tasks ih =>
    obtain ⟨hnew, hrest⟩ := List.nodup_cons.mp hnodup
    have hone := pinTask_ok hp hf hdev (fun r hr => hself r hr task List.mem_cons_self)
      (hnames task List.mem_cons_self)
    have hne : Table.hub .devices ≠ .hub .tasks := by decide
    have htail := ih (f := f.setTable (.hub .tasks) (some { d with
        rows := cur.map fun r => if r.id = task.id then pinned dev.rows r else r }))
      (setTable_self _) ((setTable_ne hne _).trans hdev)
      (fun r hr task' ht he => by
        obtain ⟨r₀, hr₀, rfl⟩ := List.mem_map.mp hr
        by_cases h : r₀.id = task.id
        · rw [if_pos h, pinned_id] at he
          exact absurd (List.mem_map.mpr ⟨task', ht, he.symm.trans h⟩) hnew
        · rw [if_neg h] at he ⊢
          exact hself r₀ hr₀ task' (List.mem_cons_of_mem _ ht) he)
      hrest (fun task' ht => hnames task' (List.mem_cons_of_mem _ ht))
    rw [pinTasks, Program.plain_bind_ok hone, Program.plain_bind_ok htail, setTable_setTable]
    have hmap : (cur.map fun r => if r.id = task.id then pinned dev.rows r else r).map
        (fun r => if r.id ∈ tasks.map Row.id then pinned dev.rows r else r) =
        cur.map fun r => if r.id ∈ (task :: tasks).map Row.id then pinned dev.rows r else r := by
      rw [List.map_map]
      refine List.map_congr_left fun r hr => ?_
      rw [Function.comp_apply]
      by_cases h : r.id = task.id
      · have hmem : r.id ∈ (task :: tasks).map Row.id := List.mem_cons.mpr (.inl h)
        rw [if_pos h, if_neg (by rw [pinned_id, h]; exact hnew), if_pos hmem]
      · have hmem : r.id ∈ (task :: tasks).map Row.id ↔ r.id ∈ tasks.map Row.id := by
          rw [List.map_cons, List.mem_cons]; exact or_iff_right h
        rw [if_neg h]
        exact if_congr hmem.symm rfl rfl
    rw [hmap, List.filter_cons]
    rfl

/-! ## The incident -/

theorem incidentsOf_rows (f : File) : (incidentsOf f).rows .incidents =
    (((f.tables (.hub .incidents)).map TableData.rows).getD []).map fun r =>
      ⟨r.id, fun c => r.cells (.hub c)⟩ := rfl

theorem incidentsOf_seq (f : File) : (incidentsOf f).seq .incidents =
    ((f.tables (.hub .incidents)).map TableData.seq).getD 0 := rfl

/-- Only the incidents of a consistent database. -/
theorem incidents_consistent {db db' : Server.HubDb} (h : Consistent Server.SCHEMA db)
    (hrows : db'.rows .incidents = db.rows .incidents) (hseq : db'.seq .incidents = db.seq .incidents)
    (hother : ∀ t, t ≠ .incidents → db'.rows t = []) : Consistent Server.SCHEMA db' where
  ordered := by
    intro t
    by_cases ht : t = .incidents
    · rw [ht, Db.ids, hrows]; exact h.ordered .incidents
    · rw [Db.ids, hother t ht]; exact List.Pairwise.nil
  bounded := by
    intro t i hi
    by_cases ht : t = .incidents
    · rw [ht] at hi ⊢
      rw [Db.ids, hrows] at hi
      rw [hseq]
      exact h.bounded .incidents i hi
    · rw [Db.ids, hother t ht] at hi
      cases hi
  table := by
    intro t
    by_cases ht : t = .incidents
    · rw [ht, hrows]
      exact ⟨(h.table .incidents).rowOk, (h.table .incidents).unique, fun _ _ => refers_of_nil rfl⟩
    · rw [hother t ht]
      exact ⟨nofun, fun _ _ => .nil, nofun⟩

/-- A consistent database takes the incident. -/
theorem openIncident_ok (hd : f.tables (.hub .incidents) = some d)
    (hc : Consistent Server.SCHEMA (incidentsOf f))
    (fingerprint kind severity source title detail : String) :
    ∃ d', openIncident E fingerprint kind severity source title detail f =
        .ok ((), f.setTable (.hub .incidents) (some d')) ∧
      d'.columns = d.columns ∧
      Consistent Server.SCHEMA (incidentsOf (f.setTable (.hub .incidents) (some d'))) := by
  have hsafe := Server.safe_openIncident (E := E) fingerprint kind severity source title detail
    (incidentsOf f) hc
  unfold openIncident
  rw [hd]
  dsimp only
  cases hr : Server.openIncident E fingerprint kind severity source title detail (incidentsOf f) with
  | error e =>
    rw [hr] at hsafe
    refine absurd ?_ hsafe
    unfold Server.openIncident Server.sql at hr
    cases hup : Server.SCHEMA.upsert .incidents _ _ _ (incidentsOf f) with
    | error v =>
      rw [hup] at hr
      cases hr
      rfl
    | ok x =>
      rw [hup] at hr
      cases hr
  | ok r =>
    obtain ⟨a, db⟩ := r
    rw [hr] at hsafe
    have hsound : Consistent Server.SCHEMA db := hsafe
    refine ⟨{ d with rows := (db.rows .incidents).map ofHubRow, seq := db.seq .incidents }, rfl, rfl,
      incidents_consistent hsound ?_ ?_ fun t ht => if_neg ht⟩
    · refine (incidentsOf_rows _).trans ?_
      rw [setTable_self]
      show ((db.rows .incidents).map ofHubRow).map _ = _
      rw [List.map_map]
      exact List.map_id _
    · refine (incidentsOf_seq _).trans ?_
      rw [setTable_self]
      rfl

end Air780eHub.Migrations
