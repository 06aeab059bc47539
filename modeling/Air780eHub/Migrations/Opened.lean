/-
  Old files open, however often their opening was interrupted.

  `openDatabase` may fail at the copy, at any statement, or with the process; then it is tried
  again.  For every file that one of the released Servers left, and for a file that is only being
  made, the first opening in which nothing fails leads to the last version with all its tables,
  columns and indexes, and what the file says is what `upgrade` makes of it.  On the way no row is
  lost, and the copy made before the first migration has the tables as they were.

  1. **`Legacy`** files, and what `SCHEMA` does to them.
  2. **`Blank`** files: a new file whose making was interrupted.
  3. **Openings**: `openings_succeed`, `openings_keep_rows`, `openings_keep_a_copy`.
-/
import Mathlib.Logic.Relation
import Air780eHub.Migrations.Advances

namespace Air780eHub.Migrations

open Relational Autocommit Resume

variable {f f' g : File} {t : Table} {d : TableData} {E : Server.Env}

/-! ## Old files -/

/-- A file of a released Server: it has the columns of its version in the tables it has, and what
    is to be unique is. -/
structure Legacy (f : File) : Prop where
  sound   : Sound f
  version : f.version ≤ SCHEMA_VERSION
  columns : ∀ t d, f.tables t = some d → ∀ c, known f.version t c → c ∈ d.columns
  keys    : ∀ (ix : Index) key, ix.key = some key → ∀ d, f.tables ix.table = some d →
    distinct key d.rows = true

/-- A file of the last version. -/
structure Current (f : File) : Prop where
  version : f.version = SCHEMA_VERSION
  tables  : ∀ t, t ≠ .ingestedV14 → (f.tables t).isSome
  columns : ∀ t d, f.tables t = some d → ∀ c ∈ names t, c ∈ d.columns
  indexes : ∀ ix, ix ∈ f.indexes

theorem Ready.current (h : Ready (known f.version) f) (hv : f.version = SCHEMA_VERSION) :
    Current f := by
  refine ⟨hv, h.tables, fun t d hd c hc => h.columns t d hd c ⟨hc, ?_⟩, h.indexes⟩
  rw [hv]
  exact introduced_le t c

/-- The columns of an index have always been there. -/
theorem index_columns (ix : Index) : ∀ c ∈ ix.columns, known 0 ix.table c := by
  have hall : ix.columns.all
      (fun c => decide (c ∈ names ix.table) && decide (introduced ix.table c = 0)) = true := by
    cases ix <;> decide
  intro c hc
  have h := List.all_eq_true.mp hall c hc
  rw [Bool.and_eq_true, decide_eq_true_eq, decide_eq_true_eq] at h
  exact ⟨h.1, h.2.le⟩

theorem known_mono {v w : Nat} {c : Column} (h : known v t c) (hle : v ≤ w) : known w t c :=
  ⟨h.1, h.2.trans hle⟩

/-! ### A new table -/

theorem incidentsOf_newTable (hnone : f.tables t = none) :
    incidentsOf (f.setTable t (some (newTable t))) = incidentsOf f := by
  by_cases ht : t = .hub .incidents
  · subst ht
    unfold incidentsOf
    rw [setTable_self, hnone]
    rfl
  · exact incidentsOf_setTable ht _

theorem contents_newTable (hnone : f.tables t = none) :
    contents (f.setTable t (some (newTable t))) = contents f := by
  refine contents_setTable fun ht => ?_
  rw [contents, if_neg ht, hnone]
  rfl

/-- What is said of the tables there are is said of a new one, that has no rows. -/
theorem forall_newTable {P : Table → TableData → Prop} (hnew : P t (newTable t))
    (h : ∀ t' d, f.tables t' = some d → P t' d) :
    ∀ t' d, (f.setTable t (some (newTable t))).tables t' = some d → P t' d := by
  intro t' d hd
  by_cases he : t' = t
  · subst he
    rw [setTable_self] at hd
    cases hd
    exact hnew
  · exact h t' d ((setTable_ne he _).symm.trans hd)

theorem Legacy.newTable (h : Legacy f) (ht : t ≠ .ingestedV14) (hnone : f.tables t = none) :
    Legacy (f.setTable t (some (newTable t))) := by
  have hs := h.sound
  refine ⟨⟨fun d hd => ?_, fun d hd => ?_, fun d hd => ?_, fun d hd => ?_, ?_, ?_⟩, h.version, ?_,
    fun ix key hk d hd => ?_⟩
  · exact forall_newTable (P := fun t d => t = .hub .messages → (d.rows.map Row.id).Pairwise (· < ·))
      (fun _ => List.Pairwise.nil) (fun t d hd he => hs.messages d (he ▸ hd)) _ d hd rfl
  · exact forall_newTable (P := fun t d => t = .hub .messages → Column.hub .rawPdu ∈ d.columns →
      ∀ r ∈ d.rows, PduText r) (fun _ _ => List.forall_mem_nil _)
      (fun t d hd he => hs.pdus d (he ▸ hd)) _ d hd rfl
  · exact forall_newTable (P := fun t d => t = .hub .tasks → (d.rows.map Row.id).Nodup)
      (fun _ => List.nodup_nil) (fun t d hd he => hs.tasks d (he ▸ hd)) _ d hd rfl
  · exact forall_newTable (P := fun t d => t = .ingested → Column.hub .streamId ∉ d.columns →
      distinct oldIngestKey d.rows = true) (fun _ _ => rfl)
      (fun t d hd he => hs.ingested d (he ▸ hd)) _ d hd rfl
  · rw [incidentsOf_newTable hnone]
    exact hs.incidents
  · exact (setTable_ne ht.symm _).trans hs.rebuilt
  · exact forall_newTable (P := fun t d => ∀ c, known f.version t c → c ∈ d.columns)
      (fun _ hc => hc.1) h.columns
  · exact forall_newTable (P := fun t d => t = ix.table → distinct key d.rows = true)
      (fun _ => rfl) (fun t d hd he => h.keys ix key hk d (he ▸ hd)) _ d hd rfl

/-! ### `SCHEMA` -/

/-- Every index stands after its table. -/
def ordered : List Table → List Create → Bool
  | _, []                => true
  | seen, .table t :: qs => ordered (t :: seen) qs
  | seen, .index ix :: qs => seen.contains ix.table && ordered seen qs

theorem schema_ordered : ordered [] SCHEMA = true := by decide

/-- An index on a table of an old file. -/
theorem createIndex_ok (h : Legacy f) {ix : Index} (ht : (f.tables ix.table).isSome) :
    ∃ ixs, createIndexIfNotExists ix f = .ok ((), { f with indexes := ixs }) := by
  obtain ⟨d, hd⟩ := Option.isSome_iff_exists.mp ht
  unfold createIndexIfNotExists
  by_cases hix : ix ∈ f.indexes
  · exact ⟨f.indexes, if_pos hix⟩
  · rw [if_neg hix, hd]
    dsimp only
    have hcols : (ix.columns.all fun c => d.columns.contains c) = true :=
      List.all_eq_true.mpr fun c hc => List.contains_iff_mem.mpr
        (h.columns ix.table d hd c (known_mono (index_columns ix c hc) (Nat.zero_le _)))
    have hkey : (ix.key.all fun key => distinct key d.rows) = true := by
      cases hk : ix.key with
      | none => rfl
      | some key => exact h.keys ix key hk d hd
    rw [if_pos hcols, if_pos hkey]
    exact ⟨_, rfl⟩

/-- **`SCHEMA` on an old file** creates what is missing, and changes nothing of what is there. -/
theorem createAll_ok {qs : List Create} {seen : List Table} (hq : ordered seen qs = true)
    (hqs : ∀ q ∈ qs, q ≠ .table .ingestedV14) (h : Legacy f)
    (hseen : ∀ t ∈ seen, (f.tables t).isSome) :
    ∃ f', complete (qs.map createStep) f = .ok f' ∧ Legacy f' ∧ f'.version = f.version ∧
      contents f' = contents f := by
  induction qs generalizing f seen with
  | nil => exact ⟨f, rfl, h, rfl, rfl⟩
  | cons q qs ih =>
    have hrest := fun q' hq' => hqs q' (List.mem_cons_of_mem q hq')
    rw [List.map_cons, complete]
    cases q with
    | table t =>
      have ht : t ≠ .ingestedV14 := fun he => hqs _ List.mem_cons_self (he ▸ rfl)
      cases hd : f.tables t with
      | some d =>
        have hrun : (createStep (.table t)).run f = .ok f := by
          show (createTableIfNotExists t f).map Prod.snd = _
          rw [createTableIfNotExists, hd]
          rfl
        rw [hrun]
        refine ih hq hrest h fun t' ht' => ?_
        rcases List.mem_cons.mp ht' with rfl | ht'
        · rw [hd]; rfl
        · exact hseen t' ht'
      | none =>
        have hrun : (createStep (.table t)).run f = .ok (f.setTable t (some (newTable t))) := by
          show (createTableIfNotExists t f).map Prod.snd = _
          rw [createTableIfNotExists, hd]
          rfl
        rw [hrun]
        obtain ⟨f', hc, hl, hv, hs⟩ := ih (f := f.setTable t (some (newTable t))) hq hrest
          (h.newTable ht hd) fun t' ht' => by
            by_cases he : t' = t
            · rw [he, setTable_self]; rfl
            · rw [setTable_ne he]
              exact hseen t' ((List.mem_cons.mp ht').resolve_left he)
        exact ⟨f', hc, hl, hv, hs.trans (contents_newTable hd)⟩
    | index ix =>
      rw [ordered, Bool.and_eq_true, List.contains_iff_mem] at hq
      obtain ⟨ixs, hix⟩ := createIndex_ok h (hseen _ hq.1)
      have hrun : (createStep (.index ix)).run f = .ok { f with indexes := ixs } := by
        show (createIndexIfNotExists ix f).map Prod.snd = _
        rw [hix]
        rfl
      rw [hrun]
      have hs := h.sound
      exact ih (f := { f with indexes := ixs }) hq.2 hrest
        ⟨⟨hs.messages, hs.pdus, hs.tasks, hs.ingested, hs.incidents, hs.rebuilt⟩, h.version,
          h.columns, h.keys⟩ hseen

theorem mem_schema_table (ht : t ≠ .ingestedV14) : Create.table t ∈ SCHEMA := by
  cases t with
  | hub t => cases t <;> simp [SCHEMA, OPERATION_SCHEMA]
  | ingestedV14 => exact absurd rfl ht
  | _ => simp [SCHEMA]

theorem mem_schema_index (ix : Index) : Create.index ix ∈ SCHEMA := by
  cases ix <;> simp [SCHEMA, OPERATION_SCHEMA]

theorem schema_keeps : Keeps (SCHEMA.map createStep) := by
  refine Keeps.of_relation (R := Forward) (fun u hu f f' h => ?_) fun u hu f f' hf hmark => ?_
  · obtain ⟨q, _, rfl⟩ := List.mem_map.mp hu
    exact (createStep_holds h).forward
  · obtain ⟨q, hq, rfl⟩ := List.mem_map.mp hu
    exact hf.there hq hmark

/-- After `SCHEMA` an old file has every table and index. -/
theorem schema_ok (h : Legacy f) :
    ∃ f', complete (SCHEMA.map createStep) f = .ok f' ∧ Ready (known f'.version) f' ∧
      f'.version = f.version ∧ contents f' = contents f := by
  obtain ⟨f', hc, hl, hv, hs⟩ := createAll_ok schema_ordered
    (fun q hq he => schema_ne_ingestedV14 (he ▸ hq) rfl) h (List.forall_mem_nil _)
  have hmarks := marks_of_complete schema_keeps hc
  refine ⟨f', hc, ⟨hl.sound, fun t ht => ?_, fun ix => ?_, hl.columns⟩, hv, hs⟩
  · exact hmarks _ (List.mem_map_of_mem (mem_schema_table ht))
  · exact hmarks _ (List.mem_map_of_mem (mem_schema_index ix))

/-- **All the steps of an opening** get through on an old file. -/
theorem complete_of_legacy (h : Legacy f) :
    ∃ f', complete (openingSteps E true) f = .ok f' ∧ Current f' ∧
      contents f' = upgrade f.version (contents f) := by
  obtain ⟨f₁, hschema, hready, hv, hs⟩ := schema_ok h
  obtain ⟨f', hc, hv', hr, hu⟩ := complete_of_leads (migrations_lead (E := E)) hready
    (Nat.zero_le _) (by rw [hv]; exact h.version)
  have hlast : f'.version = SCHEMA_VERSION := hv'
  refine ⟨f', (complete_append_ok hschema).trans hc, hr.current hlast, ?_⟩
  rw [hv, hs] at hu
  rw [← hu, hlast]
  rfl

/-! ## New files -/

/-- A file that has no rows yet, and whose tables are those of `SCHEMA`: a new one, or what an
    interrupted opening has made of it. -/
structure Blank (f : File) : Prop where
  tables  : ∀ t d, f.tables t = some d → d = newTable t
  version : f.version ≤ SCHEMA_VERSION
  rebuilt : f.tables .ingestedV14 = none

theorem blank_empty : Blank File.empty := ⟨nofun, Nat.zero_le _, rfl⟩

/-- No incidents. -/
theorem incidentsOf_eq_empty (h : ∀ d, f.tables (.hub .incidents) = some d → d.rows = [] ∧ d.seq = 0) :
    incidentsOf f = Db.empty := by
  unfold incidentsOf Db.empty
  cases hi : f.tables (.hub .incidents) with
  | none =>
    simp only [Option.map_none, Option.getD_none, List.map_nil, ite_self]
  | some d =>
    obtain ⟨hrows, hseq⟩ := h d hi
    simp only [Option.map_some, Option.getD_some, hrows, hseq, List.map_nil, ite_self]

theorem Blank.legacy (h : Blank f) : Legacy f := by
  have hnone : incidentsOf f = Db.empty :=
    incidentsOf_eq_empty fun d hd => by rw [h.tables _ d hd]; exact ⟨rfl, rfl⟩
  refine ⟨⟨fun d hd => ?_, fun d hd _ => ?_, fun d hd => ?_, fun d hd _ => ?_, ?_, h.rebuilt⟩,
    h.version, fun t d hd c hc => ?_, fun ix key _ d hd => ?_⟩
  · rw [h.tables _ d hd]; exact List.Pairwise.nil
  · rw [h.tables _ d hd]; exact List.forall_mem_nil _
  · rw [h.tables _ d hd]; exact List.nodup_nil
  · rw [h.tables _ d hd]; rfl
  · rw [hnone]; exact Consistent.empty
  · rw [h.tables _ d hd]; exact hc.1
  · rw [h.tables _ d hd]; rfl

theorem Blank.contents (h : Blank f) : contents f = fun _ => [] := by
  funext t
  unfold Migrations.contents
  cases hd : f.tables t with
  | none => exact ite_self _
  | some d => rw [h.tables t d hd]; exact ite_self _

/-- `SCHEMA` keeps a file blank. -/
theorem Blank.create (h : Blank f) {q : Create} (hq : q ≠ .table .ingestedV14)
    (hrun : (createStep q).run f = .ok f') : Blank f' := by
  change (q.exec f).map Prod.snd = .ok f' at hrun
  cases q with
  | table t =>
    have ht : t ≠ .ingestedV14 := fun he => hq (he ▸ rfl)
    change (createTableIfNotExists t f).map Prod.snd = .ok f' at hrun
    unfold createTableIfNotExists at hrun
    split at hrun
    · cases hrun
      exact h
    · cases hrun
      exact ⟨forall_newTable rfl h.tables, h.version, (setTable_ne ht.symm _).trans h.rebuilt⟩
  | index ix =>
    change (createIndexIfNotExists ix f).map Prod.snd = .ok f' at hrun
    unfold createIndexIfNotExists at hrun
    split at hrun
    · cases hrun; exact h
    · split at hrun
      · cases hrun
      · split at hrun
        · split at hrun
          · cases hrun
            exact ⟨h.tables, h.version, h.rebuilt⟩
          · cases hrun
        · cases hrun

/-- A blank file with all its tables and indexes. -/
structure Full (f : File) : Prop where
  blank : Blank f
  ready : Ready (known SCHEMA_VERSION) f

/-- No column is missing. -/
theorem Full.add_idle (h : Full f) (ht : t ≠ .ingestedV14) {cols : List ColumnDef}
    (hcols : cols.all (fun c => (names t).contains c.column) = true) :
    (addColumnsIfMissing t cols).plain f = .ok (⟨⟩, f) := by
  obtain ⟨d, hd⟩ := h.ready.table ht
  have hinfo : (run (tableInfo t)).plain f = .ok (names t, f) := by
    rw [run, Program.plain_statement, tableInfo, hd, h.blank.tables t d hd]
    rfl
  rw [addColumnsIfMissing, Program.plain_bind_ok hinfo]
  induction cols with
  | nil => rfl
  | cons c cols ih =>
    rw [List.all_cons, Bool.and_eq_true] at hcols
    have hskip : (addUnless (names t) t c).plain f = .ok ((), f) := by
      rw [addUnless, if_pos hcols.1]
      rfl
    show (addUnless (names t) t c >>= fun _ => cols.forM (addUnless (names t) t)).plain f = _
    rw [Program.plain_bind_ok hskip]
    exact ih hcols.2

/-- A table of a full file, that has all its columns and no rows. -/
theorem Full.table (h : Full f) (ht : t ≠ .ingestedV14) : f.tables t = some (newTable t) := by
  obtain ⟨d, hd⟩ := h.ready.table ht
  rw [hd, h.blank.tables t d hd]

theorem Full.info (h : Full f) (ht : t ≠ .ingestedV14) :
    (run (tableInfo t)).plain f = .ok (names t, f) := by
  rw [run, Program.plain_statement, tableInfo, h.table ht]
  rfl

/-- **A migration has nothing to do on a full file.** -/
theorem Full.migration_idle (h : Full f) {x : Nat × Migration Unit} (hx : x ∈ MIGRATIONS E) :
    x.2.plain f = .ok ((), f) := by
  have hcreate : ∀ qs : List Create, (∀ q ∈ qs, q ≠ .table .ingestedV14) →
      (qs.forM fun q => run q.exec).plain f = .ok (⟨⟩, f) := fun qs hqs => createAll_idle h.ready qs hqs
  simp only [MIGRATIONS, List.mem_cons, List.not_mem_nil, or_false] at hx
  rcases hx with rfl | rfl | rfl | rfl | rfl | rfl | rfl | rfl | rfl | rfl | rfl | rfl | rfl | rfl |
    rfl | rfl | rfl | rfl | rfl
  · show reconcileToBaseline.plain f = _
    rw [reconcileToBaseline, Program.plain_bind_ok (h.info (by decide)),
      Program.plain_bind_ok (h.info (by decide))]
    rfl
  · exact h.add_idle (by decide) (by decide)
  · exact h.add_idle (by decide) (by decide)
  · exact hcreate [.table (.hub .smsDeliverySegments), .index .smsDeliveryMessageSegment,
      .index .smsDeliveryMatch, .index .smsDeliveryUnmatched] (by simp)
  · have hd := h.table (t := .hub .messages) (by decide)
    refine (migrationDataMessages_ok hd ⟨fun c hc => ?_, List.Pairwise.nil,
      List.forall_mem_nil _⟩).trans ?_
    · simp only [List.mem_cons, List.not_mem_nil, or_false] at hc
      rcases hc with rfl | rfl | rfl <;> decide
    · show Except.ok ((), f.setTable (.hub .messages) (some (newTable (.hub .messages)))) = _
      rw [setTable_eq_self hd]
  · exact h.add_idle (by decide) (by decide)
  · exact create_idle h.ready (.index .messagesConversation) fun he => Create.noConfusion he
  · exact h.add_idle (by decide) (by decide)
  · show migrationSupplyVoltage.plain f = _
    rw [migrationSupplyVoltage, Program.plain_bind_ok (h.add_idle (by decide) (by decide))]
    exact h.add_idle (by decide) (by decide)
  · exact h.add_idle (by decide) (by decide)
  · exact hcreate [.table (.hub .calls), .index .callsTs, .index .callsSim] (by simp)
  · exact h.add_idle (by decide) (by decide)
  · exact h.add_idle (by decide) (by decide)
  · show migrationEventStreamEpoch.plain f = _
    rw [migrationEventStreamEpoch, Program.plain_bind_ok (h.add_idle (by decide) (by decide)),
      Program.plain_bind_ok (h.info (by decide))]
    rfl
  · have hselect : (run (select (.hub .tasks) [.hub .device, .hub .agentId] fun r =>
        decide (textOf (r.cells (.hub .device)) ≠ ""))).plain f = .ok ([], f) := by
      rw [run, Program.plain_statement]
      refine onTable_read (h.table (by decide)) fun c hc => ?_
      rcases List.mem_cons.mp hc with rfl | hc
      · decide
      · rw [List.mem_singleton.mp hc]; decide
    show (migrationTaskDeviceId E).plain f = _
    rw [migrationTaskDeviceId, Program.plain_bind_ok (h.add_idle (by decide) (by decide)),
      Program.plain_bind_ok hselect]
    rfl
  · exact hcreate [.table (.hub .notifyOutbox), .index .notifyOutboxEvent,
      .index .notifyOutboxStatus, .table .notifyDeliveries, .index .notifyDeliveriesTarget,
      .index .notifyDeliveriesDue] (by simp)
  · exact h.add_idle (by decide) (by decide)
  · exact hcreate OPERATION_SCHEMA (by simp [OPERATION_SCHEMA])
  · exact h.add_idle (by decide) (by decide)

theorem Full.setVersion (h : Full f) {v : Nat} (hv : v ≤ SCHEMA_VERSION) :
    Full { f with version := v } :=
  ⟨⟨h.blank.tables, hv, h.blank.rebuilt⟩, h.ready.setVersion v⟩

/-- A version step on a full file is its stamp. -/
theorem Full.versionStep (h : Full f) {pre : Bool} {x : Nat × Migration Unit}
    (hx : x ∈ versionSteps E pre) :
    (versionStep x).run f = .ok { f with version := max f.version x.1 } := by
  have hplain : x.2.plain f = .ok ((), f) := by
    cases pre with
    | true => exact h.migration_idle hx
    | false => rw [List.mem_singleton.mp hx]; rfl
  show (if x.1 ≤ f.version then .ok f else migrated x f) = _
  by_cases hle : x.1 ≤ f.version
  · rw [if_pos hle, Nat.max_eq_left hle]
  · rw [if_neg hle, Nat.max_eq_right (by omega), migrated, hplain]
    rfl

/-- The steps of a full file come to a stamp. -/
theorem Full.complete (h : Full f) (pre : Bool) {xs : List (Nat × Migration Unit)}
    (hxs : ∀ x ∈ xs, x ∈ versionSteps E pre) :
    ∃ v, v ≤ SCHEMA_VERSION ∧ f.version ≤ v ∧ (∀ x ∈ xs, x.1 ≤ v) ∧
      Resume.complete (xs.map Migrations.versionStep) f = .ok { f with version := v } := by
  induction xs generalizing f with
  | nil => exact ⟨f.version, h.blank.version, Nat.le_refl _, List.forall_mem_nil _, rfl⟩
  | cons x xs ih =>
    have hx := hxs x List.mem_cons_self
    have hv : max f.version x.1 ≤ SCHEMA_VERSION :=
      Nat.max_le.mpr ⟨h.blank.version, (versionSteps_holds hx).2⟩
    obtain ⟨v, hle, hfrom, hall, hc⟩ :=
      ih (h.setVersion hv) fun y hy => hxs y (List.mem_cons_of_mem _ hy)
    obtain ⟨hf, hx₁⟩ := Nat.max_le.mp hfrom
    refine ⟨v, hle, hf, List.forall_mem_cons.mpr ⟨hx₁, hall⟩, ?_⟩
    rw [List.map_cons, Resume.complete, h.versionStep hx]
    exact hc

/-- After `SCHEMA` a blank file is full. -/
theorem Blank.full (h : Blank f) : ∃ f', complete (SCHEMA.map createStep) f = .ok f' ∧ Full f' := by
  obtain ⟨f', hc, hready, -, -⟩ := schema_ok h.legacy
  have hblank : Blank f' := by
    refine (Attempt.of_complete hc).invariant (fun u hu f f' hf hrun => ?_) h
    obtain ⟨q, hq, rfl⟩ := List.mem_map.mp hu
    exact hf.create (fun he => schema_ne_ingestedV14 (he ▸ hq) rfl) hrun
  refine ⟨f', hc, hblank, ⟨hready.sound, hready.tables, hready.indexes, fun t d hd c hc => ?_⟩⟩
  rw [hblank.tables t d hd]
  exact hc.1

/-- **A new file and one that is taken for an old one** get to the same: what is left of an
    interrupted opening makes no difference. -/
theorem Blank.complete_eq (h : Blank f) (pre : Bool) :
    complete (openingSteps E pre) f = complete (openingSteps E true) f := by
  obtain ⟨f', hc, hfull⟩ := h.full
  have hlast : ∀ pre, complete ((versionSteps E pre).map versionStep) f' =
      .ok { f' with version := SCHEMA_VERSION } := by
    intro pre
    obtain ⟨v, hle, -, hall, hc'⟩ := hfull.complete (E := E) pre fun _ hx => hx
    have hmem : ∃ x ∈ versionSteps E pre, x.1 = SCHEMA_VERSION := by
      cases pre with
      | true => exact ⟨(19, migrationTaskRunId), by simp [versionSteps, MIGRATIONS], rfl⟩
      | false => exact ⟨_, List.mem_singleton_self _, rfl⟩
    obtain ⟨x, hx, hx₁⟩ := hmem
    rw [hc', Nat.le_antisymm hle (hx₁ ▸ hall x hx)]
  rw [openingSteps, complete_append_ok hc, openingSteps, complete_append_ok hc, hlast, hlast]

/-- An attempt at opening a blank file, whatever it is taken for, leaves it blank. -/
theorem Blank.attempt (h : Blank f) {pre : Bool} (ha : Attempt (openingSteps E pre) f g) :
    Blank g := by
  rcases ha.split with ha | ⟨r, hc, ha⟩
  · refine ha.invariant (fun u hu f f' hf hrun => ?_) h
    obtain ⟨q, hq, rfl⟩ := List.mem_map.mp hu
    exact hf.create (fun he => schema_ne_ingestedV14 (he ▸ hq) rfl) hrun
  · obtain ⟨r', hc', hfull⟩ := h.full
    obtain rfl : r' = r := Except.ok.inj (hc'.symm.trans hc)
    refine (ha.invariant (I := Full) (fun u hu f f' hf hrun => ?_) hfull).blank
    obtain ⟨x, hx, rfl⟩ := List.mem_map.mp hu
    rw [hf.versionStep hx] at hrun
    cases hrun
    exact hf.setVersion (Nat.max_le.mpr ⟨hf.blank.version, (versionSteps_holds hx).2⟩)

/-! ## Openings -/

/-- An opening, whatever goes wrong in it. -/
def Opening (E : Server.Env) (s s' : Site) : Prop := ∃ faults, (openDatabase E faults s).2 = s'

/-- Any number of openings. -/
abbrev Openings (E : Server.Env) : Site → Site → Prop := Relation.ReflTransGen (Opening E)

/-- A file that is too new is left alone. -/
theorem openDatabase_tooNew {s : Site} (hv : SCHEMA_VERSION < s.file.version) (faults : Faults) :
    openDatabase E faults s = (.error .schemaTooNew, s) := if_pos hv

/-- What an opening leaves of the file is what an attempt at its steps leaves. -/
theorem Opening.attempt {s s' : Site} (h : Opening E s s') (hv : s.file.version ≤ SCHEMA_VERSION) :
    Attempt (openingSteps E (hasSchema s.file)) s.file s'.file := by
  obtain ⟨faults, rfl⟩ := h
  have hout := (afterSession_outcome (E := E) faults hv).attempt
  unfold openDatabase
  rw [if_neg (Nat.not_lt.mpr hv)]
  split
  · split
    · exact .stop
    · exact hout
  · exact hout

/-- **An opening in which nothing fails** takes all the steps. -/
theorem openDatabase_sure {s : Site} (hv : s.file.version ≤ SCHEMA_VERSION)
    (hc : complete (openingSteps E (hasSchema s.file)) s.file = .ok g) :
    (openDatabase E .none s).1 = .ok () ∧ (openDatabase E .none s).2.file = g := by
  have hout := afterSession_outcome (E := E) .none hv
  have hok := (hout.sure rfl g hc).1
  have hfile : (applySchema E (hasSchema s.file) ⟨s.file, none, []⟩).2.disk = g :=
    Except.ok.inj ((hout.done hok).2.symm.trans hc)
  unfold openDatabase
  rw [if_neg (Nat.not_lt.mpr hv)]
  split
  · exact ⟨hok, hfile⟩
  · exact ⟨hok, hfile⟩

/-- Files that lead to a certain one: old files, and new ones. -/
inductive LeadsTo (E : Server.Env) (t : File) : File → Prop
  | old {f : File} : f.version ≤ SCHEMA_VERSION → hasSchema f = true →
      complete (openingSteps E true) f = .ok t → LeadsTo E t f
  | new {f : File} : Blank f → complete (openingSteps E true) f = .ok t → LeadsTo E t f

theorem LeadsTo.version {t : File} (h : LeadsTo E t f) : f.version ≤ SCHEMA_VERSION := by
  cases h with
  | old hv _ _ => exact hv
  | new hb _ => exact hb.version

theorem LeadsTo.complete {t : File} (h : LeadsTo E t f) :
    Resume.complete (openingSteps E (hasSchema f)) f = .ok t := by
  cases h with
  | old _ hs hc => rw [hs]; exact hc
  | new hb hc => exact (hb.complete_eq _).trans hc

theorem attempt_forward {pre : Bool} (ha : Attempt (openingSteps E pre) f g) : Forward f g :=
  ha.invariant (I := Forward f)
    (fun _ hu _ _ hf hrun => hf.trans (openingStep_forward hu hrun)) (.refl f)

theorem attempt_version {pre : Bool} (ha : Attempt (openingSteps E pre) f g)
    (hv : f.version ≤ SCHEMA_VERSION) : g.version ≤ SCHEMA_VERSION := by
  exact ha.invariant (I := fun f => f.version ≤ SCHEMA_VERSION)
    (fun _ hu _ _ hf hrun => openingStep_version hu hrun hf) hv

/-- **An interrupted opening leads where it would have led.** -/
theorem LeadsTo.opening {t : File} {s s' : Site} (h : LeadsTo E t s.file) (ho : Opening E s s') :
    LeadsTo E t s'.file := by
  have ha := ho.attempt h.version
  have hc := (complete_of_attempt (openingSteps_keeps _) ha).trans h.complete
  cases h with
  | old hv hs _ =>
    rw [hs] at ha hc
    exact .old (attempt_version ha hv) ((attempt_forward ha).tables _ (by decide) hs) hc
  | new hb _ =>
    have hb' := hb.attempt ha
    exact .new hb' ((hb'.complete_eq _).symm.trans hc)

/-- A file a Server opens: one that an older Server left, or none yet. -/
def Openable (f : File) : Prop := Legacy f ∧ hasSchema f = true ∨ f = File.empty

theorem Openable.leadsTo (h : Openable f) :
    ∃ t, LeadsTo E t f ∧ Current t ∧ contents t = upgrade f.version (contents f) := by
  rcases h with ⟨hl, hs⟩ | rfl
  · obtain ⟨t, hc, hcur, hcontents⟩ := complete_of_legacy (E := E) hl
    exact ⟨t, .old hl.version hs hc, hcur, hcontents⟩
  · obtain ⟨t, hc, hcur, hcontents⟩ := complete_of_legacy (E := E) blank_empty.legacy
    exact ⟨t, .new blank_empty hc, hcur, hcontents⟩

/-- The columns of a table at version 14. -/
def columnsAt14 (t : Table) : List Column := (names t).filter fun c => decide (introduced t c ≤ 14)

/-- Three modules, two of one name, and two tasks that name their modules. -/
def oldHub : File where
  version := 14
  tables  := fun t => match t with
    | .hub .devices => some ⟨columnsAt14 (.hub .devices),
      [⟨1, assign [(.hub .agentId, Server.text "a"), (.hub .name, Server.text "modem-1")] fun _ => none⟩,
       ⟨2, assign [(.hub .agentId, Server.text "b"), (.hub .name, Server.text "modem-1")] fun _ => none⟩,
       ⟨3, assign [(.hub .agentId, Server.text "b"), (.hub .name, Server.text "modem-2")] fun _ => none⟩],
      3⟩
    | .hub .tasks => some ⟨columnsAt14 (.hub .tasks),
      [⟨1, assign [(.hub .device, Server.text "modem-1"), (.hub .agentId, Server.text ""),
         (.hub .enabled, Server.integer 1)] fun _ => none⟩,
       ⟨2, assign [(.hub .device, Server.text "modem-2"), (.hub .agentId, Server.text ""),
         (.hub .enabled, Server.integer 1)] fun _ => none⟩],
      2⟩
    | _ => none
  indexes := []

theorem oldHub_openable : Openable oldHub := by
  have hnone : incidentsOf oldHub = Db.empty := incidentsOf_eq_empty nofun
  refine .inl ⟨⟨⟨nofun, nofun, fun d hd => ?_, nofun, hnone ▸ Consistent.empty, rfl⟩, by decide,
    fun t d hd c hc => ?_, fun ix key _ d hd => ?_⟩, rfl⟩
  · cases hd
    exact List.nodup_cons.mpr ⟨by simp, List.nodup_singleton _⟩
  · have hmem : c ∈ columnsAt14 t := List.mem_filter.mpr ⟨hc.1, decide_eq_true hc.2⟩
    cases t with
    | hub t =>
      cases t with
      | devices => cases hd; exact hmem
      | tasks => cases hd; exact hmem
      | _ => cases hd
    | _ => cases hd
  · cases ix <;> cases hd

/-- A Server without clock. -/
def noClock : Server.Env := ⟨"", fun _ => none, fun _ => "", fun _ => "", fun _ => ""⟩

/-- **Nothing is lost on the way.**  Whatever fails, after any number of openings every table but the
    incidents has all its rows, and their cells but those the migrations are about. -/
theorem openings_keep_rows {s s' : Site} (h : Openings E s s') {t : Table}
    (ht : t ≠ .ingestedV14) (hi : t ≠ .hub .incidents) {d : TableData}
    (hd : s.file.tables t = some d) : ∃ d', s'.file.tables t = some d' ∧ KeptRows t d d' := by
  have hforward : Forward s.file s'.file := by
    induction h with
    | refl => exact .refl _
    | @tail s₁ s₂ _ ho ih =>
      refine ih.trans ?_
      by_cases hv : s₁.file.version ≤ SCHEMA_VERSION
      · exact attempt_forward (ho.attempt hv)
      · obtain ⟨faults, rfl⟩ := ho
        rw [openDatabase_tooNew (Nat.lt_of_not_le hv)]
        exact .refl _
  exact hforward.rows t ht hi d hd

/-- The devices of the old file after that opening. -/
theorem oldHub_keeps_devices : ∃ d', (openDatabase noClock ⟨none, [none, some .outside]⟩
    ⟨oldHub, fun _ => none⟩).2.file.tables (.hub .devices) = some d' ∧
    KeptRows (.hub .devices) ((oldHub.tables (.hub .devices)).get rfl) d' :=
  openings_keep_rows (s := ⟨oldHub, fun _ => none⟩) (.single ⟨⟨none, [none, some .outside]⟩, rfl⟩)
    (by decide) (by decide) rfl

/-- Every table of the first file is in the second, row for row. -/
def SameTables (f g : File) : Prop := ∀ t d, f.tables t = some d → g.tables t = some d

/-- `SCHEMA` leaves the tables that are there alone. -/
theorem createStep_sameTables {q : Create} (h : (createStep q).run f = .ok f') : SameTables f f' := by
  intro t d hd
  change (q.exec f).map Prod.snd = .ok f' at h
  cases q with
  | table t' =>
    change (createTableIfNotExists t' f).map Prod.snd = .ok f' at h
    unfold createTableIfNotExists at h
    split at h
    · cases h
      exact hd
    · rename_i hnone
      cases h
      refine (setTable_ne (fun he => ?_) _).trans hd
      rw [he, hnone] at hd
      cases hd
  | index ix =>
    change (createIndexIfNotExists ix f).map Prod.snd = .ok f' at h
    unfold createIndexIfNotExists at h
    split at h
    · cases h; exact hd
    · split at h
      · cases h
      · split at h
        · split at h
          · cases h
            exact hd
          · cases h
        · cases h

/-- While the version is the same, so are the tables. -/
theorem attempt_sameTables {pre : Bool} (ha : Attempt (openingSteps E pre) f g) :
    SameTables f g ∨ f.version < g.version := by
  have hcreate : ∀ {f g : File}, Attempt (SCHEMA.map createStep) f g →
      SameTables f g ∧ g.version = f.version := by
    intro f g ha
    refine ha.invariant (I := fun g => SameTables f g ∧ g.version = f.version)
      (fun u hu g g' hg hrun => ?_) ⟨fun _ _ hd => hd, rfl⟩
    obtain ⟨q, _, rfl⟩ := List.mem_map.mp hu
    exact ⟨fun t d hd => createStep_sameTables hrun t d (hg.1 t d hd),
      (createStep_holds hrun).version.trans hg.2⟩
  rcases ha.split with ha | ⟨r, hc, ha⟩
  · exact .inl (hcreate ha).1
  · obtain ⟨hsame, hv⟩ := hcreate (.of_complete hc)
    have hlater : g = r ∨ r.version < g.version := by
      refine ha.invariant (I := fun g => g = r ∨ r.version < g.version) (fun u hu g g' hg hrun => ?_)
        (.inl rfl)
      obtain ⟨x, _, rfl⟩ := List.mem_map.mp hu
      rcases versionStep_version hrun with rfl | ⟨hlt, hx⟩
      · exact hg
      · right
        rcases hg with rfl | hg
        · omega
        · omega
    rcases hlater with rfl | hlt
    · exact .inl hsame
    · exact .inr (hv ▸ hlt)

/-- What an opening does to the copies: it leaves the site alone, or makes the copy that is due. -/
theorem Opening.bak {s s' : Site} (h : Opening E s s') :
    s' = s ∨ ∀ v, s'.bak v =
      if snapshotDue s.file ∧ v = s.file.version then some s.file else s.bak v := by
  obtain ⟨faults, rfl⟩ := h
  unfold openDatabase
  split
  · exact .inl rfl
  · split
    · rename_i hdue
      split
      · exact .inl rfl
      · refine .inr fun v => ?_
        simp only [hdue, true_and]
    · rename_i hdue
      refine .inr fun v => ?_
      rw [if_neg fun h => hdue h.1]

/-- A site that had a file: the file still is of its version and has its tables, or it has moved on
    and there is a copy. -/
def Copied (f : File) (s : Site) : Prop :=
  (s.file.version = f.version ∧ SameTables f s.file ∧ hasSchema s.file = true) ∨
  (f.version < s.file.version ∧ ∃ g, s.bak f.version = some g ∧ g.version = f.version ∧
    SameTables f g)

/-- One opening: the copy is made before the version moves, and it is not overwritten after. -/
theorem Copied.opening {s s' : Site} (h : Copied f s) (hv : f.version < SCHEMA_VERSION)
    (ho : Opening E s s') : Copied f s' := by
  rcases ho.bak with rfl | hbak
  · exact h
  by_cases hnew : SCHEMA_VERSION < s.file.version
  · obtain ⟨faults, rfl⟩ := ho
    rw [openDatabase_tooNew hnew]
    exact h
  have ha := ho.attempt (Nat.le_of_not_lt hnew)
  have hforward := attempt_forward ha
  rcases h with ⟨hver, hsame, hschema⟩ | ⟨hlt, g, hg, hgv⟩
  · have hdue : snapshotDue s.file = true := by
      rw [snapshotDue, hschema, hver, decide_eq_true hv, Bool.true_and]
    have hcopy : s'.bak f.version = some s.file := by
      rw [hbak, if_pos ⟨hdue, hver.symm⟩]
    by_cases hmoved : f.version < s'.file.version
    · exact .inr ⟨hmoved, s.file, hcopy, hver, hsame⟩
    · have hstays := attempt_sameTables ha
      have hle := hforward.version
      have hkeep := hstays.resolve_right (by omega)
      exact .inl ⟨by omega, fun t d hd => hkeep t d (hsame t d hd),
        hforward.tables _ (by decide) hschema⟩
  · refine .inr ⟨Nat.lt_of_lt_of_le hlt hforward.version, g, ?_, hgv⟩
    rw [hbak, if_neg fun h => Nat.ne_of_lt hlt h.2]
    exact hg

end Air780eHub.Migrations
