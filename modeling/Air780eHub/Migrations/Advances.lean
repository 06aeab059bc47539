/-
  Every migration gets through on a file that is ready for it.

  Most of them only add columns, or create what `SCHEMA` has created already.  The data messages,
  the event streams and the tasks have results of their own.

  1. **The migrations that only add.**
  2. **The migrations that move data.**
  3. **`migrations_lead`**: one after the other, from any version to the last.
-/
import Air780eHub.Migrations.Contents

namespace Air780eHub.Migrations

open Relational Autocommit Resume

variable {f f' : File} {t : Table} {d d' : TableData} {E : Server.Env} {K : Table → Column → Prop}

/-! ## Migrations that only add -/

/-- One more column. -/
theorem Ready.addOne (h : Ready K f) (ht : Widened t) {c : ColumnDef} (hd : f.tables t = some d)
    (hadd : Addable t c = true) :
    ∃ f', (addUnless d.columns t c).plain f = .ok ((), f') ∧ Ready (also K t [c.column]) f' ∧
      contents f' = contents f ∧ ∀ t', t' ≠ t → f'.tables t' = f.tables t' := by
  obtain ⟨d', hplain, hw, hcols⟩ := addUnless_ok hd Iff.rfl hadd
  obtain ⟨hready, hcontents⟩ := h.widen ht hd hw [c.column] fun x hx =>
    (hcols x).mpr (.inr (List.mem_singleton.mp hx))
  exact ⟨_, hplain, hready, hcontents, fun t' ht' => setTable_ne ht' _⟩

theorem reconcileToBaseline_advances : Advances 0 reconcileToBaseline := by
  intro f hf
  obtain ⟨d, hd⟩ := hf.table (t := .hub .messages) (by decide)
  obtain ⟨e, he⟩ := hf.table (t := .hub .devices) (by decide)
  have hinfo : ∀ {t : Table} {x : TableData}, f.tables t = some x →
      (run (tableInfo t)).plain f = .ok (x.columns, f) := by
    intro t x hx
    rw [run, Program.plain_statement, tableInfo, hx]
    rfl
  obtain ⟨f₁, hplain₁, hready₁, hcontents₁, hother⟩ :=
    hf.addOne (by decide) hd (c := nullable (.hub .readAt)) (by decide)
  obtain ⟨f₂, hplain₂, hready₂, hcontents₂, -⟩ :=
    hready₁.addOne (by decide) ((hother _ (by decide)).trans he)
      (c := nullable (.hub .radioEnabled)) (by decide)
  refine ⟨f₂, ?_, hready₂.mono fun t c hc => ?_, ?_⟩
  · rw [reconcileToBaseline, Program.plain_bind_ok (hinfo hd), Program.plain_bind_ok (hinfo he),
      Program.plain_bind_ok hplain₁]
    exact hplain₂
  · rcases known_succ hc with h | ⟨x, hx, rfl, hmem⟩
    · exact .inl (.inl h)
    · have hadded : ADDED.filter (fun x => x.1 == 0 + 1) =
          [(1, .hub .messages, [.hub .readAt]), (1, .hub .devices, [.hub .radioEnabled])] := rfl
      rw [hadded] at hx
      rcases List.mem_cons.mp hx with rfl | hx
      · exact .inl (.inr ⟨rfl, hmem⟩)
      · obtain rfl := List.mem_singleton.mp hx
        exact .inr ⟨rfl, hmem⟩
  · rw [hcontents₂, hcontents₁, change_id (by decide) (by decide)]

theorem migrationMessageDiagnostics_advances : Advances 1 migrationMessageDiagnostics :=
  advances_add (by decide) rfl (by decide) (by decide) (by decide) (by decide)

theorem migrationAgentProtocolVersion_advances : Advances 2 migrationAgentProtocolVersion :=
  advances_add (by decide) rfl (by decide) (by decide) (by decide) (by decide)

/-- Statements that find what they look for. -/
theorem createAll_idle (h : Ready K f) (qs : List Create)
    (hqs : ∀ q ∈ qs, q ≠ .table .ingestedV14) :
    (qs.forM fun q => run q.exec).plain f = .ok (⟨⟩, f) := by
  induction qs with
  | nil => rfl
  | cons q qs ih =>
    show (run q.exec >>= fun _ => qs.forM fun q => run q.exec).plain f = _
    rw [Program.plain_bind_ok (create_idle h q (hqs q List.mem_cons_self))]
    exact ih fun q hq => hqs q (List.mem_cons_of_mem _ hq)

theorem migrationSmsDeliverySegments_advances : Advances 3 migrationSmsDeliverySegments :=
  advances_idle rfl (fun _ hf => createAll_idle hf [.table (.hub .smsDeliverySegments),
    .index .smsDeliveryMessageSegment, .index .smsDeliveryMatch, .index .smsDeliveryUnmatched]
    (by simp)) (by decide) (by decide)

theorem migrationSimLifecycle_advances : Advances 5 migrationSimLifecycle :=
  advances_add (by decide) rfl (by decide) (by decide) (by decide) (by decide)

theorem migrationMessageConversationIndex_advances : Advances 6 migrationMessageConversationIndex :=
  advances_idle rfl (fun _ hf => create_idle hf (.index .messagesConversation)
    fun he => Create.noConfusion he)
    (by decide) (by decide)

theorem migrationModemDiagnostics_advances : Advances 7 migrationModemDiagnostics :=
  advances_add (by decide) rfl (by decide) (by decide) (by decide) (by decide)

theorem migrationSupplyVoltage_advances : Advances 8 migrationSupplyVoltage := by
  intro f hf
  obtain ⟨f₁, hplain₁, hready₁, hcontents₁⟩ := hf.add (t := .hub .devices)
    (by decide) [nullable (.hub .voltageMv), nullable (.hub .lowVoltageMv)] (by decide)
    (List.all_eq_true.mp (by decide))
  obtain ⟨f₂, hplain₂, hready₂, hcontents₂⟩ := hready₁.add (t := .hub .deviceStatus)
    (by decide) [nullable (.hub .voltageMv)] (by decide)
    (List.all_eq_true.mp (by decide))
  refine ⟨f₂, ?_, hready₂.mono fun t c hc => ?_, ?_⟩
  · rw [migrationSupplyVoltage, Program.plain_bind_ok hplain₁]
    exact hplain₂
  · rcases known_succ hc with h | ⟨x, hx, rfl, hmem⟩
    · exact .inl (.inl h)
    · have hadded : ADDED.filter (fun x => x.1 == 8 + 1) =
          [(9, .hub .devices, [.hub .voltageMv, .hub .lowVoltageMv]),
           (9, .hub .deviceStatus, [.hub .voltageMv])] := rfl
      rw [hadded] at hx
      rcases List.mem_cons.mp hx with rfl | hx
      · exact .inl (.inr ⟨rfl, hmem⟩)
      · obtain rfl := List.mem_singleton.mp hx
        exact .inr ⟨rfl, hmem⟩
  · rw [hcontents₂, hcontents₁, change_id (by decide) (by decide)]

theorem migrationSalvagedMessages_advances : Advances 9 migrationSalvagedMessages :=
  advances_add (by decide) rfl (by decide) (by decide) (by decide) (by decide)

theorem migrationCalls_advances : Advances 10 migrationCalls :=
  advances_idle rfl (fun _ hf => createAll_idle hf
    [.table (.hub .calls), .index .callsTs, .index .callsSim] (by simp))
    (by decide) (by decide)

theorem migrationDataControls_advances : Advances 11 migrationDataControls :=
  advances_add (by decide) rfl (by decide) (by decide) (by decide) (by decide)

theorem migrationDataPolicy_advances : Advances 12 migrationDataPolicy :=
  advances_add (by decide) rfl (by decide) (by decide) (by decide) (by decide)

theorem migrationNotifyOutbox_advances : Advances 15 migrationNotifyOutbox :=
  advances_idle rfl (fun _ hf => createAll_idle hf [.table (.hub .notifyOutbox),
    .index .notifyOutboxEvent, .index .notifyOutboxStatus, .table .notifyDeliveries,
    .index .notifyDeliveriesTarget, .index .notifyDeliveriesDue] (by simp)) (by decide) (by decide)

theorem migrationTaskSync_advances : Advances 16 migrationTaskSync :=
  advances_add (by decide) rfl (by decide) (by decide) (by decide) (by decide)

theorem migrationOperations_advances : Advances 17 migrationOperations :=
  advances_idle rfl (fun _ hf => createAll_idle hf OPERATION_SCHEMA (by simp [OPERATION_SCHEMA]))
    (by decide) (by decide)

theorem migrationTaskRunId_advances : Advances 18 migrationTaskRunId :=
  advances_add (by decide) rfl (by decide) (by decide) (by decide) (by decide)

/-! ## Migrations that move data -/

/-! ### The data messages -/

/-- The loop reads what `SCHEMA` shows. -/
theorem reclassified_viewRow {r : FileRow}
    (hcols : ∀ c ∈ [Column.hub .direction, .hub .isBinary, .hub .rawPdu], c ∈ d.columns) :
    viewRow (.hub .messages) d (reclassified r) = reclassified (viewRow (.hub .messages) d r) := by
  have hread : ∀ c ∈ [Column.hub .direction, .hub .isBinary, .hub .rawPdu],
      (viewRow (.hub .messages) d r).cells c = r.cells c := by
    intro c hc
    refine viewRow_cell ?_ (hcols c hc)
    simp only [List.mem_cons, List.not_mem_nil, or_false] at hc
    rcases hc with rfl | rfl | rfl <;> decide
  have hun : unclassified 0 (viewRow (.hub .messages) d r) = unclassified 0 r := by
    unfold unclassified
    rw [hread _ (by simp), hread _ (by simp), hread _ (by simp), viewRow_id]
  have hdata : isData (viewRow (.hub .messages) d r) = isData r := by
    unfold isData
    rw [hread _ (by simp)]
  unfold reclassified
  rw [hun, hdata]
  by_cases h : (unclassified 0 r && isData r) = true
  · rw [if_pos h, if_pos h]
    have hcells : (viewRow (.hub .messages) d (FileRow.marked r)).cells =
        (FileRow.marked (viewRow (.hub .messages) d r)).cells := by
      funext c
      by_cases hc : c = .hub .isBinary
      · subst hc
        rw [viewRow_cell (by decide) (hcols _ (by simp))]
        rfl
      · have hlookup : [(Column.hub .isBinary, Server.integer 1)].lookup c = none := by
          rw [List.lookup_eq_none_iff]
          intro x hx
          rw [List.mem_singleton.mp hx]
          exact bne_iff_ne.mpr hc
        simp only [viewRow, FileRow.marked, assign, hlookup]
    exact congrArg (Row.mk r.id) hcells
  · rw [if_neg h, if_neg h]

theorem migrationDataMessages_advances : Advances 4 migrationDataMessages := by
  intro f hf
  obtain ⟨d, hd⟩ := hf.table (t := .hub .messages) (by decide)
  have hcols : ∀ c ∈ [Column.hub .direction, .hub .isBinary, .hub .rawPdu], c ∈ d.columns := by
    intro c hc
    refine hf.columns _ d hd c ?_
    simp only [List.mem_cons, List.not_mem_nil, or_false] at hc
    rcases hc with rfl | rfl | rfl <;> exact ⟨by decide, by decide⟩
  have hreadable : Readable d := by
    refine ⟨hcols, ?_, hf.sound.pdus d hd (hcols _ (by simp))⟩
    exact List.pairwise_map.mp (hf.sound.messages d hd)
  have hids : (d.rows.map reclassified).map Row.id = d.rows.map Row.id := by
    rw [List.map_map]
    exact List.map_congr_left fun r _ => reclassified_id r
  refine ⟨_, migrationDataMessages_ok hd hreadable, ?_, ?_⟩
  · refine hf.setTable (hf.sound.setTable (by decide) hd hids ?_) (fun c hc => ?_) fun t c _ hc => ?_
    · intro _ hcol r' hr'
      obtain ⟨r, hr, rfl⟩ := List.mem_map.mp hr'
      have hpdu := hf.sound.pdus d hd hcol r hr
      unfold PduText at hpdu ⊢
      have hcell : (reclassified r).cells (.hub .rawPdu) = r.cells (.hub .rawPdu) := by
        unfold reclassified
        split <;> rfl
      rw [hcell]
      exact hpdu
    · exact hf.columns _ d hd c (known_le (v := 4) rfl _ c hc)
    · exact known_le (v := 4) rfl t c hc
  · have hchange : change (4 + 1) (contents f) = (contents f).reclassify := rfl
    rw [hchange]
    funext t
    unfold Contents.reclassify
    by_cases he : t = .hub .messages
    · subst he
      rw [if_pos rfl, contents_of_some (by decide) (setTable_self _),
        contents_of_some (by decide) hd]
      show (d.rows.map reclassified).map _ = (d.rows.map _).map _
      rw [List.map_map, List.map_map]
      exact List.map_congr_left fun r _ => reclassified_viewRow hcols
    · rw [if_neg he]
      exact contents_setTable_ne he _

/-! ### The event streams -/

/-- The rebuilt table shows what the old one showed: `SCHEMA` has the empty stream as default. -/
theorem view_rebuilt (hcols : ∀ c ∈ INGESTED_BEFORE, c ∈ d.columns)
    (hstream : Column.hub .streamId ∉ d.columns) :
    view .ingested ⟨names .ingestedV14, d.rows.map withoutStream, d.seq⟩ = view .ingested d := by
  show (d.rows.map withoutStream).map _ = d.rows.map _
  rw [List.map_map]
  refine List.map_congr_left fun r _ => ?_
  have hcells : (viewRow .ingested ⟨names .ingestedV14, d.rows.map withoutStream, d.seq⟩
      (withoutStream r)).cells = (viewRow .ingested d r).cells := by
    funext c
    by_cases hname : c ∈ names .ingested
    · rw [viewRow_cell hname hname]
      have hnames : names .ingested =
        [.hub .agentId, .hub .streamId, .hub .seq, .hub .kind, .at] := rfl
      rw [hnames] at hname
      simp only [List.mem_cons, List.not_mem_nil, or_false] at hname
      rcases hname with rfl | rfl | rfl | rfl | rfl
      · rw [viewRow_cell (by decide) (hcols _ (by decide))]; rfl
      · simp only [viewRow, if_neg hstream]
        rfl
      · rw [viewRow_cell (by decide) (hcols _ (by decide))]; rfl
      · rw [viewRow_cell (by decide) (hcols _ (by decide))]; rfl
      · rw [viewRow_cell (by decide) (hcols _ (by decide))]; rfl
    · simp only [viewRow, if_neg hname]
  exact congrArg (Row.mk r.id) hcells

theorem migrationEventStreamEpoch_advances : Advances 13 migrationEventStreamEpoch := by
  intro f hf
  obtain ⟨f₁, hplain₁, hready₁, hcontents₁⟩ := hf.add (t := .hub .agents)
    (by decide) [textDefault (.hub .streamId) ""] (by decide)
    (List.all_eq_true.mp (by decide))
  obtain ⟨d, hd⟩ := hready₁.table (t := .ingested) (by decide)
  have hadded : ADDED.filter (fun x => x.1 == 13 + 1) =
      [(14, .hub .agents, [.hub .streamId]), (14, .ingested, [.hub .streamId])] := rfl
  have hknown : ∀ t c, t ≠ .ingested → known (13 + 1) t c →
      also (known 13) (.hub .agents) [.hub .streamId] t c := by
    intro t c hne hc
    rcases known_succ hc with h | ⟨x, hx, rfl, hmem⟩
    · exact .inl h
    · rw [hadded] at hx
      rcases List.mem_cons.mp hx with rfl | hx
      · exact .inr ⟨rfl, hmem⟩
      · obtain rfl := List.mem_singleton.mp hx
        exact absurd rfl hne
  have hbefore : ∀ c ∈ INGESTED_BEFORE, c ∈ d.columns := by
    intro c hc
    refine hready₁.columns _ d hd c (.inl ?_)
    simp only [INGESTED_BEFORE, List.mem_cons, List.not_mem_nil, or_false] at hc
    rcases hc with rfl | rfl | rfl | rfl <;> exact ⟨by decide, by decide⟩
  have hinfo : (run (tableInfo .ingested)).plain f₁ = .ok (d.columns, f₁) := by
    rw [run, Program.plain_statement, tableInfo, hd]
    rfl
  rw [migrationEventStreamEpoch, Program.plain_bind_ok hplain₁, Program.plain_bind_ok hinfo]
  by_cases hstream : Column.hub .streamId ∈ d.columns
  · rw [if_pos (List.contains_iff_mem.mpr hstream)]
    refine ⟨f₁, rfl, ⟨hready₁.sound, hready₁.tables, hready₁.indexes, fun t x hx c hc => ?_⟩, ?_⟩
    · by_cases he : t = .ingested
      · subst he
        obtain rfl : d = x := Option.some.inj (hd.symm.trans hx)
        rcases known_succ hc with h | ⟨y, hy, hyt, hmem⟩
        · exact hready₁.columns _ d hd c (.inl h)
        · rw [hadded] at hy
          rcases List.mem_cons.mp hy with rfl | hy
          · cases hyt
          · obtain rfl := List.mem_singleton.mp hy
            rw [List.mem_singleton.mp hmem]
            exact hstream
      · exact hready₁.columns t x hx c (hknown t c he hc)
    · rw [hcontents₁, change_id (by decide) (by decide)]
  · rw [if_neg (by simpa using hstream)]
    refine ⟨_, rebuild_ok hd hready₁.sound.rebuilt hbefore (hready₁.sound.ingested d hd hstream),
      ?_, ?_⟩
    · refine hready₁.setTable ?_ (fun c hc => hc.1) fun t c he hc => hknown t c he hc
      have hsound := hready₁.sound
      have hne : ∀ {t : Table}, t ≠ .ingested → ∀ x : TableData,
          (f₁.setTable .ingested (some x)).tables t = f₁.tables t :=
        fun ht x => setTable_ne ht _
      constructor
      · exact fun x hx => hsound.messages x ((hne (by decide) _).symm.trans hx)
      · exact fun x hx => hsound.pdus x ((hne (by decide) _).symm.trans hx)
      · exact fun x hx => hsound.tasks x ((hne (by decide) _).symm.trans hx)
      · intro x hx hnot
        rw [setTable_self] at hx
        cases hx
        exact absurd (show Column.hub .streamId ∈ names .ingestedV14 by decide) hnot
      · rw [incidentsOf_setTable (by decide)]
        exact hsound.incidents
      · exact (hne (by decide) _).trans hsound.rebuilt
    · rw [contents_setTable fun hi => ?_, hcontents₁, change_id (by decide) (by decide)]
      rw [contents_of_some hi hd, view_rebuilt hbefore hstream]

/-! ### The tasks -/

/-- The cells of a task and of a module that the pinning reads. -/
theorem candidates_viewRow {dev : TableData} (hp : Pinnable d dev) (r m : FileRow) :
    candidates (viewRow (.hub .tasks) d r) (viewRow (.hub .devices) dev m) = candidates r m := by
  unfold candidates
  rw [viewRow_cell (by decide) hp.device, viewRow_cell (by decide) hp.agentId,
    viewRow_cell (by decide) hp.name, viewRow_cell (by decide) hp.agent]

/-- Writing to what `SCHEMA` shows. -/
theorem viewRow_assign {r : FileRow} {as : Assignments Column Server.Cell}
    (has : ∀ x ∈ as, x.1 ∈ names t ∧ x.1 ∈ d.columns) :
    viewRow t d ⟨r.id, assign as r.cells⟩ = ⟨r.id, assign as (viewRow t d r).cells⟩ := by
  refine congrArg (Row.mk r.id) (funext fun c => ?_)
  show (if c ∈ names t then if c ∈ d.columns then assign as r.cells c else defaultOf t c else none) = _
  unfold assign
  cases h : as.lookup c with
  | none => rfl
  | some v =>
    obtain ⟨before, after, hsplit, -⟩ := List.lookup_eq_some_iff.mp h
    obtain ⟨hname, hcol⟩ := has (c, v) (by rw [hsplit]; simp)
    rw [if_pos hname, if_pos hcol]

/-- The pinning reads and writes what `SCHEMA` shows. -/
theorem pinned_viewRow {dev : TableData} (hp : Pinnable d dev) (r : FileRow) :
    viewRow (.hub .tasks) d (pinned dev.rows r) =
      pinned (view (.hub .devices) dev) (viewRow (.hub .tasks) d r) := by
  have hname : (viewRow (.hub .tasks) d r).cells (.hub .device) = r.cells (.hub .device) :=
    viewRow_cell (by decide) hp.device
  have hfilter : (view (.hub .devices) dev).filter (candidates (viewRow (.hub .tasks) d r)) =
      (dev.rows.filter (candidates r)).map (viewRow (.hub .devices) dev) := by
    rw [view, List.filter_map]
    congr 1
    exact List.filter_congr fun m _ => candidates_viewRow hp r m
  have hdeviceId : Column.hub .deviceId ∈ names (.hub .tasks) := by decide
  have hagentId : Column.hub .agentId ∈ names (.hub .tasks) := by decide
  unfold pinned
  rw [hname, hfilter]
  by_cases hempty : textOf (r.cells (.hub .device)) = ""
  · rw [if_pos hempty, if_pos hempty]
  · rw [if_neg hempty, if_neg hempty]
    cases dev.rows.filter (candidates r) with
    | nil => rfl
    | cons m rest =>
      cases rest with
      | nil =>
        rw [List.map_cons, List.map_nil]
        dsimp only
        rw [viewRow_cell (by decide) hp.agent, viewRow_id]
        refine viewRow_assign fun x hx => ?_
        rcases List.mem_cons.mp hx with rfl | hx
        · exact ⟨hdeviceId, hp.deviceId⟩
        · rw [List.mem_singleton.mp hx]
          exact ⟨hagentId, hp.agentId⟩
      | cons other rest =>
        rw [List.map_cons, List.map_cons]
        dsimp only
        refine viewRow_assign fun x hx => ?_
        rw [List.mem_singleton.mp hx]
        exact ⟨by decide, hp.enabled⟩

/-- The loop over the tasks that name a module pins all of them: the others stay anyway. -/
theorem pinAll_ok {dev : TableData} (hp : Pinnable d dev) (hd : f.tables (.hub .tasks) = some d)
    (hdev : f.tables (.hub .devices) = some dev) (hnodup : (d.rows.map Row.id).Nodup) :
    ∃ unclear, (pinTasks (d.rows.filter fun r =>
        decide (textOf (r.cells (.hub .device)) ≠ ""))).plain f =
      .ok (unclear, f.setTable (.hub .tasks) (some { d with rows := d.rows.map (pinned dev.rows) })) := by
  have hsame : ∀ r ∈ d.rows, ∀ task ∈ d.rows.filter (fun r =>
      decide (textOf (r.cells (.hub .device)) ≠ "")), r.id = task.id → r = task := by
    intro r hr task ht he
    exact List.inj_on_of_nodup_map hnodup hr (List.mem_of_mem_filter ht) he
  have hrun := pinTasks_ok hp hd hdev hsame
    (hnodup.sublist (List.filter_sublist.map Row.id)) (fun task ht =>
      of_decide_eq_true (List.mem_filter.mp ht).2)
  have hrows : (d.rows.map fun r => if r.id ∈ (d.rows.filter fun r =>
      decide (textOf (r.cells (.hub .device)) ≠ "")).map Row.id then pinned dev.rows r else r) =
      d.rows.map (pinned dev.rows) := by
    refine List.map_congr_left fun r hr => ?_
    by_cases hin : r.id ∈ (d.rows.filter fun r =>
        decide (textOf (r.cells (.hub .device)) ≠ "")).map Row.id
    · rw [if_pos hin]
    · have hempty : textOf (r.cells (.hub .device)) = "" := by
        by_contra hne
        exact hin (List.mem_map_of_mem (List.mem_filter.mpr ⟨hr, decide_eq_true hne⟩))
      rw [if_neg hin, pinned, if_pos hempty]
  rw [hrows] at hrun
  exact ⟨_, hrun⟩

/-- An incident more. -/
theorem Ready.incident (h : Ready K f) {i i' : TableData}
    (hi : f.tables (.hub .incidents) = some i) (hcols : i'.columns = i.columns)
    (hc : Consistent Server.SCHEMA (incidentsOf (f.setTable (.hub .incidents) (some i')))) :
    Ready K (f.setTable (.hub .incidents) (some i')) ∧
      contents (f.setTable (.hub .incidents) (some i')) = contents f := by
  refine ⟨h.setTable ?_ (fun c hk => ?_) fun _ _ _ hk => hk, contents_setTable (absurd rfl)⟩
  · have hsound := h.sound
    have hne : ∀ {t : Table}, t ≠ .hub .incidents →
        (f.setTable (.hub .incidents) (some i')).tables t = f.tables t := fun ht => setTable_ne ht _
    constructor
    · exact fun x hx => hsound.messages x ((hne (by decide)).symm.trans hx)
    · exact fun x hx => hsound.pdus x ((hne (by decide)).symm.trans hx)
    · exact fun x hx => hsound.tasks x ((hne (by decide)).symm.trans hx)
    · exact fun x hx => hsound.ingested x ((hne (by decide)).symm.trans hx)
    · exact hc
    · exact (hne (by decide)).trans hsound.rebuilt
  · rw [hcols]
    exact h.columns _ i hi c hk

theorem migrationTaskDeviceId_advances : Advances 14 (migrationTaskDeviceId E) := by
  intro f hf
  obtain ⟨f₁, hplain₁, hready₁, hcontents₁⟩ := hf.add (t := .hub .tasks)
    (by decide) [nullable (.hub .deviceId)] (by decide) (List.all_eq_true.mp (by decide))
  obtain ⟨d, hd⟩ := hready₁.table (t := .hub .tasks) (by decide)
  obtain ⟨dev, hdev⟩ := hready₁.table (t := .hub .devices) (by decide)
  obtain ⟨i, hi⟩ := hready₁.table (t := .hub .incidents) (by decide)
  have htask := hready₁.columns _ d hd
  have hp : Pinnable d dev :=
    ⟨htask _ (.inl ⟨by decide, by decide⟩), htask _ (.inr ⟨rfl, List.mem_singleton_self _⟩),
      htask _ (.inl ⟨by decide, by decide⟩), htask _ (.inl ⟨by decide, by decide⟩),
      hready₁.columns _ dev hdev _ (.inl ⟨by decide, by decide⟩),
      hready₁.columns _ dev hdev _ (.inl ⟨by decide, by decide⟩)⟩
  have hselect : (run (select (.hub .tasks) [.hub .device, .hub .agentId] fun r =>
      decide (textOf (r.cells (.hub .device)) ≠ ""))).plain f₁ =
      .ok (d.rows.filter fun r => decide (textOf (r.cells (.hub .device)) ≠ ""), f₁) := by
    rw [run, Program.plain_statement]
    refine onTable_read hd fun c hc => ?_
    rcases List.mem_cons.mp hc with rfl | hc
    · exact hp.device
    · rw [List.mem_singleton.mp hc]; exact hp.agentId
  obtain ⟨unclear, hpin⟩ := pinAll_ok hp hd hdev (hready₁.sound.tasks d hd)
  have hids : (d.rows.map (pinned dev.rows)).map Row.id = d.rows.map Row.id := by
    rw [List.map_map]
    exact List.map_congr_left fun r _ => pinned_id dev.rows r
  have hready₂ : Ready (known (14 + 1)) (f₁.setTable (.hub .tasks)
      (some { d with rows := d.rows.map (pinned dev.rows) })) := by
    have hadded : ADDED.filter (fun x => x.1 == 14 + 1) = [(15, .hub .tasks, [.hub .deviceId])] := rfl
    refine hready₁.setTable (hready₁.sound.setTable (by decide) hd hids
      fun he => absurd he (by decide)) (fun c hc => ?_)
      fun t c _ hc => known_le_also hadded t c hc
    exact htask c (known_le_also hadded _ c hc)
  have hcontents₂ : contents (f₁.setTable (.hub .tasks)
      (some { d with rows := d.rows.map (pinned dev.rows) })) = (contents f).pin := by
    rw [← hcontents₁]
    funext t
    unfold Contents.pin
    by_cases he : t = .hub .tasks
    · subst he
      rw [if_pos rfl, contents_of_some (by decide) (setTable_self _),
        contents_of_some (by decide) hd, contents_of_some (by decide) hdev]
      show (d.rows.map (pinned dev.rows)).map _ = (d.rows.map _).map _
      rw [List.map_map, List.map_map]
      exact List.map_congr_left fun r _ => pinned_viewRow hp r
    · rw [if_neg he]
      exact contents_setTable_ne he _
  rw [migrationTaskDeviceId, Program.plain_bind_ok hplain₁, Program.plain_bind_ok hselect,
    Program.plain_bind_ok hpin]
  have hchange : change (14 + 1) (contents f) = (contents f).pin := rfl
  rw [hchange]
  by_cases hclear : unclear.isEmpty = true
  · rw [if_pos hclear]
    exact ⟨_, rfl, hready₂, hcontents₂⟩
  · rw [if_neg hclear, run, Program.plain_statement]
    have hi₂ := (setTable_ne (by decide : Table.hub .incidents ≠ .hub .tasks)
      (some { d with rows := d.rows.map (pinned dev.rows) })).trans hi
    obtain ⟨i', hopen, hcols, hconsistent⟩ := openIncident_ok (E := E) hi₂ hready₂.sound.incidents
      "task-device-ambiguous" "task_device_ambiguous" "warning" "migration"
      "保号任务的目标模块无法唯一确定"
      ("以下任务的设备名在多个 Agent 上都存在，已暂停以避免发到错误的卡，" ++
        "请在任务页重新指定模块后启用：" ++ "、".intercalate (unclear.map taskLabel))
    obtain ⟨hready₃, hcontents₃⟩ := hready₂.incident hi₂ hcols hconsistent
    exact ⟨_, hopen, hready₃, hcontents₃.trans hcontents₂⟩

/-! ## From any version to the last -/

/-- Migrations that lead from a version to the next ones, without a gap. -/
inductive Leads : Nat → List (Nat × Migration Unit) → Prop
  | done (v : Nat) : Leads v []
  | next {v : Nat} {p : Migration Unit} {xs : List (Nat × Migration Unit)} :
      Advances v p → Leads (v + 1) xs → Leads v ((v + 1, p) :: xs)

theorem migrations_lead : Leads 0 (MIGRATIONS E) :=
  .next reconcileToBaseline_advances <| .next migrationMessageDiagnostics_advances <|
  .next migrationAgentProtocolVersion_advances <| .next migrationSmsDeliverySegments_advances <|
  .next migrationDataMessages_advances <| .next migrationSimLifecycle_advances <|
  .next migrationMessageConversationIndex_advances <| .next migrationModemDiagnostics_advances <|
  .next migrationSupplyVoltage_advances <| .next migrationSalvagedMessages_advances <|
  .next migrationCalls_advances <| .next migrationDataControls_advances <|
  .next migrationDataPolicy_advances <| .next migrationEventStreamEpoch_advances <|
  .next migrationTaskDeviceId_advances <| .next migrationNotifyOutbox_advances <|
  .next migrationTaskSync_advances <| .next migrationOperations_advances <|
  .next migrationTaskRunId_advances <| .done 19

/-- What `Ready` and `contents` look at is not the version. -/
theorem Ready.setVersion (h : Ready K f) (v : Nat) : Ready K { f with version := v } :=
  ⟨⟨h.sound.messages, h.sound.pdus, h.sound.tasks, h.sound.ingested, h.sound.incidents,
    h.sound.rebuilt⟩, h.tables, h.indexes, h.columns⟩

/-- **A ready file of any of the versions gets to the last one**, and its contents change by what
    is above its version. -/
theorem complete_of_leads {v : Nat} {xs : List (Nat × Migration Unit)} (hx : Leads v xs)
    (hf : Ready (known f.version) f) (hlow : v ≤ f.version) (hhigh : f.version ≤ v + xs.length) :
    ∃ f', complete (xs.map versionStep) f = .ok f' ∧ f'.version = v + xs.length ∧
      Ready (known f'.version) f' ∧
      upgrade f'.version (contents f') = upgrade f.version (contents f) := by
  induction hx generalizing f with
  | done v =>
    refine ⟨f, rfl, ?_, hf, rfl⟩
    rw [List.length_nil] at hhigh ⊢
    omega
  | @next v p xs hp _ ih =>
    rw [List.length_cons] at hhigh ⊢
    rw [List.map_cons, complete]
    by_cases hskip : v + 1 ≤ f.version
    · have hrun : (versionStep (v + 1, p)).run f = .ok f := if_pos hskip
      rw [hrun]
      obtain ⟨f', hc, hv, hr, hu⟩ := ih hf hskip (by omega)
      exact ⟨f', hc, by omega, hr, hu⟩
    · have hv : f.version = v := by omega
      rw [hv] at hf
      obtain ⟨f₁, hplain, hready, hcontents⟩ := hp f hf
      have hrun : (versionStep (v + 1, p)).run f = .ok { f₁ with version := v + 1 } := by
        refine (if_neg hskip).trans ?_
        rw [migrated, show (v + 1, p).2 = p from rfl, hplain]
        rfl
      rw [hrun]
      obtain ⟨f', hc, hv', hr, hu⟩ := ih (f := { f₁ with version := v + 1 }) (hready.setVersion _)
        (Nat.le_refl _) (show v + 1 ≤ v + 1 + xs.length by omega)
      refine ⟨f', hc, by omega, hr, hu.trans ?_⟩
      show upgrade (v + 1) (contents f₁) = _
      rw [hcontents, hv, upgrade_succ]

end Air780eHub.Migrations
