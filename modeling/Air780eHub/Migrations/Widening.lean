/-
  What adding columns does to a table, and which columns a file of a version has.

  1. **`Widens t d d'`**: the same rows with the cells they had, and new columns with the defaults
     that `SCHEMA` declares.
  2. **`addColumnsIfMissing_ok`**.
  3. **`known v`**: the columns of the Server that had version `v`.
-/
import Air780eHub.Lib.Constraints
import Air780eHub.Migrations.Runs

namespace Air780eHub.Migrations

open Relational Autocommit Resume

variable {f f' : File} {t : Table} {d d' d'' : TableData} {E : Server.Env}

/-! ## Wider tables -/

/-- The default `SCHEMA` declares. -/
def defaultOf (t : Table) (c : Column) : Option Server.Cell :=
  ((columns t).find? fun x => x.column = c).bind ColumnDef.default

/-- A row of the table before, and the row after. -/
structure WidensRow (t : Table) (d d' : TableData) (r r' : FileRow) : Prop where
  id    : r'.id = r.id
  old   : ∀ c ∈ d.columns, r'.cells c = r.cells c
  fresh : ∀ c ∈ d'.columns, c ∉ d.columns → r'.cells c = defaultOf t c

/-- New columns, and nothing else. -/
structure Widens (t : Table) (d d' : TableData) : Prop where
  columns : ∀ c ∈ d.columns, c ∈ d'.columns
  seq     : d'.seq = d.seq
  rows    : List.Forall₂ (WidensRow t d d') d.rows d'.rows

theorem Widens.refl (t : Table) (d : TableData) : Widens t d d :=
  ⟨fun _ h => h, rfl, List.forall₂_same.mpr fun _ _ => ⟨rfl, fun _ _ => rfl,
    fun _ hc hn => absurd hc hn⟩⟩

theorem Widens.trans (h : Widens t d d') (h' : Widens t d' d'') : Widens t d d'' := by
  refine ⟨fun c hc => h'.columns c (h.columns c hc), h'.seq.trans h.seq, ?_⟩
  refine forall₂_trans (fun r r' r'' hr hr' => ?_) h.rows h'.rows
  refine ⟨hr'.id.trans hr.id, fun c hc => ?_, fun c hc hn => ?_⟩
  · exact (hr'.old c (h.columns c hc)).trans (hr.old c hc)
  · by_cases hmid : c ∈ d'.columns
    · exact (hr'.old c hmid).trans (hr.fresh c hmid hn)
    · exact hr'.fresh c hc hmid

/-- Every row is still there, under its id. -/
theorem Widens.of_mem (h : Widens t d d') {r' : FileRow} (hr : r' ∈ d'.rows) :
    ∃ r ∈ d.rows, WidensRow t d d' r r' := by
  obtain ⟨l, hl', rfl⟩ := List.mem_iff_getElem.mp hr
  have hl : l < d.rows.length := by rw [h.rows.length_eq]; exact hl'
  exact ⟨d.rows[l], List.getElem_mem hl, h.rows.get hl hl'⟩

theorem Widens.ids (h : Widens t d d') : d'.rows.map Row.id = d.rows.map Row.id := by
  have hrows := h.rows
  revert hrows
  generalize d'.rows = rows'
  generalize d.rows = rows
  intro hrows
  induction hrows with
  | nil => rfl
  | cons hr _ ih => rw [List.map_cons, List.map_cons, hr.id, ih]

/-! ## Adding columns -/

/-- A column that may be added to a table with rows, as `SCHEMA` declares it. -/
def Addable (t : Table) (c : ColumnDef) : Bool :=
  decide (defaultOf t c.column = c.default) && !(c.notNull && c.default.isNone)

theorem addColumn_ok {c : ColumnDef} (hd : f.tables t = some d) (hc : c.column ∉ d.columns)
    (hadd : Addable t c = true) :
    ∃ d', addColumn t c f = .ok ((), f.setTable t (some d')) ∧ Widens t d d' ∧
      d'.columns = d.columns ++ [c.column] := by
  simp only [Addable, Bool.and_eq_true, decide_eq_true_eq, Bool.not_eq_true'] at hadd
  obtain ⟨hdefault, hnull⟩ := hadd
  refine ⟨{ d with columns := d.columns ++ [c.column], rows := d.rows.map fun r => r.withDefault c },
    ?_, ⟨fun _ h => List.mem_append_left _ h, rfl, ?_⟩, rfl⟩
  · refine onTable_ok hd (List.forall_mem_nil _) ?_
    have hcontains : d.columns.contains c.column = false := by simpa using hc
    rw [if_neg (by rw [hcontains]; exact nofun), if_neg (by rw [hnull]; exact nofun)]
  · show List.Forall₂ _ d.rows (d.rows.map _)
    rw [List.forall₂_map_right_iff, List.forall₂_same]
    refine fun r _ => ⟨rfl, fun c' hc' => ?_, fun c' hc' hn => ?_⟩
    · exact if_neg fun he : c' = c.column => hc (he ▸ hc')
    · rcases List.mem_append.mp hc' with h | h
      · exact absurd h hn
      · rw [List.mem_singleton] at h
        rw [h, hdefault]
        exact if_pos rfl

theorem addUnless_ok {present : List Column} {c : ColumnDef} (hd : f.tables t = some d)
    (hpresent : c.column ∈ present ↔ c.column ∈ d.columns) (hadd : Addable t c = true) :
    ∃ d', (addUnless present t c).plain f = .ok ((), f.setTable t (some d')) ∧ Widens t d d' ∧
      ∀ x, x ∈ d'.columns ↔ x ∈ d.columns ∨ x = c.column := by
  by_cases hthere : c.column ∈ present
  · refine ⟨d, ?_, .refl t d, fun x => ?_⟩
    · rw [addUnless, if_pos (List.contains_iff_mem.mpr hthere), setTable_eq_self hd]
      rfl
    · constructor
      · exact .inl
      · rintro (h | rfl)
        · exact h
        · exact hpresent.mp hthere
  · obtain ⟨d', hrun, hw, hcols⟩ := addColumn_ok hd (fun h => hthere (hpresent.mpr h)) hadd
    refine ⟨d', ?_, hw, fun x => ?_⟩
    · rw [addUnless, if_neg (by simpa using hthere), run, Program.plain_statement]
      exact hrun
    · rw [hcols, List.mem_append, List.mem_singleton]

/-- The loop of `_add_columns_if_missing`, some columns in. -/
theorem addUnless_forM (present : List Column) {cols : List ColumnDef}
    (hd : f.tables t = some d) (hnodup : (cols.map ColumnDef.column).Nodup)
    (hpresent : ∀ c ∈ cols, c.column ∈ present ↔ c.column ∈ d.columns)
    (hadd : ∀ c ∈ cols, Addable t c = true) :
    ∃ d', (cols.forM (addUnless present t)).plain f = .ok (⟨⟩, f.setTable t (some d')) ∧
      Widens t d d' ∧ ∀ c ∈ cols, c.column ∈ d'.columns := by
  induction cols generalizing f d with
  | nil =>
    refine ⟨d, ?_, .refl t d, nofun⟩
    rw [setTable_eq_self hd]
    rfl
  | cons c cols ih =>
    obtain ⟨hc, hrest⟩ := List.nodup_cons.mp hnodup
    obtain ⟨d₁, hplain₁, hw₁, hcols₁⟩ := addUnless_ok hd (hpresent c List.mem_cons_self)
      (hadd c List.mem_cons_self)
    obtain ⟨d', hplain, hw, hcols⟩ := ih (setTable_self (some d₁)) hrest
      (fun x hx => by
        rw [hpresent x (List.mem_cons_of_mem _ hx), hcols₁]
        constructor
        · exact .inl
        · rintro (h | h)
          · exact h
          · exact absurd (h ▸ List.mem_map_of_mem hx) hc)
      (fun x hx => hadd x (List.mem_cons_of_mem _ hx))
    refine ⟨d', ?_, hw₁.trans hw, fun x hx => ?_⟩
    · show (addUnless present t c >>= fun _ => cols.forM (addUnless present t)).plain f = _
      rw [Program.plain_bind_ok hplain₁, hplain, setTable_setTable]
    · rcases List.mem_cons.mp hx with rfl | hx
      · exact hw.columns _ ((hcols₁ _).mpr (.inr rfl))
      · exact hcols x hx

/-- **`_add_columns_if_missing`** on a table that is there: it does not raise, and the columns are
    there. -/
theorem addColumnsIfMissing_ok {cols : List ColumnDef} (hd : f.tables t = some d)
    (hnodup : (cols.map ColumnDef.column).Nodup) (hadd : ∀ c ∈ cols, Addable t c = true) :
    ∃ d', (addColumnsIfMissing t cols).plain f = .ok (⟨⟩, f.setTable t (some d')) ∧
      Widens t d d' ∧ ∀ c ∈ cols, c.column ∈ d'.columns := by
  have hinfo : (run (tableInfo t)).plain f = .ok (d.columns, f) := by
    rw [run, Program.plain_statement, tableInfo, hd]
    rfl
  rw [addColumnsIfMissing, Program.plain_bind_ok hinfo]
  exact addUnless_forM d.columns hd hnodup (fun _ _ => Iff.rfl) hadd

/-! ## The columns of a version -/

/-- The columns each version added. -/
def ADDED : List (Nat × Table × List Column) :=
  [(1, .hub .messages, [.hub .readAt]),
   (1, .hub .devices, [.hub .radioEnabled]),
   (2, .hub .messages, [.hub .rawPdu, .hub .dcs, .hub .isBinary]),
   (3, .hub .agents, [.hub .protocolVersion]),
   (6, .hub .sims, [.hub .billingType, .hub .planName, .hub .balance, .hub .lowBalanceThreshold,
     .hub .currency, .hub .balanceUpdatedAt, .hub .expiresAt, .hub .activityDueAt]),
   (8, .hub .devices, [.hub .epsRegistered, .hub .csRegistered, .hub .imsRegistered,
     .hub .hardwareModel, .hub .firmware]),
   (9, .hub .devices, [.hub .voltageMv, .hub .lowVoltageMv]),
   (9, .hub .deviceStatus, [.hub .voltageMv]),
   (10, .hub .messages, [.hub .truncated, .hub .recoveredBody, .hub .recoveredCode]),
   (12, .hub .devices, [.hub .dataAttached, .hub .pdpActive, .hub .roaming,
     .hub .roamingDataAllowed, .hub .dataBlockedByRoaming]),
   (13, .hub .devices, [.hub .dataEnabled]),
   (14, .hub .agents, [.hub .streamId]),
   (14, .ingested, [.hub .streamId]),
   (15, .hub .tasks, [.hub .deviceId]),
   (17, .hub .agents, [.hub .tasksRevision, .hub .tasksAppliedRevision, .hub .tasksSyncId,
     .hub .tasksSyncStatus, .hub .tasksSyncError, .hub .tasksSyncSentAt, .hub .tasksSyncedAt]),
   (19, .hub .taskLogs, [.hub .runId])]

/-- The version that added a column, 0 for a column that was always there. -/
def introduced (t : Table) (c : Column) : Nat :=
  ((ADDED.find? fun x => decide (x.2.1 = t) && x.2.2.contains c).map Prod.fst).getD 0

/-- The columns a table has at a version. -/
def known (v : Nat) (t : Table) (c : Column) : Prop := c ∈ names t ∧ introduced t c ≤ v

theorem introduced_le (t : Table) (c : Column) : introduced t c ≤ SCHEMA_VERSION := by
  unfold introduced
  cases h : ADDED.find? fun x => decide (x.2.1 = t) && x.2.2.contains c with
  | none => exact Nat.zero_le _
  | some x =>
    have hall : ADDED.all (fun x => decide (x.1 ≤ SCHEMA_VERSION)) = true := by decide
    exact of_decide_eq_true (List.all_eq_true.mp hall x (List.mem_of_find?_eq_some h))

/-- What the next version knows: what this one knows, and what the next one adds. -/
theorem known_succ {v : Nat} {c : Column} (h : known (v + 1) t c) :
    known v t c ∨ ∃ x ∈ ADDED.filter (fun x => x.1 == v + 1), x.2.1 = t ∧ c ∈ x.2.2 := by
  obtain ⟨hname, hle⟩ := h
  rcases Nat.lt_or_eq_of_le hle with hlt | heq
  · exact .inl ⟨hname, Nat.le_of_lt_succ hlt⟩
  · right
    unfold introduced at heq
    cases hfind : ADDED.find? fun x => decide (x.2.1 = t) && x.2.2.contains c with
    | none =>
      rw [hfind] at heq
      cases heq
    | some x =>
      rw [hfind] at heq
      have hx := List.find?_some hfind
      simp only [Bool.and_eq_true, decide_eq_true_eq, List.contains_iff_mem] at hx
      refine ⟨x, List.mem_filter.mpr ⟨List.mem_of_find?_eq_some hfind, ?_⟩, hx.1, hx.2⟩
      exact beq_iff_eq.mpr heq

end Air780eHub.Migrations
