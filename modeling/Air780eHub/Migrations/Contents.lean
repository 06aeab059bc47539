/-
  What a database file says, and what each migration makes of it.

  `contents` reads every table through the columns of `SCHEMA`: a column an old table does not have
  yet reads as its default.  So read, most migrations change nothing; one marks the stored data
  messages and one pins the tasks.  The incidents, which the last of these may add to, are left out.

  1. **`contents`** and `change`, what each version changes.
  2. **`Sound`**: what the migrations take for granted about the rows.
  3. **`Ready`**: a file that has every table, with the columns of a version.
  4. **`Advances n p`** for each migration.
-/
import Air780eHub.Migrations.Addresses
import Air780eHub.Migrations.DataMessages

namespace Air780eHub.Migrations

open Relational Autocommit

variable {f f' : File} {t : Table} {d d' : TableData} {E : Server.Env} {K K' : Table → Column → Prop}

/-! ## Contents -/

/-- A row as `SCHEMA` shows it. -/
def viewRow (t : Table) (d : TableData) (r : FileRow) : FileRow :=
  ⟨r.id, fun c => if c ∈ names t then if c ∈ d.columns then r.cells c else defaultOf t c else none⟩

/-- The rows of a table. -/
def view (t : Table) (d : TableData) : List FileRow := d.rows.map (viewRow t d)

/-- What all the tables say. -/
abbrev Contents := Table → List FileRow

/-- The contents of a file.  A table that is not there has no rows. -/
def contents (f : File) : Contents := fun t =>
  if t = .hub .incidents then [] else ((f.tables t).map (view t)).getD []

/-- The data messages are marked. -/
def Contents.reclassify (s : Contents) : Contents := fun t =>
  if t = .hub .messages then (s t).map reclassified else s t

/-- The tasks have their modules. -/
def Contents.pin (s : Contents) : Contents := fun t =>
  if t = .hub .tasks then (s t).map (pinned (s (.hub .devices))) else s t

/-- What the migration to a version changes. -/
def change (v : Nat) (s : Contents) : Contents :=
  if v = 5 then s.reclassify else if v = 15 then s.pin else s

/-- What all the migrations above a version change. -/
def upgrade (v : Nat) (s : Contents) : Contents :=
  let s := if v < 5 then s.reclassify else s
  if v < 15 then s.pin else s

theorem change_id {v : Nat} (h₅ : v ≠ 5) (h₁₅ : v ≠ 15) (s : Contents) : change v s = s := by
  rw [change, if_neg h₅, if_neg h₁₅]

theorem upgrade_succ (v : Nat) (s : Contents) : upgrade (v + 1) (change (v + 1) s) = upgrade v s := by
  by_cases h₄ : v = 4
  · subst h₄
    rfl
  by_cases h₁₄ : v = 14
  · subst h₁₄
    rfl
  have h₅ : v + 1 < 5 ↔ v < 5 := by omega
  have h₁₅ : v + 1 < 15 ↔ v < 15 := by omega
  rw [change_id (by omega) (by omega)]
  unfold upgrade
  simp only [h₅, h₁₅]

@[simp] theorem viewRow_id (r : FileRow) : (viewRow t d r).id = r.id := rfl

theorem viewRow_cell {r : FileRow} {c : Column} (hname : c ∈ names t) (hc : c ∈ d.columns) :
    (viewRow t d r).cells c = r.cells c := by
  show (if c ∈ names t then if c ∈ d.columns then r.cells c else defaultOf t c else none) = _
  rw [if_pos hname, if_pos hc]

/-- **New columns do not show.** -/
theorem view_widens (h : Widens t d d') : view t d' = view t d := by
  have hrow : ∀ r r', WidensRow t d d' r r' → viewRow t d' r' = viewRow t d r := by
    intro r r' hr
    have hcells : (viewRow t d' r').cells = (viewRow t d r).cells := by
      funext c
      show (if c ∈ names t then if c ∈ d'.columns then r'.cells c else defaultOf t c else none) =
        if c ∈ names t then if c ∈ d.columns then r.cells c else defaultOf t c else none
      by_cases hc : c ∈ d.columns
      · rw [if_pos hc, if_pos (h.columns c hc), hr.old c hc]
      · rw [if_neg hc]
        by_cases hc' : c ∈ d'.columns
        · rw [if_pos hc', hr.fresh c hc' hc]
        · rw [if_neg hc']
    rw [show viewRow t d' r' = ⟨r'.id, (viewRow t d' r').cells⟩ from rfl, hr.id, hcells]
    rfl
  have hrows := h.rows
  unfold view
  revert hrows
  generalize d'.rows = rows'
  generalize d.rows = rows
  intro hrows
  induction hrows with
  | nil => rfl
  | cons hr _ ih => rw [List.map_cons, List.map_cons, hrow _ _ hr, ih]

theorem contents_setTable_ne {t' : Table} (h : t' ≠ t) (x : Option TableData) :
    contents (f.setTable t x) t' = contents f t' := by
  unfold contents
  rw [setTable_ne h]

theorem contents_of_some (ht : t ≠ .hub .incidents) (hd : f.tables t = some d) :
    contents f t = view t d := by
  rw [contents, if_neg ht, hd]
  rfl

/-- A table with the same rows to show. -/
theorem contents_setTable (h : t ≠ .hub .incidents → contents f t = view t d) :
    contents (f.setTable t (some d)) = contents f := by
  funext t'
  by_cases he : t' = t
  · subst he
    by_cases hi : t' = .hub .incidents
    · rw [contents, contents, if_pos hi, if_pos hi]
    · rw [contents_of_some hi (setTable_self _), h hi]
  · exact contents_setTable_ne he _

/-! ## Sound files -/

/-- What the tables' constraints, and the Servers that wrote the file, promise about its rows. -/
structure Sound (f : File) : Prop where
  messages  : ∀ d, f.tables (.hub .messages) = some d → (d.rows.map Row.id).Pairwise (· < ·)
  pdus      : ∀ d, f.tables (.hub .messages) = some d → Column.hub .rawPdu ∈ d.columns →
    ∀ r ∈ d.rows, PduText r
  tasks     : ∀ d, f.tables (.hub .tasks) = some d → (d.rows.map Row.id).Nodup
  ingested  : ∀ d, f.tables .ingested = some d → Column.hub .streamId ∉ d.columns →
    distinct oldIngestKey d.rows = true
  incidents : Consistent Server.SCHEMA (incidentsOf f)
  rebuilt   : f.tables .ingestedV14 = none

/-- The tables that only get wider. -/
def Widened (t : Table) : Prop := t ≠ .ingested ∧ t ≠ .hub .incidents ∧ t ≠ .ingestedV14

instance (t : Table) : Decidable (Widened t) := by unfold Widened; infer_instance

theorem incidentsOf_setTable (h : t ≠ .hub .incidents) (x : Option TableData) :
    incidentsOf (f.setTable t x) = incidentsOf f := by
  unfold incidentsOf
  rw [setTable_ne h.symm]

/-- A sound file stays sound when a table with as many messages, tasks and so on takes the place of
    another. -/
theorem Sound.setTable (h : Sound f) (ht : Widened t) (hd : f.tables t = some d)
    (hids : d'.rows.map Row.id = d.rows.map Row.id)
    (hpdus : t = .hub .messages → Column.hub .rawPdu ∈ d'.columns → ∀ r ∈ d'.rows, PduText r) :
    Sound (f.setTable t (some d')) where
  messages := by
    intro x hx
    by_cases he : Table.hub .messages = t
    · rw [he, setTable_self] at hx
      cases hx
      rw [hids]
      exact h.messages d (he ▸ hd)
    · exact h.messages x ((setTable_ne he _).symm.trans hx)
  pdus := by
    intro x hx
    by_cases he : Table.hub .messages = t
    · rw [he, setTable_self] at hx
      cases hx
      exact hpdus he.symm
    · exact h.pdus x ((setTable_ne he _).symm.trans hx)
  tasks := by
    intro x hx
    by_cases he : Table.hub .tasks = t
    · rw [he, setTable_self] at hx
      cases hx
      rw [hids]
      exact h.tasks d (he ▸ hd)
    · exact h.tasks x ((setTable_ne he _).symm.trans hx)
  ingested := fun x hx => h.ingested x ((setTable_ne ht.1.symm _).symm.trans hx)
  incidents := by
    rw [incidentsOf_setTable ht.2.1]
    exact h.incidents
  rebuilt := (setTable_ne ht.2.2.symm _).trans h.rebuilt

/-- New columns keep a file sound: the PDU of an old message is NULL. -/
theorem Sound.widen (h : Sound f) (ht : Widened t) (hd : f.tables t = some d)
    (hw : Widens t d d') : Sound (f.setTable t (some d')) := by
  refine h.setTable ht hd hw.ids ?_
  rintro rfl hcol r' hr'
  obtain ⟨r, hr, hrow⟩ := hw.of_mem hr'
  by_cases hold : Column.hub .rawPdu ∈ d.columns
  · have hpdu := h.pdus d hd hold r hr
    unfold PduText
    rw [hrow.old _ hold]
    exact hpdu
  · exact .inl (hrow.fresh _ hcol hold)

/-! ## Files ready for a migration -/

/-- Every table and index is there, with certain columns. -/
structure Ready (K : Table → Column → Prop) (f : File) : Prop where
  sound   : Sound f
  tables  : ∀ t, t ≠ .ingestedV14 → (f.tables t).isSome
  indexes : ∀ ix, ix ∈ f.indexes
  columns : ∀ t d, f.tables t = some d → ∀ c, K t c → c ∈ d.columns

theorem Ready.mono (h : Ready K f) (hle : ∀ t c, K' t c → K t c) : Ready K' f :=
  ⟨h.sound, h.tables, h.indexes, fun t d hd c hc => h.columns t d hd c (hle t c hc)⟩

theorem Ready.table (h : Ready K f) (ht : t ≠ .ingestedV14) : ∃ d, f.tables t = some d :=
  Option.isSome_iff_exists.mp (h.tables t ht)

/-- Another content of a table. -/
theorem Ready.setTable (h : Ready K f) (hsound : Sound (f.setTable t (some d)))
    (hcols : ∀ c, K' t c → c ∈ d.columns) (hle : ∀ t' c, t' ≠ t → K' t' c → K t' c) :
    Ready K' (f.setTable t (some d)) := by
  refine ⟨hsound, fun t' ht' => ?_, h.indexes, fun t' x hx c hc => ?_⟩
  · by_cases he : t' = t
    · rw [he, setTable_self]; rfl
    · rw [setTable_ne he]; exact h.tables t' ht'
  · by_cases he : t' = t
    · subst he
      rw [setTable_self] at hx
      cases hx
      exact hcols c hc
    · exact h.columns t' x ((setTable_ne he _).symm.trans hx) c (hle t' c he hc)

/-- **A migration of a ready file**: it gets through, the file has the columns of the next version,
    and its contents change as they should. -/
def Advances (v : Nat) (p : Migration Unit) : Prop :=
  ∀ f, Ready (known v) f → ∃ f', p.plain f = .ok ((), f') ∧ Ready (known (v + 1)) f' ∧
    contents f' = change (v + 1) (contents f)

/-! ### Migrations that add columns -/

/-- The columns known and those of one more list. -/
def also (K : Table → Column → Prop) (t : Table) (cols : List Column) : Table → Column → Prop :=
  fun t' c => K t' c ∨ t' = t ∧ c ∈ cols

theorem Ready.widen (h : Ready K f) (ht : Widened t) (hd : f.tables t = some d)
    (hw : Widens t d d') (cols : List Column) (hcols : ∀ c ∈ cols, c ∈ d'.columns) :
    Ready (also K t cols) (f.setTable t (some d')) ∧
      contents (f.setTable t (some d')) = contents f := by
  constructor
  · refine h.setTable (h.sound.widen ht hd hw) (fun c hc => ?_) fun t' c he hc => ?_
    · rcases hc with hc | ⟨_, hc⟩
      · exact hw.columns c (h.columns t d hd c hc)
      · exact hcols c hc
    · rcases hc with hc | ⟨hc, _⟩
      · exact hc
      · exact absurd hc he
  · refine contents_setTable fun hi => ?_
    rw [contents_of_some hi hd, view_widens hw]

/-- `_add_columns_if_missing` on a ready file. -/
theorem Ready.add (h : Ready K f) (ht : Widened t) (cols : List ColumnDef)
    (hnodup : (cols.map ColumnDef.column).Nodup) (hadd : ∀ c ∈ cols, Addable t c = true) :
    ∃ f', (addColumnsIfMissing t cols).plain f = .ok (⟨⟩, f') ∧
      Ready (also K t (cols.map ColumnDef.column)) f' ∧ contents f' = contents f := by
  obtain ⟨d, hd⟩ := h.table ht.2.2
  obtain ⟨d', hplain, hw, hcols⟩ := addColumnsIfMissing_ok hd hnodup hadd
  have hready := h.widen ht hd hw (cols.map ColumnDef.column) fun c hc => by
    obtain ⟨x, hx, rfl⟩ := List.mem_map.mp hc
    exact hcols x hx
  exact ⟨_, hplain, hready⟩

/-- The next version knows the columns that were added to one table. -/
theorem known_le_also {v : Nat} {cols : List Column}
    (hadded : ADDED.filter (fun x => x.1 == v + 1) = [(v + 1, t, cols)]) :
    ∀ t' c, known (v + 1) t' c → also (known v) t cols t' c := by
  intro t' c hc
  rcases known_succ hc with h | ⟨x, hx, rfl, hmem⟩
  · exact .inl h
  · rw [hadded, List.mem_singleton] at hx
    subst hx
    exact .inr ⟨rfl, hmem⟩

/-- The next version knows no more. -/
theorem known_le {v : Nat} (hadded : ADDED.filter (fun x => x.1 == v + 1) = []) :
    ∀ t c, known (v + 1) t c → known v t c := by
  intro t c hc
  rcases known_succ hc with h | ⟨x, hx, _⟩
  · exact h
  · rw [hadded] at hx
    cases hx

/-- The migrations that add columns to one table. -/
theorem advances_add {v : Nat} {cols : List ColumnDef} (ht : Widened t)
    (hadded : ADDED.filter (fun x => x.1 == v + 1) = [(v + 1, t, cols.map ColumnDef.column)])
    (hnodup : (cols.map ColumnDef.column).Nodup) (hadd : cols.all (Addable t) = true)
    (h₅ : v + 1 ≠ 5) (h₁₅ : v + 1 ≠ 15) : Advances v (addColumnsIfMissing t cols) := by
  intro f hf
  obtain ⟨f', hplain, hready, hcontents⟩ := hf.add ht cols hnodup (List.all_eq_true.mp hadd)
  exact ⟨f', hplain, hready.mono (known_le_also hadded), hcontents.trans (change_id h₅ h₁₅ _).symm⟩

/-! ### Migrations that create -/

/-- A `CREATE … IF NOT EXISTS` finds what it looks for. -/
theorem create_idle (h : Ready K f) (q : Create) (hq : q ≠ .table .ingestedV14) :
    (run q.exec).plain f = .ok ((), f) := by
  rw [run, Program.plain_statement]
  refine exec_of_there ?_
  cases q with
  | table t => exact h.tables t fun he => hq (he ▸ rfl)
  | index ix => exact h.indexes ix

/-- The migrations that create tables and indexes have nothing to do after `SCHEMA`. -/
theorem advances_idle {v : Nat} {p : Migration Unit}
    (hadded : ADDED.filter (fun x => x.1 == v + 1) = [])
    (hidle : ∀ f, Ready (known v) f → p.plain f = .ok ((), f))
    (h₅ : v + 1 ≠ 5) (h₁₅ : v + 1 ≠ 15) : Advances v p :=
  fun f hf => ⟨f, hidle f hf, hf.mono (known_le hadded), (change_id h₅ h₁₅ _).symm⟩

end Air780eHub.Migrations
