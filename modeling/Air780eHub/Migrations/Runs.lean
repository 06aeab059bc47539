/-
  Opening a database file, however often it is interrupted.

  `SCHEMA` and the migrations are steps that are committed whole or not at all, and none of them
  undoes what another looks at: a table or an index that is there stays, the version only grows.  So
  an opening that was cut off anywhere, for whatever reason, is taken up by the next one.

  1. **Statements** on one table.
  2. **The steps** of an opening, and that they lead forward.
  3. **`afterSession_outcome`**: what an opening with any faults leaves on the disk.
-/
import Mathlib.Data.List.Forall2
import Air780eHub.Lib.Resume
import Air780eHub.Migrations.Steps

namespace Air780eHub.Migrations

open Relational Autocommit Resume
open Autocommit.Program (Respects)

variable {f f' : File} {t : Table} {E : Server.Env}

/-! ## Statements -/

@[simp] theorem setTable_self (d : Option TableData) : (f.setTable t d).tables t = d := if_pos rfl

theorem setTable_ne {t' : Table} (h : t' ≠ t) (d : Option TableData) :
    (f.setTable t d).tables t' = f.tables t' := if_neg h

@[simp] theorem setTable_setTable (d d' : Option TableData) :
    (f.setTable t d).setTable t d' = f.setTable t d' := by
  have htables : ((f.setTable t d).setTable t d').tables = (f.setTable t d').tables := by
    funext t'
    by_cases he : t' = t
    · rw [he, setTable_self, setTable_self]
    · rw [setTable_ne he, setTable_ne he, setTable_ne he]
  exact congrArg (File.mk f.version · f.indexes) htables

theorem setTable_eq_self {d : Option TableData} (h : f.tables t = d) : f.setTable t d = f := by
  have htables : (f.setTable t d).tables = f.tables := by
    funext t'
    by_cases he : t' = t
    · rw [he, setTable_self, h]
    · exact setTable_ne he d
  exact congrArg (File.mk f.version · f.indexes) htables

@[simp] theorem setTable_version (d : Option TableData) : (f.setTable t d).version = f.version := rfl

@[simp] theorem setTable_indexes (d : Option TableData) : (f.setTable t d).indexes = f.indexes := rfl

/-- A statement on a table that returns has found the table and the columns, and writes nothing
    else. -/
theorem of_onTable {α : Type} {needed : List Column} {a : α}
    {g : TableData → Except Failure (α × TableData)} (h : onTable t needed g f = .ok (a, f')) :
    ∃ d d', f.tables t = some d ∧ (∀ c ∈ needed, c ∈ d.columns) ∧ g d = .ok (a, d') ∧
      f' = f.setTable t (some d') := by
  unfold onTable at h
  split at h
  · cases h
  · rename_i d hd
    split at h
    · rename_i hneeded
      cases hg : g d with
      | error e =>
        rw [hg] at h
        cases h
      | ok r =>
        rw [hg] at h
        cases h
        refine ⟨d, r.2, hd, fun c hc => ?_, hg, rfl⟩
        simpa using List.all_eq_true.mp hneeded c hc
    · cases h

theorem onTable_ok {α : Type} {needed : List Column} {a : α} {d d' : TableData}
    {g : TableData → Except Failure (α × TableData)} (hd : f.tables t = some d)
    (hneeded : ∀ c ∈ needed, c ∈ d.columns) (hg : g d = .ok (a, d')) :
    onTable t needed g f = .ok (a, f.setTable t (some d')) := by
  have hall : (needed.all fun c => d.columns.contains c) = true :=
    List.all_eq_true.mpr fun c hc => List.contains_iff_mem.mpr (hneeded c hc)
  unfold onTable
  rw [hd]
  dsimp only
  rw [if_pos hall, hg]
  rfl

/-- A query on a table. -/
theorem onTable_read {α : Type} {needed : List Column} {d : TableData} {g : TableData → α}
    (hd : f.tables t = some d) (hneeded : ∀ c ∈ needed, c ∈ d.columns) :
    onTable t needed (fun d => .ok (g d, d)) f = .ok (g d, f) := by
  rw [onTable_ok hd hneeded rfl, setTable_eq_self hd]

/-- An update of a table. -/
theorem update_ok {needed : List Column} {d : TableData} {p : FileRow → Bool}
    {set : FileRow → Assignments Column Server.Cell} (hd : f.tables t = some d)
    (hneeded : ∀ c ∈ needed, c ∈ d.columns) :
    (run (update t needed p set)).plain f = .ok ((), f.setTable t (some { d with
      rows := d.rows.map fun r => if p r then ⟨r.id, assign (set r) r.cells⟩ else r })) := by
  rw [run, Program.plain_statement]
  exact onTable_ok hd hneeded rfl

/-! ## What stays -/

/-- The cells that stay: all of them, but the class of a message and the module of a task; the
    rebuilt `ingested` has these columns of the old one. -/
def kept : Table → Column → Bool
  | .hub .messages, c => decide (c ≠ .hub .isBinary)
  | .hub .tasks, c    => !([Column.hub .deviceId, .hub .agentId, .hub .enabled].contains c)
  | .ingested, c      => [Column.hub .agentId, .hub .seq, .hub .kind, .at].contains c
  | _, _              => true

/-- A row of a table before, and the row after. -/
structure KeptRow (t : Table) (d : TableData) (r r' : FileRow) : Prop where
  id    : r'.id = r.id
  cells : ∀ c ∈ d.columns, kept t c = true → r'.cells c = r.cells c

/-- Every row is still there. -/
structure KeptRows (t : Table) (d d' : TableData) : Prop where
  columns : ∀ c ∈ d.columns, kept t c = true → c ∈ d'.columns
  seq     : d'.seq = d.seq
  rows    : List.Forall₂ (KeptRow t d) d.rows d'.rows

theorem KeptRows.refl (t : Table) (d : TableData) : KeptRows t d d :=
  ⟨fun _ h _ => h, rfl, List.forall₂_same.mpr fun _ _ => ⟨rfl, fun _ _ _ => rfl⟩⟩

theorem forall₂_trans {α β γ : Type} {R : α → β → Prop} {S : β → γ → Prop} {U : α → γ → Prop}
    (h : ∀ a b c, R a b → S b c → U a c) {xs : List α} {ys : List β} {zs : List γ}
    (hr : List.Forall₂ R xs ys) (hs : List.Forall₂ S ys zs) : List.Forall₂ U xs zs := by
  induction hr generalizing zs with
  | nil =>
    cases hs
    exact .nil
  | cons hab _ ih =>
    cases hs with
    | cons hbc hrest => exact .cons (h _ _ _ hab hbc) (ih hrest)

theorem KeptRows.trans {d d' d'' : TableData} (h : KeptRows t d d') (h' : KeptRows t d' d'') :
    KeptRows t d d'' := by
  refine ⟨fun c hc hk => h'.columns c (h.columns c hc hk) hk, h'.seq.trans h.seq, ?_⟩
  refine forall₂_trans (fun r r' r'' hr hr' => ?_) h.rows h'.rows
  refine ⟨hr'.id.trans hr.id, fun c hc hk => ?_⟩
  exact (hr'.cells c (h.columns c hc hk) hk).trans (hr.cells c hc hk)

/-- Tables, rows and indexes that are there stay, and the version is the same.  (The incidents may
    get a new one.) -/
structure Holds (f f' : File) : Prop where
  tables  : ∀ t, t ≠ .ingestedV14 → (f.tables t).isSome → (f'.tables t).isSome
  rows    : ∀ t, t ≠ .ingestedV14 → t ≠ .hub .incidents → ∀ d, f.tables t = some d →
    ∃ d', f'.tables t = some d' ∧ KeptRows t d d'
  indexes : ∀ ix ∈ f.indexes, ix ∈ f'.indexes
  version : f'.version = f.version

theorem Holds.refl (f : File) : Holds f f :=
  ⟨fun _ _ h => h, fun t _ _ d hd => ⟨d, hd, .refl t d⟩, fun _ h => h, rfl⟩

theorem Holds.trans (f g h : File) (h₁ : Holds f g) (h₂ : Holds g h) : Holds f h := by
  refine ⟨fun t ht hs => h₂.tables t ht (h₁.tables t ht hs), fun t ht hi d hd => ?_,
    fun ix hi => h₂.indexes ix (h₁.indexes ix hi), h₂.version.trans h₁.version⟩
  obtain ⟨d₁, hd₁, hk₁⟩ := h₁.rows t ht hi d hd
  obtain ⟨d₂, hd₂, hk₂⟩ := h₂.rows t ht hi d₁ hd₁
  exact ⟨d₂, hd₂, hk₁.trans hk₂⟩

/-- Another content of a table, with the rows that were there. -/
theorem Holds.setTable {d : TableData}
    (h : t ≠ .hub .incidents → ∀ d₀, f.tables t = some d₀ → KeptRows t d₀ d) :
    Holds f (f.setTable t (some d)) := by
  refine ⟨fun t' _ ht' => ?_, fun t' _ hi d₀ hd₀ => ?_, fun _ h => h, rfl⟩
  · by_cases he : t' = t
    · rw [he, setTable_self]; rfl
    · rw [setTable_ne he]; exact ht'
  · by_cases he : t' = t
    · subst he
      exact ⟨d, setTable_self _, h hi d₀ hd₀⟩
    · rw [setTable_ne he]
      exact ⟨d₀, hd₀, .refl t' d₀⟩

theorem onTable_holds {α : Type} {needed : List Column}
    {g : TableData → Except Failure (α × TableData)}
    (hg : ∀ d a d', g d = .ok (a, d') → KeptRows t d d') :
    Respects Holds (run (onTable t needed g)) := by
  refine Respects.statement fun f a f' h => ?_
  obtain ⟨d, d', hd, _, hgd, rfl⟩ := of_onTable h
  refine .setTable fun _ d₀ hd₀ => ?_
  obtain rfl : d = d₀ := Option.some.inj (hd.symm.trans hd₀)
  exact hg d a d' hgd

/-- A query writes nothing. -/
theorem read_holds {α : Type} {needed : List Column} {g : TableData → α} :
    Respects Holds (run (onTable t needed fun d => .ok (g d, d))) := by
  refine onTable_holds fun d a d' h => ?_
  cases h
  exact .refl t d

theorem addColumn_holds {d : ColumnDef} : Respects Holds (run (addColumn t d)) := by
  refine onTable_holds fun data a data' h => ?_
  split at h
  · cases h
  · rename_i hnew
    split at h
    · cases h
    · cases h
      refine ⟨fun _ hc _ => List.mem_append_left _ hc, rfl, ?_⟩
      show List.Forall₂ _ data.rows (data.rows.map _)
      rw [List.forall₂_map_right_iff, List.forall₂_same]
      refine fun r _ => ⟨rfl, fun c hc _ => if_neg fun he : c = d.column => hnew ?_⟩
      exact List.contains_iff_mem.mpr (he ▸ hc)

/-- An update of cells that need not stay. -/
theorem update_holds {needed : List Column} {p : FileRow → Bool}
    {set : FileRow → Assignments Column Server.Cell}
    (hset : ∀ r, ∀ x ∈ set r, kept t x.1 = false) :
    Respects Holds (run (update t needed p set)) := by
  refine onTable_holds fun d a d' h => ?_
  cases h
  refine ⟨fun _ hc _ => hc, rfl, ?_⟩
  show List.Forall₂ _ d.rows (d.rows.map _)
  rw [List.forall₂_map_right_iff, List.forall₂_same]
  intro r _
  by_cases hp : p r = true
  · rw [if_pos hp]
    refine ⟨rfl, fun c _ hk => ?_⟩
    have hnone : (set r).lookup c = none := by
      rw [List.lookup_eq_none_iff]
      intro x hx
      have hfalse := hset r x hx
      refine bne_iff_ne.mpr fun he => ?_
      rw [← he, hk] at hfalse
      cases hfalse
    simp only [assign, hnone]
  · rw [if_neg hp]
    exact ⟨rfl, fun _ _ _ => rfl⟩

theorem tableInfo_holds : Respects Holds (run (tableInfo t)) := by
  refine Respects.statement fun f a f' h => ?_
  cases h
  exact .refl f

theorem create_holds (q : Create) {a : Unit} (h : q.exec f = .ok (a, f')) : Holds f f' := by
  cases q with
  | table t =>
    change createTableIfNotExists t f = _ at h
    unfold createTableIfNotExists at h
    split at h
    · cases h
      exact .refl f
    · rename_i hnone
      cases h
      refine .setTable fun _ d₀ hd₀ => ?_
      rw [hnone] at hd₀
      cases hd₀
  | index ix =>
    change createIndexIfNotExists ix f = _ at h
    unfold createIndexIfNotExists at h
    split at h
    · cases h; exact .refl f
    · split at h
      · cases h
      · split at h
        · split at h
          · cases h
            exact ⟨fun _ _ ht => ht, fun t _ _ d hd => ⟨d, hd, .refl t d⟩,
              fun _ hi => List.mem_append_left _ hi, rfl⟩
          · cases h
        · cases h

theorem createTable_holds : Respects Holds (run (createTableIfNotExists t)) :=
  Respects.statement fun _ _ _ h => create_holds (.table t) h

theorem createIndex_holds {ix : Index} : Respects Holds (run (createIndexIfNotExists ix)) :=
  Respects.statement fun _ _ _ h => create_holds (.index ix) h

theorem pure_holds {α : Type} (a : α) : Respects Holds (Pure.pure a : Migration α) :=
  Respects.pure Holds.refl a

theorem bind_holds {α β : Type} {p : Migration α} {k : α → Migration β} (hp : Respects Holds p)
    (hk : ∀ a, Respects Holds (k a)) : Respects Holds (p >>= k) := Respects.bind Holds.trans hp hk

theorem addUnless_holds {present : List Column} {d : ColumnDef} :
    Respects Holds (addUnless present t d) := by
  unfold addUnless
  split
  · exact pure_holds _
  · exact addColumn_holds

theorem addColumnsIfMissing_holds (cols : List ColumnDef) :
    Respects Holds (addColumnsIfMissing t cols) :=
  bind_holds tableInfo_holds fun _ =>
    Respects.forM Holds.refl Holds.trans fun _ _ => addUnless_holds

/-! ### The migrations that move data -/

theorem reclassify_holds (k i : Nat) : Respects Holds (reclassify k i) := by
  induction k generalizing i with
  | zero => exact pure_holds _
  | succ k ih =>
    refine bind_holds ?_ fun next => ?_
    · refine bind_holds read_holds fun found => ?_
      split
      · exact pure_holds _
      · refine bind_holds ?_ fun ids => bind_holds ?_ fun _ => pure_holds _
        · refine Respects.statement fun f a f' h => ?_
          cases hm : malformed (found.take DATA_BATCH) with
          | error e =>
            rw [hm] at h
            cases h
          | ok ids =>
            rw [hm] at h
            cases h
            exact .refl f
        · refine Respects.forM Holds.refl Holds.trans fun _ _ => update_holds fun _ x hx => ?_
          rw [List.mem_singleton.mp hx]
          rfl
    · cases next with
      | none => exact pure_holds _
      | some i => exact ih i

/-- No index is on the rebuilt table. -/
theorem table_ne_ingested (ix : Index) : ix.table ≠ .ingested := by
  cases ix <;> exact nofun

/-- No index goes with the old table. -/
theorem dropTable_ingested {d : TableData} (hd : f.tables .ingested = some d) :
    dropTable .ingested f = .ok ((), f.setTable .ingested none) := by
  have hixs : f.indexes.filter (fun ix => decide (ix.table ≠ .ingested)) = f.indexes :=
    List.filter_eq_self.mpr fun ix _ => decide_eq_true (table_ne_ingested ix)
  rw [dropTable, hd]
  show Except.ok ((), (⟨_, _, f.indexes.filter _⟩ : File)) = _
  rw [hixs]
  rfl

theorem renameTable_ok {t' : Table} {d : TableData} (hd : f.tables t = some d)
    (hnone : f.tables t' = none) :
    renameTable t t' f = .ok ((), (f.setTable t none).setTable t' (some d)) := by
  rw [renameTable, hd, hnone]

/-- What is left when the rebuilt table has the name of the old one. -/
theorem setTable_rebuilt (hnone : f.tables .ingestedV14 = none) (d : TableData) :
    (((f.setTable .ingestedV14 (some d)).setTable .ingested none).setTable .ingestedV14
      none).setTable .ingested (some d) = f.setTable .ingested (some d) := by
  refine congrArg (File.mk f.version · f.indexes) (funext fun t => ?_)
  by_cases hi : t = .ingested
  · rw [hi, if_pos rfl, if_pos rfl]
  · rw [if_neg hi, if_neg hi]
    by_cases hv : t = .ingestedV14
    · rw [hv]; exact hnone.symm
    · rw [setTable_ne hv, setTable_ne hi, setTable_ne hv]

/-- A rebuild that returns has put every row of the old table into the new one. -/
theorem of_rebuild {a : Unit} (h : (do
    run (createTable .ingestedV14)
    run copyIngested
    run (dropTable .ingested)
    run (renameTable .ingestedV14 .ingested) : Migration Unit).plain f = .ok (a, f')) :
    ∃ d, f.tables .ingested = some d ∧
      f' = f.setTable .ingested (some ⟨names .ingestedV14, d.rows.map withoutStream, d.seq⟩) := by
  obtain ⟨_, f₁, h₁, h⟩ := Program.of_plain_bind h
  obtain ⟨_, f₂, h₂, h⟩ := Program.of_plain_bind h
  obtain ⟨_, f₃, h₃, h₄⟩ := Program.of_plain_bind h
  rw [run, Program.plain_statement] at h₁ h₂ h₃ h₄
  have hne : Table.ingested ≠ .ingestedV14 := by decide
  unfold createTable at h₁
  split at h₁
  · cases h₁
  rename_i hnone
  cases h₁
  unfold copyIngested at h₂
  rw [setTable_ne hne] at h₂
  split at h₂
  · cases h₂
  rename_i d hd
  split at h₂
  rotate_left
  · cases h₂
  obtain ⟨new, new', hnew, _, hput, rfl⟩ := of_onTable h₂
  rw [setTable_self] at hnew
  cases hnew
  dsimp only at hput
  split at hput
  rotate_left
  · cases hput
  cases hput
  rw [setTable_setTable] at h₃
  rw [dropTable_ingested ((setTable_ne hne _).trans hd)] at h₃
  cases h₃
  rw [renameTable_ok ((setTable_ne hne.symm _).trans (setTable_self _)) (setTable_self _)] at h₄
  cases h₄
  exact ⟨d, hd, setTable_rebuilt hnone _⟩

/-- The rebuilt table takes the place of the old one. -/
theorem rebuild_holds : Respects Holds (do
    run (createTable .ingestedV14)
    run copyIngested
    run (dropTable .ingested)
    run (renameTable .ingestedV14 .ingested)) := by
  intro f a f' h
  obtain ⟨d, hd, rfl⟩ := of_rebuild h
  refine .setTable fun _ d₀ hd₀ => ?_
  obtain rfl : d = d₀ := Option.some.inj (hd.symm.trans hd₀)
  have hcolumns : ∀ c, kept .ingested c = true → c = .hub .agentId ∨ c = .hub .seq ∨
      c = .hub .kind ∨ c = .at := by
    intro c hk
    simpa using List.contains_iff_mem.mp hk
  refine ⟨fun c _ hk => ?_, rfl, ?_⟩
  · show c ∈ names .ingestedV14
    rcases hcolumns c hk with rfl | rfl | rfl | rfl <;> decide
  · show List.Forall₂ _ d.rows (d.rows.map _)
    rw [List.forall₂_map_right_iff, List.forall₂_same]
    refine fun r _ => ⟨rfl, fun c _ hk => ?_⟩
    rcases hcolumns c hk with rfl | rfl | rfl | rfl <;> rfl

theorem pinTasks_holds (tasks : List FileRow) : Respects Holds (pinTasks tasks) := by
  induction tasks with
  | nil => exact pure_holds _
  | cons task tasks ih =>
    refine bind_holds ?_ fun _ => bind_holds ih fun _ => pure_holds _
    refine bind_holds read_holds fun matching => ?_
    split
    · exact pure_holds _
    · refine bind_holds (update_holds fun _ x hx => ?_) fun _ => pure_holds _
      rcases List.mem_cons.mp hx with rfl | hx
      · rfl
      · rw [List.mem_singleton.mp hx]
        rfl
    · refine bind_holds (update_holds fun _ x hx => ?_) fun _ => pure_holds _
      rw [List.mem_singleton.mp hx]
      rfl

theorem openIncident_holds {fingerprint kind severity source title detail : String} :
    Respects Holds (run (openIncident E fingerprint kind severity source title detail)) := by
  refine Respects.statement fun f a f' h => ?_
  unfold openIncident at h
  split at h
  · cases h
  · split at h
    · cases h
    · cases h
      exact .setTable fun hne => absurd rfl hne

/-- **No migration takes away a table or an index, and none writes the version.** -/
theorem migration_holds {x : Nat × Migration Unit} (hx : x ∈ MIGRATIONS E) :
    Respects Holds x.2 := by
  simp only [MIGRATIONS, List.mem_cons, List.not_mem_nil, or_false] at hx
  rcases hx with rfl | rfl | rfl | rfl | rfl | rfl | rfl | rfl | rfl | rfl | rfl | rfl | rfl | rfl |
    rfl | rfl | rfl | rfl | rfl
  · exact bind_holds tableInfo_holds fun _ => bind_holds tableInfo_holds fun _ =>
      bind_holds addUnless_holds fun _ => addUnless_holds
  · exact addColumnsIfMissing_holds _
  · exact addColumnsIfMissing_holds _
  · exact bind_holds createTable_holds fun _ => bind_holds createIndex_holds fun _ =>
      bind_holds createIndex_holds fun _ => createIndex_holds
  · exact bind_holds read_holds fun total => reclassify_holds _ _
  · exact addColumnsIfMissing_holds _
  · exact createIndex_holds
  · exact addColumnsIfMissing_holds _
  · exact bind_holds (addColumnsIfMissing_holds _) fun _ => addColumnsIfMissing_holds _
  · exact addColumnsIfMissing_holds _
  · exact bind_holds createTable_holds fun _ => bind_holds createIndex_holds fun _ =>
      createIndex_holds
  · exact addColumnsIfMissing_holds _
  · exact addColumnsIfMissing_holds _
  · refine bind_holds (addColumnsIfMissing_holds _) fun _ =>
      bind_holds tableInfo_holds fun present => ?_
    split
    · exact pure_holds _
    · exact rebuild_holds
  · refine bind_holds (addColumnsIfMissing_holds _) fun _ => bind_holds read_holds fun tasks =>
      bind_holds (pinTasks_holds tasks) fun ambiguous => ?_
    split
    · exact pure_holds _
    · exact openIncident_holds
  · exact bind_holds createTable_holds fun _ => bind_holds createIndex_holds fun _ =>
      bind_holds createIndex_holds fun _ => bind_holds createTable_holds fun _ =>
      bind_holds createIndex_holds fun _ => createIndex_holds
  · exact addColumnsIfMissing_holds _
  · refine Respects.forM Holds.refl Holds.trans fun q _ => ?_
    exact Respects.statement fun _ _ _ h => create_holds q h
  · exact addColumnsIfMissing_holds _

/-! ## The steps of an opening -/

/-- What a `CREATE … IF NOT EXISTS` looks for. -/
def Create.There : Create → File → Prop
  | .table t, f  => (f.tables t).isSome
  | .index ix, f => ix ∈ f.indexes

theorem create_there (q : Create) {a : Unit} (h : q.exec f = .ok (a, f')) : q.There f' := by
  cases q with
  | table t =>
    change createTableIfNotExists t f = _ at h
    unfold createTableIfNotExists at h
    split at h
    · rename_i d hd
      cases h
      show (f.tables t).isSome
      rw [hd]; rfl
    · cases h
      show ((f.setTable t _).tables t).isSome
      rw [setTable_self]; rfl
  | index ix =>
    change createIndexIfNotExists ix f = _ at h
    unfold createIndexIfNotExists at h
    split at h
    · rename_i hix
      cases h
      exact hix
    · split at h
      · cases h
      · split at h
        · split at h
          · cases h
            exact List.mem_append_right _ (List.mem_singleton_self ix)
          · cases h
        · cases h

theorem exec_of_there {q : Create} (h : q.There f) : q.exec f = .ok ((), f) := by
  cases q with
  | table t =>
    obtain ⟨d, hd⟩ := Option.isSome_iff_exists.mp h
    show createTableIfNotExists t f = _
    rw [createTableIfNotExists, hd]
  | index ix => exact if_pos h

/-- A statement of `SCHEMA`. -/
def createStep (q : Create) : Step File Failure where
  run   := fun f => (q.exec f).map Prod.snd
  mark  := q.There
  marks := by
    intro f f' h
    cases hq : q.exec f with
    | error e =>
      rw [hq] at h
      cases h
    | ok r =>
      rw [hq] at h
      cases h
      exact create_there q hq
  idle := fun f h => by rw [exec_of_there h]; rfl

/-- The file after a migration, with the version it leads to. -/
def migrated (x : Nat × Migration Unit) (f : File) : Except Failure File :=
  (x.2.plain f).map fun r => { r.2 with version := x.1 }

/-- A migration. -/
def versionStep (x : Nat × Migration Unit) : Step File Failure where
  run   := fun f => if x.1 ≤ f.version then .ok f else migrated x f
  mark  := fun f => x.1 ≤ f.version
  marks := by
    intro f f' h
    by_cases hle : x.1 ≤ f.version
    · rw [if_pos hle] at h
      cases h
      exact hle
    · rw [if_neg hle, migrated] at h
      cases hx : x.2.plain f with
      | error e =>
        rw [hx] at h
        cases h
      | ok r =>
        rw [hx] at h
        cases h
        exact Nat.le_refl x.1
  idle := fun f h => if_pos h

/-- The migrations of a file that has a schema, the stamp of a new one. -/
def versionSteps (E : Server.Env) (preExisting : Bool) : List (Nat × Migration Unit) :=
  if preExisting then MIGRATIONS E else [(SCHEMA_VERSION, pure ())]

/-- The steps of `_prepare_schema`. -/
def openingSteps (E : Server.Env) (preExisting : Bool) : List (Step File Failure) :=
  SCHEMA.map createStep ++ (versionSteps E preExisting).map versionStep

/-! ### They lead forward -/

/-- Tables, rows and indexes stay, and the version does not go back. -/
structure Forward (f f' : File) : Prop where
  tables  : ∀ t, t ≠ .ingestedV14 → (f.tables t).isSome → (f'.tables t).isSome
  rows    : ∀ t, t ≠ .ingestedV14 → t ≠ .hub .incidents → ∀ d, f.tables t = some d →
    ∃ d', f'.tables t = some d' ∧ KeptRows t d d'
  indexes : ∀ ix ∈ f.indexes, ix ∈ f'.indexes
  version : f.version ≤ f'.version

theorem Holds.forward (h : Holds f f') : Forward f f' := ⟨h.tables, h.rows, h.indexes, h.version.ge⟩

theorem Forward.refl (f : File) : Forward f f := (Holds.refl f).forward

theorem Forward.trans {h : File} (h₁ : Forward f f') (h₂ : Forward f' h) : Forward f h := by
  refine ⟨fun t ht hs => h₂.tables t ht (h₁.tables t ht hs), fun t ht hi d hd => ?_,
    fun ix hi => h₂.indexes ix (h₁.indexes ix hi), h₁.version.trans h₂.version⟩
  obtain ⟨d₁, hd₁, hk₁⟩ := h₁.rows t ht hi d hd
  obtain ⟨d₂, hd₂, hk₂⟩ := h₂.rows t ht hi d₁ hd₁
  exact ⟨d₂, hd₂, hk₁.trans hk₂⟩

theorem createStep_holds {q : Create} (h : (createStep q).run f = .ok f') : Holds f f' := by
  change (q.exec f).map Prod.snd = .ok f' at h
  cases hq : q.exec f with
  | error e =>
    rw [hq] at h
    cases h
  | ok r =>
    rw [hq] at h
    cases h
    exact create_holds q hq

theorem versionSteps_holds {pre : Bool} {x : Nat × Migration Unit} (hx : x ∈ versionSteps E pre) :
    Respects Holds x.2 ∧ x.1 ≤ SCHEMA_VERSION := by
  cases pre with
  | true =>
    refine ⟨migration_holds hx, ?_⟩
    change x ∈ MIGRATIONS E at hx
    simp only [MIGRATIONS, List.mem_cons, List.not_mem_nil, or_false] at hx
    rcases hx with rfl | rfl | rfl | rfl | rfl | rfl | rfl | rfl | rfl | rfl | rfl | rfl | rfl |
      rfl | rfl | rfl | rfl | rfl | rfl
    all_goals exact Nat.le_of_ble_eq_true rfl
  | false =>
    obtain rfl := List.mem_singleton.mp hx
    exact ⟨pure_holds _, Nat.le_refl _⟩

theorem versionStep_forward {x : Nat × Migration Unit} (hx : Respects Holds x.2)
    (h : (versionStep x).run f = .ok f') : Forward f f' := by
  change (if x.1 ≤ f.version then .ok f else migrated x f) = .ok f' at h
  by_cases hle : x.1 ≤ f.version
  · rw [if_pos hle] at h
    cases h
    exact .refl f
  · rw [if_neg hle, migrated] at h
    cases hr : x.2.plain f with
    | error e =>
      rw [hr] at h
      cases h
    | ok r =>
      rw [hr] at h
      cases h
      have hholds := hx f r.1 r.2 hr
      refine ⟨hholds.tables, hholds.rows, hholds.indexes, ?_⟩
      show f.version ≤ x.1
      omega

/-- A step of an opening. -/
theorem of_mem_openingSteps {pre : Bool} {u : Step File Failure} (hu : u ∈ openingSteps E pre) :
    (∃ q ∈ SCHEMA, createStep q = u) ∨ ∃ x ∈ versionSteps E pre, versionStep x = u := by
  rcases List.mem_append.mp hu with hu | hu
  · exact .inl (List.mem_map.mp hu)
  · exact .inr (List.mem_map.mp hu)

theorem openingStep_forward {pre : Bool} {u : Step File Failure} (hu : u ∈ openingSteps E pre)
    (h : u.run f = .ok f') : Forward f f' := by
  rcases of_mem_openingSteps hu with ⟨q, _, rfl⟩ | ⟨x, hx, rfl⟩
  · exact (createStep_holds h).forward
  · exact versionStep_forward (versionSteps_holds hx).1 h

/-- A version step does nothing, or writes its version. -/
theorem versionStep_version {x : Nat × Migration Unit} (h : (versionStep x).run f = .ok f') :
    f' = f ∨ f.version < x.1 ∧ f'.version = x.1 := by
  change (if x.1 ≤ f.version then .ok f else migrated x f) = .ok f' at h
  by_cases hle : x.1 ≤ f.version
  · rw [if_pos hle] at h
    cases h
    exact .inl rfl
  · rw [if_neg hle, migrated] at h
    cases hr : x.2.plain f with
    | error e =>
      rw [hr] at h
      cases h
    | ok r =>
      rw [hr] at h
      cases h
      exact .inr ⟨Nat.lt_of_not_le hle, rfl⟩

/-- No step goes beyond the last version. -/
theorem openingStep_version {pre : Bool} {u : Step File Failure} (hu : u ∈ openingSteps E pre)
    (h : u.run f = .ok f') (hv : f.version ≤ SCHEMA_VERSION) : f'.version ≤ SCHEMA_VERSION := by
  rcases of_mem_openingSteps hu with ⟨q, _, rfl⟩ | ⟨x, hx, rfl⟩
  · rw [(createStep_holds h).version]
    exact hv
  · rcases versionStep_version h with rfl | ⟨-, hx'⟩
    · exact hv
    · rw [hx']
      exact (versionSteps_holds hx).2

/-- `SCHEMA` does not create the table of the rebuild. -/
theorem schema_ne_ingestedV14 {t : Table} (h : Create.table t ∈ SCHEMA) : t ≠ .ingestedV14 := by
  rintro rfl
  simp [SCHEMA, OPERATION_SCHEMA] at h

/-- What `SCHEMA` has created stays. -/
theorem Forward.there (h : Forward f f') {q : Create} (hq : q ∈ SCHEMA) (hthere : q.There f) :
    q.There f' := by
  cases q with
  | table t => exact h.tables t (schema_ne_ingestedV14 hq) hthere
  | index ix => exact h.indexes ix hthere

/-- **No step of an opening undoes another.** -/
theorem openingSteps_keeps (pre : Bool) : Keeps (openingSteps E pre) := by
  refine Keeps.of_relation (R := Forward) (fun u hu f f' h => openingStep_forward hu h) ?_
  intro u hu f f' hf hmark
  rcases of_mem_openingSteps hu with ⟨q, hq, rfl⟩ | ⟨x, _, rfl⟩
  · exact hf.there hq hmark
  · exact Nat.le_trans hmark hf.version

/-! ## Sessions -/

/-- `executescript(SCHEMA)`. -/
theorem executeScript_does (qs : List Create) :
    Does (fun _ => True) (qs.map createStep) (qs.forM fun q => (execute q.exec : FileSession Unit)) := by
  induction qs with
  | nil => exact Does.pure
  | cons q qs ih =>
    exact Does.seq (Does.execute (u := createStep q) fun _ _ => rfl) (fun _ _ _ _ => trivial) ih

/-- The body of a step, inside its transaction. -/
theorem stepBody_within (target : Nat) (apply : Migration Unit) (f : File) :
    Within (fun w => w = f) (do apply.session; execute (setUserVersion target)) fun _ w =>
      migrated (target, apply) f = .ok w := by
  refine Within.bind (apply.session_within f) fun a => ?_
  refine Within.execute fun w b w' hw hset => ?_
  cases hset
  rw [migrated, hw]
  rfl

theorem stepBody_sure {target : Nat} {apply : Migration Unit} {c : Connection File Failure}
    {w w' : File} (hw : c.work = some w) (hfaults : c.faults = [])
    (h : migrated (target, apply) w = .ok w') :
    (do apply.session; execute (setUserVersion target) : FileSession Unit) c =
      (.ok (), { c with work := some w' }) := by
  rw [migrated] at h
  cases hr : apply.plain w with
  | error e =>
    rw [show (target, apply).2 = apply from rfl, hr] at h
    cases h
  | ok r =>
    rw [show (target, apply).2 = apply from rfl, hr] at h
    cases h
    rw [bind_apply, Program.session_sure hw hfaults hr]
    exact Program.execute_sure rfl hfaults rfl

/-- **`_run_step`**: the migration and its version together, or nothing. -/
theorem runStep_does (target : Nat) (apply : Migration Unit) :
    Does (fun f => ¬ target ≤ f.version) [versionStep (target, apply)] (runStep target apply) := by
  intro c hc hp
  have hrun : (versionStep (target, apply)).run c.disk = migrated (target, apply) c.disk := if_neg hp
  have hcomplete : complete [versionStep (target, apply)] c.disk = migrated (target, apply) c.disk := by
    rw [complete, hrun]
    cases migrated (target, apply) c.disk <;> rfl
  unfold runStep
  rw [bind_apply, beginTransaction]
  cases hfault : c.fault with
  | some e =>
    refine ⟨.stop, (absurd · raised_ne_ok), fun hnone => ?_⟩
    rw [Connection.fault, hnone] at hfault
    cases hfault
  | none =>
    rw [hc]
    dsimp only
    rw [bind_apply, orRollBack]
    have hbody := stepBody_within target apply c.disk { c.used with work := some c.disk } c.disk rfl rfl
    have hrest : c.faults = [] → c.used.faults = [] := by
      intro hnone
      show c.faults.tail = []
      rw [hnone]
      rfl
    have hsure : c.faults = [] → ∀ t, migrated (target, apply) c.disk = .ok t →
        (do apply.session; execute (setUserVersion target) : FileSession Unit)
          { c.used with work := some c.disk } = (.ok (), { c.used with work := some t }) :=
      fun hnone t ht => stepBody_sure rfl (hrest hnone) ht
    generalize (do apply.session; execute (setUserVersion target) : FileSession Unit)
      { c.used with work := some c.disk } = p at hbody hsure
    obtain ⟨x, c₁⟩ := p
    obtain ⟨hdisk, w', hw', hq⟩ := hbody
    cases x with
    | error e =>
      refine ⟨?_, (absurd · raised_ne_ok), fun hnone t ht => ?_⟩
      · show Attempt _ c.disk c₁.disk
        rw [hdisk]
        exact .stop
      · rw [hcomplete] at ht
        cases hsure hnone t ht
    | ok a =>
      have hmigrated : migrated (target, apply) c.disk = .ok w' := hq a rfl
      have hnow : c₁.now = w' := by rw [Connection.now, hw']; rfl
      dsimp only
      unfold commit
      cases hfault' : c₁.fault with
      | some e =>
        refine ⟨?_, (absurd · raised_ne_ok), fun hnone t ht => ?_⟩
        · show Attempt _ c.disk c₁.disk
          rw [hdisk]
          exact .stop
        · rw [hcomplete] at ht
          cases hsure hnone t ht
          rw [Connection.fault, show c.used.faults = [] from hrest hnone] at hfault'
          cases hfault'
      | none =>
        dsimp only
        rw [hnow]
        refine ⟨.next (hrun.trans hmigrated) .stop, fun _ => ⟨rfl, hcomplete.trans hmigrated⟩,
          fun hnone t ht => ⟨rfl, ?_⟩⟩
        rw [hcomplete] at ht
        cases hsure hnone t ht
        show c.faults.tail.tail = []
        rw [hnone]
        rfl

/-- The loop of `_migrate`. -/
theorem runSteps_does (xs : List (Nat × Migration Unit)) (version : Nat) :
    Does (fun f => f.version = version) (xs.map versionStep) (runSteps xs version) := by
  induction xs generalizing version with
  | nil => exact Does.pure
  | cons x xs ih =>
    obtain ⟨target, apply⟩ := x
    rw [runSteps, List.map_cons]
    by_cases hle : target ≤ version
    · rw [if_pos hle]
      refine Does.skip (fun f hf => ?_) (ih version)
      show target ≤ f.version
      omega
    · rw [if_neg hle]
      have hfirst : Does (fun f => f.version = version) [versionStep (target, apply)]
          (runStep target apply) := (runStep_does target apply).mono fun f hf => by omega
      refine hfirst.seq (fun f f' hf h => ?_) (ih target)
      rw [complete] at h
      cases hrun : (versionStep (target, apply)).run f with
      | error e =>
        rw [hrun] at h
        cases h
      | ok g =>
        rw [hrun] at h
        cases h
        change (if target ≤ f.version then .ok f else migrated (target, apply) f) = .ok f' at hrun
        rw [if_neg (by omega), migrated] at hrun
        cases hr : apply.plain f with
        | error e =>
          rw [show (target, apply).2 = apply from rfl, hr] at hrun
          cases hrun
        | ok r =>
          rw [show (target, apply).2 = apply from rfl, hr] at hrun
          cases hrun
          rfl

/-- `_migrate`. -/
theorem migrate_does (pre : Bool) : Does (fun f => f.version ≤ SCHEMA_VERSION)
    ((versionSteps E pre).map versionStep) (migrate E pre) := by
  refine Does.read fun version => ?_
  by_cases hnew : SCHEMA_VERSION < version
  · rw [if_pos hnew]
    exact Does.throw fun f hf => absurd hf.1 (by have := hf.2; omega)
  rw [if_neg hnew]
  by_cases hlast : version = SCHEMA_VERSION
  · rw [if_pos hlast]
    refine Does.idle fun f hf u hu => ?_
    obtain ⟨x, hx, rfl⟩ := List.mem_map.mp hu
    have hle := (versionSteps_holds hx).2
    show x.1 ≤ f.version
    have := hf.2
    omega
  · rw [if_neg hlast]
    cases pre with
    | true => exact (runSteps_does (MIGRATIONS E) version).mono fun f hf => hf.2
    | false =>
      show Does _ [versionStep (SCHEMA_VERSION, pure ())] (execute (setUserVersion SCHEMA_VERSION))
      refine Does.execute fun f hf => ?_
      have hver := hf.2
      have hlt : ¬ SCHEMA_VERSION ≤ f.version := by have := hf.1; omega
      exact if_neg hlt

/-- **An opening** leaves what an attempt at the steps leaves, whatever fails; one that gets through
    has taken them all, and one in which nothing fails gets through if they do. -/
theorem afterSession_outcome (faults : Faults) (hv : f.version ≤ SCHEMA_VERSION) :
    Outcome (openingSteps E (hasSchema f)) ⟨f, none, faults.statements⟩
      (applySchema E (hasSchema f) ⟨f, none, faults.statements⟩) := by
  have hdoes : Does (fun f => f.version ≤ SCHEMA_VERSION) (openingSteps E (hasSchema f))
      (applySchema E (hasSchema f)) := by
    refine Does.seq ((executeScript_does SCHEMA).mono fun _ _ => trivial) (fun g g' hg h => ?_)
      (migrate_does (hasSchema f))
    refine (Attempt.of_complete h).invariant (I := fun f => f.version ≤ SCHEMA_VERSION) ?_ hg
    intro u hu s s' hs hrun
    exact openingStep_version (List.mem_append_left ((versionSteps E true).map versionStep) hu) hrun hs
  exact hdoes ⟨f, none, faults.statements⟩ rfl hv

end Air780eHub.Migrations
