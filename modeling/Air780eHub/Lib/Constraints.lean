/-
  What the constraints of a relational database keep true, and when a statement goes through.

  1. **`Fits`**: a row that may stand beside the other rows of its table; `violation` finds nothing
     exactly then.
  2. **`Consistent`**: every constraint holds of every table.  Every statement keeps it
     (`insert_consistent`, `upsert_consistent`, `update_consistent`, `delete_consistent`): a
     database that is only ever changed by statements is always consistent.
  3. **Rules** that a statement does not raise: a row that fits is inserted; an update that keeps
     the keys of the rows it writes, or writes one row that fits, is carried out; an upsert needs
     one of the two.
-/
import Mathlib.Data.List.Nodup
import Air780eHub.Lib.Relational

set_option linter.unusedSectionVars false

namespace Air780eHub.Relational

variable {τ κ ν : Type} [DecidableEq τ] [DecidableEq κ] [DecidableEq ν] {S : Schema τ κ ν}

/-! ## Keys and assignments -/

theorem sameKey_comm (columns : List κ) (a b : κ → Option ν) :
    sameKey columns a b = sameKey columns b a := by
  rw [Bool.eq_iff_iff]
  simp only [sameKey, List.all_eq_true, Bool.and_eq_true, beq_iff_eq]
  constructor
  · intro h c hc
    obtain ⟨hs, he⟩ := h c hc
    exact ⟨he ▸ hs, he.symm⟩
  · intro h c hc
    obtain ⟨hs, he⟩ := h c hc
    exact ⟨he ▸ hs, he.symm⟩

/-- Whether two rows have the same key is decided by the key columns. -/
theorem sameKey_congr {columns : List κ} {a a' b b' : κ → Option ν}
    (ha : ∀ c ∈ columns, a' c = a c) (hb : ∀ c ∈ columns, b' c = b c) :
    sameKey columns a' b' = sameKey columns a b := by
  rw [Bool.eq_iff_iff]
  simp only [sameKey, List.all_eq_true]
  constructor
  · intro h c hc
    rw [← ha c hc, ← hb c hc]; exact h c hc
  · intro h c hc
    rw [ha c hc, hb c hc]; exact h c hc

/-! ## Rows that fit -/

/-- A value of a foreign key names a row of its parent table. -/
def Refers (S : Schema τ κ ν) (db : Db τ κ ν) (t : τ) (cells : κ → Option ν) : Prop :=
  ∀ fk ∈ S.foreign t, ∀ v, cells fk.column = some v → ∃ i ∈ db.ids fk.parent, S.ref i = v

/-- The constraints on a single row. -/
structure RowOk (S : Schema τ κ ν) (t : τ) (cells : κ → Option ν) : Prop where
  notNull : ∀ c ∈ S.notNull t, (cells c).isSome
  check   : S.check t cells = true

/-- The row may stand beside `others`. -/
structure Fits (S : Schema τ κ ν) (db : Db τ κ ν) (t : τ) (others : List (Row κ ν))
    (cells : κ → Option ν) : Prop extends RowOk S t cells where
  unique : ∀ columns ∈ S.unique t, ∀ r ∈ others, sameKey columns r.cells cells = false
  refers : Refers S db t cells

theorem rowViolation_eq_none {t : τ} {cells : κ → Option ν} :
    S.rowViolation t cells = none ↔ RowOk S t cells := by
  unfold Schema.rowViolation
  constructor
  · intro h
    split at h
    · cases h
    · rename_i hnull
      rw [List.find?_eq_none] at hnull
      refine ⟨fun c hc => ?_, ?_⟩
      · have hc' := hnull c hc
        rwa [Bool.not_eq_true, Option.isNone_eq_false_iff] at hc'
      · by_contra hcheck
        rw [if_neg hcheck] at h
        cases h
  · intro h
    have hnull : (S.notNull t).find? (fun c => (cells c).isNone) = none := by
      rw [List.find?_eq_none]
      intro c hc
      rw [Bool.not_eq_true, Option.isNone_eq_false_iff]
      exact h.notNull c hc
    rw [hnull]
    exact if_pos h.check

theorem foreignViolation_eq_none {db : Db τ κ ν} {t : τ} {cells : κ → Option ν} :
    S.foreignViolation db t cells = none ↔ Refers S db t cells := by
  unfold Schema.foreignViolation Schema.dangles
  rw [Option.map_eq_none_iff, List.find?_eq_none]
  constructor
  · intro h fk hfk v hv
    have hd := h fk hfk
    rw [hv] at hd
    simpa using hd
  · intro h fk hfk
    cases hv : cells fk.column with
    | none => simp
    | some v =>
      obtain ⟨i, hi, he⟩ := h fk hfk v hv
      simpa using ⟨i, hi, he⟩

theorem uniqueViolation_eq_none {t : τ} {others : List (Row κ ν)} {cells : κ → Option ν} :
    S.uniqueViolation t others cells = none ↔
      ∀ columns ∈ S.unique t, ∀ r ∈ others, sameKey columns r.cells cells = false := by
  simp [Schema.uniqueViolation]

/-- Nothing is violated exactly when the row fits. -/
theorem violation_eq_none {db : Db τ κ ν} {t : τ} {others : List (Row κ ν)}
    {cells : κ → Option ν} : S.violation db t others cells = none ↔ Fits S db t others cells := by
  unfold Schema.violation
  rw [Option.or_eq_none_iff, Option.or_eq_none_iff, rowViolation_eq_none, uniqueViolation_eq_none,
    foreignViolation_eq_none]
  constructor
  · rintro ⟨hrow, huniq, href⟩
    exact { hrow with unique := huniq, refers := href }
  · intro h
    exact ⟨h.toRowOk, h.unique, h.refers⟩

/-! ## Consistent databases -/

/-- The rows of one table, by the parents a database has for them. -/
structure TableOk (S : Schema τ κ ν) (db : Db τ κ ν) (t : τ) (rows : List (Row κ ν)) : Prop where
  rowOk  : ∀ r ∈ rows, RowOk S t r.cells
  unique : ∀ columns ∈ S.unique t, rows.Pairwise fun a b => sameKey columns a.cells b.cells = false
  refers : ∀ r ∈ rows, Refers S db t r.cells

/-- Every constraint holds; the ids of a table increase and stay below what it has used. -/
structure Consistent (S : Schema τ κ ν) (db : Db τ κ ν) : Prop where
  ordered : ∀ t, (db.ids t).Pairwise (· < ·)
  bounded : ∀ t, ∀ i ∈ db.ids t, i ≤ db.seq t
  table   : ∀ t, TableOk S db t (db.rows t)

theorem Refers.mono {db db' : Db τ κ ν} {t : τ} {cells : κ → Option ν} (h : Refers S db t cells)
    (hids : ∀ t, ∀ i ∈ db.ids t, i ∈ db'.ids t) : Refers S db' t cells := by
  intro fk hfk v hv
  obtain ⟨i, hi, he⟩ := h fk hfk v hv
  exact ⟨i, hids fk.parent i hi, he⟩

theorem TableOk.mono {db db' : Db τ κ ν} {t : τ} {rows : List (Row κ ν)}
    (h : TableOk S db t rows) (hids : ∀ t, ∀ i ∈ db.ids t, i ∈ db'.ids t) :
    TableOk S db' t rows :=
  { h with refers := fun r hr => (h.refers r hr).mono hids }

/-- A row that fits may be put anywhere between the others. -/
theorem TableOk.write {db : Db τ κ ν} {t : τ} {done rs : List (Row κ ν)} {i : Nat}
    {cells : κ → Option ν} (h : TableOk S db t (done ++ rs)) (hfit : Fits S db t (done ++ rs) cells) :
    TableOk S db t (done ++ ⟨i, cells⟩ :: rs) where
  rowOk := by
    intro r hr
    rcases List.mem_append.mp hr with hr | hr
    · exact h.rowOk r (List.mem_append_left _ hr)
    · rcases List.mem_cons.mp hr with rfl | hr
      · exact hfit.toRowOk
      · exact h.rowOk r (List.mem_append_right _ hr)
  unique := by
    intro columns hc
    have hp := List.pairwise_append.mp (h.unique columns hc)
    have hu := hfit.unique columns hc
    refine List.pairwise_append.mpr ⟨hp.1, List.pairwise_cons.mpr ⟨?_, hp.2.1⟩, ?_⟩
    · intro r hr
      rw [sameKey_comm]
      exact hu r (List.mem_append_right _ hr)
    · intro a ha b hb
      rcases List.mem_cons.mp hb with rfl | hb
      · exact hu a (List.mem_append_left _ ha)
      · exact hp.2.2 a ha b hb
  refers := by
    intro r hr
    rcases List.mem_append.mp hr with hr | hr
    · exact h.refers r (List.mem_append_left _ hr)
    · rcases List.mem_cons.mp hr with rfl | hr
      · exact hfit.refers
      · exact h.refers r (List.mem_append_right _ hr)

theorem TableOk.sublist {db : Db τ κ ν} {t : τ} {rows rows' : List (Row κ ν)}
    (h : TableOk S db t rows) (hs : rows'.Sublist rows) : TableOk S db t rows' where
  rowOk := fun r hr => h.rowOk r (hs.subset hr)
  unique := fun columns hc => (h.unique columns hc).sublist hs
  refers := fun r hr => h.refers r (hs.subset hr)

/-- Rows with different ids have different keys. -/
theorem TableOk.unique_ne {db : Db τ κ ν} {t : τ} {rows : List (Row κ ν)}
    (h : TableOk S db t rows) {columns : List κ} (hc : columns ∈ S.unique t) {r r' : Row κ ν}
    (hr : r ∈ rows) (hr' : r' ∈ rows) (hne : r'.id ≠ r.id) :
    sameKey columns r'.cells r.cells = false := by
  have hsymm : Std.Symm fun a b : Row κ ν => sameKey columns a.cells b.cells = false :=
    ⟨fun a b hab => by rw [sameKey_comm]; exact hab⟩
  exact (h.unique columns hc).forall hr' hr fun he => hne (by rw [he])

/-- With increasing ids a row is found by its id. -/
theorem Consistent.row_eq {db : Db τ κ ν} (h : Consistent S db) {t : τ} {r r' : Row κ ν}
    (hr : r ∈ db.rows t) (hr' : r' ∈ db.rows t) (he : r.id = r'.id) : r = r' := by
  have hnodup : ((db.rows t).map Row.id).Nodup := (h.ordered t).imp fun hlt => Nat.ne_of_lt hlt
  exact List.inj_on_of_nodup_map hnodup hr hr' he

/-! ## Assigned cells -/

section Assigned

variable {db : Db τ κ ν} {t : τ} {as : Assignments κ ν} {cells : κ → Option ν}

theorem assign_of_not_mem {c : κ} (h : c ∉ as.map Prod.fst) : assign as cells c = cells c := by
  have hn : as.lookup c = none := by
    rw [List.lookup_eq_none_iff]
    intro x hx
    rw [bne_iff_ne]
    exact fun he => h (he ▸ List.mem_map_of_mem hx)
  rw [assign, hn]

/-- An assigned cell comes from the assignments, any other is the old one. -/
theorem assign_cases (as : Assignments κ ν) (cells : κ → Option ν) (c : κ) :
    (c, assign as cells c) ∈ as ∨ assign as cells c = cells c := by
  unfold assign
  cases hl : as.lookup c with
  | none => exact Or.inr rfl
  | some v =>
    left
    obtain ⟨l₁, l₂, he, -⟩ := List.lookup_eq_some_iff.mp hl
    rw [he]
    exact List.mem_append_right _ List.mem_cons_self

/-- A row whose NOT NULL columns are all there. -/
theorem rowOk_of_all (hnull : ((S.notNull t).all fun c => (cells c).isSome) = true)
    (hcheck : S.check t cells = true) : RowOk S t cells :=
  ⟨fun c hc => List.all_eq_true.mp hnull c hc, hcheck⟩

/-- Assignments that write no NULL into a NOT NULL column. -/
theorem RowOk.assign (h : RowOk S t cells)
    (has : ∀ x ∈ as, x.1 ∈ S.notNull t → x.2.isSome)
    (hcheck : S.check t (assign as cells) = true) : RowOk S t (assign as cells) := by
  refine ⟨fun c hc => ?_, hcheck⟩
  rcases assign_cases as cells c with hm | he
  · exact has _ hm hc
  · rw [he]; exact h.notNull c hc

/-- None of the columns belongs to a key of the table. -/
def Schema.keyFree (S : Schema τ κ ν) (t : τ) (columns : List κ) : Bool :=
  (S.unique t).all fun key => key.all fun c => !columns.contains c

/-- None of the columns is a foreign key of the table. -/
def Schema.refFree (S : Schema τ κ ν) (t : τ) (columns : List κ) : Bool :=
  (S.foreign t).all fun fk => !columns.contains fk.column

theorem keyFree_of_not_mem {columns : List κ} (h : ∀ key ∈ S.unique t, ∀ c ∈ key, c ∉ columns) :
    S.keyFree t columns = true := by
  refine List.all_eq_true.mpr fun key hk => List.all_eq_true.mpr fun c hc => ?_
  simpa using h key hk c hc

theorem not_mem_of_keyFree {columns key : List κ} (h : S.keyFree t columns = true)
    (hk : key ∈ S.unique t) {c : κ} (hc : c ∈ key) : c ∉ columns := by
  have hall := List.all_eq_true.mp (List.all_eq_true.mp h key hk) c hc
  simpa using hall

theorem not_mem_of_refFree {columns : List κ} (h : S.refFree t columns = true)
    {fk : ForeignKey τ κ} (hfk : fk ∈ S.foreign t) : fk.column ∉ columns := by
  simpa using List.all_eq_true.mp h fk hfk

theorem refers_of_nil (h : S.foreign t = []) : Refers S db t cells := by
  intro fk hfk
  rw [h] at hfk
  cases hfk

/-- Assignments whose references name rows, to cells whose references do. -/
theorem Refers.assign (h : Refers S db t cells)
    (has : ∀ fk ∈ S.foreign t, ∀ v, (fk.column, some v) ∈ as → ∃ i ∈ db.ids fk.parent, S.ref i = v) :
    Refers S db t (assign as cells) := by
  intro fk hfk v hv
  rcases assign_cases as cells fk.column with hm | he
  · rw [hv] at hm; exact has fk hfk v hm
  · rw [he] at hv; exact h fk hfk v hv

end Assigned

/-! ## Inserting -/

section Insert

variable {db : Db τ κ ν} {t : τ} {cells : κ → Option ν}

theorem ids_append (t' : τ) : (db.append t cells).ids t' =
    if t' = t then db.ids t ++ [db.seq t + 1] else db.ids t' := by
  unfold Db.ids Db.append
  by_cases h : t' = t
  · simp [h]
  · simp [h]

theorem mem_ids_append {t' : τ} {i : Nat} (h : i ∈ db.ids t') : i ∈ (db.append t cells).ids t' := by
  rw [ids_append]
  by_cases he : t' = t
  · subst he; rw [if_pos rfl]; exact List.mem_append_left _ h
  · rw [if_neg he]; exact h

/-- The id of the new row. -/
theorem new_mem_ids_append : db.seq t + 1 ∈ (db.append t cells).ids t := by
  rw [ids_append, if_pos rfl]
  exact List.mem_append_right _ (List.mem_singleton_self _)

theorem rows_append_ne {t' : τ} (h : t' ≠ t) : (db.append t cells).rows t' = db.rows t' := if_neg h

theorem rows_append_self :
    (db.append t cells).rows t = db.rows t ++ [⟨db.seq t + 1, cells⟩] := if_pos rfl

/-- **A row that fits keeps the database consistent.** -/
theorem Consistent.append (h : Consistent S db) (hfit : Fits S db t (db.rows t) cells) :
    Consistent S (db.append t cells) where
  ordered := by
    intro t'
    rw [ids_append]
    by_cases he : t' = t
    · rw [if_pos he]
      refine List.pairwise_append.mpr ⟨h.ordered t, List.pairwise_singleton _ _, ?_⟩
      intro a ha b hb
      have hle := h.bounded t a ha
      rw [List.mem_singleton] at hb
      omega
    · rw [if_neg he]; exact h.ordered t'
  bounded := by
    intro t' i hi
    rw [ids_append] at hi
    show i ≤ if t' = t then db.seq t + 1 else db.seq t'
    by_cases he : t' = t
    · rw [if_pos he] at hi ⊢
      rcases List.mem_append.mp hi with hi | hi
      · have hle := h.bounded t i hi
        omega
      · rw [List.mem_singleton] at hi
        omega
    · rw [if_neg he] at hi ⊢; exact h.bounded t' i hi
  table := by
    intro t'
    by_cases he : t' = t
    · subst he
      rw [rows_append_self]
      have hrows : TableOk S db t' (db.rows t' ++ []) := by rw [List.append_nil]; exact h.table t'
      have hfit' : Fits S db t' (db.rows t' ++ []) cells := by rw [List.append_nil]; exact hfit
      exact (hrows.write hfit').mono fun t i hi => mem_ids_append hi
    · rw [rows_append_ne he]
      exact (h.table t').mono fun t i hi => mem_ids_append hi

/-- A row that fits is inserted. -/
theorem insertCells_ok (hfit : Fits S db t (db.rows t) cells) :
    S.insertCells t cells db = .ok (db.seq t + 1, db.append t cells) := by
  unfold Schema.insertCells
  rw [violation_eq_none.mpr hfit]

theorem insertCells_inv {db' : Db τ κ ν} {i : Nat} (h : S.insertCells t cells db = .ok (i, db')) :
    Fits S db t (db.rows t) cells ∧ i = db.seq t + 1 ∧ db' = db.append t cells := by
  unfold Schema.insertCells at h
  split at h
  · cases h
  · rename_i hv
    cases h
    exact ⟨violation_eq_none.mp hv, rfl, rfl⟩

theorem insert_consistent {as : Assignments κ ν} {db' : Db τ κ ν} {i : Nat} (h : Consistent S db)
    (hi : S.insert t as db = .ok (i, db')) : Consistent S db' := by
  obtain ⟨hfit, -, rfl⟩ := insertCells_inv hi
  exact h.append hfit

/-- **Rule**: a row that fits is inserted. -/
theorem insert_avoids {P : Db τ κ ν → Prop} {Q : Nat → Db τ κ ν → Prop} {as : Assignments κ ν}
    (h : ∀ db, P db → Consistent S db ∧ Fits S db t (db.rows t) (assign as (S.defaults t)) ∧
      (Consistent S (db.append t (assign as (S.defaults t))) →
        Q (db.seq t + 1) (db.append t (assign as (S.defaults t))))) :
    Avoids (fun _ => True) P (S.insert t as) Q := by
  intro db hP
  obtain ⟨hc, hfit, hQ⟩ := h db hP
  have hok : S.insert t as db = _ := insertCells_ok hfit
  rw [hok]
  exact hQ (hc.append hfit)

end Insert

/-! ## Updating -/

section Update

variable {db : Db τ κ ν} {t : τ} {p : Row κ ν → Bool} {set : Row κ ν → Assignments κ ν}

/-- A row after the update. -/
def written (p : Row κ ν → Bool) (set : Row κ ν → Assignments κ ν) (r : Row κ ν) : Row κ ν :=
  if p r then ⟨r.id, assign (set r) r.cells⟩ else r

@[simp] theorem written_id (r : Row κ ν) : (written p set r).id = r.id := by
  unfold written
  split <;> rfl

/-- The database after the update. -/
def Db.updated (db : Db τ κ ν) (t : τ) (p : Row κ ν → Bool) (set : Row κ ν → Assignments κ ν) :
    Db τ κ ν :=
  db.setRows t ((db.rows t).map (written p set))

@[simp] theorem ids_updated (t' : τ) : (db.updated t p set).ids t' = db.ids t' := by
  unfold Db.ids Db.updated Db.setRows
  by_cases h : t' = t
  · subst h
    simp [Function.comp_def]
  · simp [h]

theorem rows_updated_ne {t' : τ} (h : t' ≠ t) : (db.updated t p set).rows t' = db.rows t' :=
  if_neg h

theorem rows_updated_self : (db.updated t p set).rows t = (db.rows t).map (written p set) :=
  if_pos rfl

/-- An update that goes through writes the rows that match. -/
theorem updateRows_out {rows done out : List (Row κ ν)}
    (h : S.updateRows db t p set done rows = .ok out) : out = done ++ rows.map (written p set) := by
  induction rows generalizing done with
  | nil =>
    rw [Schema.updateRows] at h
    cases h
    rw [List.map_nil, List.append_nil]
  | cons r rs ih =>
    rw [Schema.updateRows] at h
    split at h
    · rename_i hp
      split at h
      · cases h
      · rw [ih h, List.map_cons, written, if_pos hp, List.append_assoc, List.singleton_append]
    · rename_i hp
      rw [ih h, List.map_cons, written, if_neg hp, List.append_assoc, List.singleton_append]

/-- The table stays sound while the rows are written. -/
theorem updateRows_tableOk {rows done out : List (Row κ ν)} (h : TableOk S db t (done ++ rows))
    (hu : S.updateRows db t p set done rows = .ok out) : TableOk S db t out := by
  induction rows generalizing done with
  | nil =>
    rw [Schema.updateRows] at hu
    cases hu
    rwa [List.append_nil] at h
  | cons r rs ih =>
    rw [Schema.updateRows] at hu
    split at hu
    · split at hu
      · cases hu
      · rename_i hv
        refine ih ?_ hu
        rw [List.append_assoc, List.singleton_append]
        have hsub : (done ++ rs).Sublist (done ++ r :: rs) :=
          List.Sublist.append_left (List.sublist_cons_self r rs) done
        exact (h.sublist hsub).write (violation_eq_none.mp hv)
    · refine ih ?_ hu
      rwa [List.append_assoc, List.singleton_append]

theorem update_inv {db' : Db τ κ ν} {x : Unit} (h : S.update t p set db = .ok (x, db')) :
    db' = db.updated t p set ∧
      S.updateRows db t p set [] (db.rows t) = .ok ((db.rows t).map (written p set)) := by
  unfold Schema.update at h
  split at h
  · cases h
  · rename_i rows hrows
    have hout := updateRows_out hrows
    rw [List.nil_append] at hout
    cases h
    rw [← hout]
    exact ⟨by rw [Db.updated, hout], hrows⟩

theorem update_consistent {db' : Db τ κ ν} {x : Unit} (h : Consistent S db)
    (hu : S.update t p set db = .ok (x, db')) : Consistent S db' := by
  obtain ⟨rfl, hrows⟩ := update_inv hu
  have hids : ∀ t' i, i ∈ db.ids t' → i ∈ (db.updated t p set).ids t' := by
    intro t' i hi
    rwa [ids_updated]
  refine ⟨fun t' => by rw [ids_updated]; exact h.ordered t',
    fun t' i hi => by rw [ids_updated] at hi; exact h.bounded t' i hi, fun t' => ?_⟩
  by_cases he : t' = t
  · subst he
    rw [rows_updated_self]
    exact (updateRows_tableOk (h.table t') hrows).mono hids
  · rw [rows_updated_ne he]
    exact (h.table t').mono hids

/-- Where every row that matches fits beside the other rows, written or not yet, the update is
    carried out. -/
theorem updateRows_ok {all rows done : List (Row κ ν)}
    (hall : all.map Row.id = done.map Row.id ++ rows.map Row.id) (hnodup : (all.map Row.id).Nodup)
    (hrows : ∀ r ∈ rows, r ∈ all) (hdone : ∀ x ∈ done, ∃ y ∈ all, x = written p set y)
    (hfit : ∀ r ∈ all, p r = true → ∀ others : List (Row κ ν),
      (∀ x ∈ others, x.id ≠ r.id ∧ ∃ y ∈ all, x = y ∨ x = written p set y) →
      Fits S db t others (assign (set r) r.cells)) :
    S.updateRows db t p set done rows = .ok (done ++ rows.map (written p set)) := by
  induction rows generalizing done with
  | nil => rw [Schema.updateRows, List.map_nil, List.append_nil]
  | cons r rs ih =>
    have hr : r ∈ all := hrows r List.mem_cons_self
    have hrs : ∀ x ∈ rs, x ∈ all := fun x hx => hrows x (List.mem_cons_of_mem _ hx)
    have hdone' : ∀ x ∈ done ++ [written p set r], ∃ y ∈ all, x = written p set y := by
      intro x hx
      rcases List.mem_append.mp hx with hx | hx
      · exact hdone x hx
      · exact ⟨r, hr, List.mem_singleton.mp hx⟩
    have hall' : all.map Row.id = (done ++ [written p set r]).map Row.id ++ rs.map Row.id := by
      rw [hall]
      simp
    have hgo := ih hall' hrs hdone'
    rw [List.append_assoc, List.singleton_append] at hgo
    rw [Schema.updateRows]
    by_cases hp : p r = true
    · have hothers : ∀ x ∈ done ++ rs, x.id ≠ r.id ∧ ∃ y ∈ all, x = y ∨ x = written p set y := by
        intro x hx
        rw [hall, List.map_cons] at hnodup
        have hmid := List.nodup_middle.mp hnodup
        rw [List.nodup_cons, ← List.map_append] at hmid
        refine ⟨fun he => hmid.1 (he ▸ List.mem_map_of_mem hx), ?_⟩
        rcases List.mem_append.mp hx with hx | hx
        · obtain ⟨y, hy, he⟩ := hdone x hx
          exact ⟨y, hy, Or.inr he⟩
        · exact ⟨x, hrs x hx, Or.inl rfl⟩
      rw [if_pos hp, violation_eq_none.mpr (hfit r hr hp _ hothers)]
      have hw : (⟨r.id, assign (set r) r.cells⟩ : Row κ ν) = written p set r := by
        rw [written, if_pos hp]
      show S.updateRows db t p set (done ++ [⟨r.id, assign (set r) r.cells⟩]) rs = _
      rw [hw, hgo, List.map_cons]
    · have hw : r = written p set r := by rw [written, if_neg hp]
      rw [if_neg hp]
      conv_lhs => rw [hw]
      rw [hgo, List.map_cons]

theorem update_ok (h : Consistent S db)
    (hfit : ∀ r ∈ db.rows t, p r = true → ∀ others : List (Row κ ν),
      (∀ x ∈ others, x.id ≠ r.id ∧ ∃ y ∈ db.rows t, x = y ∨ x = written p set y) →
      Fits S db t others (assign (set r) r.cells)) :
    S.update t p set db = .ok ((), db.updated t p set) := by
  have hnodup : ((db.rows t).map Row.id).Nodup := (h.ordered t).imp fun hlt => Nat.ne_of_lt hlt
  have hgo : S.updateRows db t p set [] (db.rows t) = .ok ([] ++ (db.rows t).map (written p set)) :=
    updateRows_ok rfl hnodup (fun r hr => hr) (fun x hx => absurd hx List.not_mem_nil) hfit
  unfold Schema.update
  rw [hgo]
  rfl

/-- New cells for a row that keep its keys. -/
structure Rewrites (S : Schema τ κ ν) (db : Db τ κ ν) (t : τ) (r : Row κ ν) (cells : κ → Option ν) :
    Prop extends RowOk S t cells where
  keys   : ∀ columns ∈ S.unique t, ∀ c ∈ columns, cells c = r.cells c
  refers : Refers S db t cells

/-- Assignments to columns that belong to no key. -/
theorem Rewrites.assign {r : Row κ ν} {as : Assignments κ ν} (h : Consistent S db)
    (hr : r ∈ db.rows t) (has : ∀ x ∈ as, x.1 ∈ S.notNull t → x.2.isSome)
    (hcheck : S.check t (assign as r.cells) = true)
    (hkeys : S.keyFree t (as.map Prod.fst) = true)
    (href : ∀ fk ∈ S.foreign t, ∀ v, (fk.column, some v) ∈ as →
      ∃ i ∈ db.ids fk.parent, S.ref i = v) :
    Rewrites S db t r (Relational.assign as r.cells) where
  toRowOk := ((h.table t).rowOk r hr).assign has hcheck
  keys    := fun _ hc _ hcc => assign_of_not_mem (not_mem_of_keyFree hkeys hc hcc)
  refers  := ((h.table t).refers r hr).assign href

/-- Assignments to columns that belong to no key and refer to nothing. -/
theorem Rewrites.assign_free {r : Row κ ν} {as : Assignments κ ν} (h : Consistent S db)
    (hr : r ∈ db.rows t) (has : ∀ x ∈ as, x.1 ∈ S.notNull t → x.2.isSome)
    (hcheck : S.check t (Relational.assign as r.cells) = true)
    (hkeys : S.keyFree t (as.map Prod.fst) = true)
    (hrefs : S.refFree t (as.map Prod.fst) = true) :
    Rewrites S db t r (Relational.assign as r.cells) :=
  Rewrites.assign h hr has hcheck hkeys fun _ hfk _ hm =>
    absurd (List.mem_map_of_mem hm) (not_mem_of_refFree hrefs hfk)

/-- An update that keeps the keys of the rows it writes is carried out. -/
theorem update_ok_of_rewrites (h : Consistent S db)
    (hw : ∀ r ∈ db.rows t, p r = true → Rewrites S db t r (assign (set r) r.cells)) :
    S.update t p set db = .ok ((), db.updated t p set) := by
  refine update_ok h fun r hr hp others hothers => ?_
  have hrw := hw r hr hp
  refine { hrw.toRowOk with unique := fun columns hc x hx => ?_, refers := hrw.refers }
  obtain ⟨hne, y, hy, hxy⟩ := hothers x hx
  -- the key of `x` is the key of the old row `y` with the same id
  have hid : y.id = x.id := by
    rcases hxy with rfl | rfl
    · rfl
    · rw [written_id]
  have hkey : ∀ c ∈ columns, x.cells c = y.cells c := by
    intro c hcc
    rcases hxy with rfl | rfl
    · rfl
    · unfold written
      split
      · rename_i hpy; exact (hw y hy hpy).keys columns hc c hcc
      · rfl
  rw [sameKey_congr hkey (hrw.keys columns hc)]
  exact (h.table t).unique_ne hc hr hy (by rw [hid]; exact hne)

/-- **Rule**: an update that keeps the keys of the rows it writes. -/
theorem update_avoids {P : Db τ κ ν → Prop} {Q : Unit → Db τ κ ν → Prop}
    (h : ∀ db, P db → Consistent S db ∧
      (∀ r ∈ db.rows t, p r = true → Rewrites S db t r (assign (set r) r.cells)) ∧
      (Consistent S (db.updated t p set) → Q () (db.updated t p set))) :
    Avoids (fun _ => True) P (S.update t p set) Q := by
  intro db hP
  obtain ⟨hc, hw, hQ⟩ := h db hP
  have hok := update_ok_of_rewrites hc hw
  rw [hok]
  exact hQ (update_consistent hc hok)

/-- **Rule**: an update of one row by its id, to cells that fit beside the other rows. -/
theorem updateOne_avoids {P : Db τ κ ν → Prop} {Q : Unit → Db τ κ ν → Prop} {i : Nat}
    (h : ∀ db, P db → Consistent S db ∧
      (∀ r ∈ db.rows t, r.id = i →
        Fits S db t ((db.rows t).filter fun x => x.id ≠ i) (assign (set r) r.cells)) ∧
      (Consistent S (db.updated t (fun r => r.id == i) set) →
        Q () (db.updated t (fun r => r.id == i) set))) :
    Avoids (fun _ => True) P (S.update t (fun r => r.id == i) set) Q := by
  intro db hP
  obtain ⟨hc, hw, hQ⟩ := h db hP
  have hok : S.update t (fun r => r.id == i) set db = .ok ((), db.updated t (fun r => r.id == i) set) := by
    refine update_ok hc fun r hr hp others hothers => ?_
    have hri : r.id = i := by simpa using hp
    have hfit := hw r hr hri
    refine { hfit.toRowOk with unique := fun columns hcol x hx => ?_, refers := hfit.refers }
    obtain ⟨hne, y, hy, hxy⟩ := hothers x hx
    have hxi : x.id ≠ i := fun he => hne (he.trans hri.symm)
    have hmem : x ∈ db.rows t := by
      rcases hxy with rfl | rfl
      · exact hy
      · rw [written_id] at hxi
        rwa [written, if_neg (by simpa using hxi)]
    exact hfit.unique columns hcol x (List.mem_filter.mpr ⟨hmem, by simpa using hxi⟩)
  rw [hok]
  exact hQ (update_consistent hc hok)

end Update

/-! ## Upserting -/

section Upsert

variable {t : τ} {key : List κ} {as : Assignments κ ν} {set : Row κ ν → Assignments κ ν}

theorem upsert_consistent {db db' : Db τ κ ν} {x : Unit} (h : Consistent S db)
    (hu : S.upsert t key as set db = .ok (x, db')) : Consistent S db' := by
  unfold Schema.upsert at hu
  split at hu
  · cases hu
  · split at hu
    · exact update_consistent h hu
    · cases hi : S.insert t as db with
      | error e => rw [hi] at hu; cases hu
      | ok y =>
        rw [hi] at hu
        cases hu
        exact insert_consistent h hi

theorem of_find?_eq_some {cells : κ → Option ν} {rows : List (Row κ ν)} {r : Row κ ν}
    (h : rows.find? (fun r => sameKey key r.cells cells) = some r) :
    sameKey key r.cells cells = true :=
  List.find?_some (p := fun r : Row κ ν => sameKey key r.cells cells) h

theorem upsert_of_conflict {db : Db τ κ ν} {r : Row κ ν}
    (hrow : RowOk S t (assign as (S.defaults t)))
    (hf : (db.rows t).find? (fun r => sameKey key r.cells (assign as (S.defaults t))) = some r) :
    S.upsert t key as set db = S.update t (fun r' => r'.id == r.id) set db := by
  unfold Schema.upsert
  rw [rowViolation_eq_none.mpr hrow, hf]

theorem upsert_of_new {db : Db τ κ ν} (hrow : RowOk S t (assign as (S.defaults t)))
    (hf : (db.rows t).find? (fun r => sameKey key r.cells (assign as (S.defaults t))) = none) :
    S.upsert t key as set db = (S.insert t as db).map fun x => ((), x.2) := by
  unfold Schema.upsert
  rw [rowViolation_eq_none.mpr hrow, hf]

/-- **Rule**: the row passes its own checks; where a row has its key, that row may be rewritten,
    and where none has, the row fits. -/
theorem upsert_avoids {P : Db τ κ ν → Prop} {Q : Unit → Db τ κ ν → Prop}
    (h : ∀ db, P db → Consistent S db ∧ RowOk S t (assign as (S.defaults t)) ∧
      (∀ r ∈ db.rows t, sameKey key r.cells (assign as (S.defaults t)) = true →
        Rewrites S db t r (assign (set r) r.cells)) ∧
      ((∀ r ∈ db.rows t, sameKey key r.cells (assign as (S.defaults t)) = false) →
        Fits S db t (db.rows t) (assign as (S.defaults t))) ∧
      ∀ db', Consistent S db' → (∀ t, ∀ i ∈ db.ids t, i ∈ db'.ids t) → Q () db') :
    Avoids (fun _ => True) P (S.upsert t key as set) Q := by
  intro db hP
  obtain ⟨hc, hrow, hconflict, hnew, hQ⟩ := h db hP
  cases hf : (db.rows t).find? fun r => sameKey key r.cells (assign as (S.defaults t)) with
  | some r =>
    have hr := List.mem_of_find?_eq_some hf
    have hrw := hconflict r hr (of_find?_eq_some hf)
    have hall : ∀ r' ∈ db.rows t, (r'.id == r.id) = true →
        Rewrites S db t r' (assign (set r') r'.cells) := by
      intro r' hr' he
      obtain rfl := hc.row_eq hr' hr (by simpa using he)
      exact hrw
    have hok := update_ok_of_rewrites hc hall
    rw [upsert_of_conflict hrow hf, hok]
    exact hQ _ (update_consistent hc hok) fun t' i hi => by rwa [ids_updated]
  | none =>
    have hnone : ∀ r ∈ db.rows t, sameKey key r.cells (assign as (S.defaults t)) = false := by
      intro r hr
      have hn := List.find?_eq_none.mp hf r hr
      rwa [Bool.not_eq_true] at hn
    have hok : S.insert t as db = _ := insertCells_ok (hnew hnone)
    rw [upsert_of_new hrow hf, hok]
    exact hQ _ (hc.append (hnew hnone)) fun t' i hi => mem_ids_append hi

/-- Only a foreign key of the table itself is reported as one. -/
theorem foreign_of_violation {db : Db τ κ ν} {others : List (Row κ ν)} {cells : κ → Option ν}
    {t' : τ} {c : κ} (h : S.violation db t others cells = some (.foreignKey t' c)) :
    S.foreign t ≠ [] := by
  intro hfk
  rw [Schema.violation, Schema.foreignViolation, hfk, List.find?_nil, Option.map_none,
    Option.or_none] at h
  rcases Option.or_eq_some_iff.mp h with h | ⟨-, h⟩
  · unfold Schema.rowViolation at h
    split at h
    · cases h
    · split at h <;> cases h
  · obtain ⟨columns, -, he⟩ := Option.map_eq_some_iff.mp h
    cases he

/-- An ignored insert leaves the database alone; the only violation it raises is a foreign key's. -/
theorem insertOrIgnore_consistent {db db' : Db τ κ ν} {x : Bool} (h : Consistent S db)
    (hi : S.insertOrIgnore t as db = .ok (x, db')) : Consistent S db' := by
  unfold Schema.insertOrIgnore at hi
  split at hi
  · rename_i y hy
    cases hi
    exact insert_consistent h hy
  · cases hi
  · cases hi
    exact h

/-- **Rule**: in a table without foreign keys an ignored insert raises nothing. -/
theorem insertOrIgnore_avoids {P : Db τ κ ν → Prop} {Q : Bool → Db τ κ ν → Prop}
    (hfk : S.foreign t = []) (h : ∀ db, P db → Consistent S db ∧
      ∀ x db', Consistent S db' → Q x db') :
    Avoids (fun _ => True) P (S.insertOrIgnore t as) Q := by
  intro db hP
  obtain ⟨hc, hQ⟩ := h db hP
  cases hi : S.insertOrIgnore t as db with
  | ok y => exact hQ y.1 y.2 (insertOrIgnore_consistent hc hi)
  | error e =>
    exfalso
    unfold Schema.insertOrIgnore at hi
    split at hi
    · cases hi
    · rename_i t' c he
      unfold Schema.insert Schema.insertCells at he
      split at he
      · rename_i v hv
        cases he
        exact foreign_of_violation hv hfk
      · cases he
    · cases hi

end Upsert

/-! ## Deleting -/

section Delete

variable {db : Db τ κ ν} {t : τ} {D : τ → Nat → Bool}

theorem released_eq (S : Schema τ κ ν) (db : Db τ κ ν) (D : τ → Nat → Bool) (t : τ) (r : Row κ ν)
    (c : κ) :
    S.released db D t r c = none ∨ S.released db D t r c = r.cells c := by
  unfold Schema.released
  split
  · exact Or.inl rfl
  · exact Or.inr rfl

/-- Setting keys to NULL makes no two rows alike. -/
theorem sameKey_released {columns : List κ} {a b : Row κ ν}
    (h : sameKey columns a.cells b.cells = false) :
    sameKey columns (S.released db D t a) (S.released db D t b) = false := by
  rw [Bool.eq_false_iff] at h ⊢
  intro hrel
  apply h
  simp only [sameKey, List.all_eq_true, Bool.and_eq_true, beq_iff_eq] at hrel ⊢
  intro c hc
  obtain ⟨hs, he⟩ := hrel c hc
  have ha : S.released db D t a c = a.cells c := by
    rcases released_eq S db D t a c with hn | ha
    · rw [hn] at hs; cases hs
    · exact ha
  have hb : S.released db D t b c = b.cells c := by
    rcases released_eq S db D t b c with hn | hb
    · rw [← he, ha] at hn; rw [ha, hn] at hs; cases hs
    · exact hb
  rw [ha] at hs he
  rw [hb] at he
  exact ⟨hs, he⟩

theorem ids_without : ((S.without db D).ids t).Sublist (db.ids t) := by
  unfold Db.ids Schema.without
  rw [List.map_map]
  exact List.filter_sublist.map Row.id

/-- **A delete that goes through leaves a consistent database.** -/
theorem delete_consistent {db' : Db τ κ ν} {p : Row κ ν → Bool} {x : Unit} (h : Consistent S db)
    (hd : S.delete t p db = .ok (x, db')) : Consistent S db' := by
  unfold Schema.delete at hd
  split at hd
  · cases hd
  · rename_i hv
    cases hd
    rw [Schema.firstViolation, List.findSome?_eq_none_iff] at hv
    refine ⟨fun t' => (h.ordered t').sublist ids_without,
      fun t' i hi => h.bounded t' i (ids_without.subset hi), fun t' => ?_⟩
    have hrows := hv t' (S.complete t')
    rw [List.findSome?_eq_none_iff] at hrows
    refine ⟨fun r hr => ?_, fun columns hc => ?_, fun r hr => ?_⟩
    · exact rowViolation_eq_none.mp (Option.or_eq_none_iff.mp (hrows r hr)).1
    · refine List.Pairwise.map _ (fun a b hab => sameKey_released hab) ?_
      exact ((h.table t').unique columns hc).sublist List.filter_sublist
    · exact foreignViolation_eq_none.mp (Option.or_eq_none_iff.mp (hrows r hr)).2

end Delete

/-! ## Any statement -/

/-- A statement of the database's language. -/
inductive Statement (τ κ ν : Type)
  | insert (t : τ) (as : Assignments κ ν)
  | insertOrIgnore (t : τ) (as : Assignments κ ν)
  | upsert (t : τ) (key : List κ) (as : Assignments κ ν) (set : Row κ ν → Assignments κ ν)
  | update (t : τ) (p : Row κ ν → Bool) (set : Row κ ν → Assignments κ ν)
  | delete (t : τ) (p : Row κ ν → Bool)

/-- What a statement leaves; one that raises leaves what was there. -/
def Statement.exec (S : Schema τ κ ν) (db : Db τ κ ν) : Statement τ κ ν → Db τ κ ν
  | .insert t as           => ((S.insert t as db).toOption.map Prod.snd).getD db
  | .insertOrIgnore t as   => ((S.insertOrIgnore t as db).toOption.map Prod.snd).getD db
  | .upsert t key as set   => ((S.upsert t key as set db).toOption.map Prod.snd).getD db
  | .update t p set        => ((S.update t p set db).toOption.map Prod.snd).getD db
  | .delete t p            => ((S.delete t p db).toOption.map Prod.snd).getD db

theorem outcome_consistent {α : Type} {m : Sql τ κ ν α} {db : Db τ κ ν} (h : Consistent S db)
    (hm : ∀ a db', m db = .ok (a, db') → Consistent S db') :
    Consistent S (((m db).toOption.map Prod.snd).getD db) := by
  cases hr : m db with
  | error e => exact h
  | ok y => exact hm y.1 y.2 hr

/-- **Every statement keeps the constraints.** -/
theorem Statement.exec_consistent {db : Db τ κ ν} (h : Consistent S db) (q : Statement τ κ ν) :
    Consistent S (q.exec S db) := by
  cases q with
  | insert t as => exact outcome_consistent h fun i db' hi => insert_consistent h hi
  | insertOrIgnore t as => exact outcome_consistent h fun x db' hi => insertOrIgnore_consistent h hi
  | upsert t key as set => exact outcome_consistent h fun x db' hu => upsert_consistent h hu
  | update t p set => exact outcome_consistent h fun x db' hu => update_consistent h hu
  | delete t p => exact outcome_consistent h fun x db' hd => delete_consistent h hd

theorem Consistent.empty : Consistent S (Db.empty : Db τ κ ν) where
  ordered := fun _ => List.Pairwise.nil
  bounded := fun _ _ hi => absurd hi List.not_mem_nil
  table   := fun _ => ⟨fun _ hr => absurd hr List.not_mem_nil, fun _ _ => List.Pairwise.nil,
    fun _ hr => absurd hr List.not_mem_nil⟩

end Air780eHub.Relational
