/-
  What statements of a relational database leave alone.

  `Leaves t m` : where `m` returns, the table `t` is as it was: its rows and the largest id it has
  used.  A program that raises is rolled back by whoever runs it, so nothing is asked of it there.

  A statement on another table leaves `t` alone.  A `DELETE` cascades along the foreign keys, so it
  leaves a table alone that has none.
-/
import Air780eHub.Lib.Constraints

namespace Air780eHub.Relational

variable {τ κ ν ε : Type} {α : Type} {t t' : τ}

/-- The table is the same in two databases. -/
structure SameTable (t : τ) (db db' : Db τ κ ν) : Prop where
  rows : db'.rows t = db.rows t
  seq  : db'.seq t = db.seq t

theorem SameTable.refl (t : τ) (db : Db τ κ ν) : SameTable t db db := ⟨rfl, rfl⟩

theorem SameTable.trans {db db' db'' : Db τ κ ν} (h : SameTable t db db')
    (h' : SameTable t db' db'') : SameTable t db db'' :=
  ⟨h'.rows.trans h.rows, h'.seq.trans h.seq⟩

/-- Where `m` returns, the table `t` is as before. -/
def Leaves (t : τ) (m : StateT (Db τ κ ν) (Except ε) α) : Prop :=
  ∀ db a db', m db = .ok (a, db') → SameTable t db db'

section

variable [DecidableEq τ] [DecidableEq κ] [DecidableEq ν] {S : Schema τ κ ν}
  {as : Assignments κ ν} {set : Row κ ν → Assignments κ ν} {p : Row κ ν → Bool}

theorem leaves_insert (h : t ≠ t') : Leaves t (S.insert t' as) := by
  intro db i db' hi
  obtain ⟨-, -, rfl⟩ := insertCells_inv hi
  exact ⟨rows_append_ne h, if_neg h⟩

theorem leaves_update (h : t ≠ t') : Leaves t (S.update t' p set) := by
  intro db i db' hu
  obtain ⟨rfl, -⟩ := update_inv hu
  exact ⟨rows_updated_ne h, rfl⟩

theorem leaves_upsert {key : List κ} (h : t ≠ t') : Leaves t (S.upsert t' key as set) := by
  intro db i db' hu
  unfold Schema.upsert at hu
  split at hu
  · cases hu
  · split at hu
    · exact leaves_update h db i db' hu
    · cases hi : S.insert t' as db with
      | error e => rw [hi] at hu; cases hu
      | ok y =>
        rw [hi] at hu
        cases hu
        exact leaves_insert h db _ _ hi

theorem leaves_insertOrIgnore (h : t ≠ t') : Leaves t (S.insertOrIgnore t' as) := by
  intro db i db' hi
  unfold Schema.insertOrIgnore at hi
  split at hi
  · rename_i y hy
    cases hi
    exact leaves_insert h db _ _ hy
  · cases hi
  · cases hi
    exact .refl t db

omit [DecidableEq τ] [DecidableEq κ] in
/-- A cascade does not reach a table without foreign keys. -/
theorem spread_of_no_foreign {db : Db τ κ ν} (h : S.foreign t = []) (D : τ → Nat → Bool) (n : Nat) :
    ((S.spread db)^[n] D) t = D t := by
  induction n generalizing D with
  | zero => rfl
  | succ n ih =>
    rw [Function.iterate_succ_apply, ih]
    funext i
    have hf : ∀ r : Row κ ν, S.follows db D t r = false := by
      intro r
      rw [Schema.follows, h, List.any_nil]
    simp [Schema.spread, hf]

theorem leaves_delete (h : t ≠ t') (hfk : S.foreign t = []) : Leaves t (S.delete t' p) := by
  intro db i db' hd
  unfold Schema.delete at hd
  split at hd
  · cases hd
  · cases hd
    unfold Schema.remaining
    generalize hD : (S.spread db)^[S.tables.length] _ = D
    have hnone : D t = fun _ => false := by
      rw [← hD, spread_of_no_foreign hfk]
      funext j
      simp [h]
    have hcells : ∀ r : Row κ ν, (⟨r.id, S.released db D t r⟩ : Row κ ν) = r := by
      intro r
      have hr : S.released db D t r = r.cells := by
        funext c
        rw [Schema.released, hfk, List.any_nil]
        exact if_neg Bool.false_ne_true
      rw [hr]
    refine ⟨?_, rfl⟩
    show ((db.rows t).filter fun r => !D t r.id).map (fun r : Row κ ν =>
      (⟨r.id, S.released db D t r⟩ : Row κ ν)) = _
    simp only [hnone, hcells, Bool.not_false, List.filter_true, List.map_id']

/-- The table a statement is on. -/
def Statement.table : Statement τ κ ν → τ
  | .insert t _         => t
  | .insertOrIgnore t _ => t
  | .upsert t _ _ _     => t
  | .update t _ _       => t
  | .delete t _         => t

omit [DecidableEq τ] [DecidableEq κ] [DecidableEq ν] in
theorem outcome_leaves {m : Sql τ κ ν α} (h : Leaves t m) (db : Db τ κ ν) :
    SameTable t db (((m db).toOption.map Prod.snd).getD db) := by
  cases hr : m db with
  | error e => exact .refl t db
  | ok y => exact h db y.1 y.2 hr

/-- **A statement leaves the other tables without foreign keys alone.** -/
theorem Statement.exec_leaves {q : Statement τ κ ν} (h : t ≠ q.table) (hfk : S.foreign t = [])
    (db : Db τ κ ν) : SameTable t db (q.exec S db) := by
  cases q with
  | insert t' as => exact outcome_leaves (leaves_insert h) db
  | insertOrIgnore t' as => exact outcome_leaves (leaves_insertOrIgnore h) db
  | upsert t' key as set => exact outcome_leaves (leaves_upsert h) db
  | update t' p set => exact outcome_leaves (leaves_update h) db
  | delete t' p => exact outcome_leaves (leaves_delete h hfk) db

end

end Air780eHub.Relational
