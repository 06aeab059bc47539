/-
  Deleting in batches.

  A batch deletes at most `n` of the rows that match; a batch that is not full ends the loop.  In a
  consistent database the loop ends after as many batches as it takes, and then the rows that match
  are gone, with what cascades from them, and the tables of the same or a smaller rank are as they
  were.

  1. **A batch** and the loop `drain`.
  2. **What one batch takes** of the rows that match.
  3. **`drain_eq`**: what the loop leaves.
-/
import Air780eHub.Lib.Cascade

namespace Air780eHub.Relational

variable {τ κ ν : Type} [DecidableEq τ] [DecidableEq κ] [DecidableEq ν] {S : Schema τ κ ν}
  {rank : τ → Nat} {db : Db τ κ ν} {t : τ} {p : Row κ ν → Bool} {n : Nat}

namespace Schema

/-- `DELETE FROM t WHERE rowid IN (SELECT rowid FROM t WHERE p LIMIT n)`, with its row count. -/
def deleteBatch (S : Schema τ κ ν) (t : τ) (p : Row κ ν → Bool) (n : Nat) : Sql τ κ ν Nat := fun db =>
  let rowids := (((db.rows t).filter p).take n).map Row.id
  (S.delete t (fun r => rowids.contains r.id) db).map fun x => (rowids.length, x.2)

/-- Batches until one is not full, `k` at most; the number of rows they deleted. -/
def drain (S : Schema τ κ ν) (t : τ) (p : Row κ ν → Bool) (n : Nat) : Nat → Sql τ κ ν Nat
  | 0     => pure 0
  | k + 1 => do
    let count ← S.deleteBatch t p n
    if count < n then pure count
    else
      let more ← S.drain t p n k
      pure (count + more)

end Schema

/-! ## What one batch takes -/

section Rows

variable {rows : List (Row κ ν)}

omit [DecidableEq κ] [DecidableEq ν] in
/-- The rows that match and are not in the batch. -/
theorem filter_batch (h : (rows.map Row.id).Nodup) :
    (rows.filter fun r => !(((rows.filter p).take n).map Row.id).contains r.id).filter p =
      (rows.filter p).drop n := by
  rw [List.filter_comm]
  have hnodup : ((rows.filter p).map Row.id).Nodup := h.sublist (List.filter_sublist.map _)
  generalize rows.filter p = found at hnodup
  have hsplit : found = found.take n ++ found.drop n := (List.take_append_drop n found).symm
  rw [hsplit, List.map_append, List.nodup_append] at hnodup
  obtain ⟨-, -, hne⟩ := hnodup
  conv_lhs => rw [hsplit, List.filter_append]
  have htaken : (found.take n).filter
      (fun r => !((((found.take n ++ found.drop n).take n).map Row.id).contains r.id)) = [] := by
    rw [← hsplit, List.filter_eq_nil_iff]
    intro r hr
    rw [List.contains_iff_mem.mpr (List.mem_map_of_mem hr)]
    exact Bool.false_ne_true
  have hleft : (found.drop n).filter
      (fun r => !((((found.take n ++ found.drop n).take n).map Row.id).contains r.id)) =
      found.drop n := by
    rw [← hsplit, List.filter_eq_self]
    intro r hr
    rw [Bool.not_eq_true', ← Bool.not_eq_true, List.contains_iff_mem]
    exact fun hmem => hne r.id hmem r.id (List.mem_map_of_mem hr) rfl
  rw [htaken, hleft, List.nil_append]

omit [DecidableEq κ] [DecidableEq ν] in
/-- The rows that do not match are in no batch. -/
theorem filter_not_batch (h : (rows.map Row.id).Nodup) :
    (rows.filter fun r => !(((rows.filter p).take n).map Row.id).contains r.id).filter
      (fun r => !p r) = rows.filter fun r => !p r := by
  rw [List.filter_filter]
  refine List.filter_congr fun r hr => ?_
  cases hp : p r with
  | true => rfl
  | false =>
    have hout : (((rows.filter p).take n).map Row.id).contains r.id = false := by
      rw [← Bool.not_eq_true, List.contains_iff_mem, List.mem_map]
      rintro ⟨r', hr', he⟩
      obtain ⟨hmem, hp'⟩ := List.mem_filter.mp (List.mem_of_mem_take hr')
      rw [List.inj_on_of_nodup_map h hmem hr he, hp] at hp'
      cases hp'
    rw [hout]
    rfl

end Rows

/-! ## What the loop leaves -/

/-- The rows of `t` with `p` are gone, and no table of the same or a smaller rank lost any other. -/
structure Drained (S : Schema τ κ ν) (rank : τ → Nat) (t : τ) (p : Row κ ν → Bool)
    (db db' : Db τ κ ν) : Prop where
  consistent : Consistent S db'
  rows       : db'.rows t = (db.rows t).filter fun r => !p r
  below      : ∀ t', rank t' ≤ rank t → t' ≠ t → db'.rows t' = db.rows t'
  seq        : db'.seq = db.seq

theorem deleteBatch_eq (h : Consistent S db) (hS : Ranked S rank) :
    S.deleteBatch t p n db = .ok (min n ((db.rows t).filter p).length,
      S.remaining t (fun r => (((db.rows t).filter p).take n |>.map Row.id).contains r.id) db) := by
  unfold Schema.deleteBatch
  dsimp only
  rw [delete_eq h hS, List.length_map, List.length_take]
  rfl

/-- **The loop deletes what matches.**  It needs no more batches than there are such rows, and one. -/
theorem drain_eq (hS : Ranked S rank) (hn : 0 < n) {k : Nat} {db : Db τ κ ν} (h : Consistent S db)
    (hk : ((db.rows t).filter p).length < k) :
    ∃ db', S.drain t p n k db = .ok (((db.rows t).filter p).length, db') ∧
      Drained S rank t p db db' := by
  induction k generalizing db with
  | zero => omega
  | succ k ih =>
    have hnodup : ((db.rows t).map Row.id).Nodup := (h.ordered t).imp fun hlt => Nat.ne_of_lt hlt
    have hbatch := deleteBatch_eq (t := t) (p := p) (n := n) h hS
    generalize hsel : (fun r : Row κ ν => (((db.rows t).filter p).take n |>.map Row.id).contains r.id)
      = sel at hbatch
    have hcons : Consistent S (S.remaining t sel db) := remaining_consistent h hS t sel
    have hself : (S.remaining t sel db).rows t = (db.rows t).filter fun r => !sel r :=
      remaining_self h hS
    have hmatch : ((S.remaining t sel db).rows t).filter p = ((db.rows t).filter p).drop n := by
      rw [hself, ← hsel]
      exact filter_batch hnodup
    have hkeep : ((S.remaining t sel db).rows t).filter (fun r => !p r) =
        (db.rows t).filter fun r => !p r := by
      rw [hself, ← hsel]
      exact filter_not_batch hnodup
    have hrun : S.drain t p n (k + 1) db =
        (if min n ((db.rows t).filter p).length < n then
          pure (min n ((db.rows t).filter p).length)
        else do
          let more ← S.drain t p n k
          pure (min n ((db.rows t).filter p).length + more) : Sql τ κ ν Nat)
          (S.remaining t sel db) := by
      show (S.deleteBatch t p n db >>= _) = _
      rw [hbatch]
      rfl
    have hlen := congrArg List.length hmatch
    rw [List.length_drop] at hlen
    rw [hrun]
    by_cases hfull : ((db.rows t).filter p).length < n
    · -- the batch was not full: it took every row that matched
      rw [Nat.min_eq_right (Nat.le_of_lt hfull), if_pos hfull]
      refine ⟨_, rfl, hcons, ?_, fun t' hr hne => remaining_below hS hr hne, rfl⟩
      rw [← hkeep, eq_comm, List.filter_eq_self]
      intro r hr
      rw [Bool.not_eq_true', ← Bool.not_eq_true]
      intro hp
      have hmem : r ∈ ((S.remaining t sel db).rows t).filter p := List.mem_filter.mpr ⟨hr, hp⟩
      rw [hmatch, List.drop_eq_nil_of_le (Nat.le_of_lt hfull)] at hmem
      cases hmem
    · obtain ⟨db', hrest, hdone⟩ := ih hcons (by omega)
      rw [Nat.min_eq_left (by omega), if_neg (Nat.lt_irrefl n)]
      refine ⟨db', ?_, hdone.consistent, by rw [hdone.rows, hkeep], fun t' hr hne => ?_, hdone.seq⟩
      · show (S.drain t p n k (S.remaining t sel db) >>= _) = _
        rw [hrest, hlen]
        show Except.ok (n + (((db.rows t).filter p).length - n), db') = _
        congr 2
        omega
      · rw [hdone.below t' hr hne]
        exact remaining_below hS hr hne

end Air780eHub.Relational
