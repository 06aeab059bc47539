/-
  The loop of `_migration_data_messages` and what it comes to.

  The messages are read in batches of 500 in the order of their ids, each batch after the last id of
  the one before.  In the end every stored data message is marked and no other row is touched,
  as if all of them had been looked at in one go.

  1. **`reclassified`**: what the migration makes of one row.
  2. **A batch** of rows in order.
  3. **One turn**, then **`migrationDataMessages_ok`** by induction on the rows that are left.
-/
import Air780eHub.Migrations.Widening

namespace Air780eHub.Migrations

open Relational Autocommit

variable {f : File} {d : TableData}

/-! ## One row -/

/-- `is_binary = 1`. -/
def FileRow.marked (r : FileRow) : FileRow :=
  ⟨r.id, assign [(.hub .isBinary, Server.integer 1)] r.cells⟩

/-- The stored PDU is data. -/
def isData (r : FileRow) : Bool :=
  match r.cells (.hub .rawPdu) with
  | some (.text s) => Server.pduIsData s
  | _              => false

/-- A row after the migration: an inbound data message that was not marked is. -/
def reclassified (r : FileRow) : FileRow :=
  if unclassified 0 r && isData r then r.marked else r

/-- The PDU column holds text, or nothing. -/
def PduText (r : FileRow) : Prop :=
  r.cells (.hub .rawPdu) = none ∨ ∃ s, r.cells (.hub .rawPdu) = some (.text s)

@[simp] theorem marked_id (r : FileRow) : (FileRow.marked r).id = r.id := rfl

@[simp] theorem reclassified_id (r : FileRow) : (reclassified r).id = r.id := by
  unfold reclassified
  split <;> rfl

/-- Writing the same cells twice is writing them once. -/
theorem assign_assign (as : Assignments Column Server.Cell) (cells : Column → Option Server.Cell) :
    assign as (assign as cells) = assign as cells := by
  funext c
  cases h : as.lookup c with
  | none => simp only [assign, h]
  | some v => simp only [assign, h]

theorem marked_marked (r : FileRow) : (FileRow.marked r).marked = FileRow.marked r :=
  congrArg (Row.mk r.id) (assign_assign _ r.cells)

/-- Unclassified above an id: above it, and unclassified. -/
theorem unclassified_eq (i : Nat) (r : FileRow) :
    unclassified i r = (decide (i < r.id) && unclassified 0 r) := by
  by_cases h : i < r.id
  · have h0 : 0 < r.id := by omega
    simp [unclassified, h, h0]
  · simp [unclassified, h]

/-! ## A batch -/

section Batch

variable {rows : List FileRow} {n : Nat}

/-- What of a list in order lies behind the last row of a batch is not in it, the rest is. -/
theorem mem_take_iff (hsorted : rows.Pairwise fun a b => a.id < b.id) {last : FileRow}
    (hlast : (rows.take n).getLast? = some last) {r : FileRow} :
    r ∈ rows.take n ↔ r ∈ rows ∧ r.id ≤ last.id := by
  have hmem : last ∈ rows.take n := List.mem_of_getLast? hlast
  have hsplit : rows = rows.take n ++ rows.drop n := (List.take_append_drop n rows).symm
  have hpair := hsorted
  rw [hsplit, List.pairwise_append] at hpair
  obtain ⟨htake, -, hcross⟩ := hpair
  constructor
  · intro hr
    refine ⟨List.mem_of_mem_take hr, ?_⟩
    obtain ⟨init, hinit⟩ : ∃ init, rows.take n = init ++ [last] := by
      have hne : rows.take n ≠ [] := List.ne_nil_of_mem hmem
      refine ⟨(rows.take n).dropLast, ?_⟩
      have hget : (rows.take n).getLast hne = last := by
        rw [List.getLast?_eq_some_getLast hne] at hlast
        exact Option.some.inj hlast
      rw [← hget, List.dropLast_append_getLast]
    rw [hinit] at hr htake
    rcases List.mem_append.mp hr with h | h
    · have hlt := (List.pairwise_append.mp htake).2.2 r h last (List.mem_singleton_self _)
      omega
    · rw [List.mem_singleton.mp h]
  · rintro ⟨hr, hle⟩
    rw [hsplit] at hr
    rcases List.mem_append.mp hr with h | h
    · exact h
    · have hlt := hcross last hmem r h
      omega

end Batch

/-- With readable PDUs the batch names its data messages. -/
theorem malformed_ok {rows : List FileRow}
    (h : ∀ r ∈ rows, ∃ s, r.cells (.hub .rawPdu) = some (.text s)) :
    malformed rows = .ok ((rows.filter isData).map Row.id) := by
  induction rows with
  | nil => rfl
  | cons r rs ih =>
    obtain ⟨s, hs⟩ := h r List.mem_cons_self
    have hdata : isData r = Server.pduIsData s := by rw [isData, hs]
    rw [malformed, hs, ih fun r' hr' => h r' (List.mem_cons_of_mem _ hr'), List.filter_cons, hdata]
    show Except.ok _ = _
    by_cases hp : Server.pduIsData s = true
    · rw [if_pos hp, if_pos hp]; rfl
    · rw [if_neg hp, if_neg hp]

/-- The updates of a batch, one after the other, mark the rows it names. -/
theorem markAll_ok (ids : List Nat) (hd : f.tables (.hub .messages) = some d)
    (hcol : Column.hub .isBinary ∈ d.columns) :
    (ids.forM fun i => run (update (.hub .messages) [.hub .isBinary] (fun r => r.id == i) fun _ =>
      [(.hub .isBinary, Server.integer 1)])).plain f =
    .ok (⟨⟩, f.setTable (.hub .messages) (some { d with
      rows := d.rows.map fun r => if r.id ∈ ids then r.marked else r })) := by
  induction ids generalizing f d with
  | nil =>
    have hrows : (d.rows.map fun r => if r.id ∈ ([] : List Nat) then r.marked else r) = d.rows := by
      simp
    rw [hrows, setTable_eq_self hd]
    rfl
  | cons i ids ih =>
    have hone : (run (update (.hub .messages) [.hub .isBinary] (fun r => r.id == i) fun _ =>
        [(.hub .isBinary, Server.integer 1)])).plain f =
        .ok ((), f.setTable (.hub .messages) (some { d with
          rows := d.rows.map fun r => if r.id == i then r.marked else r })) := by
      rw [run, Program.plain_statement]
      exact onTable_ok hd (fun c hc => by rw [List.mem_singleton.mp hc]; exact hcol) rfl
    show (run (update (.hub .messages) [.hub .isBinary] (fun r => r.id == i) fun _ =>
      [(.hub .isBinary, Server.integer 1)]) >>= fun _ => ids.forM _).plain f = _
    rw [Program.plain_bind_ok hone, ih (d := { d with
      rows := d.rows.map fun r => if r.id == i then r.marked else r }) (setTable_self _) hcol,
      setTable_setTable]
    congr 5
    rw [List.map_map]
    refine List.map_congr_left fun r _ => ?_
    have hid : (if r.id == i then FileRow.marked r else r).id = r.id := by split <;> rfl
    rw [Function.comp_apply, hid]
    by_cases hi : r.id = i
    · rw [if_pos (beq_iff_eq.mpr hi), if_pos (List.mem_cons.mpr (.inl hi)), marked_marked, ite_self]
    · have hmem : r.id ∈ i :: ids ↔ r.id ∈ ids := by rw [List.mem_cons]; exact or_iff_right hi
      have hne : (r.id == i) = false := by simpa using hi
      simp only [hne, Bool.false_eq_true, if_false]
      exact if_congr hmem.symm rfl rfl

/-! ## The loop -/

/-- The rows when the loop has got to an id. -/
def upTo (i : Nat) (r : FileRow) : FileRow := if r.id ≤ i then reclassified r else r

@[simp] theorem upTo_id (i : Nat) (r : FileRow) : (upTo i r).id = r.id := by
  unfold upTo
  split
  · exact reclassified_id r
  · rfl

/-- Below the id every row is done, above it none is touched. -/
theorem filter_upTo (i : Nat) (rows : List FileRow) :
    (rows.map (upTo i)).filter (unclassified i) = rows.filter (unclassified i) := by
  induction rows with
  | nil => rfl
  | cons r rs ih =>
    rw [List.map_cons, List.filter_cons, List.filter_cons, ih]
    by_cases hle : r.id ≤ i
    · have h₁ : unclassified i (upTo i r) = false := by simp [unclassified]; omega
      have h₂ : unclassified i r = false := by simp [unclassified]; omega
      rw [h₁, h₂]
      rfl
    · rw [show upTo i r = r from if_neg hle]

/-- Messages as the loop finds them. -/
structure Readable (d : TableData) : Prop where
  columns : ∀ c ∈ [Column.hub .direction, .hub .isBinary, .hub .rawPdu], c ∈ d.columns
  sorted  : d.rows.Pairwise fun a b => a.id < b.id
  pdus    : ∀ r ∈ d.rows, PduText r

variable (hr : Readable d)

include hr in
/-- **One turn** from an id: there is nothing left, or the loop gets to a later one. -/
theorem reclassifyBatch_ok {i : Nat} {rows : List FileRow} (hrows : rows = d.rows.map (upTo i))
    (hf : f.tables (.hub .messages) = some { d with rows := rows }) :
    (d.rows.filter (unclassified i) = [] ∧ (reclassifyBatch i).plain f = .ok (none, f)) ∨
    ∃ last ∈ d.rows.filter (unclassified i), (reclassifyBatch i).plain f = .ok (some last.id,
      f.setTable (.hub .messages) (some { d with rows := d.rows.map (upTo last.id) })) := by
  subst hrows
  have hselect : (run (select (.hub .messages) [.hub .direction, .hub .isBinary, .hub .rawPdu]
      (unclassified i))).plain f = .ok (d.rows.filter (unclassified i), f) := by
    rw [run, Program.plain_statement, select, onTable_read hf hr.columns, filter_upTo]
  rw [reclassifyBatch, Program.plain_bind_ok hselect]
  have hsorted : (d.rows.filter (unclassified i)).Pairwise fun a b => a.id < b.id :=
    hr.sorted.sublist List.filter_sublist
  have hfound : ∀ r ∈ d.rows.filter (unclassified i), r ∈ d.rows ∧ unclassified i r = true :=
    fun r hr => List.mem_filter.mp hr
  cases hlast : ((d.rows.filter (unclassified i)).take DATA_BATCH).getLast? with
  | none =>
    left
    rw [List.getLast?_eq_none_iff, List.take_eq_nil_iff] at hlast
    rcases hlast with h | h
    · exact absurd h (by decide)
    · exact ⟨h, rfl⟩
  | some last =>
    right
    have hmem := List.mem_of_getLast? hlast
    have hlast' := List.mem_of_mem_take hmem
    refine ⟨last, hlast', ?_⟩
    dsimp only
    generalize hbatch : (d.rows.filter (unclassified i)).take DATA_BATCH = batch at hmem hlast
    have hin : ∀ r, r ∈ batch ↔ r ∈ d.rows.filter (unclassified i) ∧ r.id ≤ last.id :=
      fun r => hbatch ▸ mem_take_iff hsorted (hbatch ▸ hlast)
    have hpdus : ∀ r ∈ batch, ∃ s, r.cells (.hub .rawPdu) = some (.text s) := by
      intro r hmem'
      obtain ⟨hrow, hun⟩ := hfound r ((hin r).mp hmem').1
      rcases hr.pdus r hrow with h | h
      · simp [unclassified, h] at hun
      · exact h
    have hids : (run fun f => (malformed batch).map fun ids => (ids, f)).plain f =
        .ok ((batch.filter isData).map Row.id, f) := by
      rw [run, Program.plain_statement, malformed_ok hpdus]
      rfl
    rw [Program.plain_bind_ok hids, Program.plain_bind_ok (markAll_ok _ hf
      (hr.columns _ (List.mem_cons_of_mem _ List.mem_cons_self)))]
    show Except.ok _ = _
    congr 5
    rw [List.map_map]
    refine List.map_congr_left fun r hrow => ?_
    show (if (upTo i r).id ∈ (batch.filter isData).map Row.id then FileRow.marked (upTo i r)
      else upTo i r) = upTo last.id r
    have hilt : i < last.id := by
      have := (hfound last hlast').2
      simp only [unclassified, Bool.and_eq_true, decide_eq_true_eq] at this
      omega
    have hnamed : r.id ∈ (batch.filter isData).map Row.id ↔
        r.id ≤ last.id ∧ unclassified i r = true ∧ isData r = true := by
      rw [List.mem_map]
      constructor
      · rintro ⟨r', hr', hid⟩
        obtain ⟨hb, hdata⟩ := List.mem_filter.mp hr'
        obtain ⟨hf', hle⟩ := (hin r').mp hb
        obtain rfl : r' = r := List.inj_on_of_nodup_map
          (List.pairwise_map.mpr (hr.sorted.imp fun h => Nat.ne_of_lt h)) (hfound r' hf').1 hrow hid
        exact ⟨hle, (hfound r' hf').2, hdata⟩
      · rintro ⟨hle, hun, hdata⟩
        exact ⟨r, List.mem_filter.mpr ⟨(hin r).mpr ⟨List.mem_filter.mpr ⟨hrow, hun⟩, hle⟩, hdata⟩, rfl⟩
    rw [unclassified_eq, Bool.and_eq_true, decide_eq_true_eq] at hnamed
    rw [upTo_id]
    by_cases hdone : r.id ≤ i
    · rw [if_neg fun h => by have := (hnamed.mp h).2.1.1; omega, upTo, upTo, if_pos hdone,
        if_pos (by omega)]
    · rw [show upTo i r = r from if_neg hdone, upTo, reclassified]
      by_cases hle : r.id ≤ last.id
      · rw [if_pos hle]
        by_cases hboth : (unclassified 0 r && isData r) = true
        · rw [if_pos hboth]
          rw [Bool.and_eq_true] at hboth
          exact if_pos (hnamed.mpr ⟨hle, ⟨by omega, hboth.1⟩, hboth.2⟩)
        · rw [if_neg hboth]
          refine if_neg fun h => hboth ?_
          obtain ⟨_, ⟨_, hun⟩, hdata⟩ := hnamed.mp h
          rw [hun, hdata]
          rfl
      · rw [if_neg hle]
        exact if_neg fun h => hle (hnamed.mp h).1

/-- Above the last unclassified message there is nothing to do. -/
theorem map_upTo_of_nil {i : Nat} {rows : List FileRow}
    (h : rows.filter (unclassified i) = []) : rows.map (upTo i) = rows.map reclassified := by
  refine List.map_congr_left fun r hrow => ?_
  rw [upTo]
  by_cases hle : r.id ≤ i
  · rw [if_pos hle]
  · rw [if_neg hle, reclassified]
    have hun := List.filter_eq_nil_iff.mp h r hrow
    rw [unclassified_eq, Bool.and_eq_true, decide_eq_true_eq] at hun
    refine (if_neg fun hboth => hun ⟨by omega, ?_⟩).symm
    exact (Bool.and_eq_true _ _ ▸ hboth).1

/-- Fewer messages are left behind a later id. -/
theorem length_filter_lt {i : Nat} {rows : List FileRow} {last : FileRow}
    (h : last ∈ rows.filter (unclassified i)) :
    (rows.filter (unclassified last.id)).length < (rows.filter (unclassified i)).length := by
  have hmem := (List.mem_filter.mp h).2
  rw [unclassified_eq, Bool.and_eq_true, decide_eq_true_eq] at hmem
  have heq : rows.filter (unclassified last.id) =
      (rows.filter (unclassified i)).filter fun r => decide (last.id < r.id) := by
    rw [List.filter_filter]
    refine List.filter_congr fun r _ => ?_
    rw [unclassified_eq last.id, unclassified_eq i]
    by_cases hlt : last.id < r.id
    · have hi : i < r.id := by omega
      simp [hlt, hi]
    · simp [hlt]
  rw [heq]
  exact List.length_filter_lt_length_iff_exists.mpr ⟨last, h, by simp⟩

include hr in
/-- The loop from an id, with turns enough for what is left. -/
theorem reclassify_ok {k i : Nat} (hk : (d.rows.filter (unclassified i)).length < k)
    (hf : f.tables (.hub .messages) = some { d with rows := d.rows.map (upTo i) }) :
    (reclassify k i).plain f = .ok (⟨⟩, f.setTable (.hub .messages)
      (some { d with rows := d.rows.map reclassified })) := by
  induction k generalizing f i with
  | zero => omega
  | succ k ih =>
    rw [reclassify]
    rcases reclassifyBatch_ok hr rfl hf with ⟨hnil, hplain⟩ | ⟨last, hlast, hplain⟩
    · rw [Program.plain_bind_ok hplain, ← map_upTo_of_nil hnil, setTable_eq_self hf]
      rfl
    · rw [Program.plain_bind_ok hplain]
      have hless := length_filter_lt hlast
      dsimp only
      rw [ih (by omega) (setTable_self _), setTable_setTable]

/-- **`_migration_data_messages`** marks every stored data message, and that is all it does. -/
theorem migrationDataMessages_ok (hf : f.tables (.hub .messages) = some d) (hr : Readable d) :
    migrationDataMessages.plain f = .ok (⟨⟩, f.setTable (.hub .messages)
      (some { d with rows := d.rows.map reclassified })) := by
  have hcount : (run (onTable (.hub .messages) [] fun d => .ok (d.rows.length, d))).plain f =
      .ok (d.rows.length, f) := by
    rw [run, Program.plain_statement]
    exact onTable_read hf (List.forall_mem_nil _)
  have hstart : d.rows.map (upTo 0) = d.rows := by
    refine (List.map_congr_left fun r _ => ?_).trans (List.map_id _)
    rw [upTo]
    by_cases h0 : r.id ≤ 0
    · rw [if_pos h0, reclassified, show unclassified 0 r = false by simp [unclassified]; omega]
      rfl
    · rw [if_neg h0]
      rfl
  rw [migrationDataMessages, Program.plain_bind_ok hcount]
  refine reclassify_ok hr (Nat.lt_succ_of_le (List.length_filter_le _ _)) ?_
  rw [hstart]
  exact hf

end Air780eHub.Migrations
