/-
  The rows of a table that refer to one row of another.

  `db.children S t c i` are the rows of `t` whose column `c` names the row `i`.  A statement leaves
  them alone as long as it writes no row that names `i`, before or after, and a deletion takes them
  out only together with the row `i` itself.

  1. **Statements** on the table of the children.
  2. **Deletions** in other tables.
-/
import Air780eHub.Lib.Cascade
import Air780eHub.Lib.Keyed

namespace Air780eHub.Relational

variable {τ κ ν : Type} [DecidableEq ν] {S : Schema τ κ ν} {db db' : Db τ κ ν} {t t' : τ} {c : κ}
  {i : Nat}

/-- The rows that name a row. -/
def Db.children (S : Schema τ κ ν) (db : Db τ κ ν) (t : τ) (c : κ) (i : Nat) : List (Row κ ν) :=
  (db.rows t).filter fun r => r.cells c == some (S.ref i)

theorem mem_children {r : Row κ ν} :
    r ∈ db.children S t c i ↔ r ∈ db.rows t ∧ r.cells c = some (S.ref i) := by
  rw [Db.children, List.mem_filter, beq_iff_eq]

theorem children_of_rows (h : db'.rows t = db.rows t) :
    db'.children S t c i = db.children S t c i := by
  unfold Db.children
  rw [h]

/-! ## Statements -/

section Statements

variable [DecidableEq τ] [DecidableEq κ] {cells : κ → Option ν} {p : Row κ ν → Bool}
  {set : Row κ ν → Assignments κ ν}

omit [DecidableEq ν] [DecidableEq κ] in
theorem seq_append_ne (h : t' ≠ t) : (db.append t cells).seq t' = db.seq t' := if_neg h

omit [DecidableEq ν] [DecidableEq κ] in
theorem seq_append_self : (db.append t cells).seq t = db.seq t + 1 := if_pos rfl

/-- A new row that names another. -/
theorem children_append (h : cells c ≠ some (S.ref i)) :
    (db.append t cells).children S t c i = db.children S t c i := by
  unfold Db.children
  rw [rows_append_self, List.filter_append, List.filter_singleton,
    show (cells c == some (S.ref i)) = false from beq_false_of_ne h]
  exact List.append_nil _

/-- A new child. -/
theorem children_append_self (h : cells c = some (S.ref i)) :
    (db.append t cells).children S t c i = db.children S t c i ++ [⟨db.seq t + 1, cells⟩] := by
  unfold Db.children
  rw [rows_append_self, List.filter_append, List.filter_singleton,
    show (cells c == some (S.ref i)) = true from beq_iff_eq.mpr h]
  rfl

/-- Rows are written that name others, before and after. -/
theorem children_updated (h : ∀ r ∈ db.rows t, p r = true →
      r.cells c ≠ some (S.ref i) ∧ assign (set r) r.cells c ≠ some (S.ref i)) :
    (db.updated t p set).children S t c i = db.children S t c i := by
  unfold Db.children
  rw [rows_updated_self, List.filter_map]
  have hsame : (db.rows t).filter ((fun r => r.cells c == some (S.ref i)) ∘ written p set) =
      (db.rows t).filter fun r => r.cells c == some (S.ref i) := by
    refine List.filter_congr fun r hr => ?_
    show ((written p set r).cells c == some (S.ref i)) = _
    by_cases hp : p r = true
    · obtain ⟨hbefore, hafter⟩ := h r hr hp
      rw [written, if_pos hp, beq_false_of_ne hbefore]
      exact beq_false_of_ne hafter
    · rw [written, if_neg hp]
  rw [hsame]
  refine (List.map_congr_left fun r hr => ?_).trans (List.map_id _)
  obtain ⟨hmem, hnames⟩ := List.mem_filter.mp hr
  refine if_neg fun hp => ?_
  exact (h r hmem hp).1 (beq_iff_eq.mp hnames)

/-- Rows are written, but not the column: the children are the rows they were, as written. -/
theorem children_written (h : ∀ r, ∀ x ∈ set r, x.1 ≠ c) :
    (db.updated t p set).children S t c i = (db.children S t c i).map (written p set) := by
  unfold Db.children
  rw [rows_updated_self, List.filter_map]
  congr 2
  funext r
  show ((written p set r).cells c == some (S.ref i)) = _
  rw [written_cell (h r)]

/-- A row that named another becomes a child. -/
theorem children_adopted (h : Consistent S db) {row : Row κ ν} (hr : row ∈ db.rows t)
    (hbefore : row.cells c ≠ some (S.ref i))
    (hafter : assign (set row) row.cells c = some (S.ref i)) :
    ((db.updated t (fun r => r.id == row.id) set).children S t c i).length =
      (db.children S t c i).length + 1 := by
  obtain ⟨front, rest, hrows⟩ := List.append_of_mem hr
  have hnodup : ((db.rows t).map Row.id).Nodup := (h.ordered t).imp fun hlt => Nat.ne_of_lt hlt
  rw [hrows, List.map_append, List.map_cons, List.nodup_middle, ← List.map_append,
    List.nodup_cons] at hnodup
  -- the others have other ids, and are not written
  have hothers : ∀ r ∈ front ++ rest, written (fun r => r.id == row.id) set r = r := by
    intro r hmem
    refine if_neg fun he => hnodup.1 ?_
    rw [← beq_iff_eq.mp he]
    exact List.mem_map_of_mem hmem
  have hfront : front.map (written (fun r => r.id == row.id) set) = front :=
    (List.map_congr_left fun r hm => hothers r (List.mem_append_left _ hm)).trans (List.map_id _)
  have hrest : rest.map (written (fun r => r.id == row.id) set) = rest :=
    (List.map_congr_left fun r hm => hothers r (List.mem_append_right _ hm)).trans (List.map_id _)
  have hself : written (fun r => r.id == row.id) set row = ⟨row.id, assign (set row) row.cells⟩ :=
    if_pos (beq_self_eq_true row.id)
  have hnew : List.filter (fun r : Row κ ν => r.cells c == some (S.ref i))
      (⟨row.id, assign (set row) row.cells⟩ :: rest) =
      ⟨row.id, assign (set row) row.cells⟩ :: rest.filter fun r => r.cells c == some (S.ref i) :=
    List.filter_cons_of_pos (beq_iff_eq.mpr hafter)
  have hold : List.filter (fun r : Row κ ν => r.cells c == some (S.ref i)) (row :: rest) =
      rest.filter fun r => r.cells c == some (S.ref i) :=
    List.filter_cons_of_neg fun he => hbefore (beq_iff_eq.mp he)
  unfold Db.children
  rw [rows_updated_self, hrows, List.map_append, List.map_cons, hfront, hrest, hself,
    List.filter_append, List.filter_append, hnew, hold, List.length_append, List.length_append,
    List.length_cons]
  omega

end Statements

/-! ## Deletions -/

/-- A row that is not there has no children. -/
theorem children_new (h : Consistent S db) {parent : τ} {d : OnDelete}
    (hfk : ⟨c, parent, d⟩ ∈ S.foreign t) (href : Function.Injective S.ref) (hi : i ∉ db.ids parent) :
    db.children S t c i = [] := by
  refine List.filter_eq_nil_iff.mpr fun r hr hnames => ?_
  obtain ⟨j, hj, he⟩ := (h.table t).refers r hr _ hfk _ (beq_iff_eq.mp hnames)
  exact hi (href he ▸ hj)

section Deletions

variable [DecidableEq τ] {p : Row κ ν → Bool}

/-- What is doomed in another table follows what is doomed. -/
theorem doomed_cases (hne : t' ≠ t) (hd : doomed S db t p t' i = true) :
    ∃ r ∈ db.rows t', r.id = i ∧ S.follows db (doomed S db t p) t' r = true := by
  have hgrows : ∀ n t' i, ((S.spread db)^[n] (matching db t p)) t' i = true →
      ∀ k, ((S.spread db)^[n + k] (matching db t p)) t' i = true := by
    intro n t' i h k
    induction k with
    | zero => exact h
    | succ k ih =>
      rw [← Nat.add_assoc, Function.iterate_succ_apply']
      exact Bool.or_eq_true_iff.mpr (.inl ih)
  -- the round in which the row was reached
  have hreached : ∀ n, n ≤ S.tables.length → ((S.spread db)^[n] (matching db t p)) t' i = true →
      ∃ r ∈ db.rows t', r.id = i ∧ S.follows db (doomed S db t p) t' r = true := by
    intro n
    induction n with
    | zero =>
      intro _ h
      have hm : (decide (t' = t) && _) = true := h
      rw [decide_eq_false hne, Bool.false_and] at hm
      cases hm
    | succ n ih =>
      intro hn h
      rw [Function.iterate_succ_apply'] at h
      rcases Bool.or_eq_true_iff.mp h with h | h
      · exact ih (by omega) h
      · obtain ⟨r, hr, hrow⟩ := List.any_eq_true.mp h
        obtain ⟨hid, hfollows⟩ := Bool.and_eq_true_iff.mp hrow
        refine ⟨r, hr, beq_iff_eq.mp hid, ?_⟩
        obtain ⟨fk, hfk, hcond⟩ := List.any_eq_true.mp hfollows
        obtain ⟨hcascade, hparent⟩ := Bool.and_eq_true_iff.mp hcond
        obtain ⟨j, hj, hboth⟩ := List.any_eq_true.mp hparent
        obtain ⟨hdoomed, hnames⟩ := Bool.and_eq_true_iff.mp hboth
        refine List.any_eq_true.mpr ⟨fk, hfk, Bool.and_eq_true_iff.mpr ⟨hcascade, ?_⟩⟩
        refine List.any_eq_true.mpr ⟨j, hj, Bool.and_eq_true_iff.mpr ⟨?_, hnames⟩⟩
        have hlater := hgrows n fk.parent j hdoomed (S.tables.length - n)
        rwa [Nat.add_sub_cancel' (by omega)] at hlater
  exact hreached S.tables.length (Nat.le_refl _) hd

/-- **The children of a row that is kept are kept**, when a deletion in another table takes the
    children of a row along. -/
theorem children_remaining [DecidableEq κ] (h : Consistent S db) {parent : τ}
    (hfk : S.foreign t' = [⟨c, parent, .cascade⟩]) (href : Function.Injective S.ref) (hne : t' ≠ t)
    (hkept : doomed S db t p parent i = false) :
    (S.remaining t p db).children S t' c i = db.children S t' c i := by
  have hreleased : ∀ r : Row κ ν, S.released db (doomed S db t p) t' r = r.cells := by
    intro r
    funext c'
    refine if_neg fun hnull => ?_
    rw [hfk, List.any_cons, List.any_nil] at hnull
    simp at hnull
  have hcells : ∀ r : Row κ ν, (⟨r.id, S.released db (doomed S db t p) t' r⟩ : Row κ ν) = r :=
    fun r => by rw [hreleased]
  show List.filter _ (((db.rows t').filter fun r => !doomed S db t p t' r.id).map
    fun r => (⟨r.id, S.released db (doomed S db t p) t' r⟩ : Row κ ν)) = _
  simp only [hcells, List.map_id', List.filter_filter]
  refine List.filter_congr fun r hr => ?_
  by_cases hnames : r.cells c = some (S.ref i)
  · rw [beq_iff_eq.mpr hnames, Bool.true_and, Bool.not_eq_true', Bool.eq_false_iff]
    intro hd
    obtain ⟨r', hr', hid, hfollows⟩ := doomed_cases hne hd
    rw [h.row_eq hr' hr hid, Schema.follows, hfk, List.any_cons, List.any_nil, Bool.or_false] at hfollows
    obtain ⟨j, -, hboth⟩ := List.any_eq_true.mp (Bool.and_eq_true_iff.mp hfollows).2
    obtain ⟨hdoomed, hj⟩ := Bool.and_eq_true_iff.mp hboth
    have hji : S.ref j = S.ref i := Option.some.inj ((beq_iff_eq.mp hj).symm.trans hnames)
    rw [href hji, hkept] at hdoomed
    cases hdoomed
  · rw [beq_false_of_ne hnames, Bool.false_and]

end Deletions

end Air780eHub.Relational
