/-
  Deletes along ranked foreign keys.

  `Ranked S rank` : a foreign key points to a table of a smaller rank.  A cascade then goes up the
  ranks, so it reaches no table below the one it starts in and is over after as many rounds as there
  are ranks.

  1. **The cascade**: `doomed`, what a delete takes along; `doomed_self`, `doomed_below`, and
     `doomed_closed`: a row that follows a doomed row is doomed.
  2. **`delete_eq`**: a delete from a consistent database goes through.
  3. **What is left** of the table itself and of the tables below it.
-/
import Air780eHub.Lib.Constraints

namespace Air780eHub.Relational

variable {τ κ ν : Type} [DecidableEq ν] {S : Schema τ κ ν} {rank : τ → Nat} {db : Db τ κ ν}
  {t t' : τ} {p : Row κ ν → Bool}

/-- The foreign keys go down the ranks, and those that are set to NULL may be NULL. -/
structure Ranked (S : Schema τ κ ν) (rank : τ → Nat) : Prop where
  parent    : ∀ t, ∀ fk ∈ S.foreign t, rank fk.parent < rank t
  bound     : ∀ t, rank t ≤ S.tables.length
  nullable  : ∀ t, ∀ fk ∈ S.foreign t, fk.onDelete = .setNull → fk.column ∉ S.notNull t
  unchecked : ∀ t, S.foreign t ≠ [] → ∀ cells, S.check t cells = true

/-! ## The cascade -/

theorem follows_congr {D D' : τ → Nat → Bool} (h : ∀ fk ∈ S.foreign t, D fk.parent = D' fk.parent)
    (r : Row κ ν) : S.follows db D t r = S.follows db D' t r := by
  rw [Bool.eq_iff_iff, Schema.follows, Schema.follows, List.any_eq_true, List.any_eq_true]
  refine exists_congr fun fk => and_congr_right fun hfk => ?_
  rw [h fk hfk]

/-- A table whose parents lose nothing loses what it has lost already. -/
theorem spread_of_parents {D : τ → Nat → Bool}
    (h : ∀ fk ∈ S.foreign t, D fk.parent = fun _ => false) : S.spread db D t = D t := by
  funext i
  have hf : ∀ r : Row κ ν, S.follows db D t r = false := by
    intro r
    have hnone : S.follows db (fun _ _ => false) t r = false := by simp [Schema.follows]
    rw [← hnone]
    exact follows_congr h r
  simp [Schema.spread, hf]

/-- A cascade is over in a table after as many rounds as the table's rank. -/
theorem spread_stable (hS : Ranked S rank) (db : Db τ κ ν) (D : τ → Nat → Bool) (n : Nat) :
    ∀ t, rank t ≤ n → ((S.spread db)^[n + 1] D) t = ((S.spread db)^[n] D) t := by
  induction n with
  | zero =>
    intro t ht
    -- a table of rank 0 has no foreign keys
    exact spread_of_parents fun fk hfk => absurd (hS.parent t fk hfk) (by omega)
  | succ n ih =>
    intro t ht
    funext i
    have hf : ∀ r : Row κ ν, S.follows db ((S.spread db)^[n + 1] D) t r =
        S.follows db ((S.spread db)^[n] D) t r := by
      intro r
      refine follows_congr (fun fk hfk => ih fk.parent ?_) r
      have hlt := hS.parent t fk hfk
      omega
    rw [Function.iterate_succ_apply']
    show (((S.spread db)^[n + 1] D) t i || (db.rows t).any fun r =>
      r.id == i && S.follows db ((S.spread db)^[n + 1] D) t r) = _
    simp only [hf]
    rw [Function.iterate_succ_apply']
    show ((_ || _) || _) = (_ || _)
    rw [Bool.or_assoc, Bool.or_self]

variable [DecidableEq τ]

/-- The rows of `t` that match. -/
def matching (db : Db τ κ ν) (t : τ) (p : Row κ ν → Bool) : τ → Nat → Bool := fun t' i =>
  decide (t' = t) && (db.rows t).any fun r => r.id == i && p r

/-- The rows `DELETE FROM t WHERE p` deletes. -/
def doomed (S : Schema τ κ ν) (db : Db τ κ ν) (t : τ) (p : Row κ ν → Bool) : τ → Nat → Bool :=
  (S.spread db)^[S.tables.length] (matching db t p)

/-- **A row that follows a doomed row is doomed.** -/
theorem doomed_closed (hS : Ranked S rank) {r : Row κ ν} (hr : r ∈ db.rows t')
    (hf : S.follows db (doomed S db t p) t' r = true) : doomed S db t p t' r.id = true := by
  have hstep : S.spread db (doomed S db t p) t' r.id = true := by
    unfold Schema.spread
    rw [Bool.or_eq_true]
    refine .inr (List.any_eq_true.mpr ⟨r, hr, ?_⟩)
    rw [hf, beq_self_eq_true, Bool.and_self]
  have hstable : S.spread db (doomed S db t p) t' = doomed S db t p t' := by
    have hiter := spread_stable hS db (matching db t p) S.tables.length t' (hS.bound t')
    rwa [Function.iterate_succ_apply'] at hiter
  rw [← hstable]
  exact hstep

/-- The cascade leaves the tables of the same or a smaller rank alone. -/
theorem iterate_below (hS : Ranked S rank) (n : Nat) :
    ∀ t', rank t' ≤ rank t → ((S.spread db)^[n] (matching db t p)) t' = matching db t p t' := by
  induction n with
  | zero => exact fun _ _ => rfl
  | succ n ih =>
    intro t' ht
    rw [Function.iterate_succ_apply', spread_of_parents, ih t' ht]
    intro fk hfk
    have hlt := hS.parent t' fk hfk
    rw [ih fk.parent (by omega)]
    funext i
    have hne : fk.parent ≠ t := fun he => by rw [he] at hlt; omega
    rw [matching, decide_eq_false hne, Bool.false_and]

theorem doomed_self (hS : Ranked S rank) : doomed S db t p t = matching db t p t :=
  iterate_below hS _ t (Nat.le_refl _)

theorem doomed_below (hS : Ranked S rank) (hr : rank t' ≤ rank t) (hne : t' ≠ t) :
    doomed S db t p t' = fun _ => false := by
  rw [doomed, iterate_below hS _ t' hr]
  funext i
  rw [matching, decide_eq_false hne, Bool.false_and]

/-! ## A delete goes through -/

variable [DecidableEq κ]

/-- A foreign key that is kept names a row that is kept. -/
theorem refers_remaining (h : Consistent S db) (hS : Ranked S rank) {r : Row κ ν}
    (hr : r ∈ db.rows t') (hkept : doomed S db t p t' r.id = false) :
    Refers S (S.remaining t p db) t' (S.released db (doomed S db t p) t' r) := by
  intro fk hfk v hv
  have hcell : r.cells fk.column = some v := by
    rcases released_eq S db (doomed S db t p) t' r fk.column with hn | hc
    · rw [hn] at hv; cases hv
    · rw [← hc, hv]
  obtain ⟨i, hi, hv'⟩ := (h.table t').refers r hr fk hfk v hcell
  have hparent : doomed S db t p fk.parent i = false := by
    rw [Bool.eq_false_iff]
    intro hd
    have hnames : ((db.ids fk.parent).any fun i => doomed S db t p fk.parent i &&
        r.cells fk.column == some (S.ref i)) = true := by
      refine List.any_eq_true.mpr ⟨i, hi, ?_⟩
      rw [hd, hcell, hv', Bool.true_and, beq_self_eq_true]
    cases hod : fk.onDelete with
    | cascade =>
      have hf : S.follows db (doomed S db t p) t' r = true := by
        refine List.any_eq_true.mpr ⟨fk, hfk, ?_⟩
        rw [hnames, Bool.and_true, decide_eq_true hod]
      rw [doomed_closed hS hr hf] at hkept
      cases hkept
    | setNull =>
      have hnull : S.released db (doomed S db t p) t' r fk.column = none := by
        refine if_pos (List.any_eq_true.mpr ⟨fk, hfk, ?_⟩)
        rw [hnames, Bool.and_true, decide_eq_true rfl, decide_eq_true hod, Bool.and_self]
      rw [hnull] at hv
      cases hv
  obtain ⟨r', hr', rfl⟩ := List.mem_map.mp hi
  refine ⟨r'.id, List.mem_map.mpr ⟨⟨r'.id, S.released db (doomed S db t p) fk.parent r'⟩, ?_, rfl⟩,
    hv'⟩
  refine List.mem_map.mpr ⟨r', List.mem_filter.mpr ⟨hr', ?_⟩, rfl⟩
  show (!doomed S db t p fk.parent r'.id) = true
  rw [hparent]
  rfl

omit [DecidableEq τ] in
theorem rowOk_released (h : Consistent S db) (hS : Ranked S rank) {r : Row κ ν}
    (hr : r ∈ db.rows t') (D : τ → Nat → Bool) : RowOk S t' (S.released db D t' r) := by
  have hok := (h.table t').rowOk r hr
  refine ⟨fun c hc => ?_, ?_⟩
  · unfold Schema.released
    split
    · rename_i hnull
      obtain ⟨fk, hfk, hcond⟩ := List.any_eq_true.mp hnull
      simp only [Bool.and_eq_true, decide_eq_true_eq] at hcond
      exact absurd (hcond.1.1 ▸ hc) (hS.nullable t' fk hfk hcond.1.2)
    · exact hok.notNull c hc
  · by_cases hfk : S.foreign t' = []
    · have hsame : S.released db D t' r = r.cells := by
        funext c
        rw [Schema.released, hfk, List.any_nil]
        exact if_neg Bool.false_ne_true
      rw [hsame]
      exact hok.check
    · exact hS.unchecked t' hfk _

/-- **A delete from a consistent database goes through.** -/
theorem delete_eq (h : Consistent S db) (hS : Ranked S rank) (t : τ) (p : Row κ ν → Bool) :
    S.delete t p db = .ok ((), S.remaining t p db) := by
  have hnone : S.firstViolation (S.remaining t p db) = none := by
    rw [Schema.firstViolation, List.findSome?_eq_none_iff]
    intro t' _
    rw [List.findSome?_eq_none_iff]
    intro r' hr'
    obtain ⟨r, hr, rfl⟩ := List.mem_map.mp hr'
    obtain ⟨hr, hkept⟩ := List.mem_filter.mp hr
    rw [Bool.not_eq_true'] at hkept
    rw [Option.or_eq_none_iff]
    exact ⟨rowViolation_eq_none.mpr (rowOk_released h hS hr _),
      foreignViolation_eq_none.mpr (refers_remaining h hS hr hkept)⟩
  rw [Schema.delete, hnone]

theorem remaining_consistent (h : Consistent S db) (hS : Ranked S rank) (t : τ)
    (p : Row κ ν → Bool) : Consistent S (S.remaining t p db) :=
  delete_consistent h (delete_eq h hS t p)

/-! ## What is left -/

omit [DecidableEq τ] in
/-- A row whose parents are all kept keeps its cells. -/
theorem released_of_parents {D : τ → Nat → Bool}
    (h : ∀ fk ∈ S.foreign t, D fk.parent = fun _ => false) (r : Row κ ν) :
    S.released db D t r = r.cells := by
  funext c
  refine if_neg fun hnull => ?_
  obtain ⟨fk, hfk, hcond⟩ := List.any_eq_true.mp hnull
  rw [h fk hfk] at hcond
  simp at hcond

omit [DecidableEq κ] in
theorem parents_kept (hS : Ranked S rank) (hr : rank t' ≤ rank t) :
    ∀ fk ∈ S.foreign t', doomed S db t p fk.parent = fun _ => false := by
  intro fk hfk
  have hlt := hS.parent t' fk hfk
  exact doomed_below hS (by omega) fun he => by rw [he] at hlt; omega

/-- **The rows that match go**, and nothing else of their table. -/
theorem remaining_self (h : Consistent S db) (hS : Ranked S rank) :
    (S.remaining t p db).rows t = (db.rows t).filter fun r => !p r := by
  have hcells : ∀ r : Row κ ν, (⟨r.id, S.released db (doomed S db t p) t r⟩ : Row κ ν) = r :=
    fun r => by rw [released_of_parents (parents_kept hS (Nat.le_refl _))]
  show ((db.rows t).filter fun r => !doomed S db t p t r.id).map
    (fun r => (⟨r.id, S.released db (doomed S db t p) t r⟩ : Row κ ν)) = _
  simp only [hcells, List.map_id']
  refine List.filter_congr fun r hr => ?_
  rw [doomed_self hS, matching, decide_eq_true rfl, Bool.true_and]
  congr 1
  rw [Bool.eq_iff_iff, List.any_eq_true]
  constructor
  · rintro ⟨r', hr', hp⟩
    rw [Bool.and_eq_true, beq_iff_eq] at hp
    rw [h.row_eq hr hr' hp.1.symm]
    exact hp.2
  · intro hp
    exact ⟨r, hr, by rw [hp, beq_self_eq_true, Bool.and_self]⟩

/-- **The tables of the same or a smaller rank are left alone.** -/
theorem remaining_below (hS : Ranked S rank) (hr : rank t' ≤ rank t) (hne : t' ≠ t) :
    (S.remaining t p db).rows t' = db.rows t' := by
  have hcells : ∀ r : Row κ ν, (⟨r.id, S.released db (doomed S db t p) t' r⟩ : Row κ ν) = r :=
    fun r => by rw [released_of_parents (parents_kept hS hr)]
  show ((db.rows t').filter fun r => !doomed S db t p t' r.id).map
    (fun r => (⟨r.id, S.released db (doomed S db t p) t' r⟩ : Row κ ν)) = _
  simp only [hcells, doomed_below hS hr hne, Bool.not_false, List.filter_true, List.map_id']

end Air780eHub.Relational
