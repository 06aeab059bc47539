/-
  A table with a unique key, read as a map from keys to rows.

  `db.at t key k` is the row of the table that has the key `k` has.  In a consistent database there
  is at most one, and the statements act on the map: an upsert writes the row of one key, an update
  of other columns writes rows in place, and a deletion takes rows out.

  1. **`Db.at`**.
  2. **Upserts**: `at_upsert_self` and `at_upsert_ne`.
  3. **Updates and deletions** that leave the key alone.
-/
import Air780eHub.Lib.Constraints

namespace Air780eHub.Relational

variable {τ κ ν : Type} [DecidableEq ν] {db db' : Db τ κ ν} {t : τ} {key : List κ}
  {k k' : κ → Option ν}

/-- The row with a key. -/
def Db.at (db : Db τ κ ν) (t : τ) (key : List κ) (k : κ → Option ν) : Option (Row κ ν) :=
  (db.rows t).find? fun r => sameKey key r.cells k

/-- The key is all there. -/
def Keyed (key : List κ) (k : κ → Option ν) : Prop := ∀ c ∈ key, (k c).isSome

theorem sameKey_iff {a b : κ → Option ν} :
    sameKey key a b = true ↔ ∀ c ∈ key, (a c).isSome ∧ a c = b c := by
  simp only [sameKey, List.all_eq_true, Bool.and_eq_true, beq_iff_eq]

theorem sameKey_self {a : κ → Option ν} (h : Keyed key a) : sameKey key a a = true :=
  sameKey_iff.mpr fun c hc => ⟨h c hc, rfl⟩

/-- Rows with one key have the same other keys. -/
theorem sameKey_trans {a : κ → Option ν} (h : sameKey key a k = true)
    (h' : sameKey key a k' = true) : sameKey key k k' = true := by
  rw [sameKey_iff] at h h' ⊢
  intro c hc
  obtain ⟨hs, he⟩ := h c hc
  exact ⟨he ▸ hs, he.symm.trans (h' c hc).2⟩

theorem mem_of_at {r : Row κ ν} (h : db.at t key k = some r) :
    r ∈ db.rows t ∧ sameKey key r.cells k = true :=
  ⟨List.mem_of_find?_eq_some h, List.find?_some (p := fun r : Row κ ν => sameKey key r.cells k) h⟩

/-- Another table. -/
theorem at_of_rows (h : db'.rows t = db.rows t) : db'.at t key k = db.at t key k := by
  unfold Db.at
  rw [h]

section

variable [DecidableEq κ]

theorem at_congr (h : ∀ c ∈ key, k c = k' c) : db.at t key k = db.at t key k' :=
  congrArg (fun p => (db.rows t).find? p)
    (funext fun _ => sameKey_congr (fun _ _ => rfl) h)

end

variable [DecidableEq τ] [DecidableEq κ] {S : Schema τ κ ν}

/-- A row is found by its key. -/
theorem at_of_mem (h : Consistent S db) (hkey : key ∈ S.unique t) {r : Row κ ν} (hr : r ∈ db.rows t)
    (hk : sameKey key r.cells k = true) : db.at t key k = some r := by
  cases hf : db.at t key k with
  | none =>
    have hno := List.find?_eq_none.mp hf r hr
    exact absurd hk hno
  | some r' =>
    obtain ⟨hr', hk'⟩ := mem_of_at hf
    by_cases he : r'.id = r.id
    · rw [h.row_eq hr' hr he]
    · have hfalse := (h.table t).unique_ne hkey hr hr' he
      have htrue : sameKey key r'.cells r.cells = true := by
        rw [sameKey_iff] at hk hk' ⊢
        intro c hc
        exact ⟨(hk' c hc).1, (hk' c hc).2.trans (hk c hc).2.symm⟩
      rw [hfalse] at htrue
      cases htrue

/-! ## Updates and deletions -/

omit [DecidableEq ν] [DecidableEq τ] in
/-- Assignments before that do not write the column. -/
theorem assign_append {as as' : Assignments κ ν} {cells : κ → Option ν} {c : κ}
    (h : ∀ x ∈ as, x.1 ≠ c) : assign (as ++ as') cells c = assign as' cells c := by
  have hnone : as.lookup c = none := List.lookup_eq_none_iff.mpr fun x hx => by
    rw [bne_iff_ne]
    exact (h x hx).symm
  unfold assign
  rw [List.lookup_append, hnone, Option.none_or]

/-- A column that is not written. -/
theorem written_cell {p : Row κ ν → Bool} {set : Row κ ν → Assignments κ ν} {r : Row κ ν} {c : κ}
    (h : ∀ x ∈ set r, x.1 ≠ c) : (written p set r).cells c = r.cells c := by
  unfold written
  split
  · refine assign_of_not_mem fun hm => ?_
    obtain ⟨x, hx, rfl⟩ := List.mem_map.mp hm
    exact h x hx rfl
  · rfl

/-- **An update that leaves the key alone** writes rows in place. -/
theorem at_updated {p : Row κ ν → Bool} {set : Row κ ν → Assignments κ ν}
    (hset : ∀ r, ∀ x ∈ set r, x.1 ∉ key) :
    (db.updated t p set).at t key k = (db.at t key k).map (written p set) := by
  unfold Db.at
  rw [rows_updated_self, List.find?_map]
  congr 2
  funext r
  exact sameKey_congr (fun c hc => written_cell fun x hx he => hset r x hx (he ▸ hc)) fun _ _ => rfl

/-- Rows that are taken out of a table, the others as they were. -/
theorem at_filter (h : Consistent S db) (hkey : key ∈ S.unique t) {p : Row κ ν → Bool}
    (hrows : db'.rows t = (db.rows t).filter p) : db'.at t key k = (db.at t key k).filter p := by
  cases hf : db.at t key k with
  | none =>
    refine List.find?_eq_none.mpr fun r hr => ?_
    rw [hrows] at hr
    exact List.find?_eq_none.mp hf r (List.mem_of_mem_filter hr)
  | some r =>
    obtain ⟨hr, hk⟩ := mem_of_at hf
    by_cases hp : p r = true
    · rw [Option.filter_some_pos hp]
      cases hf' : db'.at t key k with
      | none =>
        refine absurd hk (List.find?_eq_none.mp hf' r ?_)
        rw [hrows]
        exact List.mem_filter.mpr ⟨hr, hp⟩
      | some r' =>
        obtain ⟨hr', hk'⟩ := mem_of_at hf'
        rw [hrows] at hr'
        have hsame := at_of_mem h hkey (List.mem_of_mem_filter hr') hk'
        rw [← hsame, hf]
    · rw [Option.filter_some_neg ((Bool.not_eq_true _).mp hp)]
      refine List.find?_eq_none.mpr fun r' hr' hk' => ?_
      rw [hrows] at hr'
      obtain ⟨hmem, hp'⟩ := List.mem_filter.mp hr'
      have hsame := at_of_mem h hkey hmem hk'
      rw [hf] at hsame
      cases hsame
      exact hp hp'

/-! ## Upserts -/

section Upsert

variable {as : Assignments κ ν} {set : Row κ ν → Assignments κ ν} {x : Unit}

/-- The row an upsert writes. -/
def upserted (S : Schema τ κ ν) (db : Db τ κ ν) (t : τ) (key : List κ) (as : Assignments κ ν)
    (set : Row κ ν → Assignments κ ν) : Row κ ν :=
  match db.at t key (assign as (S.defaults t)) with
  | some r => ⟨r.id, assign (set r) r.cells⟩
  | none   => ⟨db.seq t + 1, assign as (S.defaults t)⟩

/-- An upsert that goes through is an update of the row with its key, or a new row. -/
theorem upsert_inv (hu : S.upsert t key as set db = .ok (x, db')) :
    (∃ r, db.at t key (assign as (S.defaults t)) = some r ∧
      db' = db.updated t (fun r' => r'.id == r.id) set) ∨
    db.at t key (assign as (S.defaults t)) = none ∧ db' = db.append t (assign as (S.defaults t)) := by
  unfold Schema.upsert at hu
  split at hu
  · cases hu
  · split at hu
    · rename_i r hr
      exact .inl ⟨r, hr, (update_inv hu).1⟩
    · rename_i hnone
      cases hi : S.insert t as db with
      | error e => rw [hi] at hu; cases hu
      | ok y =>
        rw [hi] at hu
        cases hu
        exact .inr ⟨hnone, (insertCells_inv hi).2.2⟩

/-- A row after an upsert: one that was there, with its key, or the new one. -/
theorem mem_upsert (hset : ∀ r, ∀ x ∈ set r, x.1 ∉ key) (hu : S.upsert t key as set db = .ok (x, db'))
    {r' : Row κ ν} (hr' : r' ∈ db'.rows t) :
    (∃ r ∈ db.rows t, ∀ c ∈ key, r'.cells c = r.cells c) ∨ r'.cells = assign as (S.defaults t) := by
  rcases upsert_inv hu with ⟨r₀, -, rfl⟩ | ⟨-, rfl⟩
  · rw [rows_updated_self] at hr'
    obtain ⟨r, hr, rfl⟩ := List.mem_map.mp hr'
    exact .inl ⟨r, hr, fun c hc => written_cell fun x hx he => hset r x hx (he ▸ hc)⟩
  · rw [rows_append_self] at hr'
    rcases List.mem_append.mp hr' with hr' | hr'
    · exact .inl ⟨r', hr', fun _ _ => rfl⟩
    · obtain rfl := List.mem_singleton.mp hr'
      exact .inr rfl

theorem at_upsert_self (hset : ∀ r, ∀ x ∈ set r, x.1 ∉ key)
    (hkeyed : Keyed key (assign as (S.defaults t))) (hu : S.upsert t key as set db = .ok (x, db')) :
    db'.at t key (assign as (S.defaults t)) = some (upserted S db t key as set) := by
  unfold upserted
  rcases upsert_inv hu with ⟨r, hr, rfl⟩ | ⟨hnone, rfl⟩
  · rw [at_updated hset, hr, Option.map_some, written, if_pos (beq_self_eq_true r.id)]
  · rw [hnone]
    unfold Db.at at hnone ⊢
    rw [rows_append_self, List.find?_append, hnone, Option.none_or, List.find?_cons,
      sameKey_self hkeyed]

theorem at_upsert_ne (h : Consistent S db) (hset : ∀ r, ∀ x ∈ set r, x.1 ∉ key)
    (hu : S.upsert t key as set db = .ok (x, db'))
    (hne : sameKey key (assign as (S.defaults t)) k = false) :
    db'.at t key k = db.at t key k := by
  rcases upsert_inv hu with ⟨r, hr, rfl⟩ | ⟨hnone, rfl⟩
  · rw [at_updated hset]
    cases hf : db.at t key k with
    | none => rfl
    | some r' =>
      have hother : (r'.id == r.id) = false := by
        rw [beq_eq_false_iff_ne]
        intro he
        obtain ⟨hr'mem, hk'⟩ := mem_of_at hf
        obtain ⟨hrmem, hk⟩ := mem_of_at hr
        rw [h.row_eq hr'mem hrmem he] at hk'
        rw [sameKey_trans hk hk'] at hne
        cases hne
      rw [Option.map_some, written, if_neg (by rw [hother]; exact Bool.false_ne_true)]
  · unfold Db.at
    rw [rows_append_self, List.find?_append, List.find?_cons, hne, List.find?_nil, Option.or_none]

end Upsert

end Air780eHub.Relational
