/-
  Tables as lists of rows, and what the three statements that change one do to it.

  A table is the list of its rows in primary-key order.  `UPDATE … SET f WHERE p` is
  `updateWhere p f`, `DELETE … WHERE p` is `deleteWhere p`; an INSERT with a fresh key appends.
  1. Which rows are there afterwards (`mem_updateWhere`, `mem_deleteWhere`), and that an update
     which keeps a column keeps the list of its values (`map_updateWhere`), so that whatever is
     known of the keys of a table is known after the update.
  2. With distinct keys, selecting by the key of a row gives that row alone (`filter_key_eq`).
  3. `Evolves k R t t'` : every row of `t` has a successor in `t'` under the same key, related by
     `R`.  It is how "a row never loses its result" and "a final status is final" are said of a
     whole table; an insert and an update whose new rows are successors keep it.
-/
import Mathlib.Data.List.Basic
import Mathlib.Data.List.Nodup
import Mathlib.Data.List.Pairwise

namespace Air780eHub

universe u v

variable {ρ : Type u} {κ : Type v}

/-- `UPDATE t SET f WHERE p`. -/
def updateWhere (p : ρ → Bool) (f : ρ → ρ) (t : List ρ) : List ρ :=
  t.map fun r => if p r then f r else r

/-- `DELETE FROM t WHERE p`. -/
def deleteWhere (p : ρ → Bool) (t : List ρ) : List ρ := t.filter fun r => !p r

/-! ## Which rows are there afterwards -/

theorem mem_updateWhere {p : ρ → Bool} {f : ρ → ρ} {t : List ρ} {r : ρ} :
    r ∈ updateWhere p f t ↔ ∃ r₀ ∈ t, (if p r₀ then f r₀ else r₀) = r := by
  simp [updateWhere]

@[simp] theorem mem_deleteWhere {p : ρ → Bool} {t : List ρ} {r : ρ} :
    r ∈ deleteWhere p t ↔ r ∈ t ∧ p r = false := by
  simp [deleteWhere]

/-- A row of an updated table was updated, or is an old row the condition does not match. -/
theorem of_mem_updateWhere {p : ρ → Bool} {f : ρ → ρ} {t : List ρ} {r : ρ}
    (h : r ∈ updateWhere p f t) :
    (∃ r₀ ∈ t, p r₀ = true ∧ r = f r₀) ∨ (r ∈ t ∧ p r = false) := by
  obtain ⟨r₀, h₀, rfl⟩ := mem_updateWhere.mp h
  by_cases hp : p r₀ = true
  · exact Or.inl ⟨r₀, h₀, hp, if_pos hp⟩
  · have hf : p r₀ = false := by simpa using hp
    rw [if_neg hp]; exact Or.inr ⟨h₀, hf⟩

/-- An update which keeps the column `k` of the rows it matches keeps the list of its values. -/
theorem map_updateWhere {p : ρ → Bool} {f : ρ → ρ} {k : ρ → κ} {t : List ρ}
    (hk : ∀ r ∈ t, p r = true → k (f r) = k r) : (updateWhere p f t).map k = t.map k := by
  rw [updateWhere, List.map_map]
  refine List.map_congr_left fun r hr => ?_
  by_cases hp : p r = true
  · simp [hp, hk r hr hp]
  · simp [hp]

theorem pairwise_deleteWhere {p : ρ → Bool} {R : ρ → ρ → Prop} {t : List ρ}
    (h : t.Pairwise R) : (deleteWhere p t).Pairwise R :=
  h.sublist List.filter_sublist

/-- An update which keeps the column `k` keeps every pairwise relation of its values. -/
theorem pairwise_updateWhere {p : ρ → Bool} {f : ρ → ρ} {k : ρ → κ} {R : κ → κ → Prop}
    {t : List ρ} (hk : ∀ r ∈ t, p r = true → k (f r) = k r)
    (h : t.Pairwise fun a b => R (k a) (k b)) :
    (updateWhere p f t).Pairwise fun a b => R (k a) (k b) := by
  rw [← List.pairwise_map (f := k)] at h ⊢
  rwa [map_updateWhere hk]

/-! ## Unique keys -/

/-- When the keys of a table are distinct, selecting by the key of a row gives that row alone. -/
theorem filter_key_eq [DecidableEq κ] {k : ρ → κ} {t : List ρ} (h : (t.map k).Nodup) {r : ρ}
    (hr : r ∈ t) : (t.filter fun x => k x = k r) = [r] := by
  induction t with
  | nil => cases hr
  | cons x t ih =>
    rw [List.map_cons, List.nodup_cons] at h
    obtain ⟨hx, ht⟩ := h
    rcases List.mem_cons.mp hr with rfl | hr
    · have hnone : (t.filter fun y => k y = k r) = [] := by
        refine List.filter_eq_nil_iff.mpr fun y hy heq => hx ?_
        exact List.mem_map.mpr ⟨y, hy, by simpa using heq⟩
      rw [List.filter_cons_of_pos (by simp), hnone]
    · have hne : k x ≠ k r := fun heq => hx (heq ▸ List.mem_map_of_mem hr)
      rw [List.filter_cons_of_neg (by simpa using hne)]
      exact ih ht hr

/-- With distinct keys, a row is determined by its key. -/
theorem eq_of_key_eq {k : ρ → κ} {t : List ρ} (h : (t.map k).Nodup) {r r' : ρ} (hr : r ∈ t)
    (hr' : r' ∈ t) (heq : k r = k r') : r = r' :=
  List.inj_on_of_nodup_map h hr hr' heq

/-- With distinct keys, the row an update leaves under the key of a row. -/
theorem updateWhere_row {p : ρ → Bool} {f : ρ → ρ} {k : ρ → κ} {t : List ρ}
    (h : (t.map k).Nodup) (hk : ∀ r ∈ t, p r = true → k (f r) = k r) {r r' : ρ} (hr : r ∈ t)
    (hr' : r' ∈ updateWhere p f t) (heq : k r' = k r) : r' = if p r then f r else r := by
  rcases of_mem_updateWhere hr' with ⟨r₀, h₀, hp, rfl⟩ | ⟨h₀, hp⟩
  · obtain rfl := eq_of_key_eq h h₀ hr ((hk r₀ h₀ hp).symm.trans heq)
    rw [if_pos hp]
  · obtain rfl := eq_of_key_eq h h₀ hr heq
    rw [if_neg (by simp [hp])]

/-! ## Successor rows -/

/-- Every row of `t` has a successor in `t'`: the same key, related by `R`. -/
def Evolves (k : ρ → κ) (R : ρ → ρ → Prop) (t t' : List ρ) : Prop :=
  ∀ r ∈ t, ∃ r' ∈ t', k r' = k r ∧ R r r'

variable {k : ρ → κ} {R : ρ → ρ → Prop}

theorem Evolves.refl (hR : ∀ r, R r r) (t : List ρ) : Evolves k R t t :=
  fun r hr => ⟨r, hr, rfl, hR r⟩

theorem Evolves.trans (hR : ∀ a b c, R a b → R b c → R a c) {t t' t'' : List ρ}
    (h : Evolves k R t t') (h' : Evolves k R t' t'') : Evolves k R t t'' := by
  intro r hr
  obtain ⟨r', hr', hk', hR'⟩ := h r hr
  obtain ⟨r'', hr'', hk'', hR''⟩ := h' r' hr'
  exact ⟨r'', hr'', hk''.trans hk', hR _ _ _ hR' hR''⟩

/-- Inserting rows keeps the old ones. -/
theorem Evolves.append (hR : ∀ r, R r r) (t t' : List ρ) : Evolves k R t (t ++ t') :=
  fun r hr => ⟨r, List.mem_append_left _ hr, rfl, hR r⟩

/-- An update gives successors when every row it matches gets one. -/
theorem Evolves.updateWhere (hR : ∀ r, R r r) {p : ρ → Bool} {f : ρ → ρ} {t : List ρ}
    (hf : ∀ r ∈ t, p r = true → k (f r) = k r ∧ R r (f r)) :
    Evolves k R t (updateWhere p f t) := by
  intro r hr
  refine ⟨if p r then f r else r, mem_updateWhere.mpr ⟨r, hr, rfl⟩, ?_⟩
  by_cases hp : p r = true
  · rw [if_pos hp]; exact hf r hr hp
  · rw [if_neg hp]; exact ⟨rfl, hR r⟩

end Air780eHub
