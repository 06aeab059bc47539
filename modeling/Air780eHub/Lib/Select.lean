/-
  Queries over lists of rows: grouping, joining, and counting what a condition keeps.

  1. `groupKeys` : the keys of a GROUP BY, each once.
  2. `join`, `leftJoin` : the pairs of rows an ON condition relates.  A row whose partner is found
     by a unique key has at most one, so a left join keeps every row once (`leftJoin_fst`).
  3. Two conditions, one stronger than the other, keep equally many rows exactly when they keep
     the same ones.
-/
import Mathlib.Data.List.Dedup
import Mathlib.Data.List.Nodup

namespace Air780eHub.Select

variable {α β κ : Type}

/-! ## Groups -/

/-- The keys of a GROUP BY. -/
def groupKeys [DecidableEq κ] (key : α → κ) (rows : List α) : List κ := (rows.map key).dedup

theorem mem_groupKeys [DecidableEq κ] {key : α → κ} {rows : List α} {k : κ} :
    k ∈ groupKeys key rows ↔ ∃ a ∈ rows, key a = k := by
  rw [groupKeys, List.mem_dedup, List.mem_map]

theorem nodup_groupKeys [DecidableEq κ] (key : α → κ) (rows : List α) :
    (groupKeys key rows).Nodup := List.nodup_dedup _

/-! ## Joins -/

/-- `rows JOIN others ON …`. -/
def join (on : α → β → Bool) (rows : List α) (others : List β) : List (α × β) :=
  rows.flatMap fun a => (others.filter (on a)).map fun b => (a, b)

/-- `rows LEFT JOIN others ON …`: a row without a partner stays, beside NULLs. -/
def leftJoin (on : α → β → Bool) (rows : List α) (others : List β) : List (α × Option β) :=
  rows.flatMap fun a =>
    let found := others.filter (on a)
    if found.isEmpty then [(a, none)] else found.map fun b => (a, some b)

theorem mem_join {on : α → β → Bool} {rows : List α} {others : List β} {a : α} {b : β} :
    (a, b) ∈ join on rows others ↔ a ∈ rows ∧ b ∈ others ∧ on a b = true := by
  simp only [join, List.mem_flatMap, List.mem_map, List.mem_filter, Prod.mk.injEq]
  constructor
  · rintro ⟨a', ha, b', hb, rfl, rfl⟩
    exact ⟨ha, hb⟩
  · rintro ⟨ha, hb⟩
    exact ⟨a, ha, b, hb, rfl, rfl⟩

/-- Every row of a left join is a row of its left side beside something. -/
theorem mem_of_mem_leftJoin {on : α → β → Bool} {rows : List α} {others : List β} {a : α}
    {b : Option β} (h : (a, b) ∈ leftJoin on rows others) : a ∈ rows := by
  obtain ⟨a', ha', hb⟩ := List.mem_flatMap.mp h
  simp only at hb
  split at hb
  · cases List.mem_singleton.mp hb
    exact ha'
  · obtain ⟨b', -, hab⟩ := List.mem_map.mp hb
    cases hab
    exact ha'

/-- A left join keeps every row. -/
theorem exists_mem_leftJoin (on : α → β → Bool) {rows : List α} {a : α} (h : a ∈ rows)
    (others : List β) : ∃ b, (a, b) ∈ leftJoin on rows others := by
  match hf : others.filter (on a) with
  | [] => exact ⟨none, List.mem_flatMap.mpr ⟨a, h, by simp [hf]⟩⟩
  | b :: bs => exact ⟨some b, List.mem_flatMap.mpr ⟨a, h, by simp [hf]⟩⟩

/-- A key no two rows share finds at most one row. -/
theorem length_filter_le_one [DecidableEq κ] {key : β → κ} {others : List β}
    (h : (others.map key).Nodup) (k : κ) :
    (others.filter fun b => decide (key b = k)).length ≤ 1 := by
  have hcount : (others.filter fun b => decide (key b = k)).length = (others.map key).count k := by
    rw [List.count, List.countP_map, List.countP_eq_length_filter]
    rfl
  rw [hcount]
  exact List.nodup_iff_count_le_one.mp h k

/-- Where no row has two partners a left join has every row once. -/
theorem leftJoin_fst {on : α → β → Bool} {others : List β}
    (h : ∀ a, (others.filter (on a)).length ≤ 1) (rows : List α) :
    (leftJoin on rows others).map Prod.fst = rows := by
  induction rows with
  | nil => rfl
  | cons a rows ih =>
    have hhead : (leftJoin on (a :: rows) others).map Prod.fst =
        a :: (leftJoin on rows others).map Prod.fst := by
      have hone := h a
      simp only [leftJoin, List.flatMap_cons, List.map_append]
      match hf : others.filter (on a) with
      | [] => rfl
      | [b] => rfl
      | b :: c :: bs => rw [hf] at hone; simp at hone
    rw [hhead, ih]

/-! ## Counting -/

/-- A condition that implies another keeps equally many rows only where it keeps the same. -/
theorem filter_eq_of_length_eq {p q : α → Bool} {rows : List α}
    (hpq : ∀ a, p a = true → q a = true)
    (h : (rows.filter p).length = (rows.filter q).length) :
    ∀ a ∈ rows, q a = true → p a = true := by
  have hsub : (rows.filter p).Sublist (rows.filter q) := List.monotone_filter_right rows hpq
  have heq : rows.filter p = rows.filter q := hsub.eq_of_length h
  intro a ha hq
  have hmem : a ∈ rows.filter p := by rw [heq]; exact List.mem_filter.mpr ⟨ha, hq⟩
  exact (List.mem_filter.mp hmem).2

end Air780eHub.Select
