/-
  Insertion-ordered dictionaries, the `dict` of the source's language.

  `Dict κ α` holds its entries in insertion order under distinct keys; that they are distinct is a
  field, so every operation proves it once.  Assigning to a present key keeps its place.
  1. **Operations**: `get?`, `set`, `erase`, `filter`.
  2. **What a key holds afterwards** (`get?_set`, `get?_set_ne`, `get?_erase`, `get?_erase_ne`), and
     **what they do to the entries as a collection** (`set_perm_new`, `set_perm_old`,
     `erase_perm`): an assignment adds its entry and takes out the one it replaces.  Whatever is
     summed or collected over the entries is tracked by these three.
  3. **Sums over the values** (`sumOf`).
-/
import Mathlib.Algebra.GroupWithZero.Nat
import Mathlib.Data.List.Nodup
import Mathlib.Data.List.Perm.Basic

namespace Air780eHub

universe u v w

/-- A dictionary: entries in insertion order, under distinct keys. -/
structure Dict (κ : Type u) (α : Type v) where
  entries : List (κ × α)
  nodup   : (entries.map Prod.fst).Nodup

namespace Dict

variable {κ : Type u} {α : Type v}

/-- The value under the key `k` in a list of entries. -/
def lookupIn [DecidableEq κ] (k : κ) : List (κ × α) → Option α
  | []     => none
  | e :: l => if e.1 = k then some e.2 else lookupIn k l

/-- Assign `v` to the key `k` in a list of entries. -/
def setIn [DecidableEq κ] (k : κ) (v : α) : List (κ × α) → List (κ × α)
  | []     => [(k, v)]
  | e :: l => if e.1 = k then (k, v) :: l else e :: setIn k v l

/-- Remove the key `k` from a list of entries. -/
def eraseIn [DecidableEq κ] (k : κ) : List (κ × α) → List (κ × α)
  | []     => []
  | e :: l => if e.1 = k then l else e :: eraseIn k l

section Keys

variable [DecidableEq κ] {k : κ} {v w : α} {l : List (κ × α)}

theorem mem_keys_setIn {k' : κ} :
    k' ∈ (setIn k v l).map Prod.fst ↔ k' = k ∨ k' ∈ l.map Prod.fst := by
  induction l with
  | nil => simp [setIn]
  | cons e l ih =>
    by_cases he : e.1 = k
    · rw [setIn, if_pos he, List.map_cons, List.map_cons, List.mem_cons, List.mem_cons, he]
      exact ⟨fun h => h.elim Or.inl (fun h => Or.inr (Or.inr h)),
        fun h => h.elim Or.inl id⟩
    · rw [setIn, if_neg he, List.map_cons, List.map_cons, List.mem_cons, List.mem_cons, ih]
      exact or_left_comm

theorem nodup_setIn (h : (l.map Prod.fst).Nodup) : ((setIn k v l).map Prod.fst).Nodup := by
  induction l with
  | nil => simp [setIn]
  | cons e l ih =>
    rw [List.map_cons, List.nodup_cons] at h
    obtain ⟨he, hl⟩ := h
    by_cases hk : e.1 = k
    · rw [setIn, if_pos hk, List.map_cons, List.nodup_cons]
      exact ⟨hk ▸ he, hl⟩
    · rw [setIn, if_neg hk, List.map_cons, List.nodup_cons, mem_keys_setIn]
      exact ⟨fun h => h.elim hk he, ih hl⟩

theorem eraseIn_sublist : (eraseIn k l).Sublist l := by
  induction l with
  | nil => exact List.Sublist.slnil
  | cons e l ih =>
    by_cases hk : e.1 = k
    · rw [eraseIn, if_pos hk]; exact List.sublist_cons_self e l
    · rw [eraseIn, if_neg hk]; exact ih.cons_cons e

theorem setIn_perm_new (h : lookupIn k l = none) : (setIn k v l).Perm ((k, v) :: l) := by
  induction l with
  | nil => exact List.Perm.refl _
  | cons e l ih =>
    by_cases hk : e.1 = k
    · rw [lookupIn, if_pos hk] at h; cases h
    · rw [lookupIn, if_neg hk] at h
      rw [setIn, if_neg hk]
      exact ((ih h).cons e).trans (List.Perm.swap _ _ _)

theorem setIn_perm_old (h : lookupIn k l = some w) :
    ((k, w) :: setIn k v l).Perm ((k, v) :: l) := by
  induction l with
  | nil => cases h
  | cons e l ih =>
    by_cases hk : e.1 = k
    · rw [lookupIn, if_pos hk] at h
      have he : (k, w) = e := Prod.ext hk.symm (Option.some.inj h).symm
      rw [setIn, if_pos hk, he]
      exact List.Perm.swap _ _ _
    · rw [lookupIn, if_neg hk] at h
      rw [setIn, if_neg hk]
      exact (List.Perm.swap _ _ _).trans (((ih h).cons e).trans (List.Perm.swap _ _ _))

theorem eraseIn_perm (h : lookupIn k l = some w) : ((k, w) :: eraseIn k l).Perm l := by
  induction l with
  | nil => cases h
  | cons e l ih =>
    by_cases hk : e.1 = k
    · rw [lookupIn, if_pos hk] at h
      have he : (k, w) = e := Prod.ext hk.symm (Option.some.inj h).symm
      rw [eraseIn, if_pos hk, he]
    · rw [lookupIn, if_neg hk] at h
      rw [eraseIn, if_neg hk]
      exact (List.Perm.swap _ _ _).trans ((ih h).cons e)

theorem lookupIn_setIn : lookupIn k (setIn k v l) = some v := by
  induction l with
  | nil => simp [setIn, lookupIn]
  | cons e l ih =>
    by_cases hk : e.1 = k
    · simp [setIn, lookupIn, hk]
    · simp [setIn, lookupIn, hk, ih]

theorem lookupIn_setIn_ne {k' : κ} (h : k' ≠ k) :
    lookupIn k' (setIn k v l) = lookupIn k' l := by
  induction l with
  | nil => exact if_neg (Ne.symm h)
  | cons e l ih =>
    by_cases hk : e.1 = k
    · have he : e.1 ≠ k' := fun heq => h (heq.symm.trans hk)
      rw [setIn, if_pos hk, lookupIn, lookupIn, if_neg he]
      exact if_neg (Ne.symm h)
    · rw [setIn, if_neg hk, lookupIn, lookupIn, ih]

theorem lookupIn_eraseIn_ne {k' : κ} (h : k' ≠ k) :
    lookupIn k' (eraseIn k l) = lookupIn k' l := by
  induction l with
  | nil => rfl
  | cons e l ih =>
    by_cases hk : e.1 = k
    · have he : e.1 ≠ k' := fun heq => h (heq.symm.trans hk)
      rw [eraseIn, if_pos hk, lookupIn, if_neg he]
    · rw [eraseIn, if_neg hk, lookupIn, lookupIn, ih]

theorem lookupIn_of_not_mem (h : k ∉ l.map Prod.fst) : lookupIn k l = none := by
  induction l with
  | nil => rfl
  | cons e l ih =>
    rw [List.map_cons, List.mem_cons, not_or] at h
    rw [lookupIn, if_neg (Ne.symm h.1)]
    exact ih h.2

theorem lookupIn_eraseIn (h : (l.map Prod.fst).Nodup) : lookupIn k (eraseIn k l) = none := by
  induction l with
  | nil => rfl
  | cons e l ih =>
    rw [List.map_cons, List.nodup_cons] at h
    by_cases hk : e.1 = k
    · rw [eraseIn, if_pos hk]
      exact lookupIn_of_not_mem (hk ▸ h.1)
    · rw [eraseIn, if_neg hk, lookupIn, if_neg hk]
      exact ih h.2

theorem mem_of_lookupIn (h : lookupIn k l = some v) : (k, v) ∈ l := by
  induction l with
  | nil => cases h
  | cons e l ih =>
    by_cases hk : e.1 = k
    · rw [lookupIn, if_pos hk] at h
      have he : (k, v) = e := Prod.ext hk.symm (Option.some.inj h).symm
      rw [he]
      exact List.mem_cons_self
    · rw [lookupIn, if_neg hk] at h
      exact List.mem_cons_of_mem _ (ih h)

theorem not_mem_of_lookupIn (h : lookupIn k l = none) : k ∉ l.map Prod.fst := by
  induction l with
  | nil => exact List.not_mem_nil
  | cons e l ih =>
    by_cases hk : e.1 = k
    · rw [lookupIn, if_pos hk] at h; cases h
    · rw [lookupIn, if_neg hk] at h
      rw [List.map_cons, List.mem_cons, not_or]
      exact ⟨Ne.symm hk, ih h⟩

/-- Under distinct keys a key has one value. -/
theorem lookupIn_unique (hn : (l.map Prod.fst).Nodup) (h : lookupIn k l = some w)
    (hm : (k, v) ∈ l) : w = v := by
  induction l with
  | nil => cases h
  | cons e l ih =>
    rw [List.map_cons, List.nodup_cons] at hn
    by_cases hk : e.1 = k
    · rw [lookupIn, if_pos hk] at h
      rcases List.mem_cons.mp hm with rfl | hm
      · exact (Option.some.inj h).symm
      · exact absurd (List.mem_map_of_mem (f := Prod.fst) hm) (hk ▸ hn.1)
    · rw [lookupIn, if_neg hk] at h
      rcases List.mem_cons.mp hm with rfl | hm
      · exact absurd rfl hk
      · exact ih hn.2 h hm

theorem mem_setIn : (k, v) ∈ setIn k v l := by
  induction l with
  | nil => exact List.mem_cons_self
  | cons e l ih =>
    by_cases hk : e.1 = k
    · rw [setIn, if_pos hk]; exact List.mem_cons_self
    · rw [setIn, if_neg hk]; exact List.mem_cons_of_mem _ ih

end Keys

/-! ## Operations -/

/-- `{}`. -/
def empty : Dict κ α := ⟨[], List.nodup_nil⟩

instance : EmptyCollection (Dict κ α) := ⟨empty⟩

@[simp] theorem entries_empty : (∅ : Dict κ α).entries = [] := rfl

/-- `d.get(k)`. -/
def get? [DecidableEq κ] (d : Dict κ α) (k : κ) : Option α := lookupIn k d.entries

/-- `d[k] = v`. -/
def set [DecidableEq κ] (d : Dict κ α) (k : κ) (v : α) : Dict κ α :=
  ⟨setIn k v d.entries, nodup_setIn d.nodup⟩

/-- `del d[k]`, `d.pop(k)`. -/
def erase [DecidableEq κ] (d : Dict κ α) (k : κ) : Dict κ α :=
  ⟨eraseIn k d.entries, d.nodup.sublist (eraseIn_sublist.map _)⟩

/-- The entries that meet `p`. -/
def filter (p : κ × α → Bool) (d : Dict κ α) : Dict κ α :=
  ⟨d.entries.filter p, d.nodup.sublist (List.filter_sublist.map _)⟩

/-- The values put through `g`. -/
def mapValues {β : Type w} (g : α → β) (d : Dict κ α) : Dict κ β :=
  ⟨d.entries.map fun e => (e.1, g e.2), by rw [List.map_map]; exact d.nodup⟩

/-! ## What they do to the entries as a collection -/

section Perm

variable [DecidableEq κ] {d : Dict κ α} {k : κ} {v w : α}

@[simp] theorem get?_set : (d.set k v).get? k = some v := lookupIn_setIn

theorem get?_set_ne {k' : κ} (h : k' ≠ k) : (d.set k v).get? k' = d.get? k' :=
  lookupIn_setIn_ne h

@[simp] theorem get?_erase : (d.erase k).get? k = none := lookupIn_eraseIn d.nodup

theorem get?_erase_ne {k' : κ} (h : k' ≠ k) : (d.erase k).get? k' = d.get? k' :=
  lookupIn_eraseIn_ne h

@[simp] theorem get?_empty : (∅ : Dict κ α).get? k = none := rfl

theorem mem_of_get? (h : d.get? k = some v) : (k, v) ∈ d.entries := mem_of_lookupIn h

theorem mem_set : (k, v) ∈ (d.set k v).entries := mem_setIn

/-- The entries are what the keys hold. -/
theorem mem_iff_get? : (k, v) ∈ d.entries ↔ d.get? k = some v := by
  constructor
  · intro hm
    cases hg : d.get? k with
    | none => exact absurd (List.mem_map_of_mem (f := Prod.fst) hm) (not_mem_of_lookupIn hg)
    | some w => exact congrArg some (lookupIn_unique d.nodup hg hm)
  · exact mem_of_get?

/-- What a key holds when the entries are selected by their keys. -/
theorem get?_filter_keys (p : κ → Bool) (d : Dict κ α) (k : κ) :
    (d.filter fun e => p e.1).get? k = if p k then d.get? k else none := by
  show lookupIn k (d.entries.filter fun e => p e.1) = if p k then lookupIn k d.entries else none
  generalize d.entries = l
  induction l with
  | nil => exact (ite_self none).symm
  | cons e l ih =>
    by_cases hk : e.1 = k
    · cases hp : p k with
      | true =>
        rw [List.filter_cons_of_pos (by rw [hk]; exact hp), lookupIn, if_pos hk, lookupIn,
          if_pos hk]
        rfl
      | false =>
        rw [hp] at ih
        rw [List.filter_cons_of_neg (by rw [hk, hp]; exact Bool.false_ne_true), ih]
        rfl
    · rw [lookupIn, if_neg hk, ← ih]
      by_cases hp : p e.1 = true
      · rw [List.filter_cons, if_pos hp, lookupIn, if_neg hk]
      · rw [List.filter_cons, if_neg hp]

/-- Assigning to a new key adds the entry. -/
theorem set_perm_new (h : d.get? k = none) :
    ((d.set k v).entries).Perm ((k, v) :: d.entries) :=
  setIn_perm_new h

/-- Assigning to a present key replaces its entry. -/
theorem set_perm_old (h : d.get? k = some w) :
    ((k, w) :: (d.set k v).entries).Perm ((k, v) :: d.entries) :=
  setIn_perm_old h

/-- Removing a present key removes its entry. -/
theorem erase_perm (h : d.get? k = some w) :
    ((k, w) :: (d.erase k).entries).Perm d.entries :=
  eraseIn_perm h

/-- An entry after an assignment is the new one, or was there under another key. -/
theorem of_mem_set {e : κ × α} (h : e ∈ (d.set k v).entries) :
    e = (k, v) ∨ e.1 ≠ k ∧ e ∈ d.entries := by
  have hget := mem_iff_get?.mp h
  by_cases hk : e.1 = k
  · rw [hk, get?_set] at hget
    exact Or.inl (Prod.ext hk (Option.some.inj hget).symm)
  · rw [get?_set_ne hk] at hget
    exact Or.inr ⟨hk, mem_of_get? hget⟩

theorem of_mem_erase {e : κ × α} (h : e ∈ (d.erase k).entries) : e ∈ d.entries :=
  eraseIn_sublist.subset h

end Perm

/-! ## Sums over the values -/

/-- What the values add up to. -/
def sumOf (f : α → Nat) (d : Dict κ α) : Nat := (d.entries.map fun e => f e.2).sum

section Sum

variable [DecidableEq κ] {f : α → Nat} {d : Dict κ α} {k : κ} {v w : α}

theorem sumOf_set_new (h : d.get? k = none) : (d.set k v).sumOf f = d.sumOf f + f v := by
  have hsum := ((set_perm_new (v := v) h).map fun e => f e.2).sum_nat
  rw [List.map_cons, List.sum_cons] at hsum
  exact hsum.trans (Nat.add_comm _ _)

theorem sumOf_set_old (h : d.get? k = some w) :
    (d.set k v).sumOf f + f w = d.sumOf f + f v := by
  have hsum := ((set_perm_old (v := v) h).map fun e => f e.2).sum_nat
  rw [List.map_cons, List.sum_cons, List.map_cons, List.sum_cons] at hsum
  dsimp only at hsum
  unfold sumOf
  omega

theorem sumOf_erase (h : d.get? k = some w) : (d.erase k).sumOf f + f w = d.sumOf f := by
  have hsum := ((erase_perm h).map fun e => f e.2).sum_nat
  rw [List.map_cons, List.sum_cons] at hsum
  exact (Nat.add_comm _ _).trans hsum

omit [DecidableEq κ] in
theorem sumOf_mapValues {β : Type w} (g : α → β) (f : β → Nat) (d : Dict κ α) :
    (d.mapValues g).sumOf f = d.sumOf fun v => f (g v) := by
  unfold sumOf mapValues
  rw [List.map_map]
  rfl

omit [DecidableEq κ] in
theorem le_sumOf {e : κ × α} (h : e ∈ d.entries) : f e.2 ≤ d.sumOf f := by
  unfold sumOf
  generalize d.entries = l at h
  induction l with
  | nil => exact absurd h List.not_mem_nil
  | cons x l ih =>
    rw [List.map_cons, List.sum_cons]
    rcases List.mem_cons.mp h with rfl | h
    · omega
    · have hle := ih h
      omega

omit [DecidableEq κ] in
/-- What adds up to something has something in it. -/
theorem exists_of_sumOf_pos (h : 0 < d.sumOf f) : ∃ e ∈ d.entries, 0 < f e.2 := by
  unfold sumOf at h
  generalize d.entries = l at h
  induction l with
  | nil => exact absurd h (Nat.lt_irrefl 0)
  | cons x l ih =>
    rw [List.map_cons, List.sum_cons] at h
    by_cases hx : 0 < f x.2
    · exact ⟨x, List.mem_cons_self, hx⟩
    · obtain ⟨e, he, hpos⟩ := ih (by omega)
      exact ⟨e, List.mem_cons_of_mem x he, hpos⟩

end Sum

end Dict

end Air780eHub
