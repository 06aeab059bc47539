/-
  The first free name of a series: the base, then the base with the suffixes 2, 3, ….

  The search stops, because the names of the series are different and only finitely many are
  taken; what it returns is free (`freshName_not_mem`).
-/
import Mathlib.Data.List.Nodup
import Mathlib.Data.List.Perm.Subperm
import Mathlib.Logic.Function.Basic

namespace Air780eHub.FreshName

/-- The `n`-th name of the series. -/
def suffixed (base : String) (n : Nat) : String := base ++ "-" ++ toString n

/-- The first name from the `n`-th on that is not taken, among `fuel + 1` of them. -/
def firstFree (taken : List String) (base : String) : Nat → Nat → String
  | 0, n        => suffixed base n
  | fuel + 1, n =>
    if suffixed base n ∈ taken then firstFree taken base fuel (n + 1) else suffixed base n

/-- The base where it is free, else the first free name with a suffix. -/
def freshName (taken : List String) (base : String) : String :=
  if base ∈ taken then firstFree taken base taken.length 2 else base

theorem repr_inj {m n : Nat} (h : m.repr = n.repr) : m = n := by
  rw [Nat.repr_eq_ofList_toDigits, Nat.repr_eq_ofList_toDigits, String.ofList_inj] at h
  have hread := congrArg (Nat.ofDigitChars 10 · 0) h
  rw [Nat.ofDigitChars_ten_toDigits, Nat.ofDigitChars_ten_toDigits] at hread
  exact hread

theorem suffixed_injective (base : String) : Function.Injective (suffixed base) := by
  intro m n h
  have hrepr : m.repr = n.repr := String.append_right_inj (base ++ "-") |>.mp h
  exact repr_inj hrepr

/-- A search that ends on a taken name has seen only taken names. -/
theorem taken_of_firstFree {taken : List String} {base : String} {fuel n : Nat}
    (h : firstFree taken base fuel n ∈ taken) : ∀ i ≤ fuel, suffixed base (n + i) ∈ taken := by
  induction fuel generalizing n with
  | zero =>
    intro i hi
    obtain rfl : i = 0 := by omega
    exact h
  | succ fuel ih =>
    by_cases hn : suffixed base n ∈ taken
    · rw [firstFree, if_pos hn] at h
      intro i hi
      cases i with
      | zero => exact hn
      | succ i =>
        have hi' := ih h i (by omega)
        rw [show n + (i + 1) = n + 1 + i by omega]
        exact hi'
    · rw [firstFree, if_neg hn] at h
      exact absurd h hn

/-- **The name is free.** -/
theorem freshName_not_mem (taken : List String) (base : String) :
    freshName taken base ∉ taken := by
  unfold freshName
  by_cases hbase : base ∈ taken
  · rw [if_pos hbase]
    intro h
    -- one name more than are taken
    have hseen := taken_of_firstFree h
    have hnodup : ((List.range (taken.length + 1)).map fun i => suffixed base (2 + i)).Nodup := by
      refine List.nodup_range.map fun i j hij => ?_
      have hsum := suffixed_injective base hij
      omega
    have hsub : ((List.range (taken.length + 1)).map fun i => suffixed base (2 + i)) ⊆ taken := by
      intro x hx
      obtain ⟨i, hi, rfl⟩ := List.mem_map.mp hx
      exact hseen i (by have := List.mem_range.mp hi; omega)
    have hle := (List.subperm_of_subset hnodup hsub).length_le
    rw [List.length_map, List.length_range] at hle
    omega
  · rw [if_neg hbase]
    exact hbase

end Air780eHub.FreshName
