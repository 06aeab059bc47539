/-
  Lists of running coroutines.

  A coroutine is known by its place in the list.  When it goes on it waits for the next thing at the
  same place, or it is over and the later ones move up.
-/
import Mathlib.Data.List.Nodup

namespace Air780eHub

universe u v

variable {α : Type u} {routines : List α} {k : Nat} {r q : α} {next : Option α}

/-- The `k`-th coroutine now waits as `next`, or is over. -/
def place (routines : List α) (k : Nat) : Option α → List α
  | some next => routines.set k next
  | none      => routines.eraseIdx k

/-- What is in the list then was there before, or is the one that went on. -/
theorem of_mem_place (h : r ∈ place routines k next) : r ∈ routines ∨ next = some r := by
  cases next with
  | none => exact .inl (List.mem_of_mem_eraseIdx h)
  | some q =>
    rcases List.mem_or_eq_of_mem_set h with h | h
    · exact .inl h
    · exact .inr (congrArg some h.symm)

/-- A coroutine other than the one that goes on stays. -/
theorem mem_place_of_ne (hr : r ∈ routines) (hk : routines[k]? = some q) (hne : r ≠ q) :
    r ∈ place routines k next := by
  obtain ⟨i, hi, rfl⟩ := List.mem_iff_getElem.mp hr
  have hik : i ≠ k := by
    rintro rfl
    rw [List.getElem?_eq_getElem hi] at hk
    exact hne (Option.some.inj hk)
  cases next with
  | none => exact List.mem_eraseIdx_iff_getElem.mpr ⟨i, hi, hik, rfl⟩
  | some p =>
    refine List.mem_iff_getElem.mpr ⟨i, by simpa [place] using hi, ?_⟩
    exact List.getElem_set_ne (fun h => hik h.symm) _

/-- The one that goes on is there. -/
theorem mem_place_self (hk : routines[k]? = some q) : r ∈ place routines k (some r) := by
  obtain ⟨hlt, -⟩ := List.getElem?_eq_some_iff.mp hk
  exact List.mem_set hlt r

/-- When the keys are distinct, the one that is over takes its key with it. -/
theorem ne_of_mem_eraseIdx {β : Type v} {key : α → β} (h : (routines.map key).Nodup)
    (hk : routines[k]? = some q) (hr : r ∈ routines.eraseIdx k) : key r ≠ key q := by
  obtain ⟨i, hik, hi⟩ := List.mem_eraseIdx_iff_getElem?.mp hr
  intro he
  obtain ⟨hlt, -⟩ := List.getElem?_eq_some_iff.mp hi
  refine hik ((List.getElem?_inj (by simpa using hlt) h).mp ?_)
  rw [List.getElem?_map, List.getElem?_map, hi, hk, Option.map_some, Option.map_some, he]

end Air780eHub
