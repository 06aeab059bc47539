/-
  Streams cut into lines.

  `takeLines sep s` gives the whole lines of `s`, each with its separator, and what is left after
  the last one.  What is left goes in front of what comes next: `takeLines_append` says that a
  stream may be cut anywhere, as long as nothing of what is left is lost.
-/
import Mathlib.Tactic.Common

namespace Air780eHub

universe u

variable {α : Type u} [DecidableEq α] {sep : α}

/-- The whole lines of a stream, and the rest. -/
def takeLines (sep : α) : List α → List (List α) × List α
  | []     => ([], [])
  | b :: s =>
    if b = sep then ([b] :: (takeLines sep s).1, (takeLines sep s).2)
    else match (takeLines sep s).1 with
      | []            => ([], b :: (takeLines sep s).2)
      | line :: lines => ((b :: line) :: lines, (takeLines sep s).2)

theorem takeLines_sep (s : List α) :
    takeLines sep (sep :: s) = ([sep] :: (takeLines sep s).1, (takeLines sep s).2) := by
  rw [takeLines, if_pos rfl]

/-- What has no separator goes in front of the first line, or of the rest. -/
theorem takeLines_free_append {d : List α} (hd : sep ∉ d) (s : List α) :
    takeLines sep (d ++ s) = match (takeLines sep s).1 with
      | []            => ([], d ++ (takeLines sep s).2)
      | line :: lines => ((d ++ line) :: lines, (takeLines sep s).2) := by
  induction d with
  | nil =>
    rw [List.nil_append]
    cases h : takeLines sep s with
    | mk lines rest => cases lines <;> rfl
  | cons b d ih =>
    have hb : b ≠ sep := fun he => hd (he ▸ List.mem_cons_self)
    rw [List.cons_append, takeLines, if_neg hb, ih fun hm => hd (List.mem_cons_of_mem b hm)]
    cases (takeLines sep s).1 <;> rfl

/-- A stream without a separator is no line. -/
theorem takeLines_free {d : List α} (hd : sep ∉ d) : takeLines sep d = ([], d) := by
  have h := takeLines_free_append hd []
  rw [List.append_nil] at h
  rw [h]
  show ([], d ++ []) = ([], d)
  rw [List.append_nil]

/-- The rest has no separator. -/
theorem not_mem_rest (s : List α) : sep ∉ (takeLines sep s).2 := by
  induction s with
  | nil => exact List.not_mem_nil
  | cons b s ih =>
    unfold takeLines
    split
    · exact ih
    · rename_i hb
      split
      · exact fun h => (List.mem_cons.mp h).elim (fun he => hb he.symm) ih
      · exact ih

/-- A stream with a separator has a line. -/
theorem takeLines_ne_nil {s : List α} (h : sep ∈ s) : (takeLines sep s).1 ≠ [] := by
  induction s with
  | nil => cases h
  | cons b s ih =>
    unfold takeLines
    split
    · exact List.cons_ne_nil _ _
    · rename_i hb
      have hs : sep ∈ s := (List.mem_cons.mp h).resolve_left fun he => hb he.symm
      split
      · rename_i hnil
        exact absurd hnil (ih hs)
      · exact List.cons_ne_nil _ _

/-- **A stream may be cut anywhere**, with what is left put in front of what comes next. -/
theorem takeLines_append (x y : List α) :
    takeLines sep (x ++ y) = ((takeLines sep x).1 ++ (takeLines sep ((takeLines sep x).2 ++ y)).1,
      (takeLines sep ((takeLines sep x).2 ++ y)).2) := by
  induction x with
  | nil => rfl
  | cons b x ih =>
    rw [List.cons_append]
    by_cases hb : b = sep
    · subst hb
      rw [takeLines_sep, takeLines_sep, ih]
      rfl
    · rw [takeLines, if_neg hb, takeLines, if_neg hb, ih]
      cases (takeLines sep x).1 with
      | nil =>
        show _ = ([] ++ (takeLines sep (b :: ((takeLines sep x).2 ++ y))).1,
          (takeLines sep (b :: ((takeLines sep x).2 ++ y))).2)
        rw [List.nil_append, List.nil_append, takeLines, if_neg hb]
      | cons line lines => rfl

end Air780eHub
