/-
  Values that hold from one change to the next.

  1. **Changes.**  `valueAt` is what holds at a time, by changes in the order of their times.
  2. **Spans.**  `Tiles lo hi` are spans that cover a range one after the other, neighbours with
     different states; `Shows f` are spans over which `f` has the state of the span.  A tiling goes
     on by one more span (`Tiles.snoc`) or by a longer last one (`Tiles.stretch`).
  3. **Measures.**  Over the integers, how long a value holds (`heldFor`) and in how many runs
     (`runsOf`), read off a tiling.
-/
import Mathlib.Order.Interval.Finset.Basic
import Mathlib.Data.Int.Interval
import Mathlib.Algebra.BigOperators.Group.List.Basic
import Mathlib.Algebra.BigOperators.Group.Finset.Basic
import Mathlib.Algebra.BigOperators.Ring.Finset
import Mathlib.Algebra.Order.BigOperators.Group.Finset

namespace Air780eHub.Timeline

universe u v

variable {T : Type u} {V : Type v} [LinearOrder T]

/-! ## Changes -/

/-- What holds at `t`: `v` up to the first change, then what the last change by `t` says. -/
def valueAt (v : V) : List (T × V) → T → V
  | [], _                  => v
  | (time, next) :: rest, t => if time ≤ t then valueAt next rest t else v

/-- Before every change it is `v`. -/
theorem valueAt_before {v : V} {changes : List (T × V)} {t : T} (h : ∀ c ∈ changes, t < c.1) :
    valueAt v changes t = v := by
  match changes with
  | []        => rfl
  | c :: rest => exact if_neg (not_le.mpr (h c List.mem_cons_self))

/-- It is the value of the latest change by `t`. -/
theorem valueAt_latest {v : V} {changes : List (T × V)}
    (hsorted : changes.Pairwise fun c c' => c.1 < c'.1) {t : T} {c : T × V} (hc : c ∈ changes)
    (hle : c.1 ≤ t) (hmax : ∀ c' ∈ changes, c'.1 ≤ t → c'.1 ≤ c.1) :
    valueAt v changes t = c.2 := by
  induction changes generalizing v with
  | nil => exact absurd hc List.not_mem_nil
  | cons d rest ih =>
    obtain ⟨hd, hrest⟩ := List.pairwise_cons.mp hsorted
    rcases List.mem_cons.mp hc with rfl | hc
    · have hbefore : ∀ c' ∈ rest, t < c'.1 := by
        intro c' hc'
        by_contra hle'
        have hback := hmax c' (List.mem_cons_of_mem c hc') (not_lt.mp hle')
        exact absurd (hd c' hc') (not_lt.mpr hback)
      rw [valueAt, if_pos hle]
      exact valueAt_before hbefore
    · rw [valueAt, if_pos (le_of_lt (lt_of_lt_of_le (hd c hc) hle))]
      exact ih hrest hc fun c' hc' => hmax c' (List.mem_cons_of_mem d hc')

/-- Some change is the latest one by `t`, or there is none by `t`. -/
theorem latest_or_none {changes : List (T × V)}
    (hsorted : changes.Pairwise fun c c' => c.1 < c'.1) (t : T) :
    (∃ c ∈ changes, c.1 ≤ t ∧ ∀ c' ∈ changes, c'.1 ≤ t → c'.1 ≤ c.1) ∨
      ∀ c ∈ changes, t < c.1 := by
  induction changes with
  | nil => exact Or.inr fun c hc => absurd hc List.not_mem_nil
  | cons d rest ih =>
    obtain ⟨hd, hrest⟩ := List.pairwise_cons.mp hsorted
    rcases ih hrest with ⟨c, hc, hle, hmax⟩ | hbefore
    · refine Or.inl ⟨c, List.mem_cons_of_mem d hc, hle, ?_⟩
      exact List.forall_mem_cons.mpr ⟨fun _ => le_of_lt (hd c hc), hmax⟩
    · by_cases hle : d.1 ≤ t
      · refine Or.inl ⟨d, List.mem_cons_self, hle, ?_⟩
        refine List.forall_mem_cons.mpr ⟨fun _ => le_refl _, fun c' hc' hle' => ?_⟩
        exact absurd hle' (not_le.mpr (hbefore c' hc'))
      · exact Or.inr (List.forall_mem_cons.mpr ⟨not_le.mp hle, hbefore⟩)

/-! ## Spans -/

/-- A state from `start` up to but not including `stop`. -/
structure Span (T : Type u) (V : Type v) where
  start : T
  stop  : T
  state : V
deriving DecidableEq, Repr

/-- Spans that cover `[lo, hi)` one after the other: none is empty, each begins where the one
before it ends, and neighbours differ in state. -/
inductive Tiles : T → T → List (Span T V) → Prop
  | nil (lo : T) : Tiles lo lo []
  | cons {lo mid hi : T} {v : V} {spans : List (Span T V)} (hlt : lo < mid)
      (hrest : Tiles mid hi spans) (hne : ∀ next ∈ spans.head?, v ≠ next.state) :
      Tiles lo hi (⟨lo, mid, v⟩ :: spans)

/-- Over each span, `f` has its state. -/
def Shows (f : T → V) (spans : List (Span T V)) : Prop :=
  ∀ s ∈ spans, ∀ t, s.start ≤ t → t < s.stop → f t = s.state

theorem shows_snoc {f : T → V} {spans : List (Span T V)} (h : Shows f spans) {s : Span T V}
    (hs : ∀ t, s.start ≤ t → t < s.stop → f t = s.state) : Shows f (spans ++ [s]) := by
  intro s' hs'
  rcases List.mem_append.mp hs' with hs' | hs'
  · exact h s' hs'
  · obtain rfl := List.mem_singleton.mp hs'
    exact hs

namespace Tiles

variable {lo mid hi : T} {spans : List (Span T V)}

/-- A span in another state goes on from the end. -/
theorem snoc (h : Tiles lo mid spans) (hlt : mid < hi) {v : V}
    (hne : ∀ last ∈ spans.getLast?, last.state ≠ v) : Tiles lo hi (spans ++ [⟨mid, hi, v⟩]) := by
  induction h with
  | nil lo => exact .cons hlt (.nil hi) nofun
  | @cons lo mid' mid v' spans hlt' hrest hne' ih =>
    rw [List.cons_append]
    match spans with
    | []              =>
      refine .cons hlt' (ih hlt nofun) fun next hnext => ?_
      obtain rfl := Option.some.inj hnext
      exact hne _ rfl
    | next' :: spans' =>
      exact .cons hlt' (ih hlt fun last hlast => hne last hlast) fun next hnext => hne' next hnext

/-- The last span ends where the tiling ends, and it may end later. -/
theorem stretch {s : Span T V} (h : Tiles lo mid (spans ++ [s])) (hlt : mid < hi) :
    s.stop = mid ∧ Tiles lo hi (spans ++ [{ s with stop := hi }]) := by
  induction spans generalizing lo with
  | nil =>
    obtain ⟨⟩ | ⟨hlt', hrest, -⟩ := h
    obtain ⟨⟩ := hrest
    exact ⟨rfl, .cons (lt_trans hlt' hlt) (.nil hi) nofun⟩
  | cons s' spans ih =>
    obtain ⟨⟩ | ⟨hlt', hrest, hne⟩ := h
    obtain ⟨hstop, htiles⟩ := ih hrest
    refine ⟨hstop, .cons hlt' htiles fun next hnext => ?_⟩
    match spans with
    | []         =>
      obtain rfl := Option.some.inj hnext
      exact hne s rfl
    | next' :: _ => exact hne next hnext

/-- No span is empty. -/
theorem proper (h : Tiles lo hi spans) : ∀ s ∈ spans, s.start < s.stop := by
  induction h with
  | nil lo => exact fun s hs => absurd hs List.not_mem_nil
  | cons hlt hrest hne ih => exact List.forall_mem_cons.mpr ⟨hlt, ih⟩

theorem le (h : Tiles lo hi spans) : lo ≤ hi := by
  induction h with
  | nil lo => exact le_refl lo
  | cons hlt hrest hne ih => exact le_of_lt (lt_of_lt_of_le hlt ih)

end Tiles

/-! ## Measures -/

section Measures

/-- The order of the integers, the one that computes. -/
local instance (priority := high) preorderInt : Preorder Int := Int.instLinearOrder.toPreorder

variable [DecidableEq V]

/-- For how long `f` is `v` in `[lo, hi)`. -/
def heldFor (f : Int → V) (v : V) (lo hi : Int) : Int :=
  ((Finset.Ico lo hi).filter fun t => f t = v).card

/-- In how many runs `f` is `v` in `[lo, hi)`: how often it begins to be. -/
def runsOf (f : Int → V) (v : V) (lo hi : Int) : Nat :=
  ((Finset.Ico lo hi).filter fun t => f t = v ∧ (t = lo ∨ f (t - 1) ≠ v)).card

/-- How long the spans of a state are together. -/
def totalOf (v : V) (spans : List (Span Int V)) : Int :=
  (spans.map fun s => if s.state = v then s.stop - s.start else 0).sum

variable {f : Int → V} {lo mid hi : Int} {v : V} {spans : List (Span Int V)}

theorem heldFor_add (f : Int → V) (v : V) (hlo : lo ≤ mid) (hhi : mid ≤ hi) :
    heldFor f v lo hi = heldFor f v lo mid + heldFor f v mid hi := by
  unfold heldFor
  rw [← Finset.Ico_union_Ico_eq_Ico hlo hhi, Finset.filter_union, Finset.card_union_of_disjoint]
  · exact Int.natCast_add _ _
  · exact Finset.disjoint_filter_filter (Finset.Ico_disjoint_Ico_consecutive lo mid hi)

theorem heldFor_const {w : V} (h : ∀ t, lo ≤ t → t < hi → f t = w) (hle : lo ≤ hi) :
    heldFor f v lo hi = if w = v then hi - lo else 0 := by
  unfold heldFor
  split
  · rename_i hw
    rw [Finset.filter_true_of_mem, Int.card_Ico, Int.toNat_of_nonneg (by omega)]
    intro t ht
    obtain ⟨hge, hlt⟩ := Finset.mem_Ico.mp ht
    exact (h t hge hlt).trans hw
  · rename_i hw
    rw [Finset.filter_false_of_mem, Finset.card_empty]
    · rfl
    · intro t ht
      obtain ⟨hge, hlt⟩ := Finset.mem_Ico.mp ht
      rw [h t hge hlt]
      exact hw

/-- **How long a value holds** is how long its spans are. -/
theorem heldFor_eq (htiles : Tiles lo hi spans) (hshows : Shows f spans) :
    heldFor f v lo hi = totalOf v spans := by
  induction htiles with
  | nil lo => simp [heldFor, totalOf]
  | @cons lo mid hi w spans hlt hrest hne ih =>
    obtain ⟨hfirst, hshows⟩ := List.forall_mem_cons.mp hshows
    rw [heldFor_add f v (le_of_lt hlt) hrest.le, heldFor_const hfirst (le_of_lt hlt), ih hshows]
    rfl

/-- The values together hold for the whole of the range. -/
theorem sum_heldFor [Fintype V] (f : Int → V) (hle : lo ≤ hi) :
    ∑ v, heldFor f v lo hi = hi - lo := by
  have hcard := Finset.card_eq_sum_card_fiberwise (f := f) (s := Finset.Ico lo hi)
    (t := Finset.univ) fun t _ => Finset.mem_coe.mpr (Finset.mem_univ (f t))
  rw [Int.card_Ico] at hcard
  unfold heldFor
  rw [← Nat.cast_sum, ← hcard, Int.toNat_of_nonneg (by omega)]

/-- A span of `w` is one run of `w` and none of another value. -/
theorem runsOf_const {w : V} (h : ∀ t, lo ≤ t → t < hi → f t = w) (hlt : lo < hi) :
    runsOf f v lo hi = if w = v then 1 else 0 := by
  unfold runsOf
  split
  · rename_i hw
    rw [Finset.card_eq_one]
    refine ⟨lo, Finset.ext fun t => ?_⟩
    rw [Finset.mem_filter, Finset.mem_Ico, Finset.mem_singleton]
    constructor
    · rintro ⟨⟨hge, hlt'⟩, -, hbegin⟩
      by_contra hne
      rcases hbegin with heq | hbefore
      · exact hne heq
      · exact hbefore ((h (t - 1) (by omega) (by omega)).trans hw)
    · rintro rfl
      exact ⟨⟨le_refl t, hlt⟩, (h t (le_refl t) hlt).trans hw, Or.inl rfl⟩
  · rename_i hw
    rw [Finset.card_eq_zero, Finset.filter_eq_empty_iff]
    rintro t ht ⟨hv, -⟩
    obtain ⟨hge, hlt'⟩ := Finset.mem_Ico.mp ht
    exact hw ((h t hge hlt').symm.trans hv)

/-- A range is cut where the state changes: no run goes across. -/
theorem runsOf_add (hlo : lo < mid) (hhi : mid ≤ hi) (hcut : mid < hi → f (mid - 1) ≠ f mid) :
    runsOf f v lo hi = runsOf f v lo mid + runsOf f v mid hi := by
  have hbehind : ((Finset.Ico mid hi).filter fun t => f t = v ∧ (t = lo ∨ f (t - 1) ≠ v)) =
      (Finset.Ico mid hi).filter fun t => f t = v ∧ (t = mid ∨ f (t - 1) ≠ v) := by
    apply Finset.filter_congr
    intro t ht
    obtain ⟨hge, hlt⟩ := Finset.mem_Ico.mp ht
    constructor
    · rintro ⟨hv, heq | hbefore⟩
      · omega
      · exact ⟨hv, Or.inr hbefore⟩
    · rintro ⟨hv, rfl | hbefore⟩
      · exact ⟨hv, Or.inr fun hback => hcut hlt (hback.trans hv.symm)⟩
      · exact ⟨hv, Or.inr hbefore⟩
  unfold runsOf
  rw [← hbehind, ← Finset.card_union_of_disjoint, ← Finset.filter_union,
    Finset.Ico_union_Ico_eq_Ico (le_of_lt hlo) hhi]
  exact Finset.disjoint_filter_filter (Finset.Ico_disjoint_Ico_consecutive lo mid hi)

/-- **The runs of a value** are its spans. -/
theorem runsOf_eq (htiles : Tiles lo hi spans) (hshows : Shows f spans) :
    runsOf f v lo hi = spans.countP fun s => s.state = v := by
  induction htiles with
  | nil lo => simp [runsOf]
  | @cons lo mid hi w spans hlt hrest hne ih =>
    obtain ⟨hfirst, hshows⟩ := List.forall_mem_cons.mp hshows
    have hcut : mid < hi → f (mid - 1) ≠ f mid := by
      intro hmid
      obtain ⟨⟩ | ⟨hlt', -, -⟩ := hrest
      · exact absurd hmid (lt_irrefl _)
      · rw [hfirst (mid - 1) (by show lo ≤ mid - 1; omega) (by show mid - 1 < mid; omega),
          hshows _ List.mem_cons_self mid (le_refl mid) hlt']
        exact hne _ rfl
    rw [runsOf_add hlt hrest.le hcut, runsOf_const hfirst hlt, ih hshows, List.countP_cons,
      Nat.add_comm]
    by_cases hw : w = v <;> simp [hw]

end Measures

end Air780eHub.Timeline
