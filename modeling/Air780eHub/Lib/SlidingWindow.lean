/-
  Rate limits over a sliding window.

  A limiter lets an event through when it remembers fewer than `n` events of the last `w` and the
  last one is at least `c` old.  What it remembers may forget events that are older than `w`.
  1. `Limited`, `Apart`: what a limiter promises of the list of all events.
  2. `Remembers w now all kept`: at time `now` the list `kept` holds every event of `all` that is not
     older than `w`.  Time may go on, and what is old may be dropped from the front or filtered out.
  3. The two rules: an event that the remembered list lets through keeps `Limited` and `Apart`.
-/
import Mathlib.Algebra.Order.Group.Defs
import Mathlib.Algebra.Order.Group.Unbundled.Basic
import Mathlib.Data.List.TakeWhile
import Mathlib.Order.Basic

namespace Air780eHub

universe u

section SlidingWindow

variable {τ : Type u} [AddCommGroup τ] [LinearOrder τ]

/-- At most `n` events in every half-open window of length `w`. -/
def Limited (n : Nat) (w : τ) (all : List τ) : Prop :=
  ∀ t, (all.filter fun x => decide (t ≤ x ∧ x < t + w)).length ≤ n

/-- Every event comes at least `d` after every earlier one. -/
def Apart (d : τ) (all : List τ) : Prop := all.Pairwise fun a b => d ≤ b - a

/-- At time `now`, `kept` is the part of `all` from some event on, and what comes before is at least
    `w` old. -/
structure Remembers (w now : τ) (all kept : List τ) : Prop where
  split  : ∃ old, all = old ++ kept ∧ ∀ x ∈ old, w ≤ now - x
  sorted : all.Pairwise (· ≤ ·)
  past   : ∀ x ∈ all, x ≤ now

variable {w now : τ} {all kept : List τ}

theorem Remembers.nil : Remembers w now ([] : List τ) [] :=
  ⟨⟨[], rfl, fun _ hx => absurd hx List.not_mem_nil⟩, .nil, fun _ hx => absurd hx List.not_mem_nil⟩

theorem Remembers.kept_past (h : Remembers w now all kept) : ∀ x ∈ kept, x ≤ now := by
  obtain ⟨old, hsplit, -⟩ := h.split
  exact fun x hx => h.past x (hsplit ▸ List.mem_append_right _ hx)

theorem Remembers.kept_sorted (h : Remembers w now all kept) : kept.Pairwise (· ≤ ·) := by
  obtain ⟨old, hsplit, -⟩ := h.split
  exact (List.pairwise_append.mp (hsplit ▸ h.sorted)).2.1

/-- Dropping events from the front that are at least `w` old. -/
theorem Remembers.drop (h : Remembers w now all kept) {front rest : List τ}
    (hkept : kept = front ++ rest) (hfront : ∀ x ∈ front, w ≤ now - x) :
    Remembers w now all rest := by
  obtain ⟨old, hsplit, hold⟩ := h.split
  refine ⟨⟨old ++ front, by rw [hsplit, hkept, List.append_assoc], fun x hx => ?_⟩, h.sorted, h.past⟩
  rcases List.mem_append.mp hx with hx | hx
  · exact hold x hx
  · exact hfront x hx

/-- The event of this moment is recorded in both lists. -/
theorem Remembers.record (h : Remembers w now all kept) :
    Remembers w now (all ++ [now]) (kept ++ [now]) := by
  obtain ⟨old, hsplit, hold⟩ := h.split
  refine ⟨⟨old, by rw [hsplit, List.append_assoc], hold⟩, ?_, fun x hx => ?_⟩
  · refine List.pairwise_append.mpr ⟨h.sorted, List.pairwise_singleton _ _, fun x hx y hy => ?_⟩
    rw [List.mem_singleton.mp hy]
    exact h.past x hx
  · rcases List.mem_append.mp hx with hx | hx
    · exact h.past x hx
    · exact (List.mem_singleton.mp hx).le

/-- An age is in the window. -/
def inWindow (w now x : τ) : Bool := decide (0 ≤ now - x ∧ now - x < w)

variable [IsOrderedAddMonoid τ]

theorem Remembers.later {now' : τ} (h : Remembers w now all kept) (hle : now ≤ now') :
    Remembers w now' all kept := by
  obtain ⟨old, hsplit, hold⟩ := h.split
  refine ⟨⟨old, hsplit, fun x hx => ?_⟩, h.sorted, fun x hx => (h.past x hx).trans hle⟩
  exact (hold x hx).trans (sub_le_sub_right hle x)

theorem inWindow_eq_false {x : τ} (hx : x ≤ now) : inWindow w now x = false ↔ w ≤ now - x := by
  have hpos : 0 ≤ now - x := sub_nonneg.mpr hx
  simp [inWindow, hpos]

/-- Removing old events from the front while there are any. -/
theorem Remembers.dropWhile (h : Remembers w now all kept) :
    Remembers w now all (kept.dropWhile fun x => !inWindow w now x) := by
  refine h.drop List.takeWhile_append_dropWhile.symm fun x hx => ?_
  have hbad := List.mem_takeWhile_imp hx
  have hpast := h.kept_past x (List.takeWhile_subset _ hx)
  exact (inWindow_eq_false hpast).mp (by simpa using hbad)

/-- In an ascending list the events outside the window are a front part. -/
theorem filter_eq_dropWhile (hs : kept.Pairwise (· ≤ ·)) (hpast : ∀ x ∈ kept, x ≤ now) :
    kept.filter (inWindow w now) = kept.dropWhile fun x => !inWindow w now x := by
  induction kept with
  | nil => rfl
  | cons a l ih =>
    obtain ⟨ha, hl⟩ := List.pairwise_cons.mp hs
    have hpl := fun x hx => hpast x (List.mem_cons_of_mem a hx)
    cases hin : inWindow w now a with
    | false =>
      rw [List.filter_cons_of_neg (by simp [hin]), List.dropWhile_cons_of_pos (by simp [hin])]
      exact ih hl hpl
    | true =>
      rw [List.filter_cons_of_pos hin, List.dropWhile_cons_of_neg (by simp [hin])]
      congr 1
      refine List.filter_eq_self.mpr fun x hx => ?_
      have hage : now - x ≤ now - a := sub_le_sub_left (ha x hx) now
      have hpos : 0 ≤ now - x := sub_nonneg.mpr (hpl x hx)
      rw [inWindow, decide_eq_true_eq] at hin ⊢
      exact ⟨hpos, hage.trans_lt hin.2⟩

/-- Keeping only the events of the window. -/
theorem Remembers.filter (h : Remembers w now all kept) :
    Remembers w now all (kept.filter (inWindow w now)) := by
  rw [filter_eq_dropWhile h.kept_sorted h.kept_past]
  exact h.dropWhile

/-- **The window rule.**  An event let through while fewer than `n` are remembered keeps the limit. -/
theorem Limited.record {n : Nat} (h : Limited n w all) (hrem : Remembers w now all kept)
    (hlen : kept.length < n) : Limited n w (all ++ [now]) := by
  intro t
  rw [List.filter_append, List.length_append]
  by_cases ht : t ≤ now ∧ now < t + w
  · -- the window holds this moment, so everything before the remembered part lies outside it
    obtain ⟨old, hsplit, hold⟩ := hrem.split
    have hnone : (old.filter fun x => decide (t ≤ x ∧ x < t + w)) = [] := by
      refine List.filter_eq_nil_iff.mpr fun x hx hin => ?_
      have hage := hold x hx
      have htx := (of_decide_eq_true hin).1
      have hlt : now - x < w := by
        have h₁ : now - x ≤ now - t := sub_le_sub_left htx now
        have h₂ : now - t < w := sub_lt_iff_lt_add'.mpr ht.2
        exact h₁.trans_lt h₂
      exact absurd hage (not_le.mpr hlt)
    have hkept := List.length_filter_le (fun x => decide (t ≤ x ∧ x < t + w)) kept
    have hone := List.length_filter_le (fun x => decide (t ≤ x ∧ x < t + w)) [now]
    rw [hsplit, List.filter_append, hnone, List.nil_append]
    simp only [List.length_singleton] at hone
    omega
  · have hzero : ([now].filter fun x => decide (t ≤ x ∧ x < t + w)) = [] := by
      rw [List.filter_cons_of_neg (by simpa using ht), List.filter_nil]
    rw [hzero]
    exact h t

/-- **The distance rule.**  An event let through when the last remembered one is at least `c` old
    keeps the smaller of `c` and `w` between events. -/
theorem Apart.record {c : τ} (h : Apart (min c w) all) (hrem : Remembers w now all kept)
    (hlast : ∀ x ∈ kept.getLast?, c ≤ now - x) : Apart (min c w) (all ++ [now]) := by
  refine List.pairwise_append.mpr ⟨h, List.pairwise_singleton _ _, fun x hx y hy => ?_⟩
  rw [List.mem_singleton.mp hy]
  obtain ⟨old, hsplit, hold⟩ := hrem.split
  rw [hsplit] at hx
  rcases List.mem_append.mp hx with hx | hx
  · exact (min_le_right c w).trans (hold x hx)
  · refine (min_le_left c w).trans ?_
    -- the last remembered event is the latest of them
    rcases List.eq_nil_or_concat kept with rfl | ⟨front, last, hk⟩
    · cases hx
    · rw [List.concat_eq_append] at hk
      subst hk
      have hc := hlast last (by simp)
      have hle : x ≤ last := by
        rcases List.mem_append.mp hx with hx | hx
        · exact (List.pairwise_append.mp hrem.kept_sorted).2.2 x hx last (List.mem_singleton_self _)
        · exact (List.mem_singleton.mp hx).le
      exact hc.trans (sub_le_sub_left hle now)

end SlidingWindow

end Air780eHub
