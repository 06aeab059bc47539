/-
  Labelled machines, their runs and the invariant rules.

  A program that takes one step after another is given here as a `Machine`: a start condition and
  a PARTIAL step function.  The label of a step holds everything the program does not decide by
  itself (which task runs next, what the network delivers, what a failing call did), so the step
  function stays a function and a run can be computed.

  1. **Runs.**  `Path G s t` is a run from `s` to `t` all of whose steps meet the GUARD `G`, a
     condition on the state before the step and its label.  With the trivial guard it is just
     "`t` is reached from `s`".  `ReachableBy G t` starts the path in a start state.

  2. **The invariant rule.**  What holds at the start and is preserved by every guarded step
     holds in every state reached (`ReachableBy.invariant`).  `ReachableBy.bundle` is the same rule
     for a second property whose step lemma needs the first.

  3. **The relation rule.**  A reflexive and transitive relation that every step respects holds
     between the two ends of every run (`Path.relation`): what is only ever added is never lost.

  4. **Concrete runs.**  `run` folds a list of labels, and `run_reachable` turns a computed run
     into a reachability proof.  `runBy` also checks a decidable guard at every step.
-/
import Mathlib.Logic.Basic

namespace Air780eHub

universe u v w

/-- A start condition and a partial step function.  `step s a = none` says that the label `a` is
    not possible in `s`. -/
structure Machine (σ : Type u) (α : Type v) where
  /-- The states a run may begin in. -/
  Start : σ → Prop
  /-- One step under one label. -/
  step  : σ → α → Option σ

namespace Machine

variable {σ : Type u} {α : Type v} {τ : Type w} {M : Machine σ α} {G : σ → α → Prop}

/-! ## Runs -/

/-- The guard that every step meets. -/
def Always : σ → α → Prop := fun _ _ => True

/-- `M.Path G s t`: a run from `s` to `t` whose steps all meet `G`. -/
inductive Path (M : Machine σ α) (G : σ → α → Prop) (s : σ) : σ → Prop
  | refl : Path M G s s
  | snoc {t t' : σ} {a : α} :
      Path M G s t → G t a → M.step t a = some t' → Path M G s t'

/-- `M.ReachableBy G t`: some run from a start state to `t` meets `G` at every step. -/
def ReachableBy (M : Machine σ α) (G : σ → α → Prop) (t : σ) : Prop :=
  ∃ s, M.Start s ∧ M.Path G s t

/-- The states that some run reaches. -/
abbrev Reachable (M : Machine σ α) (t : σ) : Prop := M.ReachableBy Always t

theorem Path.trans {s t r : σ} (h₁ : M.Path G s t) (h₂ : M.Path G t r) : M.Path G s r := by
  induction h₂ with
  | refl => exact h₁
  | snoc _ hg hs ih => exact ih.snoc hg hs

/-- A run under a stronger guard is a run under a weaker one. -/
theorem Path.mono {G' : σ → α → Prop} (hG : ∀ s a, G s a → G' s a) {s t : σ}
    (h : M.Path G s t) : M.Path G' s t := by
  induction h with
  | refl => exact .refl
  | snoc _ hg hs ih => exact ih.snoc (hG _ _ hg) hs

theorem Path.single {s t : σ} {a : α} (hg : G s a) (hs : M.step s a = some t) :
    M.Path G s t :=
  Path.refl.snoc hg hs

theorem ReachableBy.start {s : σ} (h : M.Start s) : M.ReachableBy G s := ⟨s, h, .refl⟩

theorem ReachableBy.path {s t : σ} (h : M.ReachableBy G s) (hp : M.Path G s t) :
    M.ReachableBy G t := by
  obtain ⟨s₀, h₀, hp₀⟩ := h
  exact ⟨s₀, h₀, hp₀.trans hp⟩

theorem ReachableBy.reachable {s : σ} (h : M.ReachableBy G s) : M.Reachable s := by
  obtain ⟨s₀, h₀, hp⟩ := h
  exact ⟨s₀, h₀, hp.mono fun _ _ _ => trivial⟩

/-! ## The invariant rule -/

/-- What every guarded step preserves, a whole run preserves. -/
theorem Path.invariant {I : σ → Prop}
    (hstep : ∀ s a s', I s → G s a → M.step s a = some s' → I s')
    {s t : σ} (h : M.Path G s t) (hs : I s) : I t := by
  induction h with
  | refl => exact hs
  | snoc _ hg hst ih => exact hstep _ _ _ ih hg hst

/-- **The invariant rule.**  What holds at the start and is preserved by every guarded step holds
    in every state reached. -/
theorem ReachableBy.invariant {I : σ → Prop} (hstart : ∀ s, M.Start s → I s)
    (hstep : ∀ s a s', I s → G s a → M.step s a = some s' → I s')
    {t : σ} (h : M.ReachableBy G t) : I t := by
  obtain ⟨s, h₀, hp⟩ := h
  exact hp.invariant hstep (hstart s h₀)

/-- The invariant rule for a second property `J` whose step may use an established one, `I`, in
    the state before the step. -/
theorem ReachableBy.bundle {I J : σ → Prop} (hI : ∀ s, M.ReachableBy G s → I s)
    (hstart : ∀ s, M.Start s → J s)
    (hstep : ∀ s a s', I s → J s → G s a → M.step s a = some s' → J s')
    {t : σ} (h : M.ReachableBy G t) : J t := by
  obtain ⟨s, h₀, hp⟩ := h
  induction hp with
  | refl => exact hstart s h₀
  | snoc hp hg hst ih => exact hstep _ _ _ (hI _ ⟨s, h₀, hp⟩) ih hg hst

/-! ## The relation rule -/

/-- **The relation rule.**  A reflexive and transitive relation that every step respects holds
    between the two ends of a run. -/
theorem Path.relation {R : σ → σ → Prop} (hrefl : ∀ s, R s s)
    (htrans : ∀ s t r, R s t → R t r → R s r)
    (hstep : ∀ s a s', G s a → M.step s a = some s' → R s s')
    {s t : σ} (h : M.Path G s t) : R s t := by
  induction h with
  | refl => exact hrefl s
  | snoc _ hg hst ih => exact htrans _ _ _ ih (hstep _ _ _ hg hst)

/-- The relation rule from a reachable state on, where the steps may use an invariant `I` that
    is itself preserved. -/
theorem Path.relation_of_invariant {I : σ → Prop} {R : σ → σ → Prop} (hrefl : ∀ s, R s s)
    (htrans : ∀ s t r, R s t → R t r → R s r)
    (hI : ∀ s a s', I s → G s a → M.step s a = some s' → I s')
    (hstep : ∀ s a s', I s → G s a → M.step s a = some s' → R s s')
    {s t : σ} (h : M.Path G s t) (hs : I s) : R s t := by
  induction h with
  | refl => exact hrefl s
  | snoc hp hg hst ih => exact htrans _ _ _ ih (hstep _ _ _ (hp.invariant hI hs) hg hst)

/-! ## Concrete runs -/

/-- Follow a list of labels. -/
def run (M : Machine σ α) (s : σ) : List α → Option σ
  | [] => some s
  | a :: as => match M.step s a with
    | none    => none
    | some s' => run M s' as

/-- Follow a list of labels, checking the guard `g` before every step. -/
def runBy (M : Machine σ α) (g : σ → α → Bool) (s : σ) : List α → Option σ
  | [] => some s
  | a :: as => if g s a then
      match M.step s a with
      | none    => none
      | some s' => runBy M g s' as
    else none

theorem run_path {s t : σ} {as : List α} (h : M.run s as = some t) : M.Path Always s t := by
  induction as generalizing s with
  | nil => cases h; exact .refl
  | cons a as ih =>
    rw [run] at h
    cases hs : M.step s a with
    | none => simp [hs] at h
    | some s' =>
      rw [hs] at h
      exact (Path.single trivial hs).trans (ih h)

theorem runBy_path {g : σ → α → Bool} {s t : σ} {as : List α}
    (h : M.runBy g s as = some t) : M.Path (fun s a => g s a = true) s t := by
  induction as generalizing s with
  | nil => cases h; exact .refl
  | cons a as ih =>
    rw [runBy] at h
    by_cases hg : g s a = true
    · rw [if_pos hg] at h
      cases hs : M.step s a with
      | none => simp [hs] at h
      | some s' =>
        rw [hs] at h
        exact (Path.single (G := fun s a => g s a = true) hg hs).trans (ih h)
    · rw [if_neg hg] at h; cases h

/-- A run that passed the checks is a run. -/
theorem run_of_runBy {g : σ → α → Bool} {s t : σ} {as : List α}
    (h : M.runBy g s as = some t) : M.run s as = some t := by
  induction as generalizing s with
  | nil => exact h
  | cons a as ih =>
    rw [runBy] at h
    rw [run]
    by_cases hg : g s a = true
    · rw [if_pos hg] at h
      cases hs : M.step s a with
      | none => simp [hs] at h
      | some s' =>
        rw [hs] at h
        exact ih h
    · rw [if_neg hg] at h; cases h

/-- A computed run from a start state reaches its last state. -/
theorem run_reachable {s t : σ} {as : List α} (h₀ : M.Start s) (h : M.run s as = some t) :
    M.Reachable t :=
  ⟨s, h₀, run_path h⟩

end Machine

end Air780eHub
