/-
  Work in steps that may be interrupted anywhere and is begun again from its first step.

  Every step is committed whole or not at all, and leaves a mark: where its mark stands it does
  nothing.  An attempt goes through the steps in order and stops after any number of them.

  1. **Steps**, complete runs and attempts.
  2. **`complete_of_attempt`**: when no step takes away the mark of another, an interrupted attempt
     changes nothing about where a complete run leads.
  3. **Invariants** of attempts.
  4. **`Does P us m`**: from a database with `P` the session `m`, whatever fails, leaves on the disk
     what an attempt at `us` leaves, and where it returns, what a complete run leaves.
-/
import Mathlib.Data.List.Basic
import Air780eHub.Lib.Programs

namespace Air780eHub.Resume

variable {σ ε : Type}

/-! ## Steps -/

/-- A step: what it does to the stored state, and the mark by which it knows that it is done. -/
structure Step (σ ε : Type) where
  run   : σ → Except ε σ
  mark  : σ → Prop
  marks : ∀ s s', run s = .ok s' → mark s'
  idle  : ∀ s, mark s → run s = .ok s

/-- All the steps, one after the other, until one raises. -/
def complete : List (Step σ ε) → σ → Except ε σ
  | [], s      => .ok s
  | u :: us, s => match u.run s with
    | .error e => .error e
    | .ok s'   => complete us s'

/-- An attempt that stops after some of the steps. -/
inductive Attempt : List (Step σ ε) → σ → σ → Prop
  | stop {us : List (Step σ ε)} {s : σ} : Attempt us s s
  | next {u : Step σ ε} {us : List (Step σ ε)} {s s' t : σ} :
      u.run s = .ok s' → Attempt us s' t → Attempt (u :: us) s t

/-- No step takes away the mark of another. -/
def Keeps (us : List (Step σ ε)) : Prop :=
  ∀ u ∈ us, ∀ v ∈ us, ∀ s s', u.mark s → v.run s = .ok s' → u.mark s'

variable {us vs : List (Step σ ε)} {s s' t r : σ}

/-- Steps that only lead forward, and marks that stay on the way forward. -/
theorem Keeps.of_relation {R : σ → σ → Prop}
    (hrun : ∀ u ∈ us, ∀ s s', u.run s = .ok s' → R s s')
    (hmark : ∀ u ∈ us, ∀ s s', R s s' → u.mark s → u.mark s') : Keeps us :=
  fun u hu v hv s s' hs hrun' => hmark u hu s s' (hrun v hv s s' hrun') hs

theorem complete_append (us vs : List (Step σ ε)) (s : σ) :
    complete (us ++ vs) s = match complete us s with
      | .error e => .error e
      | .ok s'   => complete vs s' := by
  induction us generalizing s with
  | nil => rfl
  | cons u us ih =>
    rw [List.cons_append, complete, complete]
    cases u.run s with
    | error e => rfl
    | ok s' => exact ih s'

theorem complete_append_ok (h : complete us s = .ok s') :
    complete (us ++ vs) s = complete vs s' := by
  rw [complete_append, h]

/-- Where all the marks stand there is nothing left to do. -/
theorem complete_idle (h : ∀ u ∈ us, u.mark s) : complete us s = .ok s := by
  induction us with
  | nil => rfl
  | cons u us ih =>
    rw [complete, u.idle s (h u List.mem_cons_self)]
    exact ih fun v hv => h v (List.mem_cons_of_mem _ hv)

/-! ## Interrupted attempts -/

/-- A complete run is an attempt. -/
theorem Attempt.of_complete (h : complete us s = .ok t) : Attempt us s t := by
  induction us generalizing s with
  | nil =>
    cases h
    exact .stop
  | cons u us ih =>
    rw [complete] at h
    cases hu : u.run s with
    | error e =>
      rw [hu] at h
      cases h
    | ok s' =>
      rw [hu] at h
      exact .next hu (ih h)

/-- An attempt at the first steps is an attempt at all of them. -/
theorem Attempt.append (h : Attempt us s t) : Attempt (us ++ vs) s t := by
  induction h with
  | stop => exact .stop
  | next hu _ ih => exact .next hu ih

/-- An attempt at steps in two parts: it stops in the first one, or completes it and goes on. -/
theorem Attempt.split (h : Attempt (us ++ vs) s t) :
    Attempt us s t ∨ ∃ r, complete us s = .ok r ∧ Attempt vs r t := by
  induction us generalizing s with
  | nil => exact .inr ⟨s, rfl, h⟩
  | cons u us ih =>
    cases h with
    | stop => exact .inl .stop
    | next hu hrest =>
      rcases ih hrest with h | ⟨r, hr, h⟩
      · exact .inl (.next hu h)
      · refine .inr ⟨r, ?_, h⟩
        rw [complete, hu]
        exact hr

/-- A complete run of the first steps and an attempt at the others. -/
theorem Attempt.trans (hr : complete us s = .ok r) (h : Attempt vs r t) :
    Attempt (us ++ vs) s t := by
  induction us generalizing s with
  | nil =>
    cases hr
    exact h
  | cons u us ih =>
    rw [complete] at hr
    cases hu : u.run s with
    | error e =>
      rw [hu] at hr
      cases hr
    | ok s' =>
      rw [hu] at hr
      exact .next hu (ih hr)

/-- After an attempt at the rest of the steps, beginning again leads where the rest leads: what is
    done stays marked. -/
theorem complete_of_rest (done : List (Step σ ε)) (hk : Keeps (done ++ us))
    (hdone : ∀ u ∈ done, u.mark s) (h : Attempt us s t) :
    complete (done ++ us) t = complete us s := by
  induction h generalizing done with
  | stop => exact complete_append_ok (complete_idle hdone)
  | @next u us s s' t hu _ ih =>
    have hlist : done ++ u :: us = (done ++ [u]) ++ us := by rw [List.append_assoc]; rfl
    rw [hlist, complete, hu]
    refine ih (done ++ [u]) (hlist ▸ hk) fun v hv => ?_
    rcases List.mem_append.mp hv with hv | hv
    · exact hk v (List.mem_append_left _ hv) u (List.mem_append_right _ List.mem_cons_self) s s'
        (hdone v hv) hu
    · obtain rfl := List.mem_singleton.mp hv
      exact v.marks s s' hu

/-- **Interruptions do not matter.**  After an attempt that was interrupted, a complete run leads
    where it would have led at once. -/
theorem complete_of_attempt (hk : Keeps us) (h : Attempt us s t) : complete us t = complete us s :=
  complete_of_rest [] hk (List.forall_mem_nil _) h

/-- A complete run leaves every mark. -/
theorem marks_of_complete (hk : Keeps us) (h : complete us s = .ok t) : ∀ u ∈ us, u.mark t := by
  have hgo : ∀ (vs done : List (Step σ ε)) (s : σ), Keeps (done ++ vs) → (∀ u ∈ done, u.mark s) →
      complete vs s = .ok t → ∀ u ∈ done ++ vs, u.mark t := by
    intro vs
    induction vs with
    | nil =>
      intro done s _ hdone h
      cases h
      rwa [List.append_nil]
    | cons v vs ih =>
      intro done s hk hdone h
      rw [complete] at h
      cases hv : v.run s with
      | error e =>
        rw [hv] at h
        cases h
      | ok s' =>
        rw [hv] at h
        have hlist : done ++ v :: vs = (done ++ [v]) ++ vs := by rw [List.append_assoc]; rfl
        rw [hlist] at hk ⊢
        refine ih (done ++ [v]) s' hk (fun u hu => ?_) h
        rcases List.mem_append.mp hu with hu | hu
        · exact hk u (List.mem_append_left _ (List.mem_append_left _ hu)) v
            (List.mem_append_left _ (List.mem_append_right _ (List.mem_singleton_self _))) s s'
            (hdone u hu) hv
        · obtain rfl := List.mem_singleton.mp hu
          exact u.marks s s' hv
  exact hgo us [] s hk (List.forall_mem_nil _) h

/-! ## Invariants -/

/-- What every step keeps, an attempt keeps. -/
theorem Attempt.invariant {I : σ → Prop} (hI : ∀ u ∈ us, ∀ s s', I s → u.run s = .ok s' → I s')
    (h : Attempt us s t) (hs : I s) : I t := by
  induction h with
  | stop => exact hs
  | next hu _ ih =>
    exact ih (fun v hv => hI v (List.mem_cons_of_mem _ hv)) (hI _ List.mem_cons_self _ _ hs hu)

/-! ## Sessions -/

section Sessions

open Autocommit

/-- What a session left of the steps.  When it is cut off what is not committed is lost, so only the
    disk counts; with no faults to come it gets through. -/
structure Outcome (us : List (Step σ ε)) (c : Connection σ ε)
    (r : Except ε PUnit × Connection σ ε) : Prop where
  attempt : Attempt us c.disk r.2.disk
  done    : r.1 = .ok ⟨⟩ → r.2.work = none ∧ complete us c.disk = .ok r.2.disk
  sure    : c.faults = [] → ∀ t, complete us c.disk = .ok t → r.1 = .ok ⟨⟩ ∧ r.2.faults = []

/-- What raised has not returned. -/
theorem raised_ne_ok {α : Type} {e : ε} {a : α} : (Except.error e : Except ε α) ≠ .ok a := by
  intro h
  cases h

/-- The session does the steps, as far as it gets. -/
def Does (P : σ → Prop) (us : List (Step σ ε)) (m : Session σ ε PUnit) : Prop :=
  ∀ c, c.work = none → P c.disk → Outcome us c (m c)

namespace Does

variable {P Q : σ → Prop} {m n : Session σ ε PUnit} {u : Step σ ε}

/-- Where all the marks stand. -/
theorem idle (h : ∀ s, P s → ∀ u ∈ us, u.mark s) : Does P us (Pure.pure ⟨⟩) := by
  intro c hc hp
  have hidle := complete_idle (h _ hp)
  exact ⟨.stop, fun _ => ⟨hc, hidle⟩, fun hf _ _ => ⟨rfl, hf⟩⟩

theorem pure : Does P ([] : List (Step σ ε)) (Pure.pure ⟨⟩) := idle fun _ _ => List.forall_mem_nil _

/-- Raising, where the steps do not get through either. -/
theorem throw {e : ε} (h : ∀ s, P s → ∀ t, complete us s ≠ .ok t) :
    Does P us (MonadExcept.throw e) := by
  intro c _ hp
  exact ⟨.stop, (absurd · raised_ne_ok), fun _ t ht => absurd ht (h _ hp t)⟩

theorem mono (h : Does Q us m) (hP : ∀ s, P s → Q s) : Does P us m :=
  fun c hc hp => h c hc (hP _ hp)

theorem seq (hm : Does P us m) (hQ : ∀ s s', P s → complete us s = .ok s' → Q s')
    (hn : Does Q vs n) : Does P (us ++ vs) (m >>= fun _ => n) := by
  intro c hc hp
  obtain ⟨hatt, hok, hsure⟩ := hm c hc hp
  rw [bind_apply]
  generalize m c = r at hatt hok hsure
  obtain ⟨x, c₁⟩ := r
  cases x with
  | error e =>
    refine ⟨hatt.append, (absurd · raised_ne_ok), fun hf t ht => ?_⟩
    rw [complete_append] at ht
    cases hus : complete us c.disk with
    | error e =>
      rw [hus] at ht
      cases ht
    | ok s' => exact absurd (hsure hf s' hus).1 raised_ne_ok
  | ok a =>
    obtain ⟨hc₁, hcomplete⟩ := hok rfl
    obtain ⟨hatt', hok', hsure'⟩ := hn c₁ hc₁ (hQ _ _ hp hcomplete)
    refine ⟨Attempt.trans hcomplete hatt', fun ha => ?_, fun hf t ht => ?_⟩
    · obtain ⟨hwork, hdone⟩ := hok' ha
      exact ⟨hwork, (complete_append_ok hcomplete).trans hdone⟩
    · rw [complete_append_ok hcomplete] at ht
      exact hsure' (hsure hf _ hcomplete).2 t ht

/-- A step that has nothing to do. -/
theorem skip (hu : ∀ s, P s → u.mark s) (hm : Does P us m) : Does P (u :: us) m := by
  intro c hc hp
  obtain ⟨hatt, hok, hsure⟩ := hm c hc hp
  have hidle := u.idle c.disk (hu _ hp)
  have hcons : complete (u :: us) c.disk = complete us c.disk := by rw [complete, hidle]
  refine ⟨.next hidle hatt, fun ha => ?_, fun hf t ht => hsure hf t (hcons ▸ ht)⟩
  obtain ⟨hwork, hdone⟩ := hok ha
  exact ⟨hwork, hcons.trans hdone⟩

/-- A statement outside a transaction. -/
theorem execute {f : σ → Except ε (PUnit × σ)} (hf : ∀ s, P s → u.run s = (f s).map Prod.snd) :
    Does P [u] (execute f) := by
  intro c hc hp
  have hnow : c.now = c.disk := by rw [Connection.now, hc]; rfl
  have hrun := hf c.disk hp
  unfold Autocommit.execute
  cases hfault : c.fault with
  | some e =>
    refine ⟨.stop, (absurd · raised_ne_ok), fun hnone => ?_⟩
    rw [Connection.fault, hnone] at hfault
    cases hfault
  | none =>
    rw [hnow]
    cases hfs : f c.disk with
    | error e =>
      rw [hfs] at hrun
      refine ⟨.stop, (absurd · raised_ne_ok), fun _ t ht => ?_⟩
      rw [complete, hrun] at ht
      cases ht
    | ok r =>
      have hwrite : c.used.write r.2 = ⟨r.2, none, c.used.faults⟩ := by
        simp only [Connection.write, show c.used.work = none from hc]
      rw [hfs] at hrun
      dsimp only
      rw [hwrite]
      refine ⟨.next hrun .stop, fun _ => ⟨rfl, ?_⟩, fun hnone _ _ => ⟨rfl, ?_⟩⟩
      · rw [complete, hrun]
        rfl
      · show c.faults.tail = []
        rw [hnone]
        rfl

/-- A query that decides how to go on. -/
theorem read {α : Type} {g : σ → α} {k : α → Session σ ε PUnit}
    (hk : ∀ a, Does (fun s => P s ∧ g s = a) us (k a)) :
    Does P us (Autocommit.execute (fun s => .ok (g s, s)) >>= k) := by
  intro c hc hp
  have hnow : c.now = c.disk := by rw [Connection.now, hc]; rfl
  rw [bind_apply]
  unfold Autocommit.execute
  cases hfault : c.fault with
  | some e =>
    refine ⟨.stop, (absurd · raised_ne_ok), fun hnone => ?_⟩
    rw [Connection.fault, hnone] at hfault
    cases hfault
  | none =>
    have hwrite : c.used.write c.disk = ⟨c.disk, none, c.faults.tail⟩ := by
      simp only [Connection.write, show c.used.work = none from hc]
      rfl
    dsimp only
    rw [hnow, hwrite]
    obtain ⟨hatt, hok, hsure⟩ := hk (g c.disk) ⟨c.disk, none, c.faults.tail⟩ rfl ⟨hp, rfl⟩
    refine ⟨hatt, hok, fun hnone t ht => hsure ?_ t ht⟩
    show c.faults.tail = []
    rw [hnone]
    rfl

end Does

end Sessions

end Air780eHub.Resume
