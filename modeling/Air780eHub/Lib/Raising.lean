/-
  Programs that change a state and may raise, and the rules for what they never raise.

  A program is a `StateT σ (Except ε)`.  `Avoids bad P m Q` says: from every state with `P` the
  program does not raise an exception that is `bad`, and where it returns, its value and the
  state it leaves have `Q`.  Exceptions that are not bad may end it at any point, which is what
  makes the rules short: a step that can only raise something harmless costs nothing.

  1. **The rules**: `pure`, `throw`, sequencing, branching, consequence, reading the state, and a
     loop over a list with its invariant.
  2. **Raising and returning**: a program whose first step raises, raises; one that returns has
     returned from each of its steps.
  3. **Agreement**: a program whose steps could raise more than those of another, and does what the
     other does.
-/
import Mathlib.Data.List.Basic

namespace Air780eHub

universe u v w x

variable {σ : Type u} {ε : Type v} {α β : Type u}

/-- From a state with `P`, `m` raises no `bad` exception, and where it returns `Q` holds. -/
def Avoids (bad : ε → Prop) (P : σ → Prop) (m : StateT σ (Except ε) α) (Q : α → σ → Prop) : Prop :=
  ∀ s, P s → match m s with
    | .ok (a, s') => Q a s'
    | .error e    => ¬ bad e

namespace Avoids

variable {bad : ε → Prop} {P P' : σ → Prop} {Q Q' : α → σ → Prop} {R : β → σ → Prop}

/-! ## The rules -/

theorem pure {a : α} (h : ∀ s, P s → Q a s) : Avoids bad P (Pure.pure a) Q := h

theorem throw {e : ε} (h : ¬ bad e) : Avoids bad P (MonadExcept.throw e : StateT σ (Except ε) α) Q :=
  fun _ _ => h

/-- Sequencing: what the first program leaves is what the second starts from. -/
theorem bind {m : StateT σ (Except ε) α} {f : α → StateT σ (Except ε) β} (hm : Avoids bad P m Q)
    (hf : ∀ a, Avoids bad (Q a) (f a) R) : Avoids bad P (m >>= f) R := by
  intro s hs
  have h := hm s hs
  show match (m s >>= fun p => f p.1 p.2 : Except ε (β × σ)) with
    | .ok (a, s') => R a s'
    | .error e    => ¬ bad e
  cases hr : m s with
  | error e =>
    rw [hr] at h
    exact h
  | ok p =>
    obtain ⟨a, s'⟩ := p
    rw [hr] at h
    exact hf a s' h

/-- Consequence. -/
theorem mono {m : StateT σ (Except ε) α} (h : Avoids bad P m Q) (hP : ∀ s, P' s → P s)
    (hQ : ∀ a s, Q a s → Q' a s) : Avoids bad P' m Q' := by
  intro s hs
  have h' := h s (hP s hs)
  cases hr : m s with
  | error e => rw [hr] at h'; exact h'
  | ok p => rw [hr] at h'; exact hQ p.1 p.2 h'

theorem pre {m : StateT σ (Except ε) α} (h : Avoids bad P m Q) (hP : ∀ s, P' s → P s) :
    Avoids bad P' m Q := h.mono hP fun _ _ h => h

theorem post {m : StateT σ (Except ε) α} (h : Avoids bad P m Q) (hQ : ∀ a s, Q a s → Q' a s) :
    Avoids bad P m Q' := h.mono (fun _ h => h) hQ

theorem ite {c : Prop} [Decidable c] {m n : StateT σ (Except ε) α} (hm : c → Avoids bad P m Q)
    (hn : ¬ c → Avoids bad P n Q) : Avoids bad P (if c then m else n) Q := by
  by_cases hc : c
  · rw [if_pos hc]; exact hm hc
  · rw [if_neg hc]; exact hn hc

/-- A program that reads the state and decides what to do. -/
theorem get {f : σ → StateT σ (Except ε) β} (h : ∀ s, P s → Avoids bad (· = s) (f s) R) :
    Avoids bad P (MonadState.get >>= f) R :=
  fun s hs => h s hs s rfl

/-- A fact that does not look at the state, out of the precondition. -/
theorem assume {p : Prop} {m : StateT σ (Except ε) α} (hp : ∀ s, P s → p)
    (h : p → Avoids bad P m Q) : Avoids bad P m Q :=
  fun s hs => h (hp s hs) s hs

/-- A computation without a state that returns. -/
theorem compute {x : Except ε α} {a : α} {f : α → StateT σ (Except ε) β} (hx : x = .ok a)
    (h : Avoids bad P (f a) R) : Avoids bad P (liftM x >>= f) R := by
  subst hx
  exact h

/-- A loop over a list: `I` holds of the part that is done. -/
theorem forM {γ : Type w} {f : γ → StateT σ (Except ε) PUnit} {I : List γ → σ → Prop}
    {xs : List γ}
    (h : ∀ done x rest, xs = done ++ x :: rest → Avoids bad (I done) (f x) fun _ => I (done ++ [x])) :
    Avoids bad (I []) (xs.forM f) fun _ => I xs := by
  have hgo : ∀ rest done, xs = done ++ rest → Avoids bad (I done) (rest.forM f) fun _ => I xs := by
    intro rest
    induction rest with
    | nil =>
      intro done he
      rw [List.append_nil] at he
      exact pure fun s hs => he ▸ hs
    | cons x rest ih =>
      intro done he
      exact bind (h done x rest he) fun _ => ih (done ++ [x]) (by rw [he, List.append_assoc]; rfl)
  exact hgo xs [] rfl

end Avoids

/-! ## Raising and returning -/

/-- A program whose first step raises, raises. -/
theorem bind_error {m : StateT σ (Except ε) α} {f : α → StateT σ (Except ε) β} {s : σ} {e : ε}
    (h : m s = .error e) : (m >>= f) s = .error e := by
  show (m s >>= fun p => f p.1 p.2 : Except ε (β × σ)) = .error e
  rw [h]
  rfl

/-- A program that returns has returned from its first step. -/
theorem of_bind_ok {m : StateT σ (Except ε) α} {f : α → StateT σ (Except ε) β} {s s' : σ} {b : β}
    (h : (m >>= f) s = .ok (b, s')) : ∃ a s₁, m s = .ok (a, s₁) ∧ f a s₁ = .ok (b, s') := by
  have hb : (m s >>= fun p => f p.1 p.2 : Except ε (β × σ)) = .ok (b, s') := h
  cases hr : m s with
  | error e => rw [hr] at hb; cases hb
  | ok p =>
    rw [hr] at hb
    exact ⟨p.1, p.2, rfl, hb⟩

/-- The same of a computation that has no state. -/
theorem of_except_bind_ok {x : Except ε α} {f : α → Except ε β} {b : β} (h : (x >>= f) = .ok b) :
    ∃ a, x = .ok a ∧ f a = .ok b := by
  cases x with
  | error e => cases h
  | ok a => exact ⟨a, rfl, h⟩

/-! ## Agreement -/

section
variable {ε' : Type x} {ι : ε' → ε} {I : σ → Prop}

/-- `m` does what `n` does, and its exceptions are those of `n`, read through `ι`: from a state
    with `I` both raise, or both return the same with `Q` and leave the same state with `I`. -/
def Agrees (ι : ε' → ε) (I : σ → Prop) (m : StateT σ (Except ε) α) (n : StateT σ (Except ε') α)
    (Q : α → Prop) : Prop :=
  ∀ s, I s → m s = (n s).mapError ι ∧ ∀ a s', n s = .ok (a, s') → Q a ∧ I s'

namespace Agrees

variable {m : StateT σ (Except ε) α} {n : StateT σ (Except ε') α} {Q : α → Prop}
  {R : β → Prop}

theorem pure {a : α} (h : Q a) : Agrees ι I (Pure.pure a) (Pure.pure a) Q := by
  intro s hs
  refine ⟨rfl, ?_⟩
  rintro b s' ⟨⟩
  exact ⟨h, hs⟩

theorem throw (e : ε') : Agrees ι I (MonadExcept.throw (ι e) : StateT σ (Except ε) α)
    (MonadExcept.throw e) Q := by
  intro s _
  exact ⟨rfl, nofun⟩

/-- Sequencing: what is known of the value of the first step is known in the second. -/
theorem bind {f : α → StateT σ (Except ε) β} {g : α → StateT σ (Except ε') β}
    (hm : Agrees ι I m n Q) (hf : ∀ a, Q a → Agrees ι I (f a) (g a) R) :
    Agrees ι I (m >>= f) (n >>= g) R := by
  intro s hs
  obtain ⟨heq, hok⟩ := hm s hs
  show (m s >>= fun p => f p.1 p.2 : Except ε (β × σ)) =
      (n s >>= fun p => g p.1 p.2 : Except ε' (β × σ)).mapError ι ∧
    ∀ b s', (n s >>= fun p => g p.1 p.2 : Except ε' (β × σ)) = .ok (b, s') → R b ∧ I s'
  rw [heq]
  cases hr : n s with
  | error e => exact ⟨rfl, nofun⟩
  | ok p =>
    obtain ⟨hq, hi⟩ := hok p.1 p.2 hr
    exact hf p.1 hq p.2 hi

theorem ite {c : Prop} [Decidable c] {m' : StateT σ (Except ε) α} {n' : StateT σ (Except ε') α}
    (hm : c → Agrees ι I m n Q) (hn : ¬ c → Agrees ι I m' n' Q) :
    Agrees ι I (if c then m else m') (if c then n else n') Q := by
  by_cases hc : c
  · rw [if_pos hc, if_pos hc]; exact hm hc
  · rw [if_neg hc, if_neg hc]; exact hn hc

/-- A computation without a state that returns what the other program has. -/
theorem lift {x : Except ε α} {a : α} (hx : x = .ok a) (h : Q a) :
    Agrees ι I (liftM x) (Pure.pure a) Q := by
  subst hx
  exact pure h

/-- The same before a further step. -/
theorem compute {x : Except ε α} {a : α} {f : α → StateT σ (Except ε) β}
    {n : StateT σ (Except ε') β} (hx : x = .ok a) (h : Agrees ι I (f a) n R) :
    Agrees ι I (liftM x >>= f) n R := by
  subst hx
  exact h

/-- Nothing is raised that the other program does not raise. -/
theorem avoids (h : Agrees ι I m n Q) :
    Avoids (fun e => ∀ e', e ≠ ι e') I m fun a s => Q a ∧ I s := by
  intro s hs
  obtain ⟨heq, hok⟩ := h s hs
  rw [heq]
  cases hr : n s with
  | error e => exact fun hbad => hbad e rfl
  | ok p => exact hok p.1 p.2 hr

/-- Such a program before one that has no counterpart. -/
theorem avoids_bind {f : α → StateT σ (Except ε) β} {S : β → σ → Prop} (h : Agrees ι I m n Q)
    (hf : ∀ a, Q a → Avoids (fun e => ∀ e', e ≠ ι e') I (f a) S) :
    Avoids (fun e => ∀ e', e ≠ ι e') I (m >>= f) S := by
  refine Avoids.bind h.avoids fun a => ?_
  refine Avoids.assume (fun s hs => hs.1) fun hq => ?_
  exact (hf a hq).pre fun s hs => hs.2

end Agrees

end

end Air780eHub
