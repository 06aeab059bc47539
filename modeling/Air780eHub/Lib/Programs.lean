/-
  Programs of statements, and what is left of one on a connection where statements fail.

  A program says which statement comes next and what its result decides.  `plain` runs it on a
  state, with nothing going wrong outside; `session` runs it on a connection with faults.

  1. **Programs** and their two runs.
  2. **`Respects R p`**: where the plain run of `p` returns, its ends are related by `R`.
  3. **`session_within`**: inside an open transaction a session that returns has done what the plain
     run does, and one that raises has left the database alone.
-/
import Air780eHub.Lib.Autocommit

namespace Air780eHub.Autocommit

variable {σ ε α β : Type}

/-! ## Programs -/

/-- Statements, each with the rest that its result decides. -/
inductive Program (σ ε α : Type) : Type 1
  | done (a : α)
  | raise (e : ε)
  | step {β : Type} (f : σ → Except ε (β × σ)) (next : β → Program σ ε α)

namespace Program

def bind : Program σ ε α → (α → Program σ ε β) → Program σ ε β
  | .done a, k      => k a
  | .raise e, _     => .raise e
  | .step f next, k => .step f fun b => (next b).bind k

instance : Monad (Program σ ε) where
  pure := .done
  bind := bind

/-- A single statement. -/
def statement (f : σ → Except ε (α × σ)) : Program σ ε α := .step f .done

/-- The statements on a state, until one of them raises. -/
def plain : Program σ ε α → σ → Except ε (α × σ)
  | .done a, s      => .ok (a, s)
  | .raise e, _     => .error e
  | .step f next, s => match f s with
    | .error e    => .error e
    | .ok (b, s') => (next b).plain s'

/-- The statements on a connection. -/
def session : Program σ ε α → Session σ ε α
  | .done a      => pure a
  | .raise e     => throw e
  | .step f next => do
    let b ← execute f
    (next b).session

/-! ## The plain run -/

@[simp] theorem plain_pure (a : α) (s : σ) :
    (Pure.pure a : Program σ ε α).plain s = .ok (a, s) := rfl

@[simp] theorem plain_statement (f : σ → Except ε (α × σ)) (s : σ) :
    (statement f).plain s = f s := by
  rw [statement, plain]
  cases f s with
  | error e => rfl
  | ok r => exact plain_pure r.1 r.2

/-- A program after another goes on from the state the first one leaves. -/
theorem plain_bind (p : Program σ ε α) (k : α → Program σ ε β) (s : σ) :
    (p >>= k).plain s = match p.plain s with
      | .error e    => .error e
      | .ok (a, s') => (k a).plain s' := by
  show (p.bind k).plain s = _
  induction p generalizing s with
  | done a => rfl
  | raise e => rfl
  | step f next ih =>
    rw [bind, plain, plain]
    cases f s with
    | error e => rfl
    | ok r => exact ih r.1 r.2

/-- The first program returns: the second begins where it ended. -/
theorem plain_bind_ok {p : Program σ ε α} {k : α → Program σ ε β} {s s' : σ} {a : α}
    (h : p.plain s = .ok (a, s')) : (p >>= k).plain s = (k a).plain s' := by
  rw [plain_bind, h]

/-- A program that returns has returned from its first part. -/
theorem of_plain_bind {p : Program σ ε α} {k : α → Program σ ε β} {s t : σ} {b : β}
    (h : (p >>= k).plain s = .ok (b, t)) :
    ∃ a s', p.plain s = .ok (a, s') ∧ (k a).plain s' = .ok (b, t) := by
  rw [plain_bind] at h
  cases hp : p.plain s with
  | error e =>
    rw [hp] at h
    cases h
  | ok r =>
    rw [hp] at h
    exact ⟨r.1, r.2, rfl, h⟩

/-! ## What a program respects -/

/-- Where the program returns, it leads from a state to one related to it. -/
def Respects (R : σ → σ → Prop) (p : Program σ ε α) : Prop :=
  ∀ s a s', p.plain s = .ok (a, s') → R s s'

section Respects

variable {R : σ → σ → Prop}

theorem Respects.pure (hrefl : ∀ s, R s s) (a : α) :
    Respects R (Pure.pure a : Program σ ε α) := by
  intro s b s' h
  cases h
  exact hrefl s

theorem Respects.statement {f : σ → Except ε (α × σ)} (h : ∀ s a s', f s = .ok (a, s') → R s s') :
    Respects R (statement f) := by
  intro s a s' hs
  rw [plain_statement] at hs
  exact h s a s' hs

theorem Respects.bind (htrans : ∀ s t r, R s t → R t r → R s r) {p : Program σ ε α}
    {k : α → Program σ ε β} (hp : Respects R p) (hk : ∀ a, Respects R (k a)) :
    Respects R (p >>= k) := by
  intro s b t h
  obtain ⟨a, s', hs, ht⟩ := of_plain_bind h
  exact htrans s s' t (hp s a s' hs) (hk a s' b t ht)

theorem Respects.forM (hrefl : ∀ s, R s s) (htrans : ∀ s t r, R s t → R t r → R s r) {γ : Type}
    {f : γ → Program σ ε PUnit} {xs : List γ} (h : ∀ x ∈ xs, Respects R (f x)) :
    Respects R (xs.forM f) := by
  induction xs with
  | nil => exact Respects.pure hrefl _
  | cons x xs ih =>
    exact Respects.bind htrans (h x List.mem_cons_self)
      fun _ => ih fun y hy => h y (List.mem_cons_of_mem _ hy)

end Respects

/-! ## On a connection -/

/-- **Inside a transaction** a session leaves the database alone, and where it returns, its copy is
    what the plain run makes of it. -/
theorem session_within (p : Program σ ε α) (w₀ : σ) :
    Within (fun w => w = w₀) p.session fun a w => p.plain w₀ = .ok (a, w) := by
  induction p generalizing w₀ with
  | done a => exact Within.pure fun w hw => by rw [hw]; rfl
  | raise e => exact Within.throw
  | step f next ih =>
    refine Within.bind (Q := fun b w => f w₀ = .ok (b, w)) ?_ fun b => ?_
    · refine Within.execute fun w b w' hw hf => ?_
      rw [← hw]; exact hf
    · intro c w hw hf
      obtain ⟨hdisk, w', hw', hq⟩ := ih b w c w hw rfl
      refine ⟨hdisk, w', hw', fun a ha => ?_⟩
      rw [plain, hf]
      exact hq a ha

/-- With no faults to come, a statement does what it does to the copy. -/
theorem execute_sure {f : σ → Except ε (α × σ)} {c : Connection σ ε} {w w' : σ} {a : α}
    (hw : c.work = some w) (hfaults : c.faults = []) (h : f w = .ok (a, w')) :
    execute f c = (.ok a, { c with work := some w' }) := by
  rcases c with ⟨disk, work, faults⟩
  obtain rfl : faults = [] := hfaults
  obtain rfl : work = some w := hw
  unfold execute
  rw [show (Connection.mk disk (some w) []).now = w from rfl, h]
  rfl

/-- With no faults to come, a session returns what the plain run returns. -/
theorem session_sure {p : Program σ ε α} {c : Connection σ ε} {w w' : σ} {a : α}
    (hw : c.work = some w) (hfaults : c.faults = []) (h : p.plain w = .ok (a, w')) :
    p.session c = (.ok a, { c with work := some w' }) := by
  induction p generalizing c w with
  | done b =>
    cases h
    rw [← hw]
    rfl
  | raise e => cases h
  | step f next ih =>
    rw [plain] at h
    cases hf : f w with
    | error e =>
      rw [hf] at h
      cases h
    | ok r =>
      rw [hf] at h
      rw [session, bind_apply, execute_sure hw hfaults hf]
      exact ih r.1 rfl hfaults h

end Program

end Air780eHub.Autocommit
