/-
  A database connection in autocommit mode, and transactions on it.

  A statement takes effect at once unless a transaction is open; then it works on a copy, which
  `COMMIT` puts in place of the database and `ROLLBACK` throws away.  A program that raises keeps
  what it has written, so a session carries the connection also out of an exception.

  What goes wrong outside (a full disk, a lock) is a list of faults, one place for each statement
  and `COMMIT` to come.

  1. **Sessions** and their statements.
  2. **`Within P m Q`**: inside an open transaction `m` leaves the database alone, and takes a copy
     with `P` to one with `Q` where it returns.
  3. **`atomically_spec`**: all or nothing.
-/
import Mathlib.Data.List.Basic

namespace Air780eHub.Autocommit

variable {σ ε α β : Type}

/-! ## Sessions -/

/-- The database, the copy of an open transaction, and the faults to come. -/
structure Connection (σ ε : Type) where
  disk   : σ
  work   : Option σ := none
  faults : List (Option ε) := []

namespace Connection

/-- What a statement sees. -/
def now (c : Connection σ ε) : σ := c.work.getD c.disk

/-- What a statement leaves. -/
def write (c : Connection σ ε) (s : σ) : Connection σ ε :=
  match c.work with
  | none   => { c with disk := s }
  | some _ => { c with work := some s }

/-- The fault of the next statement. -/
def fault (c : Connection σ ε) : Option ε := c.faults.head?.getD none

def used (c : Connection σ ε) : Connection σ ε := { c with faults := c.faults.tail }

end Connection

/-- A program on a connection.  An exception does not undo anything. -/
abbrev Session (σ ε α : Type) := ExceptT ε (StateM (Connection σ ε)) α

/-- One statement, which raises or changes what it sees. -/
def execute (f : σ → Except ε (α × σ)) : Session σ ε α := fun c =>
  match c.fault with
  | some e => (.error e, c.used)
  | none   => match f c.now with
    | .error e    => (.error e, c.used)
    | .ok (a, s)  => (.ok a, c.used.write s)

/-- A computation that does not touch the connection. -/
def compute (x : Except ε α) : Session σ ε α := fun c => (x, c)

/-- `BEGIN`.  There is no transaction inside a transaction. -/
def beginTransaction (nested : ε) : Session σ ε Unit := fun c =>
  match c.fault, c.work with
  | some e, _    => (.error e, c.used)
  | none, some _ => (.error nested, c.used)
  | none, none   => (.ok (), { c.used with work := some c.disk })

/-- `COMMIT`. -/
def commit : Session σ ε Unit := fun c =>
  match c.fault with
  | some e => (.error e, c.used)
  | none   => (.ok (), { c.used with disk := c.now, work := none })

/-- `ROLLBACK`. -/
def rollback (c : Connection σ ε) : Connection σ ε := { c with work := none }

/-- `with connection:` commits at the end and rolls back on an exception. -/
def withConnection (m : Session σ ε α) : Session σ ε α := fun c =>
  match m c with
  | (.error e, c') => (.error e, rollback c')
  | (.ok a, c')    => match commit c' with
    | (.ok _, c'')    => (.ok a, c'')
    | (.error e, c'') => (.error e, rollback c'')

/-- A transaction around `m`. -/
def atomically (nested : ε) (m : Session σ ε α) : Session σ ε α := fun c =>
  match beginTransaction nested c with
  | (.error e, c') => (.error e, c')
  | (.ok _, c')    => withConnection m c'

theorem bind_apply (m : Session σ ε α) (f : α → Session σ ε β) (c : Connection σ ε) :
    (m >>= f) c = match m c with
      | (.ok a, c')    => f a c'
      | (.error e, c') => (.error e, c') := by
  show (match m c with
    | (x, c') => (ExceptT.bindCont f x : StateM (Connection σ ε) (Except ε β)) c') = _
  rcases m c with ⟨x, c'⟩
  cases x <;> rfl

/-! ## Inside a transaction -/

/-- With a copy that has `P`, `m` leaves the database alone and the transaction open, and where it
    returns, its value and the copy have `Q`. -/
def Within (P : σ → Prop) (m : Session σ ε α) (Q : α → σ → Prop) : Prop :=
  ∀ c w, c.work = some w → P w → (m c).2.disk = c.disk ∧
    ∃ w', (m c).2.work = some w' ∧ ∀ a, (m c).1 = .ok a → Q a w'

namespace Within

variable {P : σ → Prop} {Q : α → σ → Prop} {R : β → σ → Prop}

theorem pure {a : α} (h : ∀ w, P w → Q a w) : Within P (Pure.pure a : Session σ ε α) Q := by
  intro c w hw hp
  refine ⟨rfl, w, hw, ?_⟩
  rintro b hb
  obtain rfl := Except.ok.inj hb
  exact h w hp

theorem throw {e : ε} : Within P (MonadExcept.throw e : Session σ ε α) Q :=
  fun _ w hw _ => ⟨rfl, w, hw, nofun⟩

theorem bind {m : Session σ ε α} {f : α → Session σ ε β} (hm : Within P m Q)
    (hf : ∀ a, Within (Q a) (f a) R) : Within P (m >>= f) R := by
  intro c w hw hp
  obtain ⟨hdisk, w₁, hw₁, hq⟩ := hm c w hw hp
  rw [bind_apply]
  generalize m c = p at hdisk hw₁ hq
  obtain ⟨x, c₁⟩ := p
  cases x with
  | error e => exact ⟨hdisk, w₁, hw₁, nofun⟩
  | ok a =>
    obtain ⟨hdisk', hrest⟩ := hf a c₁ w₁ hw₁ (hq a rfl)
    exact ⟨hdisk'.trans hdisk, hrest⟩

/-- A statement. -/
theorem execute {f : σ → Except ε (α × σ)} (h : ∀ w a w', P w → f w = .ok (a, w') → Q a w') :
    Within P (execute f) Q := by
  intro c w hw hp
  have hnow : c.now = w := by rw [Connection.now, hw]; rfl
  unfold Autocommit.execute
  cases c.fault with
  | some e => exact ⟨rfl, w, hw, nofun⟩
  | none =>
    rw [hnow]
    cases hf : f w with
    | error e => exact ⟨rfl, w, hw, nofun⟩
    | ok r =>
      have hwrite : c.used.write r.2 = { c.used with work := some r.2 } := by
        rw [Connection.write, show c.used.work = some w from hw]
      dsimp only
      rw [hwrite]
      refine ⟨rfl, r.2, rfl, ?_⟩
      rintro a ha
      obtain rfl := Except.ok.inj ha
      exact h w r.1 r.2 hp hf

theorem compute {x : Except ε α} (h : ∀ w a, P w → x = .ok a → Q a w) :
    Within P (compute x : Session σ ε α) Q :=
  fun _ w hw hp => ⟨rfl, w, hw, fun a ha => h w a hp ha⟩

/-- A loop: `I` holds of the part that is done. -/
theorem forM {γ : Type} {f : γ → Session σ ε PUnit} {I : List γ → σ → Prop} {xs : List γ}
    (h : ∀ done x rest, xs = done ++ x :: rest →
      Within (I done) (f x) fun _ => I (done ++ [x])) :
    Within (I []) (xs.forM f) fun _ => I xs := by
  have hgo : ∀ rest done, xs = done ++ rest → Within (I done) (rest.forM f) fun _ => I xs := by
    intro rest
    induction rest with
    | nil =>
      intro done he
      rw [List.append_nil] at he
      exact pure fun w hw => he ▸ hw
    | cons x rest ih =>
      intro done he
      refine bind (h done x rest he) fun _ => ih (done ++ [x]) ?_
      rw [he, List.append_assoc]
      rfl
  exact hgo xs [] rfl

end Within

/-! ## All or nothing -/

/-- **All or nothing.**  A transaction that raises leaves the database as it was, and one that
    returns leaves what its body makes of it.  Either way no transaction is open that was not. -/
theorem atomically_spec (nested : ε) {m : Session σ ε α} {Q : α → σ → Prop} {c : Connection σ ε}
    (h : Within (fun w => w = c.disk) m Q) :
    (atomically nested m c).2.work = c.work ∧
      match (atomically nested m c).1 with
      | .ok a    => Q a (atomically nested m c).2.disk
      | .error _ => (atomically nested m c).2.disk = c.disk := by
  unfold atomically beginTransaction
  cases c.fault with
  | some e => exact ⟨rfl, rfl⟩
  | none =>
    cases hwork : c.work with
    | some w =>
      dsimp only
      exact ⟨hwork, rfl⟩
    | none =>
      dsimp only
      unfold withConnection
      obtain ⟨hdisk, w', hw', hq⟩ := h { c.used with work := some c.disk } c.disk rfl rfl
      generalize m { c.used with work := some c.disk } = p at hdisk hw' hq
      obtain ⟨x, c₁⟩ := p
      cases x with
      | error e => exact ⟨rfl, hdisk⟩
      | ok a =>
        dsimp only
        unfold commit
        cases c₁.fault with
        | some e => exact ⟨rfl, hdisk⟩
        | none =>
          have hnow : c₁.now = w' := by
            rw [Connection.now, hw']
            rfl
          dsimp only
          rw [hnow]
          exact ⟨rfl, hq a rfl⟩

end Air780eHub.Autocommit
