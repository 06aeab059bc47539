/-
  Which statements a program issues, and what they keep.

  1. **`Issues S P m`** : where `m` returns, statements with `P` lead from the database it began with
     to the one it leaves.  What such statements respect, the program respects, by the relation rule
     for runs.
  2. **`Kept t F Q`** : the rows of `t` are still there with the cells they had in the columns `F`,
     and a row that was not there has a new id and cells with `Q`.
  3. **`Statement.exec_kept`** : when one statement keeps a table.
  4. **`Mirrors`** : a list of what a table holds.
-/
import Air780eHub.Lib.Cascade
import Air780eHub.Lib.Machine
import Air780eHub.Lib.OtherTables

namespace Air780eHub.Relational

variable {τ κ ν ε : Type} [DecidableEq τ] [DecidableEq κ] [DecidableEq ν] {S : Schema τ κ ν}
  {P : Statement τ κ ν → Prop} {α β : Type}

/-! ## The statements of a program -/

/-- A database that executes one statement after the other. -/
def statements (S : Schema τ κ ν) : Machine (Db τ κ ν) (Statement τ κ ν) where
  Start := fun _ => True
  step  := fun db q => some (q.exec S db)

/-- Statements with `P` lead from one database to the other. -/
abbrev Wrote (S : Schema τ κ ν) (P : Statement τ κ ν → Prop) (db db' : Db τ κ ν) : Prop :=
  (statements S).Path (fun _ q => P q) db db'

/-- Where `m` returns, it has executed statements with `P`. -/
def Issues (S : Schema τ κ ν) (P : Statement τ κ ν → Prop)
    (m : StateT (Db τ κ ν) (Except ε) α) : Prop :=
  ∀ db a db', m db = .ok (a, db') → Wrote S P db db'

namespace Issues

theorem pure (a : α) : Issues S P (Pure.pure a : StateT (Db τ κ ν) (Except ε) α) := by
  intro db x db' h
  cases h
  exact .refl

theorem throw (e : ε) :
    Issues S P (MonadExcept.throw e : StateT (Db τ κ ν) (Except ε) α) := nofun

theorem bind {m : StateT (Db τ κ ν) (Except ε) α} {f : α → StateT (Db τ κ ν) (Except ε) β}
    (hm : Issues S P m) (hf : ∀ a, Issues S P (f a)) : Issues S P (m >>= f) := by
  intro db b db' h
  obtain ⟨a, db₁, ha, hb⟩ := of_bind_ok h
  exact (hm db a db₁ ha).trans (hf a db₁ b db' hb)

theorem ite {c : Prop} [Decidable c] {m n : StateT (Db τ κ ν) (Except ε) α} (hm : Issues S P m)
    (hn : Issues S P n) : Issues S P (if c then m else n) := by
  by_cases hc : c
  · rw [if_pos hc]; exact hm
  · rw [if_neg hc]; exact hn

theorem get {f : Db τ κ ν → StateT (Db τ κ ν) (Except ε) β} (h : ∀ db, Issues S P (f db)) :
    Issues S P (MonadState.get >>= f) :=
  fun db b db' hr => h db db b db' hr

theorem forM {γ : Type} {f : γ → StateT (Db τ κ ν) (Except ε) PUnit} (h : ∀ x, Issues S P (f x))
    (xs : List γ) : Issues S P (xs.forM f) := by
  induction xs with
  | nil => exact pure _
  | cons x xs ih => exact bind (h x) fun _ => ih

theorem mono {P' : Statement τ κ ν → Prop} {m : StateT (Db τ κ ν) (Except ε) α} (h : Issues S P m)
    (hP : ∀ q, P q → P' q) : Issues S P' m :=
  fun db a db' hm => (h db a db' hm).mono fun _ q hq => hP q hq

/-- A program that is one statement. -/
theorem of_exec {m : StateT (Db τ κ ν) (Except ε) α} {q : Statement τ κ ν} (hq : P q)
    (h : ∀ db a db', m db = .ok (a, db') → q.exec S db = db') : Issues S P m := by
  intro db a db' hm
  rw [← h db a db' hm]
  exact Machine.Path.single hq rfl

theorem insert {t : τ} {as : Assignments κ ν} (hq : P (.insert t as)) :
    Issues S P (S.insert t as) := by
  refine of_exec hq fun db a db' hm => ?_
  show ((S.insert t as db).toOption.map Prod.snd).getD db = db'
  rw [hm]
  rfl

theorem insertOrIgnore {t : τ} {as : Assignments κ ν} (hq : P (.insertOrIgnore t as)) :
    Issues S P (S.insertOrIgnore t as) := by
  refine of_exec hq fun db a db' hm => ?_
  show ((S.insertOrIgnore t as db).toOption.map Prod.snd).getD db = db'
  rw [hm]
  rfl

theorem update {t : τ} {p : Row κ ν → Bool} {set : Row κ ν → Assignments κ ν}
    (hq : P (.update t p set)) : Issues S P (S.update t p set) := by
  refine of_exec hq fun db a db' hm => ?_
  show ((S.update t p set db).toOption.map Prod.snd).getD db = db'
  rw [hm]
  rfl

theorem upsert {t : τ} {key : List κ} {as : Assignments κ ν} {set : Row κ ν → Assignments κ ν}
    (hq : P (.upsert t key as set)) : Issues S P (S.upsert t key as set) := by
  refine of_exec hq fun db a db' hm => ?_
  show ((S.upsert t key as set db).toOption.map Prod.snd).getD db = db'
  rw [hm]
  rfl

/-- Statements on other tables leave a table without foreign keys alone. -/
theorem leaves {m : StateT (Db τ κ ν) (Except ε) α} {t : τ} (h : Issues S P m)
    (hP : ∀ q, P q → t ≠ q.table) (hfk : S.foreign t = []) : Leaves t m := by
  intro db a db' hm
  refine Machine.Path.relation (R := SameTable t) (.refl t) (fun _ _ _ => .trans) ?_ (h db a db' hm)
  intro db q db' hq hs
  obtain rfl := Option.some.inj hs
  exact Statement.exec_leaves (hP q hq) hfk db

end Issues

/-- Statements keep the constraints. -/
theorem Wrote.consistent {db db' : Db τ κ ν} (h : Wrote S P db db') (hc : Consistent S db) :
    Consistent S db' := by
  refine Machine.Path.invariant (I := Consistent S) ?_ h hc
  intro db q db' hdb _ hs
  obtain rfl := Option.some.inj hs
  exact Statement.exec_consistent hdb q

/-! ## Rows that are kept -/

/-- The row is the same in these columns. -/
structure Agree (F : List κ) (r r' : Row κ ν) : Prop where
  id    : r'.id = r.id
  cells : ∀ c ∈ F, r'.cells c = r.cells c

/-- The rows of a table are kept in the columns `F`, and the cells of a new one have `Q`. -/
structure Kept (t : τ) (F : List κ) (Q : (κ → Option ν) → Prop) (db db' : Db τ κ ν) : Prop where
  persists : ∀ r ∈ db.rows t, ∃ r' ∈ db'.rows t, Agree F r r'
  stems    : ∀ r' ∈ db'.rows t, (∃ r ∈ db.rows t, Agree F r r') ∨
    (db.seq t < r'.id ∧ ∃ cells, Q cells ∧ ∀ c ∈ F, r'.cells c = cells c)
  seq      : db.seq t ≤ db'.seq t

variable {t t' : τ} {F : List κ} {Q : (κ → Option ν) → Prop} {db db' db'' : Db τ κ ν}

omit [DecidableEq τ] [DecidableEq κ] [DecidableEq ν] in
theorem Agree.refl (F : List κ) (r : Row κ ν) : Agree F r r := ⟨rfl, fun _ _ => rfl⟩

omit [DecidableEq τ] [DecidableEq κ] [DecidableEq ν] in
theorem Agree.trans {r r' r'' : Row κ ν} (h : Agree F r r') (h' : Agree F r' r'') :
    Agree F r r'' :=
  ⟨h'.id.trans h.id, fun c hc => (h'.cells c hc).trans (h.cells c hc)⟩

namespace Kept

omit [DecidableEq τ] [DecidableEq κ] [DecidableEq ν] in
theorem of_sameTable (h : SameTable t db db') : Kept t F Q db db' := by
  refine ⟨fun r hr => ⟨r, ?_, .refl F r⟩, fun r hr => .inl ⟨r, ?_, .refl F r⟩, h.seq.ge⟩
  · rw [h.rows]; exact hr
  · rw [← h.rows]; exact hr

omit [DecidableEq τ] [DecidableEq κ] [DecidableEq ν] in
theorem refl (db : Db τ κ ν) : Kept t F Q db db := of_sameTable (.refl t db)

omit [DecidableEq τ] [DecidableEq κ] [DecidableEq ν] in
theorem trans (h : Kept t F Q db db') (h' : Kept t F Q db' db'') : Kept t F Q db db'' := by
  refine ⟨fun r hr => ?_, fun r'' hr'' => ?_, h.seq.trans h'.seq⟩
  · obtain ⟨r', hr', ha⟩ := h.persists r hr
    obtain ⟨r'', hr'', ha'⟩ := h'.persists r' hr'
    exact ⟨r'', hr'', ha.trans ha'⟩
  · rcases h'.stems r'' hr'' with ⟨r', hr', ha'⟩ | ⟨hlt, hQ⟩
    · rcases h.stems r' hr' with ⟨r, hr, ha⟩ | ⟨hlt, cells, hQ, hc⟩
      · exact .inl ⟨r, hr, ha.trans ha'⟩
      · refine .inr ⟨?_, cells, hQ, fun c hcF => (ha'.cells c hcF).trans (hc c hcF)⟩
        rw [ha'.id]
        exact hlt
    · exact .inr ⟨lt_of_le_of_lt h.seq hlt, hQ⟩

theorem append {cells : κ → Option ν} (hQ : t' = t → Q cells) :
    Kept t F Q db (db.append t' cells) := by
  by_cases ht : t' = t
  · subst ht
    have hrows : (db.append t' cells).rows t' = db.rows t' ++ [⟨db.seq t' + 1, cells⟩] :=
      rows_append_self
    refine ⟨fun r hr => ⟨r, ?_, .refl F r⟩, fun r' hr' => ?_, ?_⟩
    · rw [hrows]
      exact List.mem_append_left _ hr
    · rw [hrows] at hr'
      rcases List.mem_append.mp hr' with hr' | hr'
      · exact .inl ⟨r', hr', .refl F r'⟩
      · obtain rfl := List.mem_singleton.mp hr'
        exact .inr ⟨Nat.lt_succ_self _, cells, hQ rfl, fun _ _ => rfl⟩
    · show db.seq t' ≤ if t' = t' then db.seq t' + 1 else db.seq t'
      rw [if_pos rfl]
      exact Nat.le_succ _
  · exact of_sameTable ⟨rows_append_ne (Ne.symm ht), if_neg (Ne.symm ht)⟩

theorem updated {p : Row κ ν → Bool} {set : Row κ ν → Assignments κ ν}
    (h : t' = t → ∀ r, ∀ a ∈ set r, a.1 ∉ F) : Kept t F Q db (db.updated t' p set) := by
  by_cases ht : t' = t
  · subst ht
    have hagree : ∀ r : Row κ ν, Agree F r (written p set r) := by
      intro r
      refine ⟨written_id r, fun c hc => ?_⟩
      unfold written
      split
      · refine assign_of_not_mem fun hmem => ?_
        obtain ⟨a, ha, rfl⟩ := List.mem_map.mp hmem
        exact h rfl r a ha hc
      · rfl
    refine ⟨fun r hr => ⟨written p set r, ?_, hagree r⟩, fun r' hr' => ?_, Nat.le_refl _⟩
    · rw [rows_updated_self]
      exact List.mem_map_of_mem hr
    · rw [rows_updated_self] at hr'
      obtain ⟨r, hr, rfl⟩ := List.mem_map.mp hr'
      exact .inl ⟨r, hr, hagree r⟩
  · exact of_sameTable ⟨rows_updated_ne (Ne.symm ht), rfl⟩

omit [DecidableEq τ] [DecidableEq κ] [DecidableEq ν] in
/-- A statement that raises changes nothing. -/
theorem outcome {m : Sql τ κ ν α} (h : ∀ a db', m db = .ok (a, db') → Kept t F Q db db') :
    Kept t F Q db (((m db).toOption.map Prod.snd).getD db) := by
  cases hm : m db with
  | error v => exact refl db
  | ok x => exact h x.1 x.2 hm

end Kept

/-! ## Statements that keep a table -/

/-- The statement may add rows with `Q` to `t`, writes none of the columns `F` of it, and deletes
    from no table whose deletes reach it. -/
def Statement.Keeps (S : Schema τ κ ν) (rank : τ → Nat) (t : τ) (F : List κ)
    (Q : (κ → Option ν) → Prop) : Statement τ κ ν → Prop
  | .insert t' as         => t' = t → Q (assign as (S.defaults t'))
  | .insertOrIgnore t' as => t' = t → Q (assign as (S.defaults t'))
  | .upsert t' _ as set   =>
    t' = t → Q (assign as (S.defaults t')) ∧ ∀ r, ∀ a ∈ set r, a.1 ∉ F
  | .update t' _ set      => t' = t → ∀ r, ∀ a ∈ set r, a.1 ∉ F
  | .delete t' _          => rank t ≤ rank t' ∧ t ≠ t'

theorem kept_insert {as : Assignments κ ν} (hQ : t' = t → Q (assign as (S.defaults t'))) {i : Nat}
    (h : S.insert t' as db = .ok (i, db')) : Kept t F Q db db' := by
  obtain ⟨-, -, rfl⟩ := insertCells_inv h
  exact .append hQ

theorem kept_update {p : Row κ ν → Bool} {set : Row κ ν → Assignments κ ν}
    (hF : t' = t → ∀ r, ∀ a ∈ set r, a.1 ∉ F) {x : Unit}
    (h : S.update t' p set db = .ok (x, db')) : Kept t F Q db db' := by
  obtain ⟨rfl, -⟩ := update_inv h
  exact .updated hF

/-- **A statement keeps a table.** -/
theorem Statement.exec_kept {rank : τ → Nat} {q : Statement τ κ ν} (h : q.Keeps S rank t F Q)
    (hS : Ranked S rank) (db : Db τ κ ν) : Kept t F Q db (q.exec S db) := by
  cases q with
  | insert t' as => exact .outcome fun _ _ hi => kept_insert h hi
  | insertOrIgnore t' as =>
    refine .outcome fun _ _ hi => ?_
    unfold Schema.insertOrIgnore at hi
    split at hi
    · rename_i x hx
      cases hi
      exact kept_insert h hx
    · cases hi
    · cases hi
      exact .refl db
  | upsert t' key as set =>
    refine .outcome fun _ _ hu => ?_
    unfold Schema.upsert at hu
    split at hu
    · cases hu
    · split at hu
      · exact kept_update (fun ht => (h ht).2) hu
      · cases hi : S.insert t' as db with
        | error v => rw [hi] at hu; cases hu
        | ok x =>
          rw [hi] at hu
          cases hu
          exact kept_insert (fun ht => (h ht).1) hi
  | update t' p set => exact .outcome fun _ _ hu => kept_update h hu
  | delete t' p =>
    refine .outcome fun _ _ hd => ?_
    unfold Schema.delete at hd
    split at hd
    · cases hd
    · cases hd
      exact .of_sameTable ⟨remaining_below hS h.1 h.2, rfl⟩

/-- **Statements that keep a table, one after the other, keep it.** -/
theorem Wrote.kept {rank : τ → Nat} (h : Wrote S P db db') (hS : Ranked S rank)
    (hP : ∀ q, P q → q.Keeps S rank t F Q) : Kept t F Q db db' := by
  refine Machine.Path.relation (R := Kept t F Q) .refl (fun _ _ _ => .trans) ?_ h
  intro db q db' hq hs
  obtain rfl := Option.some.inj hs
  exact Statement.exec_kept (hP q hq) hS db

/-! ## What a table holds -/

/-- `L` lists what the rows with `P` of a table hold: each entry has its row, and each such row its
    entry. -/
structure Mirrors {γ : Type} (t : τ) (P : (κ → Option ν) → Prop) (R : (κ → Option ν) → γ → Prop)
    (db : Db τ κ ν) (L : List γ) : Prop where
  held   : ∀ a ∈ L, ∃ r ∈ db.rows t, P r.cells ∧ R r.cells a
  listed : ∀ r ∈ db.rows t, P r.cells → ∃ a ∈ L, R r.cells a

namespace Mirrors

variable {γ : Type} {P : (κ → Option ν) → Prop} {R : (κ → Option ν) → γ → Prop} {L : List γ}

omit [DecidableEq τ] [DecidableEq κ] [DecidableEq ν] in
theorem same (h : Mirrors t P R db L) (hrows : db'.rows t = db.rows t) : Mirrors t P R db' L :=
  ⟨by rw [hrows]; exact h.held, by rw [hrows]; exact h.listed⟩

omit [DecidableEq τ] [DecidableEq κ] [DecidableEq ν] in
/-- What the columns that are kept decide is kept; a new row must not have `P`. -/
theorem kept (h : Mirrors t P R db L) (hk : Kept t F Q db db')
    (hcongr : ∀ cells cells', (∀ c ∈ F, cells' c = cells c) → P cells →
      P cells' ∧ ∀ a, R cells a → R cells' a)
    (hQ : ∀ cells, Q cells → ¬ P cells) : Mirrors t P R db' L := by
  refine ⟨fun a ha => ?_, fun r' hr' hP => ?_⟩
  · obtain ⟨r, hr, hP, hR⟩ := h.held a ha
    obtain ⟨r', hr', hagree⟩ := hk.persists r hr
    obtain ⟨hP', hR'⟩ := hcongr r.cells r'.cells hagree.cells hP
    exact ⟨r', hr', hP', hR' a hR⟩
  · rcases hk.stems r' hr' with ⟨r, hr, hagree⟩ | ⟨-, cells, hQc, hc⟩
    · obtain ⟨hP₀, -⟩ := hcongr r'.cells r.cells (fun c hc => (hagree.cells c hc).symm) hP
      obtain ⟨a, ha, hR⟩ := h.listed r hr hP₀
      exact ⟨a, ha, (hcongr r.cells r'.cells hagree.cells hP₀).2 a hR⟩
    · exact absurd (hcongr r'.cells cells (fun c hcF => (hc c hcF).symm) hP).1 (hQ cells hQc)

omit [DecidableEq τ] [DecidableEq κ] [DecidableEq ν] in
theorem append (h : Mirrors t P R db L) {r : Row κ ν} (hrows : db'.rows t = db.rows t ++ [r])
    (hP : P r.cells) {a : γ} (hR : R r.cells a) : Mirrors t P R db' (L ++ [a]) := by
  refine ⟨fun b hb => ?_, fun r' hr' hP' => ?_⟩
  · rw [hrows]
    rcases List.mem_append.mp hb with hb | hb
    · obtain ⟨r', hr', hh⟩ := h.held b hb
      exact ⟨r', List.mem_append_left _ hr', hh⟩
    · obtain rfl := List.mem_singleton.mp hb
      exact ⟨r, List.mem_append_right _ (List.mem_singleton_self r), hP, hR⟩
  · rw [hrows] at hr'
    rcases List.mem_append.mp hr' with hr' | hr'
    · obtain ⟨b, hb, hh⟩ := h.listed r' hr' hP'
      exact ⟨b, List.mem_append_left _ hb, hh⟩
    · obtain rfl := List.mem_singleton.mp hr'
      exact ⟨a, List.mem_append_right _ (List.mem_singleton_self a), hR⟩

omit [DecidableEq τ] [DecidableEq κ] [DecidableEq ν] in
/-- A row without `P` is not listed. -/
theorem append_other (h : Mirrors t P R db L) {r : Row κ ν}
    (hrows : db'.rows t = db.rows t ++ [r]) (hP : ¬ P r.cells) : Mirrors t P R db' L := by
  refine ⟨fun b hb => ?_, fun r' hr' hP' => ?_⟩
  · obtain ⟨r', hr', hh⟩ := h.held b hb
    rw [hrows]
    exact ⟨r', List.mem_append_left _ hr', hh⟩
  · rw [hrows] at hr'
    rcases List.mem_append.mp hr' with hr' | hr'
    · exact h.listed r' hr' hP'
    · obtain rfl := List.mem_singleton.mp hr'
      exact absurd hP' hP

end Mirrors

end Air780eHub.Relational
