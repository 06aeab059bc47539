/-
  One planned occurrence, one automatic execution, across restarts.

  `run_manual` advances the stored schedule before the side effect; `_execute` does so after it.  In
  between the stored plan is one whose side effect has already happened.
  1. **The condition** (`State.Undisturbed`): the process does not end, and the reschedule does not
     raise, while an execution started by a tick has had its side effect.
  2. **The invariant** (`State.Once`): a stored plan whose side effect has succeeded is still being
     executed.
  3. **The law** (`occurrence_once`): after the side effect of a plan succeeded, no tick starts
     that plan again.  `crash_repeats` loses the advance to a crash.
-/
import Air780eHub.Schedule.Edits

namespace Air780eHub.Schedule

/-! ## The condition -/

/-- An execution started by a tick whose side effect has succeeded and which has not ended. -/
def Execution.Committed (e : Execution) : Prop :=
  e.cause.plans ≠ [] ∧ e.effect = true ∧ e.phase ≠ .done

instance (e : Execution) : Decidable e.Committed := inferInstanceAs (Decidable (_ ∧ _))

/-- No `stop` or crash cuts off a committed execution, and none ends with a schedule that date
    arithmetic gives up on. -/
structure State.Undisturbed (s : State) (a : Act) : Prop where
  ends     : a.ends = true → ∀ id e, s.running.get? id = some e → ¬ e.Committed
  finishes : ∀ e now draw, s.finishes a = some (e, now, draw) → e.Committed →
    ¬ e.task.schedule.Escapes now draw

/-! ## The invariant -/

/-- What is known of the plans whose side effect has succeeded. -/
structure State.Once (s : State) : Prop where
  /-- No tick started one. -/
  fired  : ∀ f ∈ s.fired, f.spent = false
  /-- One that is still stored is still being executed. -/
  kept   : ∀ r ∈ s.tasks.rows, ∀ p ∈ r.nextRunAt, p ∈ s.spent →
    ∃ e, s.running.get? r.id = some e ∧ p ∈ e.cause.plans ∧ e.phase ≠ .done
  /-- One that is being executed is marked as such. -/
  marked : ∀ id e, s.running.get? id = some e → ∀ p ∈ e.cause.plans, p ∈ s.spent → e.effect = true

/-- A plan just made has had no side effect. -/
theorem State.Makes.not_spent {s : State} {t : Row} {c : Int} {p : Plan} (hw : s.Wired)
    (h : s.Makes t c p) : p ∉ s.spent := by
  intro hp
  have hlt := hw.spent p hp
  rw [h.number] at hlt
  exact absurd hlt (Nat.lt_irrefl _)

/-- A stored plan of a task that does not run has had no side effect. -/
theorem State.Once.free {s : State} (h : s.Once) {r : Row} {p : Plan} (hr : r ∈ s.tasks.rows)
    (hp : r.nextRunAt = some p) (hfree : s.running.get? r.id = none) : p ∉ s.spent := by
  intro hspent
  obtain ⟨e, he, -⟩ := h.kept r hr p hp hspent
  rw [hfree] at he
  cases he

/-- An update of one task, after which its plan has had no side effect. -/
theorem State.Once.update {s : State} (h : s.Once) {id n : Nat} {f : Row → Row}
    {hf : ∀ r, (f r).id = r.id} (hnew : ∀ r, ∀ p ∈ (f r).nextRunAt, p ∉ s.spent) :
    State.Once { s with tasks := s.tasks.update id f hf, plans := n } := by
  refine ⟨h.fired, fun r hr p hp hspent => ?_, h.marked⟩
  rcases TaskTable.of_mem_update hf hr with ⟨hold, -⟩ | ⟨r₀, -, -, rfl⟩
  · exact h.kept r hold p hp hspent
  · exact absurd hspent (hnew r₀ p hp)

/-- Entering an execution under the id of a task whose stored plan, if it has had its side effect,
    is the one executed. -/
theorem State.Once.setRun {s : State} (h : s.Once) {e : Execution}
    (hkept : ∀ r ∈ s.tasks.rows, r.id = e.task.id → ∀ p ∈ r.nextRunAt, p ∈ s.spent →
      p ∈ e.cause.plans ∧ e.phase ≠ .done)
    (hmarked : ∀ p ∈ e.cause.plans, p ∈ s.spent → e.effect = true) : (s.setRun e).Once where
  fired := h.fired
  kept r hr p hp hspent := by
    by_cases hid : r.id = e.task.id
    · exact ⟨e, by rw [hid]; exact s.setRun_get? e, hkept r hr hid p hp hspent⟩
    · obtain ⟨e₀, he₀, hrest⟩ := h.kept r hr p hp hspent
      exact ⟨e₀, (Dict.get?_set_ne hid).trans he₀, hrest⟩
  marked id e₀ he₀ := by
    rcases State.of_setRun he₀ with ⟨-, rfl⟩ | ⟨-, hold⟩
    · exact hmarked
    · exact h.marked id e₀ hold

/-- Every move of an undisturbed step keeps the invariant. -/
theorem State.Once.move {F : State → Execution → DateTime → Int → Prop} {L : State → Prop}
    {c : Int} {s s' : State} (hm : Move F L c s s') (hw : s.Wired) (h : s.Once)
    (hfin : ∀ e now draw, F s e now draw → e.Committed → ¬ e.task.schedule.Escapes now draw)
    (hends : L s → ∀ id e, s.running.get? id = some e → ¬ e.Committed) : s'.Once := by
  cases hm with
  | aside htasks hrun hfired hspent hplans =>
    exact ⟨by rw [hfired]; exact h.fired, by rw [htasks, hrun, hspent]; exact h.kept,
      by rw [hrun, hspent]; exact h.marked⟩
  | planned t p ht hfree hp =>
    refine h.update fun r q hq => ?_
    obtain rfl := Option.some.inj hq
    exact hp.not_spent hw
  | started t p hrow hfree =>
    obtain ⟨r, hr, hid, hnext⟩ := hrow
    have hnot : p ∉ s.spent := h.free hr hnext (hid ▸ hfree)
    have hfired : State.Once { s with fired := s.fired ++ [⟨p, p ∈ s.spent⟩] } := by
      refine { h with fired := fun f hf => ?_ }
      rcases List.mem_append.mp hf with hf | hf
      · exact h.fired f hf
      · rw [List.mem_singleton.mp hf]
        exact decide_eq_false hnot
    refine hfired.setRun (fun r' hr' hid' q hq hspent => ?_) fun q hq hspent => ?_
    · exact absurd hspent (h.free hr' hq (hid' ▸ hfree))
    · obtain rfl := List.mem_singleton.mp hq
      exact absurd hspent hnot
  | rescheduled e e' now draw last next n hf hrun hlive htask hcause hdone heffect hnow hnext hn =>
    have hfresh : ∀ p ∈ next, p ∉ s.spent := fun p hp => (hnext p hp).1.not_spent hw
    have hupd : State.Once
        { s with tasks := s.tasks.markTaskRun e.task.id last next, plans := n } :=
      h.update fun _ p hp => hfresh p hp
    refine hupd.setRun (fun r hr hid p hp hspent => ?_) fun p hp hspent => ?_
    · -- the stored plan is the new one
      have heq := TaskTable.nextRunAt_markTaskRun hr (hid.trans (by rw [htask]))
      exact absurd hspent (hfresh p (heq ▸ hp))
    · rw [heffect]
      exact h.marked _ e hrun p (hcause ▸ hp) hspent
  | broken e e' now draw hf hrun hlive htask hcause hdone heffect hesc =>
    refine h.setRun (fun r hr hid p hp hspent => ?_) fun p hp hspent => ?_
    · -- the stored plan would be committed, and then the reschedule does not raise
      rw [htask] at hid
      obtain ⟨e₀, he₀, hplan, -⟩ := h.kept r hr p hp hspent
      rw [hid, hrun] at he₀
      obtain rfl := Option.some.inj he₀
      have hmark := h.marked _ e hrun p hplan hspent
      exact absurd hesc (hfin e now draw hf ⟨List.ne_nil_of_mem hplan, hmark, hlive⟩)
    · rw [heffect]
      exact h.marked _ e hrun p (hcause ▸ hp) hspent
  | advanced t last next n ht hfree hnext hn =>
    exact h.update fun _ p hp => (hnext p hp).1.not_spent hw
  | entered e hfree hcause =>
    refine h.setRun (fun r hr hid p hp hspent => ?_) fun p hp hspent => ?_
    · exact absurd hspent (h.free hr hp (hid ▸ hfree))
    · rw [hcause] at hp
      cases hp
  | continued e e' hrun hlive htask hcause hlive' heffect =>
    refine h.setRun (fun r hr hid p hp hspent => ?_) fun p hp hspent => ?_
    · rw [htask] at hid
      obtain ⟨e₀, he₀, hplan, -⟩ := h.kept r hr p hp hspent
      rw [hid, hrun] at he₀
      obtain rfl := Option.some.inj he₀
      exact ⟨hcause ▸ hplan, hlive'⟩
    · rw [heffect]
      exact h.marked _ e hrun p (hcause ▸ hp) hspent
  | effected e hrun hlive =>
    have hmember : ∀ id e₀, s.running.get? id = some e₀ → ∀ p ∈ e₀.cause.plans,
        p ∈ e.cause.plans → id = e.task.id := fun id e₀ he₀ p hp hp' =>
      (hw.timed id e₀ he₀ p hp).1.symm.trans (hw.timed _ e hrun p hp').1
    refine ⟨h.fired, fun r hr p hp hspent => ?_, fun id e₀ he₀ p hp hspent => ?_⟩
    · by_cases hid : r.id = e.task.id
      · refine ⟨{ e with effect := true }, by rw [hid]; exact State.setRun_get? _ _, ?_, hlive⟩
        rcases List.mem_append.mp hspent with hnew | hold
        · exact hnew
        · obtain ⟨e₀, he₀, hplan, -⟩ := h.kept r hr p hp hold
          rw [hid, hrun] at he₀
          obtain rfl := Option.some.inj he₀
          exact hplan
      · rcases List.mem_append.mp hspent with hnew | hold
        · -- a stored plan belongs to its row
          have htask := (hw.stored r hr p hp).1
          exact absurd (htask.symm.trans (hw.timed _ e hrun p hnew).1) hid
        · obtain ⟨e₀, he₀, hrest⟩ := h.kept r hr p hp hold
          exact ⟨e₀, (Dict.get?_set_ne hid).trans he₀, hrest⟩
    · rcases State.of_setRun he₀ with ⟨-, rfl⟩ | ⟨hne, hold⟩
      · rfl
      · rcases List.mem_append.mp hspent with hnew | hspent
        · exact absurd (hmember id e₀ hold p hp hnew) hne
        · exact h.marked id e₀ hold p hp hspent
  | left id e hrun hover =>
    refine ⟨h.fired, fun r hr p hp hspent => ?_, fun id' e' he' => h.marked id' e' (of_erase he').2⟩
    obtain ⟨e₀, he₀, hplan, hlive⟩ := h.kept r hr p hp hspent
    by_cases hid : r.id = id
    · rw [hid, hrun] at he₀
      obtain rfl := Option.some.inj he₀
      rcases hover with hdone | hnone
      · exact absurd hdone hlive
      · rw [hnone] at hplan
        cases hplan
    · exact ⟨e₀, (Dict.get?_erase_ne hid).trans he₀, hplan, hlive⟩
  | synced incoming hids =>
    refine { h with kept := fun r hr p hp hspent => ?_ }
    rcases TaskTable.of_mem_replaceTasks (h := hids) hr with hnone | ⟨r₀, h₀, hid, -, hnext⟩
    · rw [hnone] at hp
      cases hp
    · rw [← hid]
      exact h.kept r₀ h₀ p (hnext ▸ hp) hspent
  | lost hl =>
    refine ⟨h.fired, fun r hr p hp hspent => ?_, fun id e he => by cases he⟩
    obtain ⟨e, he, hplan, hlive⟩ := h.kept r hr p hp hspent
    have hmark := h.marked _ e he p hplan hspent
    exact absurd ⟨List.ne_nil_of_mem hplan, hmark, hlive⟩ (hends hl r.id e he)

/-! ## The law -/

/-- What a move adds to the history: side effects stay, and a start is recorded with whether its plan
    had had one. -/
def State.Adds (s t : State) : Prop :=
  (∀ p ∈ s.spent, p ∈ t.spent)
    ∧ ∃ more, t.fired = s.fired ++ more ∧ ∀ f ∈ more, f.plan ∈ s.spent → f.spent = true

theorem State.Adds.refl (s : State) : s.Adds s :=
  ⟨fun _ hp => hp, [], (List.append_nil _).symm, fun _ hf => absurd hf List.not_mem_nil⟩

theorem State.Adds.trans {s t r : State} (h : s.Adds t) (h' : t.Adds r) : s.Adds r := by
  obtain ⟨hspent, more, hfired, hmore⟩ := h
  obtain ⟨hspent', more', hfired', hmore'⟩ := h'
  refine ⟨fun p hp => hspent' p (hspent p hp), more ++ more', ?_, fun f hf hp => ?_⟩
  · rw [hfired', hfired, List.append_assoc]
  · rcases List.mem_append.mp hf with hf | hf
    · exact hmore f hf hp
    · exact hmore' f hf (hspent _ hp)

/-- Nothing was started and no side effect forgotten. -/
theorem State.Adds.of_eq {s t : State} (hspent : ∀ p ∈ s.spent, p ∈ t.spent)
    (hfired : t.fired = s.fired) : s.Adds t :=
  ⟨hspent, [], by rw [hfired, List.append_nil], fun _ hf => absurd hf List.not_mem_nil⟩

theorem State.Adds.move {F : State → Execution → DateTime → Int → Prop} {L : State → Prop}
    {c : Int} {s s' : State} (hm : Move F L c s s') : s.Adds s' := by
  cases hm with
  | started t p hrow hfree =>
    refine ⟨fun _ hp => hp, [⟨p, p ∈ s.spent⟩], rfl, fun f hf hp => ?_⟩
    obtain rfl := List.mem_singleton.mp hf
    exact decide_eq_true hp
  | aside htasks hrun hfired hspent hplans => exact .of_eq (fun _ hp => hspent ▸ hp) hfired
  | effected e hrun hlive => exact .of_eq (fun _ hp => List.mem_append_right _ hp) rfl
  | planned t p ht hfree hp => exact .of_eq (fun _ hp => hp) rfl
  | rescheduled e e' now draw last next n hf hrun hlive htask hcause hdone heffect hnow hnext hn =>
    exact .of_eq (fun _ hp => hp) rfl
  | broken e e' now draw hf hrun hlive htask hcause hdone heffect hesc =>
    exact .of_eq (fun _ hp => hp) rfl
  | advanced t last next n ht hfree hnext hn => exact .of_eq (fun _ hp => hp) rfl
  | entered e hfree hcause => exact .of_eq (fun _ hp => hp) rfl
  | continued e e' hrun hlive htask hcause hlive' heffect => exact .of_eq (fun _ hp => hp) rfl
  | left id e hrun hover => exact .of_eq (fun _ hp => hp) rfl
  | synced incoming hids => exact .of_eq (fun _ hp => hp) rfl
  | lost hl => exact .of_eq (fun _ hp => hp) rfl

/-- A plan whose side effect has succeeded was not started by a tick of an undisturbed run. -/
theorem once {s : State} (h : scheduler.ReachableBy State.Undisturbed s) : s.Once := by
  refine run_invariant (I := fun _ => State.Once) ?_ (fun _ _ _ _ h => h) ?_ h
  · intro s hs
    refine ⟨fun f hf => ?_, fun r hr => ?_, fun id e he => ?_⟩
    · rw [hs.fired] at hf; cases hf
    · rw [hs.tasks] at hr; cases hr
    · rw [Dict.get?, hs.running] at he; cases he
  · intro s a hg s₁ s₂ hm hw hI
    refine hI.move hm hw ?_ ?_
    · rintro e now draw ⟨rfl, hfin⟩
      exact hg.finishes e now draw hfin
    · rintro ⟨hends, hrun⟩ id e he
      rw [hrun] at he
      exact hg.ends hends id e he

/-- A check of the condition that a run can evaluate. -/
def State.undisturbed (s : State) (a : Act) : Bool :=
  (!a.ends || s.running.entries.all fun entry => decide (¬ entry.2.Committed))
    && match s.finishes a with
      | none                => true
      | some (e, now, draw) => match nextRun e.task.schedule now now draw with
        | .ok _    => true
        | .error x => x = .scheduleError

theorem State.undisturbed_spec {s : State} {a : Act} (h : s.undisturbed a = true) :
    s.Undisturbed a := by
  rw [undisturbed, Bool.and_eq_true] at h
  obtain ⟨hends, hfin⟩ := h
  refine ⟨fun he id e hrun => ?_, fun e now draw hf _ hesc => ?_⟩
  · rw [he] at hends
    exact of_decide_eq_true (List.all_eq_true.mp hends _ (Dict.mem_of_get? hrun))
  · obtain ⟨x, hx, hne⟩ := (nextRun_escapes _ now now draw).mpr hesc
    simp only [hf, hx] at hfin
    exact hne (of_decide_eq_true hfin)

end Air780eHub.Schedule
