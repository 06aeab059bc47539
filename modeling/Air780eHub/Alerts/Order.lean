/-
  No recovery in front of a live timer.

  The loop starts tasks in the order they were spawned and the database answers calls in the order
  they were made.  A timer that can still decide was armed after the last recovery of its module,
  for a recovery takes every timer of the module with it: so it is behind that recovery wherever
  they wait (`Ordered`), and it belongs to the present drop.
-/
import Air780eHub.Alerts.Wiring

namespace Air780eHub.Alerts

namespace View

variable (v : View)

/-- The timer is past its start and has not decided. -/
def Begun (j : Job) : Prop :=
  j.role = .timer ∧ ((∃ c, c ≠ Call.label ∧ (j, c) ∈ v.works) ∨ ∃ d, (j, d) ∈ v.sleeping)

variable {v}

theorem Waiting.of_begun {j : Job} (h : v.Begun j) : v.Waiting j := ⟨h.1, Or.inr h.2⟩

theorem Waiting.of_soon {j : Job} (hr : j.role = .timer) (h : j ∈ v.soon) : v.Waiting j :=
  ⟨hr, Or.inl h⟩

theorem Waiting.cases {j : Job} (h : v.Waiting j) : j ∈ v.soon ∨ v.Begun j :=
  h.2.imp id fun hb => ⟨h.1, hb⟩

end View

/-! ## No recovery in front of a live timer -/

/-- What a timer that can still decide may rely on. -/
structure Ordered (v : View) : Prop where
  soon  : v.soon.Pairwise fun a b =>
    a.role = .timer → a.id ∉ v.cancelled → b.key = a.key → b.role = .timer
  begun : ∀ a, v.Begun a → a.id ∉ v.cancelled → ∀ b ∈ v.soon, b.key = a.key → b.role = .timer
  works : v.works.Pairwise fun a b =>
    a.1.role = .timer → a.2 ≠ .label → a.1.id ∉ v.cancelled → b.2 = .resolve → b.1.key ≠ a.1.key
  drops : ∀ j, v.Waiting j → j.id ∉ v.cancelled → j.drop = v.onlines j.key

namespace Ordered

variable {v v' : View} {grace : Nat} {noted : Key → Prop} {job : Job} {call : Call}
  {works tail : List (Job × Call)} {soon : List Job}

/-- No recovery begins: tasks move on, or are over. -/
theorem move (h : Ordered v) (hsoon : v'.soon.Sublist v.soon) (hw : works.Sublist v.works)
    (hworks : v'.works = works ++ tail) (htail : ∀ x ∈ tail, x.2 ≠ .resolve)
    (hbegun : ∀ j, v'.Begun j → v.Begun j) (hc : v'.cancelled = v.cancelled)
    (ho : v'.onlines = v.onlines) : Ordered v' where
  soon := by
    rw [hc]
    exact h.soon.sublist hsoon
  begun := by
    rw [hc]
    exact fun a ha hlive b hb => h.begun a (hbegun a ha) hlive b (hsoon.subset hb)
  works := by
    rw [hc, hworks]
    refine List.pairwise_append.mpr ⟨h.works.sublist hw, ?_, ?_⟩
    · exact List.pairwise_of_forall_mem_list fun a _ b hb _ _ _ hres => (htail b hb hres).elim
    · exact fun a _ b hb _ _ _ hres => (htail b hb hres).elim
  drops := by
    rw [hc, ho]
    intro j hj hlive
    refine h.drops j ?_ hlive
    rcases hj.cases with hs | hb
    · exact .of_soon hj.1 (hsoon.subset hs)
    · exact .of_begun (hbegun j hb)

/-- A task is over, or nothing happens to it. -/
theorem fewer (h : Ordered v) (hsoon : v'.soon.Sublist v.soon) (hw : v'.works.Sublist v.works)
    (hs : ∀ x ∈ v'.sleeping, x ∈ v.sleeping) (hc : v'.cancelled = v.cancelled)
    (ho : v'.onlines = v.onlines) : Ordered v' := by
  refine h.move hsoon hw (List.append_nil _).symm nofun ?_ hc ho
  rintro j ⟨hr, ⟨c, hl, hj⟩ | ⟨d, hj⟩⟩
  · exact ⟨hr, Or.inl ⟨c, hl, hw.subset hj⟩⟩
  · exact ⟨hr, Or.inr ⟨d, hs _ hj⟩⟩

theorem cleanup (h : Ordered v) (job : Job) : Ordered (v.cleanup job) := by
  unfold View.cleanup
  split
  · exact h.fewer (.refl _) (.refl _) (fun _ hx => hx) rfl rfl
  · exact h

theorem tail_sublist (hw : v.works = (job, call) :: works) : works.Sublist v.works :=
  hw ▸ List.sublist_cons_self _ _

theorem pop (h : Ordered v) (hw : v.works = (job, call) :: works) :
    Ordered { v with works := works } :=
  h.fewer (.refl _) (tail_sublist hw) (fun _ hx => hx) rfl rfl

/-- The first task goes on to its label. -/
theorem label (h : Ordered v) (hw : v.works = (job, call) :: works) :
    Ordered { v with works := works ++ [(job, .label)] } := by
  refine h.move (.refl _) (tail_sublist hw) rfl ?_ ?_ rfl rfl
  · intro x hx
    obtain rfl := List.mem_singleton.mp hx
    exact nofun
  · rintro j ⟨hr, ⟨c, hc, hj⟩ | hj⟩
    · rcases List.mem_append.mp hj with hj | hj
      · exact ⟨hr, Or.inl ⟨c, hc, (tail_sublist hw).subset hj⟩⟩
      · exact (hc (Prod.mk.inj (List.mem_singleton.mp hj)).2).elim
    · exact ⟨hr, Or.inr hj⟩

theorem arm (h : Ordered v) (key : Key) : Ordered (v.arm key) where
  soon := by
    refine List.pairwise_append.mpr ⟨h.soon, List.pairwise_singleton _ _, ?_⟩
    intro a _ b hb _ _ _
    obtain rfl := List.mem_singleton.mp hb
    rfl
  begun := by
    intro a ha hlive b hb hkey
    rcases List.mem_append.mp hb with hb | hb
    · exact h.begun a ha hlive b hb hkey
    · obtain rfl := List.mem_singleton.mp hb
      rfl
  works := h.works
  drops := by
    intro j hj hlive
    rcases hj.cases with hs | hb
    · rcases List.mem_append.mp hs with hs | hs
      · exact h.drops j (.of_soon hj.1 hs) hlive
      · obtain rfl := List.mem_singleton.mp hs
        rfl
    · exact h.drops j (.of_begun hb) hlive

/-- After a recovery was noted no timer of the module is live. -/
theorem live_key (hw : Wired (v.recover key)) {j : Job} (hj : (v.recover key).Waiting j)
    (hlive : j.id ∉ (v.recover key).cancelled) : j.key ≠ key := by
  rintro rfl
  have hpend : (v.pending.erase j.key).get? j.key = some j.id := hw.pending_of_live hj hlive
  rw [Dict.get?_erase] at hpend
  cases hpend

theorem recover (h : Ordered v) (key : Key) (hw : Wired (v.recover key)) :
    Ordered (v.recover key) := by
  have hold : ∀ {i : Nat}, i ∉ (v.recover key).cancelled → i ∉ v.cancelled :=
    fun hlive hc => hlive (List.mem_append_left _ hc)
  refine ⟨?_, ?_, ?_, ?_⟩
  · refine List.pairwise_append.mpr ⟨h.soon.imp fun hab hr hlive => hab hr (hold hlive),
      List.pairwise_singleton _ _, ?_⟩
    intro a ha b hb hr hlive hkey
    obtain rfl := List.mem_singleton.mp hb
    exact (live_key hw (.of_soon hr (List.mem_append_left _ ha)) hlive hkey.symm).elim
  · intro a ha hlive b hb hkey
    rcases List.mem_append.mp hb with hb | hb
    · exact h.begun a ha (hold hlive) b hb hkey
    · obtain rfl := List.mem_singleton.mp hb
      exact (live_key hw (.of_begun ha) hlive hkey.symm).elim
  · exact h.works.imp fun hab hr hl hlive => hab hr hl (hold hlive)
  · intro j hj hlive
    have hne : j.key ≠ key := live_key hw hj hlive
    show j.drop = Function.update v.onlines key (v.onlines key + 1) j.key
    rw [Function.update_of_ne hne]
    refine h.drops j ?_ (hold hlive)
    rcases hj.cases with hs | hb
    · rcases List.mem_append.mp hs with hs | hs
      · exact .of_soon hj.1 hs
      · obtain rfl := List.mem_singleton.mp hs
        exact (hne rfl).elim
    · exact .of_begun hb

theorem begin (h : Ordered v) (hs : v.soon = job :: soon) :
    Ordered { v with soon := soon, works := v.works ++ [(job, job.role.firstCall)] } := by
  have hsoon := h.soon
  rw [hs, List.pairwise_cons] at hsoon
  have hbegun : ∀ j, View.Begun
      { v with soon := soon, works := v.works ++ [(job, job.role.firstCall)] } j →
      v.Begun j ∨ (j = job ∧ job.role = .timer) := by
    rintro j ⟨hr, ⟨c, hc, hj⟩ | hj⟩
    · rcases List.mem_append.mp hj with hj | hj
      · exact Or.inl ⟨hr, Or.inl ⟨c, hc, hj⟩⟩
      · obtain ⟨rfl, -⟩ := Prod.mk.inj (List.mem_singleton.mp hj)
        exact Or.inr ⟨rfl, hr⟩
    · exact Or.inl ⟨hr, Or.inr hj⟩
  refine ⟨hsoon.2, ?_, ?_, ?_⟩
  · intro a ha hlive b hb hkey
    rcases hbegun a ha with ha | ⟨rfl, hr⟩
    · exact h.begun a ha hlive b (hs ▸ List.mem_cons_of_mem _ hb) hkey
    · exact hsoon.1 b hb hr hlive hkey
  · refine List.pairwise_append.mpr ⟨h.works, List.pairwise_singleton _ _, ?_⟩
    intro a ha b hb hr hl hlive hres hkey
    obtain rfl := List.mem_singleton.mp hb
    have hrole : job.role = .timer :=
      h.begun a.1 ⟨hr, Or.inl ⟨a.2, hl, ha⟩⟩ hlive job (hs ▸ List.mem_cons_self) hkey
    replace hres : job.role.firstCall = .resolve := hres
    rw [hrole] at hres
    cases hres
  · intro j hj hlive
    refine h.drops j ?_ hlive
    rcases hj.cases with hj' | hj'
    · exact .of_soon hj.1 (hs ▸ List.mem_cons_of_mem _ hj')
    · rcases hbegun j hj' with hj' | ⟨rfl, hr⟩
      · exact .of_begun hj'
      · exact .of_soon hr (hs ▸ List.mem_cons_self)

/-- **Every step keeps the order.** -/
theorem effect (h : Ordered v) (hw' : Wired v') (he : Effect grace noted v v') : Ordered v' := by
  cases he with
  | quiet d => exact h.fewer (.refl _) (.refl _) (fun _ hx => hx) rfl rfl
  | arm _ hp ha => exact h.arm _
  | recover key => exact h.recover key hw'
  | begin hs _ => exact h.begin hs
  | stillborn hs _ _ =>
    exact h.fewer (hs ▸ List.sublist_cons_self _ _) (.refl _) (fun _ hx => hx) rfl rfl
  | fade hw _ => exact h.pop hw
  | roused hi _ =>
    exact h.fewer (.refl _) (.refl _) (fun _ hx => List.mem_of_mem_eraseIdx hx) rfl rfl
  | giveUp hw _ _ _ => exact (h.pop hw).cleanup _
  | sleep hw ht _ =>
    refine h.move (.refl _) (tail_sublist hw) (List.append_nil _).symm nofun ?_ rfl rfl
    rintro j ⟨hr, ⟨c, hc, hj⟩ | ⟨d, hj⟩⟩
    · exact ⟨hr, Or.inl ⟨c, hc, (tail_sublist hw).subset hj⟩⟩
    · rcases List.mem_append.mp hj with hj | hj
      · exact ⟨hr, Or.inr ⟨d, hj⟩⟩
      · obtain ⟨rfl, -⟩ := Prod.mk.inj (List.mem_singleton.mp hj)
        exact ⟨hr, Or.inl ⟨.enabled, nofun, hw ▸ List.mem_cons_self⟩⟩
  | @wake job d i hi _ _ =>
    refine h.move (.refl _) (.refl _) rfl ?_ ?_ rfl rfl
    · intro x hx
      obtain rfl := List.mem_singleton.mp hx
      exact nofun
    · rintro j ⟨hr, ⟨c, hc, hj⟩ | ⟨d', hj⟩⟩
      · rcases List.mem_append.mp hj with hj | hj
        · exact ⟨hr, Or.inl ⟨c, hc, hj⟩⟩
        · obtain ⟨rfl, -⟩ := Prod.mk.inj (List.mem_singleton.mp hj)
          exact ⟨hr, Or.inr ⟨d, List.mem_of_getElem? hi⟩⟩
      · exact ⟨hr, Or.inr ⟨d', List.mem_of_mem_eraseIdx hj⟩⟩
  | commit hw _ _ => exact (h.label hw).fewer (.refl _) (.refl _) (fun _ hx => hx) rfl rfl
  | page hw _ =>
    refine Ordered.cleanup ?_ _
    exact h.fewer (.refl _) (tail_sublist hw) (fun _ hx => hx) rfl rfl
  | resolved hw _ => exact h.label hw
  | notice hw _ => exact h.fewer (.refl _) (tail_sublist hw) (fun _ hx => hx) rfl rfl
  | restart => exact ⟨.nil, nofun, .nil, by rintro j ⟨-, hj | ⟨c, -, hj⟩ | ⟨d, hj⟩⟩ <;> cases hj⟩

end Ordered

end Air780eHub.Alerts
