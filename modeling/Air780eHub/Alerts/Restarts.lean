/-
  One page for one drop, across restarts (`paged_once`).

  A restart forgets `alerted` and `pending`, and the hello of each Agent then states every module
  again.  The module docstring says that a restart arms no timers, so that a drop is never paged
  twice; but a hello that says "offline" for a module that was paged before the restart arms one.

  The invariant counts a page from the moment it is decided: the pages that were sent and those that
  wait for a label name different drops, and the present drop of a module whose timer is live is
  not among them.
-/
import Air780eHub.Alerts.Alternation

namespace Air780eHub.Alerts

/-- A page that waits for its label. -/
def decidedOf (x : Job × Call) : Option (Key × Nat) :=
  if x.1.role = .timer ∧ x.2 = .label then some (x.1.key, x.1.drop) else none

/-- The drops paged so far, those included that are decided. -/
def View.claimed (v : View) : List (Key × Nat) := v.pages ++ v.works.filterMap decidedOf

/-- No drop is claimed twice. -/
structure Claimed (v : View) : Prop where
  nodup : v.claimed.Nodup
  shown : ∀ j, j.role = .timer → (j, Call.label) ∈ v.works → j.drop = v.onlines j.key →
    j.key ∈ v.alerted
  old   : ∀ j, j.role = .timer → (j, Call.label) ∈ v.works → j.drop ≤ v.onlines j.key
  fresh : ∀ j, v.Waiting j → j.id ∉ v.cancelled → (j.key, v.onlines j.key) ∉ v.pages

namespace Claimed

variable {v v' : View} {grace : Nat} {noted : Key → Prop} {job : Job} {call : Call}
  {works : List (Job × Call)} {key : Key}

theorem decidedOf_ne (h : call ≠ .label) : decidedOf (job, call) = none := if_neg fun hc => h hc.2

theorem decidedOf_label (ht : job.role = .timer) :
    decidedOf (job, .label) = some (job.key, job.drop) := if_pos ⟨ht, rfl⟩

/-- No page is decided or sent. -/
theorem move (h : Claimed v) (hpages : v'.pages = v.pages)
    (hclaimed : (v'.works.filterMap decidedOf).Sublist (v.works.filterMap decidedOf))
    (hlabel : ∀ j, j.role = .timer → (j, Call.label) ∈ v'.works → (j, Call.label) ∈ v.works)
    (halerted : v'.alerted = v.alerted) (ho : v'.onlines = v.onlines)
    (hc : v'.cancelled = v.cancelled) (hwait : ∀ j, v'.Waiting j → v.Waiting j) : Claimed v' where
  nodup := by
    unfold View.claimed
    rw [hpages]
    exact h.nodup.sublist (List.Sublist.append_left hclaimed _)
  shown := by
    rw [halerted, ho]
    exact fun j hr hj => h.shown j hr (hlabel j hr hj)
  old := by
    rw [ho]
    exact fun j hr hj => h.old j hr (hlabel j hr hj)
  fresh := by
    rw [hc, ho, hpages]
    exact fun j hj => h.fresh j (hwait j hj)

/-- Nothing of it changes. -/
theorem same (h : Claimed v) (hpages : v'.pages = v.pages) (hworks : v'.works = v.works)
    (hsoon : v'.soon = v.soon) (hsleep : v'.sleeping = v.sleeping) (halerted : v'.alerted = v.alerted)
    (ho : v'.onlines = v.onlines) (hc : v'.cancelled = v.cancelled) : Claimed v' := by
  refine h.move hpages (hworks ▸ .refl _) (fun j _ hj => hworks ▸ hj) halerted ho hc fun j hj => ?_
  unfold View.Waiting at hj
  rwa [hworks, hsoon, hsleep] at hj

theorem cleanup (h : Claimed v) (job : Job) : Claimed (v.cleanup job) := by
  unfold View.cleanup
  split
  · exact h.same rfl rfl rfl rfl rfl rfl rfl
  · exact h

/-- A task that pages nothing is over, or goes on. -/
theorem pop (h : Claimed v) (hw : v.works = (job, call) :: works) :
    Claimed { v with works := works } := by
  refine h.move rfl ?_ (fun j _ hj => hw ▸ List.mem_cons_of_mem _ hj) rfl rfl rfl ?_
  · rw [hw]
    exact (List.sublist_cons_self _ _).filterMap _
  · rintro j ⟨hr, hj | ⟨c, hc, hj⟩ | hj⟩
    · exact ⟨hr, Or.inl hj⟩
    · exact ⟨hr, Or.inr (Or.inl ⟨c, hc, hw ▸ List.mem_cons_of_mem _ hj⟩)⟩
    · exact ⟨hr, Or.inr (Or.inr hj)⟩

/-- A timer is armed for a drop that was not paged. -/
theorem arm (h : Claimed v) (hnew : (key, v.onlines key) ∉ v.pages) : Claimed (v.arm key) := by
  refine ⟨h.nodup, h.shown, h.old, ?_⟩
  rintro j ⟨hr, hj⟩ hlive
  show (j.key, v.onlines j.key) ∉ v.pages
  rcases hj with hj | hj
  · rcases List.mem_append.mp hj with hj | hj
    · exact h.fresh j ⟨hr, Or.inl hj⟩ hlive
    · obtain rfl := List.mem_singleton.mp hj
      exact hnew
  · exact h.fresh j ⟨hr, Or.inr hj⟩ hlive

theorem recover (h : Claimed v) (hwired : Wired (v.recover key)) : Claimed (v.recover key) := by
  have hnext : ∀ k, k ≠ key → (v.recover key).onlines k = v.onlines k :=
    fun k hk => Function.update_of_ne hk _ _
  have hself : (v.recover key).onlines key = v.onlines key + 1 := Function.update_self _ _ _
  refine ⟨h.nodup, ?_, ?_, ?_⟩
  · intro j hr hj hdrop
    by_cases hkey : j.key = key
    · have hle := h.old j hr hj
      rw [hkey] at hle hdrop
      omega
    · rw [hnext _ hkey] at hdrop
      exact List.mem_filter.mpr ⟨h.shown j hr hj hdrop, bne_iff_ne.mpr hkey⟩
  · intro j hr hj
    have hle := h.old j hr hj
    by_cases hkey : j.key = key
    · rw [hkey] at hle ⊢
      omega
    · rwa [hnext _ hkey]
  · intro j hj hlive
    have hkey : j.key ≠ key := Ordered.live_key hwired hj hlive
    rw [hnext _ hkey]
    refine h.fresh j ?_ fun hc => hlive (List.mem_append_left _ hc)
    refine ⟨hj.1, hj.2.imp (fun hs => ?_) id⟩
    rcases List.mem_append.mp hs with hs | hs
    · exact hs
    · obtain rfl := List.mem_singleton.mp hs
      exact (hkey rfl).elim

theorem begin (h : Claimed v) {soon : List Job} (hs : v.soon = job :: soon) :
    Claimed { v with soon := soon, works := v.works ++ [(job, job.role.firstCall)] } := by
  have hfirst : job.role.firstCall ≠ .label := by
    cases job.role <;> exact nofun
  refine h.move rfl ?_ (fun j _ hj => ?_) rfl rfl rfl ?_
  · rw [List.filterMap_append, List.filterMap_cons_none (decidedOf_ne hfirst), List.filterMap_nil,
      List.append_nil]
  · rcases List.mem_append.mp hj with hj | hj
    · exact hj
    · exact (hfirst (Prod.mk.inj (List.mem_singleton.mp hj)).2.symm).elim
  · rintro j ⟨hr, hj | ⟨c, hc, hj⟩ | hj⟩
    · exact ⟨hr, Or.inl (hs ▸ List.mem_cons_of_mem _ hj)⟩
    · rcases List.mem_append.mp hj with hj | hj
      · exact ⟨hr, Or.inr (Or.inl ⟨c, hc, hj⟩)⟩
      · obtain ⟨rfl, -⟩ := Prod.mk.inj (List.mem_singleton.mp hj)
        exact ⟨hr, Or.inl (hs ▸ List.mem_cons_self)⟩
    · exact ⟨hr, Or.inr (Or.inr hj)⟩

theorem resolved (h : Claimed v) (hw : v.works = (job, .resolve) :: works)
    (hr : job.role = .recovery true) : Claimed { v with works := works ++ [(job, .label)] } := by
  have hnone : decidedOf (job, .label) = none := by
    refine if_neg fun hc => ?_
    rw [hr] at hc
    cases hc.1
  refine h.move rfl ?_ (fun j ht hj => ?_) rfl rfl rfl ?_
  · rw [List.filterMap_append, List.filterMap_cons_none hnone, List.filterMap_nil, List.append_nil,
      hw]
    exact (List.sublist_cons_self _ _).filterMap _
  · rcases List.mem_append.mp hj with hj | hj
    · exact hw ▸ List.mem_cons_of_mem _ hj
    · obtain ⟨rfl, -⟩ := Prod.mk.inj (List.mem_singleton.mp hj)
      rw [hr] at ht
      cases ht
  · rintro j ⟨ht, hj | ⟨c, hc, hj⟩ | hj⟩
    · exact ⟨ht, Or.inl hj⟩
    · rcases List.mem_append.mp hj with hj | hj
      · exact ⟨ht, Or.inr (Or.inl ⟨c, hc, hw ▸ List.mem_cons_of_mem _ hj⟩)⟩
      · exact (hc (Prod.mk.inj (List.mem_singleton.mp hj)).2).elim
    · exact ⟨ht, Or.inr (Or.inr hj)⟩

/-- The module of a live timer is not alerted. -/
theorem not_alerted (hwired : Wired v) {j : Job} (hj : v.Waiting j) (hlive : j.id ∉ v.cancelled) :
    j.key ∉ v.alerted := by
  intro ha
  have hpend := hwired.pending_of_live hj hlive
  rw [hwired.excl _ ha] at hpend
  cases hpend

theorem commit (h : Claimed v) (hwired : Wired v) (hord : Ordered v)
    (hw : v.works = (job, .record) :: works) (ht : job.role = .timer)
    (hlive : job.id ∉ v.cancelled) :
    Claimed
      { v with works := works ++ [(job, .label)], alerted := job.key :: v.alerted
               pending := v.pending.erase job.key } := by
  have hwait : v.Waiting job := Wired.waiting_head hw ht nofun
  have hdrop : job.drop = v.onlines job.key := hord.drops job hwait hlive
  have hold : ∀ {x : Job × Call}, x ∈ works → x ∈ v.works :=
    fun hx => hw ▸ List.mem_cons_of_mem _ hx
  have hsplit : ∀ {j : Job}, (j, Call.label) ∈ works ++ [(job, Call.label)] →
      (j, Call.label) ∈ v.works ∨ j = job := by
    intro j hj
    rcases List.mem_append.mp hj with hj | hj
    · exact Or.inl (hold hj)
    · exact Or.inr (Prod.mk.inj (List.mem_singleton.mp hj)).1
  refine ⟨?_, ?_, ?_, ?_⟩
  · have hnew : (job.key, job.drop) ∉ v.pages ++ works.filterMap decidedOf := by
      intro hm
      rcases List.mem_append.mp hm with hm | hm
      · exact h.fresh job hwait hlive (hdrop ▸ hm)
      · obtain ⟨⟨j, c⟩, hj, he⟩ := List.mem_filterMap.mp hm
        unfold decidedOf at he
        split at he
        · rename_i hc
          obtain ⟨hr, rfl⟩ := hc
          obtain ⟨hkey, hd⟩ := Prod.mk.inj (Option.some.inj he)
          have hshown := h.shown j hr (hold hj) (by rw [hkey, hd, hdrop])
          exact not_alerted hwired hwait hlive (hkey ▸ hshown)
        · cases he
    have hrest : (v.pages ++ works.filterMap decidedOf).Nodup := (h.pop hw).nodup
    show (v.pages ++ (works ++ [(job, Call.label)]).filterMap decidedOf).Nodup
    rw [List.filterMap_append, ← List.append_assoc,
      List.filterMap_cons_some (decidedOf_label ht), List.filterMap_nil]
    exact List.nodup_append_comm.mp (List.nodup_cons.mpr ⟨hnew, hrest⟩)
  · intro j hr hj hd
    rcases hsplit hj with hj | rfl
    · exact List.mem_cons_of_mem _ (h.shown j hr hj hd)
    · exact List.mem_cons_self
  · intro j hr hj
    rcases hsplit hj with hj | rfl
    · exact h.old j hr hj
    · exact Nat.le_of_eq hdrop
  · rintro j ⟨hr, hj | ⟨c, hc, hj⟩ | hj⟩ hjlive
    · exact h.fresh j ⟨hr, Or.inl hj⟩ hjlive
    · rcases List.mem_append.mp hj with hj | hj
      · exact h.fresh j ⟨hr, Or.inr (Or.inl ⟨c, hc, hold hj⟩)⟩ hjlive
      · exact (hc (Prod.mk.inj (List.mem_singleton.mp hj)).2).elim
    · exact h.fresh j ⟨hr, Or.inr (Or.inr hj)⟩ hjlive

theorem page (h : Claimed v) (hwired : Wired v) (hw : v.works = (job, .label) :: works)
    (ht : job.role = .timer) :
    Claimed { v with works := works, calls := v.calls ++ [⟨job.key, true, job⟩]
                     pages := v.pages ++ [(job.key, job.drop)] } := by
  have hhead : (job, Call.label) ∈ v.works := hw ▸ List.mem_cons_self
  have hold : ∀ {x : Job × Call}, x ∈ works → x ∈ v.works :=
    fun hx => hw ▸ List.mem_cons_of_mem _ hx
  refine ⟨?_, fun j hr hj => h.shown j hr (hold hj), fun j hr hj => h.old j hr (hold hj), ?_⟩
  · have hn := h.nodup
    unfold View.claimed at hn
    rw [hw, List.filterMap_cons_some (decidedOf_label ht)] at hn
    show (v.pages ++ [(job.key, job.drop)] ++ works.filterMap decidedOf).Nodup
    rwa [List.append_assoc, List.singleton_append]
  · rintro j hj hlive hm
    have hwait : v.Waiting j := by
      refine ⟨hj.1, hj.2.imp id (Or.imp (fun ⟨c, hc, hm⟩ => ?_) id)⟩
      exact ⟨c, hc, hold hm⟩
    rcases List.mem_append.mp hm with hm | hm
    · exact h.fresh j hwait hlive hm
    · -- the page of the present drop: then the module is alerted, and has no live timer
      obtain ⟨hkey, hdrop⟩ := Prod.mk.inj (List.mem_singleton.mp hm)
      refine not_alerted hwired hwait hlive ?_
      rw [hkey]
      exact h.shown job ht hhead (hkey ▸ hdrop.symm)

/-- **Every step keeps the claims apart, if it arms no timer for a drop that was paged.** -/
theorem effect (h : Claimed v) (hs : Sound grace v) (hs' : Sound grace v')
    (hnew : ∀ key, noted key → key ∉ v.alerted → (key, v.onlines key) ∉ v.pages)
    (he : Effect grace noted v v') : Claimed v' := by
  cases he with
  | quiet d => exact h.same rfl rfl rfl rfl rfl rfl rfl
  | arm hk hp ha => exact h.arm (hnew _ hk ha)
  | recover key => exact h.recover hs'.wired
  | begin hsoon _ => exact h.begin hsoon
  | stillborn hsoon _ _ =>
    refine h.move rfl (.refl _) (fun j _ hj => hj) rfl rfl rfl ?_
    rintro j ⟨hr, hj | hj⟩
    · exact ⟨hr, Or.inl (hsoon ▸ List.mem_cons_of_mem _ hj)⟩
    · exact ⟨hr, Or.inr hj⟩
  | fade hw _ => exact h.pop hw
  | roused hi _ =>
    refine h.move rfl (.refl _) (fun j _ hj => hj) rfl rfl rfl ?_
    rintro j ⟨hr, hj | hj | ⟨d', hj⟩⟩
    · exact ⟨hr, Or.inl hj⟩
    · exact ⟨hr, Or.inr (Or.inl hj)⟩
    · exact ⟨hr, Or.inr (Or.inr ⟨d', List.mem_of_mem_eraseIdx hj⟩)⟩
  | giveUp hw _ _ _ => exact (h.pop hw).cleanup _
  | @sleep job works hw ht _ =>
    refine h.move rfl ?_ (fun j _ hj => hw ▸ List.mem_cons_of_mem _ hj) rfl rfl rfl ?_
    · rw [hw]
      exact (List.sublist_cons_self _ _).filterMap _
    · rintro j ⟨hr, hj | ⟨c, hc, hj⟩ | ⟨d, hj⟩⟩
      · exact ⟨hr, Or.inl hj⟩
      · exact ⟨hr, Or.inr (Or.inl ⟨c, hc, hw ▸ List.mem_cons_of_mem _ hj⟩)⟩
      · rcases List.mem_append.mp hj with hj | hj
        · exact ⟨hr, Or.inr (Or.inr ⟨d, hj⟩)⟩
        · obtain ⟨rfl, -⟩ := Prod.mk.inj (List.mem_singleton.mp hj)
          exact Wired.waiting_head hw hr nofun
  | @wake job d i hi _ _ =>
    refine h.move rfl ?_ (fun j _ hj => ?_) rfl rfl rfl ?_
    · rw [List.filterMap_append, List.filterMap_cons_none (@decidedOf_ne job .record nofun),
        List.filterMap_nil, List.append_nil]
    · rcases List.mem_append.mp hj with hj | hj
      · exact hj
      · exact nomatch (Prod.mk.inj (List.mem_singleton.mp hj)).2
    · rintro j ⟨hr, hj | ⟨c, hc, hj⟩ | ⟨d', hj⟩⟩
      · exact ⟨hr, Or.inl hj⟩
      · rcases List.mem_append.mp hj with hj | hj
        · exact ⟨hr, Or.inr (Or.inl ⟨c, hc, hj⟩)⟩
        · obtain ⟨rfl, -⟩ := Prod.mk.inj (List.mem_singleton.mp hj)
          exact ⟨hr, Or.inr (Or.inr ⟨d, List.mem_of_getElem? hi⟩)⟩
      · exact ⟨hr, Or.inr (Or.inr ⟨d', List.mem_of_mem_eraseIdx hj⟩)⟩
  | commit hw ht hlive => exact h.commit hs.wired hs.ordered hw ht hlive
  | page hw ht => exact (h.page hs.wired hw ht).cleanup _
  | resolved hw hr => exact h.resolved hw hr
  | notice hw _ => exact (h.pop hw).same rfl rfl rfl rfl rfl rfl rfl
  | restart =>
    refine ⟨?_, nofun, nofun, ?_⟩
    · show (v.pages ++ []).Nodup
      rw [List.append_nil]
      exact (List.nodup_append.mp h.nodup).1
    · rintro j ⟨-, hj | ⟨c, -, hj⟩ | ⟨d, hj⟩⟩ <;> cases hj

end Claimed

/-! ## Every run -/

variable {grace : Nat} {s : State}

/-- A module is not noted offline in a drop that was paged, unless this process knows of the page.
    It does not when the page was sent before a restart. -/
def State.unpaged (s : State) : Act → Bool
  | .note key false => s.alerted.contains key || !s.pages.contains (key, s.onlines key)
  | _               => true

/-- **One page for one drop.**  In every run that notes no module offline whose present drop was
    paged before a restart, no drop of any module is paged twice, however often the Server restarts
    and its Agents reconnect. -/
theorem paged_once (h : (alerter grace).ReachableBy (fun s a => s.unpaged a = true) s) :
    s.pages.Nodup := by
  have hclaimed : Claimed s.view := by
    refine Machine.ReachableBy.bundle (I := fun s => Sound grace s.view)
      (J := fun s => Claimed s.view) (fun s hs => alerter_sound hs.reachable) ?_ ?_ h
    · rintro s rfl
      refine ⟨.nil, nofun, nofun, ?_⟩
      rintro j ⟨-, hj | ⟨c, -, hj⟩ | ⟨d, hj⟩⟩ <;> cases hj
    · intro s a s' hs hc hg hstep
      have heff := step_effect hstep
      refine hc.effect hs (hs.effect heff) ?_ heff
      rintro key rfl ha hm
      have hu : (s.alerted.contains key || !s.pages.contains (key, s.onlines key)) = true := hg
      rw [Bool.or_eq_true, List.contains_iff_mem, Bool.not_eq_true', ← Bool.not_eq_true,
        List.contains_iff_mem] at hu
      exact hu.elim ha fun hn => hn hm
  exact (List.nodup_append.mp hclaimed.nodup).1

/-- A module drops and is paged after ten seconds. -/
def dropAndPage (key : Key) : List Act :=
  [.note key false, .start, .execute, .resume, .tick 10, .wake 0, .execute, .resume, .execute,
   .resume]

/-- It comes back before a restart, and drops again: two pages, for two drops. -/
theorem paged_once_twice :
    ∃ s : State, s.pages = [(("agent", "cat1"), 0), (("agent", "cat1"), 1)] ∧ s.pages.Nodup :=
  have hrun : (alerter 10).ReachableBy (fun s a => s.unpaged a = true) _ :=
    ⟨{}, rfl, @Machine.runBy_path _ _ (alerter 10) _ _ _
      (dropAndPage ("agent", "cat1") ++ .note ("agent", "cat1") true :: .restart ::
        dropAndPage ("agent", "cat1")) rfl⟩
  ⟨_, rfl, paged_once hrun⟩

/-- It stays away over a restart: the hello arms a timer, and the same drop is paged again. -/
theorem restart_pages_again :
    ∃ s : State, (alerter 10).run {} (dropAndPage ("agent", "cat1") ++ .restart ::
        dropAndPage ("agent", "cat1")) = some s ∧
      s.recovered = [] ∧ s.pages = [(("agent", "cat1"), 0), (("agent", "cat1"), 0)] ∧
      ¬ s.pages.Nodup :=
  ⟨_, rfl, rfl, rfl, by decide⟩

end Air780eHub.Alerts
