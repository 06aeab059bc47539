/-
  Tasks, timers and the two maps of the offline alerter: who is where (`Wired`).

  A timer is LIVE while it has not decided and is not cancelled.  `pending` holds exactly the live
  timers: a note of recovery takes a timer out of it and cancels it, and a timer that ends takes
  itself out, never another.  That a task waits in one place only, under an id of its own, is what
  makes the check in `finally` and the `pop` after paging hit the right timer.
-/
import Air780eHub.Alerts.Effects

namespace Air780eHub.Alerts

namespace View

/-- The tasks, wherever they wait. -/
def jobs (v : View) : List Job := v.soon ++ (v.works.map Prod.fst ++ v.sleeping.map Prod.fst)

/-- The timer has not decided yet. -/
def Waiting (v : View) (j : Job) : Prop :=
  j.role = .timer ∧
    (j ∈ v.soon ∨ (∃ c, c ≠ Call.label ∧ (j, c) ∈ v.works) ∨ ∃ d, (j, d) ∈ v.sleeping)

end View

/-- A task waits only for calls it makes. -/
def Fits (x : Job × Call) : Prop :=
  (x.1.role = .timer → x.2 ≠ .resolve) ∧
    ∀ a, x.1.role = .recovery a → x.2 = .resolve ∨ (x.2 = .label ∧ a = true)

/-- Who is where. -/
structure Wired (v : View) : Prop where
  nodup          : (v.jobs.map Job.id).Nodup
  fresh          : ∀ j ∈ v.jobs, j.id < v.nextId
  pendingFresh   : ∀ k i, v.pending.get? k = some i → i < v.nextId
  cancelledFresh : ∀ i ∈ v.cancelled, i < v.nextId
  mine           : ∀ k, ∀ j ∈ v.jobs, v.pending.get? k = some j.id → j.key = k ∧ j.role = .timer
  live           : ∀ j, v.Waiting j → (j.id ∈ v.cancelled ↔ v.pending.get? j.key ≠ some j.id)
  labelled       : ∀ j, (j, Call.label) ∈ v.works → v.pending.get? j.key ≠ some j.id
  fits           : ∀ x ∈ v.works, Fits x
  sleepers       : ∀ x ∈ v.sleeping, x.1.role = .timer
  excl           : ∀ k ∈ v.alerted, v.pending.get? k = none

namespace Wired

variable {v v' : View} {grace : Nat} {noted : Key → Prop} {job : Job} {call : Call}
  {works : List (Job × Call)}

/-! ## One place for each task -/

theorem mem_jobs_of_waiting {j : Job} (h : v.Waiting j) : j ∈ v.jobs := by
  obtain ⟨-, h | ⟨c, -, h⟩ | ⟨d, h⟩⟩ := h
  · exact List.mem_append_left _ h
  · exact List.mem_append_right _ (List.mem_append_left _ (List.mem_map_of_mem (f := Prod.fst) h))
  · exact List.mem_append_right _ (List.mem_append_right _ (List.mem_map_of_mem (f := Prod.fst) h))

theorem unique (h : Wired v) {j j' : Job} (hj : j ∈ v.jobs) (hj' : j' ∈ v.jobs)
    (he : j.id = j'.id) : j = j' :=
  List.inj_on_of_nodup_map h.nodup hj hj' he

/-- The tasks beside the one whose call is first. -/
theorem jobs_perm_works (hw : v.works = (job, call) :: works) :
    v.jobs.Perm (job :: { v with works := works }.jobs) := by
  unfold View.jobs
  rw [hw]
  exact List.perm_middle

theorem jobs_perm_soon {soon : List Job} (hs : v.soon = job :: soon) :
    v.jobs.Perm (job :: { v with soon := soon }.jobs) := by
  unfold View.jobs
  rw [hs]
  exact .refl _

theorem jobs_perm_sleeping {i d : Nat} (hi : v.sleeping[i]? = some (job, d)) :
    v.jobs.Perm (job :: { v with sleeping := v.sleeping.eraseIdx i }.jobs) := by
  obtain ⟨hlt, hget⟩ := List.getElem?_eq_some_iff.mp hi
  have hperm : v.sleeping.Perm ((job, d) :: v.sleeping.eraseIdx i) := by
    have hp := List.getElem_cons_eraseIdx_perm hlt
    rw [hget] at hp
    exact hp.symm
  unfold View.jobs
  refine List.Perm.trans (List.Perm.append_left _ (List.Perm.append_left _ (hperm.map _))) ?_
  rw [List.map_cons]
  exact (List.Perm.append_left _ List.perm_middle).trans List.perm_middle

/-- A task that was taken out of its place is nowhere else. -/
theorem not_mem_rest (h : Wired v) {rest : List Job} (hp : v.jobs.Perm (job :: rest)) :
    job ∉ rest := by
  have hn := (hp.map Job.id).nodup_iff.mp h.nodup
  rw [List.map_cons, List.nodup_cons] at hn
  exact fun hm => hn.1 (List.mem_map_of_mem hm)

/-! ## What a step keeps -/

/-- A task goes on to another place or is over, and nothing else happens. -/
theorem move (h : Wired v) (hjobs : ∃ rest, v.jobs.Perm rest ∧ v'.jobs.Sublist rest)
    (hid : v'.nextId = v.nextId) (hc : v'.cancelled = v.cancelled) (ha : v'.alerted = v.alerted)
    (hp : v'.pending = v.pending) (hwait : ∀ j, v'.Waiting j → v.Waiting j)
    (hworks : ∀ x ∈ v'.works, x ∈ v.works ∨
      (Fits x ∧ (x.2 = .label → v.pending.get? x.1.key ≠ some x.1.id)))
    (hsleep : ∀ x ∈ v'.sleeping, x ∈ v.sleeping ∨ x.1.role = .timer) : Wired v' where
  nodup := by
    obtain ⟨rest, hperm, hsub⟩ := hjobs
    exact ((hperm.map Job.id).nodup_iff.mp h.nodup).sublist (hsub.map _)
  fresh := by
    obtain ⟨rest, hperm, hsub⟩ := hjobs
    rw [hid]
    exact fun j hj => h.fresh j (hperm.mem_iff.mpr (hsub.subset hj))
  pendingFresh := by
    rw [hid, hp]
    exact h.pendingFresh
  cancelledFresh := by
    rw [hid, hc]
    exact h.cancelledFresh
  mine := by
    obtain ⟨rest, hperm, hsub⟩ := hjobs
    rw [hp]
    exact fun k j hj => h.mine k j (hperm.mem_iff.mpr (hsub.subset hj))
  live := by
    rw [hc, hp]
    exact fun j hj => h.live j (hwait j hj)
  labelled := by
    rw [hp]
    intro j hj
    rcases hworks _ hj with hj | ⟨-, hl⟩
    · exact h.labelled j hj
    · exact hl rfl
  fits := fun x hx => (hworks x hx).elim (h.fits x) fun hf => hf.1
  sleepers := fun x hx => (hsleep x hx).elim (h.sleepers x) id
  excl := by
    rw [ha, hp]
    exact h.excl

/-- A live timer ends: it takes itself out of `pending`. -/
theorem cleanup (h : Wired v) {w : View} (hw : Wired w) (hjobs : ∀ j ∈ w.jobs, j ∈ v.jobs)
    (hjob : job ∈ v.jobs) (hgone : ¬ w.Waiting job) : Wired (w.cleanup job) := by
  unfold View.cleanup
  by_cases hmine : w.pending.get? job.key = some job.id
  · rw [if_pos hmine]
    have hget : ∀ k i, (w.pending.erase job.key).get? k = some i → w.pending.get? k = some i := by
      intro k i hk
      by_cases hkey : k = job.key
      · subst hkey
        rw [Dict.get?_erase] at hk
        cases hk
      · rwa [Dict.get?_erase_ne hkey] at hk
    refine { hw with pendingFresh := fun k i hk => hw.pendingFresh k i (hget k i hk),
                     mine := fun k j hj hk => hw.mine k j hj (hget k _ hk),
                     live := ?_, labelled := fun j hj hk => hw.labelled j hj (hget _ _ hk),
                     excl := ?_ }
    · intro j hj
      by_cases hkey : j.key = job.key
      · -- another timer of this module is cancelled, before and after
        have hne : j.id ≠ job.id := by
          intro he
          obtain rfl := h.unique (hjobs j (mem_jobs_of_waiting hj)) hjob he
          exact hgone hj
        have hcan : j.id ∈ w.cancelled := by
          refine (hw.live j hj).mpr ?_
          rw [hkey, hmine]
          exact fun he => hne (Option.some.inj he).symm
        refine ⟨fun _ => ?_, fun _ => hcan⟩
        show (w.pending.erase job.key).get? j.key ≠ some j.id
        rw [hkey, Dict.get?_erase]
        exact nofun
      · show j.id ∈ w.cancelled ↔ (w.pending.erase job.key).get? j.key ≠ some j.id
        rw [Dict.get?_erase_ne hkey]
        exact hw.live j hj
    · intro k hk
      show (w.pending.erase job.key).get? k = none
      by_cases hkey : k = job.key
      · subst hkey
        exact Dict.get?_erase
      · rw [Dict.get?_erase_ne hkey]
        exact hw.excl k hk
  · rw [if_neg hmine]
    exact hw

/-- The first call is taken off the queue. -/
theorem pop (h : Wired v) (hw : v.works = (job, call) :: works) : Wired { v with works := works } := by
  refine h.move ⟨_, jobs_perm_works hw, List.sublist_cons_self _ _⟩ rfl rfl rfl rfl ?_ ?_
    fun x hx => Or.inl hx
  · rintro j ⟨hr, hj | ⟨c, hc, hj⟩ | hj⟩
    · exact ⟨hr, Or.inl hj⟩
    · exact ⟨hr, Or.inr (Or.inl ⟨c, hc, by rw [hw]; exact List.mem_cons_of_mem _ hj⟩)⟩
    · exact ⟨hr, Or.inr (Or.inr hj)⟩
  · intro x hx
    rw [hw]
    exact Or.inl (List.mem_cons_of_mem _ hx)

theorem mem_jobs_head (hw : v.works = (job, call) :: works) : job ∈ v.jobs :=
  (jobs_perm_works hw).mem_iff.mpr List.mem_cons_self

/-- The task whose call was first waits nowhere afterwards. -/
theorem pop_not_mem (h : Wired v) (hw : v.works = (job, call) :: works) :
    job ∉ { v with works := works }.jobs :=
  h.not_mem_rest (jobs_perm_works hw)

/-- A task is spawned. -/
theorem jobs_perm_spawn {w : View} (hs : w.soon = v.soon ++ [job]) (hw : w.works = v.works)
    (hl : w.sleeping = v.sleeping) : w.jobs.Perm (job :: v.jobs) := by
  unfold View.jobs
  rw [hs, hw, hl, List.append_assoc, List.singleton_append]
  exact List.perm_middle

theorem nodup_spawn (h : Wired v) {w : View} (hp : w.jobs.Perm (job :: v.jobs))
    (hid : job.id = v.nextId) : (w.jobs.map Job.id).Nodup := by
  refine (hp.map Job.id).nodup_iff.mpr (List.nodup_cons.mpr ⟨?_, h.nodup⟩)
  intro hm
  obtain ⟨j, hj, he⟩ := List.mem_map.mp hm
  have hlt := h.fresh j hj
  omega

theorem fresh_spawn (h : Wired v) {w : View} (hp : w.jobs.Perm (job :: v.jobs))
    (hid : job.id = v.nextId) : ∀ j ∈ w.jobs, j.id < v.nextId + 1 := by
  intro j hj
  rcases List.mem_cons.mp (hp.mem_iff.mp hj) with rfl | hj
  · omega
  · have hlt := h.fresh j hj
    omega

theorem arm (h : Wired v) {key : Key} (hp : v.pending.get? key = none) (ha : key ∉ v.alerted) :
    Wired (v.arm key) := by
  have hperm : (v.arm key).jobs.Perm (_ :: v.jobs) := jobs_perm_spawn rfl rfl rfl
  refine ⟨h.nodup_spawn hperm rfl, h.fresh_spawn hperm rfl, ?_, ?_, ?_, ?_, ?_, h.fits, h.sleepers,
    ?_⟩
  · intro k i hk
    show i < v.nextId + 1
    replace hk : (v.pending.set key v.nextId).get? k = some i := hk
    by_cases hkey : k = key
    · subst hkey
      rw [Dict.get?_set] at hk
      obtain rfl := Option.some.inj hk
      omega
    · rw [Dict.get?_set_ne hkey] at hk
      have hlt := h.pendingFresh k i hk
      omega
  · intro i hi
    show i < v.nextId + 1
    have hlt := h.cancelledFresh i hi
    omega
  · intro k j hj hk
    replace hk : (v.pending.set key v.nextId).get? k = some j.id := hk
    by_cases hkey : k = key
    · subst hkey
      rw [Dict.get?_set] at hk
      rcases List.mem_cons.mp (hperm.mem_iff.mp hj) with rfl | hj
      · exact ⟨rfl, rfl⟩
      · have hlt := h.fresh j hj
        have he := Option.some.inj hk
        omega
    · rw [Dict.get?_set_ne hkey] at hk
      rcases List.mem_cons.mp (hperm.mem_iff.mp hj) with rfl | hj
      · have hlt : v.nextId < v.nextId := h.pendingFresh k _ hk
        omega
      · exact h.mine k j hj hk
  · rintro j ⟨hr, hj⟩
    show j.id ∈ v.cancelled ↔ (v.pending.set key v.nextId).get? j.key ≠ some j.id
    have hsplit : v.Waiting j ∨ j = ⟨v.nextId, key, .timer, v.onlines key, v.now⟩ := by
      rcases hj with hj | hj | hj
      · rcases List.mem_append.mp hj with hj | hj
        · exact Or.inl ⟨hr, Or.inl hj⟩
        · exact Or.inr (List.mem_singleton.mp hj)
      · exact Or.inl ⟨hr, Or.inr (Or.inl hj)⟩
      · exact Or.inl ⟨hr, Or.inr (Or.inr hj)⟩
    rcases hsplit with hj | rfl
    · have hlt := h.fresh j (mem_jobs_of_waiting hj)
      by_cases hkey : j.key = key
      · -- nothing was pending: the old timers of the module are cancelled
        have hcan : j.id ∈ v.cancelled := by
          refine (h.live j hj).mpr ?_
          rw [hkey, hp]
          exact nofun
        refine ⟨fun _ => ?_, fun _ => hcan⟩
        rw [hkey, Dict.get?_set]
        intro he
        have := Option.some.inj he
        omega
      · rw [Dict.get?_set_ne hkey]
        exact h.live j hj
    · refine ⟨fun hc => ?_, fun hne => (hne Dict.get?_set).elim⟩
      have hlt : v.nextId < v.nextId := h.cancelledFresh _ hc
      omega
  · intro j hj
    have hlt := h.fresh j (List.mem_append_right _ (List.mem_append_left _
      (List.mem_map_of_mem (f := Prod.fst) hj)))
    show (v.pending.set key v.nextId).get? j.key ≠ some j.id
    by_cases hkey : j.key = key
    · rw [hkey, Dict.get?_set]
      intro he
      have := Option.some.inj he
      omega
    · rw [Dict.get?_set_ne hkey]
      exact h.labelled j hj
  · intro k hk
    show (v.pending.set key v.nextId).get? k = none
    have hne : k ≠ key := by
      rintro rfl
      exact ha hk
    rw [Dict.get?_set_ne hne]
    exact h.excl k hk

theorem recover (h : Wired v) (key : Key) : Wired (v.recover key) := by
  have hperm : (v.recover key).jobs.Perm (_ :: v.jobs) := jobs_perm_spawn rfl rfl rfl
  have hget : ∀ {k i}, (v.pending.erase key).get? k = some i → k ≠ key ∧ v.pending.get? k = some i := by
    intro k i hk
    by_cases hkey : k = key
    · subst hkey
      rw [Dict.get?_erase] at hk
      cases hk
    · rw [Dict.get?_erase_ne hkey] at hk
      exact ⟨hkey, hk⟩
  refine ⟨h.nodup_spawn hperm rfl, h.fresh_spawn hperm rfl, ?_, ?_, ?_, ?_, ?_, h.fits, h.sleepers,
    ?_⟩
  · intro k i hk
    exact Nat.lt_succ_of_lt (h.pendingFresh k i (hget hk).2)
  · intro i hi
    refine Nat.lt_succ_of_lt ?_
    rcases List.mem_append.mp hi with hi | hi
    · exact h.cancelledFresh i hi
    · exact h.pendingFresh key i (Option.mem_toList.mp hi)
  · intro k j hj hk
    obtain ⟨hkey, hk⟩ := hget hk
    rcases List.mem_cons.mp (hperm.mem_iff.mp hj) with rfl | hj
    · have hlt : v.nextId < v.nextId := h.pendingFresh k _ hk
      omega
    · exact h.mine k j hj hk
  · rintro j ⟨hr, hplace⟩
    have hj : v.Waiting j := by
      refine ⟨hr, hplace.imp (fun hsoon => ?_) id⟩
      rcases List.mem_append.mp hsoon with hsoon | hsoon
      · exact hsoon
      · obtain rfl := List.mem_singleton.mp hsoon
        cases hr
    show j.id ∈ v.cancelled ++ (v.pending.get? key).toList ↔
      (v.pending.erase key).get? j.key ≠ some j.id
    rw [List.mem_append, Option.mem_toList]
    by_cases hkey : j.key = key
    · subst hkey
      refine ⟨fun _ hk => (hget hk).1 rfl, fun _ => ?_⟩
      by_cases hpend : v.pending.get? j.key = some j.id
      · exact Or.inr hpend
      · exact Or.inl ((h.live j hj).mpr hpend)
    · -- the timer that is cancelled is of the other module
      rw [Dict.get?_erase_ne hkey]
      refine ⟨fun hc => ?_, fun hne => Or.inl ((h.live j hj).mpr hne)⟩
      rcases hc with hc | hc
      · exact (h.live j hj).mp hc
      · exact (hkey (h.mine key j (mem_jobs_of_waiting hj) hc).1).elim
  · exact fun j hj hk => h.labelled j hj (hget hk).2
  · intro k hk
    show (v.pending.erase key).get? k = none
    by_cases hkey : k = key
    · subst hkey
      exact Dict.get?_erase
    · rw [Dict.get?_erase_ne hkey]
      exact h.excl k (List.mem_of_mem_filter hk)

/-- Nothing of it changes. -/
theorem same (h : Wired v) (hsoon : v'.soon = v.soon) (hworks : v'.works = v.works)
    (hsleep : v'.sleeping = v.sleeping) (hid : v'.nextId = v.nextId)
    (hc : v'.cancelled = v.cancelled) (ha : v'.alerted = v.alerted)
    (hp : v'.pending = v.pending) : Wired v' := by
  have hjobs : v'.jobs = v.jobs := by
    unfold View.jobs
    rw [hsoon, hworks, hsleep]
  refine h.move ⟨_, .refl _, hjobs ▸ .refl _⟩ hid hc ha hp ?_ ?_ ?_
  · intro j hj
    unfold View.Waiting at hj
    rwa [hsoon, hworks, hsleep] at hj
  · rw [hworks]
    exact fun x hx => Or.inl hx
  · rw [hsleep]
    exact fun x hx => Or.inl hx

theorem begin (h : Wired v) {soon : List Job} (hs : v.soon = job :: soon) :
    Wired { v with soon := soon, works := v.works ++ [(job, job.role.firstCall)] } := by
  refine h.move ⟨_, ?_, .refl _⟩ rfl rfl rfl rfl ?_ ?_ fun x hx => Or.inl hx
  · refine List.perm_iff_count.mpr fun j => ?_
    unfold View.jobs
    rw [hs]
    simp only [List.count_append, List.count_cons, List.map_append, List.map_cons, List.map_nil,
      List.count_nil]
    omega
  · rintro j ⟨hr, hj | ⟨c, hc, hj⟩ | hj⟩
    · exact ⟨hr, Or.inl (hs ▸ List.mem_cons_of_mem _ hj)⟩
    · rcases List.mem_append.mp hj with hj | hj
      · exact ⟨hr, Or.inr (Or.inl ⟨c, hc, hj⟩)⟩
      · obtain ⟨rfl, -⟩ := Prod.mk.inj (List.mem_singleton.mp hj)
        exact ⟨hr, Or.inl (hs ▸ List.mem_cons_self)⟩
    · exact ⟨hr, Or.inr (Or.inr hj)⟩
  · intro x hx
    rcases List.mem_append.mp hx with hx | hx
    · exact Or.inl hx
    · obtain rfl := List.mem_singleton.mp hx
      refine Or.inr ⟨⟨fun ht => ?_, fun a ha => ?_⟩, fun hl => ?_⟩
      · show job.role.firstCall ≠ .resolve
        rw [ht]
        exact nofun
      · refine Or.inl ?_
        show job.role.firstCall = .resolve
        rw [ha]
        rfl
      · replace hl : job.role.firstCall = .label := hl
        cases hr : job.role with
        | timer => rw [hr] at hl; cases hl
        | recovery a => rw [hr] at hl; cases hl

theorem resolved (h : Wired v) (hw : v.works = (job, .resolve) :: works)
    (hr : job.role = .recovery true) : Wired { v with works := works ++ [(job, .label)] } := by
  have hrest := h.pop hw
  refine h.move ⟨_, ?_, .refl _⟩ rfl rfl rfl rfl ?_ ?_ fun x hx => Or.inl hx
  · refine List.perm_iff_count.mpr fun j => ?_
    unfold View.jobs
    rw [hw]
    simp only [List.count_append, List.count_cons, List.map_append, List.map_cons, List.map_nil,
      List.count_nil]
    omega
  · rintro j ⟨ht, hj | ⟨c, hc, hj⟩ | hj⟩
    · exact ⟨ht, Or.inl hj⟩
    · rcases List.mem_append.mp hj with hj | hj
      · exact ⟨ht, Or.inr (Or.inl ⟨c, hc, hw ▸ List.mem_cons_of_mem _ hj⟩)⟩
      · exact (hc (Prod.mk.inj (List.mem_singleton.mp hj)).2).elim
    · exact ⟨ht, Or.inr (Or.inr hj)⟩
  · intro x hx
    rcases List.mem_append.mp hx with hx | hx
    · exact Or.inl (hw ▸ List.mem_cons_of_mem _ hx)
    · obtain rfl := List.mem_singleton.mp hx
      refine Or.inr ⟨⟨fun _ => nofun, fun a ha => Or.inr ⟨rfl, ?_⟩⟩, fun _ hk => ?_⟩
      · exact (Role.recovery.inj (hr.symm.trans ha)).symm
      · have hrole := (h.mine _ job (mem_jobs_head hw) hk).2
        rw [hr] at hrole
        cases hrole

theorem sleep (h : Wired v) (hw : v.works = (job, .enabled) :: works) (ht : job.role = .timer)
    (d : Nat) (ends : List (Job × Nat)) :
    Wired { v with works := works, sleeping := v.sleeping ++ [(job, d)], graceEnds := ends } := by
  refine h.move ⟨_, ?_, .refl _⟩ rfl rfl rfl rfl ?_ ?_ ?_
  · refine List.perm_iff_count.mpr fun j => ?_
    unfold View.jobs
    rw [hw]
    simp only [List.count_append, List.count_cons, List.map_append, List.map_cons, List.map_nil,
      List.count_nil]
    omega
  · rintro j ⟨hr, hj | ⟨c, hc, hj⟩ | ⟨d', hj⟩⟩
    · exact ⟨hr, Or.inl hj⟩
    · exact ⟨hr, Or.inr (Or.inl ⟨c, hc, hw ▸ List.mem_cons_of_mem _ hj⟩)⟩
    · rcases List.mem_append.mp hj with hj | hj
      · exact ⟨hr, Or.inr (Or.inr ⟨d', hj⟩)⟩
      · obtain ⟨rfl, -⟩ := Prod.mk.inj (List.mem_singleton.mp hj)
        exact ⟨hr, Or.inr (Or.inl ⟨.enabled, nofun, hw ▸ List.mem_cons_self⟩)⟩
  · exact fun x hx => Or.inl (hw ▸ List.mem_cons_of_mem _ hx)
  · intro x hx
    rcases List.mem_append.mp hx with hx | hx
    · exact Or.inl hx
    · obtain rfl := List.mem_singleton.mp hx
      exact Or.inr ht

theorem wake (h : Wired v) {i d : Nat} (hi : v.sleeping[i]? = some (job, d)) :
    Wired { v with sleeping := v.sleeping.eraseIdx i, works := v.works ++ [(job, .record)] } := by
  have ht : job.role = .timer := h.sleepers _ (List.mem_of_getElem? hi)
  refine h.move ⟨_, (jobs_perm_sleeping hi).trans ?_, .refl _⟩ rfl rfl rfl rfl ?_ ?_ ?_
  · refine List.perm_iff_count.mpr fun j => ?_
    unfold View.jobs
    simp only [List.count_append, List.count_cons, List.map_append, List.map_cons, List.map_nil,
      List.count_nil]
    omega
  · rintro j ⟨hr, hj | ⟨c, hc, hj⟩ | ⟨d', hj⟩⟩
    · exact ⟨hr, Or.inl hj⟩
    · rcases List.mem_append.mp hj with hj | hj
      · exact ⟨hr, Or.inr (Or.inl ⟨c, hc, hj⟩)⟩
      · obtain ⟨rfl, -⟩ := Prod.mk.inj (List.mem_singleton.mp hj)
        exact ⟨hr, Or.inr (Or.inr ⟨d, List.mem_of_getElem? hi⟩)⟩
    · exact ⟨hr, Or.inr (Or.inr ⟨d', List.mem_of_mem_eraseIdx hj⟩)⟩
  · intro x hx
    rcases List.mem_append.mp hx with hx | hx
    · exact Or.inl hx
    · obtain rfl := List.mem_singleton.mp hx
      refine Or.inr ⟨⟨fun _ => nofun, fun a ha => ?_⟩, nofun⟩
      rw [ht] at ha
      cases ha
  · exact fun x hx => Or.inl (List.mem_of_mem_eraseIdx hx)

/-- A sleeping task is gone. -/
theorem roused (h : Wired v) {i d : Nat} (hi : v.sleeping[i]? = some (job, d)) :
    Wired { v with sleeping := v.sleeping.eraseIdx i } := by
  refine h.move ⟨_, jobs_perm_sleeping hi, List.sublist_cons_self _ _⟩ rfl rfl rfl rfl ?_
    (fun x hx => Or.inl hx) fun x hx => Or.inl (List.mem_of_mem_eraseIdx hx)
  rintro j ⟨hr, hj | hj | ⟨d', hj⟩⟩
  · exact ⟨hr, Or.inl hj⟩
  · exact ⟨hr, Or.inr (Or.inl hj)⟩
  · exact ⟨hr, Or.inr (Or.inr ⟨d', List.mem_of_mem_eraseIdx hj⟩)⟩

theorem stillborn (h : Wired v) {soon : List Job} (hs : v.soon = job :: soon) :
    Wired { v with soon := soon } := by
  refine h.move ⟨_, jobs_perm_soon hs, List.sublist_cons_self _ _⟩ rfl rfl rfl rfl ?_
    (fun x hx => Or.inl hx) fun x hx => Or.inl hx
  rintro j ⟨hr, hj | hj⟩
  · exact ⟨hr, Or.inl (hs ▸ List.mem_cons_of_mem _ hj)⟩
  · exact ⟨hr, Or.inr hj⟩

/-- A timer that has not decided is the pending one of its module. -/
theorem pending_of_live (h : Wired v) (hwait : v.Waiting job) (hlive : job.id ∉ v.cancelled) :
    v.pending.get? job.key = some job.id :=
  not_not.mp fun hne => hlive ((h.live job hwait).mpr hne)

theorem waiting_head (hw : v.works = (job, call) :: works) (ht : job.role = .timer)
    (hcall : call ≠ .label) : v.Waiting job :=
  ⟨ht, Or.inr (Or.inl ⟨call, hcall, hw ▸ List.mem_cons_self⟩)⟩

theorem commit (h : Wired v) (hw : v.works = (job, .record) :: works) (ht : job.role = .timer)
    (hlive : job.id ∉ v.cancelled) :
    Wired
      { v with works := works ++ [(job, .label)], alerted := job.key :: v.alerted
               pending := v.pending.erase job.key } := by
  have hrest : Wired { v with works := works, pending := v.pending.erase job.key } := by
    have hclean := h.cleanup (h.pop hw)
      (fun j hj => (jobs_perm_works hw).mem_iff.mpr (List.mem_cons_of_mem _ hj))
      (mem_jobs_head hw) (fun hwait => h.pop_not_mem hw (mem_jobs_of_waiting hwait))
    unfold View.cleanup at hclean
    rwa [if_pos (h.pending_of_live (waiting_head hw ht nofun) hlive)] at hclean
  have hperm : (View.jobs { v with works := works ++ [(job, .label)] }).Perm v.jobs := by
    refine List.perm_iff_count.mpr fun j => ?_
    unfold View.jobs
    rw [hw]
    simp only [List.count_append, List.count_cons, List.map_append, List.map_cons, List.map_nil,
      List.count_nil]
    omega
  refine ⟨(hperm.map Job.id).nodup_iff.mpr h.nodup, fun j hj => h.fresh j (hperm.mem_iff.mp hj),
    hrest.pendingFresh, h.cancelledFresh, ?_, ?_, ?_, ?_, h.sleepers, ?_⟩
  · intro k j hj hk
    refine h.mine k j (hperm.mem_iff.mp hj) ?_
    by_cases hkey : k = job.key
    · subst hkey
      rw [Dict.get?_erase] at hk
      cases hk
    · rwa [Dict.get?_erase_ne hkey] at hk
  · rintro j ⟨hr, hj | ⟨c, hc, hj⟩ | hj⟩
    · exact hrest.live j ⟨hr, Or.inl hj⟩
    · rcases List.mem_append.mp hj with hj | hj
      · exact hrest.live j ⟨hr, Or.inr (Or.inl ⟨c, hc, hj⟩)⟩
      · exact (hc (Prod.mk.inj (List.mem_singleton.mp hj)).2).elim
    · exact hrest.live j ⟨hr, Or.inr (Or.inr hj)⟩
  · intro j hj
    rcases List.mem_append.mp hj with hj | hj
    · exact hrest.labelled j hj
    · obtain ⟨rfl, -⟩ := Prod.mk.inj (List.mem_singleton.mp hj)
      show (v.pending.erase j.key).get? j.key ≠ some j.id
      rw [Dict.get?_erase]
      exact nofun
  · intro x hx
    rcases List.mem_append.mp hx with hx | hx
    · exact hrest.fits x hx
    · obtain rfl := List.mem_singleton.mp hx
      refine ⟨fun _ => nofun, fun a ha => ?_⟩
      rw [ht] at ha
      cases ha
  · intro k hk
    rcases List.mem_cons.mp hk with rfl | hk
    · exact Dict.get?_erase
    · exact hrest.excl k hk

theorem restart : Wired
    { v with pending := ∅, alerted := [], soon := [], works := [], sleeping := []
             cancelled := [], calls := [] } where
  nodup := List.nodup_nil
  fresh := nofun
  pendingFresh := nofun
  cancelledFresh := nofun
  mine := nofun
  live := by rintro j ⟨-, hj | ⟨c, -, hj⟩ | ⟨d, hj⟩⟩ <;> cases hj
  labelled := nofun
  fits := nofun
  sleepers := nofun
  excl := nofun

/-- The `finally` of the task whose call was first. -/
theorem cleanup_head (h : Wired v) (hw : v.works = (job, call) :: works) {w : View}
    (hwired : Wired w) (hjobs : w.jobs = View.jobs { v with works := works }) :
    Wired (w.cleanup job) := by
  refine h.cleanup hwired (fun j hj => ?_) (mem_jobs_head hw) fun hwait => ?_
  · exact (jobs_perm_works hw).mem_iff.mpr (List.mem_cons_of_mem _ (hjobs ▸ hj))
  · exact h.pop_not_mem hw (hjobs ▸ mem_jobs_of_waiting hwait)

/-- **Every step keeps the wiring.** -/
theorem effect (h : Wired v) (he : Effect grace noted v v') : Wired v' := by
  cases he with
  | quiet d => exact h.same rfl rfl rfl rfl rfl rfl rfl
  | arm _ hp ha => exact h.arm hp ha
  | recover key => exact h.recover key
  | begin hs _ => exact h.begin hs
  | stillborn hs _ _ => exact h.stillborn hs
  | fade hw _ => exact h.pop hw
  | roused hi _ => exact h.roused hi
  | giveUp hw _ _ _ => exact h.cleanup_head hw (h.pop hw) rfl
  | sleep hw ht _ => exact h.sleep hw ht _ _
  | wake hi _ _ => exact h.wake hi
  | commit hw ht hlive => exact h.commit hw ht hlive
  | page hw _ =>
    exact h.cleanup_head hw ((h.pop hw).same rfl rfl rfl rfl rfl rfl rfl) rfl
  | resolved hw hr => exact h.resolved hw hr
  | notice hw _ => exact (h.pop hw).same rfl rfl rfl rfl rfl rfl rfl
  | restart => exact restart

end Wired

end Air780eHub.Alerts
