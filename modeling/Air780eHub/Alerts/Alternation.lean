/-
  What the offline alerter says about a module (`pages_and_recoveries_alternate`), and when.
-/
import Air780eHub.Alerts.Script

namespace Air780eHub.Alerts

/-! ## When a page is sent -/

namespace View

variable (v : View)

/-- The timer has decided to page. -/
def Decided (j : Job) : Prop :=
  (j.role = .timer ∧ (j, Call.label) ∈ v.works) ∨ ∃ n ∈ v.calls, n.page = true ∧ n.job = j

end View

/-- The grace period of a drop that is paged was over, and nothing was noted before. -/
structure Timed (grace : Nat) (v : View) : Prop where
  armed    : ∀ j ∈ v.jobs, j.armedAt ≤ v.now
  ends     : ∀ x ∈ v.graceEnds, x.1.armedAt + grace ≤ x.2
  sleeping : ∀ x ∈ v.sleeping, x ∈ v.graceEnds
  recorded : ∀ j, (j, Call.record) ∈ v.works → ∃ d ≤ v.now, (j, d) ∈ v.graceEnds
  decided  : ∀ j, v.Decided j → ∃ d ≤ v.now, (j, d) ∈ v.graceEnds ∧
    ∀ r ∈ v.recovered, r.key = j.key → r.drop = j.drop → d ≤ r.at_
  past     : ∀ r ∈ v.recovered, r.drop < v.onlines r.key
  named    : ∀ n ∈ v.calls, n.key = n.job.key

namespace Timed

variable {v v' : View} {grace : Nat} {noted : Key → Prop} {job : Job} {call : Call}
  {works : List (Job × Call)} {soon : List Job}

/-- No timer sleeps or decides, and no recovery is noted. -/
theorem move (h : Timed grace v) (hjobs : ∀ j ∈ v'.jobs, j ∈ v.jobs) (hnow : v.now ≤ v'.now)
    (hends : v'.graceEnds = v.graceEnds) (hsleep : ∀ x ∈ v'.sleeping, x ∈ v.sleeping)
    (hrec : ∀ j, (j, Call.record) ∈ v'.works → (j, Call.record) ∈ v.works)
    (hdec : ∀ j, v'.Decided j → v.Decided j) (hr : v'.recovered = v.recovered)
    (ho : v'.onlines = v.onlines) (hnamed : ∀ n ∈ v'.calls, n ∈ v.calls ∨ n.key = n.job.key) :
    Timed grace v' where
  armed := fun j hj => Nat.le_trans (h.armed j (hjobs j hj)) hnow
  ends := hends ▸ h.ends
  sleeping := fun x hx => hends ▸ h.sleeping x (hsleep x hx)
  recorded := by
    intro j hj
    obtain ⟨d, hd, hmem⟩ := h.recorded j (hrec j hj)
    exact ⟨d, Nat.le_trans hd hnow, hends ▸ hmem⟩
  decided := by
    intro j hj
    obtain ⟨d, hd, hmem, hback⟩ := h.decided j (hdec j hj)
    exact ⟨d, Nat.le_trans hd hnow, hends ▸ hmem, hr ▸ hback⟩
  past := by
    rw [hr, ho]
    exact h.past
  named := fun n hn => (hnamed n hn).elim (h.named n) id

theorem mem_jobs {j : Job} :
    j ∈ v.jobs ↔ j ∈ v.soon ∨ (∃ c, (j, c) ∈ v.works) ∨ ∃ d, (j, d) ∈ v.sleeping := by
  unfold View.jobs
  rw [List.mem_append, List.mem_append, List.mem_map, List.mem_map]
  refine or_congr Iff.rfl (or_congr ?_ ?_)
  · exact ⟨fun ⟨x, hx, he⟩ => ⟨x.2, he ▸ hx⟩, fun ⟨c, hc⟩ => ⟨_, hc, rfl⟩⟩
  · exact ⟨fun ⟨x, hx, he⟩ => ⟨x.2, he ▸ hx⟩, fun ⟨d, hd⟩ => ⟨_, hd, rfl⟩⟩

theorem same (h : Timed grace v) (hsoon : v'.soon = v.soon) (hworks : v'.works = v.works)
    (hsleep : v'.sleeping = v.sleeping) (hnow : v.now ≤ v'.now) (hends : v'.graceEnds = v.graceEnds)
    (hcalls : v'.calls = v.calls) (hr : v'.recovered = v.recovered)
    (ho : v'.onlines = v.onlines) : Timed grace v' := by
  refine h.move (fun j hj => ?_) hnow hends (fun x hx => hsleep ▸ hx) (fun j hj => hworks ▸ hj)
    (fun j hj => ?_) hr ho fun n hn => Or.inl (hcalls ▸ hn)
  · rw [mem_jobs] at hj ⊢
    rwa [hsoon, hworks, hsleep] at hj
  · unfold View.Decided at hj
    rwa [hworks, hcalls] at hj

theorem cleanup (h : Timed grace v) (job : Job) : Timed grace (v.cleanup job) := by
  unfold View.cleanup
  split
  · exact h.same rfl rfl rfl (Nat.le_refl _) rfl rfl rfl rfl
  · exact h

/-- The first task is over, or goes on to its label as a recovery. -/
theorem pop (h : Timed grace v) (hw : v.works = (job, call) :: works) {tail : List (Job × Call)}
    (htail : ∀ x ∈ tail, x = (job, Call.label) ∧ job.role ≠ .timer) :
    Timed grace { v with works := works ++ tail } := by
  have hold : ∀ {x : Job × Call}, x ∈ works → x ∈ v.works :=
    fun hx => hw ▸ List.mem_cons_of_mem _ hx
  refine h.move (fun j hj => ?_) (Nat.le_refl _) rfl (fun x hx => hx) (fun j hj => ?_)
    (fun j hj => ?_) rfl rfl fun n hn => Or.inl hn
  · rw [mem_jobs] at hj ⊢
    refine hj.imp id (Or.imp ?_ id)
    rintro ⟨c, hc⟩
    rcases List.mem_append.mp hc with hc | hc
    · exact ⟨c, hold hc⟩
    · obtain ⟨rfl, -⟩ := Prod.mk.inj (htail _ hc).1
      exact ⟨call, hw ▸ List.mem_cons_self⟩
  · rcases List.mem_append.mp hj with hj | hj
    · exact hold hj
    · cases (htail _ hj).1
  · refine hj.imp (fun ⟨hr, hl⟩ => ⟨hr, ?_⟩) id
    rcases List.mem_append.mp hl with hl | hl
    · exact hold hl
    · obtain ⟨he, hne⟩ := htail _ hl
      obtain ⟨rfl, -⟩ := Prod.mk.inj he
      exact (hne hr).elim

theorem pop_only (h : Timed grace v) (hw : v.works = (job, call) :: works) :
    Timed grace { v with works := works } := by
  have hpop : Timed grace { v with works := works ++ [] } := h.pop hw nofun
  rwa [List.append_nil] at hpop

theorem recover (h : Timed grace v) (key : Key) : Timed grace (v.recover key) where
  armed := by
    intro j hj
    have hperm : (v.recover key).jobs.Perm (_ :: v.jobs) := Wired.jobs_perm_spawn rfl rfl rfl
    rcases List.mem_cons.mp (hperm.mem_iff.mp hj) with rfl | hj
    · exact Nat.le_refl _
    · exact h.armed j hj
  ends := h.ends
  sleeping := h.sleeping
  recorded := h.recorded
  decided := by
    intro j hj
    obtain ⟨d, hd, hmem, hback⟩ := h.decided j hj
    refine ⟨d, hd, hmem, fun r hr hkey hdrop => ?_⟩
    rcases List.mem_append.mp hr with hr | hr
    · exact hback r hr hkey hdrop
    · obtain rfl := List.mem_singleton.mp hr
      exact hd
  past := by
    intro r hr
    show r.drop < Function.update v.onlines key (v.onlines key + 1) r.key
    rcases List.mem_append.mp hr with hr | hr
    · have hlt := h.past r hr
      by_cases hkey : r.key = key
      · subst hkey
        rw [Function.update_self]
        omega
      · rwa [Function.update_of_ne hkey]
    · obtain rfl := List.mem_singleton.mp hr
      rw [Function.update_self]
      exact Nat.lt_succ_self _
  named := h.named

/-- A timer that decides to page belongs to a drop whose recovery was not noted. -/
theorem commit (h : Timed grace v) (hord : Ordered v) (hw : v.works = (job, .record) :: works)
    (ht : job.role = .timer) (hlive : job.id ∉ v.cancelled) :
    Timed grace { v with works := works ++ [(job, .label)] } where
  armed := by
    intro j hj
    refine h.armed j ?_
    rw [mem_jobs] at hj ⊢
    refine hj.imp id (Or.imp ?_ id)
    rintro ⟨c, hc⟩
    rcases List.mem_append.mp hc with hc | hc
    · exact ⟨c, hw ▸ List.mem_cons_of_mem _ hc⟩
    · obtain ⟨rfl, -⟩ := Prod.mk.inj (List.mem_singleton.mp hc)
      exact ⟨_, hw ▸ List.mem_cons_self⟩
  ends := h.ends
  sleeping := h.sleeping
  recorded := by
    intro j hj
    rcases List.mem_append.mp hj with hj | hj
    · exact h.recorded j (hw ▸ List.mem_cons_of_mem _ hj)
    · exact nomatch (Prod.mk.inj (List.mem_singleton.mp hj)).2
  decided := by
    intro j hj
    have hsplit : v.Decided j ∨ j = job := by
      rcases hj with ⟨hr, hl⟩ | hn
      · rcases List.mem_append.mp hl with hl | hl
        · exact Or.inl (Or.inl ⟨hr, hw ▸ List.mem_cons_of_mem _ hl⟩)
        · exact Or.inr (Prod.mk.inj (List.mem_singleton.mp hl)).1
      · exact Or.inl (Or.inr hn)
    rcases hsplit with hj | rfl
    · exact h.decided j hj
    · obtain ⟨d, hd, hmem⟩ := h.recorded j (hw ▸ List.mem_cons_self)
      refine ⟨d, hd, hmem, fun r hr hkey hdrop => ?_⟩
      have hlt := h.past r hr
      rw [hkey, hdrop, hord.drops j (Wired.waiting_head hw ht nofun) hlive] at hlt
      omega
  past := h.past
  named := h.named

/-- **Every step keeps the times.** -/
theorem effect (h : Timed grace v) (hord : Ordered v) (he : Effect grace noted v v') :
    Timed grace v' := by
  cases he with
  | quiet d => exact h.same rfl rfl rfl (Nat.le_add_right _ _) rfl rfl rfl rfl
  | @arm key _ hp ha =>
    refine { h with armed := fun j hj => ?_ }
    have hperm : (v.arm key).jobs.Perm (_ :: v.jobs) := Wired.jobs_perm_spawn rfl rfl rfl
    rcases List.mem_cons.mp (hperm.mem_iff.mp hj) with rfl | hj
    · exact Nat.le_refl _
    · exact h.armed j hj
  | recover key => exact h.recover key
  | @begin job soon hs _ =>
    have hfirst : job.role.firstCall ≠ .label ∧ job.role.firstCall ≠ .record := by
      cases job.role <;> exact ⟨nofun, nofun⟩
    refine h.move (fun j hj => ?_) (Nat.le_refl _) rfl (fun x hx => hx) (fun j hj => ?_)
      (fun j hj => ?_) rfl rfl fun n hn => Or.inl hn
    · rw [mem_jobs] at hj ⊢
      rcases hj with hj | ⟨c, hc⟩ | hj
      · exact Or.inl (hs ▸ List.mem_cons_of_mem _ hj)
      · rcases List.mem_append.mp hc with hc | hc
        · exact Or.inr (Or.inl ⟨c, hc⟩)
        · obtain ⟨rfl, -⟩ := Prod.mk.inj (List.mem_singleton.mp hc)
          exact Or.inl (hs ▸ List.mem_cons_self)
      · exact Or.inr (Or.inr hj)
    · rcases List.mem_append.mp hj with hj | hj
      · exact hj
      · exact (hfirst.2 (Prod.mk.inj (List.mem_singleton.mp hj)).2.symm).elim
    · refine hj.imp (fun ⟨hr, hl⟩ => ⟨hr, ?_⟩) id
      rcases List.mem_append.mp hl with hl | hl
      · exact hl
      · exact (hfirst.1 (Prod.mk.inj (List.mem_singleton.mp hl)).2.symm).elim
  | stillborn hs _ _ =>
    refine h.move (fun j hj => ?_) (Nat.le_refl _) rfl (fun x hx => hx) (fun j hj => hj)
      (fun j hj => hj) rfl rfl fun n hn => Or.inl hn
    rw [mem_jobs] at hj ⊢
    exact hj.imp (fun hj => hs ▸ List.mem_cons_of_mem _ hj) id
  | fade hw _ => exact h.pop_only hw
  | roused hi _ =>
    refine h.move (fun j hj => ?_) (Nat.le_refl _) rfl (fun x hx => List.mem_of_mem_eraseIdx hx)
      (fun j hj => hj) (fun j hj => hj) rfl rfl fun n hn => Or.inl hn
    rw [mem_jobs] at hj ⊢
    exact hj.imp id (Or.imp id fun ⟨d', hd'⟩ => ⟨d', List.mem_of_mem_eraseIdx hd'⟩)
  | giveUp hw _ _ _ => exact (h.pop_only hw).cleanup _
  | @sleep job works hw ht _ =>
    have hjob : job.armedAt ≤ v.now := h.armed job (Wired.mem_jobs_head hw)
    have hpop := h.pop_only hw
    refine { hpop with armed := fun j hj => ?_, ends := fun x hx => ?_, sleeping := fun x hx => ?_,
                       recorded := fun j hj => ?_, decided := fun j hj => ?_ }
    · rw [mem_jobs] at hj
      rcases hj with hj | hj | ⟨d, hd⟩
      · exact hpop.armed j (mem_jobs.mpr (Or.inl hj))
      · exact hpop.armed j (mem_jobs.mpr (Or.inr (Or.inl hj)))
      · rcases List.mem_append.mp hd with hd | hd
        · exact hpop.armed j (mem_jobs.mpr (Or.inr (Or.inr ⟨d, hd⟩)))
        · obtain ⟨rfl, -⟩ := Prod.mk.inj (List.mem_singleton.mp hd)
          exact hjob
    · rcases List.mem_append.mp hx with hx | hx
      · exact h.ends x hx
      · obtain rfl := List.mem_singleton.mp hx
        exact Nat.add_le_add_right hjob grace
    · rcases List.mem_append.mp hx with hx | hx
      · exact List.mem_append_left _ (h.sleeping x hx)
      · exact List.mem_append_right _ hx
    · obtain ⟨d, hd, hmem⟩ := hpop.recorded j hj
      exact ⟨d, hd, List.mem_append_left _ hmem⟩
    · obtain ⟨d, hd, hmem, hback⟩ := hpop.decided j hj
      exact ⟨d, hd, List.mem_append_left _ hmem, hback⟩
  | @wake job d i hi hd _ =>
    have hmem := List.mem_of_getElem? hi
    refine { h with armed := fun j hj => ?_, sleeping := fun x hx => ?_, recorded := fun j hj => ?_,
                    decided := fun j hj => h.decided j ?_ }
    · refine h.armed j ?_
      rw [mem_jobs] at hj ⊢
      rcases hj with hj | ⟨c, hc⟩ | ⟨d', hd'⟩
      · exact Or.inl hj
      · rcases List.mem_append.mp hc with hc | hc
        · exact Or.inr (Or.inl ⟨c, hc⟩)
        · obtain ⟨rfl, -⟩ := Prod.mk.inj (List.mem_singleton.mp hc)
          exact Or.inr (Or.inr ⟨d, hmem⟩)
      · exact Or.inr (Or.inr ⟨d', List.mem_of_mem_eraseIdx hd'⟩)
    · exact h.sleeping x (List.mem_of_mem_eraseIdx hx)
    · rcases List.mem_append.mp hj with hj | hj
      · exact h.recorded j hj
      · obtain ⟨rfl, -⟩ := Prod.mk.inj (List.mem_singleton.mp hj)
        exact ⟨d, hd, h.sleeping _ hmem⟩
    · refine hj.imp (fun ⟨hr, hl⟩ => ⟨hr, ?_⟩) id
      rcases List.mem_append.mp hl with hl | hl
      · exact hl
      · exact nomatch (Prod.mk.inj (List.mem_singleton.mp hl)).2
  | commit hw ht hlive =>
    exact (h.commit hord hw ht hlive).same rfl rfl rfl (Nat.le_refl _) rfl rfl rfl rfl
  | @page job works hw ht =>
    refine Timed.cleanup ?_ job
    have hpop := h.pop_only hw
    refine { hpop with decided := fun j hj => h.decided j ?_, named := fun n hn => ?_ }
    · rcases hj with ⟨hr, hl⟩ | ⟨n, hn, hp, rfl⟩
      · exact Or.inl ⟨hr, hw ▸ List.mem_cons_of_mem _ hl⟩
      · rcases List.mem_append.mp hn with hn | hn
        · exact Or.inr ⟨n, hn, hp, rfl⟩
        · obtain rfl := List.mem_singleton.mp hn
          exact Or.inl ⟨ht, hw ▸ List.mem_cons_self⟩
    · rcases List.mem_append.mp hn with hn | hn
      · exact h.named n hn
      · obtain rfl := List.mem_singleton.mp hn
        rfl
  | resolved hw hr =>
    refine h.pop hw fun x hx => ⟨List.mem_singleton.mp hx, fun ht => ?_⟩
    rw [hr] at ht
    cases ht
  | @notice job a works hw hr =>
    have hpop := h.pop_only hw
    refine { hpop with decided := fun j hj => h.decided j ?_, named := fun n hn => ?_ }
    · rcases hj with ⟨hr, hl⟩ | ⟨n, hn, hp, rfl⟩
      · exact Or.inl ⟨hr, hw ▸ List.mem_cons_of_mem _ hl⟩
      · rcases List.mem_append.mp hn with hn | hn
        · exact Or.inr ⟨n, hn, hp, rfl⟩
        · obtain rfl := List.mem_singleton.mp hn
          cases hp
    · rcases List.mem_append.mp hn with hn | hn
      · exact h.named n hn
      · obtain rfl := List.mem_singleton.mp hn
        rfl
  | restart =>
    refine { h with armed := nofun, sleeping := nofun, recorded := nofun, decided := ?_,
                    named := nofun }
    rintro j (⟨-, hl⟩ | ⟨n, hn, -⟩)
    · cases hl
    · cases hn

end Timed

/-! ## Every run -/

variable {grace : Nat} {s : State}

/-- What holds of the memory of the alerter. -/
structure Sound (grace : Nat) (v : View) : Prop where
  wired       : Wired v
  ordered     : Ordered v
  alternating : v.Alternating
  timed       : Timed grace v

theorem Sound.effect {v v' : View} {noted : Key → Prop} (h : Sound grace v) (he : Effect grace noted v v') :
    Sound grace v' where
  wired := h.wired.effect he
  ordered := h.ordered.effect (h.wired.effect he) he
  alternating := h.alternating.effect h.wired h.ordered he
  timed := h.timed.effect h.ordered he

theorem Sound.start : Sound grace (State.view {}) where
  wired := @Wired.restart (State.view {})
  ordered := ⟨.nil, nofun, .nil, by rintro j ⟨-, hj | ⟨c, -, hj⟩ | ⟨d, hj⟩⟩ <;> cases hj⟩
  alternating := fun _ => .nothing
  timed := by
    refine ⟨nofun, nofun, nofun, nofun, ?_, nofun, nofun⟩
    rintro j (⟨-, hl⟩ | ⟨n, hn, -⟩)
    · cases hl
    · cases hn

/-- **Sound in every reachable state.** -/
theorem alerter_sound (h : (alerter grace).Reachable s) : Sound grace s.view := by
  refine Machine.ReachableBy.invariant (I := fun s => Sound grace s.view) ?_ ?_ h
  · rintro s rfl
    exact .start
  · exact fun s a s' hs _ hstep => hs.effect (step_effect hstep)

/-- What was said about a module. -/
def State.callsFor (s : State) (key : Key) : List Notice := s.calls.filter fun n => n.key == key

theorem told_callsFor (s : State) (key : Key) :
    s.calls.filterMap (noticeOf key) = (s.callsFor key).map fun n => (n.page, n.job.drop) := by
  unfold State.callsFor
  induction s.calls with
  | nil => rfl
  | cons n calls ih =>
    by_cases hkey : n.key = key
    · have hpos : (n.key == key) = true := beq_iff_eq.mpr hkey
      have hnotice : noticeOf key n = some (n.page, n.job.drop) := if_pos hkey
      rw [List.filter_cons, if_pos hpos, List.filterMap_cons_some hnotice, ih]
      rfl
    · have hneg : ¬ (n.key == key) = true := fun h => hkey (beq_iff_eq.mp h)
      have hnotice : noticeOf key n = none := if_neg hkey
      rw [List.filter_cons, if_neg hneg, List.filterMap_cons_none hnotice, ih]

/-- **Page and recovery in turn.**  In every state of every run, with any grace period, what this
    process said about a module alternates and begins with a page; before each recovery stands the
    page of the drop it ends; and of every page the grace period, which is at least `grace` long,
    was over before the recovery of its drop was noted, if it was. -/
theorem pages_and_recoveries_alternate (h : (alerter grace).Reachable s) (key : Key) :
    (∀ i n, (s.callsFor key)[i]? = some n → n.page = decide (i % 2 = 0)) ∧
    (∀ i n, (s.callsFor key)[i]? = some n → n.page = false →
      ∃ j p, i = j + 1 ∧ (s.callsFor key)[j]? = some p ∧ p.page = true ∧
        p.job.drop = n.job.drop) ∧
    ∀ n ∈ s.callsFor key, n.page = true →
      ∃ graceEnd, (n.job, graceEnd) ∈ s.graceEnds ∧ n.job.armedAt + grace ≤ graceEnd ∧
        ∀ r ∈ s.recovered, r.key = key → r.drop = n.job.drop → graceEnd ≤ r.at_ := by
  have hsound := alerter_sound h
  obtain ⟨o, htold⟩ := (hsound.alternating key).of_append
  rw [show s.view.calls = s.calls from rfl, told_callsFor] at htold
  have hget : ∀ {i : Nat} {n : Notice}, (s.callsFor key)[i]? = some n →
      ((s.callsFor key).map fun n => (n.page, n.job.drop))[i]? = some (n.page, n.job.drop) := by
    intro i n hn
    rw [List.getElem?_map, hn]
    rfl
  refine ⟨fun i n hn => htold.turns.1 i _ (hget hn), ?_, ?_⟩
  · intro i n hn hp
    have hn' := hget hn
    rw [hp] at hn'
    obtain ⟨j, hj, hmem⟩ := htold.answers i _ hn'
    rw [List.getElem?_map, Option.map_eq_some_iff] at hmem
    obtain ⟨p, hpage, he⟩ := hmem
    obtain ⟨hpg, hdrop⟩ := Prod.mk.inj he
    exact ⟨j, p, hj, hpage, hpg, hdrop⟩
  · intro n hn hp
    obtain ⟨hmem, hkey⟩ := List.mem_filter.mp hn
    obtain ⟨d, -, hends, hback⟩ := hsound.timed.decided n.job (Or.inr ⟨n, hmem, hp, rfl⟩)
    have hnamed : n.job.key = key := (hsound.timed.named n hmem).symm.trans (beq_iff_eq.mp hkey)
    exact ⟨d, hends, hsound.timed.ends _ hends, fun r hr hk hd =>
      hback r hr (hk.trans hnamed.symm) hd⟩

/-- A module drops, is paged ten seconds later, and comes back. -/
def dropAndReturn (key : Key) : List Act :=
  [.note key false, .start, .execute, .resume, .tick 10, .wake 0, .execute, .resume, .execute,
   .resume, .setOnline key true, .note key true, .start, .execute, .resume, .execute, .resume]

/-- One page and one recovery. -/
theorem pages_and_recoveries_alternate_once :
    ∃ s : State, (s.callsFor ("agent", "cat1")).map Notice.page = [true, false] ∧
      (∀ i n, (s.callsFor ("agent", "cat1"))[i]? = some n → n.page = decide (i % 2 = 0)) :=
  have hrun : (alerter 10).Reachable _ :=
    @Machine.run_reachable _ _ (alerter 10) _ _ (dropAndReturn ("agent", "cat1")) rfl rfl
  ⟨_, rfl, (pages_and_recoveries_alternate hrun ("agent", "cat1")).1⟩

end Air780eHub.Alerts
