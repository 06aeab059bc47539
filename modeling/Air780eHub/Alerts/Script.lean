/-
  Pages and recoveries of a module take turns (`View.Alternating`).

  A page that was decided is sent after two more awaits, and so is a recovery: what matters is
  everything that is still to be said.  `View.script` lists it in the order in which it will be
  said: the notices that were sent, the ones that wait for a label, the recoveries that wait for
  `resolve_incident`, and those not started.  The list is `Told`, page and recovery in turn, and
  ends with a page exactly while the module is in `alerted`.

  A page that is decided now is said before every recovery that has not resolved its incident;
  that there is none (`script_commit`) is what the order of the tasks is for.
-/
import Air780eHub.Alerts.Order
import Mathlib.Data.List.Induction

namespace Air780eHub.Alerts

/-! ## What is told -/

/-- Page and recovery in turn, each recovery ending the drop of the page before it.  The drop is
    open after a page. -/
inductive Told : Option Nat → List (Bool × Nat) → Prop
  | nothing : Told none []
  | page {l : List (Bool × Nat)} (d : Nat) : Told none l → Told (some d) (l ++ [(true, d)])
  | back {l : List (Bool × Nat)} {d : Nat} : Told (some d) l → Told none (l ++ [(false, d)])

namespace Told

variable {o : Option Nat} {l l' : List (Bool × Nat)}

theorem of_append (h : Told o (l ++ l')) : ∃ o', Told o' l := by
  induction l' using List.reverseRecOn generalizing o with
  | nil => exact ⟨o, List.append_nil l ▸ h⟩
  | append_singleton l' x ih =>
    rw [← List.append_assoc] at h
    generalize hm : l ++ l' ++ [x] = m at h
    cases h with
    | nothing => exact (List.append_ne_nil_of_right_ne_nil _ (List.cons_ne_nil _ _) hm).elim
    | page d h => exact ih (List.append_inj_left' hm rfl ▸ h)
    | back h => exact ih (List.append_inj_left' hm rfl ▸ h)

/-- Pages stand at the even places, and a drop is open after an odd number of notices. -/
theorem turns (h : Told o l) :
    (∀ i x, l[i]? = some x → x.1 = decide (i % 2 = 0)) ∧ (o.isSome ↔ l.length % 2 = 1) := by
  have snoc : ∀ {l : List (Bool × Nat)} {y : Bool × Nat},
      (∀ i x, l[i]? = some x → x.1 = decide (i % 2 = 0)) → y.1 = decide (l.length % 2 = 0) →
      ∀ i x, (l ++ [y])[i]? = some x → x.1 = decide (i % 2 = 0) := by
    intro l y hl hy i x hx
    rcases Nat.lt_trichotomy i l.length with hlt | rfl | hgt
    · exact hl i x (by rwa [List.getElem?_append_left hlt] at hx)
    · rw [List.getElem?_concat_length] at hx
      obtain rfl := Option.some.inj hx
      exact hy
    · rw [List.getElem?_eq_none (by rw [List.length_append, List.length_singleton]; omega)] at hx
      cases hx
  induction h with
  | nothing => exact ⟨nofun, by decide⟩
  | page d _ ih =>
    have hlen : ¬ _ % 2 = 1 := fun hodd => nomatch ih.2.mpr hodd
    refine ⟨snoc ih.1 (decide_eq_true (by omega)).symm, fun _ => ?_, fun _ => rfl⟩
    rw [List.length_append, List.length_singleton]
    omega
  | back _ ih =>
    have hlen : _ % 2 = 1 := ih.2.mp rfl
    refine ⟨snoc ih.1 (decide_eq_false (by omega)).symm, nofun, fun hodd => ?_⟩
    rw [List.length_append, List.length_singleton] at hodd
    omega

/-- The open drop was paged last. -/
theorem last (h : Told o l) {d : Nat} (ho : o = some d) : ∃ l', l = l' ++ [(true, d)] := by
  cases h with
  | nothing => cases ho
  | page d _ =>
    obtain rfl := Option.some.inj ho
    exact ⟨_, rfl⟩
  | back _ => cases ho

/-- Before a recovery stands the page of its drop. -/
theorem answers (h : Told o l) :
    ∀ i d, l[i]? = some (false, d) → ∃ j, i = j + 1 ∧ l[j]? = some (true, d) := by
  have old : ∀ {l : List (Bool × Nat)} {y : Bool × Nat} {i d : Nat},
      (∀ i d, l[i]? = some (false, d) → ∃ j, i = j + 1 ∧ l[j]? = some (true, d)) →
      (l ++ [y])[i]? = some (false, d) → i ≠ l.length →
      ∃ j, i = j + 1 ∧ (l ++ [y])[j]? = some (true, d) := by
    intro l y i d hl hi hne
    by_cases hlt : i < l.length
    · obtain ⟨j, hj, hget⟩ := hl i d (by rwa [List.getElem?_append_left hlt] at hi)
      exact ⟨j, hj, by rwa [List.getElem?_append_left (by omega)]⟩
    · rw [List.getElem?_eq_none (by rw [List.length_append, List.length_singleton]; omega)] at hi
      cases hi
  induction h with
  | nothing => exact nofun
  | @page l d' _ ih =>
    intro i d hi
    refine old ih hi ?_
    rintro rfl
    rw [List.getElem?_concat_length] at hi
    cases hi
  | @back l d' h ih =>
    intro i d hi
    by_cases heq : i = l.length
    · subst heq
      rw [List.getElem?_concat_length] at hi
      obtain ⟨l', rfl⟩ := h.last rfl
      obtain ⟨-, rfl⟩ := Prod.mk.inj (Option.some.inj hi)
      refine ⟨l'.length, List.length_append, ?_⟩
      rw [List.getElem?_append_left (by rw [List.length_append, List.length_singleton]; omega)]
      exact List.getElem?_concat_length
    · exact old ih hi heq

end Told

/-! ## The script of a module -/

/-- A notice of the module that was sent. -/
def noticeOf (key : Key) (n : Notice) : Option (Bool × Nat) :=
  if n.key = key then some (n.page, n.job.drop) else none

/-- A notice that waits for its label. -/
def labelOf (key : Key) (x : Job × Call) : Option (Bool × Nat) :=
  if x.1.key = key ∧ x.2 = .label then some (decide (x.1.role = .timer), x.1.drop) else none

/-- A recovery with something to say that waits for `resolve_incident`. -/
def resolveOf (key : Key) (x : Job × Call) : Option (Bool × Nat) :=
  if x.1.key = key ∧ x.2 = .resolve ∧ x.1.role = .recovery true then some (false, x.1.drop)
  else none

/-- A recovery with something to say that has not begun. -/
def soonOf (key : Key) (j : Job) : Option (Bool × Nat) :=
  if j.key = key ∧ j.role = .recovery true then some (false, j.drop) else none

namespace View

/-- What was said and will be said about a module. -/
def script (v : View) (key : Key) : List (Bool × Nat) :=
  v.calls.filterMap (noticeOf key) ++ (v.works.filterMap (labelOf key) ++
    (v.works.filterMap (resolveOf key) ++ v.soon.filterMap (soonOf key)))

/-- The drop of the module that was decided to be paged and is not over. -/
def open_ (v : View) (key : Key) : Option Nat :=
  if key ∈ v.alerted then some (v.onlines key) else none

/-- Page and recovery in turn, for every module. -/
def Alternating (v : View) : Prop := ∀ key, Told (v.open_ key) (v.script key)

end View

section

variable {v : View} {job : Job} {call : Call} {key : Key}
  {works : List (Job × Call)} {soon : List Job}

theorem soonOf_timer (h : job.role = .timer) : soonOf key job = none := by
  refine if_neg fun hc => ?_
  rw [h] at hc
  cases hc.2

theorem labelOf_ne (h : call ≠ .label) : labelOf key (job, call) = none :=
  if_neg fun hc => h hc.2

theorem resolveOf_ne (h : call = .resolve → job.role ≠ .recovery true) :
    resolveOf key (job, call) = none :=
  if_neg fun hc => h hc.2.1 hc.2.2

/-- Beginning, a recovery keeps its place. -/
theorem resolveOf_firstCall : resolveOf key (job, job.role.firstCall) = soonOf key job := by
  unfold resolveOf soonOf
  cases hr : job.role with
  | timer => rw [if_neg (fun hc => nomatch hc.2.2), if_neg (fun hc => nomatch hc.2)]
  | recovery a =>
    refine if_congr ?_ rfl rfl
    exact and_congr_right fun _ => ⟨fun h => h.2, fun h => ⟨rfl, h⟩⟩

/-- A task that has nothing to say goes on, or is over. -/
theorem script_silent (hw : v.works = (job, call) :: works) (hl : call ≠ .label)
    (hr : call = .resolve → job.role ≠ .recovery true) :
    View.script { v with works := works } key = v.script key := by
  unfold View.script
  rw [hw, List.filterMap_cons_none (labelOf_ne hl), List.filterMap_cons_none (resolveOf_ne hr)]

theorem script_begin (hs : v.soon = job :: soon) :
    View.script { v with soon := soon, works := v.works ++ [(job, job.role.firstCall)] } key =
      v.script key := by
  have hlabel : labelOf key (job, job.role.firstCall) = none := by
    refine labelOf_ne ?_
    cases job.role <;> exact nofun
  unfold View.script
  rw [hs, List.filterMap_append, List.filterMap_append, List.filterMap_cons_none hlabel]
  cases hsoon : soonOf key job with
  | none =>
    rw [List.filterMap_cons_none (resolveOf_firstCall.trans hsoon), List.filterMap_cons_none hsoon]
    simp only [List.filterMap_nil, List.append_nil]
  | some x =>
    rw [List.filterMap_cons_some (resolveOf_firstCall.trans hsoon), List.filterMap_cons_some hsoon]
    simp only [List.filterMap_nil, List.append_nil, List.append_assoc, List.singleton_append]

/-- A recovery goes on to its label, and keeps its place. -/
theorem script_resolved (hw : v.works = (job, .resolve) :: works) (hr : job.role = .recovery true) :
    View.script { v with works := works ++ [(job, .label)] } key = v.script key := by
  have hsame : labelOf key (job, .label) = resolveOf key (job, .resolve) := by
    unfold labelOf resolveOf
    rw [hr]
    exact if_congr ⟨fun h => ⟨h.1, rfl, rfl⟩, fun h => ⟨h.1, rfl⟩⟩ rfl rfl
  unfold View.script
  rw [hw, List.filterMap_append, List.filterMap_append,
    List.filterMap_cons_none (@labelOf_ne job .resolve _ nofun),
    List.filterMap_cons_none (@resolveOf_ne job .label _ nofun)]
  cases hres : resolveOf key (job, .resolve) with
  | none =>
    rw [List.filterMap_cons_none (hsame.trans hres), List.filterMap_cons_none hres]
    simp only [List.filterMap_nil, List.append_nil]
  | some x =>
    rw [List.filterMap_cons_some (hsame.trans hres), List.filterMap_cons_some hres]
    simp only [List.filterMap_nil, List.nil_append, List.append_assoc, List.cons_append]

/-- A notice is sent, and keeps its place. -/
theorem script_sent (hw : v.works = (job, .label) :: works) :
    View.script { v with works := works,
                         calls := v.calls ++ [⟨job.key, decide (job.role = .timer), job⟩] } key =
      v.script key := by
  have hsame : noticeOf key ⟨job.key, decide (job.role = .timer), job⟩ =
      labelOf key (job, .label) :=
    if_congr ⟨fun h => ⟨h, rfl⟩, fun h => h.1⟩ rfl rfl
  unfold View.script
  rw [hw, List.filterMap_append, List.filterMap_cons_none (@resolveOf_ne job .label _ nofun)]
  cases hl : labelOf key (job, .label) with
  | none =>
    rw [List.filterMap_cons_none (hsame.trans hl), List.filterMap_cons_none hl]
    simp only [List.filterMap_nil, List.append_nil]
  | some x =>
    rw [List.filterMap_cons_some (hsame.trans hl), List.filterMap_cons_some hl]
    simp only [List.filterMap_nil, List.nil_append, List.append_assoc, List.cons_append]

/-- A timer that decides to page is the last to speak. -/
theorem script_commit (h : Ordered v) (hw : v.works = (job, .record) :: works)
    (ht : job.role = .timer) (hlive : job.id ∉ v.cancelled) :
    View.script { v with works := works ++ [(job, .label)] } key =
      v.script key ++ if job.key = key then [(true, job.drop)] else [] := by
  have hhead : View.script { v with works := works ++ [(job, .label)] } key =
      v.calls.filterMap (noticeOf key) ++ (works.filterMap (labelOf key) ++
        ((labelOf key (job, .label)).toList ++
          (works.filterMap (resolveOf key) ++ v.soon.filterMap (soonOf key)))) := by
    unfold View.script
    rw [List.filterMap_append, List.filterMap_append, List.filterMap_cons_none
      (@resolveOf_ne job .label _ nofun), List.filterMap_nil, List.append_nil, List.append_assoc]
    rfl
  rw [hhead, ← script_silent hw nofun nofun]
  unfold View.script
  by_cases hkey : job.key = key
  · have hresolve : works.filterMap (resolveOf key) = [] := by
      have hworks := h.works
      rw [hw, List.pairwise_cons] at hworks
      refine List.filterMap_eq_nil_iff.mpr fun x hx => if_neg fun hc => ?_
      exact hworks.1 x hx ht nofun hlive hc.2.1 (hc.1.trans hkey.symm)
    have hsoon : v.soon.filterMap (soonOf key) = [] := by
      refine List.filterMap_eq_nil_iff.mpr fun j hj => if_neg fun hc => ?_
      have hrole := h.begun job ⟨ht, Or.inl ⟨.record, nofun, hw ▸ List.mem_cons_self⟩⟩ hlive j hj
        (hc.1.trans hkey.symm)
      rw [hrole] at hc
      cases hc.2
    have hlabel : labelOf key (job, .label) = some (true, job.drop) := by
      unfold labelOf
      rw [if_pos ⟨hkey, rfl⟩, ht]
      rfl
    rw [hresolve, hsoon, hlabel, if_pos hkey]
    simp only [Option.toList_some, List.append_nil, List.append_assoc]
  · rw [if_neg hkey, show labelOf key (job, .label) = none from if_neg fun hc => hkey hc.1]
    simp only [Option.toList_none, List.nil_append, List.append_nil]

theorem open_cleanup : (v.cleanup job).open_ key = v.open_ key := by
  unfold View.cleanup
  split <;> rfl

theorem script_cleanup : (v.cleanup job).script key = v.script key := by
  unfold View.cleanup
  split <;> rfl

end

namespace View.Alternating

variable {v v' : View} {grace : Nat} {noted : Key → Prop}

/-- Nothing is told, and no drop begins or ends. -/
theorem same (h : v.Alternating) (ho : ∀ key, v'.open_ key = v.open_ key)
    (hs : ∀ key, v'.script key = v.script key) : v'.Alternating := by
  intro key
  rw [ho, hs]
  exact h key

theorem recover (h : v.Alternating) (key : Key) : (v.recover key).Alternating := by
  intro k
  have hscript : (v.recover key).script k = v.script k ++
      (soonOf k ⟨v.nextId, key, .recovery (v.alerted.contains key), v.onlines key, v.now⟩).toList := by
    unfold View.script View.recover
    rw [List.filterMap_append, ← List.append_assoc, ← List.append_assoc, ← List.append_assoc,
      ← List.append_assoc, ← List.append_assoc]
    congr 1
  have hk := h k
  rw [hscript]
  by_cases hkey : k = key
  · subst hkey
    have hclosed : (v.recover k).open_ k = none :=
      if_neg fun hm => by simpa using (List.mem_filter.mp hm).2
    rw [hclosed]
    by_cases ha : k ∈ v.alerted
    · have hsoon : soonOf k ⟨v.nextId, k, .recovery (v.alerted.contains k), v.onlines k, v.now⟩ =
          some (false, v.onlines k) :=
        if_pos ⟨rfl, congrArg Role.recovery (List.contains_iff_mem.mpr ha)⟩
      rw [hsoon]
      unfold View.open_ at hk
      rw [if_pos ha] at hk
      exact .back hk
    · have hsoon : soonOf k ⟨v.nextId, k, .recovery (v.alerted.contains k), v.onlines k, v.now⟩ =
          none :=
        if_neg fun hc => ha (List.contains_iff_mem.mp (Role.recovery.inj hc.2))
      rw [hsoon]
      unfold View.open_ at hk
      rw [if_neg ha] at hk
      exact (List.append_nil (v.script k)).symm ▸ hk
  · have hsame : (v.recover key).open_ k = v.open_ k := by
      refine if_congr ⟨List.mem_of_mem_filter, fun hm => List.mem_filter.mpr ⟨hm, bne_iff_ne.mpr hkey⟩⟩
        (congrArg some ?_) rfl
      exact Function.update_of_ne hkey _ _
    have hsoon : soonOf k ⟨v.nextId, key, .recovery (v.alerted.contains key), v.onlines key, v.now⟩ =
        none := if_neg fun hc => hkey hc.1.symm
    rw [hsame, hsoon]
    exact (List.append_nil (v.script k)).symm ▸ hk

theorem commit (h : v.Alternating) (hwired : Wired v) (hord : Ordered v) {job : Job}
    {works : List (Job × Call)} (hw : v.works = (job, .record) :: works)
    (ht : job.role = .timer) (hlive : job.id ∉ v.cancelled) :
    View.Alternating
      { v with works := works ++ [(job, .label)], alerted := job.key :: v.alerted
               pending := v.pending.erase job.key } := by
  intro k
  have hwait : v.Waiting job := Wired.waiting_head hw ht nofun
  have hk := h k
  rw [show View.script
      { v with works := works ++ [(job, .label)], alerted := job.key :: v.alerted
               pending := v.pending.erase job.key } k = _ from script_commit hord hw ht hlive]
  by_cases hkey : job.key = k
  · subst hkey
    have hna : job.key ∉ v.alerted := by
      intro ha
      have hpend := hwired.pending_of_live hwait hlive
      rw [hwired.excl _ ha] at hpend
      cases hpend
    unfold View.open_ at hk ⊢
    rw [if_neg hna] at hk
    rw [if_pos List.mem_cons_self, if_pos rfl, ← hord.drops job hwait hlive]
    exact .page _ hk
  · rw [if_neg hkey, List.append_nil]
    have hsame : View.open_
        { v with works := works ++ [(job, .label)], alerted := job.key :: v.alerted
                 pending := v.pending.erase job.key } k = v.open_ k :=
      if_congr ⟨fun hm => (List.mem_cons.mp hm).resolve_left fun he => hkey he.symm,
        List.mem_cons_of_mem _⟩ rfl rfl
    rw [hsame]
    exact hk

/-- **Every step keeps page and recovery in turn.** -/
theorem effect (h : v.Alternating) (hwired : Wired v) (hord : Ordered v)
    (he : Effect grace noted v v') : v'.Alternating := by
  cases he with
  | quiet d => exact h.same (fun _ => rfl) fun _ => rfl
  | @arm key _ hp ha =>
    refine h.same (fun _ => rfl) fun k => ?_
    have hsoon : soonOf k ⟨v.nextId, key, .timer, v.onlines key, v.now⟩ = none := soonOf_timer rfl
    unfold View.script View.arm
    rw [List.filterMap_append, List.filterMap_cons_none hsoon, List.filterMap_nil, List.append_nil]
  | recover key => exact h.recover key
  | begin hs _ => exact h.same (fun _ => rfl) fun _ => script_begin hs
  | stillborn hs ht _ =>
    refine h.same (fun _ => rfl) fun _ => ?_
    unfold View.script
    rw [hs, List.filterMap_cons_none (soonOf_timer ht)]
  | fade hw hq =>
    refine h.same (fun _ => rfl) fun _ => ?_
    rcases hq with ⟨ht, hl, -⟩ | ⟨a, hr, hl, ha⟩
    · exact script_silent hw hl fun _ hr => nomatch ht.symm.trans hr
    · refine script_silent hw hl fun hres hr' => ?_
      exact nomatch (ha hres).symm.trans (Role.recovery.inj (hr.symm.trans hr'))
  | roused hi _ => exact h.same (fun _ => rfl) fun _ => rfl
  | giveUp hw ht hcall _ =>
    refine h.same (fun _ => open_cleanup) fun _ => script_cleanup.trans ?_
    rcases hcall with rfl | rfl
    · exact script_silent hw nofun nofun
    · exact script_silent hw nofun nofun
  | sleep hw ht _ => exact h.same (fun _ => rfl) fun _ => script_silent hw nofun nofun
  | @wake job d i hi _ _ =>
    refine h.same (fun _ => rfl) fun k => ?_
    unfold View.script
    rw [List.filterMap_append, List.filterMap_append,
      List.filterMap_cons_none (@labelOf_ne job .record _ nofun),
      List.filterMap_cons_none (@resolveOf_ne job .record _ nofun),
      List.filterMap_nil, List.filterMap_nil, List.append_nil, List.append_nil]
  | commit hw ht hlive => exact h.commit hwired hord hw ht hlive
  | page hw ht =>
    refine h.same (fun _ => open_cleanup) fun _ => script_cleanup.trans ?_
    refine Eq.trans ?_ (script_sent hw)
    rw [ht]
    rfl
  | resolved hw hr => exact h.same (fun _ => rfl) fun _ => script_resolved hw hr
  | notice hw hr =>
    refine h.same (fun _ => rfl) fun _ => Eq.trans ?_ (script_sent hw)
    rw [hr]
    rfl
  | restart => exact fun _ => .nothing

end View.Alternating

end Air780eHub.Alerts
