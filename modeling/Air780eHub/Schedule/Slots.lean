/-
  A cron slot fires at most once.

  A cron plan is a firing of the expression moved by the jitter, and only the moved time is stored.
  The next slot is counted from the moment the run ended.
  1. **The condition** (`State.Punctual`): no execution of a cron plan ends before its slot.  A
     negative jitter starts a plan early, and the run may be over before the slot is.
  2. **The invariant** (`State.InOrder`), over the clock reading `c`: the slots started so far lie
     behind the clock or are being executed, and the stored plans lie ahead of them.
  3. **The law** (`slot_once`): the slots that ticks start are strictly increasing for each task, and
     a stored plan comes from a later slot than every one started before.
  4. `slot_repeats`: with half an hour of jitter the nine o'clock slot is executed twice.
-/
import Air780eHub.Schedule.Occurrences

namespace Air780eHub.Schedule

/-! ## The condition -/

/-- The process goes on, the clock does not go back, and an execution of a cron plan ends at its slot
    or later, with a schedule date arithmetic can handle. -/
structure State.Punctual (s : State) (a : Act) : Prop where
  alive    : a.ends = false
  clock    : s.clock ≤ s.clockAfter a
  finishes : ∀ e now draw, s.finishes a = some (e, now, draw) →
    ∀ p ∈ e.cause.plans, ∀ slot ∈ p.slot,
      slot.utc ≤ now.utc ∧ ¬ e.task.schedule.Escapes now draw

/-! ## The invariant -/

/-- A tick started `p` and the execution has not ended. -/
def State.Executing (s : State) (p : Plan) : Prop :=
  ∃ e, s.running.get? p.task = some e ∧ p ∈ e.cause.plans ∧ e.phase ≠ .done

/-- The two starts are of one task and in the order of their slots. -/
def Firing.Before (f g : Firing) : Prop :=
  f.plan.task = g.plan.task → ∀ σ ∈ f.plan.slot, ∀ τ ∈ g.plan.slot, σ.utc < τ.utc

structure State.InOrder (c : Int) (s : State) : Prop where
  /-- A started slot lies behind the clock, unless its execution goes on. -/
  past  : ∀ f ∈ s.fired, ∀ τ ∈ f.plan.slot, τ.utc ≤ c ∨ s.Executing f.plan
  /-- A stored slot lies ahead of every started one, unless it is the one being executed. -/
  ahead : ∀ r ∈ s.tasks.rows, ∀ q ∈ r.nextRunAt, ∀ σ ∈ q.slot,
    ∀ f ∈ s.fired, f.plan.task = q.task → ∀ τ ∈ f.plan.slot,
      τ.utc < σ.utc ∨ (f.plan = q ∧ s.Executing q)
  /-- The slots of a task were started in ascending order. -/
  order : s.fired.Pairwise Firing.Before

theorem State.InOrder.later {c c' : Int} {s : State} (h : s.InOrder c) (hle : c ≤ c') :
    s.InOrder c' :=
  { h with past := fun f hf τ hτ => (h.past f hf τ hτ).imp_left fun hc => hc.trans hle }

/-- A plan is executed by the entry of its task. -/
theorem State.Executing.entry {s : State} {p : Plan} (h : s.Executing p) {e : Execution}
    (he : s.running.get? p.task = some e) : p ∈ e.cause.plans ∧ e.phase ≠ .done := by
  obtain ⟨e₀, he₀, hrest⟩ := h
  rw [he] at he₀
  obtain rfl := Option.some.inj he₀
  exact hrest

theorem State.Executing.not_free {s : State} {p : Plan} (h : s.Executing p)
    (hfree : s.running.get? p.task = none) : False := by
  obtain ⟨e, he, -⟩ := h
  rw [hfree] at he
  cases he

theorem State.Executing.setRun {s : State} {p : Plan} (h : s.Executing p) {e : Execution}
    (he : p.task = e.task.id → p ∈ e.cause.plans ∧ e.phase ≠ .done) : (s.setRun e).Executing p := by
  by_cases hid : p.task = e.task.id
  · exact ⟨e, by rw [hid]; exact s.setRun_get? e, he hid⟩
  · obtain ⟨e₀, he₀, hrest⟩ := h
    exact ⟨e₀, (Dict.get?_set_ne hid).trans he₀, hrest⟩

/-- What a move without a start must respect: a slot that is no longer executed lies behind the
    clock and is stored no more. -/
theorem State.InOrder.frame {c : Int} {s s' : State} (h : s.InOrder c)
    (hfired : s'.fired = s.fired)
    (hrows : ∀ r' ∈ s'.tasks.rows, ∀ q ∈ r'.nextRunAt, ∃ r ∈ s.tasks.rows, q ∈ r.nextRunAt)
    (hex : ∀ p, s.Executing p → ∀ σ ∈ p.slot,
      s'.Executing p ∨ (σ.utc ≤ c ∧ ∀ r ∈ s'.tasks.rows, p ∉ r.nextRunAt)) : s'.InOrder c := by
  refine ⟨fun f hf τ hτ => ?_, fun r hr q hq σ hσ f hf htask τ hτ => ?_, by
    rw [hfired]; exact h.order⟩
  · rw [hfired] at hf
    rcases h.past f hf τ hτ with hle | hexec
    · exact .inl hle
    · exact (hex _ hexec τ hτ).symm.imp And.left id
  · rw [hfired] at hf
    obtain ⟨r₀, hr₀, hq₀⟩ := hrows r hr q hq
    rcases h.ahead r₀ hr₀ q hq₀ σ hσ f hf htask τ hτ with hlt | ⟨heq, hexec⟩
    · exact .inl hlt
    · rcases hex q hexec σ hσ with hexec' | ⟨-, hgone⟩
      · exact .inr ⟨heq, hexec'⟩
      · exact absurd hq (hgone r hr)

/-- Storing a plan later than the clock for a task all of whose started slots lie behind it. -/
theorem State.InOrder.update {c : Int} {s : State} (h : s.InOrder c) {t : Row} {n : Nat}
    {f : Row → Row} {hf : ∀ r, (f r).id = r.id}
    (hpast : ∀ g ∈ s.fired, g.plan.task = t.id → ∀ τ ∈ g.plan.slot, τ.utc ≤ c)
    (hnew : ∀ r, ∀ q ∈ (f r).nextRunAt, s.Makes t c q) :
    State.InOrder c { s with tasks := s.tasks.update t.id f hf, plans := n } := by
  refine ⟨h.past, fun r hr q hq σ hσ g hg htask τ hτ => ?_, h.order⟩
  rcases TaskTable.of_mem_update hf hr with ⟨hold, -⟩ | ⟨r₀, -, -, rfl⟩
  · exact h.ahead r hold q hq σ hσ g hg htask τ hτ
  · have hmakes := hnew r₀ q hq
    have hle := hpast g hg (htask.trans hmakes.task) τ hτ
    exact .inl (hle.trans_lt (hmakes.later σ hσ))

/-- The started slots of a task that does not run lie behind the clock. -/
theorem State.InOrder.past_free {c : Int} {s : State} (h : s.InOrder c) {id : Nat}
    (hfree : s.running.get? id = none) :
    ∀ f ∈ s.fired, f.plan.task = id → ∀ τ ∈ f.plan.slot, τ.utc ≤ c := by
  intro f hf htask τ hτ
  rcases h.past f hf τ hτ with hle | hexec
  · exact hle
  · exact absurd (htask ▸ hfree) hexec.not_free

/-- Every move of a punctual step keeps the slots in order. -/
theorem State.InOrder.move {F : State → Execution → DateTime → Int → Prop} {L : State → Prop}
    {c : Int} {s s' : State} (hm : Move F L c s s') (hw : s.Wired) (h : s.InOrder c)
    (hfin : ∀ e now draw, F s e now draw → ∀ p ∈ e.cause.plans, ∀ slot ∈ p.slot,
      slot.utc ≤ now.utc ∧ ¬ e.task.schedule.Escapes now draw)
    (halive : ¬ L s) : s'.InOrder c := by
  cases hm with
  | aside htasks hrun hfired hspent hplans =>
    refine h.frame hfired (fun r hr q hq => ⟨r, htasks ▸ hr, hq⟩) fun p hp σ hσ => .inl ?_
    rw [Executing, hrun]
    exact hp
  | planned t p ht hfree hp =>
    refine h.update (h.past_free hfree) fun r q hq => ?_
    obtain rfl := Option.some.inj hq
    exact hp
  | advanced t last next n ht hfree hnext hn =>
    exact h.update (h.past_free hfree) fun r q hq => (hnext q hq).1
  | started t p hrow hfree =>
    obtain ⟨r, hr, hid, hnext⟩ := hrow
    have htask : p.task = t.id := (hw.stored r hr p hnext).1.trans hid
    have hkeeps : ∀ q, s.Executing q → (s.start t p).Executing q := by
      rintro q ⟨e, he, hrest⟩
      have hne : q.task ≠ t.id := fun heq => by
        rw [heq, hfree] at he
        cases he
      exact ⟨e, (Dict.get?_set_ne hne).trans he, hrest⟩
    have hexec : (s.start t p).Executing p :=
      ⟨⟨t, .timer p, 0, .waiting, false⟩, by rw [htask]; exact Dict.get?_set,
        List.mem_singleton_self p, nofun⟩
    have hnot : ¬ s.Executing p := fun hp => hp.not_free (htask ▸ hfree)
    refine ⟨fun f hf τ hτ => ?_, fun r' hr' q hq σ hσ f hf hsame τ hτ => ?_, ?_⟩
    · rcases List.mem_append.mp hf with hf | hf
      · exact (h.past f hf τ hτ).imp_right (hkeeps _)
      · rw [List.mem_singleton.mp hf]
        exact .inr hexec
    · rcases List.mem_append.mp hf with hf | hf
      · exact (h.ahead r' hr' q hq σ hσ f hf hsame τ hτ).imp_right fun ⟨heq, hq⟩ =>
          ⟨heq, hkeeps q hq⟩
      · -- the plan just started is the one its row stores
        obtain rfl := List.mem_singleton.mp hf
        have hrow : r' = r := by
          refine TaskTable.eq_of_id hr' hr ?_
          rw [← (hw.stored r' hr' q hq).1, ← hsame, htask, hid]
        rw [hrow, hnext] at hq
        obtain rfl := Option.some.inj hq
        exact .inr ⟨rfl, hexec⟩
    · refine List.pairwise_append.mpr ⟨h.order, List.pairwise_singleton _ _, fun f hf g hg => ?_⟩
      obtain rfl := List.mem_singleton.mp hg
      intro hsame τ hτ σ hσ
      rcases h.ahead r hr p hnext σ hσ f hf hsame τ hτ with hlt | ⟨-, hp⟩
      · exact hlt
      · exact absurd hp hnot
  | rescheduled e e' now draw last next n hf hrun hlive htask hcause hdone heffect hnow hnext hn =>
    have hpast : ∀ g ∈ s.fired, g.plan.task = e.task.id → ∀ τ ∈ g.plan.slot, τ.utc ≤ c := by
      intro g hg hgtask τ hτ
      rcases h.past g hg τ hτ with hle | hexec
      · exact hle
      · obtain ⟨hplan, -⟩ := hexec.entry (hgtask ▸ hrun)
        rw [hnow]
        exact (hfin e now draw hf _ hplan τ hτ).1
    have hupd : State.InOrder c
        { s with tasks := s.tasks.markTaskRun e.task.id last next, plans := n } :=
      h.update hpast fun _ q hq => (hnext q hq).1
    refine hupd.frame rfl (fun r hr q hq => ⟨r, hr, hq⟩) fun p hp σ hσ => ?_
    have hp' : s.Executing p := hp
    by_cases hid : p.task = e.task.id
    · obtain ⟨hplan, -⟩ := hp'.entry (hid ▸ hrun)
      refine .inr ⟨hnow ▸ (hfin e now draw hf p hplan σ hσ).1, fun r hr hq => ?_⟩
      by_cases hrid : r.id = e.task.id
      · -- the new plan has a new number
        have heq := TaskTable.nextRunAt_markTaskRun hr hrid
        have hnum := (hnext p (heq ▸ hq)).1.number
        have hlt := (hw.timed _ e hrun p hplan).2
        omega
      · -- a plan is stored for its own task
        have hold := TaskTable.mem_of_markTaskRun hr hrid
        exact hrid ((hw.stored r hold p hq).1.symm.trans hid)
    · exact .inl (hp.setRun fun heq => absurd (heq.trans (by rw [htask])) hid)
  | broken e e' now draw hf hrun hlive htask hcause hdone heffect hesc =>
    refine h.frame rfl (fun r hr q hq => ⟨r, hr, hq⟩) fun p hp σ hσ => .inl ?_
    refine hp.setRun fun hid => ?_
    rw [htask] at hid
    obtain ⟨hplan, -⟩ := hp.entry (hid ▸ hrun)
    exact absurd hesc (hfin e now draw hf p hplan σ hσ).2
  | entered e hfree hcause =>
    refine h.frame rfl (fun r hr q hq => ⟨r, hr, hq⟩) fun p hp σ hσ => .inl ?_
    exact hp.setRun fun hid => absurd (hid ▸ hfree) hp.not_free
  | continued e e' hrun hlive htask hcause hlive' heffect =>
    refine h.frame rfl (fun r hr q hq => ⟨r, hr, hq⟩) fun p hp σ hσ => .inl ?_
    refine hp.setRun fun hid => ?_
    rw [htask] at hid
    rw [hcause]
    exact ⟨(hp.entry (hid ▸ hrun)).1, hlive'⟩
  | effected e hrun hlive =>
    refine h.frame rfl (fun r hr q hq => ⟨r, hr, hq⟩) fun p hp σ hσ => .inl ?_
    have hp' : State.Executing { s with spent := e.cause.plans ++ s.spent } p := hp
    refine hp'.setRun fun hid => ?_
    have hrun' : s.running.get? p.task = some e := by
      rw [hid]
      exact hrun
    exact ⟨(hp.entry hrun').1, hlive⟩
  | left id e hrun hover =>
    refine h.frame rfl (fun r hr q hq => ⟨r, hr, hq⟩) fun p hp σ hσ => .inl ?_
    by_cases hid : p.task = id
    · obtain ⟨hplan, hlive⟩ := hp.entry (hid ▸ hrun)
      rcases hover with hdone | hnone
      · exact absurd hdone hlive
      · rw [hnone] at hplan
        cases hplan
    · obtain ⟨e₀, he₀, hrest⟩ := hp
      exact ⟨e₀, (Dict.get?_erase_ne hid).trans he₀, hrest⟩
  | synced incoming hids =>
    refine h.frame rfl (fun r hr q hq => ?_) fun p hp σ hσ => .inl hp
    rcases TaskTable.of_mem_replaceTasks (h := hids) hr with hnone | ⟨r₀, h₀, -, -, hnext⟩
    · rw [hnone] at hq
      cases hq
    · exact ⟨r₀, h₀, hnext ▸ hq⟩
  | lost hl => exact absurd hl halive

/-! ## The law -/

theorem inOrder {s : State} (h : scheduler.ReachableBy State.Punctual s) : s.InOrder s.clock := by
  refine run_invariant (I := State.InOrder) ?_ (fun _ _ hg _ h => h.later hg.clock) ?_ h
  · intro s hs
    refine ⟨fun f hf => ?_, fun r hr => ?_, ?_⟩
    · rw [hs.fired] at hf; cases hf
    · rw [hs.tasks] at hr; cases hr
    · rw [hs.fired]; exact List.Pairwise.nil
  · intro s a hg s₁ s₂ hm hw hI
    refine hI.move hm hw ?_ ?_
    · rintro e now draw ⟨rfl, hfin⟩
      exact hg.finishes e now draw hfin
    · rintro ⟨hends, -⟩
      rw [hg.alive] at hends
      cases hends

/-- **A cron slot fires at most once, when no execution ends before its slot.**  In every run without
    a restart and with a clock that does not go back, in which each execution of a cron plan ends at
    its slot or later: the slots ticks start are strictly increasing for each task, and a stored
    plan comes from a later slot than every plan started before, unless it is itself the one being
    executed. -/
theorem slot_once {s : State} (h : scheduler.ReachableBy State.Punctual s) :
    s.fired.Pairwise Firing.Before
      ∧ ∀ r ∈ s.tasks.rows, ∀ q, r.nextRunAt = some q → ∀ σ, q.slot = some σ →
          ∀ f ∈ s.fired, f.plan.task = r.id → ∀ τ, f.plan.slot = some τ →
            τ.utc < σ.utc ∨ (f.plan = q ∧ s.Executing q) := by
  have hin := inOrder h
  refine ⟨hin.order, fun r hr q hq σ hσ f hf htask τ hτ => ?_⟩
  have hid := ((wired h).stored r hr q hq).1
  exact hin.ahead r hr q hq σ hσ f hf (htask.trans hid.symm) τ hτ

/-- A check of the condition that a run can evaluate. -/
def State.punctual (s : State) (a : Act) : Bool :=
  !a.ends && decide (s.clock ≤ s.clockAfter a)
    && match s.finishes a with
      | none                => true
      | some (e, now, draw) =>
        (match nextRun e.task.schedule now now draw with
          | .ok _    => true
          | .error x => x = .scheduleError)
        && e.cause.plans.all fun p => p.slot.all fun slot => slot.utc ≤ now.utc

theorem State.punctual_spec {s : State} {a : Act} (h : s.punctual a = true) : s.Punctual a := by
  rw [punctual, Bool.and_eq_true, Bool.and_eq_true] at h
  obtain ⟨⟨halive, hclock⟩, hfin⟩ := h
  refine ⟨by simpa using halive, of_decide_eq_true hclock, fun e now draw hf p hp slot hslot => ?_⟩
  rw [hf] at hfin
  simp only [Bool.and_eq_true] at hfin
  constructor
  · have hall := List.all_eq_true.mp hfin.2 p hp
    rw [Option.all_eq_true] at hall
    exact of_decide_eq_true (hall slot hslot)
  · intro hesc
    obtain ⟨x, hx, hne⟩ := (nextRun_escapes _ now now draw).mpr hesc
    have hgood := hfin.1
    rw [hx] at hgood
    exact hne (of_decide_eq_true hgood)

/-- An instant of the first day, in minutes. -/
def minutes (n : Int) : DateTime := ⟨n * MINUTE, 0⟩

/-- The nine o'clock task with half an hour of jitter, on two days: planned ten minutes late on the
    first, ten minutes early on the second and executed until its slot. -/
theorem slot_once_twice :
    ∃ s, scheduler.run newStore
        [.sync [pingTask "cron" "0 9 * * *" 1800], .tick (minutes 0) fun _ => 10 * MINUTE,
          .tick (minutes 550) fun _ => 0, .perform 1 dataWorker (minutes 551) 0, .effect 1,
          .reply 1 (.answered true) (minutes 551) (-10 * MINUTE), .reap 1,
          .tick (minutes 1970) fun _ => 0, .perform 1 dataWorker (minutes 1971) 0, .effect 1,
          .reply 1 (.answered true) (minutes 1980) 0] = some s
      ∧ s.fired.map (fun f => f.plan.slot) = [some (minutes 540), some (minutes 1980)]
      ∧ s.fired.Pairwise Firing.Before := by
  have hrun : (scheduler.runBy State.punctual newStore
      [.sync [pingTask "cron" "0 9 * * *" 1800], .tick (minutes 0) fun _ => 10 * MINUTE,
        .tick (minutes 550) fun _ => 0, .perform 1 dataWorker (minutes 551) 0, .effect 1,
        .reply 1 (.answered true) (minutes 551) (-10 * MINUTE), .reap 1,
        .tick (minutes 1970) fun _ => 0, .perform 1 dataWorker (minutes 1971) 0, .effect 1,
        .reply 1 (.answered true) (minutes 1980) 0]).map
      (fun s => s.fired.map fun f => f.plan.slot)
      = some [some (minutes 540), some (minutes 1980)] := by decide +kernel
  obtain ⟨s, hs, hslots⟩ := Option.map_eq_some_iff.mp hrun
  exact ⟨s, Machine.run_of_runBy hs, hslots, (slot_once ⟨newStore, newStore_starts,
    (Machine.runBy_path hs).mono fun _ _ => State.punctual_spec⟩).1⟩

/-- **A slot that is over early fires twice.**  A jitter of minus twenty minutes starts the nine
    o'clock slot at 8:40; the run ends at 8:41, and the first firing after 8:41 is nine o'clock
    again. -/
theorem slot_repeats :
    ∃ s, scheduler.run newStore
        [.sync [pingTask "cron" "0 9 * * *" 1800], .tick (minutes 480) fun _ => -20 * MINUTE,
          .tick (minutes 520) fun _ => 0, .perform 1 dataWorker (minutes 520) 0, .effect 1,
          .reply 1 (.answered true) (minutes 521) 0, .reap 1, .tick (minutes 540) fun _ => 0] = some s
      ∧ s.fired.map (fun f => f.plan.slot) = [some (minutes 540), some (minutes 540)]
      ∧ ¬ s.fired.Pairwise Firing.Before := by
  have hrun : (scheduler.run newStore
      [.sync [pingTask "cron" "0 9 * * *" 1800], .tick (minutes 480) fun _ => -20 * MINUTE,
        .tick (minutes 520) fun _ => 0, .perform 1 dataWorker (minutes 520) 0, .effect 1,
        .reply 1 (.answered true) (minutes 521) 0, .reap 1, .tick (minutes 540) fun _ => 0]).map
      (fun s => s.fired.map fun f => (f.plan.task, f.plan.slot))
      = some [(1, some (minutes 540)), (1, some (minutes 540))] := by decide +kernel
  obtain ⟨s, hs, hslots⟩ := Option.map_eq_some_iff.mp hrun
  refine ⟨s, hs, ?_, fun horder => ?_⟩
  · have hsnd := congrArg (List.map Prod.snd) hslots
    rw [List.map_map] at hsnd
    exact hsnd
  · have hpairs : (s.fired.map fun f => (f.plan.task, f.plan.slot)).Pairwise fun a b =>
        a.1 = b.1 → ∀ σ ∈ a.2, ∀ τ ∈ b.2, σ.utc < τ.utc := List.pairwise_map.mpr horder
    rw [hslots] at hpairs
    have hbefore := List.rel_of_pairwise_cons hpairs List.mem_cons_self
    exact absurd (hbefore rfl _ rfl _ rfl) (lt_irrefl _)

end Air780eHub.Schedule
