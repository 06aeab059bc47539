/-
  Everything one step of the offline alerter can do (`step_effect`).

  What the invariants are about is the alerter's own memory: which tasks wait where, and what was
  sent.  The results of executed calls, the setting and the database columns decide WHICH effect a
  step has and nothing else, so an `Effect` relates two memories (`View`) and leaves them out.
-/
import Air780eHub.Alerts.Model

namespace Air780eHub.Alerts

/-- The memory of the alerter, and the clock. -/
structure View where
  pending   : Dict Key Nat
  alerted   : List Key
  soon      : List Job
  works     : List (Job × Call)
  sleeping  : List (Job × Nat)
  cancelled : List Nat
  nextId    : Nat
  now       : Nat
  calls     : List Notice
  onlines   : Key → Nat
  recovered : List Recovered
  graceEnds : List (Job × Nat)
  pages     : List (Key × Nat)

/-- A call without its result. -/
def Entry.work (e : Entry) : Job × Call := (e.job, e.call)

/-- The memory in a state. -/
def State.view (s : State) : View where
  pending   := s.pending
  alerted   := s.alerted
  soon      := s.soon
  works     := s.queue.map Entry.work
  sleeping  := s.sleeping
  cancelled := s.cancelled
  nextId    := s.nextId
  now       := s.now
  calls     := s.calls
  onlines   := s.onlines
  recovered := s.recovered
  graceEnds := s.graceEnds
  pages     := s.pages

namespace View

variable (v : View)

/-- A timer is armed. -/
def arm (key : Key) : View :=
  { v with
    pending := v.pending.set key v.nextId
    soon    := v.soon ++ [⟨v.nextId, key, .timer, v.onlines key, v.now⟩]
    nextId  := v.nextId + 1 }

/-- A recovery is noted. -/
def recover (key : Key) : View :=
  { v with
    pending   := v.pending.erase key
    cancelled := v.cancelled ++ (v.pending.get? key).toList
    alerted   := v.alerted.filter fun k => k != key
    soon      := v.soon ++
      [⟨v.nextId, key, .recovery (v.alerted.contains key), v.onlines key, v.now⟩]
    nextId    := v.nextId + 1
    onlines   := Function.update v.onlines key (v.onlines key + 1)
    recovered := v.recovered ++ [⟨key, v.onlines key, v.now⟩] }

/-- The `finally` of a timer. -/
def cleanup (job : Job) : View :=
  if v.pending.get? job.key = some job.id then { v with pending := v.pending.erase job.key } else v

end View

/-- The first call of a task. -/
def Role.firstCall : Role → Call
  | .timer      => .enabled
  | .recovery _ => .resolve

/-- What a step does to the memory, when the modules in `noted` were noted offline. -/
inductive Effect (grace : Nat) (noted : Key → Prop) (v : View) : View → Prop
  /-- Nothing but time. -/
  | quiet (d : Nat) : Effect grace noted v { v with now := v.now + d }
  | arm {key : Key} (hk : noted key) (hp : v.pending.get? key = none) (ha : key ∉ v.alerted) :
      Effect grace noted v (v.arm key)
  | recover (key : Key) : Effect grace noted v (v.recover key)
  /-- A task makes its first call. -/
  | begin {job : Job} {soon : List Job} (h : v.soon = job :: soon)
      (hlive : job.role = .timer → job.id ∉ v.cancelled) :
      Effect grace noted v
        { v with soon := soon, works := v.works ++ [(job, job.role.firstCall)] }
  /-- A cancelled timer is gone before it began. -/
  | stillborn {job : Job} {soon : List Job} (h : v.soon = job :: soon) (ht : job.role = .timer)
      (hc : job.id ∈ v.cancelled) : Effect grace noted v { v with soon := soon }
  /-- A task is over after a call, without a trace: a cancelled timer, or a silent recovery. -/
  | fade {job : Job} {call : Call} {works : List (Job × Call)} (h : v.works = (job, call) :: works)
      (hq : (job.role = .timer ∧ call ≠ .label ∧ (job.id ∈ v.cancelled ∨ call = .resolve)) ∨
        (∃ a, job.role = .recovery a ∧ call ≠ .label ∧ (call = .resolve → a = false))) :
      Effect grace noted v { v with works := works }
  /-- A cancelled timer is gone out of its sleep. -/
  | roused {job : Job} {d i : Nat} (h : v.sleeping[i]? = some (job, d))
      (hc : job.id ∈ v.cancelled) : Effect grace noted v { v with sleeping := v.sleeping.eraseIdx i }
  /-- A timer finds nothing to page. -/
  | giveUp {job : Job} {call : Call} {works : List (Job × Call)} (h : v.works = (job, call) :: works)
      (ht : job.role = .timer) (hcall : call = .enabled ∨ call = .record)
      (hlive : job.id ∉ v.cancelled) : Effect grace noted v (View.cleanup { v with works := works } job)
  | sleep {job : Job} {works : List (Job × Call)} (h : v.works = (job, .enabled) :: works)
      (ht : job.role = .timer) (hlive : job.id ∉ v.cancelled) :
      Effect grace noted v
        { v with works := works, sleeping := v.sleeping ++ [(job, v.now + grace)]
                 graceEnds := v.graceEnds ++ [(job, v.now + grace)] }
  | wake {job : Job} {d i : Nat} (h : v.sleeping[i]? = some (job, d)) (hd : d ≤ v.now)
      (hlive : job.id ∉ v.cancelled) :
      Effect grace noted v
        { v with sleeping := v.sleeping.eraseIdx i, works := v.works ++ [(job, .record)] }
  /-- A timer decides to page. -/
  | commit {job : Job} {works : List (Job × Call)} (h : v.works = (job, .record) :: works)
      (ht : job.role = .timer) (hlive : job.id ∉ v.cancelled) :
      Effect grace noted v
        { v with works := works ++ [(job, .label)], alerted := job.key :: v.alerted
                 pending := v.pending.erase job.key }
  /-- The offline page is sent. -/
  | page {job : Job} {works : List (Job × Call)} (h : v.works = (job, .label) :: works)
      (ht : job.role = .timer) :
      Effect grace noted v
        (View.cleanup
          { v with works := works, calls := v.calls ++ [⟨job.key, true, job⟩]
                   pages := v.pages ++ [(job.key, job.drop)] } job)
  /-- A recovery that has something to say goes on. -/
  | resolved {job : Job} {works : List (Job × Call)} (h : v.works = (job, .resolve) :: works)
      (hr : job.role = .recovery true) : Effect grace noted v { v with works := works ++ [(job, .label)] }
  /-- The recovery notice is sent. -/
  | notice {job : Job} {a : Bool} {works : List (Job × Call)} (h : v.works = (job, .label) :: works)
      (hr : job.role = .recovery a) :
      Effect grace noted v { v with works := works, calls := v.calls ++ [⟨job.key, false, job⟩] }
  | restart :
      Effect grace noted v
        { v with pending := ∅, alerted := [], soon := [], works := [], sleeping := []
                 cancelled := [], calls := [] }

variable {grace : Nat} {noted : Key → Prop} {s s' : State} {a : Act}

theorem map_executeFirst (s : State) (es : List Entry) :
    (s.executeFirst es).map Entry.work = es.map Entry.work := by
  induction es with
  | nil => rfl
  | cons e es ih =>
    rw [State.executeFirst]
    split
    · rfl
    · exact congrArg (e.work :: ·) ih

theorem view_cleanup (s : State) (job : Job) : (s.cleanup job).view = s.view.cleanup job := by
  unfold State.cleanup View.cleanup
  show State.view (if s.pending.get? job.key = some job.id then _ else _) =
    if s.pending.get? job.key = some job.id then _ else _
  split
  · rfl
  · rfl

theorem view_await (s : State) (job : Job) (call : Call) :
    (s.await job call).view = { s.view with works := s.view.works ++ [(job, call)] } := by
  unfold State.await State.view
  simp only [List.map_append, List.map_cons, List.map_nil]
  rfl

/-- A task that resumes. -/
theorem resume_effect {job : Job} {call : Call} {ok : Bool} {queue : List Entry}
    (hq : s.queue = ⟨job, call, some ok⟩ :: queue) :
    Effect grace noted s.view ({ s with queue := queue }.resume grace job call ok).view := by
  have hw : s.view.works = (job, call) :: queue.map Entry.work := by
    show s.queue.map Entry.work = _
    rw [hq]
    rfl
  unfold State.resume
  cases hr : job.role with
  | timer =>
    cases call with
    | enabled =>
      show Effect _ _ _ (State.view (if s.cancelled.contains job.id then _ else _))
      by_cases hc : job.id ∈ s.cancelled
      · rw [if_pos (List.contains_iff_mem.mpr hc)]
        exact .fade hw (Or.inl ⟨hr, nofun, Or.inl hc⟩)
      · rw [if_neg (by rwa [List.contains_iff_mem])]
        cases ok with
        | true => exact .sleep hw hr hc
        | false =>
          show Effect _ _ _ (State.view (State.cleanup _ _))
          rw [view_cleanup]
          exact .giveUp hw hr (Or.inl rfl) hc
    | record =>
      show Effect _ _ _ (State.view (if s.cancelled.contains job.id then _ else _))
      by_cases hc : job.id ∈ s.cancelled
      · rw [if_pos (List.contains_iff_mem.mpr hc)]
        exact .fade hw (Or.inl ⟨hr, nofun, Or.inl hc⟩)
      · rw [if_neg (by rwa [List.contains_iff_mem])]
        cases ok with
        | true =>
          show Effect _ _ _ (State.view (State.await _ _ _))
          rw [view_await]
          exact .commit hw hr hc
        | false =>
          show Effect _ _ _ (State.view (State.cleanup _ _))
          rw [view_cleanup]
          exact .giveUp hw hr (Or.inr rfl) hc
    | label =>
      show Effect _ _ _ (State.view (State.cleanup _ _))
      rw [view_cleanup]
      exact .page hw hr
    | resolve => exact .fade hw (Or.inl ⟨hr, nofun, Or.inr rfl⟩)
  | recovery a =>
    cases call with
    | enabled => exact .fade hw (Or.inr ⟨a, hr, nofun, nofun⟩)
    | record => exact .fade hw (Or.inr ⟨a, hr, nofun, nofun⟩)
    | label => exact .notice hw hr
    | resolve =>
      cases a with
      | false => exact .fade hw (Or.inr ⟨false, hr, nofun, fun _ => rfl⟩)
      | true =>
        show Effect _ _ _ (State.view (State.await _ _ _))
        rw [view_await]
        exact .resolved hw hr

/-- **Everything a step can do.** -/
theorem step_effect (hs : step grace s a = some s') :
    Effect grace (fun key => a = .note key false) s.view s'.view := by
  cases a with
  | note key online =>
    obtain rfl := Option.some.inj hs
    cases online with
    | true => exact .recover key
    | false =>
      show Effect _ _ _ (State.view (s.noteOffline key))
      unfold State.noteOffline
      split
      · exact .quiet 0
      · rename_i hno
        rw [Bool.or_eq_true, not_or, List.contains_iff_mem, Option.isSome_iff_ne_none, not_not] at hno
        exact .arm rfl hno.1 hno.2
  | start =>
    cases hsoon : s.soon with
    | nil => rw [step, hsoon] at hs; cases hs
    | cons job soon =>
      rw [step, hsoon] at hs
      obtain rfl := Option.some.inj hs
      unfold State.begin
      cases hr : job.role with
      | timer =>
        show Effect _ _ _ (State.view (if s.cancelled.contains job.id then _ else _))
        by_cases hc : job.id ∈ s.cancelled
        · rw [if_pos (List.contains_iff_mem.mpr hc)]
          exact .stillborn hsoon hr hc
        · rw [if_neg (by rwa [List.contains_iff_mem]), view_await]
          have heff : Effect grace (fun key => Act.start = .note key false) s.view _ := .begin hsoon fun _ => hc
          rw [hr] at heff
          exact heff
      | recovery b =>
        show Effect _ _ _ (State.view (State.await _ _ _))
        rw [view_await]
        have heff : Effect grace (fun key => Act.start = .note key false) s.view _ := .begin hsoon fun ht => by
          rw [hr] at ht
          cases ht
        rw [hr] at heff
        exact heff
  | execute =>
    obtain rfl := Option.some.inj hs
    have hview : State.view { s with queue := s.executeFirst s.queue } = s.view := by
      unfold State.view
      simp only [map_executeFirst]
    rw [hview]
    exact .quiet 0
  | resume =>
    cases hq : s.queue with
    | nil => rw [step, hq] at hs; cases hs
    | cons e queue =>
      obtain ⟨job, call, result⟩ := e
      cases result with
      | none => rw [step, hq] at hs; cases hs
      | some ok =>
        rw [step, hq] at hs
        obtain rfl := Option.some.inj hs
        exact resume_effect hq
  | wake i =>
    cases hi : s.sleeping[i]? with
    | none => rw [step, hi] at hs; cases hs
    | some x =>
      obtain ⟨job, d⟩ := x
      rw [step, hi] at hs
      dsimp only at hs
      by_cases hc : job.id ∈ s.cancelled
      · rw [if_pos (List.contains_iff_mem.mpr hc)] at hs
        obtain rfl := Option.some.inj hs
        exact .roused hi hc
      · rw [if_neg (by rwa [List.contains_iff_mem])] at hs
        by_cases hd : d ≤ s.now
        · rw [if_pos hd] at hs
          obtain rfl := Option.some.inj hs
          rw [view_await]
          exact .wake hi hd hc
        · rw [if_neg hd] at hs
          cases hs
  | setEnabled b => obtain rfl := Option.some.inj hs; exact .quiet 0
  | setOnline key b => obtain rfl := Option.some.inj hs; exact .quiet 0
  | tick d => obtain rfl := Option.some.inj hs; exact .quiet d
  | restart => obtain rfl := Option.some.inj hs; exact .restart

end Air780eHub.Alerts
