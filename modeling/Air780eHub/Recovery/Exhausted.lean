/-
  A recovery that is exhausted and the incident on the Server.

  Registration recovery and the serial recovery of a failed health check share one open flag, one
  action in flight and one incident.  A reconnect ends the serial recovery as succeeded, also when
  the 24-hour limit of the other one stands.

  1. **The condition** on a step: no reconnect ends a serial recovery while the limit stands and the
     module is still unregistered, and the process does not die between the exhausted event and the
     write that opens the issue.
  2. **The invariant.**  While the limit stands, the issue is open in the worker and on the disk, and
     the events end with an exhausted one and no later end of a recovery.
  3. **Steps and runs**, and what the Server makes of the events.
-/
import Air780eHub.Recovery.Durable

namespace Air780eHub.Recovery

variable {cfg : Config} {s s' : State} {w w' : Worker} {now : ℚ}

/-! ## The condition -/

/-- A sample at the time `now` comes to `_report_recovery_limit` and reports. -/
def Worker.Reports (cfg : Config) (w : Worker) (manual : Bool) (now : ℚ) : Prop :=
  w.radioEnabled ≠ some false ∧ manual = false ∧ w.registered = false ∧ cfg.maxAttempts ≠ 0 ∧
    cfg.delay ≤ now - w.unregisteredSince.getD now ∧
    cfg.maxAttempts ≤ (w.memory.pruned cfg now).attempts.length ∧ w.memory.limitReported = false

instance {manual : Bool} : Decidable (Worker.Reports cfg w manual now) :=
  inferInstanceAs (Decidable (_ ∧ _))

/-- The write that opens the issue of a sample that reports while no issue is open: it comes after
    the exhausted event, and after the write of `_prune_recovery_attempts` if that changed anything. -/
def Worker.opensAt (cfg : Config) (w : Worker) (manual : Bool) (now : ℚ) : Option Nat :=
  if w.memory.issueOpen = false ∧ w.Reports cfg manual now then
    if (w.memory.pruned cfg now).attempts = w.memory.attempts then some 1 else some 2
  else none

/-- A reconnect ends a serial recovery while the module is still unregistered, its radio not off. -/
def Worker.serialEnds (w : Worker) (radioEnabled : Option Bool) (registered : Bool) : Bool :=
  w.memory.inflight.any (fun i => i.1 = .serialReconnect) && !registered && radioEnabled ≠ some false

/-- The condition on a step. -/
def calm (cfg : Config) (s : State) (l : Label) : Bool :=
  s.worker.all fun w => match l.act with
    | .connected radioEnabled registered _ => !(w.serialEnds radioEnabled registered && s.disk.watch)
    | .sample manual now => l.dies.all fun k => w.opensAt cfg manual now ≠ some k
    | _ => true

/-! ## The invariant -/

/-- The issue is open on the disk. -/
def Disk.IssueOpen (d : Disk) : Prop := ∃ m, d.stored = some m ∧ m.issueOpen = true

/-- The outcomes that end a recovery. -/
def Outcome.Ends (o : Outcome) : Prop := o = .succeeded ∨ o = .cancelled

/-- Some event reports the limit, and no recovery has ended since. -/
def StillExhausted (events : List Event) : Prop :=
  ∃ before e after, events = before ++ e :: after ∧ e.outcome = .exhausted ∧
    ∀ x ∈ after, ¬ x.outcome.Ends

theorem StillExhausted.append {events : List Event} {e : Event} (h : StillExhausted events)
    (he : ¬ e.outcome.Ends) : StillExhausted (events ++ [e]) := by
  obtain ⟨before, x, after, rfl, hx, hafter⟩ := h
  refine ⟨before, x, after ++ [e], by rw [List.append_assoc, List.cons_append], hx, fun y hy => ?_⟩
  rcases List.mem_append.mp hy with hy | hy
  · exact hafter y hy
  · rw [List.mem_singleton.mp hy]
    exact he

/-- While the limit stands, the disk says so. -/
structure Disk.Reported (d : Disk) : Prop where
  issue  : d.watch = true → d.IssueOpen
  events : d.watch = true → StillExhausted d.events

theorem Disk.Reported.of_unwatched {d : Disk} (h : d.watch = false) : d.Reported := by
  refine ⟨fun hw => ?_, fun hw => ?_⟩ <;> rw [h] at hw <;> cases hw

/-- The worker agrees with the disk. -/
structure Worker.Agrees (w : Worker) (d : Disk) : Prop where
  watched : d.watch = true → w.memory.issueOpen = true
  stored  : w.memory.issueOpen = true → d.IssueOpen

/-- A state and the worker that is about to be assigned to it. -/
structure Reporting (s : State) (w : Worker) : Prop where
  durable : Durable Disk.Reported s
  worker  : w.Agrees s.disk

/-- The invariant of complete steps.  Dying before the write `skip` is left out. -/
structure ReportedBut (skip : Option Nat) (s : State) : Prop where
  disk    : s.disk.Reported
  crashes : ∀ k d, skip ≠ some k → s.crashes[k]? = some d → d.Reported
  worker  : ∀ w, s.worker = some w → w.Agrees s.disk

/-- The invariant. -/
structure Reported (s : State) : Prop where
  durable : Durable Disk.Reported s
  worker  : ∀ w, s.worker = some w → w.Agrees s.disk

theorem Reported.reporting (h : Reported s) (hw : s.worker = some w) : Reporting s w :=
  ⟨h.durable, h.worker w hw⟩

theorem Reported.but (h : Reported s) (skip : Option Nat) : ReportedBut skip s :=
  ⟨h.durable.disk, fun _ d _ hd => h.durable.crashes d (List.mem_of_getElem? hd), h.worker⟩

/-- Everything but the open flag may be assigned. -/
theorem Reporting.assign (h : Reporting s w) (hw : w'.memory.issueOpen = w.memory.issueOpen) :
    Reporting s w' :=
  ⟨h.durable, ⟨fun hwatch => hw ▸ h.worker.watched hwatch, fun hopen => h.worker.stored (hw ▸ hopen)⟩⟩

theorem Reporting.clocked (h : Reporting s w) (now : ℚ) : Reporting { s with clock := now } w :=
  ⟨⟨h.durable.disk, h.durable.crashes⟩, h.worker⟩

/-- Nothing is watched any more: the open flag of the worker only has to be on the disk. -/
theorem Reporting.unwatch (h : Reporting s w) : Reporting s.unwatch w :=
  ⟨⟨.of_unwatched rfl, h.durable.crashes⟩, ⟨fun hwatch => Bool.noConfusion hwatch, h.worker.stored⟩⟩

theorem Reporting.put (h : Reporting s w) : Reported (s.put w) :=
  ⟨h.durable.put, fun _ hw => Option.some.inj hw ▸ h.worker⟩

/-- The worker is stored, and its open flag is what is watched. -/
theorem Reporting.persist (h : Durable Disk.Reported s)
    (hw : s.disk.watch = true → w.memory.issueOpen = true) : Reported (s.persist w) := by
  have hd : Disk.Reported { s.disk with stored := some w.memory } :=
    ⟨fun hwatch => ⟨w.memory, rfl, hw hwatch⟩, h.disk.events⟩
  refine ⟨h.persist hd, fun _ hx => ?_⟩
  rw [← Option.some.inj hx]
  exact ⟨hw, fun hopen => ⟨w.memory, rfl, hopen⟩⟩

/-- An event that ends no recovery, or that nobody watches. -/
theorem Reporting.log (h : Reporting s w) (action : Action) (outcome : Outcome) (attempt : Nat)
    (hends : s.disk.watch = true → ¬ outcome.Ends) :
    Reporting (s.write (s.disk.log action outcome attempt)) w :=
  ⟨h.durable.write ⟨h.durable.disk.issue, fun hwatch =>
    (h.durable.disk.events hwatch).append (hends hwatch)⟩, ⟨h.worker.watched, h.worker.stored⟩⟩

theorem Reporting.finishRecovery (h : Reporting s w) (action : Action) (attempt : Nat)
    (outcome : Outcome) (hends : s.disk.watch = true → ¬ outcome.Ends) :
    Reported (s.finishRecovery w action attempt outcome) := by
  refine Reporting.persist (h.log action outcome attempt hends).durable fun hwatch => ?_
  have hopen : w.memory.issueOpen = true := h.worker.watched hwatch
  have hnot : ¬ (outcome = .succeeded ∨ outcome = .cancelled) := hends hwatch
  show (w.memory.issueOpen && !(outcome = .succeeded || outcome = .cancelled)) = true
  simpa [hopen] using hnot

theorem Reporting.settle (h : Reporting s w) (outcome : Outcome) : Reported (s.settle w outcome) := by
  rw [State.settle]
  have hoff : s.unwatch.disk.watch = true → False := fun hwatch => Bool.noConfusion hwatch
  split_ifs
  · exact (h.unwatch.assign (by rfl)).finishRecovery _ _ outcome fun hwatch => (hoff hwatch).elim
  · exact Reporting.persist h.unwatch.durable fun hwatch => (hoff hwatch).elim
  · exact (h.unwatch.assign (by rfl)).put

theorem Reporting.startRecovery (h : Reporting s w) (action : Action) (starts : List ℚ) :
    Reported (s.startRecovery w action starts) := by
  have hstored : Disk.Reported { s.disk with stored := some (w.memory.started action), starts } :=
    ⟨fun _ => ⟨_, rfl, rfl⟩, h.durable.disk.events⟩
  have hlogged : Disk.Reported (Disk.log
      { s.disk with stored := some (w.memory.started action), starts } action .started
      (w.memory.sequence + 1)) :=
    ⟨fun _ => ⟨_, rfl, rfl⟩, fun hwatch =>
      (h.durable.disk.events hwatch).append (by rintro (h | h) <;> cases h)⟩
  refine ⟨((h.durable.write hstored).put (w := { w with memory := w.memory.started action })).write
    hlogged, fun _ hx => ?_⟩
  rw [← Option.some.inj hx]
  exact ⟨fun _ => rfl, fun _ => ⟨_, rfl, rfl⟩⟩

/-! ## Reporting -/

/-- The disk of the exhausted event. -/
theorem exhausted_logged (d : Disk) (attempt : Nat) (hopen : d.IssueOpen) :
    Disk.Reported { d.log .registrationRecovery .exhausted attempt with watch := true } :=
  ⟨fun _ => hopen, fun _ =>
    ⟨d.events, ⟨.registrationRecovery, .exhausted, attempt⟩, [], rfl, rfl, fun _ hx => nomatch hx⟩⟩

/-- The report while an issue is open. -/
theorem Reporting.reportOpen (h : Reporting s w) (hopen : w.memory.issueOpen = true) :
    Reported (s.reportLimit w) := by
  rw [State.reportLimit]
  split_ifs
  · exact h.put
  · exact Reporting.persist
      (h.durable.write (exhausted_logged s.disk _ (h.worker.stored hopen))) fun _ => rfl

/-- The report while no issue is open, but for the moment before its last write. -/
theorem Reporting.reportClosed (h : Reporting s w) (hreported : w.memory.limitReported = false) :
    ReportedBut (some (s.crashes.length + 1)) (s.reportLimit w) := by
  rw [State.reportLimit, if_neg (by rw [hreported]; exact Bool.false_ne_true)]
  refine ⟨⟨fun _ => ⟨_, rfl, rfl⟩, fun _ =>
    ⟨s.disk.events, ⟨.registrationRecovery, .exhausted, w.memory.lastAttempt⟩, [], rfl, rfl,
      fun _ hx => nomatch hx⟩⟩, fun k d hk hd => ?_, fun _ hx => ?_⟩
  · -- the last disk of the list is the one left out
    have hlast : ((s.crashes ++ [s.disk]) ++
        [{ s.disk.log .registrationRecovery .exhausted w.memory.lastAttempt with
            watch := true }])[k]? = some d := hd
    have hne : k ≠ s.crashes.length + 1 := fun heq => hk (by rw [heq])
    have hlt : k < s.crashes.length + 1 := by
      obtain ⟨hlen, -⟩ := List.getElem?_eq_some_iff.mp hlast
      simp only [List.length_append, List.length_singleton] at hlen
      omega
    rw [List.getElem?_append_left (by simpa using hlt)] at hlast
    rcases List.mem_append.mp (List.mem_of_getElem? hlast) with hmem | hmem
    · exact h.durable.crashes d hmem
    · rw [List.mem_singleton.mp hmem]
      exact h.durable.disk
  · rw [← Option.some.inj hx]
    exact ⟨fun _ => rfl, fun _ => ⟨_, rfl, rfl⟩⟩

/-! ## The sample -/

theorem Reporting.prune (h : Reporting s w) :
    Reporting (s.prune cfg w now) (w.pruned cfg now) := by
  have hpruned : Reporting s (w.pruned cfg now) := h.assign rfl
  rw [State.prune]
  split_ifs
  · exact ⟨h.durable.put, ⟨h.worker.watched, h.worker.stored⟩⟩
  · exact (Reporting.persist hpruned.durable hpruned.worker.watched).reporting rfl

theorem prune_crashes (cfg : Config) (now : ℚ) (hclear : s.crashes = [])
    (hreported : w.memory.limitReported = false) :
    (s.prune cfg w now).crashes.length =
      if (w.memory.pruned cfg now).attempts = w.memory.attempts then 0 else 1 := by
  have hsame : (w.memory.pruned cfg now).limitReported = w.memory.limitReported := by
    simp [Memory.pruned, hreported]
  rw [State.prune]
  by_cases hattempts : (w.memory.pruned cfg now).attempts = w.memory.attempts
  · rw [if_pos ⟨hattempts, hsame⟩, if_pos hattempts]
    show s.crashes.length = 0
    rw [hclear]
    rfl
  · rw [if_neg fun h => hattempts h.1, if_neg hattempts]
    show (s.crashes ++ [s.disk]).length = 1
    rw [hclear]
    rfl

theorem Reporting.startAction (h : Reporting s w) (now : ℚ) : Reported (s.startAction w now) := by
  have hattempting : Reporting s (w.attempting now) := h.assign rfl
  have hstart := hattempting.startRecovery (REGISTRATION_RECOVERY_ACTIONS w.memory.stage)
    (s.disk.starts ++ [now])
  exact ⟨⟨hstart.durable.disk, hstart.durable.crashes⟩, hstart.worker⟩

/-- The report of a sample: `opensAt` is the write after the exhausted event. -/
theorem Reporting.reportPruned {manual : Bool} (h : Reporting s w) (hclear : s.crashes = [])
    (hreports : w.memory.limitReported = false → w.Reports cfg manual now)
    (hfull : cfg.maxAttempts ≤ (w.memory.pruned cfg now).attempts.length) :
    ReportedBut (w.opensAt cfg manual now) ((s.prune cfg w now).reportLimit (w.pruned cfg now)) := by
  have hp : Reporting (s.prune cfg w now) (w.pruned cfg now) := h.prune
  cases hopen : w.memory.issueOpen with
  | true => exact (hp.reportOpen hopen).but _
  | false =>
    have hsame : (w.pruned cfg now).memory.limitReported = w.memory.limitReported := by
      have hdec : decide (cfg.maxAttempts ≤ (w.memory.pruned cfg now).attempts.length) = true :=
        decide_eq_true hfull
      show (w.memory.limitReported &&
        decide (cfg.maxAttempts ≤ (w.memory.pruned cfg now).attempts.length)) = _
      rw [hdec, Bool.and_true]
    cases hreported : w.memory.limitReported with
    | true =>
      rw [State.reportLimit, if_pos (hsame.trans hreported)]
      exact hp.put.but _
    | false =>
      have hlength := prune_crashes cfg now hclear hreported
      have hat : w.opensAt cfg manual now = some ((s.prune cfg w now).crashes.length + 1) := by
        rw [Worker.opensAt, if_pos ⟨hopen, hreports hreported⟩, hlength]
        split_ifs <;> rfl
      rw [hat]
      exact hp.reportClosed (hsame.trans hreported)

/-- `_maybe_recover_registration`. -/
theorem Reporting.maybeRecover (h : Reporting s w) (hclear : s.crashes = []) (manual : Bool) :
    ReportedBut (w.opensAt cfg manual now) (s.maybeRecover cfg w manual now) := by
  rw [State.maybeRecover]
  split_ifs with hoff hmanual hregistered hzero hdelay
  · exact (h.settle _).but _
  · exact (h.settle _).but _
  · exact (h.settle _).but _
  · exact (h.settle _).but _
  · exact Reported.but (h.assign (by rfl)).put _
  · have hsince : Reporting s { w with unregisteredSince := some (w.unregisteredSince.getD now) } :=
      h.assign rfl
    rw [State.recover]
    split_ifs with hfull hcool
    · have hreports : w.memory.limitReported = false → w.Reports cfg manual now := fun hreported =>
        ⟨hoff, Bool.eq_false_iff.mpr hmanual, Bool.eq_false_iff.mpr hregistered, hzero,
          not_lt.mp hdelay, hfull, hreported⟩
      exact hsince.reportPruned hclear hreports hfull
    · exact hsince.prune.put.but _
    · exact (hsince.prune.startAction now).but _

/-! ## The other steps -/

theorem Reporting.checkHealth (h : Reporting s w) (ok : Bool) :
    Reported (s.checkHealth cfg w ok) := by
  rw [State.checkHealth]
  split_ifs
  · exact (h.assign (by rfl)).put
  · exact (h.assign (by rfl)).put
  · exact Reporting.startRecovery (h.assign (by rfl)) _ _

theorem Reporting.conclude (h : Reporting s w) (p : Pending) (recovered : Bool) :
    Reported (s.conclude w p recovered) := by
  rw [State.conclude]
  split_ifs
  · exact Reporting.persist h.durable h.worker.watched
  · exact Reporting.finishRecovery (h.unwatch.assign (by rfl)) _ _ _
      fun hwatch => Bool.noConfusion hwatch
  · exact Reporting.finishRecovery (h.assign (by rfl)) _ _ _
      fun _ => by rintro (h | h) <;> cases h

theorem Reporting.settleInflight (h : Reporting s w)
    (hends : ∀ action n, w.memory.inflight = some (action, n) → s.disk.watch = true →
      ¬ (w.settleOutcome action).Ends) :
    Reporting (s.settleInflight w) w.settledInflight := by
  cases hin : w.memory.inflight with
  | none =>
    rw [State.settleInflight, Worker.settledInflight, hin]
    exact h.put.reporting rfl
  | some i =>
    rw [State.settleInflight, Worker.settledInflight, hin]
    exact (h.finishRecovery _ _ _ (hends i.1 i.2 hin)).reporting rfl

/-- `_settle_recovery_after_connect`, if it ends no serial recovery that it should not. -/
theorem Reporting.settleAfterConnect (h : Reporting s w) (now : ℚ)
    (hcalm : w.serialEnds w.radioEnabled w.registered = true → s.disk.watch = false) :
    Reported (s.settleAfterConnect w now) := by
  have hoff : s.unwatch.disk.watch = true → False := fun hwatch => Bool.noConfusion hwatch
  have hover : Reporting (s.unwatch.settleInflight w) w.settledInflight :=
    h.unwatch.settleInflight fun _ _ _ hwatch => (hoff hwatch).elim
  rw [State.settleAfterConnect]
  split_ifs with hregistered hradio
  · exact hover.settle _
  · exact hover.settle _
  · have hunregistered : w.registered = false := Bool.eq_false_iff.mpr hregistered
    refine Reporting.put ((h.settleInflight fun action n hin hwatch => ?_).assign (by rfl))
    rw [Worker.settleOutcome]
    split_ifs with hserial
    · have hends : w.serialEnds w.radioEnabled w.registered = true := by
        simp [Worker.serialEnds, hin, hserial, hunregistered, hradio]
      rw [hcalm hends] at hwatch
      cases hwatch
    · rintro (h | h) <;> cases h

theorem Reporting.commanded (h : Reporting s w) (restored cancels : Bool) (now : ℚ) :
    Reported (s.commanded w restored cancels now) := by
  rw [State.commanded]
  split_ifs
  · exact h.settle _
  · exact h.settle _
  · exact (h.assign (by rfl)).put

/-- A worker that starts has the flag that is stored. -/
theorem Reported.boot (h : Reported s) :
    Reported { s with worker := some (.boot s.disk.stored now), clock := now } := by
  refine ⟨⟨h.durable.disk, h.durable.crashes⟩, fun _ hw => ?_⟩
  rw [← Option.some.inj hw]
  have hflag : (Worker.boot s.disk.stored now).memory.issueOpen = true ↔ s.disk.IssueOpen := by
    cases hm : s.disk.stored with
    | none => exact ⟨fun hf => Bool.noConfusion hf, fun ⟨m, hm', _⟩ => by rw [hm] at hm'; cases hm'⟩
    | some m =>
      refine ⟨fun hf => ⟨m, hm, hf⟩, fun ⟨m', hm', hf⟩ => ?_⟩
      obtain rfl := Option.some.inj (hm.symm.trans hm')
      exact hf
  exact ⟨fun hwatch => hflag.mpr (h.durable.disk.issue hwatch), hflag.mp⟩

/-! ## Steps and runs -/

/-- The write of a step that opens the issue. -/
def Act.opensAt (cfg : Config) (s : State) : Act → Option Nat
  | .sample manual now => s.worker.bind fun w => w.opensAt cfg manual now
  | _ => none

theorem Reported.act {l : Label} (h : Reported s) (hclear : s.crashes = [])
    (hcalm : calm cfg s l = true) (hs : State.act cfg s l.act = some s') :
    ReportedBut (l.act.opensAt cfg s) s' := by
  obtain ⟨a, dies⟩ := l
  cases a with
  | health ok =>
    obtain ⟨w, hw, rfl⟩ := Option.map_eq_some_iff.mp hs
    exact ((h.reporting hw).checkHealth ok).but _
  | observed radioEnabled registered =>
    obtain ⟨w, hw, rfl⟩ := Option.map_eq_some_iff.mp hs
    exact Reported.but ((h.reporting hw).assign (by rfl)).put _
  | sample manual now =>
    obtain ⟨w, hw, rfl⟩ := Option.map_eq_some_iff.mp hs
    have hat : Act.opensAt cfg s (.sample manual now) = w.opensAt cfg manual now := by
      rw [Act.opensAt, hw]
      rfl
    rw [hat]
    exact ((h.reporting hw).clocked now).maybeRecover hclear manual
  | concluded k recovered =>
    rw [State.act] at hs
    split at hs
    case h_1 w p hw hp =>
      obtain rfl := Option.some.inj hs
      have hk : Reporting { s with actions := s.actions.eraseIdx k } w :=
        ⟨⟨h.durable.disk, h.durable.crashes⟩, h.worker w hw⟩
      exact (hk.conclude p recovered).but _
    case h_2 => cases hs
  | abandoned k =>
    rw [State.act] at hs
    split at hs
    case h_1 =>
      obtain rfl := Option.some.inj hs
      have hr : Reported { s with actions := s.actions.eraseIdx k } :=
        ⟨⟨h.durable.disk, h.durable.crashes⟩, h.worker⟩
      exact hr.but _
    case h_2 => cases hs
  | connected radioEnabled registered now =>
    obtain ⟨w, hw, rfl⟩ := Option.map_eq_some_iff.mp hs
    have hread : Reporting { s with clock := now }
        { w with radioEnabled, registered, healthFailures := 0 } :=
      ((h.reporting hw).clocked now).assign rfl
    refine (hread.settleAfterConnect now fun hends => ?_).but _
    have hserial : w.serialEnds radioEnabled registered = true := hends
    rw [calm, hw] at hcalm
    simpa [hserial] using hcalm
  | radioSet enabled registered now =>
    obtain ⟨w, hw, rfl⟩ := Option.map_eq_some_iff.mp hs
    have hset : Reporting { s with clock := now }
        { w with radioEnabled := some enabled, registered } :=
      ((h.reporting hw).clocked now).assign rfl
    exact (hset.commanded (enabled && registered) (!enabled) now).but _
  | operatorSelected manual registered now =>
    obtain ⟨w, hw, rfl⟩ := Option.map_eq_some_iff.mp hs
    have hset : Reporting { s with clock := now } { w with registered } :=
      ((h.reporting hw).clocked now).assign rfl
    exact (hset.commanded registered manual now).but _
  | killed =>
    obtain ⟨w, hw, rfl⟩ := Option.map_eq_some_iff.mp hs
    have hr : Reported { s with worker := none, actions := [] } :=
      ⟨⟨h.durable.disk, h.durable.crashes⟩, fun _ hx => by cases hx⟩
    exact hr.but _
  | booted now =>
    rw [State.act] at hs
    split at hs
    case h_1 =>
      obtain rfl := Option.some.inj hs
      exact h.boot.but _
    case h_2 => cases hs

/-- One step that meets the condition, also when the process dies in it. -/
theorem Reported.step {l : Label} (h : Reported { s with crashes := [] })
    (hcalm : calm cfg s l = true) (hs : s.step cfg l = some s') :
    Reported { s' with crashes := [] } := by
  obtain ⟨r, hact, hend⟩ := step_cases hs
  have hr : ReportedBut (l.act.opensAt cfg s) r := h.act rfl hcalm hact
  rcases hend with rfl | ⟨k, d, hdies, hd, rfl⟩
  · exact ⟨⟨hr.disk, fun _ hx => absurd hx List.not_mem_nil⟩, hr.worker⟩
  · have hskip : l.act.opensAt cfg s ≠ some k := by
      obtain ⟨a, dies⟩ := l
      cases hdies
      cases a with
      | sample manual now =>
        rw [Act.opensAt]
        cases hw : s.worker with
        | none => exact nofun
        | some w =>
          rw [calm, hw] at hcalm
          simpa using hcalm
      | _ => exact nofun
    exact ⟨⟨hr.crashes k d hskip hd, fun _ hx => absurd hx List.not_mem_nil⟩, fun _ hw => by cases hw⟩

theorem Reported.start (h : s.Starts) : Reported { s with crashes := [] } := by
  have hdisk : s.disk.Reported := .of_unwatched (by rw [h.disk])
  refine ⟨⟨hdisk, fun _ hx => absurd hx List.not_mem_nil⟩, fun w hw => ?_⟩
  have hnone : s.worker = some w := hw
  rw [h.worker] at hnone
  cases hnone

/-! ## The Server -/

/-- The incident is open. -/
def IncidentOpen (incident : Option IncidentStatus) : Prop :=
  incident = some .active ∨ incident = some .acknowledged

theorem openIncident_open (incident : Option IncidentStatus) :
    IncidentOpen (openIncident incident) := by
  rcases incident with _ | status
  · exact .inl rfl
  · cases status
    · exact .inl rfl
    · exact .inr rfl
    · exact .inl rfl

/-- An event that ends no recovery keeps the incident open. -/
theorem IncidentOpen.apply {incident : Option IncidentStatus} {e : Event}
    (h : IncidentOpen incident) (he : ¬ e.outcome.Ends) :
    IncidentOpen (applyDeviceRecovery incident e) := by
  rw [applyDeviceRecovery, if_neg (show ¬ (e.outcome = .succeeded ∨ e.outcome = .cancelled) from he)]
  split_ifs
  · exact openIncident_open incident
  · exact h

theorem IncidentOpen.foldl {incident : Option IncidentStatus} {events : List Event}
    (h : IncidentOpen incident) (hevents : ∀ e ∈ events, ¬ e.outcome.Ends) :
    IncidentOpen (events.foldl applyDeviceRecovery incident) := by
  induction events generalizing incident with
  | nil => exact h
  | cons e events ih =>
    exact ih (h.apply (hevents e List.mem_cons_self)) fun x hx => hevents x (List.mem_cons_of_mem e hx)

/-- **An exhausted recovery stays reported.**  While the limit stands the issue is open, in the
    worker and for a worker that will be started; no recovery has ended since the exhausted event;
    and from that event on the Server's incident is open, whatever it was before. -/
theorem exhausted_stays (hs : (recovery cfg).ReachableBy (fun s l => calm cfg s l = true) s)
    (hwatch : s.disk.watch = true) :
    (∀ w, s.worker = some w → w.memory.issueOpen = true) ∧
      (∃ m, s.disk.stored = some m ∧ m.issueOpen = true) ∧
      ∃ before e after, s.disk.events = before ++ e :: after ∧ e.outcome = .exhausted ∧
        (∀ x ∈ after, x.outcome ≠ .succeeded ∧ x.outcome ≠ .cancelled) ∧
        ∀ incident done, done <+: after →
          IncidentOpen ((e :: done).foldl applyDeviceRecovery incident) := by
  have hreported : Reported { s with crashes := [] } :=
    hs.invariant (I := fun s => Reported { s with crashes := [] }) (fun _ => Reported.start)
      fun _ _ _ hI hG hstep => Reported.step hI hG hstep
  refine ⟨fun w hw => (hreported.worker w hw).watched hwatch,
    hreported.durable.disk.issue hwatch, ?_⟩
  obtain ⟨before, e, after, hevents, hexhausted, hafter⟩ := hreported.durable.disk.events hwatch
  refine ⟨before, e, after, hevents, hexhausted, fun x hx => not_or.mp (hafter x hx),
    fun incident done hdone => ?_⟩
  have hopen : IncidentOpen (applyDeviceRecovery incident e) := by
    have hreports : applyDeviceRecovery incident e = openIncident incident := by
      simp [applyDeviceRecovery, hexhausted]
    rw [hreports]
    exact openIncident_open incident
  exact hopen.foldl fun x hx => hafter x (hdone.subset hx)

/-- One action a day, and a health check that may fail once. -/
def oneADay : Config := ⟨0, 10, 1, 1⟩

/-- A module that was never seen. -/
def newModule : State := ⟨none, 0, [], ⟨none, [], [], false⟩, []⟩

/-- The action of the day fails and the limit is reported. -/
def exhausting : List Label :=
  [⟨.booted 0, none⟩, ⟨.connected none false 0, none⟩, ⟨.sample false 0, none⟩,
    ⟨.concluded 0 false, none⟩, ⟨.sample false 10, none⟩]

/-- On that run, after a restart. -/
theorem exhausted_stays_restarted : ∃ s,
    (recovery oneADay).ReachableBy (fun s l => calm oneADay s l = true) s ∧
    s.disk.watch = true ∧ (∀ w, s.worker = some w → w.memory.issueOpen = true) ∧
    ∃ m, s.disk.stored = some m ∧ m.issueOpen = true := by
  have hrun : ((recovery oneADay).runBy (calm oneADay) newModule
      (exhausting ++ [⟨.killed, none⟩, ⟨.booted 20, none⟩, ⟨.connected none false 20, none⟩])).map
        (fun s => s.disk.watch) = some true := by decide +kernel
  obtain ⟨s, hs, hwatch⟩ := Option.map_eq_some_iff.mp hrun
  have hreach : (recovery oneADay).ReachableBy (fun s l => calm oneADay s l = true) s :=
    ⟨newModule, ⟨rfl, rfl, rfl, rfl⟩, Machine.runBy_path hs⟩
  obtain ⟨hworker, hstored, -⟩ := exhausted_stays hreach hwatch
  exact ⟨s, hreach, hwatch, hworker, hstored⟩

/-- A health check fails after the report and the port is opened again: the serial recovery has
    succeeded, the module is still unregistered, and the incident of the exhausted recovery is
    resolved.  The next sample does not report it again. -/
theorem reconnect_resolves : ∃ s w, (recovery oneADay).Reachable s ∧ s.disk.watch = true ∧
    s.worker = some w ∧ w.registered = false ∧ w.radioEnabled ≠ some false ∧
    w.memory.limitReported = true ∧ w.memory.issueOpen = false ∧
    incidentAfter s.disk.events = some .resolved := by
  have hrun : ((recovery oneADay).run newModule (exhausting ++ [⟨.health false, none⟩,
      ⟨.connected none false 30, none⟩, ⟨.sample false 40, none⟩])).map
      (fun s => (s.disk.watch, s.worker.map (fun w => [w.registered,
        decide (w.radioEnabled = some false), w.memory.limitReported, w.memory.issueOpen]),
        incidentAfter s.disk.events)) =
      some (true, some [false, false, true, false], some .resolved) := by decide +kernel
  obtain ⟨s, hs, hsummary⟩ := Option.map_eq_some_iff.mp hrun
  obtain ⟨hwatch, hworker, hincident⟩ : s.disk.watch = true ∧
      s.worker.map (fun w => [w.registered, decide (w.radioEnabled = some false),
        w.memory.limitReported, w.memory.issueOpen]) = some [false, false, true, false] ∧
      incidentAfter s.disk.events = some .resolved := by
    simpa only [Prod.mk.injEq] using hsummary
  obtain ⟨w, hw, hfields⟩ := Option.map_eq_some_iff.mp hworker
  obtain ⟨hregistered, hradio, hreported, hopen⟩ : w.registered = false ∧
      w.radioEnabled ≠ some false ∧ w.memory.limitReported = true ∧ w.memory.issueOpen = false := by
    simpa using hfields
  exact ⟨s, w, Machine.run_reachable ⟨rfl, rfl, rfl, rfl⟩ hs, hwatch, hw, hregistered, hradio,
    hreported, hopen, hincident⟩

end Air780eHub.Recovery
