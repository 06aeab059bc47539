/-
  How often registration recovery acts.

  1. **The invariant.**  Whatever a worker remembers, and whatever it would remember after a restart,
     is the list of all starts except for a front part that is older than the window.  Pruning and
     reloading only drop such a front part; every other operation leaves the attempts alone.
  2. **The sample.**  An action is started only when fewer than the maximum are remembered and the
     last one is a cooldown ago, and the start is written to the disk before the action is awaited.
  3. **The bound**, over every run in which the clock does not go back.
-/
import Air780eHub.Recovery.Durable

namespace Air780eHub.Recovery

variable {cfg : Config} {s s' : State} {w w' : Worker} {now : ℚ}

/-! ## The invariant -/

/-- The attempts a worker would load. -/
def Disk.attempts (d : Disk) : List ℚ := (d.stored.map Memory.attempts).getD []

/-- The starts on a disk respect the rates, and what is stored remembers them. -/
structure Disk.Counted (cfg : Config) (now : ℚ) (d : Disk) : Prop where
  stored  : Remembers RECOVERY_WINDOW now d.starts d.attempts
  limited : Limited cfg.maxAttempts RECOVERY_WINDOW d.starts
  apart   : Apart (min cfg.cooldown RECOVERY_WINDOW) d.starts

/-- A state and the worker that is about to be assigned to it. -/
structure Counting (cfg : Config) (s : State) (w : Worker) : Prop where
  durable : Durable (Disk.Counted cfg s.clock) s
  worker  : Remembers RECOVERY_WINDOW s.clock s.disk.starts w.memory.attempts

/-- The invariant. -/
structure Counted (cfg : Config) (s : State) : Prop where
  durable : Durable (Disk.Counted cfg s.clock) s
  worker  : ∀ w, s.worker = some w → Remembers RECOVERY_WINDOW s.clock s.disk.starts w.memory.attempts

theorem Counted.counting (h : Counted cfg s) (hw : s.worker = some w) : Counting cfg s w :=
  ⟨h.durable, h.worker w hw⟩

theorem Disk.Counted.later {d : Disk} {now' : ℚ} (h : d.Counted cfg now) (hle : now ≤ now') :
    d.Counted cfg now' :=
  ⟨h.stored.later hle, h.limited, h.apart⟩

/-- Time goes on. -/
theorem Counting.later (h : Counting cfg s w) (hle : s.clock ≤ now) :
    Counting cfg { s with clock := now } w :=
  ⟨⟨h.durable.disk.later hle, fun d hd => (h.durable.crashes d hd).later hle⟩, h.worker.later hle⟩

/-- Everything but the attempts may be assigned. -/
theorem Counting.assign (h : Counting cfg s w) (hw : w'.memory.attempts = w.memory.attempts) :
    Counting cfg s w' :=
  ⟨h.durable, hw ▸ h.worker⟩

theorem Counting.unwatch (h : Counting cfg s w) : Counting cfg s.unwatch w :=
  ⟨⟨⟨h.durable.disk.stored, h.durable.disk.limited, h.durable.disk.apart⟩, h.durable.crashes⟩,
    h.worker⟩

/-- A write that keeps what is stored and the starts. -/
theorem Counting.log {d : Disk} (h : Counting cfg s w) (hstored : d.stored = s.disk.stored)
    (hstarts : d.starts = s.disk.starts) : Counting cfg (s.write d) w := by
  have hd : d.Counted cfg s.clock := by
    refine ⟨?_, hstarts ▸ h.durable.disk.limited, hstarts ▸ h.durable.disk.apart⟩
    rw [Disk.attempts, hstored, hstarts]
    exact h.durable.disk.stored
  refine ⟨h.durable.write hd, ?_⟩
  show Remembers RECOVERY_WINDOW s.clock d.starts w.memory.attempts
  rw [hstarts]
  exact h.worker

theorem Counting.put (h : Counting cfg s w) : Counted cfg (s.put w) :=
  ⟨h.durable.put, fun _ hw => Option.some.inj hw ▸ h.worker⟩

theorem Counting.persist (h : Counting cfg s w) : Counted cfg (s.persist w) := by
  have hd : Disk.Counted cfg s.clock { s.disk with stored := some w.memory } :=
    ⟨h.worker, h.durable.disk.limited, h.durable.disk.apart⟩
  exact ⟨h.durable.persist hd, fun _ hw => Option.some.inj hw ▸ h.worker⟩

theorem Counting.finishRecovery (h : Counting cfg s w) (action : Action) (attempt : Nat)
    (outcome : Outcome) : Counted cfg (s.finishRecovery w action attempt outcome) :=
  ((h.assign (by rfl)).log (by rfl) (by rfl)).persist

theorem Counting.settle (h : Counting cfg s w) (outcome : Outcome) :
    Counted cfg (s.settle w outcome) := by
  rw [State.settle]
  split_ifs with hopen hchanged
  · exact (h.unwatch.assign (by rfl)).finishRecovery _ _ outcome
  · exact (h.unwatch.assign (by rfl)).persist
  · exact (h.unwatch.assign (by rfl)).put

theorem Counting.reportLimit (h : Counting cfg s w) : Counted cfg (s.reportLimit w) := by
  rw [State.reportLimit]
  split_ifs with hreported
  · exact h.put
  · exact ((h.assign (by rfl)).log (by rfl) (by rfl)).persist

/-! ## The sample -/

theorem Counting.prune (h : Counting cfg s w) (hnow : s.clock = now) :
    Counting cfg (s.prune cfg w now) (w.pruned cfg now) := by
  have hpruned : Counting cfg s (w.pruned cfg now) :=
    ⟨h.durable, by rw [← hnow]; exact h.worker.dropWhile⟩
  rw [State.prune]
  split_ifs with hsame
  · exact ⟨h.durable.put, hpruned.worker⟩
  · exact hpruned.persist.counting rfl

/-- The start of an action is recorded on the disk and in the worker. -/
theorem Counting.startAction (h : Counting cfg s w) (hnow : s.clock = now)
    (hlen : w.memory.attempts.length < cfg.maxAttempts)
    (hlast : ∀ x ∈ w.memory.attempts.getLast?, cfg.cooldown ≤ now - x) :
    Counted cfg (s.startAction w now) := by
  subst hnow
  have hrecord := h.worker.record
  -- both writes leave a disk with the new start, counted in what is stored
  have hdisk : ∀ d : Disk, d.starts = s.disk.starts ++ [s.clock] →
      d.attempts = w.memory.attempts ++ [s.clock] → d.Counted cfg s.clock := by
    intro d hstarts hattempts
    refine ⟨by rw [hstarts, hattempts]; exact hrecord, ?_, ?_⟩
    · rw [hstarts]
      exact h.durable.disk.limited.record h.worker hlen
    · rw [hstarts]
      exact h.durable.disk.apart.record h.worker hlast
  have hwrites := ((h.durable.write (hdisk
    { s.disk with
      stored := some ((w.attempting s.clock).memory.started
        (REGISTRATION_RECOVERY_ACTIONS w.memory.stage))
      starts := s.disk.starts ++ [s.clock] } rfl rfl)).put
    (w := { w.attempting s.clock with
      memory := (w.attempting s.clock).memory.started
        (REGISTRATION_RECOVERY_ACTIONS w.memory.stage) })).write
    (hdisk (Disk.log
      { s.disk with
        stored := some ((w.attempting s.clock).memory.started
          (REGISTRATION_RECOVERY_ACTIONS w.memory.stage))
        starts := s.disk.starts ++ [s.clock] }
      (REGISTRATION_RECOVERY_ACTIONS w.memory.stage) .started (w.memory.sequence + 1)) rfl rfl)
  exact ⟨⟨hwrites.disk, hwrites.crashes⟩, fun _ hw => Option.some.inj hw ▸ hrecord⟩

theorem Counting.recover (h : Counting cfg s w) (hnow : s.clock = now) :
    Counted cfg (s.recover cfg w now) := by
  rw [State.recover]
  split_ifs with hmax hcool
  · exact h.reportLimit
  · exact h.put
  · refine h.startAction hnow (not_le.mp hmax) fun x hx => ?_
    rw [Option.mem_def.mp hx] at hcool
    simpa using hcool

theorem Counting.maybeRecover (h : Counting cfg s w) (manual : Bool) (hnow : s.clock = now) :
    Counted cfg (s.maybeRecover cfg w manual now) := by
  have hprune : ∀ w₀ : Worker, (s.prune cfg w₀ now).clock = s.clock := by
    intro w₀
    rw [State.prune]
    split_ifs <;> rfl
  rw [State.maybeRecover]
  split_ifs
  · exact h.settle _
  · exact h.settle _
  · exact h.settle _
  · exact h.settle _
  · exact (h.assign (by rfl)).put
  · exact ((h.assign (by rfl)).prune hnow).recover ((hprune _).trans hnow)

/-! ## The other steps -/

theorem Counting.checkHealth (h : Counting cfg s w) (ok : Bool) :
    Counted cfg (s.checkHealth cfg w ok) := by
  rw [State.checkHealth]
  split_ifs
  · exact (h.assign (by rfl)).put
  · exact (h.assign (by rfl)).put
  · exact ((h.assign (by rfl)).persist.counting rfl).log (by rfl) (by rfl) |>.put

theorem Counting.conclude (h : Counting cfg s w) (p : Pending) (recovered : Bool) :
    Counted cfg (s.conclude w p recovered) := by
  rw [State.conclude]
  split_ifs
  · exact (h.assign (by rfl)).persist
  · exact (h.unwatch.assign (by rfl)).finishRecovery _ _ _
  · exact (h.assign (by rfl)).finishRecovery _ _ _

theorem Counting.settleInflight (h : Counting cfg s w) :
    Counting cfg (s.settleInflight w) w.settledInflight := by
  cases hin : w.memory.inflight with
  | none =>
    rw [State.settleInflight, Worker.settledInflight, hin]
    exact h.put.counting rfl
  | some i =>
    rw [State.settleInflight, Worker.settledInflight, hin]
    exact (h.finishRecovery _ _ _).counting rfl

theorem Counting.settleAfterConnect (h : Counting cfg s w) (now : ℚ) :
    Counted cfg (s.settleAfterConnect w now) := by
  rw [State.settleAfterConnect]
  split_ifs
  · exact h.unwatch.settleInflight.settle _
  · exact h.unwatch.settleInflight.settle _
  · exact (h.settleInflight.assign (by rfl)).put

theorem Counting.commanded (h : Counting cfg s w) (restored cancels : Bool) (now : ℚ) :
    Counted cfg (s.commanded w restored cancels now) := by
  rw [State.commanded]
  split_ifs
  · exact h.settle _
  · exact h.settle _
  · exact (h.assign (by rfl)).put

/-- Loading drops what is older than the window. -/
theorem Counted.boot (h : Counted cfg s) (hle : s.clock ≤ now) :
    Counted cfg { s with worker := some (.boot s.disk.stored now), clock := now } := by
  have hdisk := h.durable.disk.later hle
  refine ⟨⟨hdisk, fun d hd => (h.durable.crashes d hd).later hle⟩, fun _ hw => ?_⟩
  rw [← Option.some.inj hw]
  have hstored := hdisk.stored
  rw [Disk.attempts] at hstored
  cases hm : s.disk.stored with
  | none => rw [hm] at hstored; exact hstored
  | some m =>
    rw [hm] at hstored
    show Remembers RECOVERY_WINDOW now s.disk.starts
      ((m.attempts.filter (inWindow RECOVERY_WINDOW now)).insertionSort (· ≤ ·))
    have hkept : Remembers RECOVERY_WINDOW now s.disk.starts
        (m.attempts.filter (inWindow RECOVERY_WINDOW now)) := hstored.filter
    rw [hkept.kept_sorted.insertionSort_eq]
    exact hkept

/-! ## The bound -/

/-- The time of a step, if it reads the clock. -/
def Act.time : Act → Option ℚ
  | .sample _ now             => some now
  | .connected _ _ now        => some now
  | .radioSet _ _ now         => some now
  | .operatorSelected _ _ now => some now
  | .booted now               => some now
  | _                         => none

/-- The clock does not go back. -/
def Onwards (s : State) (l : Label) : Prop := ∀ now ∈ l.act.time, s.clock ≤ now

theorem Counted.act {a : Act} (h : Counted cfg s) (htime : ∀ now ∈ a.time, s.clock ≤ now)
    (hs : State.act cfg s a = some s') : Counted cfg s' := by
  cases a with
  | health ok =>
    obtain ⟨w, hw, rfl⟩ := Option.map_eq_some_iff.mp hs
    exact (h.counting hw).checkHealth ok
  | observed radioEnabled registered =>
    obtain ⟨w, hw, rfl⟩ := Option.map_eq_some_iff.mp hs
    exact ((h.counting hw).assign (by rfl)).put
  | sample manual now =>
    obtain ⟨w, hw, rfl⟩ := Option.map_eq_some_iff.mp hs
    exact ((h.counting hw).later (htime now rfl)).maybeRecover manual rfl
  | concluded k recovered =>
    rw [State.act] at hs
    split at hs
    case h_1 w p hw hp =>
      obtain rfl := Option.some.inj hs
      have hk : Counting cfg { s with actions := s.actions.eraseIdx k } w :=
        ⟨⟨h.durable.disk, h.durable.crashes⟩, h.worker w hw⟩
      exact hk.conclude p recovered
    case h_2 => cases hs
  | abandoned k =>
    rw [State.act] at hs
    split at hs
    case h_1 =>
      obtain rfl := Option.some.inj hs
      exact ⟨⟨h.durable.disk, h.durable.crashes⟩, h.worker⟩
    case h_2 => cases hs
  | connected radioEnabled registered now =>
    obtain ⟨w, hw, rfl⟩ := Option.map_eq_some_iff.mp hs
    exact (((h.counting hw).later (htime now rfl)).assign (by rfl)).settleAfterConnect now
  | radioSet enabled registered now =>
    obtain ⟨w, hw, rfl⟩ := Option.map_eq_some_iff.mp hs
    have hset : Counting cfg { s with clock := now }
        { w with radioEnabled := some enabled, registered } :=
      ((h.counting hw).later (htime now rfl)).assign rfl
    exact hset.commanded (enabled && registered) (!enabled) now
  | operatorSelected manual registered now =>
    obtain ⟨w, hw, rfl⟩ := Option.map_eq_some_iff.mp hs
    have hset : Counting cfg { s with clock := now } { w with registered } :=
      ((h.counting hw).later (htime now rfl)).assign rfl
    exact hset.commanded registered manual now
  | killed =>
    obtain ⟨w, hw, rfl⟩ := Option.map_eq_some_iff.mp hs
    exact ⟨⟨h.durable.disk, h.durable.crashes⟩, fun _ hw => by cases hw⟩
  | booted now =>
    rw [State.act] at hs
    split at hs
    case h_1 =>
      obtain rfl := Option.some.inj hs
      exact h.boot (htime now rfl)
    case h_2 => cases hs

/-- One step keeps the count, also when the process dies in it. -/
theorem Counted.step {l : Label} (h : Counted cfg s) (htime : Onwards s l)
    (hs : s.step cfg l = some s') : Counted cfg s' := by
  obtain ⟨r, hact, hend⟩ := step_cases hs
  have hclear : Counted cfg { s with crashes := [] } :=
    ⟨⟨h.durable.disk, fun _ hd => absurd hd List.not_mem_nil⟩, h.worker⟩
  have hr := hclear.act htime hact
  rcases hend with rfl | ⟨k, d, -, hd, rfl⟩
  · exact hr
  · exact ⟨⟨hr.durable.crashes d (List.mem_of_getElem? hd), fun _ hx => absurd hx List.not_mem_nil⟩, fun _ hw => by cases hw⟩

theorem Counted.start (h : s.Starts) : Counted cfg s := by
  have hdisk : Disk.Counted cfg s.clock s.disk := by
    rw [h.disk]
    exact ⟨.nil, fun _ => Nat.zero_le _, List.Pairwise.nil⟩
  refine ⟨⟨hdisk, fun d hd => ?_⟩, fun w hw => ?_⟩
  · rw [h.crashes] at hd
    exact absurd hd List.not_mem_nil
  · rw [h.worker] at hw
    cases hw

/-- **The rate limit.**  While the clock does not go back, at most the configured number of
    registration actions start in any 24 hours, and each at least a cooldown (or 24 hours) after
    the one before. -/
theorem rate_limit (hs : (recovery cfg).ReachableBy Onwards s) :
    Limited cfg.maxAttempts RECOVERY_WINDOW s.disk.starts ∧
      Apart (min cfg.cooldown RECOVERY_WINDOW) s.disk.starts := by
  have hcounted : Counted cfg s :=
    hs.invariant (fun _ => Counted.start) fun _ _ _ hI hG hstep => hI.step hG hstep
  exact ⟨hcounted.durable.disk.limited, hcounted.durable.disk.apart⟩

/-- Two actions in 24 hours, ten seconds apart, and a sample counts at once. -/
def twoADay : Config := ⟨0, 10, 2, 3⟩

/-- A module that was never seen. -/
def unseen : State := ⟨none, 0, [], ⟨none, [], [], false⟩, []⟩

/-- Two actions fail, the process dies with the limit reported but not stored, and the third action
    has to wait for the first one to be a day old. -/
def threeDays : List Label :=
  [⟨.booted 0, none⟩, ⟨.connected none false 0, none⟩, ⟨.sample false 0, none⟩,
    ⟨.concluded 0 false, none⟩, ⟨.sample false 10, none⟩, ⟨.concluded 0 false, none⟩,
    ⟨.sample false 20, some 1⟩, ⟨.booted 30, none⟩, ⟨.connected none false 30, none⟩,
    ⟨.sample false 86399, none⟩, ⟨.sample false 86400, none⟩, ⟨.abandoned 0, none⟩]

/-- The clock does not go back, as a check. -/
def onwards (s : State) (l : Label) : Bool := l.act.time.all fun now => decide (s.clock ≤ now)

theorem onwards_spec {l : Label} (h : onwards s l = true) : Onwards s l := by
  intro now hnow
  rw [onwards, Option.mem_def.mp hnow] at h
  simpa using h

/-- On that run. -/
theorem rate_limit_three_days : ∃ s, (recovery twoADay).ReachableBy Onwards s ∧
    s.disk.starts = [0, 10, 86400] ∧
    Limited 2 86400 s.disk.starts ∧ Apart 10 s.disk.starts := by
  have hrun : ((recovery twoADay).runBy onwards unseen threeDays).map (fun s => s.disk.starts) =
      some [0, 10, 86400] := by decide +kernel
  obtain ⟨s, hs, hstarts⟩ := Option.map_eq_some_iff.mp hrun
  have hreach : (recovery twoADay).ReachableBy Onwards s :=
    ⟨unseen, ⟨rfl, rfl, rfl, rfl⟩, (Machine.runBy_path hs).mono fun _ _ => onwards_spec⟩
  have hrate := rate_limit hreach
  have hmin : min twoADay.cooldown RECOVERY_WINDOW = 10 := by decide +kernel
  rw [hmin] at hrate
  exact ⟨s, hreach, hstarts, hrate⟩

end Air780eHub.Recovery
