/-
  An automatic radio-off and what the worker makes of it.

  A cycle whose `AT+CFUN=1` fails leaves RF off.  The worker takes every RF that is off for the
  user's choice: it reads `AT+CFUN?` and nothing else tells it who switched RF off.

  1. **The condition.**  No `AT+CFUN?` is answered while RF is off because of a cycle and no command
     to switch it off stands.  A command that switches RF on again stands until it has read the
     registration, but what it knows is that RF is on.
  2. **The invariant.**  Without a standing command RF is not off because of one, and neither the modem
     nor the worker believes that it is.
  3. **Steps and runs.**
-/
import Mathlib.Tactic.SplitIfs
import Air780eHub.Radio.Model

namespace Air780eHub.Radio

variable {s s' : State} {a : Act}

/-! ## The condition -/

/-- No command to switch RF off stands, or one that switches it on has succeeded. -/
def State.quiet (s : State) : Bool := !s.requested || s.command = some .registering

/-- The condition on a step. -/
def unfooled (s : State) : Act → Bool
  | .advanced _ (.queried true) => !(s.off = some .cycle && s.quiet)
  | .connected true             => !(s.off = some .cycle && s.quiet)
  | _                           => true

/-! ## The invariant -/

/-- What is believed of an RF that nobody asked to switch off. -/
structure Trusting (s : State) : Prop where
  info    : s.quiet = true → s.info ≠ some false
  cause   : s.quiet = true → s.off ≠ some .command
  state   : s.requested = false → s.state ≠ some false
  command : s.command = some (.sending false) → s.requested = true
  notes   : ∀ automatic, .cancelled automatic ∈ s.notes ∨ .refused automatic ∈ s.notes →
    automatic = false

/-- An answer says that RF is on, or somebody asked to switch it off. -/
theorem Trusting.answer (h : Trusting s) (hq : s.quiet = true)
    (hcalm : (!(s.off = some .cycle && s.quiet)) = true) : s.rf = true := by
  have hcause := h.cause hq
  rw [State.rf]
  cases hoff : s.off with
  | none => rfl
  | some cause =>
    cases cause with
    | command => exact absurd hoff hcause
    | cycle => simp [hoff, hq] at hcalm

theorem quiet_of_not_requested (h : s.requested = false) : s.quiet = true := by
  simp [State.quiet, h]

/-- What is read does not say off while nobody asked for it. -/
theorem Trusting.readRadioEnabled {answered : Bool} (h : Trusting s) (hq : s.quiet = true)
    (hcalm : answered = true → (!(s.off = some .cycle && s.quiet)) = true) :
    s.readRadioEnabled answered ≠ some false := by
  rw [State.readRadioEnabled]
  split_ifs with hanswered
  · rw [h.answer hq (hcalm hanswered)]
    exact nofun
  · exact nofun

/-- A note of a cancellation or refusal comes with a standing command. -/
theorem Trusting.note {n : Note} (h : Trusting s)
    (hn : ∀ automatic, n = .cancelled automatic ∨ n = .refused automatic → automatic = false) :
    Trusting (s.note n) := by
  refine ⟨h.info, h.cause, h.state, h.command, fun automatic ha => ?_⟩
  have hcases : (.cancelled automatic ∈ s.notes ∨ .refused automatic ∈ s.notes) ∨
      (n = .cancelled automatic ∨ n = .refused automatic) := by
    rcases ha with ha | ha
    · rcases List.mem_append.mp ha with ha | ha
      · exact .inl (.inl ha)
      · exact .inr (.inl (List.mem_singleton.mp ha).symm)
    · rcases List.mem_append.mp ha with ha | ha
      · exact .inl (.inr ha)
      · exact .inr (.inr (List.mem_singleton.mp ha).symm)
  rcases hcases with ha | ha
  · exact h.notes automatic ha
  · exact hn automatic ha

/-- A cancellation, while a command stands. -/
theorem Trusting.cancelled (h : Trusting s) (hauto : s.automatic = false) :
    Trusting (s.note (.cancelled s.automatic)) := by
  refine h.note fun automatic ha => ?_
  rcases ha with ha | ha
  · cases ha
    exact hauto
  · cases ha

/-- Samples come and go. -/
theorem Trusting.samples {samples : List Phase} (h : Trusting s) : Trusting { s with samples } :=
  ⟨h.info, h.cause, h.state, h.command, h.notes⟩

/-- RF goes on. -/
theorem Trusting.on (h : Trusting s) : Trusting { s with off := none } :=
  ⟨h.info, fun _ => nofun, h.state, h.command, h.notes⟩

theorem automatic_of_requested (h : s.requested = true) : s.automatic = false := by
  simp [State.automatic, h]

/-! ## Samples -/

/-- The worker believes that the radio was disabled only when somebody asked for it. -/
theorem Trusting.not_automatic (h : Trusting s) (hstate : s.state = some false) :
    s.automatic = false := by
  cases hr : s.requested with
  | true => exact automatic_of_requested hr
  | false => exact absurd hstate (h.state hr)

theorem Trusting.maybeRecover (h : Trusting s) (action : Option Action) :
    Trusting (s.maybeRecover action).1 := by
  unfold State.maybeRecover
  split_ifs with hoff
  · exact h.cancelled (h.not_automatic hoff)
  · cases action with
    | none => exact h
    | some action => cases action <;> exact h

theorem Trusting.automaticRecoveryAllowed {cycle answered : Bool} (h : Trusting s)
    (hcalm : answered = true → (!(s.off = some .cycle && s.quiet)) = true) :
    Trusting (s.automaticRecoveryAllowed cycle answered).1 := by
  rw [State.automaticRecoveryAllowed]
  split_ifs with hrefused
  · -- a refusal comes with a standing command
    have hloud : s.quiet = false := by
      cases hq : s.quiet with
      | false => rfl
      | true =>
        have hread := h.readRadioEnabled hq hcalm
        have hinfo := h.info hq
        cases hr : s.readRadioEnabled answered with
        | none => rw [hr] at hrefused; exact absurd hrefused hinfo
        | some on => rw [hr] at hrefused hread; exact absurd hrefused hread
    have hrequested : s.requested = true := by
      cases hr : s.requested with
      | true => rfl
      | false => rw [quiet_of_not_requested hr] at hloud; cases hloud
    have hquiet : ∀ q : Prop, s.quiet = true → q := fun _ hq => by rw [hloud] at hq; cases hq
    have hinfo : Trusting { s with info := some false } :=
      ⟨hquiet _, h.cause, h.state, h.command, h.notes⟩
    refine hinfo.note fun automatic ha => ?_
    rcases ha with ha | ha
    · cases ha
    · cases ha
      exact automatic_of_requested hrequested
  · exact h
  · exact h

/-- A sample goes on. -/
theorem Trusting.advance {k : Nat} {phase : Phase} {event : Event} {r : State × Option Phase}
    (h : Trusting s) (hcalm : unfooled s (.advanced k event) = true)
    (hr : s.advance phase event = some r) : Trusting r.1 := by
  rw [State.advance.eq_def] at hr
  split at hr
  case h_1 answered =>
    obtain rfl := Option.some.inj hr
    refine ⟨h.info, h.cause, fun hrequested => ?_, h.command, h.notes⟩
    have hread : s.readRadioEnabled answered ≠ some false :=
      h.readRadioEnabled (quiet_of_not_requested hrequested) fun ha => by subst ha; exact hcalm
    have hstate := h.state hrequested
    show (s.readRadioEnabled answered).or s.state ≠ some false
    cases ha : s.readRadioEnabled answered with
    | none => exact hstate
    | some on => rw [ha] at hread; exact hread
  case h_2 action =>
    obtain rfl := Option.some.inj hr
    exact h.maybeRecover action
  case h_3 cycle answered =>
    obtain rfl := Option.some.inj hr
    exact h.automaticRecoveryAllowed fun ha => by subst ha; exact hcalm
  case h_4 reply =>
    obtain rfl := Option.some.inj hr
    show Trusting (if reply.effect then { s with off := some (s.off.getD .cycle) } else s)
    split_ifs
    · refine ⟨h.info, fun hq => ?_, h.state, h.command, h.notes⟩
      have hcause := h.cause hq
      show some (s.off.getD .cycle) ≠ some .command
      cases hoff : s.off with
      | none => exact nofun
      | some cause => rw [hoff] at hcause; exact hcause
    · exact h
  case h_5 =>
    obtain rfl := Option.some.inj hr
    exact h
  case h_6 reply =>
    obtain rfl := Option.some.inj hr
    refine Trusting.note ?_ fun automatic ha => by rcases ha with ha | ha <;> cases ha
    split_ifs
    · exact h.on
    · exact h
  case h_7 reply =>
    obtain rfl := Option.some.inj hr
    show Trusting (s.reset reply)
    rw [State.reset]
    split_ifs
    · exact h.on
    · exact h
  case h_8 => cases hr

/-! ## Steps and runs -/

/-- The command has come to an end; a request that stands goes on to stand. -/
theorem Trusting.commandOver (h : Trusting s) : Trusting { s with command := none } := by
  have hquiet : State.quiet { s with command := none } = true → s.quiet = true := by
    simp only [State.quiet, reduceCtorEq, decide_false, Bool.or_false, Bool.not_eq_eq_eq_not,
      Bool.not_true]
    exact fun hr => by simp [hr]
  exact ⟨fun hq => h.info (hquiet hq), fun hq => h.cause (hquiet hq), h.state, nofun, h.notes⟩

theorem Trusting.commandReply {enabled : Bool} {reply : Reply} (h : Trusting s)
    (hcommand : s.command = some (.sending enabled)) : Trusting (s.commandReply enabled reply) := by
  cases enabled with
  | true =>
    cases reply with
    | done => exact ⟨fun _ => nofun, fun _ => nofun, h.state, nofun, h.notes⟩
    | failed effect =>
      cases effect with
      | true => exact h.on.commandOver
      | false => exact h.commandOver
  | false =>
    have hrequested := h.command hcommand
    have hloud : ∀ q : Prop,
        (!s.requested || decide ((none : Option Command) = some .registering)) = true → q :=
      fun _ hq => by simp [hrequested] at hq
    have hstands : ∀ q : Prop, s.requested = false → q :=
      fun _ hr => by rw [hrequested] at hr; cases hr
    cases reply with
    | done =>
      have hoff : Trusting s.switchedOff := ⟨hloud _, hloud _, hstands _, nofun, h.notes⟩
      exact hoff.cancelled (automatic_of_requested hrequested)
    | failed effect => exact ⟨hloud _, hloud _, hstands _, nofun, h.notes⟩

theorem Trusting.step (h : Trusting s) (hcalm : unfooled s a = true) (hs : s.step a = some s') :
    Trusting s' := by
  cases a with
  | sampled =>
    simp only [State.step, Option.ite_none_right_eq_some, Option.some.injEq] at hs
    obtain ⟨-, rfl⟩ := hs
    exact h.samples
  | advanced k event =>
    rw [State.step] at hs
    cases hk : s.samples[k]? with
    | none => rw [hk] at hs; cases hs
    | some phase =>
      rw [hk] at hs
      obtain ⟨r, hr, rfl⟩ := Option.map_eq_some_iff.mp hs
      exact (h.advance hcalm hr).samples
  | dropped k =>
    simp only [State.step, Option.ite_none_right_eq_some, Option.some.injEq] at hs
    obtain ⟨-, rfl⟩ := hs
    exact h.samples
  | called enabled =>
    simp only [State.step, Option.ite_none_right_eq_some, Option.some.injEq] at hs
    obtain ⟨-, rfl⟩ := hs
    have hstill : (s.requested || !enabled) = false → s.requested = false :=
      fun hr => (Bool.or_eq_false_iff.mp hr).1
    have hquiet : (!(s.requested || !enabled) ||
        decide (some (Command.sending enabled) = some .registering)) = true → s.quiet = true := by
      intro hq
      refine quiet_of_not_requested (hstill ?_)
      simpa using hq
    refine ⟨fun hq => h.info (hquiet hq), fun hq => h.cause (hquiet hq),
      fun hr => h.state (hstill hr), fun hc => ?_, h.notes⟩
    obtain rfl : enabled = false := by simpa using hc
    exact Bool.or_true _
  | commandReplied reply =>
    rw [State.step] at hs
    split at hs
    case h_1 enabled hcommand =>
      obtain rfl := Option.some.inj hs
      exact h.commandReply hcommand
    case h_2 => cases hs
  | commandDone =>
    simp only [State.step, Option.ite_none_right_eq_some, Option.some.injEq] at hs
    obtain ⟨hregistering, rfl⟩ := hs
    have hq : s.quiet = true := by simp [State.quiet, hregistering]
    exact ⟨fun _ => h.info hq, fun _ => h.cause hq, fun _ => nofun, nofun, h.notes⟩
  | commandDropped =>
    obtain rfl := Option.some.inj hs
    exact h.commandOver
  | disconnected =>
    obtain rfl := Option.some.inj hs
    by_cases hregistering : s.command = some .registering
    · rw [if_pos hregistering]
      exact ⟨h.info, h.cause, h.state, h.command, h.notes⟩
    · rw [if_neg hregistering]
      have hover := h.commandOver
      exact ⟨hover.info, hover.cause, hover.state, nofun, hover.notes⟩
  | orphanDecided =>
    simp only [State.step, Option.ite_none_right_eq_some, Option.some.injEq] at hs
    obtain ⟨-, rfl⟩ := hs
    have hdecided := h.maybeRecover none
    exact ⟨hdecided.info, hdecided.cause, hdecided.state, hdecided.command, hdecided.notes⟩
  | connected answered =>
    simp only [State.step, Option.ite_none_left_eq_some, Option.some.injEq] at hs
    obtain ⟨-, rfl⟩ := hs
    have hanswered : answered = true → (!(s.off = some .cycle && s.quiet)) = true :=
      fun ha => by subst ha; exact hcalm
    have hopened : Trusting { s with
        live := true, info := s.readRadioEnabled answered, state := s.readRadioEnabled answered } :=
      ⟨fun hq => h.readRadioEnabled hq hanswered, h.cause,
        fun hr => h.readRadioEnabled (quiet_of_not_requested hr) hanswered, h.command, h.notes⟩
    rw [State.settleAfterConnect]
    split_ifs with hoff
    · exact hopened.cancelled (hopened.not_automatic hoff)
    · exact hopened
  | restarted =>
    obtain rfl := Option.some.inj hs
    have hover := h.commandOver
    exact ⟨fun _ => nofun, hover.cause, fun _ => nofun, nofun, hover.notes⟩
  | rebooted =>
    obtain rfl := Option.some.inj hs
    exact h.on

theorem Trusting.start (h : s.Starts) : Trusting s := by
  refine ⟨fun _ => ?_, fun _ => ?_, fun _ => ?_, fun hc => ?_, fun automatic ha => ?_⟩
  · rw [h.info]
    exact nofun
  · rw [h.off]
    exact nofun
  · rw [h.state]
    exact nofun
  · rw [h.command] at hc
    cases hc
  · rw [h.notes] at ha
    rcases ha with ha | ha <;> cases ha

/-- **An automatic radio-off is not taken for a deliberate one.**  While RF is off only because of a
    cycle, no recovery is cancelled because the radio was disabled, and no later action is refused. -/
theorem automatic_off_trusted (hs : radio.ReachableBy (fun s a => unfooled s a = true) s) :
    ∀ automatic, .cancelled automatic ∈ s.notes ∨ .refused automatic ∈ s.notes →
      automatic = false := by
  have htrusting : Trusting s :=
    hs.invariant (fun _ => Trusting.start) fun _ _ _ hI hG hstep => hI.step hG hstep
  exact htrusting.notes

/-- A module and an Agent that has not opened it yet. -/
def powered : State := ⟨none, none, none, false, [], 0, none, false, false, []⟩

/-- A cycle switches RF off, and its `AT+CFUN=1` fails. -/
def halfCycle : List Act :=
  [.connected true, .sampled, .advanced 0 (.queried true), .advanced 0 (.decided (some .radioCycle)),
    .advanced 0 (.queried true), .advanced 0 (.replied .done), .advanced 0 .slept,
    .advanced 0 (.replied (.failed false))]

/-- The next sample gets no answer, and its cycle switches RF on again. -/
theorem automatic_off_trusted_unanswered : ∃ s,
    radio.ReachableBy (fun s a => unfooled s a = true) s ∧ s.rf = true ∧
    ∀ automatic, .cancelled automatic ∈ s.notes ∨ .refused automatic ∈ s.notes →
      automatic = false := by
  have hrun : (radio.runBy unfooled powered (halfCycle ++ [.sampled, .advanced 0 (.queried false),
      .advanced 0 (.decided (some .radioCycle)), .advanced 0 (.queried false),
      .advanced 0 (.replied .done), .advanced 0 .slept, .advanced 0 (.replied .done)])).map State.rf =
      some true := by decide +kernel
  obtain ⟨s, hs, hrf⟩ := Option.map_eq_some_iff.mp hrun
  have hreach : radio.ReachableBy (fun s a => unfooled s a = true) s :=
    ⟨powered, ⟨rfl, rfl, rfl, rfl, rfl, rfl, rfl, rfl, rfl, rfl⟩, Machine.runBy_path hs⟩
  exact ⟨s, hreach, hrf, automatic_off_trusted hreach⟩

/-- The next sample reads that RF is off, and cancels the recovery: nobody asked for it. -/
theorem half_cycle_cancels : ∃ s, radio.Reachable s ∧ s.automatic = true ∧
    .cancelled true ∈ s.notes := by
  have hrun : (radio.run powered (halfCycle ++ [.sampled, .advanced 0 (.queried true),
      .advanced 0 (.decided (some .radioCycle))])).map (fun s => (s.automatic, s.notes)) =
      some (true, [.automaticOn false, .cancelled true]) := by decide +kernel
  obtain ⟨s, hs, hsummary⟩ := Option.map_eq_some_iff.mp hrun
  obtain ⟨hautomatic, hnotes⟩ : s.automatic = true ∧
      s.notes = [.automaticOn false, .cancelled true] := by
    simpa only [Prod.mk.injEq] using hsummary
  exact ⟨s, Machine.run_reachable ⟨rfl, rfl, rfl, rfl, rfl, rfl, rfl, rfl, rfl, rfl⟩ hs, hautomatic,
    by simp [hnotes]⟩

end Air780eHub.Radio
